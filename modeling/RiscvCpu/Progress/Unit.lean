import RiscvCpu.Refine.MulDiv

/-!
# Unit — how long an operation keeps the multiply/divide unit busy

The unit and its divider under any ports: operations may start, be killed and be taken away in any
cycle.  `UnitPhase` lists what the two can be doing, among it the draining of the response to a killed
division.  `unitWait` bounds the cycles for which an operation that is held on the ports still stalls,
and every edge on which it stalls lowers the bound.
-/

namespace RiscvCpu
namespace Mul

/-! ## Phases -/

/-- The multiplier is empty, or its one operation is in exactly one stage. -/
inductive PipePhase (r : MulPipeline.Regs) : Prop
  | idle (rest : PipeRest r)
  | stage1 (active : r.active = true) (done : r.done = false) (stage1 : r.stage1Valid = true)
      (stage2 : r.stage2Valid = false)
  | stage2 (active : r.active = true) (done : r.done = false) (stage1 : r.stage1Valid = false)
      (stage2 : r.stage2Valid = true) (high : r.highResultR = true)
  | product (active : r.active = true) (done : r.done = true) (stage1 : r.stage1Valid = false)
      (stage2 : r.highResultR = true → r.stage2Valid = false)

/-- The divider has a request that it has not answered yet. -/
def Answering (d : Divider.Regs) : Prop :=
  (d.state = Divider.WAIT_RESULT ∧ d.delayCounter ≤ 10#5) ∨ d.state = Divider.OUTPUT_VALID

/-- The divide state machine and the divider: both idle, waiting for the response, showing the result,
or draining the response to a killed request. -/
inductive DivPhase (m : Regs) (d : Divider.Regs) : Prop
  | rest (rest : DivRest m d)
  | waiting (divState : m.divState = 0b01#2) (discard : m.divDiscardPending = false)
      (divider : Answering d)
  | answered (divState : m.divState = 0b11#2 ∨ m.divState = 0b10#2)
      (discard : m.divDiscardPending = false) (divider : d.state = Divider.IDLE)
  | draining (divState : m.divState = 0b00#2) (discard : m.divDiscardPending = true)
      (divider : Answering d)

/-- What the unit and its divider can be doing. -/
structure UnitPhase (m : Regs) (d : Divider.Regs) : Prop where
  pipe : PipePhase m.pipe
  div : DivPhase m d

variable {m : Regs} {d : Divider.Regs} {p : Ports}

theorem unitPhase_reset (m : Regs) : UnitPhase (reset m) Divider.reset :=
  { pipe := .idle ⟨rfl, rfl, rfl, rfl⟩
    div := .rest ⟨rfl, rfl, rfl⟩ }

/-! ### The multiplier -/

theorem pipePhase_next {r : MulPipeline.Regs} (h : PipePhase r) (q : MulPipeline.Ports) :
    PipePhase (MulPipeline.next mulHighCycle r q) := by
  by_cases hkill : q.kill = true
  · refine .idle ?_
    constructor <;> simp [MulPipeline.next, hkill, MulPipeline.clear]
  · cases h with
    | idle rest =>
        -- a start is accepted at once
        cases hstart : q.start with
        | false =>
            refine .idle ?_
            constructor <;>
              simp [MulPipeline.next, hkill, MulPipeline.startAccept, hstart,
                MulPipeline.lowComplete, MulPipeline.highComplete, mulHighCycle, rest.active,
                rest.done, rest.stage1, rest.stage2]
        | true =>
            refine .stage1 ?_ ?_ ?_ ?_ <;>
              simp [MulPipeline.next, hkill, MulPipeline.startAccept, hstart,
                MulPipeline.lowComplete, MulPipeline.highComplete, mulHighCycle, rest.active,
                rest.done, rest.stage1, rest.stage2]
    | stage1 active done stage1 stage2 =>
        -- a low word is complete, a high word takes one stage more
        cases hhigh : r.highResultR with
        | false =>
            refine .product ?_ ?_ ?_ ?_ <;>
              simp [MulPipeline.next, hkill, MulPipeline.startAccept, MulPipeline.lowComplete,
                hhigh, active, stage1]
        | true =>
            refine .stage2 ?_ ?_ ?_ ?_ ?_ <;>
              simp [MulPipeline.next, hkill, MulPipeline.startAccept, MulPipeline.lowComplete,
                MulPipeline.highComplete, mulHighCycle, hhigh, active, done, stage1, stage2]
    | stage2 active done stage1 stage2 high =>
        refine .product ?_ ?_ ?_ ?_ <;>
          simp [MulPipeline.next, hkill, MulPipeline.startAccept, MulPipeline.lowComplete,
            MulPipeline.highComplete, mulHighCycle, high, active, stage1, stage2]
    | product active done stage1 stage2 =>
        have hcomplete : MulPipeline.highComplete mulHighCycle r = false := by
          cases hhigh : r.highResultR with
          | false => simp [MulPipeline.highComplete, hhigh]
          | true => simp [MulPipeline.highComplete, mulHighCycle, stage2 hhigh]
        cases hready : q.resultReady with
        | true =>
            refine .idle ?_
            constructor <;>
              simp [MulPipeline.next, hkill, MulPipeline.startAccept, MulPipeline.lowComplete,
                hcomplete, hready, active, done, stage1]
        | false =>
            refine .product ?_ ?_ ?_ ?_ <;>
              simp [MulPipeline.next, hkill, MulPipeline.startAccept, MulPipeline.lowComplete,
                hcomplete, hready, active, done, stage1]

/-! ### The divider -/

theorem doutTvalid_eq (p : Ports) :
    (fromDivider m d p).doutTvalid = (d.state == Divider.OUTPUT_VALID) := rfl

/-- A divider without a request stays idle unless one is handed to it. -/
theorem divider_next_idle (h : d.state = Divider.IDLE) (hstart : divStart m p = false) :
    (unitNext m d p).2 = d := by
  simp [unitNext, Divider.next, toDivider, Divider.inputHandshakeDone, hstart, h]

/-- One with a request keeps it until it answers, and is idle after that. -/
theorem divider_next_answering (h : Answering d) :
    (d.state = Divider.OUTPUT_VALID ∧ (unitNext m d p).2.state = Divider.IDLE) ∨
      (d.state = Divider.WAIT_RESULT ∧ Answering (unitNext m d p).2) := by
  rcases h with ⟨hwait, hle⟩ | hout
  · right
    refine ⟨hwait, ?_⟩
    by_cases hcount : 0#5 < d.delayCounter
    · left
      have hnext : (unitNext m d p).2 = { d with delayCounter := d.delayCounter - 1#5 } := by
        simp [unitNext, Divider.next, hwait, Divider.WAIT_RESULT, Divider.IDLE, hcount]
      rw [hnext]
      refine ⟨hwait, ?_⟩
      show d.delayCounter - 1#5 ≤ 10#5
      bv_omega
    · right
      simp [unitNext, Divider.next, hwait, Divider.WAIT_RESULT, Divider.IDLE, hcount]
  · left
    refine ⟨hout, ?_⟩
    simp [unitNext, Divider.next, hout, Divider.OUTPUT_VALID, Divider.WAIT_RESULT, Divider.IDLE]

/-- A request is accepted by an idle divider. -/
theorem unitNext_of_divStart (h : DivRest m d) (hstart : divStart m p = true) :
    (unitNext m d p).1.divState = 0b01#2 ∧ (unitNext m d p).1.divDiscardPending = false ∧
      (unitNext m d p).2.state = Divider.WAIT_RESULT ∧
      (unitNext m d p).2.delayCounter = 10#5 := by
  have hlive : p.kill = false := by
    simp only [divStart, Bool.and_eq_true, Bool.not_eq_true'] at hstart
    exact hstart.1.1.2
  have hready : Divider.divisorTready d (toDivider m p) = true ∧
      Divider.dividendTready d (toDivider m p) = true := by
    simp [Divider.divisorTready, Divider.dividendTready, toDivider, hstart, h.divider]
  have hdone : Divider.inputHandshakeDone d (toDivider m p) = true := by
    rw [Divider.inputHandshakeDone, hready.1, hready.2]
    simp [toDivider, hstart]
  refine ⟨?_, ?_, ?_, ?_⟩
  · simp [unitNext, next, hlive, h.discard, h.divState, hstart, fromDivider, hready]
  · simp [unitNext, next, hlive, h.discard, h.divState, hstart]
  · simp [unitNext, Divider.next, h.divider, hdone]
  · simp [unitNext, Divider.next, h.divider, hdone]

theorem divStart_eq_false (h : m.divState ≠ 0b00#2 ∨ m.divDiscardPending = true) :
    divStart m p = false := by
  rcases h with h | h <;> simp [divStart, h]

theorem divPhase_next (h : DivPhase m d) (p : Ports) :
    DivPhase (unitNext m d p).1 (unitNext m d p).2 := by
  cases h with
  | rest rest =>
      cases hstart : divStart m p with
      | true =>
          rcases unitNext_of_divStart rest hstart with ⟨hstate, hdiscard, hwait, hcount⟩
          exact .waiting hstate hdiscard (Or.inl ⟨hwait, by rw [hcount]; decide⟩)
      | false =>
          have hdivider := divider_next_idle (m := m) rest.divider hstart
          -- a special case is answered by the unit itself
          by_cases hspecial : p.kill = false ∧ divSpecial p = true
          · refine .answered (Or.inr ?_) ?_ (by rw [hdivider]; exact rest.divider)
            · simp [unitNext, next, hspecial, rest.discard, rest.divState, hstart]
            · simp [unitNext, next, hspecial, rest.discard, rest.divState, hstart]
          · refine .rest ⟨?_, ?_, by rw [hdivider]; exact rest.divider⟩
            · cases hkill : p.kill with
              | true => simp [unitNext, next, hkill]
              | false =>
                  have hno : divSpecial p = false := by simpa [hkill] using hspecial
                  simp [unitNext, next, hkill, rest.discard, rest.divState, hstart, hno]
            · cases hkill : p.kill <;>
                cases hs : divSpecial p <;>
                  simp [unitNext, next, hkill, rest.discard, rest.divState, hstart, hs]
  | waiting divState discard divider =>
      rcases @divider_next_answering m d p divider with ⟨hout, hidle⟩ | ⟨hwait, hnext⟩
      · -- the response is here; a kill in this cycle throws it away
        cases hkill : p.kill with
        | true =>
            refine .rest ⟨?_, ?_, hidle⟩ <;>
              simp [unitNext, next, hkill, doutTvalid_eq, hout]
        | false =>
            refine .answered (Or.inl ?_) ?_ hidle <;>
              simp [unitNext, next, hkill, discard, divState, doutTvalid_eq, hout]
      · have hnot : (d.state == Divider.OUTPUT_VALID) = false := by rw [hwait]; rfl
        cases hkill : p.kill with
        | true =>
            refine .draining ?_ ?_ hnext <;>
              simp [unitNext, next, hkill, divState, doutTvalid_eq, hnot]
        | false =>
            refine .waiting ?_ ?_ hnext <;>
              simp [unitNext, next, hkill, discard, divState, doutTvalid_eq, hnot]
  | answered divState discard divider =>
      have hstart : divStart m p = false :=
        divStart_eq_false (Or.inl (by rcases divState with h | h <;> simp [h]))
      have hdivider := divider_next_idle (m := m) divider hstart
      refine .rest ⟨?_, ?_, by rw [hdivider]; exact divider⟩
      · rcases divState with h | h <;> cases hkill : p.kill <;>
          simp [unitNext, next, hkill, discard, h]
      · rcases divState with h | h <;> cases hkill : p.kill <;>
          simp [unitNext, next, hkill, discard, h]
  | draining divState discard divider =>
      rcases @divider_next_answering m d p divider with ⟨hout, hidle⟩ | ⟨hwait, hnext⟩
      · refine .rest ⟨?_, ?_, hidle⟩ <;> cases hkill : p.kill <;>
          simp [unitNext, next, hkill, discard, doutTvalid_eq, hout]
      · have hnot : (d.state == Divider.OUTPUT_VALID) = false := by rw [hwait]; rfl
        refine .draining ?_ ?_ hnext <;> cases hkill : p.kill <;>
          simp [unitNext, next, hkill, discard, doutTvalid_eq, hnot]

theorem unitPhase_next (h : UnitPhase m d) (p : Ports) :
    UnitPhase (unitNext m d p).1 (unitNext m d p).2 :=
  { pipe := by rw [pipe_next]; exact pipePhase_next h.pipe (pipePorts p)
    div := divPhase_next h.div p }

/-! ## The wait -/

def pipeWait (r : MulPipeline.Regs) : Nat :=
  if r.done then 0
  else if r.stage1Valid then (if r.highResultR then 2 else 1)
  else if r.stage2Valid then 1
  else 3

/-- Cycles until a divider with a request is idle again. -/
def dividerWait (d : Divider.Regs) : Nat :=
  if d.state == Divider.WAIT_RESULT then d.delayCounter.toNat + 2
  else if d.state == Divider.OUTPUT_VALID then 1
  else 0

def divWait (m : Regs) (d : Divider.Regs) : Nat :=
  if divDone m then 0
  else if m.divState == 0b01#2 then dividerWait d
  -- a new request waits for the response to a killed one
  else 13 + dividerWait d

/-- A bound on the cycles for which `op` still stalls. -/
def unitWait (op : MulOp) (m : Regs) (d : Divider.Regs) : Nat :=
  if op.div || op.rem then divWait m d else pipeWait m.pipe

theorem dividerWait_le (h : Answering d) : dividerWait d ≤ 12 := by
  rcases h with ⟨hwait, hle⟩ | hout
  · have hle' : d.delayCounter.toNat ≤ 10 := hle
    simp only [dividerWait, hwait, beq_self_eq_true, if_true]
    omega
  · simp [dividerWait, hout, Divider.OUTPUT_VALID, Divider.WAIT_RESULT]

theorem dividerWait_next (h : Answering d) :
    dividerWait (unitNext m d p).2 < dividerWait d := by
  rcases h with ⟨hwait, -⟩ | hout
  · by_cases hcount : 0#5 < d.delayCounter
    · have hnext : (unitNext m d p).2 = { d with delayCounter := d.delayCounter - 1#5 } := by
        simp [unitNext, Divider.next, hwait, Divider.WAIT_RESULT, Divider.IDLE, hcount]
      have hsub : (d.delayCounter - 1#5).toNat + 1 = d.delayCounter.toNat := by bv_omega
      simp only [hnext, dividerWait, hwait, beq_self_eq_true, if_true]
      omega
    · have hnext : (unitNext m d p).2 = { d with state := Divider.OUTPUT_VALID } := by
        simp [unitNext, Divider.next, hwait, Divider.WAIT_RESULT, Divider.IDLE, hcount]
      simp only [hnext, dividerWait, hwait, beq_self_eq_true, if_true]
      simp [Divider.OUTPUT_VALID, Divider.WAIT_RESULT]
  · simp [unitNext, Divider.next, hout, dividerWait, Divider.OUTPUT_VALID, Divider.WAIT_RESULT,
      Divider.IDLE]

theorem dividerWait_idle (h : d.state = Divider.IDLE) : dividerWait d = 0 := by
  simp [dividerWait, h, Divider.IDLE, Divider.WAIT_RESULT, Divider.OUTPUT_VALID]

/-- No operation stalls for more than 25 cycles. -/
theorem unitWait_le (op : MulOp) (h : UnitPhase m d) : unitWait op m d ≤ 25 := by
  rw [unitWait]
  split
  · rw [divWait]
    cases h.div with
    | rest rest =>
        rw [dividerWait_idle rest.divider]
        repeat' split
        all_goals omega
    | answered divState discard divider =>
        rw [dividerWait_idle divider]
        repeat' split
        all_goals omega
    | waiting divState discard divider | draining divState discard divider =>
        have hle := dividerWait_le divider
        repeat' split
        all_goals omega
  · rw [pipeWait]
    repeat' split
    all_goals omega

/-- An unfinished multiplication on the ports comes one stage further. -/
theorem pipeWait_next {r : MulPipeline.Regs} {q : MulPipeline.Ports} (h : PipePhase r)
    (hkill : q.kill = false) (hstart : q.start = true) (hdone : r.done = false) :
    pipeWait (MulPipeline.next mulHighCycle r q) < pipeWait r := by
  cases h with
  | idle rest =>
      have hafter : pipeWait (MulPipeline.next mulHighCycle r q) ≤ 2 := by
        simp only [pipeWait, MulPipeline.next, hkill, MulPipeline.startAccept, hstart, rest.active,
          rest.done, rest.stage1, rest.stage2, MulPipeline.lowComplete, MulPipeline.highComplete]
        cases q.highResult <;> simp [mulHighCycle]
      have hbefore : pipeWait r = 3 := by simp [pipeWait, rest.done, rest.stage1, rest.stage2]
      omega
  | stage1 active done stage1 stage2 =>
      cases hhigh : r.highResultR <;>
        simp [pipeWait, MulPipeline.next, hkill, MulPipeline.startAccept, MulPipeline.lowComplete,
          MulPipeline.highComplete, mulHighCycle, hhigh, active, done, stage1, stage2]
  | stage2 active done stage1 stage2 high =>
      simp [pipeWait, MulPipeline.next, hkill, MulPipeline.lowComplete, MulPipeline.highComplete,
        mulHighCycle, high, done, stage1, stage2]
  | product active done' stage1 stage2 =>
      rw [hdone] at done'
      cases done'

/-- An unfinished division on the ports comes one cycle nearer to its result. -/
theorem divWait_next (h : DivPhase m d) (hkill : p.kill = false)
    (hask : p.isMulticycle = true ∧ p.isMul = true ∧ mulOpDiv p = true) (hdone : divDone m = false) :
    divWait (unitNext m d p).1 (unitNext m d p).2 < divWait m d := by
  cases h with
  | rest rest =>
      have hbefore : divWait m d = 13 := by
        simp [divWait, hdone, rest.divState, dividerWait_idle rest.divider]
      cases hstart : divStart m p with
      | true =>
          rcases unitNext_of_divStart rest hstart with ⟨hstate, -, hwait, hcount⟩
          have hafter : divWait (unitNext m d p).1 (unitNext m d p).2 = 12 := by
            simp [divWait, divDone, hstate, dividerWait, hwait, hcount]
          omega
      | false =>
          -- what is not handed to the divider is a special case
          have hspecial : divSpecial p = true := by
            simp only [divStart, hask, rest.divState, rest.discard, hkill, divSpecial] at hstart ⊢
            revert hstart
            cases div0 p <;> cases div1 p <;> simp
          have hafter : divWait (unitNext m d p).1 (unitNext m d p).2 = 0 := by
            simp [divWait, divDone, unitNext, next, hkill, rest.discard, rest.divState, hstart,
              hspecial]
          omega
  | waiting divState discard divider =>
      have hbefore : divWait m d = dividerWait d := by simp [divWait, hdone, divState]
      have hless := @dividerWait_next m d p divider
      rcases @divider_next_answering m d p divider with ⟨hout, -⟩ | ⟨hwait, -⟩
      · have hafter : divWait (unitNext m d p).1 (unitNext m d p).2 = 0 := by
          simp [divWait, divDone, unitNext, next, hkill, discard, divState, doutTvalid_eq, hout]
        omega
      · have hnot : (d.state == Divider.OUTPUT_VALID) = false := by rw [hwait]; rfl
        have hstate : (unitNext m d p).1.divState = 0b01#2 := by
          simp [unitNext, next, hkill, discard, divState, doutTvalid_eq, hnot]
        have hafter : divWait (unitNext m d p).1 (unitNext m d p).2 =
            dividerWait (unitNext m d p).2 := by
          simp [divWait, divDone, hstate]
        omega
  | answered divState discard divider =>
      rcases divState with h | h <;> simp [divDone, h] at hdone
  | draining divState discard divider =>
      have hless := @dividerWait_next m d p divider
      have hbefore : divWait m d = 13 + dividerWait d := by simp [divWait, hdone, divState]
      have hstate : (unitNext m d p).1.divState = 0b00#2 := by
        simp [unitNext, next, hkill, discard]
      have hafter : divWait (unitNext m d p).1 (unitNext m d p).2 =
          13 + dividerWait (unitNext m d p).2 := by
        simp [divWait, divDone, hstate]
      omega

/-- An operation on the ports that stalls comes nearer to its end. -/
theorem unitWait_next {k : MulPacket} (h : UnitPhase m d) (hk : Operation k)
    (hop : p.mulOp = k.mulOp) (hcycle : p.isMulticycle = true) (hstall : mulStall m p = true) :
    unitWait k.mulOp (unitNext m d p).1 (unitNext m d p).2 < unitWait k.mulOp m d := by
  simp only [mulStall, mulOpMul, mulOpDiv, hop, Bool.and_eq_true, Bool.not_eq_true'] at hstall
  rcases hstall with ⟨⟨hkill, hmul⟩, hwait⟩
  cases hk with
  | mul s1 s2 | mulh s1 s2 =>
      simp only [unitWait, Bool.or_self, Bool.false_eq_true, if_false, pipe_next]
      have hdone : m.pipe.done = false := by simpa using hwait
      exact pipeWait_next h.pipe hkill (by simp [pipePorts, mulStart, mulOpMul, hmul, hop]) hdone
  | div s | rem s =>
      simp only [unitWait, Bool.or_true, Bool.true_or, if_true]
      have hdone : divDone m = false := by simpa using hwait
      exact divWait_next h.div hkill ⟨hcycle, hmul, by simp [mulOpDiv, hop]⟩ hdone

end Mul
end RiscvCpu
