import RiscvCpu.Lib.Clocked
import RiscvCpu.Refine.MulDiv

/-!
# Division — the divide wrapper around any divider

The divider is outside the wrapper and takes its time: it accepts requests when it is ready and
answers each one at some later cycle.  A flush kills the operation but not the request, so the wrapper
has to let the answer of a killed request pass.  `Phase` ties the state of the wrapper to the one
request that may be outstanding.
-/

namespace RiscvCpu
namespace Mul

/-- The state of the unit in cycle `t`: `p` are its inputs, `d` the wires of the divider, and
`highCycle` the depth of the multiplier beside it. -/
def unitRun (highCycle : Nat) (m₀ : Regs) (p : Nat → Ports) (d : Nat → DivPorts) (t : Nat) : Regs :=
  Clocked.run (fun m i => next ⟨true, highCycle⟩ m i.1 i.2) (reset m₀) (fun n => (p n, d n)) t

theorem unitRun_succ (highCycle : Nat) (m₀ : Regs) (p : Nat → Ports) (d : Nat → DivPorts) (t : Nat) :
    unitRun highCycle m₀ p d (t + 1) =
      next ⟨true, highCycle⟩ (unitRun highCycle m₀ p d t) (p t) (d t) := rfl

/-- The remainder and the quotient of the accepted unsigned words, in the order of `DEBUG_EN`. -/
def answerTo (p : Ports) : BitVec 64 := (divSrc1 p % divSrc2 p) ++ (divSrc1 p / divSrc2 p)

/-- The same operation is asked for. -/
structure Same (p p' : Ports) : Prop where
  isMul : p'.isMul = p.isMul
  mulOp : p'.mulOp = p.mulOp
  src1 : p'.mulSrc1 = p.mulSrc1
  src2 : p'.mulSrc2 = p.mulSrc2
  signed1 : p'.src1Signed = p.src1Signed
  signed2 : p'.src2Signed = p.src2Signed

/-- A division or a remainder is asked for, and nothing else. -/
def OneHotDivision (p : Ports) : Prop :=
  p.mulOp = ⟨false, false, true, false⟩ ∨ p.mulOp = ⟨false, false, false, true⟩

/-- The value of the instruction set for the operation on the ports. -/
def portValue (p : Ports) : Word :=
  MulPacket.value ⟨p.mulOp, p.src1Signed, p.src2Signed⟩ p.mulSrc1 p.mulSrc2

section
variable (highCycle : Nat) (m₀ : Regs) (p : Nat → Ports) (d : Nat → DivPorts)

/-- The divider accepts a request in cycle `t`. -/
def Accepts (t : Nat) : Prop := divAccept (unitRun highCycle m₀ p d t) (p t) (d t) = true

/-- What is asked of a divider: in cycle `t` it answers the request of cycle `answers t`.  It answers
only requests it has accepted before, each at most once, and with their remainder and quotient.  How
long it takes, and when it is ready, is up to it. -/
structure Answers (answers : Nat → Option Nat) : Prop where
  valid : ∀ t, (d t).doutTvalid = (answers t).isSome
  accepted : ∀ t a, answers t = some a → a < t ∧ Accepts highCycle m₀ p d a
  once : ∀ t u a, answers t = some a → answers u = some a → t = u
  data : ∀ t a, answers t = some a → (d t).doutTdata = answerTo (p a)

/-- What is asked of the pipeline: the unit may take several cycles, both operands of a division are
read the same way, and an operation is held while the unit stalls. -/
structure Holds : Prop where
  multicycle : ∀ t, (p t).isMulticycle = true
  signs : ∀ t, (p t).isMul = true → OneHotDivision (p t) → (p t).src1Signed = (p t).src2Signed
  held : ∀ t, mulStall (unitRun highCycle m₀ p d t) (p t) = true → Same (p t) (p (t + 1))

/-- The request of cycle `a` is not answered before cycle `t`. -/
def Outstanding (answers : Nat → Option Nat) (t a : Nat) : Prop :=
  a < t ∧ Accepts highCycle m₀ p d a ∧ ∀ u, u < t → answers u ≠ some a

/-- The wrapper and the requests under way in cycle `t`. -/
inductive Phase (answers : Nat → Option Nat) (t : Nat) : Prop
  | idle
      (divState : (unitRun highCycle m₀ p d t).divState = 0b00#2)
      (discard : (unitRun highCycle m₀ p d t).divDiscardPending = false)
      (none : ∀ a, ¬ Outstanding highCycle m₀ p d answers t a)
  | waiting (a : Nat)
      (divState : (unitRun highCycle m₀ p d t).divState = 0b01#2)
      (discard : (unitRun highCycle m₀ p d t).divDiscardPending = false)
      (one : ∀ a', Outstanding highCycle m₀ p d answers t a' ↔ a' = a)
      (same : Same (p a) (p t))
      (alive : ∀ k, a ≤ k → k < t → (p k).kill = false)
      (asked : (p t).isMul = true ∧ mulOpDiv (p t) = true)
      (plain : div0 (p t) = false ∧ div1 (p t) = false)
  | draining (a : Nat)
      (divState : (unitRun highCycle m₀ p d t).divState = 0b00#2)
      (discard : (unitRun highCycle m₀ p d t).divDiscardPending = true)
      (one : ∀ a', Outstanding highCycle m₀ p d answers t a' ↔ a' = a)
  | quotient
      (divState : (unitRun highCycle m₀ p d t).divState = 0b11#2)
      (discard : (unitRun highCycle m₀ p d t).divDiscardPending = false)
      (none : ∀ a, ¬ Outstanding highCycle m₀ p d answers t a)
      (data : (unitRun highCycle m₀ p d t).doutTdataReg = answerTo (p t))
      (result : (unitRun highCycle m₀ p d t).divResult = answerTo (p t))
      (plain : div0 (p t) = false)
  | special
      (divState : (unitRun highCycle m₀ p d t).divState = 0b10#2)
      (discard : (unitRun highCycle m₀ p d t).divDiscardPending = false)
      (none : ∀ a, ¬ Outstanding highCycle m₀ p d answers t a)
      (result : (unitRun highCycle m₀ p d t).divResult = specialResult ⟨true, highCycle⟩ (p t))
      (exception : (div0 (p t) || div1 (p t)) = true)

end

variable {highCycle : Nat} {m₀ : Regs} {p : Nat → Ports} {d : Nat → DivPorts}
variable {answers : Nat → Option Nat} {t : Nat}

/-! ## The same operation -/

theorem Same.divSrc {q q' : Ports} (h : Same q q') :
    divSrc1 q' = divSrc1 q ∧ divSrc2 q' = divSrc2 q := by
  simp [divSrc1, divSrc2, h.src1, h.src2, h.signed1, h.signed2]

theorem Same.answerTo_eq {q q' : Ports} (h : Same q q') : answerTo q' = answerTo q := by
  rw [answerTo, h.divSrc.1, h.divSrc.2, answerTo]

theorem Same.checks {q q' : Ports} (h : Same q q') :
    div0 q' = div0 q ∧ div1 q' = div1 q ∧ mulOpDiv q' = mulOpDiv q := by
  simp [div0, div1, mulOpDiv, h.divSrc.2, h.src1, h.src2, h.signed1, h.signed2, h.mulOp]

theorem Same.mulOpMul {q q' : Ports} (h : Same q q') : mulOpMul q' = mulOpMul q := by
  simp only [Mul.mulOpMul, h.mulOp]

theorem Same.specialResult_eq {q q' : Ports} (h : Same q q') (b : Build) :
    specialResult b q' = specialResult b q := by
  simp [specialResult, h.checks.1, h.src1]

theorem Same.trans {q q' q'' : Ports} (h : Same q q') (h' : Same q' q'') : Same q q'' :=
  { isMul := h'.isMul.trans h.isMul
    mulOp := h'.mulOp.trans h.mulOp
    src1 := h'.src1.trans h.src1
    src2 := h'.src2.trans h.src2
    signed1 := h'.signed1.trans h.signed1
    signed2 := h'.signed2.trans h.signed2 }

/-! ## Requests under way -/

/-- The answer of a cycle belongs to a request that is outstanding. -/
theorem outstanding_of_answer (ha : Answers highCycle m₀ p d answers) {a : Nat}
    (h : answers t = some a) : Outstanding highCycle m₀ p d answers t a := by
  rcases ha.accepted t a h with ⟨hlt, hacc⟩
  refine ⟨hlt, hacc, ?_⟩
  intro u hut hu
  have := ha.once t u a h hu
  omega

theorem outstanding_succ (a : Nat) :
    Outstanding highCycle m₀ p d answers (t + 1) a ↔
      (Outstanding highCycle m₀ p d answers t a ∨
        (a = t ∧ Accepts highCycle m₀ p d t ∧ ∀ u, u < t → answers u ≠ some t)) ∧
      answers t ≠ some a := by
  -- the request is this cycle's or an older one
  constructor
  · rintro ⟨hlt, hacc, hno⟩
    refine ⟨?_, hno t (Nat.lt_succ_self t)⟩
    rcases Nat.lt_succ_iff_lt_or_eq.mp hlt with hat | rfl
    · exact Or.inl ⟨hat, hacc, fun u hu => hno u (Nat.lt_succ_of_lt hu)⟩
    · exact Or.inr ⟨rfl, hacc, fun u hu => hno u (Nat.lt_succ_of_lt hu)⟩
  · rintro ⟨⟨hat, hacc, hno⟩ | ⟨rfl, hacc, hno⟩, hnow⟩
    · refine ⟨Nat.lt_succ_of_lt hat, hacc, ?_⟩
      intro u hu
      rcases Nat.lt_succ_iff_lt_or_eq.mp hu with hut | rfl
      · exact hno u hut
      · exact hnow
    · refine ⟨Nat.lt_succ_self a, hacc, ?_⟩
      intro u hu
      rcases Nat.lt_succ_iff_lt_or_eq.mp hu with hut | rfl
      · exact hno u hut
      · exact hnow

/-- With nothing outstanding and nothing accepted, nothing is outstanding in the next cycle. -/
theorem none_succ (hnone : ∀ a, ¬ Outstanding highCycle m₀ p d answers t a)
    (hacc : ¬ Accepts highCycle m₀ p d t) (a : Nat) :
    ¬ Outstanding highCycle m₀ p d answers (t + 1) a := by
  rw [outstanding_succ]
  rintro ⟨hout | ⟨-, hnow, -⟩, -⟩
  · exact hnone a hout
  · exact hacc hnow

/-- The only outstanding request stays so until its answer. -/
theorem one_succ {a : Nat} (hone : ∀ a', Outstanding highCycle m₀ p d answers t a' ↔ a' = a)
    (hacc : ¬ Accepts highCycle m₀ p d t) (hno : answers t = none) (a' : Nat) :
    Outstanding highCycle m₀ p d answers (t + 1) a' ↔ a' = a := by
  rw [outstanding_succ, hone, hno]
  simp [hacc]

theorem answered_succ (ha : Answers highCycle m₀ p d answers) {a : Nat}
    (hone : ∀ a', Outstanding highCycle m₀ p d answers t a' ↔ a' = a)
    (hacc : ¬ Accepts highCycle m₀ p d t) {a₁ : Nat} (hans : answers t = some a₁) (a' : Nat) :
    ¬ Outstanding highCycle m₀ p d answers (t + 1) a' := by
  have heq := (hone a₁).mp (outstanding_of_answer ha hans)
  rw [outstanding_succ, hone]
  rintro ⟨rfl | ⟨-, hnow, -⟩, hne⟩
  · exact hne (by rw [hans, heq])
  · exact hacc hnow

/-- A request is accepted only by an idle wrapper with nothing to drain. -/
theorem parts_of_accepts (h : Accepts highCycle m₀ p d t) :
    (unitRun highCycle m₀ p d t).divState = 0b00#2 ∧
      (unitRun highCycle m₀ p d t).divDiscardPending = false ∧
      (p t).kill = false ∧ (p t).isMul = true ∧ mulOpDiv (p t) = true ∧
      div0 (p t) = false ∧ div1 (p t) = false := by
  simp only [Accepts, divAccept, divStart, Bool.and_eq_true, beq_iff_eq, Bool.not_eq_true'] at h
  rcases h with ⟨⟨⟨⟨⟨⟨⟨⟨⟨-, hmul⟩, hop⟩, hst⟩, hdis⟩, hkill⟩, h0⟩, h1⟩, -⟩, -⟩
  exact ⟨hst, hdis, hkill, hmul, hop, h0, h1⟩

/-- An operation that is not killed stalls until the wrapper is done. -/
theorem stalls {m : Regs} {q : Ports} (hkill : q.kill = false) (hmul : q.isMul = true)
    (hop : mulOpDiv q = true) (hdone : divDone m = false) : mulStall m q = true := by
  simp [mulStall, hkill, hmul, hop, hdone]

/-! ## One edge -/

/-- A request accepted with none under way is the only one under way in the next cycle. -/
theorem outstanding_of_accepts (ha : Answers highCycle m₀ p d answers)
    (none : ∀ a, ¬ Outstanding highCycle m₀ p d answers t a)
    (hacc : Accepts highCycle m₀ p d t) (hsilent : answers t = .none) (a : Nat) :
    Outstanding highCycle m₀ p d answers (t + 1) a ↔ a = t := by
  rw [outstanding_succ, hsilent]
  constructor
  · rintro ⟨hout | ⟨rfl, -, -⟩, -⟩
    · exact absurd hout (none a)
    · rfl
  · rintro rfl
    refine ⟨Or.inr ⟨rfl, hacc, ?_⟩, by simp⟩
    intro u hu hans
    have := (ha.accepted u _ hans).1
    omega

/-- An accepted request goes out, and the operation stalls from here on. -/
theorem phase_of_accepts (ha : Answers highCycle m₀ p d answers) (hp : Holds highCycle m₀ p d)
    (divState : (unitRun highCycle m₀ p d t).divState = 0b00#2)
    (discard : (unitRun highCycle m₀ p d t).divDiscardPending = false)
    (none : ∀ a, ¬ Outstanding highCycle m₀ p d answers t a)
    (hkill : (p t).kill = false) (hacc : Accepts highCycle m₀ p d t)
    (hsilent : answers t = .none) :
    Phase highCycle m₀ p d answers (t + 1) := by
  rcases parts_of_accepts hacc with ⟨-, -, -, hmul, hop, h0, h1⟩
  have hgo := hacc
  simp only [Accepts, divAccept, Bool.and_eq_true] at hgo
  have hsame := hp.held t (stalls hkill hmul hop (by simp [divDone, divState]))
  have hchecks := hsame.checks
  refine .waiting t ?_ ?_ (outstanding_of_accepts ha none hacc hsilent) hsame ?_ ?_ ?_
  · simp [unitRun_succ, next, hkill, divState, discard, hgo]
  · simp [unitRun_succ, next, hkill, divState, discard, hgo]
  · intro k hk hk'
    rw [show k = t by omega]
    exact hkill
  · exact ⟨hsame.isMul.trans hmul, hchecks.2.2.trans hop⟩
  · exact ⟨hchecks.1.trans h0, hchecks.2.1.trans h1⟩

/-- The answer of a special case is known without the divider. -/
theorem phase_of_special (hp : Holds highCycle m₀ p d)
    (divState : (unitRun highCycle m₀ p d t).divState = 0b00#2)
    (discard : (unitRun highCycle m₀ p d t).divDiscardPending = false)
    (none : ∀ a, ¬ Outstanding highCycle m₀ p d answers t a)
    (hkill : (p t).kill = false)
    (hstart : divStart (unitRun highCycle m₀ p d t) (p t) = false)
    (hspecial : divSpecial (p t) = true) :
    Phase highCycle m₀ p d answers (t + 1) := by
  have hacc : ¬ Accepts highCycle m₀ p d t := by simp [Accepts, divAccept, hstart]
  have hparts := hspecial
  simp only [divSpecial, Bool.and_eq_true] at hparts
  rcases hparts with ⟨⟨⟨-, hmul⟩, hop⟩, hexc⟩
  have hsame := hp.held t (stalls hkill hmul hop (by simp [divDone, divState]))
  have hchecks := hsame.checks
  refine .special ?_ ?_ (none_succ none hacc) ?_ ?_
  · simp [unitRun_succ, next, hkill, divState, discard, hstart, hspecial]
  · simp [unitRun_succ, next, hkill, divState, discard, hstart, hspecial]
  · rw [hsame.specialResult_eq]
    simp [unitRun_succ, next, hkill, divState, discard, hstart, hspecial]
  · rw [hchecks.1, hchecks.2.1]
    exact hexc

theorem phase_of_idle (ha : Answers highCycle m₀ p d answers) (hp : Holds highCycle m₀ p d)
    (divState : (unitRun highCycle m₀ p d t).divState = 0b00#2)
    (discard : (unitRun highCycle m₀ p d t).divDiscardPending = false)
    (none : ∀ a, ¬ Outstanding highCycle m₀ p d answers t a) :
    Phase highCycle m₀ p d answers (t + 1) := by
  have hsilent : answers t = .none := by
    cases hans : answers t with
    | none => rfl
    | some a => exact absurd (outstanding_of_answer ha hans) (none a)
  cases hkill : (p t).kill with
  | true =>
      have hacc : ¬ Accepts highCycle m₀ p d t := fun h => by
        have := (parts_of_accepts h).2.2.1
        rw [hkill] at this
        cases this
      refine .idle ?_ ?_ (none_succ none hacc) <;>
        simp [unitRun_succ, next, hkill, divState, discard]
  | false =>
      cases hstart : divStart (unitRun highCycle m₀ p d t) (p t) with
      | true =>
          cases hready : (d t).divisorTready && (d t).dividendTready with
          | true =>
              have hacc : Accepts highCycle m₀ p d t := by
                simp only [Accepts, divAccept, hstart, hready, Bool.true_and]
              exact phase_of_accepts ha hp divState discard none hkill hacc hsilent
          | false =>
              have hacc : ¬ Accepts highCycle m₀ p d t := by
                simp [Accepts, divAccept, Bool.and_assoc, hready]
              refine .idle ?_ ?_ (none_succ none hacc)
              · simp [unitRun_succ, next, hkill, divState, discard, hstart, hready]
              · simp [unitRun_succ, next, hkill, divState, discard, hstart]
      | false =>
          cases hspecial : divSpecial (p t) with
          | true => exact phase_of_special hp divState discard none hkill hstart hspecial
          | false =>
              have hacc : ¬ Accepts highCycle m₀ p d t := by simp [Accepts, divAccept, hstart]
              refine .idle ?_ ?_ (none_succ none hacc) <;>
                simp [unitRun_succ, next, hkill, divState, discard, hstart, hspecial]

theorem phase_of_waiting (ha : Answers highCycle m₀ p d answers) (hp : Holds highCycle m₀ p d)
    {a : Nat} (divState : (unitRun highCycle m₀ p d t).divState = 0b01#2)
    (discard : (unitRun highCycle m₀ p d t).divDiscardPending = false)
    (one : ∀ a', Outstanding highCycle m₀ p d answers t a' ↔ a' = a)
    (same : Same (p a) (p t)) (alive : ∀ k, a ≤ k → k < t → (p k).kill = false)
    (asked : (p t).isMul = true ∧ mulOpDiv (p t) = true)
    (plain : div0 (p t) = false ∧ div1 (p t) = false) :
    Phase highCycle m₀ p d answers (t + 1) := by
  have hacc : ¬ Accepts highCycle m₀ p d t := fun h => by
    have := (parts_of_accepts h).1
    rw [divState] at this
    cases this
  have hvalid := ha.valid t
  cases hkill : (p t).kill with
  | true =>
      cases hans : answers t with
      | none =>
          refine .draining a ?_ ?_ (one_succ one hacc hans) <;>
            simp [unitRun_succ, next, hkill, divState, discard, hvalid, hans]
      | some a₁ =>
          -- the answer comes with the flush: there is nothing left to drain
          refine .idle ?_ ?_ (answered_succ ha one hacc hans) <;>
            simp [unitRun_succ, next, hkill, divState, discard, hvalid, hans]
  | false =>
      have hsame := hp.held t (stalls hkill asked.1 asked.2 (by simp [divDone, divState]))
      have hchecks := hsame.checks
      cases hans : answers t with
      | none =>
          refine .waiting a ?_ ?_ (one_succ one hacc hans) (same.trans hsame) ?_ ?_ ?_
          · simp [unitRun_succ, next, hkill, divState, discard, hvalid, hans]
          · simp [unitRun_succ, next, hkill, divState, discard, hvalid, hans]
          · intro k hak hkt
            rcases Nat.lt_succ_iff_lt_or_eq.mp hkt with hlt | rfl
            · exact alive k hak hlt
            · exact hkill
          · exact ⟨hsame.isMul.trans asked.1, hchecks.2.2.trans asked.2⟩
          · exact ⟨hchecks.1.trans plain.1, hchecks.2.1.trans plain.2⟩
      | some a₁ =>
          have heq := (one a₁).mp (outstanding_of_answer ha hans)
          have hdata := ha.data t a₁ hans
          rw [heq, ← same.answerTo_eq, ← hsame.answerTo_eq] at hdata
          refine .quotient ?_ ?_ (answered_succ ha one hacc hans) ?_ ?_ (hchecks.1.trans plain.1)
          · simp [unitRun_succ, next, hkill, divState, discard, hvalid, hans]
          · simp [unitRun_succ, next, hkill, divState, discard, hvalid, hans]
          · simp [unitRun_succ, next, hkill, divState, discard, hvalid, hans, hdata]
          · simp [unitRun_succ, next, hkill, divState, discard, hvalid, hans, hdata]

theorem phase_of_draining (ha : Answers highCycle m₀ p d answers) {a : Nat}
    (divState : (unitRun highCycle m₀ p d t).divState = 0b00#2)
    (discard : (unitRun highCycle m₀ p d t).divDiscardPending = true)
    (one : ∀ a', Outstanding highCycle m₀ p d answers t a' ↔ a' = a) :
    Phase highCycle m₀ p d answers (t + 1) := by
  have hacc : ¬ Accepts highCycle m₀ p d t := fun h => by
    have := (parts_of_accepts h).2.1
    rw [discard] at this
    cases this
  have hvalid := ha.valid t
  cases hans : answers t with
  | none =>
      refine .draining a ?_ ?_ (one_succ one hacc hans) <;>
        cases hkill : (p t).kill <;>
          simp [unitRun_succ, next, hkill, divState, discard, hvalid, hans]
  | some a₁ =>
      refine .idle ?_ ?_ (answered_succ ha one hacc hans) <;>
        cases hkill : (p t).kill <;>
          simp [unitRun_succ, next, hkill, divState, discard, hvalid, hans]

/-- After its result the wrapper is idle. -/
theorem phase_of_done
    (divState : (unitRun highCycle m₀ p d t).divState = 0b11#2 ∨
      (unitRun highCycle m₀ p d t).divState = 0b10#2)
    (discard : (unitRun highCycle m₀ p d t).divDiscardPending = false)
    (none : ∀ a, ¬ Outstanding highCycle m₀ p d answers t a) :
    Phase highCycle m₀ p d answers (t + 1) := by
  have hacc : ¬ Accepts highCycle m₀ p d t := fun h => by
    have hst := (parts_of_accepts h).1
    rcases divState with h3 | h2
    · rw [h3] at hst
      cases hst
    · rw [h2] at hst
      cases hst
  refine .idle ?_ ?_ (none_succ none hacc) <;>
    rcases divState with hst | hst <;> cases hkill : (p t).kill <;>
      simp [unitRun_succ, next, hkill, hst, discard]

theorem phase_next (ha : Answers highCycle m₀ p d answers) (hp : Holds highCycle m₀ p d)
    (h : Phase highCycle m₀ p d answers t) : Phase highCycle m₀ p d answers (t + 1) := by
  cases h with
  | idle divState discard none => exact phase_of_idle ha hp divState discard none
  | waiting a divState discard one same alive asked plain =>
      exact phase_of_waiting ha hp divState discard one same alive asked plain
  | draining a divState discard one => exact phase_of_draining ha divState discard one
  | quotient divState discard none => exact phase_of_done (Or.inl divState) discard none
  | special divState discard none => exact phase_of_done (Or.inr divState) discard none

theorem phase_run (ha : Answers highCycle m₀ p d answers) (hp : Holds highCycle m₀ p d) (t : Nat) :
    Phase highCycle m₀ p d answers t := by
  induction t with
  | zero =>
      refine .idle rfl rfl ?_
      rintro a ⟨hlt, -⟩
      omega
  | succ t ih => exact phase_next ha hp ih

/-! ## The results -/

theorem operation_of_oneHot {q : Ports} (hop : OneHotDivision q)
    (hs : q.src1Signed = q.src2Signed) :
    Operation ⟨q.mulOp, q.src1Signed, q.src2Signed⟩ ∧ q.mulOp.mul = false ∧ q.mulOp.mulh = false := by
  rcases hop with h | h
  · rw [h, hs]
    exact ⟨.div _, rfl, rfl⟩
  · rw [h, hs]
    exact ⟨.rem _, rfl, rfl⟩

/-- The result wires do not depend on what else is on the ports. -/
theorem mulResult_eq (m : Regs) (q : Ports) :
    mulResult ⟨true, highCycle⟩ m q =
      mulResult Build.core m
        (busyPorts ⟨q.mulOp, q.src1Signed, q.src2Signed⟩ q.mulSrc1 q.mulSrc2) := rfl

theorem src2_ne_zero {q : Ports} (h : div0 q = false) : q.mulSrc2 ≠ 0#32 := by
  intro hz
  rw [div0, divSrc2, magnitude_eq_zero, hz] at h
  exact absurd h (by decide)

theorem result_of_phase (hp : Holds highCycle m₀ p d) (h : Phase highCycle m₀ p d answers t)
    (hmul : (p t).isMul = true) (hop : OneHotDivision (p t)) (hkill : (p t).kill = false)
    (hstall : mulStall (unitRun highCycle m₀ p d t) (p t) = false) :
    mulResult ⟨true, highCycle⟩ (unitRun highCycle m₀ p d t) (p t) = portValue (p t) := by
  rcases operation_of_oneHot hop (hp.signs t hmul hop) with ⟨hk, hplain⟩
  have hdivides : mulOpDiv (p t) = true := by
    rcases hop with h | h <;> simp [mulOpDiv, h]
  have hbusy : divDone (unitRun highCycle m₀ p d t) = true := by
    cases hdone : divDone (unitRun highCycle m₀ p d t) with
    | true => rfl
    | false =>
        rw [stalls hkill hmul hdivides hdone] at hstall
        cases hstall
  rw [mulResult_eq]
  -- only two phases show a result
  cases h with
  | idle divState => simp [divDone, divState] at hbusy
  | waiting a divState => simp [divDone, divState] at hbusy
  | draining a divState => simp [divDone, divState] at hbusy
  | quotient divState discard none data result plain =>
      exact result_of_quotient hk hplain divState data (result.trans data.symm) (src2_ne_zero plain)
  | special divState discard none result exception =>
      exact result_of_special hk hplain divState result exception

/-- The answer of a killed request is not captured. -/
theorem dropped_of_killed (ha : Answers highCycle m₀ p d answers)
    (h : Phase highCycle m₀ p d answers t) {a k : Nat} (hans : answers t = some a) (hak : a ≤ k)
    (hkt : k ≤ t) (hkill : (p k).kill = true) :
    (unitRun highCycle m₀ p d (t + 1)).divState = 0b00#2 ∧
      (unitRun highCycle m₀ p d (t + 1)).doutTdataReg =
        (unitRun highCycle m₀ p d t).doutTdataReg ∧
      (unitRun highCycle m₀ p d (t + 1)).divResult = (unitRun highCycle m₀ p d t).divResult := by
  have hout := outstanding_of_answer ha hans
  cases h with
  | idle divState discard none => exact absurd hout (none a)
  | waiting a₁ divState discard one same alive asked plain =>
      -- the request is alive up to this cycle, so it is killed in this cycle
      have hnow : (p t).kill = true := by
        have heq := (one a).mp hout
        rcases Nat.lt_or_eq_of_le hkt with hlt | rfl
        · have := alive k (heq ▸ hak) hlt
          rw [hkill] at this
          cases this
        · exact hkill
      simp [unitRun_succ, next, hnow]
  | draining a₁ divState discard one =>
      cases hnow : (p t).kill <;> simp [unitRun_succ, next, hnow, discard]
  | quotient divState discard none => exact absurd hout (none a)
  | special divState discard none => exact absurd hout (none a)

theorem outstanding_unique (h : Phase highCycle m₀ p d answers t) {a a' : Nat}
    (ha : Outstanding highCycle m₀ p d answers t a)
    (ha' : Outstanding highCycle m₀ p d answers t a') : a = a' := by
  cases h with
  | idle divState discard none => exact absurd ha (none a)
  | waiting a₁ divState discard one => exact ((one a).mp ha).trans ((one a').mp ha').symm
  | draining a₁ divState discard one => exact ((one a).mp ha).trans ((one a').mp ha').symm
  | quotient divState discard none => exact absurd ha (none a)
  | special divState discard none => exact absurd ha (none a)

/-- The wrapper returns the value of the instruction set, drops the answers of killed requests, and
never has two requests outstanding. -/
theorem division_correct (highCycle : Nat) (m₀ : Regs) (p : Nat → Ports) (d : Nat → DivPorts)
    (answers : Nat → Option Nat) (ha : Answers highCycle m₀ p d answers)
    (hp : Holds highCycle m₀ p d) :
    (∀ t, (p t).isMul = true → OneHotDivision (p t) → (p t).kill = false →
      mulStall (unitRun highCycle m₀ p d t) (p t) = false →
      mulResult ⟨true, highCycle⟩ (unitRun highCycle m₀ p d t) (p t) = portValue (p t)) ∧
    (∀ t a k, answers t = some a → a ≤ k → k ≤ t → (p k).kill = true →
      (unitRun highCycle m₀ p d (t + 1)).divState = 0b00#2 ∧
        (unitRun highCycle m₀ p d (t + 1)).doutTdataReg =
          (unitRun highCycle m₀ p d t).doutTdataReg ∧
        (unitRun highCycle m₀ p d (t + 1)).divResult = (unitRun highCycle m₀ p d t).divResult) ∧
    (∀ t a a', Outstanding highCycle m₀ p d answers t a →
      Outstanding highCycle m₀ p d answers t a' → a = a') := by
  refine ⟨?result, ?dropped, ?unique⟩
  case result =>
    intro t hmul hop hkill hstall
    exact result_of_phase hp (phase_run ha hp t) hmul hop hkill hstall
  case dropped =>
    intro t a k hans hak hkt hkill
    exact dropped_of_killed ha (phase_run ha hp t) hans hak hkt hkill
  case unique =>
    intro t a a' hout hout'
    exact outstanding_unique (phase_run ha hp t) hout hout'

/-! ### A division with a latency of two cycles -/

/-- `7 / 2`, signed, up to cycle 3; nothing after it. -/
def sevenByTwo (t : Nat) : Ports :=
  { isMul := decide (t < 4)
    isMulticycle := true
    mulSrc1 := 7#32
    mulSrc2 := 2#32
    mulOp := ⟨false, false, true, false⟩
    src1Signed := true
    src2Signed := true
    resultReady := true
    kill := false }

/-- A divider that is always ready and answers in cycle 2. -/
def answersAtTwo (t : Nat) : DivPorts :=
  { divisorTready := true
    dividendTready := true
    doutTvalid := decide (t = 2)
    doutTdata := 1#32 ++ 3#32 }

def unitPowerUp : Regs :=
  { pipe := ⟨false, false, false, false, 0, 0, 0, false, false, false, 0, 0, 0, 0, 0, 0⟩
    divState := 0b00#2
    divDiscardPending := false
    divResult := 0#64
    doutTdataReg := 0#64 }

theorem answers_sevenByTwo :
    Answers 3 unitPowerUp sevenByTwo answersAtTwo (fun t => if t = 2 then some 0 else none) := by
  have hans : ∀ {t a : Nat}, (if t = 2 then some 0 else none) = some a → t = 2 ∧ a = 0 := by
    intro t a h
    split at h
    next ht => exact ⟨ht, (Option.some.inj h).symm⟩
    next => cases h
  refine ⟨?_, ?_, ?_, ?_⟩
  · intro t
    by_cases ht : t = 2 <;> simp [answersAtTwo, ht]
  · intro t a h
    rcases hans h with ⟨rfl, rfl⟩
    exact ⟨by decide, by show divAccept _ _ _ = true; decide +kernel⟩
  · intro t u a h h'
    exact (hans h).1.trans (hans h').1.symm
  · intro t a h
    rcases hans h with ⟨rfl, rfl⟩
    decide +kernel

theorem holds_sevenByTwo : Holds 3 unitPowerUp sevenByTwo answersAtTwo := by
  refine ⟨fun _ => rfl, fun _ _ _ => rfl, ?_⟩
  intro t hstall
  have hmul : (sevenByTwo t).isMul = true := by
    simp only [mulStall, Bool.and_eq_true] at hstall
    exact hstall.1.2
  have hlt : t < 4 := by simpa [sevenByTwo] using hmul
  -- the unit is done in cycle 3
  have hne : t ≠ 3 := by
    intro h3
    subst h3
    exact absurd hstall (by decide +kernel)
  have hmul' : (sevenByTwo (t + 1)).isMul = true := by
    simp [sevenByTwo]
    omega
  exact ⟨hmul'.trans hmul.symm, rfl, rfl, rfl, rfl, rfl⟩

theorem division_correct_sevenByTwo :
    mulResult ⟨true, 3⟩ (unitRun 3 unitPowerUp sevenByTwo answersAtTwo 3) (sevenByTwo 3) = 3#32 :=
  ((division_correct 3 unitPowerUp sevenByTwo answersAtTwo _ answers_sevenByTwo holds_sevenByTwo).1
    3 rfl (Or.inl rfl) rfl (by decide +kernel)).trans (by decide)

end Mul
end RiscvCpu
