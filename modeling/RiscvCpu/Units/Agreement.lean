import RiscvCpu.Lib.Clocked
import RiscvCpu.Refine.MulDiv
import RiscvCpu.Rtl.MulDivIp

/-!
# Agreement — four builds of the multiply and divide unit

The unit of the core and the packaged one can each be built for either word order of the divider.
Here all four run side by side on one divider, each from power-up registers of its own.  `Agree`
relates two of them: the control registers are the same, the quotient and the remainder are the same
words in their own order, and the multiplier's operand registers, which no reset clears, are the same
while a stage that reads them is valid.
-/

namespace RiscvCpu
namespace Mul

universe u

/-! ## The divider and the builds -/

/-- A divider with these AXI-stream ports.  Its wires may follow the request of the same cycle. -/
structure AxiDivider where
  State : Type u
  start : State
  next : State → Divider.Ports → State
  wires : State → Divider.Ports → DivPorts

def swapWords (x : BitVec 64) : BitVec 64 := lowWord x ++ highWord x

/-- The same divider for either order: as it is, or with the words of its output swapped. -/
def AxiDivider.inOrder (D : AxiDivider.{u}) (remainderHigh : Bool) : AxiDivider.{u} :=
  { D with
    wires := fun s q =>
      { D.wires s q with
        doutTdata :=
          if remainderHigh then (D.wires s q).doutTdata else swapWords (D.wires s q).doutTdata } }

inductive UnitBuild where
  | debug
  | project
  | packagedRemainderHigh
  | packagedRemainderLow

namespace UnitBuild

/-- The remainder is in the upper word. -/
def remainderHigh : UnitBuild → Bool
  | debug => true
  | project => false
  | packagedRemainderHigh => true
  | packagedRemainderLow => false

def next (k : Nat) : UnitBuild → Regs → Ports → DivPorts → Regs
  | debug => Mul.next ⟨true, k⟩
  | project => Mul.next ⟨false, k⟩
  | packagedRemainderHigh => MulDivIp.next ⟨k, true⟩
  | packagedRemainderLow => MulDivIp.next ⟨k, false⟩

def result (k : Nat) : UnitBuild → Regs → Ports → Word
  | debug => Mul.mulResult ⟨true, k⟩
  | project => Mul.mulResult ⟨false, k⟩
  | packagedRemainderHigh => MulDivIp.mulResult ⟨k, true⟩
  | packagedRemainderLow => MulDivIp.mulResult ⟨k, false⟩

/-- A unit and a divider, one edge. -/
def edge (k : Nat) (D : AxiDivider.{u}) (v : UnitBuild) (s : Regs × D.State) (p : Ports) :
    Regs × D.State :=
  (v.next k s.1 p (D.wires s.2 (toDivider s.1 p)), D.next s.2 (toDivider s.1 p))

/-- A unit in cycle `t` after reset, on the divider `D` in the order the build is made for. -/
def run (k : Nat) (D : AxiDivider.{u}) (v : UnitBuild) (m₀ : Regs) (p : Nat → Ports) (t : Nat) :
    Regs × D.State :=
  Clocked.run (edge k (D.inOrder v.remainderHigh) v) (reset m₀, D.start) p t

end UnitBuild

/-! ## The packaged unit as a build of the core's -/

variable {k : Nat} {m m' : Regs}

theorem packaged_next (o : Bool) (m : Regs) (p : Ports) (d : DivPorts) :
    MulDivIp.next ⟨k, o⟩ m p d = next ⟨o, k⟩ m p d := by
  have hspecial : MulDivIp.specialResult ⟨k, o⟩ p = specialResult ⟨o, k⟩ p := by
    cases o <;> cases h : div0 p <;> simp [MulDivIp.specialResult, specialResult, h]
  unfold MulDivIp.next next MulDivIp.divStateNext divSpecial
  rw [hspecial]
  cases p.kill with
  | true => rfl
  | false =>
      cases hdiscard : m.divDiscardPending with
      | true => cases hvalid : d.doutTvalid <;> simp
      | false =>
          simp only [Bool.false_eq_true, if_false]
          split
          · split
            · split <;> simp_all
            · split <;> simp_all
          · split
            · split <;> simp_all
            · simp_all

/-- A captured response is in both of its registers. -/
def Captured (m : Regs) : Prop := m.divState = 0b11#2 → m.doutTdataReg = m.divResult

theorem captured_next (b : Build) (m : Regs) (p : Ports) (d : DivPorts) (h : Captured m) :
    Captured (next b m p d) := by
  unfold Captured next at *
  grind

/-- With the response captured, the packaged select reads the words that the core's does. -/
theorem packaged_result (o : Bool) (p : Ports) (h : Captured m) :
    MulDivIp.mulResult ⟨k, o⟩ m p = mulResult ⟨o, k⟩ m p := by
  have hquotient : MulDivIp.divQuotientWord ⟨k, o⟩ m = quotientWord ⟨o, k⟩ m.divResult := rfl
  have hremainder : MulDivIp.divRemainderWord ⟨k, o⟩ m = remainderWord ⟨o, k⟩ m.divResult := rfl
  unfold MulDivIp.mulResult mulResult
  rw [hquotient, hremainder]
  cases hstate : m.divState == 0b11#2 with
  | true => rw [h (eq_of_beq hstate)]
  | false => simp only [Bool.and_false, Bool.false_eq_true, if_false]

namespace UnitBuild

theorem next_eq (v : UnitBuild) (m : Regs) (p : Ports) (d : DivPorts) :
    v.next k m p d = Mul.next ⟨v.remainderHigh, k⟩ m p d := by
  cases v with
  | debug => rfl
  | project => rfl
  | packagedRemainderHigh => exact packaged_next true m p d
  | packagedRemainderLow => exact packaged_next false m p d

theorem result_eq (v : UnitBuild) (p : Ports) (h : Captured m) :
    v.result k m p = Mul.mulResult ⟨v.remainderHigh, k⟩ m p := by
  cases v with
  | debug => rfl
  | project => rfl
  | packagedRemainderHigh => exact packaged_result true p h
  | packagedRemainderLow => exact packaged_result false p h

end UnitBuild

/-! ## Agreement of two units -/

/-- The same operands and partial products are loaded. -/
structure OperandsAgree (r r' : MulPipeline.Regs) : Prop where
  src1R : r'.src1R = r.src1R
  src2R : r'.src2R = r.src2R
  src1NegativeR : r'.src1NegativeR = r.src1NegativeR
  src2NegativeR : r'.src2NegativeR = r.src2NegativeR
  highResultR : r'.highResultR = r.highResultR
  partialLl : r'.partialLl = r.partialLl
  partialLh : r'.partialLh = r.partialLh
  partialHl : r'.partialHl = r.partialHl
  partialHh : r'.partialHh = r.partialHh

structure PipeAgree (r r' : MulPipeline.Regs) : Prop where
  active : r'.active = r.active
  done : r'.done = r.done
  stage1Valid : r'.stage1Valid = r.stage1Valid
  stage2Valid : r'.stage2Valid = r.stage2Valid
  result : r'.result = r.result
  operands : r.stage1Valid = true ∨ r.stage2Valid = true → OperandsAgree r r'
  carried : r.stage2Valid = true →
    r'.middleHighR = r.middleHighR ∧ r'.partialHhR = r.partialHhR

/-- A quotient and a remainder, by the order of the words. -/
def orderedWords (remainderHigh : Bool) (x : BitVec 64) : Word × Word :=
  if remainderHigh then (lowWord x, highWord x) else (highWord x, lowWord x)

/-- Two units of the orders `o` and `o'` do the same. -/
structure Agree (o o' : Bool) (m m' : Regs) : Prop where
  pipe : PipeAgree m.pipe m'.pipe
  divState : m'.divState = m.divState
  discard : m'.divDiscardPending = m.divDiscardPending
  words : orderedWords o' m'.divResult = orderedWords o m.divResult

/-- What two dividers show is the same, each in its own order. -/
structure WiresAgree (o o' : Bool) (d d' : DivPorts) : Prop where
  divisorTready : d'.divisorTready = d.divisorTready
  dividendTready : d'.dividendTready = d.dividendTready
  doutTvalid : d'.doutTvalid = d.doutTvalid
  doutTdata : orderedWords o' d'.doutTdata = orderedWords o d.doutTdata

theorem OperandsAgree.highWords {r r' : MulPipeline.Regs} (h : OperandsAgree r r') :
    MulPipeline.middleSum r' = MulPipeline.middleSum r ∧
      MulPipeline.lowResult r' = MulPipeline.lowResult r ∧
      MulPipeline.correctedHigh r' = MulPipeline.correctedHigh r := by
  have hmiddle : MulPipeline.middleSum r' = MulPipeline.middleSum r := by
    simp only [MulPipeline.middleSum, h.partialLh, h.partialHl, h.partialLl]
  refine ⟨hmiddle, ?_, ?_⟩
  · simp only [MulPipeline.lowResult, hmiddle, h.partialLl]
  · simp only [MulPipeline.correctedHigh, MulPipeline.unsignedHigh, hmiddle, h.partialHh, h.src1R,
      h.src2R, h.src1NegativeR, h.src2NegativeR]

theorem PipeAgree.complete {r r' : MulPipeline.Regs} (h : PipeAgree r r') :
    MulPipeline.lowComplete r' = MulPipeline.lowComplete r ∧
      MulPipeline.highComplete k r' = MulPipeline.highComplete k r := by
  have hhigh : r.stage1Valid = true ∨ r.stage2Valid = true → r'.highResultR = r.highResultR :=
    fun hvalid => (h.operands hvalid).highResultR
  unfold MulPipeline.lowComplete MulPipeline.highComplete
  rw [h.stage1Valid, h.stage2Valid]
  cases hone : r.stage1Valid with
  | true => simp [hhigh (Or.inl hone)]
  | false =>
      cases htwo : r.stage2Valid with
      | true => simp [hhigh (Or.inr htwo)]
      | false => simp

theorem operandsAgree_next {r r' : MulPipeline.Regs} {q : MulPipeline.Ports}
    (h : PipeAgree r r') (hkill : q.kill = false)
    (hvalid : MulPipeline.startAccept r q = true ∨ r.stage1Valid = true) :
    OperandsAgree (MulPipeline.next k r q) (MulPipeline.next k r' q) := by
  have haccept : MulPipeline.startAccept r' q = MulPipeline.startAccept r q := by
    simp only [MulPipeline.startAccept, h.active]
  cases hacc : MulPipeline.startAccept r q with
  | true =>
      rw [hacc] at haccept
      constructor <;> simp [MulPipeline.next, hkill, hacc, haccept]
  | false =>
      rw [hacc] at haccept hvalid
      have ho := h.operands (Or.inl (hvalid.resolve_left Bool.false_ne_true))
      constructor <;>
        simp [MulPipeline.next, hkill, hacc, haccept, ho.src1R, ho.src2R, ho.src1NegativeR,
          ho.src2NegativeR, ho.highResultR, ho.partialLl, ho.partialLh, ho.partialHl, ho.partialHh]

/-- The word that an edge puts in the result register. -/
theorem PipeAgree.nextResult {r r' : MulPipeline.Regs} {q : MulPipeline.Ports}
    (h : PipeAgree r r') (hkill : q.kill = false) :
    (MulPipeline.next k r' q).result = (MulPipeline.next k r q).result := by
  have hlow := (h.complete (k := k)).1
  have hhigh := (h.complete (k := k)).2
  simp only [MulPipeline.next, hkill, Bool.false_eq_true, if_false, hlow, hhigh]
  cases hl : MulPipeline.lowComplete r with
  | true =>
      simp only [MulPipeline.lowComplete, Bool.and_eq_true] at hl
      rw [(h.operands (Or.inl hl.2)).highWords.2.1]
      rfl
  | false =>
      cases hh : MulPipeline.highComplete k r with
      | false => simp [h.result]
      | true =>
          -- two stages read the operands, three the registers of the second stage
          simp only [MulPipeline.highComplete, Bool.and_eq_true] at hh
          rcases hh with ⟨-, hh⟩
          cases hk : k == 2 with
          | true =>
              simp only [hk, if_true] at hh
              simp [(h.operands (Or.inl hh)).highWords.2.2]
          | false =>
              simp only [hk, Bool.false_eq_true, if_false] at hh
              have ho := h.operands (Or.inr hh)
              have hc := h.carried hh
              simp [MulPipeline.threeStageHigh, ho.src1R, ho.src2R, ho.src1NegativeR,
                ho.src2NegativeR, hc.1, hc.2]

theorem pipeAgree_next {r r' : MulPipeline.Regs} (h : PipeAgree r r') (q : MulPipeline.Ports) :
    PipeAgree (MulPipeline.next k r q) (MulPipeline.next k r' q) := by
  cases hkill : q.kill with
  | true => constructor <;> simp [MulPipeline.next, hkill, MulPipeline.clear]
  | false =>
      have hlow := (h.complete (k := k)).1
      have hhigh := (h.complete (k := k)).2
      refine ⟨?active, ?done, ?stage1, ?stage2, h.nextResult hkill, ?operands, ?carried⟩
      case operands =>
        intro hvalid
        simp only [MulPipeline.next, hkill, Bool.false_eq_true, if_false] at hvalid
        exact operandsAgree_next h hkill hvalid
      case carried =>
        intro hvalid
        simp only [MulPipeline.next, hkill, Bool.false_eq_true, if_false] at hvalid ⊢
        have ho := h.operands (Or.inl hvalid)
        simp [h.stage1Valid, hvalid, ho.highWords.1, ho.partialHh]
      all_goals
        simp [MulPipeline.next, hkill, MulPipeline.startAccept, hlow, hhigh, h.active, h.done,
          h.stage1Valid]

/-! ## One edge -/

theorem orderedWords_special (o : Bool) (p : Ports) :
    orderedWords o (specialResult ⟨o, k⟩ p) =
      if div0 p then (0xffff_ffff#32, p.mulSrc1) else (0x8000_0000#32, 0#32) := by
  cases o <;> cases h : div0 p <;>
    simp only [orderedWords, specialResult, h, low_append, Bool.false_eq_true, if_true, if_false]

theorem toDivider_eq {o o' : Bool} (h : Agree o o' m m') (p : Ports) :
    toDivider m' p = toDivider m p := by
  simp only [toDivider, divStart, h.divState, h.discard]

theorem agree_next {o o' : Bool} (h : Agree o o' m m') {d d' : DivPorts}
    (hd : WiresAgree o o' d d') (p : Ports) :
    Agree o o' (next ⟨o, k⟩ m p d) (next ⟨o', k⟩ m' p d') := by
  have hpipe : PipeAgree (MulPipeline.next k m.pipe (pipePorts p))
      (MulPipeline.next k m'.pipe (pipePorts p)) := pipeAgree_next h.pipe _
  have hstart : divStart m' p = divStart m p := by simp only [divStart, h.divState, h.discard]
  have hspecial : orderedWords o' (specialResult ⟨o', k⟩ p) =
      orderedWords o (specialResult ⟨o, k⟩ p) := by
    rw [orderedWords_special, orderedWords_special]
  unfold next
  rw [h.divState, h.discard, hstart, hd.divisorTready, hd.dividendTready, hd.doutTvalid]
  split
  · exact ⟨hpipe, rfl, rfl, h.words⟩
  · split
    · exact ⟨hpipe, rfl, rfl, h.words⟩
    · split
      · split
        · exact ⟨hpipe, rfl, rfl, h.words⟩
        · split
          · exact ⟨hpipe, rfl, rfl, hspecial⟩
          · exact ⟨hpipe, rfl, rfl, h.words⟩
      · split
        · split
          · exact ⟨hpipe, rfl, rfl, hd.doutTdata⟩
          · exact ⟨hpipe, rfl, rfl, h.words⟩
        · exact ⟨hpipe, rfl, rfl, h.words⟩

theorem result_of_agree {o o' : Bool} (h : Agree o o' m m') (hc : Captured m) (hc' : Captured m')
    (p : Ports) : mulResult ⟨o', k⟩ m' p = mulResult ⟨o, k⟩ m p := by
  have hquotient : quotientWord ⟨o', k⟩ m'.divResult = quotientWord ⟨o, k⟩ m.divResult := by
    have hw := congrArg Prod.fst h.words
    revert hw
    cases o <;> cases o' <;> exact id
  have hremainder : remainderWord ⟨o', k⟩ m'.divResult = remainderWord ⟨o, k⟩ m.divResult := by
    have hw := congrArg Prod.snd h.words
    revert hw
    cases o <;> cases o' <;> exact id
  unfold mulResult
  rw [h.divState, h.pipe.result, hquotient, hremainder]
  cases hstate : m.divState == 0b11#2 with
  | true =>
      have hdone := eq_of_beq hstate
      rw [hc hdone, hc' (h.divState.trans hdone), hquotient, hremainder]
  | false => simp only [Bool.and_false, Bool.false_eq_true, if_false]

theorem wiresAgree_inOrder (D : AxiDivider.{u}) (o o' : Bool) (s : D.State) (q : Divider.Ports) :
    WiresAgree o o' ((D.inOrder o).wires s q) ((D.inOrder o').wires s q) := by
  refine ⟨rfl, rfl, rfl, ?_⟩
  cases o <;> cases o' <;> simp [AxiDivider.inOrder, orderedWords, swapWords, low_append]

theorem agree_reset (o o' : Bool) (m₀ m₀' : Regs) : Agree o o' (reset m₀) (reset m₀') := by
  refine ⟨⟨rfl, rfl, rfl, rfl, rfl, ?operands, ?carried⟩, rfl, rfl, ?words⟩
  case operands =>
    rintro (h | h) <;> cases h
  case carried =>
    intro h
    cases h
  case words =>
    show orderedWords o' 0#64 = orderedWords o 0#64
    cases o <;> cases o' <;> decide

/-! ## Runs -/

namespace UnitBuild

variable {D : AxiDivider.{u}} {p : Nat → Ports}

theorem captured_run (v : UnitBuild) (m₀ : Regs) (t : Nat) : Captured (v.run k D m₀ p t).1 := by
  induction t with
  | zero =>
      intro h
      cases h
  | succ t ih =>
      show Captured (v.next k (v.run k D m₀ p t).1 (p t) _)
      rw [next_eq]
      exact captured_next _ _ _ _ ih

/-- Two builds agree in every cycle, and their dividers are in one state. -/
theorem agree_run (v v' : UnitBuild) (m₀ m₀' : Regs) (t : Nat) :
    Agree v.remainderHigh v'.remainderHigh (v.run k D m₀ p t).1 (v'.run k D m₀' p t).1 ∧
      (v'.run k D m₀' p t).2 = (v.run k D m₀ p t).2 := by
  induction t with
  | zero => exact ⟨agree_reset _ _ m₀ m₀', rfl⟩
  | succ t ih =>
      rcases ih with ⟨hagree, hstate⟩
      have hrequest := toDivider_eq hagree (p t)
      constructor
      · have hwires := wiresAgree_inOrder D v.remainderHigh v'.remainderHigh (v.run k D m₀ p t).2
          (toDivider (v.run k D m₀ p t).1 (p t))
        have hnext := agree_next (k := k) hagree hwires (p t)
        show Agree _ _
          (v.next k (v.run k D m₀ p t).1 (p t)
            ((D.inOrder v.remainderHigh).wires (v.run k D m₀ p t).2
              (toDivider (v.run k D m₀ p t).1 (p t))))
          (v'.next k (v'.run k D m₀' p t).1 (p t)
            ((D.inOrder v'.remainderHigh).wires (v'.run k D m₀' p t).2
              (toDivider (v'.run k D m₀' p t).1 (p t))))
        rw [next_eq, next_eq, hstate, hrequest]
        exact hnext
      · show D.next (v'.run k D m₀' p t).2 (toDivider (v'.run k D m₀' p t).1 (p t)) =
          D.next (v.run k D m₀ p t).2 (toDivider (v.run k D m₀ p t).1 (p t))
        rw [hstate, hrequest]

/-- On any divider, for every depth of the multiplier and every sequence of inputs, the four builds
give the same stall, the same request to the divider and the same result in every cycle. -/
theorem builds_agree (k : Nat) (D : AxiDivider.{u}) (v v' : UnitBuild) (m₀ m₀' : Regs)
    (p : Nat → Ports) (t : Nat) :
    mulStall (v'.run k D m₀' p t).1 (p t) = mulStall (v.run k D m₀ p t).1 (p t) ∧
      toDivider (v'.run k D m₀' p t).1 (p t) = toDivider (v.run k D m₀ p t).1 (p t) ∧
      v'.result k (v'.run k D m₀' p t).1 (p t) = v.result k (v.run k D m₀ p t).1 (p t) := by
  have hagree := (agree_run (k := k) (D := D) (p := p) v v' m₀ m₀' t).1
  refine ⟨?stall, toDivider_eq hagree (p t), ?result⟩
  case stall =>
    simp only [mulStall, divDone, hagree.divState, hagree.pipe.done]
  case result =>
    rw [result_eq v (p t) (captured_run v m₀ t), result_eq v' (p t) (captured_run v' m₀' t)]
    exact result_of_agree hagree (captured_run v m₀ t) (captured_run v' m₀' t) (p t)

end UnitBuild

end Mul
end RiscvCpu
