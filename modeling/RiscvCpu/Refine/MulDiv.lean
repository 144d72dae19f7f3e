import Mathlib.Tactic.Ring
import RiscvCpu.Refine.Values

/-!
# MulDiv — the multiply/divide unit returns the instruction set's values

The multiplier adds four products of halves and corrects the high word for negative operands; the
divider divides magnitudes and fixes the signs.  `Busy` lists the phases of an operation in the unit.
An operation that stalls stays busy, and one that does not has its value on the result wires and
leaves the unit at rest.
-/

namespace RiscvCpu
namespace MulPipeline

/-! ## The multiplier -/

/-- The operands and partial products of a multiplication have been loaded. -/
structure Loaded (r : Regs) (m : MulPacket) (a b : Word) : Prop where
  src1 : r.src1R = a
  src2 : r.src2R = b
  negative1 : r.src1NegativeR = (m.src1Signed && a.getLsbD 31)
  negative2 : r.src2NegativeR = (m.src2Signed && b.getLsbD 31)
  high : r.highResultR = m.mulOp.mulh
  partialLl : r.partialLl = lowHalf a * lowHalf b
  partialLh : r.partialLh = lowHalf a * highHalf b
  partialHl : r.partialHl = highHalf a * lowHalf b
  partialHh : r.partialHh = highHalf a * highHalf b

theorem half_toNat (x : Word) :
    (lowHalf x).toNat = x.toNat % 65536 ∧ (highHalf x).toNat = x.toNat / 65536 := by
  have h := x.isLt
  simp only [lowHalf, highHalf, BitVec.toNat_setWidth, BitVec.extractLsb'_toNat,
    Nat.shiftRight_eq_div_pow]
  omega

/-- A product of two halves fits a word. -/
theorem partial_toNat {x y : Word} (hx : x.toNat < 65536) (hy : y.toNat < 65536) :
    (x * y).toNat = x.toNat * y.toNat ∧ x.toNat * y.toNat ≤ 65535 * 65535 := by
  have h : x.toNat * y.toNat ≤ 65535 * 65535 := Nat.mul_le_mul (by omega) (by omega)
  refine ⟨?_, h⟩
  rw [BitVec.toNat_mul, Nat.mod_eq_of_lt]
  omega

/-- The sum of the products of halves. -/
theorem product_halves (a b : Nat) :
    a * b = a / 65536 * (b / 65536) * 4294967296 +
      (a % 65536 * (b / 65536) + a / 65536 * (b % 65536)) * 65536 + a % 65536 * (b % 65536) := by
  have ha := Nat.div_add_mod a 65536
  have hb := Nat.div_add_mod b 65536
  calc
    a * b = (65536 * (a / 65536) + a % 65536) * (65536 * (b / 65536) + b % 65536) := by
      rw [ha, hb]
    _ = _ := by ring

variable {r : Regs} {m : MulPacket} {a b : Word}

/-- The partial products as numbers. -/
theorem Loaded.toNat (h : Loaded r m a b) :
    ∃ ll lh hl hh : Nat,
      ll ≤ 65535 * 65535 ∧ lh ≤ 65535 * 65535 ∧ hl ≤ 65535 * 65535 ∧ hh ≤ 65535 * 65535 ∧
      r.partialHh.toNat = hh ∧ (middleSum r).toNat = lh + hl + ll / 65536 ∧
      (r.partialLl.extractLsb' 0 16).toNat = ll % 65536 ∧
      a.toNat * b.toNat = hh * 4294967296 + (lh + hl) * 65536 + ll := by
  rcases half_toNat a with ⟨hal, hah⟩
  rcases half_toNat b with ⟨hbl, hbh⟩
  have ha := a.isLt
  have hb := b.isLt
  -- no partial product overflows
  have hll := partial_toNat (x := lowHalf a) (y := lowHalf b) (by omega) (by omega)
  have hlh := partial_toNat (x := lowHalf a) (y := highHalf b) (by omega) (by omega)
  have hhl := partial_toNat (x := highHalf a) (y := lowHalf b) (by omega) (by omega)
  have hhh := partial_toNat (x := highHalf a) (y := highHalf b) (by omega) (by omega)
  refine ⟨(lowHalf a).toNat * (lowHalf b).toNat, (lowHalf a).toNat * (highHalf b).toNat,
    (highHalf a).toNat * (lowHalf b).toNat, (highHalf a).toNat * (highHalf b).toNat,
    hll.2, hlh.2, hhl.2, hhh.2, ?_, ?_, ?_, ?_⟩
  · rw [h.partialHh, hhh.1]
  · simp only [middleSum, h.partialLh, h.partialHl, h.partialLl, BitVec.toNat_add,
      BitVec.toNat_setWidth, BitVec.extractLsb'_toNat, Nat.shiftRight_eq_div_pow, hlh.1, hhl.1, hll.1]
    have := hll.2
    have := hlh.2
    have := hhl.2
    omega
  · simp only [h.partialLl, BitVec.extractLsb'_toNat, hll.1, Nat.shiftRight_zero]
  · rw [hal, hah, hbl, hbh]
    exact product_halves a.toNat b.toNat

theorem lowResult_eq (h : Loaded r m a b) : lowResult r = a * b := by
  rcases h.toNat with ⟨ll, lh, hl, hh, h1, h2, h3, h4, hhh, hmid, hlow, hprod⟩
  apply BitVec.eq_of_toNat_eq
  rw [BitVec.toNat_mul, hprod, lowResult, BitVec.toNat_append, hlow,
    ← Nat.shiftLeft_add_eq_or_of_lt (by omega), Nat.shiftLeft_eq, BitVec.extractLsb'_toNat, hmid]
  simp only [Nat.shiftRight_zero]
  omega

/-- The unsigned high word. -/
theorem unsignedHigh_eq (h : Loaded r m a b) :
    unsignedHigh r = (a.setWidth 64 * b.setWidth 64).extractLsb' 32 32 := by
  rcases h.toNat with ⟨ll, lh, hl, hh, h1, h2, h3, h4, hhh, hmid, hlow, hprod⟩
  have ha := a.isLt
  have hb := b.isLt
  apply BitVec.eq_of_toNat_eq
  simp only [unsignedHigh, BitVec.toNat_add, BitVec.toNat_setWidth, BitVec.extractLsb'_toNat, hmid,
    hhh, BitVec.toNat_mul, Nat.shiftRight_eq_div_pow]
  rw [Nat.mod_eq_of_lt (show a.toNat < 2 ^ 64 by omega), Nat.mod_eq_of_lt (show b.toNat < 2 ^ 64 by omega), hprod]
  omega

/-- A negative operand stands for itself less `2 ^ 32`. -/
theorem extend_toNat (signed : Bool) (x : Word) :
    (extend signed x).toNat =
      x.toNat + if signed && x.getLsbD 31 then 2 ^ 64 - 2 ^ 32 else 0 := by
  have hx := x.isLt
  have hmsb : x.getLsbD 31 = x.msb := (BitVec.msb_eq_getLsbD_last x).symm
  have hwide : (x.setWidth 64).toNat = x.toNat := by
    rw [BitVec.toNat_setWidth, Nat.mod_eq_of_lt (by omega)]
  cases signed with
  | false => simpa [extend] using hwide
  | true =>
    rw [hmsb]
    simp only [extend, if_true, Bool.true_and]
    rw [BitVec.toNat_signExtend, hwide]

theorem correction_toNat (n : Bool) (x : Word) :
    (correction n x).toNat = if n then x.toNat else 0 := by
  cases n <;> rfl

theorem correctedHigh_eq (h : Loaded r m a b) :
    correctedHigh r = Isa.mulHigh (extend m.src1Signed a) (extend m.src2Signed b) := by
  have ha := a.isLt
  have hb := b.isLt
  have hab : a.toNat * b.toNat ≤ (2 ^ 32 - 1) * (2 ^ 32 - 1) :=
    Nat.mul_le_mul (by omega) (by omega)
  -- the high word of the unsigned product, then one correction for each negative operand
  have hu : (unsignedHigh r).toNat = a.toNat * b.toNat / 2 ^ 32 := by
    rw [unsignedHigh_eq h]
    simp only [BitVec.extractLsb'_toNat, BitVec.toNat_mul, BitVec.toNat_setWidth,
      Nat.shiftRight_eq_div_pow]
    rw [Nat.mod_eq_of_lt (show a.toNat < 2 ^ 64 by omega),
      Nat.mod_eq_of_lt (show b.toNat < 2 ^ 64 by omega)]
    omega
  apply BitVec.eq_of_toNat_eq
  rw [Isa.mulHigh, correctedHigh, h.negative1, h.negative2, h.src1, h.src2]
  simp only [BitVec.toNat_sub, BitVec.extractLsb'_toNat, BitVec.toNat_mul, extend_toNat,
    correction_toNat, Nat.shiftRight_eq_div_pow, hu]
  cases hn1 : (m.src1Signed && a.getLsbD 31) <;> cases hn2 : (m.src2Signed && b.getLsbD 31) <;>
    simp only [if_true, Bool.false_eq_true, if_false, Nat.add_zero, Nat.add_mul, Nat.mul_add] <;>
    generalize a.toNat * b.toNat = q at * <;>
    omega

theorem threeStageHigh_eq (h : Loaded r m a b) (hhh : r.partialHhR = r.partialHh)
    (hmid : r.middleHighR = (middleSum r).extractLsb' 16 17) :
    threeStageHigh r = Isa.mulHigh (extend m.src1Signed a) (extend m.src2Signed b) := by
  rw [← correctedHigh_eq h, threeStageHigh, correctedHigh, unsignedHigh, hhh, hmid]

end MulPipeline

/-! ## The divider -/

namespace Mul

/-- The operand or its negation. -/
theorem magnitude_eq (signed : Bool) (x : Word) :
    magnitude signed x = if signed && x.msb then -x else x := by
  rw [magnitude, BitVec.msb_eq_getLsbD_last, BitVec.neg_eq_not_add]

theorem magnitude_eq_zero (signed : Bool) (x : Word) :
    (magnitude signed x == 0#32) = decide (x = 0#32) := by
  rw [magnitude_eq]
  cases signed && x.msb <;> simp [Bool.beq_eq_decide_eq]

/-- Dividing magnitudes and fixing the sign is the signed division. -/
theorem quotient_eq (signed : Bool) {a b : Word} (hb : b ≠ 0#32) :
    (if signed && (a.msb ^^ b.msb) then -(magnitude signed a / magnitude signed b)
      else magnitude signed a / magnitude signed b) =
      if signed then Isa.div a b else Isa.divu a b := by
  rw [magnitude_eq, magnitude_eq, Isa.div, Isa.divu, if_neg hb, if_neg hb, BitVec.sdiv_eq]
  cases signed <;> cases a.msb <;> cases b.msb <;> rfl

theorem remainder_eq (signed : Bool) {a b : Word} (hb : b ≠ 0#32) :
    (if signed && a.msb then -(magnitude signed a % magnitude signed b)
      else magnitude signed a % magnitude signed b) =
      if signed then Isa.rem a b else Isa.remu a b := by
  rw [magnitude_eq, magnitude_eq, Isa.rem, Isa.remu, if_neg hb, if_neg hb, BitVec.srem_eq]
  cases signed <;> cases a.msb <;> cases b.msb <;> rfl

/-! ## The unit -/

/-- The four operations; a division reads both operands the same way. -/
inductive Operation : MulPacket → Prop
  | mul (s1 s2 : Bool) : Operation ⟨⟨true, false, false, false⟩, s1, s2⟩
  | mulh (s1 s2 : Bool) : Operation ⟨⟨false, true, false, false⟩, s1, s2⟩
  | div (s : Bool) : Operation ⟨⟨false, false, true, false⟩, s, s⟩
  | rem (s : Bool) : Operation ⟨⟨false, false, false, true⟩, s, s⟩

/-- The ports of the unit while an unflushed operation is in execute and the memory stage is ready. -/
def busyPorts (k : MulPacket) (a b : Word) : Ports :=
  { isMul := true
    isMulticycle := true
    mulSrc1 := a
    mulSrc2 := b
    mulOp := k.mulOp
    src1Signed := k.src1Signed
    src2Signed := k.src2Signed
    resultReady := true
    kill := false }

/-- The divider's ports, driven by the unit, and the unit's, driven by the divider. -/
def toDivider (m : Regs) (p : Ports) : Divider.Ports :=
  { divisorTvalid := divStart m p
    divisorTdata := divSrc2 p
    dividendTvalid := divStart m p
    dividendTdata := divSrc1 p }

def fromDivider (m : Regs) (d : Divider.Regs) (p : Ports) : DivPorts :=
  { divisorTready := Divider.divisorTready d (toDivider m p)
    dividendTready := Divider.dividendTready d (toDivider m p)
    doutTvalid := Divider.doutTvalid d
    doutTdata := Divider.doutTdata d }

structure PipeRest (r : MulPipeline.Regs) : Prop where
  active : r.active = false
  done : r.done = false
  stage1 : r.stage1Valid = false
  stage2 : r.stage2Valid = false

structure DivRest (m : Regs) (d : Divider.Regs) : Prop where
  divState : m.divState = 0b00#2
  discard : m.divDiscardPending = false
  divider : d.state = Divider.IDLE

/-- Nothing is under way. -/
structure Rest (m : Regs) (d : Divider.Regs) : Prop where
  pipe : PipeRest m.pipe
  div : DivRest m d

/-- The phases of the operation `k` on `a` and `b`. -/
inductive Busy (k : MulPacket) (a b : Word) (m : Regs) (d : Divider.Regs) : Prop
  | fresh (rest : Rest m d)
  | stage1 (div : DivRest m d) (hop : k.mulOp.div = false ∧ k.mulOp.rem = false)
      (loaded : MulPipeline.Loaded m.pipe k a b)
      (active : m.pipe.active = true) (done : m.pipe.done = false)
      (stage1 : m.pipe.stage1Valid = true) (stage2 : m.pipe.stage2Valid = false)
  | stage2 (div : DivRest m d) (hop : k.mulOp = ⟨false, true, false, false⟩)
      (loaded : MulPipeline.Loaded m.pipe k a b)
      (middle : m.pipe.middleHighR = (MulPipeline.middleSum m.pipe).extractLsb' 16 17)
      (top : m.pipe.partialHhR = m.pipe.partialHh)
      (active : m.pipe.active = true) (done : m.pipe.done = false)
      (stage1 : m.pipe.stage1Valid = false) (stage2 : m.pipe.stage2Valid = true)
  | product (div : DivRest m d) (hop : k.mulOp.div = false ∧ k.mulOp.rem = false)
      (result : m.pipe.result = k.value a b) (active : m.pipe.active = true)
      (done : m.pipe.done = true)
      (stage1 : m.pipe.stage1Valid = false)
      (stage2 : m.pipe.highResultR = true → m.pipe.stage2Valid = false)
  | waiting (pipe : PipeRest m.pipe) (hop : k.mulOp.mul = false ∧ k.mulOp.mulh = false)
      (divState : m.divState = 0b01#2) (discard : m.divDiscardPending = false)
      (divider : d.state = Divider.WAIT_RESULT ∨ d.state = Divider.OUTPUT_VALID)
      (dividend : d.dividendReg = magnitude k.src1Signed a)
      (divisor : d.divisorReg = magnitude k.src2Signed b)
      (hb : b ≠ 0#32)
  | quotient (pipe : PipeRest m.pipe) (hop : k.mulOp.mul = false ∧ k.mulOp.mulh = false)
      (divState : m.divState = 0b11#2) (discard : m.divDiscardPending = false)
      (divider : d.state = Divider.IDLE)
      (data : m.doutTdataReg = (magnitude k.src1Signed a % magnitude k.src2Signed b) ++
        (magnitude k.src1Signed a / magnitude k.src2Signed b))
      (result : m.divResult = m.doutTdataReg) (hb : b ≠ 0#32)
  | special (pipe : PipeRest m.pipe) (hop : k.mulOp.mul = false ∧ k.mulOp.mulh = false)
      (divState : m.divState = 0b10#2) (discard : m.divDiscardPending = false)
      (divider : d.state = Divider.IDLE)
      (result : m.divResult = specialResult Build.core (busyPorts k a b))
      (hspecial : (div0 (busyPorts k a b) || div1 (busyPorts k a b)) = true)

variable {k : MulPacket} {a b : Word} {m : Regs} {d : Divider.Regs}

/-- The unit and the divider after an edge. -/
def unitNext (m : Regs) (d : Divider.Regs) (p : Ports) : Regs × Divider.Regs :=
  (next Build.core m p (fromDivider m d p), Divider.next d (toDivider m p))

theorem pipe_next (p : Ports) :
    (unitNext m d p).1.pipe = MulPipeline.next mulHighCycle m.pipe (pipePorts p) := by
  simp only [unitNext, next]
  repeat' split
  all_goals rfl

/-! ### At rest -/

theorem pipeRest_next {p : Ports} (h : PipeRest m.pipe) (hstart : mulStart p = false) :
    PipeRest (unitNext m d p).1.pipe := by
  rw [pipe_next]
  by_cases hkill : p.kill = true
  · constructor <;> simp [MulPipeline.next, pipePorts, hkill, MulPipeline.clear]
  · constructor <;>
      simp [MulPipeline.next, pipePorts, hkill, MulPipeline.startAccept, hstart,
        MulPipeline.lowComplete, MulPipeline.highComplete, mulHighCycle, h.active, h.done,
        h.stage1, h.stage2]

theorem divRest_next {p : Ports} (h : DivRest m d) (hstart : divStart m p = false)
    (hspecial : divSpecial p = false) : DivRest (unitNext m d p).1 (unitNext m d p).2 := by
  have hd : (unitNext m d p).2 = d := by
    simp [unitNext, Divider.next, toDivider, Divider.inputHandshakeDone, hstart, h.divider]
  refine ⟨?_, ?_, by rw [hd]; exact h.divider⟩
  · by_cases hkill : p.kill = true <;>
      simp [unitNext, next, hkill, h.discard, h.divState, hstart, hspecial]
  · by_cases hkill : p.kill = true <;>
      simp [unitNext, next, hkill, h.discard, h.divState, hstart, hspecial]

/-- A unit at rest that is asked for nothing stays at rest. -/
theorem rest_next {p : Ports} (h : Rest m d) (hp : p.isMul = false) :
    Rest (unitNext m d p).1 (unitNext m d p).2 :=
  { pipe := pipeRest_next h.pipe (by simp [mulStart, hp])
    div := divRest_next h.div (by simp [divStart, hp]) (by simp [divSpecial, hp]) }

/-! ### A multiplication -/

theorem divRest_busy (h : DivRest m d) (hop : k.mulOp.div = false ∧ k.mulOp.rem = false) :
    DivRest (unitNext m d (busyPorts k a b)).1 (unitNext m d (busyPorts k a b)).2 := by
  have hno : mulOpDiv (busyPorts k a b) = false := by simp [mulOpDiv, busyPorts, hop]
  exact divRest_next h (by simp [divStart, hno]) (by simp [divSpecial, hno])

/-- The edge of the multiplier under an operation. -/
theorem pipe_busy (m : Regs) (d : Divider.Regs) (k : MulPacket) (a b : Word) :
    (unitNext m d (busyPorts k a b)).1.pipe =
      MulPipeline.next mulHighCycle m.pipe
        { start := k.mulOp.mul || k.mulOp.mulh
          resultReady := true
          kill := false
          src1 := a
          src2 := b
          src1Signed := k.src1Signed
          src2Signed := k.src2Signed
          highResult := k.mulOp.mulh } :=
  pipe_next _

theorem busy_of_fresh_mul (h : Rest m d) (hop : k.mulOp.div = false ∧ k.mulOp.rem = false)
    (hmul : (k.mulOp.mul || k.mulOp.mulh) = true) :
    Busy k a b (unitNext m d (busyPorts k a b)).1 (unitNext m d (busyPorts k a b)).2 := by
  have hpipe := h.pipe
  refine .stage1 (divRest_busy h.div hop) hop ?_ ?_ ?_ ?_ ?_
  · constructor <;>
      simp [pipe_busy, MulPipeline.next, MulPipeline.startAccept, hmul, hpipe.active]
  all_goals
    simp [pipe_busy, MulPipeline.next, MulPipeline.startAccept, hmul, MulPipeline.lowComplete,
      MulPipeline.highComplete, mulHighCycle, hpipe.active, hpipe.done, hpipe.stage1,
      hpipe.stage2]

theorem busy_of_stage1 (hk : Operation k) (div : DivRest m d)
    (hop : k.mulOp.div = false ∧ k.mulOp.rem = false) (loaded : MulPipeline.Loaded m.pipe k a b)
    (active : m.pipe.active = true) (done : m.pipe.done = false)
    (stage1 : m.pipe.stage1Valid = true) (stage2 : m.pipe.stage2Valid = false) :
    Busy k a b (unitNext m d (busyPorts k a b)).1 (unitNext m d (busyPorts k a b)).2 := by
  have hdiv := divRest_busy (a := a) (b := b) div hop
  have hhigh := loaded.high
  cases hk with
  | mul s1 s2 =>
      -- the low word is complete
      refine .product hdiv hop ?_ ?_ ?_ ?_ ?_
      · have hlow := MulPipeline.lowResult_eq loaded
        simpa [pipe_busy, MulPipeline.next, MulPipeline.lowComplete, hhigh, stage1,
          MulPacket.value] using hlow
      all_goals
        simp [pipe_busy, MulPipeline.next, MulPipeline.startAccept, MulPipeline.lowComplete, hhigh,
          stage1, active]
  | mulh s1 s2 =>
      refine .stage2 hdiv rfl ?_ ?_ ?_ ?_ ?_ ?_ ?_
      · constructor <;>
          simp [pipe_busy, MulPipeline.next, MulPipeline.startAccept, active, loaded.src1,
            loaded.src2, loaded.negative1, loaded.negative2, loaded.high, loaded.partialLl,
            loaded.partialLh, loaded.partialHl, loaded.partialHh]
      all_goals
        simp [pipe_busy, MulPipeline.next, MulPipeline.startAccept, MulPipeline.middleSum,
          MulPipeline.lowComplete, MulPipeline.highComplete, mulHighCycle, hhigh, stage1, stage2,
          active, done]
  | div | rem => simp at hop

theorem busy_of_stage2 (div : DivRest m d) (hop : k.mulOp = ⟨false, true, false, false⟩)
    (loaded : MulPipeline.Loaded m.pipe k a b)
    (middle : m.pipe.middleHighR = (MulPipeline.middleSum m.pipe).extractLsb' 16 17)
    (top : m.pipe.partialHhR = m.pipe.partialHh) (active : m.pipe.active = true)
    (stage1 : m.pipe.stage1Valid = false) (stage2 : m.pipe.stage2Valid = true) :
    Busy k a b (unitNext m d (busyPorts k a b)).1 (unitNext m d (busyPorts k a b)).2 := by
  have hno : k.mulOp.div = false ∧ k.mulOp.rem = false := by simp [hop]
  have hhigh : m.pipe.highResultR = true := by simp [loaded.high, hop]
  refine .product (divRest_busy div hno) hno ?_ ?_ ?_ ?_ ?_
  · have hres := MulPipeline.threeStageHigh_eq loaded top middle
    simpa [pipe_busy, MulPipeline.next, MulPipeline.lowComplete, MulPipeline.highComplete,
      mulHighCycle, hhigh, stage2, MulPacket.value, hop] using hres
  all_goals
    simp [pipe_busy, MulPipeline.next, MulPipeline.startAccept, MulPipeline.lowComplete,
      MulPipeline.highComplete, mulHighCycle, hhigh, stage1, stage2, active]

/-- The finished product leaves the unit at rest. -/
theorem rest_of_product (div : DivRest m d) (hop : k.mulOp.div = false ∧ k.mulOp.rem = false)
    (active : m.pipe.active = true) (done : m.pipe.done = true)
    (stage1 : m.pipe.stage1Valid = false)
    (stage2 : m.pipe.highResultR = true → m.pipe.stage2Valid = false) :
    Rest (unitNext m d (busyPorts k a b)).1 (unitNext m d (busyPorts k a b)).2 := by
  have hcomplete : MulPipeline.highComplete mulHighCycle m.pipe = false := by
    cases hh : m.pipe.highResultR with
    | false => simp [MulPipeline.highComplete, hh]
    | true => simp [MulPipeline.highComplete, mulHighCycle, stage2 hh]
  refine ⟨?_, divRest_busy div hop⟩
  constructor <;>
    simp [pipe_busy, MulPipeline.next, MulPipeline.startAccept, MulPipeline.lowComplete, hcomplete,
      stage1, done, active]

/-! ### A division -/

theorem pipeRest_busy (h : PipeRest m.pipe) (hop : k.mulOp.mul = false ∧ k.mulOp.mulh = false) :
    PipeRest (unitNext m d (busyPorts k a b)).1.pipe :=
  pipeRest_next h (by simp [mulStart, mulOpMul, busyPorts, hop])

theorem div0_busy : div0 (busyPorts k a b) = decide (b = 0#32) := by
  exact magnitude_eq_zero k.src2Signed b

theorem busy_of_fresh_div (h : Rest m d) (hop : k.mulOp.mul = false ∧ k.mulOp.mulh = false)
    (hdiv : mulOpDiv (busyPorts k a b) = true) :
    Busy k a b (unitNext m d (busyPorts k a b)).1 (unitNext m d (busyPorts k a b)).2 := by
  have hpipe := pipeRest_busy (d := d) (a := a) (b := b) h.pipe hop
  have hstate := h.div.divState
  have hdiscard := h.div.discard
  have hidle := h.div.divider
  have hlive : (busyPorts k a b).kill = false ∧ (busyPorts k a b).isMul = true ∧
      (busyPorts k a b).isMulticycle = true := ⟨rfl, rfl, rfl⟩
  -- either the operands are special, or the divider accepts the request at once
  cases hspecial : (div0 (busyPorts k a b) || div1 (busyPorts k a b)) with
  | true =>
      have hstart : divStart m (busyPorts k a b) = false := by
        rw [Bool.or_eq_true] at hspecial
        rcases hspecial with h0 | h1
        · simp [divStart, h0]
        · simp [divStart, h1]
      have hspec : divSpecial (busyPorts k a b) = true := by
        simp [divSpecial, hlive, hdiv, hspecial]
      refine .special hpipe hop ?_ ?_ ?_ ?_ hspecial
      all_goals
        simp [unitNext, next, hlive, hdiscard, hstate, hstart, hspec, Divider.next, toDivider,
          Divider.inputHandshakeDone, hidle]
  | false =>
      have hparts := Bool.or_eq_false_iff.mp hspecial
      have hstart : divStart m (busyPorts k a b) = true := by
        simp [divStart, hlive, hdiv, hstate, hdiscard, hparts]
      have hready : Divider.divisorTready d (toDivider m (busyPorts k a b)) = true ∧
          Divider.dividendTready d (toDivider m (busyPorts k a b)) = true := by
        simp [Divider.divisorTready, Divider.dividendTready, toDivider, hstart, hidle]
      have hb : b ≠ 0#32 := by
        have h0 := hparts.1
        rw [div0_busy] at h0
        simpa using h0
      have hdone : Divider.inputHandshakeDone d (toDivider m (busyPorts k a b)) = true := by
        rw [Divider.inputHandshakeDone, hready.1, hready.2]
        simp [toDivider, hstart]
      have hnext : (unitNext m d (busyPorts k a b)).2 =
          ⟨magnitude k.src2Signed b, magnitude k.src1Signed a, Divider.WAIT_RESULT, 10#5⟩ := by
        simp [unitNext, Divider.next, hidle, hdone]
        exact ⟨rfl, rfl⟩
      refine .waiting hpipe hop ?_ ?_ (Or.inl ?_) ?_ ?_ hb
      · simp [unitNext, next, hlive, hdiscard, hstate, hstart, fromDivider, hready]
      · simp [unitNext, next, hlive, hdiscard, hstate, hstart]
      all_goals rw [hnext]

theorem busy_of_waiting (pipe : PipeRest m.pipe) (hop : k.mulOp.mul = false ∧ k.mulOp.mulh = false)
    (divState : m.divState = 0b01#2) (discard : m.divDiscardPending = false)
    (divider : d.state = Divider.WAIT_RESULT ∨ d.state = Divider.OUTPUT_VALID)
    (dividend : d.dividendReg = magnitude k.src1Signed a)
    (divisor : d.divisorReg = magnitude k.src2Signed b) (hb : b ≠ 0#32) :
    Busy k a b (unitNext m d (busyPorts k a b)).1 (unitNext m d (busyPorts k a b)).2 := by
  have hpipe := pipeRest_busy (d := d) (a := a) (b := b) pipe hop
  have hlive : (busyPorts k a b).kill = false := rfl
  -- the divider is still counting, or it answers in this cycle
  rcases divider with hwait | hout
  · have hnot : (fromDivider m d (busyPorts k a b)).doutTvalid = false := by
      simp [fromDivider, Divider.doutTvalid, hwait, Divider.WAIT_RESULT, Divider.OUTPUT_VALID]
    refine .waiting hpipe hop ?_ ?_ ?_ ?_ ?_ hb
    · simp [unitNext, next, hlive, discard, divState, hnot]
    · simp [unitNext, next, hlive, discard, divState, hnot]
    all_goals
      by_cases hcount : 0#5 < d.delayCounter <;>
        simp [unitNext, Divider.next, hwait, Divider.WAIT_RESULT, Divider.IDLE, hcount, dividend,
          divisor]
  · have hvalid : (fromDivider m d (busyPorts k a b)).doutTvalid = true := by
      simp [fromDivider, Divider.doutTvalid, hout]
    refine .quotient hpipe hop ?_ ?_ ?_ ?_ ?_ hb
    · simp [unitNext, next, hlive, discard, divState, hvalid]
    · simp [unitNext, next, hlive, discard, divState, hvalid]
    · simp [unitNext, Divider.next, hout, Divider.OUTPUT_VALID, Divider.WAIT_RESULT, Divider.IDLE]
    · have hdata : (fromDivider m d (busyPorts k a b)).doutTdata =
          (magnitude k.src1Signed a % magnitude k.src2Signed b) ++
            (magnitude k.src1Signed a / magnitude k.src2Signed b) := by
        simp [fromDivider, Divider.doutTdata, dividend, divisor]
      simp [unitNext, next, hlive, discard, divState, hvalid, hdata]
    · simp [unitNext, next, hlive, discard, divState, hvalid]

/-- An answered division leaves the unit at rest. -/
theorem rest_of_answer (pipe : PipeRest m.pipe) (hop : k.mulOp.mul = false ∧ k.mulOp.mulh = false)
    (divState : m.divState = 0b11#2 ∨ m.divState = 0b10#2) (discard : m.divDiscardPending = false)
    (divider : d.state = Divider.IDLE) :
    Rest (unitNext m d (busyPorts k a b)).1 (unitNext m d (busyPorts k a b)).2 := by
  have hlive : (busyPorts k a b).kill = false := rfl
  have hstart : divStart m (busyPorts k a b) = false := by
    rcases divState with h | h <;> simp [divStart, h]
  refine ⟨pipeRest_busy pipe hop, ?_, ?_, ?_⟩
  · rcases divState with h | h <;> simp [unitNext, next, hlive, discard, h]
  · rcases divState with h | h <;> simp [unitNext, next, hlive, discard, h]
  · simp [unitNext, Divider.next, toDivider, Divider.inputHandshakeDone, hstart, divider]

/-! ### The results -/

theorem low_append (x y : Word) : lowWord (x ++ y) = y ∧ highWord (x ++ y) = x := by
  constructor
  · apply BitVec.eq_of_getLsbD_eq
    intro n hn
    rw [lowWord, BitVec.getLsbD_extractLsb', BitVec.getLsbD_append]
    simp [hn]
  · apply BitVec.eq_of_getLsbD_eq
    intro n hn
    rw [highWord, BitVec.getLsbD_extractLsb', BitVec.getLsbD_append]
    simp [hn]

theorem result_of_quotient (hk : Operation k)
    (hop : k.mulOp.mul = false ∧ k.mulOp.mulh = false) (divState : m.divState = 0b11#2)
    (data : m.doutTdataReg = (magnitude k.src1Signed a % magnitude k.src2Signed b) ++
      (magnitude k.src1Signed a / magnitude k.src2Signed b))
    (result : m.divResult = m.doutTdataReg) (hb : b ≠ 0#32) :
    mulResult Build.core m (busyPorts k a b) = k.value a b := by
  obtain ⟨hlow, hhigh⟩ := low_append (magnitude k.src1Signed a % magnitude k.src2Signed b)
    (magnitude k.src1Signed a / magnitude k.src2Signed b)
  have hmsb (x : Word) : x.getLsbD 31 = x.msb := (BitVec.msb_eq_getLsbD_last x).symm
  cases hk with
  | mul | mulh => simp at hop
  | div s =>
      have h := quotient_eq s (a := a) hb
      simp only [mulResult, MulPacket.value, busyPorts, s1, divState, data, result, quotientWord,
        Build.core, hlow, hmsb, Bool.false_eq_true, if_false, if_true, beq_self_eq_true,
        Bool.and_true, Bool.and_self, ← BitVec.neg_eq_not_add] at h ⊢
      exact h
  | rem s =>
      have h := remainder_eq s (a := a) hb
      simp only [mulResult, MulPacket.value, busyPorts, s2, divState, data, result, remainderWord,
        Build.core, hhigh, hmsb, Bool.false_eq_true, if_false, if_true, beq_self_eq_true,
        Bool.and_true, ← BitVec.neg_eq_not_add] at h ⊢
      exact h

/-- The words put aside for a division by zero and for the signed overflow. -/
theorem special_words (k : MulPacket) (a b : Word) :
    quotientWord Build.core (specialResult Build.core (busyPorts k a b)) =
      (if b = 0#32 then 0xffff_ffff#32 else 0x8000_0000#32) ∧
    remainderWord Build.core (specialResult Build.core (busyPorts k a b)) =
      if b = 0#32 then a else 0#32 := by
  by_cases hb : b = 0#32
  · have h0 : div0 (busyPorts k a b) = true := by simp [div0_busy, hb]
    rcases low_append a 0xffff_ffff#32 with ⟨hlow, hhigh⟩
    simp only [quotientWord, remainderWord, specialResult, Build.core, h0, if_true, if_pos hb]
    exact ⟨hlow, hhigh⟩
  · have h0 : div0 (busyPorts k a b) = false := by simp [div0_busy, hb]
    rcases low_append 0x0000_0000#32 0x8000_0000#32 with ⟨hlow, hhigh⟩
    simp only [quotientWord, remainderWord, specialResult, Build.core, h0, hb, if_true, if_false,
      Bool.false_eq_true]
    exact ⟨hlow, hhigh⟩

theorem result_of_special (hk : Operation k)
    (hop : k.mulOp.mul = false ∧ k.mulOp.mulh = false) (divState : m.divState = 0b10#2)
    (result : m.divResult = specialResult Build.core (busyPorts k a b))
    (hspecial : (div0 (busyPorts k a b) || div1 (busyPorts k a b)) = true) :
    mulResult Build.core m (busyPorts k a b) = k.value a b := by
  rcases special_words k a b with ⟨hquo, hrem⟩
  have hnot : (m.divState == 0b11#2) = false := by rw [divState]; rfl
  -- what is special and no division by zero is the signed overflow
  have hover : b ≠ 0#32 → k.src1Signed = true ∧ a = 0x8000_0000#32 ∧ b = 0xffff_ffff#32 := by
    intro hb
    have h1 : div1 (busyPorts k a b) = true := by simpa [div0_busy, hb] using hspecial
    simp only [div1, busyPorts, Bool.and_eq_true, beq_iff_eq] at h1
    exact ⟨h1.1.1.1, h1.1.2, h1.2⟩
  have hwords : mulResult Build.core m (busyPorts k a b) =
      if k.mulOp.div then (if b = 0#32 then 0xffff_ffff#32 else 0x8000_0000#32)
      else if k.mulOp.rem then (if b = 0#32 then a else 0#32)
      else 0#32 := by
    rw [← hquo, ← hrem, ← result]
    simp [mulResult, busyPorts, hop, hnot]
  rw [hwords]
  cases hk with
  | mul | mulh => simp at hop
  | div s =>
      by_cases hb : b = 0#32
      · cases s <;> simp [MulPacket.value, hb, Isa.div, Isa.divu]
      · rcases hover hb with ⟨hs, rfl, rfl⟩
        have hs' : s = true := hs
        subst hs'
        decide
  | rem s =>
      by_cases hb : b = 0#32
      · cases s <;> simp [MulPacket.value, hb, Isa.rem, Isa.remu]
      · rcases hover hb with ⟨hs, rfl, rfl⟩
        have hs' : s = true := hs
        subst hs'
        decide

/-! ### The law of the unit -/

/-- An operation that stalls stays busy. -/
theorem busy_next (hk : Operation k) (h : Busy k a b m d)
    (hstall : mulStall m (busyPorts k a b) = true) :
    Busy k a b (unitNext m d (busyPorts k a b)).1 (unitNext m d (busyPorts k a b)).2 := by
  -- each stalled phase steps to the next; the others do not stall
  cases h with
  | fresh rest =>
      cases hk with
      | mul | mulh => exact busy_of_fresh_mul rest ⟨rfl, rfl⟩ rfl
      | div | rem => exact busy_of_fresh_div rest ⟨rfl, rfl⟩ rfl
  | stage1 div hop loaded active done stage1 stage2 =>
      exact busy_of_stage1 hk div hop loaded active done stage1 stage2
  | stage2 div hop loaded middle top active done stage1 stage2 =>
      exact busy_of_stage2 div hop loaded middle top active stage1 stage2
  | product div hop result active done stage1 stage2 =>
      simp [mulStall, mulOpMul, mulOpDiv, busyPorts, done, hop] at hstall
  | waiting pipe hop divState discard divider dividend divisor hb =>
      exact busy_of_waiting pipe hop divState discard divider dividend divisor hb
  | quotient pipe hop divState discard divider data result hb =>
      simp [mulStall, mulOpMul, mulOpDiv, busyPorts, divDone, divState, hop] at hstall
  | special pipe hop divState discard divider result hspecial =>
      simp [mulStall, mulOpMul, mulOpDiv, busyPorts, divDone, divState, hop] at hstall

/-- One that does not shows its value and leaves the unit at rest. -/
theorem rest_of_done (hk : Operation k) (h : Busy k a b m d)
    (hstall : mulStall m (busyPorts k a b) = false) :
    mulResult Build.core m (busyPorts k a b) = k.value a b ∧
      Rest (unitNext m d (busyPorts k a b)).1 (unitNext m d (busyPorts k a b)).2 := by
  -- the phases in which the operation would still be stalled are impossible
  cases h with
  | fresh rest =>
      have hdone := rest.pipe.done
      have hstate := rest.div.divState
      cases hk <;>
        simp [mulStall, mulOpMul, mulOpDiv, busyPorts, divDone, hdone, hstate] at hstall
  | stage1 div hop loaded active done stage1 stage2 =>
      cases hk with
      | mul | mulh => simp [mulStall, mulOpMul, busyPorts, done] at hstall
      | div | rem => simp at hop
  | stage2 div hop loaded middle top active done stage1 stage2 =>
      simp [mulStall, mulOpMul, busyPorts, done, hop] at hstall
  | product div hop result active done stage1 stage2 =>
      refine ⟨?_, rest_of_product div hop active done stage1 stage2⟩
      cases hk with
      | mul | mulh => exact result
      | div | rem => simp at hop
  | waiting pipe hop divState discard divider dividend divisor hb =>
      cases hk with
      | mul | mulh => simp at hop
      | div | rem => simp [mulStall, mulOpDiv, busyPorts, divDone, divState] at hstall
  | quotient pipe hop divState discard divider data result hb =>
      exact ⟨result_of_quotient hk hop divState data result hb,
        rest_of_answer pipe hop (Or.inl divState) discard divider⟩
  | special pipe hop divState discard divider result hspecial =>
      exact ⟨result_of_special hk hop divState result hspecial,
        rest_of_answer pipe hop (Or.inr divState) discard divider⟩

end Mul
end RiscvCpu
