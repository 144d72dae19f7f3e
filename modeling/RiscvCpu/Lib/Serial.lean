import Mathlib.Data.Nat.Notation

/-!
# Serial — a serial frame on a line

A frame is a low start bit, the data bits from the lowest on, and a high stop bit.  Each bit stays on
the line for `B` cycles, so the level of the line is a function of the age of the frame.  Before a
frame and after it the line is high.
-/

namespace RiscvCpu
namespace Serial

variable {n : Nat}

/-- Bit `slot` of the frame of `x`. -/
def frameBit (x : BitVec n) (slot : Nat) : Bool :=
  if slot = 0 then false else if slot ≤ n then x.getLsbD (slot - 1) else true

@[simp] theorem frameBit_start (x : BitVec n) : frameBit x 0 = false := rfl

theorem frameBit_data (x : BitVec n) {j : Nat} (hj : j < n) :
    frameBit x (j + 1) = x.getLsbD j := by
  simp [frameBit, Nat.succ_le_of_lt hj]

theorem frameBit_stop (x : BitVec n) {slot : Nat} (h : n < slot) : frameBit x slot = true := by
  have h0 : slot ≠ 0 := by omega
  simp [frameBit, h0, Nat.not_le_of_lt h]

/-- The level of the line when the frame of `x` is `age` cycles old. -/
def lineAt (B : Nat) (x : BitVec n) (age : Nat) : Bool := frameBit x (age / B)

theorem lineAt_slot {B : Nat} (x : BitVec n) (q : Nat) {c : Nat} (hc : c < B) :
    lineAt B x (q * B + c) = frameBit x q := by
  have hpos : 0 < B := by omega
  rw [lineAt, Nat.mul_comm, Nat.mul_add_div hpos, Nat.div_eq_of_lt hc, Nat.add_zero]

/-- The level `k` cycles earlier. -/
def lineBefore (B : Nat) (x : BitVec n) (age k : Nat) : Bool :=
  if age < k then true else lineAt B x (age - k)

theorem lineBefore_of_lt {B : Nat} {x : BitVec n} {age k : Nat} (h : age < k) :
    lineBefore B x age k = true := if_pos h

@[simp] theorem lineBefore_zero (B : Nat) (x : BitVec n) (age : Nat) :
    lineBefore B x age 0 = lineAt B x age := rfl

/-- A register that samples the line lags it by one cycle more. -/
theorem lineBefore_succ (B : Nat) (x : BitVec n) (age k : Nat) :
    lineBefore B x (age + 1) (k + 1) = lineBefore B x age k := by
  simp only [lineBefore, Nat.add_lt_add_iff_right, Nat.add_sub_add_right]

/-- The level in slot `q`, seen `k` cycles late. -/
theorem lineBefore_slot {B : Nat} (x : BitVec n) {age k q c : Nat} (hage : age = k + (q * B + c))
    (hc : c < B) : lineBefore B x age k = frameBit x q := by
  have hle : ¬ age < k := by omega
  have hsub : age - k = q * B + c := by omega
  rw [lineBefore, if_neg hle, hsub, lineAt_slot x q hc]

/-- From the stop bit on the line is high. -/
theorem lineBefore_stop {B : Nat} (x : BitVec n) {age k : Nat} (hB : 0 < B)
    (h : k + (n + 1) * B ≤ age) : lineBefore B x age k = true := by
  have hle : ¬ age < k := by omega
  have hslot : n + 1 ≤ (age - k) / B := (Nat.le_div_iff_mul_le hB).mpr (by omega)
  rw [lineBefore, if_neg hle, lineAt, frameBit_stop x hslot]

/-! ## A bit on its way into a word -/

/-- A bit shifted to place `j`. -/
theorem bitAt_getLsbD (v : Bool) {i j : Nat} (hi : i < n) :
    ((BitVec.ofBool v).setWidth n <<< j).getLsbD i = (decide (i = j) && v) := by
  simp only [BitVec.getLsbD_shiftLeft, BitVec.getLsbD_setWidth, BitVec.getLsbD_ofBool, hi,
    decide_true, Bool.true_and]
  rcases Nat.lt_trichotomy i j with hlt | heq | hgt
  · have hne : i ≠ j := by omega
    simp [hlt, hne]
  · subst heq
    have hpos : 0 < n := by omega
    simp [hpos]
  · have hne : i ≠ j := by omega
    have hle : ¬ i < j := by omega
    have hsub : i - j ≠ 0 := by omega
    simp [hne, hle, hsub]

end Serial
end RiscvCpu
