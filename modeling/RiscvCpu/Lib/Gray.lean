import Mathlib.Logic.Basic
import Mathlib.Tactic.ByContra

/-!
# Gray — the reflected Gray code

Consecutive numbers have codes that differ in one bit.  So a word of which each bit has been read
either before or after one increment is one of the two codes, and its value is never anything else than
the old or the new number.  The width is any number of bits.
-/

namespace RiscvCpu
namespace Gray

variable {w : Nat}

/-- The code of `x`. -/
def encode (x : BitVec w) : BitVec w := x ^^^ (x >>> 1)

/-- One turn of the decoding loop: bit `i` from the bit above it and bit `i` of the code. -/
def turn (g x : BitVec w) (i : Nat) : BitVec w :=
  x ||| (BitVec.ofBool (x.getLsbD (i + 1) ^^ g.getLsbD i)).setWidth w <<< i

/-- The loop after `k` turns, from the top bit downwards. -/
def decodeFrom (g : BitVec w) : Nat → BitVec w
  | 0 => (BitVec.ofBool (g.getLsbD (w - 1))).setWidth w <<< (w - 1)
  | k + 1 => turn g (decodeFrom g k) (w - 2 - k)

/-- The number with the code `g`. -/
def decode (g : BitVec w) : BitVec w := decodeFrom g (w - 1)

theorem encode_getLsbD (x : BitVec w) (i : Nat) :
    (encode x).getLsbD i = (x.getLsbD i ^^ x.getLsbD (i + 1)) := by
  rw [encode, BitVec.getLsbD_xor, BitVec.getLsbD_ushiftRight, Nat.add_comm 1 i]

/-! ## Decoding -/

theorem ofBool_shifted (b : Bool) {i j : Nat} (hj : j < w) :
    ((BitVec.ofBool b).setWidth w <<< i).getLsbD j = (decide (j = i) && b) := by
  rw [BitVec.getLsbD_shiftLeft, BitVec.getLsbD_setWidth, BitVec.getLsbD_ofBool]
  by_cases hji : j = i
  · have hpos : 0 < w := by omega
    simp [hji, show i < w by omega, hpos]
  · rcases Nat.lt_or_ge j i with hlt | hge
    · simp [hji, hlt]
    · have hpos : ¬ j - i = 0 := by omega
      simp [hji, hpos]

theorem turn_getLsbD (g x : BitVec w) {i j : Nat} (hj : j < w) :
    (turn g x i).getLsbD j =
      (x.getLsbD j || (decide (j = i) && (x.getLsbD (i + 1) ^^ g.getLsbD i))) := by
  rw [turn, BitVec.getLsbD_or, ofBool_shifted _ hj]

/-- After `k` turns the top `k + 1` bits are there, and no other. -/
theorem decodeFrom_encode (x : BitVec w) {k : Nat} (hk : k < w) {j : Nat} (hj : j < w) :
    (decodeFrom (encode x) k).getLsbD j = (x.getLsbD j && decide (w - 1 - k ≤ j)) := by
  induction k generalizing j with
  | zero =>
      have htop : x.getLsbD (w - 1 + 1) = false := BitVec.getLsbD_of_ge x _ (by omega)
      rw [decodeFrom, ofBool_shifted _ hj, encode_getLsbD, htop, Bool.xor_false]
      by_cases hji : j = w - 1
      · simp [hji]
      · have hnot : ¬ w - 1 ≤ j := by omega
        simp [hji, hnot]
  | succ k ih =>
      have hlt : w - 2 - k + 1 < w := by omega
      rw [decodeFrom, turn_getLsbD _ _ hj, ih (by omega) hj, ih (by omega) hlt, encode_getLsbD]
      by_cases hji : j = w - 2 - k
      · -- the new bit is that of `x`
        have hnot : ¬ w - 1 - k ≤ j := by omega
        have habove : w - 1 - k ≤ w - 2 - k + 1 := by omega
        have hnow : w - 1 - (k + 1) ≤ j := by omega
        subst hji
        simp only [hnot, habove, hnow, decide_false, decide_true, Bool.and_false, Bool.false_or,
          Bool.and_true, Bool.true_and]
        cases x.getLsbD (w - 2 - k) <;> cases x.getLsbD (w - 2 - k + 1) <;> rfl
      · have hsame : (w - 1 - k ≤ j) ↔ (w - 1 - (k + 1) ≤ j) := by omega
        simp [hji, hsame]

theorem decode_encode (x : BitVec w) : decode (encode x) = x := by
  apply BitVec.eq_of_getLsbD_eq
  intro j hj
  rw [decode, decodeFrom_encode x (by omega) hj]
  simp

/-! ## One increment -/

/-- An increment of `x` turns bit `i` over. -/
def Flips (x : BitVec w) (i : Nat) : Prop := ∀ j, j < i → x.getLsbD j = true

instance (x : BitVec w) (i : Nat) : Decidable (Flips x i) := by
  unfold Flips
  infer_instance

theorem flips_succ {x : BitVec w} {i : Nat} :
    Flips x (i + 1) ↔ Flips x i ∧ x.getLsbD i = true := by
  constructor
  · intro h
    exact ⟨fun j hj => h j (Nat.lt_succ_of_lt hj), h i (Nat.lt_succ_self i)⟩
  · rintro ⟨h, hi⟩ j hj
    rcases Nat.lt_succ_iff_lt_or_eq.mp hj with hlt | rfl
    · exact h j hlt
    · exact hi

theorem getLsbD_add_one (x : BitVec w) {i : Nat} (hi : i < w) :
    (x + 1#w).getLsbD i = (x.getLsbD i ^^ decide (Flips x i)) := by
  rw [BitVec.getLsbD_add hi, BitVec.getLsbD_one]
  cases i with
  | zero =>
      have hflips : Flips x 0 := fun j hj => absurd hj (Nat.not_lt_zero j)
      simp [hflips, hi]
  | succ i =>
      rw [BitVec.carry_succ_one i x (by omega)]
      have hiff : (∀ j, j ≤ i → x.getLsbD j = true) ↔ Flips x (i + 1) :=
        ⟨fun h j hj => h j (Nat.le_of_lt_succ hj), fun h j hj => h j (Nat.lt_succ_of_le hj)⟩
      simp [hiff]

/-- The codes of `x` and of its successor differ in bit `i` exactly if that is the lowest clear bit of
`x`, or the top bit if none below it is clear. -/
theorem encode_add_one_ne_iff (x : BitVec w) {i : Nat} (hi : i < w) :
    (encode (x + 1#w)).getLsbD i ≠ (encode x).getLsbD i ↔
      Flips x i ∧ (x.getLsbD i = false ∨ i + 1 = w) := by
  rw [encode_getLsbD, encode_getLsbD, getLsbD_add_one x hi]
  rcases Nat.lt_or_ge (i + 1) w with hlt | hge
  · have hne : i + 1 ≠ w := Nat.ne_of_lt hlt
    rw [getLsbD_add_one x hlt]
    simp only [flips_succ, hne, or_false]
    by_cases hf : Flips x i <;> cases x.getLsbD i <;> cases x.getLsbD (i + 1) <;> simp [hf]
  · have hw : i + 1 = w := by omega
    rw [BitVec.getLsbD_of_ge x (i + 1) hge, BitVec.getLsbD_of_ge (x + 1#w) (i + 1) hge]
    by_cases hf : Flips x i <;> cases x.getLsbD i <;> simp [hf, hw]

/-- Two codes differ in one bit only. -/
theorem differ_unique {x : BitVec w} {i j : Nat} (hi : i < w) (hj : j < w)
    (hdi : (encode (x + 1#w)).getLsbD i ≠ (encode x).getLsbD i)
    (hdj : (encode (x + 1#w)).getLsbD j ≠ (encode x).getLsbD j) : i = j := by
  rw [encode_add_one_ne_iff x hi] at hdi
  rw [encode_add_one_ne_iff x hj] at hdj
  have hnot : ∀ {a b : Nat}, a < b → b < w → Flips x b →
      ¬ (x.getLsbD a = false ∨ a + 1 = w) := by
    rintro a b hab hb hflips (hclear | htop)
    · rw [hflips a hab] at hclear
      cases hclear
    · omega
  rcases Nat.lt_trichotomy i j with hlt | heq | hgt
  · exact absurd hdi.2 (hnot hlt hj hdj.1)
  · exact heq
  · exact absurd hdj.2 (hnot hgt hi hdi.1)

/-! ## Reading during an increment -/

/-- The bits of `b` where `m` is set, and those of `a` elsewhere. -/
def mix (m a b : BitVec w) : BitVec w := (a &&& ~~~m) ||| (b &&& m)

theorem mix_getLsbD (m a b : BitVec w) {i : Nat} (hi : i < w) :
    (mix m a b).getLsbD i = if m.getLsbD i then b.getLsbD i else a.getLsbD i := by
  simp only [mix, BitVec.getLsbD_or, BitVec.getLsbD_and, BitVec.getLsbD_not, hi, decide_true,
    Bool.true_and]
  cases m.getLsbD i <;> simp

theorem mix_self (m a : BitVec w) : mix m a a = a := by
  apply BitVec.eq_of_getLsbD_eq
  intro i hi
  rw [mix_getLsbD m a a hi, ite_self]

/-- Whichever bits of the code are read before the increment and whichever after, what has been read is
one of the two codes. -/
theorem mix_encode (m x : BitVec w) :
    mix m (encode x) (encode (x + 1#w)) = encode x ∨
      mix m (encode x) (encode (x + 1#w)) = encode (x + 1#w) := by
  by_cases hsame : ∀ i, i < w → m.getLsbD i = true →
      (encode (x + 1#w)).getLsbD i = (encode x).getLsbD i
  · left
    apply BitVec.eq_of_getLsbD_eq
    intro i hi
    rw [mix_getLsbD _ _ _ hi]
    split
    next hm => exact hsame i hi hm
    next => rfl
  · -- the bit that changes has been read late
    right
    simp only [not_forall] at hsame
    rcases hsame with ⟨k, hk, hm, hdk⟩
    apply BitVec.eq_of_getLsbD_eq
    intro i hi
    rw [mix_getLsbD _ _ _ hi]
    split
    next => rfl
    next hlow =>
      by_contra hdi
      have hik : i = k := differ_unique hi hk (fun h => hdi h.symm) hdk
      rw [hik, hm] at hlow
      exact hlow rfl

end Gray
end RiscvCpu
