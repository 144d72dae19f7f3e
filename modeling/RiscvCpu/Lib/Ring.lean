import Mathlib.Algebra.Group.Nat.Defs
import Mathlib.Logic.Function.Basic

/-!
# Ring — circular buffers

A circular buffer of `2 ^ w` cells, addressed by a head and a tail of `w` bits that wrap around.  Its
contents are the `n` cells from the head on.  One clock edge may push, pop, or do both: what is popped
followed by what is left is what was there followed by what is pushed.
-/

namespace RiscvCpu
namespace Ring

universe u

variable {α : Type u} {w : Nat}

/-- The `n` cells from `head` on, the oldest first. -/
def contents (cells : BitVec w → α) (head : BitVec w) (n : Nat) : List α :=
  (List.range n).map fun k => cells (head + BitVec.ofNat w k)

@[simp] theorem contents_zero (cells : BitVec w → α) (head : BitVec w) :
    contents cells head 0 = [] := rfl

/-- The cell behind an offset, counted from the cell behind the head. -/
theorem add_one_add_ofNat (a : BitVec w) (k : Nat) :
    a + 1#w + BitVec.ofNat w k = a + BitVec.ofNat w (k + 1) := by
  rw [BitVec.ofNat_add k 1, BitVec.add_assoc, BitVec.add_comm 1#w]

theorem add_ofNat_add_one (a : BitVec w) (k : Nat) :
    a + BitVec.ofNat w k + 1#w = a + BitVec.ofNat w (k + 1) := by
  rw [BitVec.ofNat_add k 1, BitVec.add_assoc]

/-- The oldest element is at the head. -/
theorem contents_cons (cells : BitVec w → α) (head : BitVec w) (n : Nat) :
    contents cells head (n + 1) = cells head :: contents cells (head + 1#w) n := by
  simp only [contents, List.range_succ_eq_map, List.map_cons, List.map_map, Function.comp_def,
    add_one_add_ofNat, BitVec.add_zero]

/-- An element is written behind the youngest as long as there is room. -/
theorem contents_concat (cells : BitVec w → α) (head : BitVec w) {n : Nat} (hn : n < 2 ^ w) (x : α) :
    contents (Function.update cells (head + BitVec.ofNat w n) x) head (n + 1) =
      contents cells head n ++ [x] := by
  have hold : ∀ k ∈ List.range n,
      Function.update cells (head + BitVec.ofNat w n) x (head + BitVec.ofNat w k) =
        cells (head + BitVec.ofNat w k) := by
    intro k hk
    have hkn : k < n := List.mem_range.mp hk
    refine Function.update_of_ne ?_ _ _
    -- two offsets below the size of the buffer name different cells
    intro h
    have hoff := congrArg BitVec.toNat (BitVec.add_right_inj head |>.mp h)
    rw [BitVec.toNat_ofNat, BitVec.toNat_ofNat, Nat.mod_eq_of_lt (Nat.lt_trans hkn hn),
      Nat.mod_eq_of_lt hn] at hoff
    omega
  rw [contents, List.range_succ, List.map_append, List.map_congr_left hold]
  simp [contents]

/-- The tail of a buffer with `n` elements is `n` cells behind its head. -/
def Placed (head tail : BitVec w) (n : Nat) : Prop :=
  n ≤ 2 ^ w ∧ tail = head + BitVec.ofNat w n

/-- The number of elements after an edge. -/
def nextLength (n : Nat) (push pop : Bool) : Nat := n + push.toNat - pop.toNat

section
variable {head tail : BitVec w} {n : Nat} {push pop : Bool}

theorem placed_next (h : Placed head tail n) (hpush : push = true → n < 2 ^ w)
    (hpop : pop = true → 0 < n) :
    Placed (if pop then head + 1#w else head) (if push then tail + 1#w else tail)
      (nextLength n push pop) := by
  rcases h with ⟨hle, htail⟩
  cases hpo : pop with
  | false =>
      cases hpu : push with
      | false => exact ⟨hle, htail⟩
      | true =>
          refine ⟨hpush hpu, ?_⟩
          show tail + 1#w = head + BitVec.ofNat w (n + 1)
          rw [htail, add_ofNat_add_one]
  | true =>
      have hpos := hpop hpo
      -- the head moves to the second oldest element
      cases hpu : push with
      | false =>
          refine ⟨by simp [nextLength]; omega, ?_⟩
          show tail = head + 1#w + BitVec.ofNat w (n - 1)
          rw [add_one_add_ofNat, Nat.sub_add_cancel hpos, htail]
      | true =>
          refine ⟨by simpa [nextLength] using hle, ?_⟩
          show tail + 1#w = head + 1#w + BitVec.ofNat w n
          rw [add_one_add_ofNat, htail, add_ofNat_add_one]

/-- What is popped followed by what is left is what was there followed by what is pushed. -/
theorem contents_next (cells : BitVec w → α) (h : Placed head tail n)
    (hpush : push = true → n < 2 ^ w) (hpop : pop = true → 0 < n) (x : α) :
    (if pop then [cells head] else []) ++
        contents (if push then Function.update cells tail x else cells)
          (if pop then head + 1#w else head) (nextLength n push pop) =
      contents cells head n ++ if push then [x] else [] := by
  -- the contents after the push alone
  have hpushed : contents (if push then Function.update cells tail x else cells) head
        (n + push.toNat) = contents cells head n ++ if push then [x] else [] := by
    cases hpu : push with
    | false => simp
    | true =>
        simp only [if_true, Bool.toNat_true, h.2]
        exact contents_concat cells head (hpush hpu) x
  cases hpo : pop with
  | false => simpa [nextLength] using hpushed
  | true =>
      rcases Nat.exists_eq_add_of_lt (hpop hpo) with ⟨m, hm⟩
      have hlen : n + push.toNat = nextLength n push true + 1 := by
        simp [nextLength]
        omega
      -- the oldest element is not the one written in this edge
      have hfirst : (if push then Function.update cells tail x else cells) head = cells head := by
        cases hpu : push with
        | false => rfl
        | true =>
            refine Function.update_of_ne ?_ _ _
            intro he
            have hzero : BitVec.ofNat w n = 0#w := by
              have := he.symm.trans (BitVec.add_zero head).symm
              rw [h.2] at this
              exact (BitVec.add_right_inj head).mp this
            have := congrArg BitVec.toNat hzero
            rw [BitVec.toNat_ofNat, Nat.mod_eq_of_lt (hpush hpu)] at this
            simp at this
            omega
      rw [hlen, contents_cons, hfirst] at hpushed
      simpa using hpushed

end

end Ring
end RiscvCpu
