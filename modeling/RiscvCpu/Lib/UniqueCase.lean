import Mathlib.Data.List.Count

/-!
# UniqueCase — the two readings of `unique case (1'b1)`

A simulator takes the first arm whose selector is high.  A synthesis tool may trust `unique` and let
every selected arm drive the result, so that the values of the selected arms are ORed.  The readings
agree when no two selectors are high.
-/

namespace RiscvCpu
namespace UniqueCase

variable {w : Nat}

/-- An arm: its selector and its value. -/
abbrev Arm (w : Nat) : Type := Bool × BitVec w

/-- The value of the first selected arm. -/
def first : List (Arm w) → BitVec w → BitVec w
  | [], d => d
  | (s, v) :: rest, d => if s then v else first rest d

/-- The values of the selected arms, ORed. -/
def union : List (Arm w) → BitVec w
  | [] => 0#w
  | (s, v) :: rest => (if s then v else 0#w) ||| union rest

/-- All selected arms at once; the default if there is none. -/
def parallel (arms : List (Arm w)) (d : BitVec w) : BitVec w :=
  if (arms.map Prod.fst).any id then union arms else d

/-- No two selectors are high. -/
def AtMostOne (selectors : List Bool) : Prop := selectors.count true ≤ 1

instance (selectors : List Bool) : Decidable (AtMostOne selectors) :=
  inferInstanceAs (Decidable (selectors.count true ≤ 1))

theorem union_of_none (arms : List (Arm w)) (h : (arms.map Prod.fst).count true = 0) :
    union arms = 0#w := by
  induction arms with
  | nil => rfl
  | cons arm rest ih =>
      rcases arm with ⟨s, v⟩
      cases s with
      | true => simp at h
      | false =>
          have hrest : (rest.map Prod.fst).count true = 0 := by simpa using h
          simp [union, ih hrest]

theorem parallel_eq_first (arms : List (Arm w)) (d : BitVec w)
    (h : AtMostOne (arms.map Prod.fst)) : parallel arms d = first arms d := by
  induction arms with
  | nil => rfl
  | cons arm rest ih =>
      rcases arm with ⟨s, v⟩
      cases s with
      | true =>
          -- the rest selects nothing
          have hrest : (rest.map Prod.fst).count true = 0 := by
            simpa [AtMostOne] using h
          simp [parallel, first, union, union_of_none rest hrest]
      | false =>
          have hrest : AtMostOne (rest.map Prod.fst) := by simpa [AtMostOne] using h
          have hstep : parallel ((false, v) :: rest) d = parallel rest d := by
            simp [parallel, union]
          rw [hstep, ih hrest]
          rfl

end UniqueCase
end RiscvCpu
