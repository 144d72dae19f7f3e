import Mathlib.Logic.Function.Basic

/-!
# RegisterFile — registers accessed by read-modify-write, one access at a time

A register file has registers behind some of its addresses.  An access reads the old value of its
address and may write a new one computed from it.  An address without a register reads as a fixed
value, and a write to it is lost.

Nothing here depends on what the addresses and the values are.
-/

namespace RiscvCpu
namespace RegisterFile

universe u v

/-- Which addresses have a register, and what the others read as. -/
structure Layout (A : Type u) (V : Type v) where
  implemented : A → Bool
  absent : V

/-- One access: the new value is `modify` of the old one, and it is kept if `write` is set. -/
structure Access (A : Type u) (V : Type v) where
  addr : A
  write : Bool
  modify : V → V

variable {A : Type u} {V : Type v} (L : Layout A V)

/-- The value that an access to `a` reads. -/
def read (m : A → V) (a : A) : V := if L.implemented a then m a else L.absent

variable [DecidableEq A]

/-- The contents after one access. -/
def step (m : A → V) (x : Access A V) : A → V :=
  if x.write then Function.update m x.addr (x.modify (read L m x.addr)) else m

/-- The contents after a list of accesses, the oldest first. -/
def run (m : A → V) (xs : List (Access A V)) : A → V := xs.foldl (step L) m

variable {L} {m : A → V} {x : Access A V}

theorem run_concat (xs : List (Access A V)) : run L m (xs ++ [x]) = step L (run L m xs) x := by
  simp [run]

/-- A written register reads as the new value, and an absent one as before. -/
theorem read_step_self (hw : x.write = true) :
    read L (step L m x) x.addr =
      if L.implemented x.addr then x.modify (read L m x.addr) else L.absent := by
  simp [read, step, hw]

/-- An access leaves the other addresses alone, and its own if it does not write. -/
theorem step_other {a : A} (h : x.write = true → a ≠ x.addr) : step L m x a = m a := by
  cases hw : x.write with
  | false => simp [step, hw]
  | true => simp [step, hw, Function.update_of_ne (h hw)]

theorem read_step_other {a : A} (h : x.write = true → a ≠ x.addr) :
    read L (step L m x) a = read L m a := by
  rw [read, read, step_other h]

end RegisterFile
end RiscvCpu
