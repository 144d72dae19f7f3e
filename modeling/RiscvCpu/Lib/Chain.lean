import Mathlib.Data.List.Basic

/-!
# Chain — a queue of hops, each leading to the next

A hop has a place and the place it leads to.  A queue of hops in front of an end point is linked when
every hop leads to the next one and the last to the end point.  Hops leave the queue at its front and
join it at its back.
-/

namespace RiscvCpu
namespace Chain

universe u

structure Hop (α : Type u) where
  source : α
  target : α

variable {α : Type u}

/-- Where a queue in front of `e` begins. -/
def entry : List (Hop α) → α → α
  | [], e => e
  | h :: _, _ => h.source

/-- Every hop leads to the next, the last to `e`. -/
def Linked : List (Hop α) → α → Prop
  | [], _ => True
  | h :: t, e => h.target = entry t e ∧ Linked t e

theorem entry_concat (l : List (Hop α)) (h : Hop α) (e : α) :
    entry (l ++ [h]) e = entry l h.source := by
  cases l <;> rfl

/-- A hop that starts at the end point joins the queue. -/
theorem linked_concat {l : List (Hop α)} {h : Hop α} (hl : Linked l h.source) :
    Linked (l ++ [h]) h.target := by
  induction l with
  | nil => exact ⟨rfl, trivial⟩
  | cons g t ih =>
      exact ⟨hl.1.trans (entry_concat t h h.target).symm, ih hl.2⟩

/-- What is left when some hops have gone is linked, and begins where the last of them led. -/
theorem linked_of_append {l t : List (Hop α)} {e : α} (h : Linked (l ++ t) e) : Linked t e := by
  induction l with
  | nil => exact h
  | cons g l ih => exact ih h.2

end Chain
end RiscvCpu
