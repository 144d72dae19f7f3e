import Mathlib.Logic.Function.Basic

/-!
# Clocked — runs of synchronous machines

A synchronous machine is a next-state function applied once per rising clock edge, under one input
valuation per cycle.  This module fixes the run of such a machine and the two induction rules used
everywhere else: an invariant kept by one edge holds in every cycle of every run, and it may lean on
an assumption on the inputs that holds in every cycle.
-/

namespace RiscvCpu
namespace Clocked

universe u v

variable {S : Type u} {I : Type v}

/-- The state in cycle `n` of the run that starts in `s` and reads `inp k` in cycle `k`. -/
def run (next : S → I → S) (s : S) (inp : Nat → I) : Nat → S
  | 0 => s
  | n + 1 => next (run next s inp n) (inp n)

variable {next : S → I → S} {s : S} {inp : Nat → I}

@[simp] theorem run_zero : run next s inp 0 = s := rfl

theorem run_succ (n : Nat) : run next s inp (n + 1) = next (run next s inp n) (inp n) := rfl

/-- A property kept by every edge whose input satisfies `Ok` holds in every cycle. -/
theorem run_invariant {Inv : S → Prop} {Ok : I → Prop}
    (hinit : Inv s) (hok : ∀ n, Ok (inp n))
    (hstep : ∀ s i, Ok i → Inv s → Inv (next s i)) :
    ∀ n, Inv (run next s inp n) := by
  intro n
  induction n with
  | zero => exact hinit
  | succ n ih => exact hstep _ _ (hok n) ih

/-- A cycle-indexed property that each edge of this run carries to the next cycle, once it holds in
cycle `k`, holds in every later cycle. -/
theorem run_invariant_from {Inv : Nat → S → Prop} {k : Nat}
    (hinit : Inv k (run next s inp k))
    (hstep : ∀ n, k ≤ n → Inv n (run next s inp n) → Inv (n + 1) (run next s inp (n + 1))) :
    ∀ n, k ≤ n → Inv n (run next s inp n) := by
  intro n hkn
  induction hkn with
  | refl => exact hinit
  | step hn ih => exact hstep _ hn ih

/-- A signal that is low in one cycle and high in a later one rises in between. -/
theorem exists_rise (f : Nat → Bool) {a b : Nat} (hab : a ≤ b) (ha : f a = false)
    (hb : f b = true) : ∃ m, a ≤ m ∧ m < b ∧ f m = false ∧ f (m + 1) = true := by
  induction hab with
  | refl =>
      rw [ha] at hb
      cases hb
  | @step n hn ih =>
      cases hf : f n with
      | false => exact ⟨n, hn, Nat.lt_succ_self n, hf, hb⟩
      | true =>
          rcases ih hf with ⟨m, ham, hmn, hm⟩
          exact ⟨m, ham, Nat.lt_succ_of_lt hmn, hm⟩

/-- A rank that, once it is given in cycle `k`, goes down on every later edge before the goal: the goal
is reached. -/
theorem eventually_of_rank {Goal : Nat → Prop} {Rank : Nat → Nat → Prop} {k n : Nat}
    (hinit : Rank k n)
    (hstep : ∀ t n, k ≤ t → Rank t n → Goal t ∨ ∃ n', n' < n ∧ Rank (t + 1) n') : ∃ t, Goal t := by
  have hlater : ∀ n t, k ≤ t → Rank t n → ∃ t, Goal t := by
    intro n
    induction n using Nat.strongRecOn with
    | ind n ih =>
        intro t hkt hrank
        rcases hstep t n hkt hrank with hgoal | ⟨n', hlt, hnext⟩
        · exact ⟨t, hgoal⟩
        · exact ih n' hlt (t + 1) (Nat.le_succ_of_le hkt) hnext
  exact hlater n k (Nat.le_refl k) hinit

/-- What happens after cycle `k` happens a first time. -/
theorem exists_first {Goal : Nat → Prop} {k u : Nat} (hku : k < u) (hgoal : Goal u) :
    ∃ v, k < v ∧ v ≤ u ∧ Goal v ∧ ∀ w, k < w → w < v → ¬ Goal w := by
  induction u using Nat.strongRecOn with
  | ind u ih =>
      by_cases hearlier : ∃ w, k < w ∧ w < u ∧ Goal w
      · rcases hearlier with ⟨w, hkw, hwu, hw⟩
        rcases ih w hwu hkw hw with ⟨v, hkv, hvw, hrest⟩
        exact ⟨v, hkv, by omega, hrest⟩
      · exact ⟨u, hku, Nat.le_refl u, hgoal, fun w hkw hwu hw => hearlier ⟨w, hkw, hwu, hw⟩⟩

/-- A rank that goes down on every edge after cycle `k` that does not reach the goal bounds the time to
the goal. -/
theorem within_of_rank {Goal : Nat → Prop} {rank : Nat → Nat} {k : Nat}
    (hstep : ∀ t, k ≤ t → (∀ u, k < u → u ≤ t → ¬ Goal u) →
      Goal (t + 1) ∨ rank (t + 1) < rank t) :
    ∃ u, k < u ∧ u ≤ k + rank k + 1 ∧ Goal u ∧ ∀ v, k < v → v < u → ¬ Goal v := by
  suffices h : ∃ u, k < u ∧ u ≤ k + rank k + 1 ∧ Goal u by
    rcases h with ⟨u, hku, hu, hgoal⟩
    rcases exists_first hku hgoal with ⟨v, hkv, hvu, hv, hfirst⟩
    exact ⟨v, hkv, by omega, hv, hfirst⟩
  by_contra hnone
  have hmiss : ∀ u, k < u → u ≤ k + rank k + 1 → ¬ Goal u := fun u hku hu hgoal =>
    hnone ⟨u, hku, hu, hgoal⟩
  -- without the goal the rank has lost one for each edge
  have hfall : ∀ n, n ≤ rank k + 1 → rank (k + n) + n ≤ rank k := by
    intro n
    induction n with
    | zero => intro _; exact Nat.le_refl _
    | succ n ih =>
        intro hn
        have hprev := ih (Nat.le_of_succ_le hn)
        rcases hstep (k + n) (Nat.le_add_right k n) fun u hku hu =>
          hmiss u hku (by omega) with hgoal | hlt
        · exact absurd hgoal (hmiss (k + n + 1) (by omega) (by omega))
        · have hlt' : rank (k + (n + 1)) < rank (k + n) := hlt
          omega
  have hlast := hfall (rank k + 1) (Nat.le_refl _)
  omega

/-- A counter that starts at zero and goes up by at most one passes every value on its way. -/
theorem exists_count {f : Nat → Nat} (hzero : f 0 = 0) (hstep : ∀ t, f (t + 1) ≤ f t + 1) {k t : Nat}
    (hk : k < f t) : ∃ m, m < t ∧ f m = k ∧ f (m + 1) = k + 1 := by
  induction t with
  | zero => omega
  | succ t ih =>
      rcases Nat.lt_or_ge k (f t) with hlt | hge
      · rcases ih hlt with ⟨m, hmt, hm⟩
        exact ⟨m, Nat.lt_succ_of_lt hmt, hm⟩
      · have hle := hstep t
        exact ⟨t, Nat.lt_succ_self t, by omega, by omega⟩

/-- A counter that goes up in every window of `p` cycles goes up `n` times in `n` windows. -/
theorem count_of_windows {f : Nat → Nat} {p : Nat} (hwindow : ∀ t, f t + 1 ≤ f (t + p)) (t n : Nat) :
    f t + n ≤ f (t + p * n) := by
  induction n with
  | zero => exact Nat.le_of_eq rfl
  | succ n ih =>
      calc
        f t + (n + 1) = f t + n + 1 := rfl
        _ ≤ f (t + p * n) + 1 := Nat.succ_le_succ ih
        _ ≤ f (t + p * n + p) := hwindow (t + p * n)
        _ = f (t + p * (n + 1)) := by rw [Nat.mul_succ, Nat.add_assoc t]

/-- A fact that each edge keeps exactly when `Keep` holds is left exactly when `Keep` has held on every
edge. -/
theorem iff_forall_between {P Keep : Nat → Prop} {a b : Nat} (hab : a ≤ b)
    (hstep : ∀ k, a ≤ k → k < b → (P (k + 1) ↔ P k ∧ Keep k)) :
    P b ↔ P a ∧ ∀ k, a ≤ k → k < b → Keep k := by
  induction hab with
  | refl => exact ⟨fun h => ⟨h, fun k hak hka => by omega⟩, fun h => h.1⟩
  | @step n hn ih =>
      rw [Nat.succ_eq_add_one, hstep n hn (Nat.lt_succ_self n),
        ih fun k hak hkn => hstep k hak (Nat.lt_succ_of_lt hkn)]
      constructor
      · rintro ⟨⟨ha, hall⟩, hlast⟩
        refine ⟨ha, fun k hak hkn => ?_⟩
        rcases Nat.lt_succ_iff_lt_or_eq.mp hkn with hlt | rfl
        · exact hall k hak hlt
        · exact hlast
      · rintro ⟨ha, hall⟩
        exact ⟨⟨ha, fun k hak hkn => hall k hak (Nat.lt_succ_of_lt hkn)⟩,
          hall n hn (Nat.lt_succ_self n)⟩

end Clocked
end RiscvCpu
