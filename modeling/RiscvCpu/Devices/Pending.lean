import RiscvCpu.Devices.Claim

/-!
# Pending — what the interrupt controller remembers

A high input is latched unless its source is in service, and a latched source stays latched until it
is claimed.  The four register files keep their shape on the way: bit 0 never moves, and no source is
both pending and in service.
-/

namespace RiscvCpu
namespace Plic

/-! ## The shape of the registers -/

/-- What holds of the registers in every cycle. -/
structure Shape (r : Regs) : Prop where
  disjoint : ∀ i : BitVec 5, r.pendingRegs.getLsbD i.toNat = true →
    r.inServiceRegs.getLsbD i.toNat = false
  pending0 : r.pendingRegs.getLsbD 0 = false
  enable0 : r.enableRegs.getLsbD 0 = false
  inService0 : r.inServiceRegs.getLsbD 0 = false
  priority0 : r.priorityRegs 0#5 = 0#3

theorem shape_reset : Shape reset := by
  refine ⟨?_, rfl, rfl, rfl, rfl⟩
  intro i h
  simp [reset] at h

/-- A register write leaves bit 0 of the enables and the priority of source 0 alone. -/
theorem shape_writeReg {r : Regs} (h : Shape r) (addr data : Word) :
    (writeReg r addr data).enableRegs.getLsbD 0 = false ∧
      (writeReg r addr data).priorityRegs 0#5 = 0#3 := by
  have henable := h.enable0
  have hpriority := h.priority0
  unfold writeReg
  split
  next =>
    -- a priority register, but never that of source 0
    split
    next hidx =>
      have hne : (0#5 : BitVec 5) ≠ priorityIdx addr := by
        intro he
        simp [← he] at hidx
      exact ⟨henable, (Function.update_of_ne hne _ _).trans hpriority⟩
    next => exact ⟨henable, hpriority⟩
  next =>
    split
    next =>
      -- the enable register drops bit 0
      refine ⟨?_, hpriority⟩
      show ((data.extractLsb' 1 31) ++ 0#1).getLsbD 0 = false
      rw [BitVec.getLsbD_append]
      rfl
    next => split <;> exact ⟨henable, hpriority⟩

theorem shape_next {r : Regs} (h : Shape r) (p : In) : Shape (next r p) := by
  have hpend := @next_pending r p 0#5
  have hserv := @next_inService r p 0#5
  have hwrite := shape_writeReg h p.plicAddr p.plicWdata
  refine
    { disjoint := ?_
      pending0 := by simpa using hpend
      enable0 := ?_
      inService0 := by simpa using hserv
      priority0 := ?_ }
  · intro i hp
    rw [next_pending] at hp
    rw [next_inService]
    -- a pending source was not claimed, and was out of service if it was pending already
    cases hs : r.inServiceRegs.getLsbD i.toNat with
    | false => simp_all
    | true =>
        have hq : r.pendingRegs.getLsbD i.toNat = false := by
          by_contra hne
          have := h.disjoint i (by simpa using hne)
          rw [hs] at this
          cases this
        rw [hq, hs] at hp
        simp at hp
  · simp only [next]
    split
    next => exact hwrite.1
    next => exact h.enable0
  · simp only [next]
    split
    next => exact hwrite.2
    next => exact h.priority0

theorem shape_run (inp : Nat → In) (t : Nat) : Shape (run inp t) :=
  @Clocked.run_invariant _ _ next reset inp Shape (fun _ => True) shape_reset (fun _ => trivial)
    (fun _ p _ h => shape_next h p) t

/-! ## Latching -/

/-- A pending source stays pending until it is claimed. -/
theorem pending_kept {inp : Nat → In} {i : BitVec 5} {t u : Nat} (htu : t ≤ u)
    (hp : (run inp t).pendingRegs.getLsbD i.toNat = true)
    (hno : ∀ v, t ≤ v → v < u → claimed (run inp v) (inp v) ≠ some i) :
    (run inp u).pendingRegs.getLsbD i.toNat = true := by
  have hi : i ≠ 0#5 := by
    intro h0
    have h := (shape_run inp t).pending0
    subst h0
    exact absurd (hp.symm.trans h) (by decide)
  induction htu with
  | refl => exact hp
  | step hle ih =>
      have hkept := ih (fun v htv hvu => hno v htv (Nat.lt_succ_of_lt hvu))
      have hnot := hno _ hle (Nat.lt_succ_self _)
      rw [run_succ_eq, next_pending, hkept]
      simp [hnot, hi]

/-- A high input outside service is pending in the next cycle unless it is claimed right now. -/
theorem pending_of_line {inp : Nat → In} {i : BitVec 5} {t : Nat} (hi : i ≠ 0#5)
    (hline : (inp t).peripheralInterrupts.getLsbD i.toNat = true)
    (hfree : (run inp t).inServiceRegs.getLsbD i.toNat = false)
    (hno : claimed (run inp t) (inp t) ≠ some i) :
    (run inp (t + 1)).pendingRegs.getLsbD i.toNat = true := by
  rw [run_succ_eq, next_pending, hline, hfree]
  simp [hno, hi]

/-- No claim read right after a complete hands out the completed id. -/
theorem not_claimed_of_completed {inp : Nat → In} {i : BitVec 5} {t : Nat}
    (h : completed (run inp t) (inp t) = some i) :
    claimed (run inp (t + 1)) (inp (t + 1)) ≠ some i := by
  intro hcl
  have hin := (inService_of_completed h).1
  rcases claimed_stale hcl with ⟨u, hu, -, -, hfree⟩
  cases hu
  rw [hin] at hfree
  cases hfree

/-- A source in service is not pending. -/
theorem pending_of_inService {inp : Nat → In} {i : BitVec 5} {t : Nat}
    (h : (run inp t).inServiceRegs.getLsbD i.toNat = true) :
    (run inp t).pendingRegs.getLsbD i.toNat = false := by
  cases hp : (run inp t).pendingRegs.getLsbD i.toNat with
  | false => rfl
  | true =>
      have hs := (shape_run inp t).disjoint i hp
      rw [h] at hs
      cases hs

/-- A completed source is not pending in the next cycle, whatever its input was. -/
theorem pending_after_complete {inp : Nat → In} {i : BitVec 5} {t : Nat}
    (h : completed (run inp t) (inp t) = some i) :
    (run inp (t + 1)).pendingRegs.getLsbD i.toNat = false := by
  have hserv := (inService_of_completed h).1
  rw [run_succ_eq, next_pending, hserv, pending_of_inService hserv]
  simp

/-- A source becomes pending only through its input. -/
theorem line_of_pending {inp : Nat → In} {i : BitVec 5} {a b : Nat} (hab : a ≤ b)
    (ha : (run inp a).pendingRegs.getLsbD i.toNat = false)
    (hb : (run inp b).pendingRegs.getLsbD i.toNat = true) :
    ∃ k, a ≤ k ∧ k < b ∧ (inp k).peripheralInterrupts.getLsbD i.toNat = true := by
  rcases Clocked.exists_rise (fun n => (run inp n).pendingRegs.getLsbD i.toNat) hab ha hb with
    ⟨k, hak, hkb, hlow, hhigh⟩
  refine ⟨k, hak, hkb, ?_⟩
  simp only [run_succ_eq, next_pending, hlow, Bool.false_or, Bool.and_eq_true] at hhigh
  exact hhigh.1.1.1

/-- A completed source is out of service in the next cycle. -/
theorem free_of_completed {inp : Nat → In} {i : BitVec 5} {t : Nat}
    (h : completed (run inp t) (inp t) = some i) :
    (run inp (t + 1)).inServiceRegs.getLsbD i.toNat = false := by
  rw [run_succ_eq, next_inService, h]
  simp

theorem no_interrupt_lost (inp : Nat → In) :
    (∀ t, Shape (run inp t)) ∧
    (∀ t i, i ≠ 0#5 → (inp t).peripheralInterrupts.getLsbD i.toNat = true →
      (run inp t).inServiceRegs.getLsbD i.toNat = false →
      claimed (run inp t) (inp t) = some i ∨
        (run inp (t + 1)).pendingRegs.getLsbD i.toNat = true) ∧
    (∀ t u i, t ≤ u → (run inp t).pendingRegs.getLsbD i.toNat = true →
      (∀ v, t ≤ v → v < u → claimed (run inp v) (inp v) ≠ some i) →
      (run inp u).pendingRegs.getLsbD i.toNat = true) ∧
    (∀ t i, completed (run inp t) (inp t) = some i →
      (inp (t + 1)).peripheralInterrupts.getLsbD i.toNat = true →
      (run inp (t + 2)).pendingRegs.getLsbD i.toNat = true) := by
  refine ⟨shape_run inp, ?latched, ?kept, ?relatched⟩
  case latched =>
    intro t i hi hline hfree
    by_cases hcl : claimed (run inp t) (inp t) = some i
    · exact Or.inl hcl
    · exact Or.inr (pending_of_line hi hline hfree hcl)
  case kept =>
    intro t u i htu hp hno
    exact pending_kept htu hp hno
  case relatched =>
    intro t i hdone hline
    exact pending_of_line (inService_of_completed hdone).2 hline (free_of_completed hdone)
      (not_claimed_of_completed hdone)

end Plic
end RiscvCpu
