import RiscvCpu.Lib.Clocked
import RiscvCpu.Soc.Plic

/-!
# Claim — claim and complete of the interrupt controller

A claim read hands out a registered copy of the arbiter's choice, so the choice is one cycle old.
Everything here follows from two facts: what one edge does to each bit of `pending` and `in_service`,
and that the copy names a source which was pending, enabled and not in service one cycle earlier.
-/

namespace RiscvCpu
namespace Plic

/-- The state in cycle `t` of the run from reset. -/
def run (inp : Nat → In) (t : Nat) : Regs := Clocked.run next reset inp t

theorem run_succ_eq (inp : Nat → In) (t : Nat) : run inp (t + 1) = next (run inp t) (inp t) := rfl

/-- The bus reads the claim register. -/
def claimRead (p : In) : Bool :=
  p.plicSel && p.plicRe && p.plicAddr == Map.PLIC_CLAIM_BASE_ADDR

variable (r : Regs) (p : In)

/-- The id a claim read of this cycle hands out. -/
def claimed : Option (BitVec 5) :=
  if claimRead p && r.claimValidR then some r.claimIdR else none

/-- The id a complete write of this cycle releases. -/
def completed : Option (BitVec 5) :=
  if p.plicSel && p.plicWe && p.plicAddr == Map.PLIC_CLAIM_BASE_ADDR &&
      (completeId p != 0#5 && decide ((completeId p).toNat < Map.PLIC_NUM_INTERRUPTS) &&
        r.inServiceRegs.getLsbD (completeId p).toNat) then
    some (completeId p)
  else none

variable {r p}

theorem claimed_eq_some {i : BitVec 5} :
    claimed r p = some i ↔ claimRead p = true ∧ r.claimValidR = true ∧ r.claimIdR = i := by
  unfold claimed
  cases claimRead p <;> cases r.claimValidR <;> simp

/-! ## One bit of the masks -/

/-- Bit `i` of the word that has the bits of `o`. -/
theorem sourceBit_getLsbD (id i : BitVec 5) :
    (sourceBit id).getLsbD i.toNat = decide (i = id) := by
  have hi := i.isLt
  have hid := id.isLt
  simp only [sourceBit, BitVec.getLsbD_shiftLeft, BitVec.getLsbD_one, ← BitVec.toNat_inj]
  by_cases h : i.toNat = id.toNat
  · simp [h, hid]
  · simp only [h, decide_false]
    have hne : ¬ i.toNat < id.toNat → i.toNat - id.toNat ≠ 0 := by omega
    by_cases hlt : i.toNat < id.toNat
    · simp [hlt]
    · simp [hlt, hne hlt]

theorem clearBit0_getLsbD (x : Word) (i : BitVec 5) :
    (clearBit0 x).getLsbD i.toNat = (x.getLsbD i.toNat && i != 0#5) := by
  have hi := i.isLt
  have hzero : (i != 0#5) = !decide (i.toNat = 0) := by
    rw [Bool.eq_iff_iff]
    simp [← BitVec.toNat_inj]
  rw [hzero, clearBit0, BitVec.getLsbD_and, BitVec.getLsbD_not, BitVec.getLsbD_one]
  simp [show i.toNat < 32 by omega]

/-- The word with the bit of an id that may be absent. -/
theorem elim_sourceBit_getLsbD (o : Option (BitVec 5)) (i : BitVec 5) :
    (o.elim 0#32 sourceBit).getLsbD i.toNat = decide (o = some i) := by
  cases o with
  | none => simp
  | some id => simp [sourceBit_getLsbD, eq_comm]

theorem claimMask_getLsbD (i : BitVec 5) :
    (claimMask r p).getLsbD i.toNat = decide (claimed r p = some i) := by
  rw [← elim_sourceBit_getLsbD, claimMask, claimed, claimRead]
  split <;> rfl

theorem releaseMask_getLsbD (i : BitVec 5) :
    (releaseMask r p).getLsbD i.toNat = decide (completed r p = some i) := by
  rw [← elim_sourceBit_getLsbD, releaseMask, completed]
  split <;> rfl

/-! ## One edge -/

/-- A source is pending after the edge when it was, or its input is high outside service, and no
claim read of this cycle takes it. -/
theorem next_pending (i : BitVec 5) :
    (next r p).pendingRegs.getLsbD i.toNat =
      ((r.pendingRegs.getLsbD i.toNat ||
          (p.peripheralInterrupts.getLsbD i.toNat && !r.inServiceRegs.getLsbD i.toNat)) &&
        !decide (claimed r p = some i) && i != 0#5) := by
  have hi : i.toNat < 32 := i.isLt
  show (pendingNext r p).getLsbD i.toNat = _
  rw [pendingNext, clearBit0_getLsbD]
  simp only [BitVec.getLsbD_and, BitVec.getLsbD_or, BitVec.getLsbD_not, claimMask_getLsbD, hi,
    decide_true, Bool.true_and]

/-- A source is in service after the edge when it was or a claim read of this cycle takes it, and no
complete of this cycle releases it. -/
theorem next_inService (i : BitVec 5) :
    (next r p).inServiceRegs.getLsbD i.toNat =
      ((r.inServiceRegs.getLsbD i.toNat || decide (claimed r p = some i)) &&
        !decide (completed r p = some i) && i != 0#5) := by
  have hi : i.toNat < 32 := i.isLt
  show (inServiceNext r p).getLsbD i.toNat = _
  rw [inServiceNext, clearBit0_getLsbD]
  simp only [BitVec.getLsbD_and, BitVec.getLsbD_or, BitVec.getLsbD_not, claimMask_getLsbD,
    releaseMask_getLsbD, hi, decide_true, Bool.true_and]

theorem inService_of_completed {i : BitVec 5} (h : completed r p = some i) :
    r.inServiceRegs.getLsbD i.toNat = true ∧ i ≠ 0#5 := by
  simp only [completed] at h
  split at h
  next hc =>
    simp only [Bool.and_eq_true, bne_iff_ne, ne_eq] at hc
    cases h
    exact ⟨hc.2.2, hc.2.1.1⟩
  next => cases h

/-- The bus does one thing per cycle. -/
theorem completed_of_claimed (hbus : p.plicRe = false ∨ p.plicWe = false) {i : BitVec 5}
    (h : claimed r p = some i) : completed r p = none := by
  rcases hbus with hre | hwe
  · simp [claimed, claimRead, hre] at h
  · simp [completed, hwe]

/-- A claim read that hands out `i` puts it on the read port. -/
theorem next_plicRdata_of_claimed {i : BitVec 5} (h : claimed r p = some i) :
    (next r p).plicRdata = i.setWidth 32 := by
  rcases claimed_eq_some.mp h with ⟨hread, hvalid, hid⟩
  simp only [claimRead, Bool.and_eq_true, beq_iff_eq] at hread
  simp [next, readData, hread, hvalid, hid]

/-! ## The priority search -/

/-- Each bucket that is filled names a source that may interrupt. -/
def Buckets.Sound (r : Regs) (b : Buckets) : Prop :=
  ∀ q, b.prioValid q = true →
    (eligibleIrqs r).getLsbD (b.prioId q).toNat = true ∧ b.prioId q ≠ 0#5

theorem sound_enter {b : Buckets} {i : Nat} (h : b.Sound r) (hpos : 0 < i) (hlt : i < 32) :
    (b.enter r i).Sound r := by
  have hid : (BitVec.ofNat 5 i).toNat = i := by simp [Nat.mod_eq_of_lt hlt]
  intro q hq
  unfold Buckets.enter at hq ⊢
  split
  next hel =>
    simp only [hel, if_true, Function.update_apply] at hq ⊢
    split
    next =>
      refine ⟨by rw [hid]; exact hel, ?_⟩
      rw [ne_eq, ← BitVec.toNat_inj, hid]
      simp
      omega
    next hne => exact h q (by simpa [hne] using hq)
  next hel => exact h q (by simpa [hel] using hq)

theorem mem_downFrom {n i : Nat} (h : i ∈ downFrom n) : 0 < i ∧ i ≤ n := by
  induction n with
  | zero => cases h
  | succ n ih =>
      rcases List.mem_cons.mp h with h | h
      · omega
      · have := ih h
        omega

theorem sound_foldl {l : List Nat} (hl : ∀ i ∈ l, 0 < i ∧ i < 32) {b : Buckets} (h : b.Sound r) :
    (l.foldl (Buckets.enter r) b).Sound r := by
  induction l generalizing b with
  | nil => exact h
  | cons i l ih =>
      have hi := hl i List.mem_cons_self
      exact ih (fun j hj => hl j (List.mem_cons_of_mem _ hj)) (sound_enter h hi.1 hi.2)

theorem sound_buckets (r : Regs) : (buckets r).Sound r := by
  refine sound_foldl (fun i hi => ?_) (fun q hq => by cases hq)
  have := mem_downFrom hi
  simp only [Map.PLIC_NUM_INTERRUPTS] at this
  omega

/-- The arbiter's choice may interrupt. -/
def Claim.Sound (r : Regs) (c : Claim) : Prop :=
  c.valid = true → (eligibleIrqs r).getLsbD c.id.toNat = true ∧ c.id ≠ 0#5

theorem sound_search {b : Buckets} (hb : b.Sound r) {l : List Nat} {c : Claim} (h : c.Sound r) :
    (l.foldl (Claim.search r b) c).Sound r := by
  induction l generalizing c with
  | nil => exact h
  | cons q l ih =>
      refine ih ?_
      intro hv
      unfold Claim.search at hv ⊢
      split
      next hc =>
        simp only [Bool.and_eq_true] at hc
        exact hb _ hc.1.2
      next hc => exact h (by simpa [hc] using hv)

theorem claimNext_eligible (h : (claimNext r).valid = true) :
    (eligibleIrqs r).getLsbD (claimNext r).id.toNat = true ∧ (claimNext r).id ≠ 0#5 :=
  sound_search (sound_buckets r) (fun hv => by cases hv) h

/-- The choice is pending, enabled and not in service. -/
theorem eligible_parts {i : BitVec 5} (h : (eligibleIrqs r).getLsbD i.toNat = true) :
    r.pendingRegs.getLsbD i.toNat = true ∧ r.inServiceRegs.getLsbD i.toNat = false := by
  have hi : i.toNat < 32 := i.isLt
  simp only [eligibleIrqs, BitVec.getLsbD_and, BitVec.getLsbD_not, Bool.and_eq_true, hi,
    decide_true, Bool.true_and, Bool.not_eq_true'] at h
  exact ⟨h.1.1, h.2⟩

/-- A valid copy names a source that was pending and not in service one cycle before. -/
theorem next_claim (h : (next r p).claimValidR = true) :
    (next r p).claimIdR ≠ 0#5 ∧
      r.pendingRegs.getLsbD (next r p).claimIdR.toNat = true ∧
      r.inServiceRegs.getLsbD (next r p).claimIdR.toNat = false := by
  rcases claimNext_eligible h with ⟨hel, hid⟩
  exact ⟨hid, eligible_parts hel⟩

/-- No claim read of the first cycle after reset hands out anything; later ones hand out what was
pending and not in service one cycle before. -/
theorem claimed_stale {inp : Nat → In} {t : Nat} {i : BitVec 5}
    (h : claimed (run inp t) (inp t) = some i) :
    ∃ u, t = u + 1 ∧ i ≠ 0#5 ∧ (run inp u).pendingRegs.getLsbD i.toNat = true ∧
      (run inp u).inServiceRegs.getLsbD i.toNat = false := by
  rcases claimed_eq_some.mp h with ⟨-, hvalid, hid⟩
  cases t with
  | zero => cases hvalid
  | succ u =>
      rcases next_claim hvalid with ⟨h0, hp, hs⟩
      subst hid
      exact ⟨u, rfl, h0, hp, hs⟩

/-! ## Exclusiveness -/

/-- A claim read follows in the next cycle a claim read that handed out the id which the arbiter
still chooses in that cycle. -/
def ClaimedTwice (inp : Nat → In) (t : Nat) : Prop :=
  claimRead (inp (t + 1)) = true ∧
    claimed (run inp t) (inp t) = some (claimNext (run inp t)).id ∧
    (claimNext (run inp t)).valid = true

/-- Each claim read that hands out an id finds it not in service and puts it there, and two claim
reads of one id have an accepted complete of it between them. -/
structure Exclusive (inp : Nat → In) : Prop where
  taken : ∀ t i, claimed (run inp t) (inp t) = some i → i ≠ 0#5 →
    (run inp t).inServiceRegs.getLsbD i.toNat = false ∧
      (run inp (t + 1)).inServiceRegs.getLsbD i.toNat = true
  released : ∀ t u i, t < u → i ≠ 0#5 → claimed (run inp t) (inp t) = some i →
    claimed (run inp u) (inp u) = some i →
    ∃ v, t < v ∧ v < u ∧ completed (run inp v) (inp v) = some i

/-- A claim read finds its id in service exactly when the claim read of the cycle before took it. -/
theorem inService_of_claimed {inp : Nat → In} {t : Nat} {i : BitVec 5}
    (h : claimed (run inp t) (inp t) = some i)
    (hs : (run inp t).inServiceRegs.getLsbD i.toNat = true) :
    ∃ u, t = u + 1 ∧ ClaimedTwice inp u := by
  rcases claimed_eq_some.mp h with ⟨hread, hvalid, hid⟩
  rcases claimed_stale h with ⟨u, rfl, -, -, hfree⟩
  refine ⟨u, rfl, hread, ?_, hvalid⟩
  have hid' : (claimNext (run inp u)).id = i := hid
  -- the id was free one cycle before, so the edge in between took it
  rw [run_succ_eq, next_inService, hfree] at hs
  simp only [Bool.false_or, Bool.and_eq_true, decide_eq_true_eq] at hs
  rw [hid']
  exact hs.1.1

/-- An id stays in service until it is completed. -/
theorem inService_kept {inp : Nat → In} {i : BitVec 5} {t u : Nat} (htu : t ≤ u) (hi : i ≠ 0#5)
    (hs : (run inp t).inServiceRegs.getLsbD i.toNat = true)
    (hno : ∀ v, t ≤ v → v < u → completed (run inp v) (inp v) ≠ some i) :
    (run inp u).inServiceRegs.getLsbD i.toNat = true := by
  induction htu with
  | refl => exact hs
  | step hle ih =>
      have hkept := ih (fun v htv hvu => hno v htv (Nat.lt_succ_of_lt hvu))
      have hnot := hno _ hle (Nat.lt_succ_self _)
      rw [run_succ_eq, next_inService, hkept]
      simp [hnot, hi]

/-- A claim read puts its id into service. -/
theorem inService_after_claim {inp : Nat → In} {t : Nat} {i : BitVec 5}
    (hbus : (inp t).plicRe = false ∨ (inp t).plicWe = false)
    (h : claimed (run inp t) (inp t) = some i) (hi : i ≠ 0#5) :
    (run inp (t + 1)).inServiceRegs.getLsbD i.toNat = true := by
  rw [run_succ_eq, next_inService, completed_of_claimed hbus h]
  simp [h, hi]

theorem claim_exclusive_iff (inp : Nat → In)
    (hbus : ∀ t, (inp t).plicRe = false ∨ (inp t).plicWe = false) :
    Exclusive inp ↔ ∀ t, ¬ ClaimedTwice inp t := by
  constructor
  · intro h t htwice
    rcases htwice with ⟨hread, htook, hvalid⟩
    have hid := (claimNext_eligible hvalid).2
    have hagain : claimed (run inp (t + 1)) (inp (t + 1)) = some (claimNext (run inp t)).id :=
      claimed_eq_some.mpr ⟨hread, hvalid, rfl⟩
    have hin := (h.taken t _ htook hid).2
    have hout := (h.taken (t + 1) _ hagain hid).1
    rw [hin] at hout
    cases hout
  · intro h
    have hfree : ∀ t i, claimed (run inp t) (inp t) = some i →
        (run inp t).inServiceRegs.getLsbD i.toNat = false := by
      intro t i hcl
      cases hs : (run inp t).inServiceRegs.getLsbD i.toNat with
      | false => rfl
      | true =>
          rcases inService_of_claimed hcl hs with ⟨u, -, htwice⟩
          exact absurd htwice (h u)
    refine ⟨fun t i hcl hi => ⟨hfree t i hcl, inService_after_claim (hbus t) hcl hi⟩, ?_⟩
    intro t u i htu hi hcl hcl'
    by_contra hnone
    -- without a complete the id is still in service when it is read again
    have hin := inService_kept (Nat.succ_le_of_lt htu) hi (inService_after_claim (hbus t) hcl hi)
      (fun v hv hvu hdone => hnone ⟨v, hv, hvu, hdone⟩)
    rw [hfree u i hcl'] at hin
    cases hin

/-! ### Two claim reads in a row -/

/-- A cycle without an access, while the input lines are `lines`. -/
def quiet (lines : Word) : In := ⟨lines, false, false, false, 0#32, 0#32⟩

def busRead (lines addr : Word) : In := ⟨lines, true, false, true, addr, 0#32⟩

def busWrite (lines addr data : Word) : In := ⟨lines, true, true, false, addr, data⟩

/-- Source 1 gets a priority and is enabled; its input stays high. -/
def prepareSource1 : Nat → In
  | 0 => busWrite 2#32 (Map.PLIC_PRIORITY_BASE_ADDR + 4#32) 1#32
  | 1 => busWrite 2#32 Map.PLIC_ENABLE_BASE_ADDR 2#32
  | _ => quiet 2#32

/-- The claim register is read in cycles 3 and 4. -/
def claimBackToBack (t : Nat) : In :=
  if t = 3 ∨ t = 4 then busRead 2#32 Map.PLIC_CLAIM_BASE_ADDR else prepareSource1 t

/-- Both reads return source 1, the second while it is in service. -/
theorem claim_not_exclusive :
    claimed (run claimBackToBack 3) (claimBackToBack 3) = some 1#5 ∧
      claimed (run claimBackToBack 4) (claimBackToBack 4) = some 1#5 ∧
      (run claimBackToBack 4).inServiceRegs.getLsbD 1 = true ∧ ¬ Exclusive claimBackToBack := by
  have hfirst : claimed (run claimBackToBack 3) (claimBackToBack 3) = some 1#5 := by decide +kernel
  have hsecond : claimed (run claimBackToBack 4) (claimBackToBack 4) = some 1#5 := by
    decide +kernel
  have hin : (run claimBackToBack 4).inServiceRegs.getLsbD 1 = true := by decide +kernel
  refine ⟨hfirst, hsecond, hin, ?_⟩
  intro h
  have hfree := (h.taken 4 1#5 hsecond (by decide)).1
  exact absurd (hin.symm.trans hfree) (by decide)

/-- The claim register is read in cycles 3 and 7, with the complete of source 1 in cycle 4. -/
def claimAfterComplete (t : Nat) : In :=
  if t = 3 ∨ t = 7 then busRead 2#32 Map.PLIC_CLAIM_BASE_ADDR
  else if t = 4 then busWrite 2#32 Map.PLIC_CLAIM_BASE_ADDR 1#32
  else prepareSource1 t

theorem claimRead_claimAfterComplete {t : Nat} (h : claimRead (claimAfterComplete t) = true) :
    t = 3 ∨ t = 7 := by
  by_contra hne
  unfold claimAfterComplete at h
  rw [if_neg hne] at h
  split at h
  next => exact absurd h (by decide)
  next =>
    unfold prepareSource1 at h
    split at h <;> exact absurd h (by decide)

theorem claim_exclusive_iff_after_complete :
    claimed (run claimAfterComplete 3) (claimAfterComplete 3) = some 1#5 ∧
      claimed (run claimAfterComplete 7) (claimAfterComplete 7) = some 1#5 ∧
      Exclusive claimAfterComplete := by
  refine ⟨by decide +kernel, by decide +kernel, ?_⟩
  refine (claim_exclusive_iff claimAfterComplete ?_).mpr ?_
  · intro t
    unfold claimAfterComplete prepareSource1
    repeat' split
    all_goals decide
  · intro t htwice
    rcases htwice with ⟨hnext, htook, -⟩
    have hread := (claimed_eq_some.mp htook).1
    have h1 := claimRead_claimAfterComplete hnext
    have h2 := claimRead_claimAfterComplete hread
    omega

end Plic
end RiscvCpu
