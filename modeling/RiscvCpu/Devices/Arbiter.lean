import RiscvCpu.Devices.Claim

/-!
# Arbiter — which source the interrupt controller chooses

The search runs down the sources into one bucket for each priority, and then down the priorities to
the first bucket that is filled.  Of several sources in one bucket the last one entered stays, which
is the smallest; of several buckets the first one found counts, which is the highest.
-/

namespace RiscvCpu
namespace Plic

variable {r : Regs}

/-! ## The buckets -/

/-- Source `i` is eligible and belongs to bucket `q`. -/
def InBucket (r : Regs) (q : BitVec 3) (i : Nat) : Prop :=
  (eligibleIrqs r).getLsbD i = true ∧ r.priorityRegs (BitVec.ofNat 5 i) = q

theorem enter_of_inBucket {b : Buckets} {q : BitVec 3} {i : Nat} (h : InBucket r q i) :
    (b.enter r i).prioValid q = true ∧ (b.enter r i).prioId q = BitVec.ofNat 5 i := by
  rcases h with ⟨hel, hprio⟩
  simp [Buckets.enter, hel, hprio]

theorem enter_of_not_inBucket {b : Buckets} {q : BitVec 3} {i : Nat} (h : ¬ InBucket r q i) :
    (b.enter r i).prioValid q = b.prioValid q ∧ (b.enter r i).prioId q = b.prioId q := by
  unfold Buckets.enter
  split
  next hel =>
    have hne : q ≠ r.priorityRegs (BitVec.ofNat 5 i) := fun hq => h ⟨hel, hq.symm⟩
    simp [Function.update_of_ne hne]
  next => exact ⟨rfl, rfl⟩

/-- A bucket holds the smallest of its sources, or what it held before. -/
theorem buckets_downFrom (q : BitVec 3) (n : Nat) (b : Buckets) :
    (∃ i, 0 < i ∧ i ≤ n ∧ InBucket r q i ∧ (∀ j, 0 < j → j < i → ¬ InBucket r q j) ∧
      ((downFrom n).foldl (Buckets.enter r) b).prioValid q = true ∧
      ((downFrom n).foldl (Buckets.enter r) b).prioId q = BitVec.ofNat 5 i) ∨
    ((∀ j, 0 < j → j ≤ n → ¬ InBucket r q j) ∧
      ((downFrom n).foldl (Buckets.enter r) b).prioValid q = b.prioValid q ∧
      ((downFrom n).foldl (Buckets.enter r) b).prioId q = b.prioId q) := by
  induction n generalizing b with
  | zero => exact Or.inr ⟨fun j hpos hle => by omega, rfl, rfl⟩
  | succ n ih =>
      rcases ih (b.enter r (n + 1)) with ⟨i, hpos, hle, hin, hleast, hfold⟩ | ⟨hnone, hv, hid⟩
      · -- a smaller source overwrites whatever is entered first
        exact Or.inl ⟨i, hpos, Nat.le_succ_of_le hle, hin, hleast, hfold⟩
      · have hbelow : ∀ j, 0 < j → j < n + 1 → ¬ InBucket r q j :=
          fun j hj hlt => hnone j hj (Nat.le_of_lt_succ hlt)
        by_cases hin : InBucket r q (n + 1)
        · rcases @enter_of_inBucket r b q (n + 1) hin with ⟨hvalid, hsource⟩
          exact Or.inl ⟨n + 1, Nat.succ_pos n, Nat.le_refl _, hin, hbelow, hv.trans hvalid,
            hid.trans hsource⟩
        · rcases @enter_of_not_inBucket r b q (n + 1) hin with ⟨hvalid, hsource⟩
          refine Or.inr ⟨fun j hj hle => ?_, hv.trans hvalid, hid.trans hsource⟩
          rcases Nat.lt_or_eq_of_le hle with hlt | rfl
          · exact hbelow j hj hlt
          · exact hin

/-- A filled bucket names the smallest of its sources. -/
theorem buckets_of_valid {q : BitVec 3} (h : (buckets r).prioValid q = true) :
    ∃ i, 0 < i ∧ i ≤ 31 ∧ InBucket r q i ∧ (∀ j, 0 < j → j < i → ¬ InBucket r q j) ∧
      (buckets r).prioId q = BitVec.ofNat 5 i := by
  rcases @buckets_downFrom r q 31 ⟨fun _ => false, fun _ => 0#5⟩ with
    ⟨i, hpos, hle, hin, hleast, -, hid⟩ | ⟨-, hv, -⟩
  · exact ⟨i, hpos, hle, hin, hleast, hid⟩
  · cases hv.symm.trans h

theorem valid_of_inBucket {q : BitVec 3} {i : Nat} (hpos : 0 < i) (hle : i ≤ 31)
    (h : InBucket r q i) : (buckets r).prioValid q = true := by
  rcases @buckets_downFrom r q 31 ⟨fun _ => false, fun _ => 0#5⟩ with
    ⟨-, -, -, -, -, hv, -⟩ | ⟨hnone, -⟩
  · exact hv
  · exact absurd h (hnone i hpos hle)

/-! ## The search -/

/-- Bucket `q` is filled and above the threshold. -/
def Open (r : Regs) (b : Buckets) (q : Nat) : Prop :=
  b.prioValid (BitVec.ofNat 3 q) = true ∧ r.thresholdReg.toNat < q

theorem search_of_valid {b : Buckets} {c : Claim} (hc : c.valid = true) (l : List Nat) :
    l.foldl (Claim.search r b) c = c := by
  induction l with
  | nil => rfl
  | cons q l ih =>
      have hstep : c.search r b q = c := by simp [Claim.search, hc]
      rw [List.foldl_cons, hstep, ih]

/-- The search takes the highest bucket that is open. -/
theorem search_downFrom {b : Buckets} {c : Claim} (hc : c.valid = false) (n : Nat) :
    (∃ q, 0 < q ∧ q ≤ n ∧ Open r b q ∧ (∀ q', q < q' → q' ≤ n → ¬ Open r b q') ∧
      (downFrom n).foldl (Claim.search r b) c = ⟨true, b.prioId (BitVec.ofNat 3 q)⟩) ∨
    ((∀ q, 0 < q → q ≤ n → ¬ Open r b q) ∧ (downFrom n).foldl (Claim.search r b) c = c) := by
  induction n with
  | zero => exact Or.inr ⟨fun q hpos hle => by omega, rfl⟩
  | succ n ih =>
      rw [downFrom, List.foldl_cons]
      by_cases hopen : Open r b (n + 1)
      · have hstep : c.search r b (n + 1) = ⟨true, b.prioId (BitVec.ofNat 3 (n + 1))⟩ := by
          simp [Claim.search, hc, hopen.1, hopen.2]
        refine Or.inl ⟨n + 1, Nat.succ_pos n, Nat.le_refl _, hopen, fun q' hlt hle => by omega, ?_⟩
        rw [hstep]
        exact search_of_valid rfl _
      · have hstep : c.search r b (n + 1) = c := by
          unfold Open at hopen
          simp only [Claim.search, hc, Bool.not_false, Bool.true_and, Bool.and_eq_true,
            decide_eq_true_eq, if_neg hopen]
        rw [hstep]
        rcases ih with ⟨q, hpos, hle, hq, hhighest, hfold⟩ | ⟨hnone, hfold⟩
        · refine Or.inl ⟨q, hpos, Nat.le_succ_of_le hle, hq, fun q' hlt hle' => ?_, hfold⟩
          rcases Nat.lt_or_eq_of_le hle' with hlt' | rfl
          · exact hhighest q' hlt (Nat.le_of_lt_succ hlt')
          · exact hopen
        · refine Or.inr ⟨fun q hpos hle => ?_, hfold⟩
          rcases Nat.lt_or_eq_of_le hle with hlt | rfl
          · exact hnone q hpos (Nat.le_of_lt_succ hlt)
          · exact hopen

/-! ## The choice -/

/-- Source `i` is pending, enabled and not in service, and its priority is above the threshold. -/
structure MayInterrupt (r : Regs) (i : BitVec 5) : Prop where
  source : i ≠ 0#5
  pending : r.pendingRegs.getLsbD i.toNat = true
  enabled : r.enableRegs.getLsbD i.toNat = true
  waiting : r.inServiceRegs.getLsbD i.toNat = false
  above : r.thresholdReg < r.priorityRegs i

theorem pos_of_source {i : BitVec 5} (h : i ≠ 0#5) : 0 < i.toNat := by
  rw [ne_eq, ← BitVec.toNat_inj] at h
  exact Nat.pos_of_ne_zero h

/-- What may interrupt is in the bucket of its priority, and that is open. -/
theorem MayInterrupt.isOpen {i : BitVec 5} (h : MayInterrupt r i) :
    InBucket r (r.priorityRegs i) i.toNat ∧ Open r (buckets r) (r.priorityRegs i).toNat := by
  have hlt : i.toNat < 32 := i.isLt
  have hin : InBucket r (r.priorityRegs i) i.toNat := by
    refine ⟨?_, by rw [BitVec.ofNat_toNat, BitVec.setWidth_eq]⟩
    simp only [eligibleIrqs, BitVec.getLsbD_and, BitVec.getLsbD_not, h.pending, h.enabled,
      h.waiting, hlt, decide_true, Bool.not_false, Bool.and_self]
  refine ⟨hin, ?_, h.above⟩
  rw [BitVec.ofNat_toNat, BitVec.setWidth_eq]
  exact valid_of_inBucket (pos_of_source h.source) (by omega) hin

/-- The smallest source of an open bucket may interrupt. -/
theorem mayInterrupt_of_open {q i : Nat} (hopen : Open r (buckets r) q) (hq : q ≤ 7) (hpos : 0 < i)
    (hle : i ≤ 31) (hin : InBucket r (BitVec.ofNat 3 q) i) :
    MayInterrupt r (BitVec.ofNat 5 i) ∧ (r.priorityRegs (BitVec.ofNat 5 i)).toNat = q := by
  have hid : (BitVec.ofNat 5 i).toNat = i := by
    rw [BitVec.toNat_ofNat]
    omega
  have hprio : (r.priorityRegs (BitVec.ofNat 5 i)).toNat = q := by
    rw [hin.2, BitVec.toNat_ofNat]
    omega
  have hel := hin.1
  simp only [eligibleIrqs, BitVec.getLsbD_and, BitVec.getLsbD_not, Bool.and_eq_true,
    Bool.not_eq_true'] at hel
  refine ⟨⟨?_, ?_, ?_, ?_, ?_⟩, hprio⟩
  · rw [ne_eq, ← BitVec.toNat_inj, hid]
    exact Nat.ne_of_gt hpos
  · rw [hid]
    exact hel.1.1
  · rw [hid]
    exact hel.1.2
  · rw [hid]
    exact hel.2.2
  · rw [BitVec.lt_def, hprio]
    exact hopen.2

/-- The arbiter chooses when a source may interrupt, and then the one of the highest priority with
the smallest id. -/
theorem claimNext_highest (r : Regs) :
    ((claimNext r).valid = true ↔ ∃ i, MayInterrupt r i) ∧
    ((claimNext r).valid = true →
      MayInterrupt r (claimNext r).id ∧
      ∀ j, MayInterrupt r j →
        r.priorityRegs j < r.priorityRegs (claimNext r).id ∨
          (r.priorityRegs j = r.priorityRegs (claimNext r).id ∧ (claimNext r).id ≤ j)) := by
  rcases @search_downFrom r (buckets r) ⟨false, 0#5⟩ rfl 7 with
    ⟨q, -, hq, hopen, hhighest, hfold⟩ | ⟨hnone, hfold⟩
  · rcases buckets_of_valid hopen.1 with ⟨i, hpos, hle, hin, hleast, hid⟩
    rcases mayInterrupt_of_open hopen hq hpos hle hin with ⟨hmay, hprio⟩
    have hchoice : claimNext r = ⟨true, BitVec.ofNat 5 i⟩ := by
      rw [← hid]
      exact hfold
    rw [hchoice]
    refine ⟨⟨fun _ => ⟨_, hmay⟩, fun _ => rfl⟩, fun _ => ⟨hmay, ?_⟩⟩
    intro j hj
    rcases hj.isOpen with ⟨hjin, hjopen⟩
    have hjle := (r.priorityRegs j).isLt
    -- no open bucket is above the chosen one
    have hupper : (r.priorityRegs j).toNat ≤ q := by
      by_contra hgt
      exact hhighest _ (Nat.lt_of_not_le hgt) (by omega) hjopen
    rcases Nat.lt_or_eq_of_le hupper with hlt | heq
    · left
      rw [BitVec.lt_def, hprio]
      exact hlt
    · right
      have hsame : r.priorityRegs j = r.priorityRegs (BitVec.ofNat 5 i) :=
        BitVec.eq_of_toNat_eq (heq.trans hprio.symm)
      refine ⟨hsame, ?_⟩
      -- and no source of that bucket is below the chosen one
      have hlower : i ≤ j.toNat := by
        by_contra hlt
        rw [hsame, hin.2] at hjin
        exact hleast _ (pos_of_source hj.source) (Nat.lt_of_not_le hlt) hjin
      rw [BitVec.le_def, BitVec.toNat_ofNat]
      omega
  · have hchoice : claimNext r = ⟨false, 0#5⟩ := hfold
    rw [hchoice]
    refine ⟨⟨fun h => Bool.noConfusion h, ?_⟩, fun h => Bool.noConfusion h⟩
    rintro ⟨i, hi⟩
    have hlt := (r.priorityRegs i).isLt
    have hpos : 0 < (r.priorityRegs i).toNat := Nat.lt_of_le_of_lt (Nat.zero_le _) hi.above
    exact absurd hi.isOpen.2 (hnone _ hpos (by omega))

end Plic
end RiscvCpu
