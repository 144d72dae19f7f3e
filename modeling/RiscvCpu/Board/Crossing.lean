import RiscvCpu.Board.Counter

/-!
# Crossing — what the core reads of the millisecond counter

In every sequence of edges of the two clocks, however the bits of the Gray code are read when edges fall
together, the core reads numbers that the counter has shown: they never go back, never run ahead, and are
no older than the last two edges of its own clock.  And the counter counts one for every 50000 edges of
its clock.
-/

namespace RiscvCpu
namespace Board
namespace Counter

/-! ## Edges -/

def Edge.isCnt : Edge → Bool
  | .cnt _ => true
  | .cpu => false
  | .both _ _ => true

def Edge.isCpu : Edge → Bool
  | .cnt _ => false
  | .cpu => true
  | .both _ _ => true

variable (edges : Nat → Edge)

/-- The milliseconds counted by the first `t` edges. -/
def ticks : Nat → Nat
  | 0 => 0
  | t + 1 => ticks t + if (edges t).isCnt && tick (run edges t) then 1 else 0

/-- The edges of one clock among those from `a` on, up to `n` later. -/
def edgesFrom (isEdge : Edge → Bool) (a : Nat) : Nat → Nat
  | 0 => 0
  | n + 1 => edgesFrom isEdge a n + if isEdge (edges (a + n)) then 1 else 0

variable {edges}

theorem run_succ_eq (t : Nat) : run edges (t + 1) = next (run edges t) (edges t) := rfl

theorem ticks_mono {t u : Nat} (h : t ≤ u) : ticks edges t ≤ ticks edges u := by
  induction h with
  | refl => exact Nat.le_refl _
  | @step u _ ih => exact Nat.le_trans ih (Nat.le_add_right _ _)

/-! ## The count -/

theorem next_cntMsBin (r : Regs) (e : Edge) :
    (next r e).cntMsBin = if e.isCnt && tick r then r.cntMsBin + 1#32 else r.cntMsBin := by
  cases e with
  | cnt enable => simp [next, cntEdge, Edge.isCnt]
  | cpu => simp [next, cpuEdge, Edge.isCnt]
  | both enable late => simp [next, cntEdge, cpuEdge, Edge.isCnt]

/-- The counter holds the milliseconds. -/
theorem cntMsBin_run (t : Nat) : (run edges t).cntMsBin = BitVec.ofNat 32 (ticks edges t) := by
  induction t with
  | zero => rfl
  | succ t ih =>
      rw [run_succ_eq, next_cntMsBin, ih, ticks]
      split
      · rw [BitVec.ofNat_add]
      · rfl

/-! ## The crossing -/

/-- The milliseconds behind the two words that the core has read. -/
structure Read where
  first : Nat
  second : Nat

/-- What an edge makes of them. -/
def readNext (x : Read) (t : Nat) : Read :=
  if (edges t).isCpu then
    { first :=
        -- under two edges at once the core reads the old code or the new one
        if (run edges (t + 1)).cntGrayCpuD1 = Gray.encode (BitVec.ofNat 32 (ticks edges t)) then
          ticks edges t
        else ticks edges (t + 1)
      second := x.first }
  else x

variable (edges) in
def reads : Nat → Read
  | 0 => ⟨0, 0⟩
  | t + 1 => @readNext edges (reads t) t

/-- An edge of `cpu_clk` reads the code of a number between the counts around it. -/
theorem next_cntGrayCpuD1 {t : Nat} (h : (edges t).isCpu = true) :
    (run edges (t + 1)).cntGrayCpuD1 = Gray.encode (BitVec.ofNat 32 (ticks edges t)) ∨
      (run edges (t + 1)).cntGrayCpuD1 = Gray.encode (BitVec.ofNat 32 (ticks edges (t + 1))) := by
  have hnow := @cntMsBin_run edges t
  have hthen := @cntMsBin_run edges (t + 1)
  rw [run_succ_eq] at hthen ⊢
  cases he : edges t with
  | cnt enable =>
      rw [he] at h
      cases h
  | cpu =>
      left
      show Gray.encode (run edges t).cntMsBin = _
      rw [hnow]
  | both enable late =>
      rw [he] at hthen
      have hsampled : (next (run edges t) (.both enable late)).cntGrayCpuD1 =
          Gray.mix late (Gray.encode (run edges t).cntMsBin)
            (Gray.encode (cntEdge (run edges t) enable).cntMsBin) := rfl
      have hbin : (cntEdge (run edges t) enable).cntMsBin =
          BitVec.ofNat 32 (ticks edges (t + 1)) := hthen
      rw [hsampled, hnow, hbin, ticks]
      split
      · rw [BitVec.ofNat_add]
        exact Gray.mix_encode _ _
      · left
        exact Gray.mix_self _ _

/-- The registers of the core's domain hold the codes of what has been read, and that is in order. -/
structure Crossed (edges : Nat → Edge) (t : Nat) : Prop where
  first : (run edges t).cntGrayCpuD1 = Gray.encode (BitVec.ofNat 32 (reads edges t).first)
  second : (run edges t).cntGrayCpuD2 = Gray.encode (BitVec.ofNat 32 (reads edges t).second)
  order : (reads edges t).second ≤ (reads edges t).first
  bound : (reads edges t).first ≤ ticks edges t

theorem readNext_first {x : Read} {t : Nat} (h : (edges t).isCpu = true) :
    (run edges (t + 1)).cntGrayCpuD1 =
        Gray.encode (BitVec.ofNat 32 (@readNext edges x t).first) ∧
      ticks edges t ≤ (@readNext edges x t).first ∧
      (@readNext edges x t).first ≤ ticks edges (t + 1) ∧
      (@readNext edges x t).second = x.first := by
  have hmono := @ticks_mono edges t (t + 1) (Nat.le_succ t)
  rw [readNext, if_pos h]
  by_cases hold : (run edges (t + 1)).cntGrayCpuD1 = Gray.encode (BitVec.ofNat 32 (ticks edges t))
  · simp only [hold, if_true]
    exact ⟨trivial, Nat.le_refl _, hmono, trivial⟩
  · simp only [hold, if_false]
    rcases next_cntGrayCpuD1 h with heq | heq
    · exact absurd heq hold
    · exact ⟨heq, hmono, Nat.le_refl _, trivial⟩

/-- Without an edge of `cpu_clk` the registers of its domain stay. -/
theorem next_of_not_isCpu {t : Nat} (h : (edges t).isCpu = false) :
    (run edges (t + 1)).cntGrayCpuD1 = (run edges t).cntGrayCpuD1 ∧
      (run edges (t + 1)).cntGrayCpuD2 = (run edges t).cntGrayCpuD2 ∧
      reads edges (t + 1) = reads edges t := by
  refine ⟨?_, ?_, ?_⟩
  · rw [run_succ_eq]
    cases he : edges t with
    | cnt enable => rfl
    | cpu | both _ _ => rw [he] at h; cases h
  · rw [run_succ_eq]
    cases he : edges t with
    | cnt enable => rfl
    | cpu | both _ _ => rw [he] at h; cases h
  · rw [reads, readNext, h]
    rfl

theorem next_cntGrayCpuD2 {t : Nat} (h : (edges t).isCpu = true) :
    (run edges (t + 1)).cntGrayCpuD2 = (run edges t).cntGrayCpuD1 := by
  rw [run_succ_eq]
  cases he : edges t with
  | cnt enable =>
      rw [he] at h
      cases h
  | cpu | both _ _ => rfl

theorem crossed_run (edges : Nat → Edge) (t : Nat) : Crossed edges t := by
  induction t with
  | zero =>
      have hzero : (0#32 : Word) = Gray.encode (BitVec.ofNat 32 0) := by decide
      exact { first := hzero, second := hzero, order := Nat.le_refl 0, bound := Nat.le_refl 0 }
  | succ t ih =>
      have hmono := @ticks_mono edges t (t + 1) (Nat.le_succ t)
      cases hcpu : (edges t).isCpu with
      | false =>
          rcases next_of_not_isCpu hcpu with ⟨h1, h2, hreads⟩
          constructor
          · rw [h1, hreads]
            exact ih.first
          · rw [h2, hreads]
            exact ih.second
          · rw [hreads]
            exact ih.order
          · rw [hreads]
            exact Nat.le_trans ih.bound hmono
      | true =>
          rcases @readNext_first edges (reads edges t) t hcpu with ⟨hcode, hlow, hhigh, hsecond⟩
          constructor
          · exact hcode
          · rw [next_cntGrayCpuD2 hcpu, ih.first, reads, hsecond]
          · rw [reads, hsecond]
            exact Nat.le_trans ih.bound hlow
          · exact hhigh

/-- What the core reads never goes back. -/
theorem second_mono {t u : Nat} (h : t ≤ u) :
    (reads edges t).second ≤ (reads edges u).second := by
  induction h with
  | refl => exact Nat.le_refl _
  | @step u _ ih =>
      refine Nat.le_trans ih ?_
      cases hcpu : (edges u).isCpu with
      | false =>
          have hreads := (next_of_not_isCpu hcpu).2.2
          exact Nat.le_of_eq (congrArg Read.second hreads.symm)
      | true =>
          rw [Nat.succ_eq_add_one, reads, (@readNext_first edges (reads edges u) u hcpu).2.2.2]
          exact (crossed_run edges u).order

/-- One edge of `cpu_clk` reads the count, and a second one shows it. -/
theorem fresh {t n : Nat} :
    (1 ≤ edgesFrom edges Edge.isCpu t n → ticks edges t ≤ (reads edges (t + n)).first) ∧
      (2 ≤ edgesFrom edges Edge.isCpu t n → ticks edges t ≤ (reads edges (t + n)).second) := by
  induction n with
  | zero =>
      constructor
      · intro h
        cases h
      · intro h
        cases h
  | succ n ih =>
      rw [edgesFrom, ← Nat.add_assoc]
      cases hcpu : (edges (t + n)).isCpu with
      | false =>
          rw [(next_of_not_isCpu hcpu).2.2]
          exact ih
      | true =>
          rcases @readNext_first edges (reads edges (t + n)) (t + n) hcpu with ⟨-, hlow, -, hsecond⟩
          constructor
          · intro _
            exact Nat.le_trans (ticks_mono (Nat.le_add_right t n)) hlow
          · intro h
            rw [reads, hsecond]
            apply ih.1
            rw [if_pos rfl] at h
            omega

/-- However the edges of the two clocks fall, the core reads numbers that the counter has shown, in their
order: a read never runs ahead of the count, a later one never falls back behind an earlier one, and after
two edges of `cpu_clk` it is no older than the count before them. -/
theorem reads_in_order (edges : Nat → Edge) :
    ∃ shown : Nat → Nat,
      (∀ t, peripRdata (run edges t) = BitVec.ofNat 32 (shown t)) ∧
      (∀ t u, t ≤ u → shown t ≤ shown u) ∧ (∀ t, shown t ≤ ticks edges t) ∧
      ∀ t n, 2 ≤ edgesFrom edges Edge.isCpu t n → ticks edges t ≤ shown (t + n) := by
  refine ⟨fun t => (reads edges t).second, ?_, ?_, ?_, ?_⟩
  · intro t
    rw [peripRdata, grayToBin, (crossed_run edges t).second, Gray.decode_encode]
  · intro t u h
    exact second_mono h
  · intro t
    exact Nat.le_trans (crossed_run edges t).order (crossed_run edges t).bound
  · intro t n h
    exact fresh.2 h

/-! ## The rate -/

/-- The level that an edge reads on `cnt_enable_cpu` is not low. -/
def Edge.keepsEnable : Edge → Bool
  | .cnt enable => enable
  | .cpu => true
  | .both enable _ => enable

/-- The prescaler stays below 50000. -/
theorem cnt1ms_lt (edges : Nat → Edge) (t : Nat) : (run edges t).cnt1ms.toNat < 50000 := by
  have hstep : ∀ (r : Regs) (enable : Bool), r.cnt1ms.toNat < 50000 →
      (cntEdge r enable).cnt1ms.toNat < 50000 := by
    intro r enable h
    simp only [cntEdge]
    split
    · split
      · decide
      next hne =>
        have hne' : r.cnt1ms.toNat ≠ 49999 := by
          intro heq
          apply hne
          rw [beq_iff_eq, ← BitVec.toNat_inj, heq]
          rfl
        rw [BitVec.toNat_add]
        simp only [BitVec.reduceToNat]
        omega
    · decide
  induction t with
  | zero => exact Nat.succ_pos 49999
  | succ t ih =>
      rw [run_succ_eq]
      cases edges t with
      | cnt enable => exact hstep _ enable ih
      | cpu => exact ih
      | both enable late => exact hstep _ enable ih

/-- The counter has been told to run, and the order has reached its domain. -/
def Running (r : Regs) : Prop := r.cntEnableCntD1 = true ∧ r.cntEnableCntD2 = true

theorem running_next {r : Regs} {e : Edge} (h : Running r) (he : e.keepsEnable = true) :
    Running (next r e) := by
  cases e with
  | cnt enable => exact ⟨he, h.1⟩
  | cpu => exact h
  | both enable late => exact ⟨he, h.1⟩

/-- A running counter takes in each edge of its clock. -/
theorem count_succ {t : Nat} (h : Running (run edges t)) :
    50000 * ticks edges (t + 1) + (run edges (t + 1)).cnt1ms.toNat =
      50000 * ticks edges t + (run edges t).cnt1ms.toNat + if (edges t).isCnt then 1 else 0 := by
  have hlt := cnt1ms_lt edges t
  have hedge : ∀ enable, 50000 * (if tick (run edges t) then 1 else 0) +
      (cntEdge (run edges t) enable).cnt1ms.toNat = (run edges t).cnt1ms.toNat + 1 := by
    intro enable
    simp only [tick, cntEdge, h.2, Bool.true_and, if_true]
    by_cases hfull : (run edges t).cnt1ms = 49999#16
    · simp [hfull]
    · have hne : (run edges t).cnt1ms.toNat ≠ 49999 := fun heq =>
        hfull (BitVec.eq_of_toNat_eq heq)
      simp only [beq_iff_eq, hfull, if_false, BitVec.toNat_add, BitVec.reduceToNat]
      omega
  rw [ticks, run_succ_eq]
  cases edges t with
  | cnt enable =>
      have hone := hedge enable
      simp only [Edge.isCnt, Bool.true_and, if_true]
      show _ + (cntEdge (run edges t) enable).cnt1ms.toNat = _
      omega
  | cpu => rfl
  | both enable late =>
      have hone := hedge enable
      simp only [Edge.isCnt, Bool.true_and, if_true]
      show _ + (cntEdge (run edges t) enable).cnt1ms.toNat = _
      omega

/-- A running counter has ticked once for every 50000 edges of its clock. -/
theorem ticks_running (edges : Nat → Edge) (a n : Nat) (hrun : Running (run edges a))
    (hkeep : ∀ k, a ≤ k → k < a + n → (edges k).keepsEnable = true) :
    ticks edges (a + n) =
      ticks edges a +
        ((run edges a).cnt1ms.toNat + edgesFrom edges Edge.isCnt a n) / 50000 := by
  have hrunning : ∀ m, m ≤ n → Running (run edges (a + m)) := by
    intro m
    induction m with
    | zero => exact fun _ => hrun
    | succ m ih =>
        intro hm
        exact running_next (ih (Nat.le_of_succ_le hm)) (hkeep (a + m) (Nat.le_add_right a m) (by omega))
  have hcount : ∀ m, m ≤ n → 50000 * ticks edges (a + m) + (run edges (a + m)).cnt1ms.toNat =
      50000 * ticks edges a + (run edges a).cnt1ms.toNat + edgesFrom edges Edge.isCnt a m := by
    intro m
    induction m with
    | zero => exact fun _ => rfl
    | succ m ih =>
        intro hm
        have hprev := ih (Nat.le_of_succ_le hm)
        have hstep := count_succ (hrunning m (Nat.le_of_succ_le hm))
        rw [edgesFrom, ← Nat.add_assoc a m 1, hstep, hprev, Nat.add_assoc]
  have htotal := hcount n (Nat.le_refl n)
  have hlt := cnt1ms_lt edges (a + n)
  omega

/-- While it is told to run, the register counts one millisecond for every 50000 edges of its clock,
whatever the edges of the other clock do: it has ticked so often, and wraps at 32 bits. -/
theorem counts_milliseconds (edges : Nat → Edge) (a n : Nat) (hrun : Running (run edges a))
    (hkeep : ∀ k, a ≤ k → k < a + n → (edges k).keepsEnable = true) :
    (run edges (a + n)).cntMsBin =
        (run edges a).cntMsBin + BitVec.ofNat 32
          (((run edges a).cnt1ms.toNat + edgesFrom edges Edge.isCnt a n) / 50000) ∧
      ticks edges (a + n) =
        ticks edges a + ((run edges a).cnt1ms.toNat + edgesFrom edges Edge.isCnt a n) / 50000 := by
  have hticks := ticks_running edges a n hrun hkeep
  refine ⟨?_, hticks⟩
  rw [cntMsBin_run, cntMsBin_run, hticks, BitVec.ofNat_add]

/-- The enable is high from the start; the two domains take turns. -/
def turns (k : Nat) : Edge := if k % 2 = 0 then .cnt true else .cpu

theorem counts_milliseconds_turns :
    (run turns (3 + 200000)).cntMsBin =
        (run turns 3).cntMsBin + BitVec.ofNat 32
          (((run turns 3).cnt1ms.toNat + edgesFrom turns Edge.isCnt 3 200000) / 50000) ∧
      ticks turns (3 + 200000) =
        ticks turns 3 +
          ((run turns 3).cnt1ms.toNat + edgesFrom turns Edge.isCnt 3 200000) / 50000 := by
  apply counts_milliseconds turns 3 200000 ⟨rfl, rfl⟩
  intro k _ _
  rw [turns]
  split <;> rfl

end Counter
end Board
end RiscvCpu
