import Mathlib.Data.Nat.Count
import RiscvCpu.Pipeline.Trap

/-!
# Instret — what the instruction counter counts

`instret` counts every instruction that passes the memory stage, squashed or not, and a read takes
off three for each redirect and for each trap.  The number that has really retired is the count of
those that pass it unsquashed and do not trap there.  The two agree exactly as long as nothing has
been redirected: neither do three squashed instructions pass the memory stage for each redirect, nor
do any of them pass it in the cycle of the redirect itself.
-/

namespace RiscvCpu
namespace Cpu

/-! ## One cycle -/

/-- The instruction in the memory stage traps. -/
def traps (s : Cpu) (i : CpuIn) : Bool := (exceptionCode s i).getLsbD 5

/-- An instruction leaves the memory stage for write-back, and it is squashed, or it has neither been
squashed nor trapped. -/
def passes (s : Cpu) : Bool := MemStage.msToWsValid s.ms
def squashed (s : Cpu) : Bool := passes s && MemStage.msFlush s.ms
def retired (s : Cpu) (i : CpuIn) : Bool := passes s && !MemStage.msFlush s.ms && !traps s i

variable {cfg : Config} {s : Cpu} {i : CpuIn}

theorem passes_of_traps (hc : Control s) (h : traps s i = true) :
    passes s = true ∧ MemStage.msFlush s.ms = false := by
  have hexc : exceptionFlag s i = true := by
    rw [exceptionFlag, RegfileCsr.exceptionFlag, show (exceptionCode s i).getLsbD 5 = true from h,
      Bool.true_or]
  rcases ms_live_of_exceptionFlag hc hexc with ⟨hv, hfl⟩
  refine ⟨?_, hfl⟩
  rw [passes, MemStage.msToWsValid, MemStage.msValid, hv]
  rfl

/-- Whatever passes has retired, trapped or been squashed. -/
theorem passes_split (hc : Control s) :
    (if passes s then 1 else 0) =
      (if retired s i then 1 else 0) + (if traps s i then 1 else 0) +
        if squashed s then 1 else 0 := by
  have htraps := @passes_of_traps s i hc
  rw [retired, squashed]
  cases hp : passes s with
  | false =>
      cases ht : traps s i with
      | false => rfl
      | true =>
          rw [(htraps ht).1] at hp
          cases hp
  | true =>
      cases ht : traps s i with
      | false => cases MemStage.msFlush s.ms <;> rfl
      | true =>
          rw [(htraps ht).2]
          rfl

/-! ## Before the first redirect -/

/-- Nothing in the pipeline is marked as squashed, and no trap is being serviced. -/
structure Unmarked (s : Cpu) : Prop where
  dsMain : s.ds.buf.valid = true → s.ds.dsFlushR = false
  dsSkid : s.ds.buf.skidValid = true → s.ds.dsFlushSkid = false
  esMain : s.es.buf.valid = true → s.es.buf.main.dsFlush = false
  esSkid : s.es.buf.skidValid = true → s.es.buf.skid.dsFlush = false
  ms : s.ms.buf.valid = true → MemStage.msFlush s.ms = false
  prev : s.csr.prevExceptionFlag = false

theorem unmarked_reset (s₀ : Cpu) : Unmarked s₀.reset :=
  { dsMain := fun _ => rfl
    dsSkid := fun _ => rfl
    esMain := fun _ => rfl
    esSkid := fun _ => rfl
    ms := fun _ => rfl
    prev := rfl }

/-- Without a trap before it `mret` does not redirect. -/
theorem Unmarked.not_exceptionFlag (h : Unmarked s) (ht : traps s i = false) :
    exceptionFlag s i = false := by
  rw [exceptionFlag, RegfileCsr.exceptionFlag, show (exceptionCode s i).getLsbD 5 = false from ht,
    RegfileCsr.mretJmpFlag, h.prev, Bool.and_false, Bool.false_or]

theorem Unmarked.not_squashed (h : Unmarked s) : squashed s = false := by
  cases hv : s.ms.buf.valid with
  | false => simp [squashed, passes, MemStage.msToWsValid, MemStage.msValid, hv]
  | true => simp [squashed, h.ms hv]

theorem unmarked_next (hc : Control s) (h : Unmarked s) (hbr : brRedirect cfg s i = false)
    (ht : traps s i = false) : Unmarked (next cfg s i) := by
  have hexc := h.not_exceptionFlag ht
  have hflush : pipeFlush cfg s i = false := by rw [pipeFlush, hexc, hbr, Bool.or_self]
  have hes := SkidBuffer.forall_next (w := esWires cfg s i) (x := esPayload cfg s i)
    (P := fun l : ExeStage.Payload => l.dsFlush = false) h.esMain h.esSkid (by
      intro hfire
      show dsFlush cfg s i = false
      rw [dsFlush_eq, hflush, h.dsMain (ds_valid_of_es_inFire hfire), Bool.or_self])
  refine { dsMain := ?_, dsSkid := ?_, esMain := hes.1, esSkid := hes.2, ms := ?_, prev := ?_ }
  -- decode, its skid entry, the memory stage, and the memory of a trap
  · intro _
    cases hcore : SkidBuffer.coreAllowin s.ds.buf (dsWires cfg s i) with
    | true =>
        rw [next_dsFlushR_moved hcore, hflush, Bool.or_false]
        cases hsk : s.ds.buf.skidValid with
        | false => rfl
        | true => rw [h.dsSkid hsk, Bool.and_false]
    | false =>
        rw [next_dsFlushR_stalled hcore, hflush, h.dsMain (SkidBuffer.valid_of_stalled hcore),
          Bool.or_self]
  · intro hsk
    rcases next_ds_skid hsk with ⟨hcore, hfrom⟩
    rw [next_dsFlushSkid_stalled hcore, hflush, Bool.or_false]
    cases hold : s.ds.buf.skidValid with
    | true => simpa using h.dsSkid hold
    | false =>
        rw [next_ds_buf, SkidBuffer.next_of_stalled hcore] at hsk
        have hfire : SkidBuffer.inFire s.ds.buf (dsWires cfg s i) = true := by
          simpa [hold, dsWires, IdStage.wires] using hsk
        simp [hfire]
  · intro hv
    rw [next_ms_valid hc] at hv
    rw [next_msFlush hc hv, h.esMain (esToMsValid_parts hv).1, hexc, Bool.or_self]
  · have ht' : (exceptionCode s i).getLsbD 5 = false := ht
    show (if (exceptionCode s i).getLsbD 5 then true
      else if RegfileCsr.mretFlag (exceptionCode s i) then false
      else s.csr.prevExceptionFlag) = false
    rw [ht', h.prev]
    simp

/-! ## Counting over a run -/

section Run

variable (cfg : Config) (s₀ : Cpu) (inp : Nat → CpuIn)

/-- In how many of the cycles before `t` a signal is high. -/
def countUpTo (p : Cpu → CpuIn → Bool) (t : Nat) : Nat :=
  Nat.count (fun k => p (run cfg s₀ inp k) (inp k) = true) t

theorem countUpTo_succ (p : Cpu → CpuIn → Bool) (t : Nat) :
    countUpTo cfg s₀ inp p (t + 1) =
      countUpTo cfg s₀ inp p t + if p (run cfg s₀ inp t) (inp t) then 1 else 0 :=
  Nat.count_succ _ t

theorem countUpTo_eq_zero {p : Cpu → CpuIn → Bool} {t : Nat}
    (h : ∀ k, k < t → p (run cfg s₀ inp k) (inp k) = false) : countUpTo cfg s₀ inp p t = 0 := by
  refine Nat.count_iff_forall_not.mpr ?_
  intro k hk
  simp [h k hk]

/-- A register that counts a signal from reset holds its count. -/
theorem counter_run {f : Cpu → Word} {p : Cpu → CpuIn → Bool} (hzero : f s₀.reset = 0#32)
    (hstep : ∀ s i, f (next cfg s i) = if p s i then f s + 1#32 else f s) (t : Nat) :
    f (run cfg s₀ inp t) = BitVec.ofNat 32 (countUpTo cfg s₀ inp p t) := by
  induction t with
  | zero => exact hzero
  | succ t ih =>
      have hnext : f (run cfg s₀ inp (t + 1)) = _ := hstep (run cfg s₀ inp t) (inp t)
      rw [hnext, ih, countUpTo_succ]
      cases p (run cfg s₀ inp t) (inp t) with
      | false => simp
      | true => simp [BitVec.ofNat_add]

/-- The instructions that have retired. -/
def retiredCount (t : Nat) : Nat := countUpTo cfg s₀ inp retired t

theorem passes_count (t : Nat) :
    countUpTo cfg s₀ inp (fun s _ => passes s) t =
      retiredCount cfg s₀ inp t + countUpTo cfg s₀ inp traps t +
        countUpTo cfg s₀ inp (fun s _ => squashed s) t := by
  induction t with
  | zero => rfl
  | succ t ih =>
      have hsplit := @passes_split (run cfg s₀ inp t) (inp t) (control_run cfg s₀ inp t)
      rw [retiredCount] at ih ⊢
      rw [countUpTo_succ, countUpTo_succ, countUpTo_succ, countUpTo_succ, ih, hsplit]
      omega

/-- The value read at `CSR_INSTRET`. -/
theorem instretRead_eq (t : Nat) :
    RegfileCsr.instretRead (run cfg s₀ inp t).csr =
      BitVec.ofNat 32 (countUpTo cfg s₀ inp (fun s _ => passes s) t) -
        BitVec.ofNat 32 (countUpTo cfg s₀ inp traps t) * 3#32 -
          BitVec.ofNat 32 (countUpTo cfg s₀ inp (brRedirect cfg) t) * 3#32 := by
  have hinst := counter_run cfg s₀ inp (f := fun s => s.csr.instret) (p := fun s _ => passes s) rfl
    (fun _ _ => rfl) t
  have hexc := counter_run cfg s₀ inp (f := fun s => s.csr.exceptionCnt) (p := traps) rfl
    (fun _ _ => rfl) t
  have hbr := counter_run cfg s₀ inp (f := fun s => s.csr.brCnt) (p := brRedirect cfg) rfl
    (fun _ _ => rfl) t
  rw [RegfileCsr.instretRead, hinst, hexc, hbr]

/-- It is right when the squashed instructions that have passed are two for each trap and three for
each redirect. -/
theorem instretRead_right_iff (t : Nat) :
    RegfileCsr.instretRead (run cfg s₀ inp t).csr =
        BitVec.ofNat 32 (retiredCount cfg s₀ inp t) ↔
      countUpTo cfg s₀ inp (fun s _ => squashed s) t % 2 ^ 32 =
        (2 * countUpTo cfg s₀ inp traps t + 3 * countUpTo cfg s₀ inp (brRedirect cfg) t) %
          2 ^ 32 := by
  rw [instretRead_eq, passes_count]
  generalize retiredCount cfg s₀ inp t = n
  generalize countUpTo cfg s₀ inp traps t = a
  generalize countUpTo cfg s₀ inp (fun s _ => squashed s) t = q
  generalize countUpTo cfg s₀ inp (brRedirect cfg) t = b
  rw [← BitVec.toNat_inj]
  simp only [BitVec.toNat_sub, BitVec.toNat_mul, BitVec.toNat_ofNat]
  omega

/-- Up to the first redirect or trap nothing is marked. -/
theorem unmarked_run {T : Nat}
    (h : ∀ t, t < T → brRedirect cfg (run cfg s₀ inp t) (inp t) = false ∧
      traps (run cfg s₀ inp t) (inp t) = false) :
    ∀ t, t ≤ T → Unmarked (run cfg s₀ inp t) := by
  intro t
  induction t with
  | zero => intro _; exact unmarked_reset s₀
  | succ t ih =>
      intro hle
      rcases h t hle with ⟨hbr, ht⟩
      exact unmarked_next (control_run cfg s₀ inp t) (ih (Nat.le_of_lt hle)) hbr ht

/-- Until then no squashed instruction has passed, and none passes in that cycle. -/
theorem squashed_count_eq_zero {T n : Nat} (hn : n ≤ T + 1)
    (h : ∀ t, t < T → brRedirect cfg (run cfg s₀ inp t) (inp t) = false ∧
      traps (run cfg s₀ inp t) (inp t) = false) :
    countUpTo cfg s₀ inp (fun s _ => squashed s) n = 0 := by
  refine countUpTo_eq_zero cfg s₀ inp (p := fun s _ => squashed s) ?_
  intro k hk
  have hkT : k ≤ T := Nat.le_of_lt_succ (Nat.lt_of_lt_of_le hk hn)
  exact (unmarked_run cfg s₀ inp h k hkT).not_squashed

/-- The instruction counter reads the number of retired instructions in every cycle up to `T` if and
only if nothing has redirected fetch and nothing has trapped before `T`. -/
theorem instret_counts_retired_iff (T : Nat) :
    (∀ t, t ≤ T → RegfileCsr.instretRead (run cfg s₀ inp t).csr =
      BitVec.ofNat 32 (retiredCount cfg s₀ inp t)) ↔
    ∀ t, t < T → brRedirect cfg (run cfg s₀ inp t) (inp t) = false ∧
      exceptionFlag (run cfg s₀ inp t) (inp t) = false := by
  constructor
  · intro hright
    -- the first of them is missed in the cycle after it
    have hnone : ∀ n, n ≤ T → ∀ t, t < n → brRedirect cfg (run cfg s₀ inp t) (inp t) = false ∧
        traps (run cfg s₀ inp t) (inp t) = false := by
      intro n
      induction n with
      | zero => intro _ t ht; omega
      | succ n ih =>
          intro hn t ht
          have hbefore := ih (Nat.le_of_lt hn)
          rcases Nat.lt_or_eq_of_le (Nat.le_of_lt_succ ht) with hlt | rfl
          · exact hbefore t hlt
          · have hiff := (instretRead_right_iff cfg s₀ inp (t + 1)).mp (hright (t + 1) hn)
            rw [squashed_count_eq_zero cfg s₀ inp (Nat.le_refl (t + 1)) hbefore, countUpTo_succ,
              countUpTo_succ,
              countUpTo_eq_zero cfg s₀ inp fun k hk => (hbefore k hk).1,
              countUpTo_eq_zero cfg s₀ inp fun k hk => (hbefore k hk).2] at hiff
            cases hbr : brRedirect cfg (run cfg s₀ inp t) (inp t) <;>
              cases htr : traps (run cfg s₀ inp t) (inp t) <;> simp [hbr, htr] at hiff ⊢
    intro t ht
    rcases hnone T (Nat.le_refl T) t ht with ⟨hbr, htr⟩
    have hun := unmarked_run cfg s₀ inp (hnone T (Nat.le_refl T)) t (Nat.le_of_lt ht)
    exact ⟨hbr, hun.not_exceptionFlag htr⟩
  · intro hquiet t ht
    have htraps : ∀ k, k < t → brRedirect cfg (run cfg s₀ inp k) (inp k) = false ∧
        traps (run cfg s₀ inp k) (inp k) = false := by
      intro k hk
      rcases hquiet k (Nat.lt_of_lt_of_le hk ht) with ⟨hbr, hexc⟩
      rw [exceptionFlag, RegfileCsr.exceptionFlag, Bool.or_eq_false_iff] at hexc
      exact ⟨hbr, hexc.1⟩
    rw [instretRead_right_iff, squashed_count_eq_zero cfg s₀ inp (Nat.le_succ t) htraps,
      countUpTo_eq_zero cfg s₀ inp fun k hk => (htraps k hk).1,
      countUpTo_eq_zero cfg s₀ inp fun k hk => (htraps k hk).2]

end Run

/-- Inputs in which fetch reads `jal x0, 8` first and `nop` from then on. -/
def jumpFirst (n : Nat) : CpuIn :=
  { imemRdata := if n = 2 then 0x0080006f#32 else 0x00000013#32
    dmemRdata := 0#32
    plicIrq := false }

/-- One squashed instruction passes for the jump, three are taken off. -/
theorem instret_not_always_retired :
    ¬ ∀ (cfg : Config) (s₀ : Cpu) (inp : Nat → CpuIn) (t : Nat),
      RegfileCsr.instretRead (run cfg s₀ inp t).csr =
        BitVec.ofNat 32 (retiredCount cfg s₀ inp t) := by
  intro h
  have hright := h plainBuild zero jumpFirst 12
  revert hright
  decide +kernel

end Cpu
end RiscvCpu
