import RiscvCpu.Refine.Retire
import RiscvCpu.Progress.Unit

/-!
# Pipeline — the pipeline never stops

`wait` bounds the cycles until the next live instruction enters the memory stage: what the
multiply/divide unit still needs for the instruction in execute, or else how far fetch or decode is
from execute.  Every edge that brings no live instruction to the memory stage lowers it.  Instruction
words, load data and interrupt levels are arbitrary, so no input can block the core.
-/

namespace RiscvCpu

open Decode

namespace Cpu

/-- The cycles for which the instruction in execute may still stall. -/
def esWait (s : Cpu) : Nat :=
  if s.es.buf.main.bus.ctrl.isMul then
    Mul.unitWait s.es.buf.main.bus.mul.mulOp s.es.mul s.es.divider
  else 0

/-- A bound on the edges that bring no live instruction to the memory stage. -/
def wait (s : Cpu) : Nat :=
  if liveEs s then esWait s
  else if liveDs s then 26
  else if liveDsSkid s then 27
  -- the next instruction is still to be fetched
  else if s.fs.reqValid then (if s.ds.buf.allowin then 28 else 29)
  else if s.fs.ifActive then 30
  else 31

variable {cfg : Config} {s : Cpu} {i : CpuIn}

/-! ## The unit in the core -/

theorem unitPhase_run (cfg : Config) (s₀ : Cpu) (inp : Nat → CpuIn) (n : Nat) :
    Mul.UnitPhase (run cfg s₀ inp n).es.mul (run cfg s₀ inp n).es.divider := by
  induction n with
  | zero => exact Mul.unitPhase_reset s₀.es.mul
  | succ n ih => exact Mul.unitPhase_next ih _

theorem isMulticycleInst_of_isMulInst {x : Word} (h : isMulInst x = true) :
    isMulticycleInst x = true := by
  simp only [isMulInst, isMulticycleInst, Bool.or_eq_true] at h ⊢
  tauto

/-- An operation that stalls in execute comes nearer to its end. -/
theorem esWait_next (hc : Control s) (hu : Mul.UnitPhase s.es.mul s.es.divider)
    (hcore : SkidBuffer.coreAllowin s.es.buf (esWires cfg s i) = false) :
    esWait (next cfg s i) < esWait s := by
  rcases es_stalled hcore hc with ⟨-, -, -, hmul, hready⟩
  rcases hc.esMain with ⟨x, hx⟩
  have hctrl := hx.decoded.ctrl
  have hinst : isMulInst x = true := by
    rw [hctrl] at hmul
    exact hmul
  have hmain : (next cfg s i).es.buf.main = s.es.buf.main := by
    rw [next_es_buf, SkidBuffer.next_of_stalled hcore]
  have hstall : Mul.mulStall s.es.mul (ExeStage.mulPorts s.es (exePorts cfg s i)) = true := by
    simpa [esReadyGo, ExeStage.esReadyGo, ExeStage.fpuStall, ExeStage.mulStall] using hready
  have hcycle : s.es.buf.main.bus.ctrl.isMulticycle = true := by
    rw [hctrl]
    exact isMulticycleInst_of_isMulInst hinst
  have hop : s.es.buf.main.bus.mul.mulOp = (mulPacket x).mulOp := by rw [hx.decoded.mul]
  have hless := Mul.unitWait_next hu (operation_of_isMulInst hinst) hop hcycle hstall
  simp only [esWait, hmain, hmul, if_true, hop]
  exact hless

theorem esWait_le (hu : Mul.UnitPhase s.es.mul s.es.divider) : esWait s ≤ 25 := by
  rw [esWait]
  split
  · exact Mul.unitWait_le _ hu
  · exact Nat.zero_le 25

/-! ## The wait goes down -/

theorem wait_le (hu : Mul.UnitPhase s.es.mul s.es.divider) : wait s ≤ 31 := by
  have hes := esWait_le hu
  rw [wait]
  repeat' split
  all_goals omega

theorem wait_le_of_liveEs (hu : Mul.UnitPhase s.es.mul s.es.divider) (h : liveEs s = true) :
    wait s ≤ 25 := by
  rw [wait, if_pos h]
  exact esWait_le hu

theorem wait_le_of_liveDs (hu : Mul.UnitPhase s.es.mul s.es.divider) (h : liveDs s = true) :
    wait s ≤ 26 := by
  have hes := esWait_le hu
  rw [wait, h]
  repeat' split
  all_goals first | omega | contradiction

theorem wait_le_of_reqValid (hu : Mul.UnitPhase s.es.mul s.es.divider)
    (h : s.fs.reqValid = true) : wait s ≤ if s.ds.buf.allowin then 28 else 29 := by
  have hes := esWait_le hu
  rw [wait, h]
  repeat' split
  all_goals first | omega | contradiction

theorem wait_le_of_ifActive (hu : Mul.UnitPhase s.es.mul s.es.divider)
    (h : s.fs.ifActive = true) : wait s ≤ 30 := by
  have hes := esWait_le hu
  rw [wait, h]
  repeat' split
  all_goals first | omega | contradiction

/-- No edge that leaves the memory stage without a live instruction redirects fetch. -/
theorem pipeFlush_of_not_liveMs (hc : Control s) (hexc : exceptionFlag s i = false)
    (hnone : liveMs (next cfg s i) = false) : pipeFlush cfg s i = false := by
  rw [pipeFlush, hexc, Bool.false_or]
  cases hbr : brRedirect cfg s i with
  | false => rfl
  | true =>
      rcases esMoves_of_brRedirect hc hbr with ⟨hlive, -, hmove⟩
      rw [next_liveMs hc hlive hexc hmove] at hnone
      cases hnone

/-- What decode holds after an edge on which it moves. -/
theorem next_liveDs_of_moved (hflush : pipeFlush cfg s i = false)
    (hcore : SkidBuffer.coreAllowin s.ds.buf (dsWires cfg s i) = true) :
    liveDs (next cfg s i) =
      if s.ds.buf.skidValid then !s.ds.dsFlushSkid else s.fs.reqValid && s.ds.buf.allowin := by
  rw [liveDs, next_ds_buf, SkidBuffer.next_of_moved hcore, next_dsFlushR_moved hcore, hflush,
    ds_inFire, hflush]
  cases s.ds.buf.skidValid <;> simp

/-- A live instruction in execute leaves it or has less left to wait. -/
theorem wait_next_of_liveEs (hc : Control s) (hu : Mul.UnitPhase s.es.mul s.es.divider)
    (hlive : liveEs s = true) (hexc : exceptionFlag s i = false)
    (hnone : liveMs (next cfg s i) = false) : wait (next cfg s i) < wait s := by
  have hstay : (liveEs s && esToMsValid cfg s i) = false := by
    rw [hlive, Bool.true_and]
    cases hmove : esToMsValid cfg s i with
    | false => rfl
    | true =>
        rw [next_liveMs hc hlive hexc hmove] at hnone
        cases hnone
  have hcore := stalled_of_staying hc hlive hstay
  have hsame : liveEs (next cfg s i) = true := by
    rw [liveEs, next_es_buf, SkidBuffer.next_of_stalled hcore]
    simpa using (liveEs_parts hlive).2
  rw [wait, wait, if_pos hsame, if_pos hlive]
  exact esWait_next hc hu hcore

/-- Without one, decode or fetch comes nearer to it. -/
theorem wait_next_of_not_liveEs (hc : Control s) (hu : Mul.UnitPhase s.es.mul s.es.divider)
    (hlive : liveEs s = false) (hflush : pipeFlush cfg s i = false) :
    wait (next cfg s i) < wait s := by
  have hu' : Mul.UnitPhase (next cfg s i).es.mul (next cfg s i).es.divider :=
    Mul.unitPhase_next hu _
  have hcore := (@ds_moves cfg s i hc hlive).1
  have hdecode := next_liveDs_of_moved hflush hcore
  cases hds : liveDs s with
  | true =>
      have hes : liveEs (next cfg s i) = true := by rw [next_liveEs hc hlive hflush, hds]
      have hle := wait_le_of_liveEs hu' hes
      have hbefore : wait s = 26 := by simp [wait, hlive, hds]
      omega
  | false =>
      cases hskid : liveDsSkid s with
      | true =>
          -- the parked instruction moves up
          obtain ⟨hsk, hmark⟩ : s.ds.buf.skidValid = true ∧ s.ds.dsFlushSkid = false := by
            simpa [liveDsSkid] using hskid
          have hle := wait_le_of_liveDs hu' (by rw [hdecode, hsk, hmark]; rfl)
          have hbefore : wait s = 27 := by simp [wait, hlive, hds, hskid]
          omega
      | false =>
          cases hreq : s.fs.reqValid with
          | true =>
              cases hallow : s.ds.buf.allowin with
              | true =>
                  -- decode takes the response
                  have hsk : s.ds.buf.skidValid = false := by
                    cases hsk : s.ds.buf.skidValid with
                    | false => rfl
                    | true => rw [hc.dsWf.stopped hsk] at hallow; cases hallow
                  have hle := wait_le_of_liveDs hu' (by rw [hdecode, hsk, hreq, hallow]; rfl)
                  have hbefore : wait s = 28 := by simp [wait, hlive, hds, hskid, hreq, hallow]
                  omega
              | false =>
                  -- decode gets rid of a squashed instruction first
                  have hroom : (next cfg s i).ds.buf.allowin = true := by
                    rw [next_ds_buf, SkidBuffer.next_of_moved hcore]
                  have hle := wait_le_of_reqValid hu' (next_reqValid hc hreq hflush)
                  rw [if_pos hroom] at hle
                  have hbefore : wait s = 29 := by simp [wait, hlive, hds, hskid, hreq, hallow]
                  omega
          | false =>
              have hred : IfStage.redirectNow (ifPorts cfg s i) = false := hflush
              cases hactive : s.fs.ifActive with
              | true =>
                  have hnext : (next cfg s i).fs.reqValid = true := by
                    simp [next, IfStage.next, hred, IfStage.requestFire, hactive, hreq]
                  have hle := wait_le_of_reqValid hu' hnext
                  have hbefore : wait s = 30 := by simp [wait, hlive, hds, hskid, hreq, hactive]
                  split at hle <;> omega
              | false =>
                  have hle := wait_le_of_ifActive hu' (show (next cfg s i).fs.ifActive = true from rfl)
                  have hbefore : wait s = 31 := by simp [wait, hlive, hds, hskid, hreq, hactive]
                  omega

theorem wait_next (hc : Control s) (hu : Mul.UnitPhase s.es.mul s.es.divider)
    (hexc : exceptionFlag s i = false) (hnone : liveMs (next cfg s i) = false) :
    wait (next cfg s i) < wait s := by
  cases hlive : liveEs s with
  | true => exact wait_next_of_liveEs hc hu hlive hexc hnone
  | false => exact wait_next_of_not_liveEs hc hu hlive (pipeFlush_of_not_liveMs hc hexc hnone)

/-! ## Runs -/

section Run

variable (cfg : Config) (s₀ : Cpu) (inp : Nat → CpuIn)

/-- From a cycle without a live instruction in the memory stage, the next one is there after at most 32
cycles. -/
theorem liveMs_within_of_not {t : Nat} (h : liveMs (run cfg s₀ inp t) = false) :
    ∃ u, t < u ∧ u ≤ t + 32 ∧ liveMs (run cfg s₀ inp u) = true ∧
      ∀ v, t < v → v < u → liveMs (run cfg s₀ inp v) = false := by
  have hstep : ∀ v, t ≤ v → (∀ u, t < u → u ≤ v → ¬ liveMs (run cfg s₀ inp u) = true) →
      liveMs (run cfg s₀ inp (v + 1)) = true ∨
        wait (run cfg s₀ inp (v + 1)) < wait (run cfg s₀ inp v) := by
    intro v htv hmiss
    have hdead : liveMs (run cfg s₀ inp v) = false := by
      rcases Nat.lt_or_eq_of_le htv with hlt | heq
      · simpa using hmiss v hlt (Nat.le_refl v)
      · rw [← heq]
        exact h
    cases hnext : liveMs (run cfg s₀ inp (v + 1)) with
    | true => exact Or.inl rfl
    | false =>
        exact Or.inr (wait_next (control_run cfg s₀ inp v) (unitPhase_run cfg s₀ inp v)
          (exceptionFlag_of_not_liveMs cfg s₀ inp hdead) hnext)
  have hle := wait_le (unitPhase_run cfg s₀ inp t)
  rcases @Clocked.within_of_rank (fun u => liveMs (run cfg s₀ inp u) = true)
    (fun u => wait (run cfg s₀ inp u)) t hstep with ⟨u, htu, hu, hlive, hfirst⟩
  exact ⟨u, htu, by omega, hlive, fun v htv hvu => by simpa using hfirst v htv hvu⟩

/-- In every window of 33 cycles a live instruction reaches the memory stage. -/
theorem liveMs_within (t : Nat) :
    ∃ u, t < u ∧ u ≤ t + 33 ∧ liveMs (run cfg s₀ inp u) = true ∧
      ∀ v, t < v → v < u → liveMs (run cfg s₀ inp v) = false := by
  cases hnext : liveMs (run cfg s₀ inp (t + 1)) with
  | true => exact ⟨t + 1, Nat.lt_succ_self t, by omega, hnext, fun v htv hvu => by omega⟩
  | false =>
      rcases liveMs_within_of_not cfg s₀ inp hnext with ⟨u, htu, hu, hlive, hfirst⟩
      refine ⟨u, Nat.lt_of_succ_lt htu, by omega, hlive, fun v htv hvu => ?_⟩
      rcases Nat.lt_or_eq_of_le (Nat.succ_le_of_lt htv) with hlt | heq
      · exact hfirst v hlt hvu
      · rw [← heq]
        exact hnext

/-- The number of live instructions that have reached the memory stage by cycle `t`. -/
def arrivals : Nat → Nat
  | 0 => 0
  | t + 1 => arrivals t + if liveMs (run cfg s₀ inp (t + 1)) then 1 else 0

theorem arrivals_mono {t u : Nat} (h : t ≤ u) :
    arrivals cfg s₀ inp t ≤ arrivals cfg s₀ inp u := by
  induction h with
  | refl => exact Nat.le_refl _
  | @step u _ ih => exact Nat.le_trans ih (Nat.le_add_right _ _)

theorem arrivals_window (t : Nat) : arrivals cfg s₀ inp t + 1 ≤ arrivals cfg s₀ inp (t + 33) := by
  rcases liveMs_within cfg s₀ inp t with ⟨u, hlt, hle, hlive, -⟩
  obtain ⟨v, rfl⟩ : ∃ v, u = v + 1 := ⟨u - 1, by omega⟩
  have hbefore := arrivals_mono cfg s₀ inp (show t ≤ v by omega)
  have hafter := arrivals_mono cfg s₀ inp hle
  rw [arrivals, if_pos hlive] at hafter
  omega

/-- Whatever the core reads, every 33 cycles bring one more instruction to the memory stage. -/
theorem arrivals_rate (t n : Nat) :
    arrivals cfg s₀ inp t + n ≤ arrivals cfg s₀ inp (t + 33 * n) :=
  Clocked.count_of_windows (arrivals_window cfg s₀ inp) t n

end Run

end Cpu
end RiscvCpu
