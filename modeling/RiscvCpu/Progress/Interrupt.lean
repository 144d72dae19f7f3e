import RiscvCpu.Pipeline.Trap
import RiscvCpu.Progress.Pipeline

/-!
# Interrupt — an enabled interrupt is taken in bounded time

While the memory stage holds no live instruction nothing can disable interrupts: the CSR file changes
only under a bubble that still shows `mret`, which copies MPIE, and MPIE is set by then.  So the first
live instruction to arrive traps, and the handler is in the memory stage within 33 cycles of that.
-/

namespace RiscvCpu

open Decode

namespace Cpu

variable {cfg : Config} {s : Cpu} {i : CpuIn} {x : Word}

/-! ## Under a bubble -/

/-- A bubble behind `mret` keeps showing it, with MPIE set. -/
def MretBubble (s : Cpu) : Prop :=
  s.ms.buf.valid = false → MemStage.msFlush s.ms = false → MemStage.excCode s.ms = Exc.MRET →
    RegfileCsr.mpieBit s.csr.file.mstatus = true

theorem mpieBit_mret (f : RegfileCsr.File) : RegfileCsr.mpieBit f.mret.mstatus = true := by
  rw [RegfileCsr.mpieBit, mret_mstatus_getLsbD]
  rfl

/-- `mret` writes no CSR through the port. -/
theorem csrWe_of_mret (hc : Control s) (hcode : MemStage.excCode s.ms = Exc.MRET)
    (hlive : MemStage.msFlush s.ms = false) : csrWe s i = false := by
  rcases hc.msMain with ⟨x, hx⟩
  have hsys : sysCode x = Exc.MRET := by
    rcases hx.excCode with heq | ⟨hflush, -⟩
    · rw [← heq]
      exact hcode
    · have hlive' : s.ms.buf.main.esFlush = false := hlive
      rw [hlive'] at hflush
      cases hflush
  have hno : csrWen x = false := by
    cases hw : csrWen x with
    | false => rfl
    | true =>
        rw [sysCode_of_csrWen hw] at hsys
        cases hsys
  have hport : (MemStage.bus s.ms).csrWen = false := by
    show s.ms.buf.main.bus.csrWen = false
    rw [hx.csrWen, hno, Bool.false_and]
  simp [csrWe, MemStage.csrWe, hport]

/-- A system instruction that is followed by a bubble raises the code of decode. -/
theorem exceptionCode_of_next_bubble (hc : Control s) (hv : (next cfg s i).ms.buf.valid = false)
    (hlive : MemStage.msFlush s.ms = false) (hsys : MemStage.excCode s.ms ≠ 0#7) :
    exceptionCode s i = MemStage.excCode s.ms := by
  cases hmv : s.ms.buf.valid with
  | false => exact exceptionCode_of_bubble hmv hlive
  | true =>
      rcases @exceptionCode_cases s i hlive with h5 | heq
      · -- a trap would have let its successor go on
        rw [next_ms_valid hc] at hv
        have hexc : exceptionFlag s i = true := by
          rw [exceptionFlag, RegfileCsr.exceptionFlag, h5, Bool.true_or]
        have hev := hc.msFollowed hmv hlive hsys
        have hready : esReadyGo cfg s i = true :=
          esReadyGo_of_moves hc hev (es_moves_of_flush hc (Or.inr hexc))
        rw [esToMsValid_eq, hev, hready] at hv
        cases hv
      · exact heq

theorem mretBubble_next (hc : Control s) : MretBubble (next cfg s i) := by
  intro hv hlive hcode
  have hmove : esToMsValid cfg s i = false := by rw [← next_ms_valid hc, hv]
  have hmain : (next cfg s i).ms.buf.main = s.ms.buf.main := by
    rw [next_ms_main hc, hmove]
    rfl
  rw [MemStage.msFlush, hmain] at hlive
  rw [MemStage.excCode, hmain] at hcode
  have hmret : exceptionCode s i = Exc.MRET := by
    rw [← hcode]
    apply exceptionCode_of_next_bubble hc hv hlive
    rw [MemStage.excCode, hcode]
    decide
  rw [mret_file (csrWe_of_mret hc hcode hlive) hmret]
  exact mpieBit_mret _

theorem mretBubble_run (cfg : Config) (s₀ : Cpu) (inp : Nat → CpuIn) (n : Nat) :
    MretBubble (run cfg s₀ inp n) := by
  cases n with
  | zero => intro _ _ hcode; cases hcode
  | succ n => exact mretBubble_next (control_run cfg s₀ inp n)

/-- Without a live instruction in the memory stage, enabled interrupts stay enabled. -/
theorem externalIrqEnable_next (hc : Control s) (hb : MretBubble s) (hdead : liveMs s = false)
    (hen : RegfileCsr.externalIrqEnable s.csr = true) :
    RegfileCsr.externalIrqEnable (next cfg s i).csr = true := by
  have hwe : csrWe s i = false := by
    rw [liveMs, Bool.and_eq_false_iff] at hdead
    rcases hdead with hv | hf
    · simp [csrWe, MemStage.csrWe, MemStage.msValid, hv]
    · have hf' : MemStage.msFlush s.ms = true := by simpa using hf
      simp [csrWe, MemStage.csrWe, hf']
  have hcases : exceptionCode s i = 0#7 ∨
      (exceptionCode s i = Exc.MRET ∧ RegfileCsr.mpieBit s.csr.file.mstatus = true) := by
    cases hf : MemStage.msFlush s.ms with
    | true => exact Or.inl (exceptionCode_of_msFlush hf)
    | false =>
        have hv : s.ms.buf.valid = false := by simpa [liveMs, hf] using hdead
        rw [exceptionCode_of_bubble hv hf]
        rcases hc.msBubble hv with hflush | hzero | ⟨hmret, -⟩
        · rw [hf] at hflush
          cases hflush
        · exact Or.inl hzero
        · exact Or.inr ⟨hmret, hb hv hf hmret⟩
  rcases hcases with hzero | ⟨hmret, hmpie⟩
  · have hfile : (next cfg s i).csr.file = s.csr.file := by
      simp [next, RegfileCsr.next, RegfileCsr.fileNext, csrPorts, hwe, hzero,
        RegfileCsr.mretFlag, Exc.MRET]
    rw [RegfileCsr.externalIrqEnable, hfile]
    exact hen
  · -- MIE takes MPIE
    rw [RegfileCsr.externalIrqEnable, mret_file hwe hmret, RegfileCsr.mieBit, mret_mstatus_getLsbD]
    rw [RegfileCsr.externalIrqEnable, Bool.and_eq_true] at hen
    simp only [if_true, Bool.and_eq_true]
    exact ⟨hmpie, hen.2⟩

/-! ## The trap -/

/-- A live instruction under a pending, enabled interrupt traps: on its own exception, or on the
interrupt. -/
theorem traps_of_irqPending (hlive : liveMs s = true) (hirq : irqPending s i = true) :
    (exceptionCode s i).getLsbD 5 = true ∧
      (MemStage.syncException s.ms = false → exceptionCode s i = Exc.PLIC_IRQ_BIT) := by
  have hfl := (liveMs_parts hlive).2
  have htake := takeIrq_of_live (i := i) hlive
  rw [hirq, Bool.and_true] at htake
  simp only [takeIrq] at htake
  cases hsync : MemStage.syncException s.ms with
  | false =>
      have hcode : exceptionCode s i = Exc.PLIC_IRQ_BIT := by
        rw [hsync] at htake
        simp only [MemStage.syncException, Bool.or_eq_false_iff] at hsync
        simp only [exceptionCode, MemStage.exceptionCode, hfl, hsync, htake, Bool.false_eq_true,
          if_false, Bool.not_false, if_true]
      rw [hcode]
      exact ⟨rfl, fun _ => rfl⟩
  | true =>
      refine ⟨?_, fun h => by cases h⟩
      rw [hsync] at htake
      simp only [exceptionCode, MemStage.exceptionCode, hfl, htake]
      simp only [MemStage.syncException, Bool.or_eq_true] at hsync
      rcases hsync with ((h | h) | h) | h
      · simp [h, Exc.IAM]
      · cases MemStage.exceptionIam s.ms <;> simp [h, Exc.IAM, Exc.LAM]
      · cases MemStage.exceptionIam s.ms <;> cases MemStage.exceptionLam s.ms <;>
          simp [h, Exc.IAM, Exc.LAM, Exc.SAM]
      · cases MemStage.exceptionIam s.ms <;> cases MemStage.exceptionLam s.ms <;>
          cases MemStage.exceptionSam s.ms <;> simp [h, Exc.IAM, Exc.LAM, Exc.SAM]

/-- The CSR file takes in a trap, and fetch goes to `mtvec`. -/
theorem trap_of_code (h5 : (exceptionCode s i).getLsbD 5 = true) :
    exceptionFlag s i = true ∧ exceptionAddr s i = s.csr.file.mtvec ∧
      (next cfg s i).csr.file =
        s.csr.file.trap (exceptionCode s i) s.ms.buf.main.bus.pc (exceptionMtval s i) := by
  have hmret : RegfileCsr.mretFlag (exceptionCode s i) = false := by
    cases hm : RegfileCsr.mretFlag (exceptionCode s i) with
    | false => rfl
    | true =>
        rw [RegfileCsr.mretFlag, beq_iff_eq] at hm
        rw [hm] at h5
        cases h5
  have hwe : csrWe s i = false := by
    simp [csrWe, MemStage.csrWe, h5]
  refine ⟨by rw [exceptionFlag, RegfileCsr.exceptionFlag, h5, Bool.true_or], ?_, ?_⟩
  · simp [exceptionAddr, RegfileCsr.exceptionAddr, RegfileCsr.mretJmpFlag, hmret]
  · simp only [next, RegfileCsr.next, RegfileCsr.fileNext, csrPorts, hwe, h5, MemStage.csrWdata,
      Bool.false_eq_true, if_false, if_true]
    rfl

/-! ## Runs -/

section Run

variable (cfg : Config) (s₀ : Cpu) (inp : Nat → CpuIn)

/-- The first live instruction from cycle `t` on. -/
theorem first_liveMs (t : Nat) :
    ∃ u, t ≤ u ∧ u ≤ t + 32 ∧ liveMs (run cfg s₀ inp u) = true ∧
      ∀ v, t ≤ v → v < u → liveMs (run cfg s₀ inp v) = false := by
  cases hnow : liveMs (run cfg s₀ inp t) with
  | true => exact ⟨t, Nat.le_refl t, by omega, hnow, fun v htv hvt => by omega⟩
  | false =>
      rcases liveMs_within_of_not cfg s₀ inp hnow with ⟨u, htu, hu, hlive, hfirst⟩
      refine ⟨u, Nat.le_of_lt htu, hu, hlive, fun v htv hvu => ?_⟩
      rcases Nat.lt_or_eq_of_le htv with hlt | rfl
      · exact hfirst v hlt hvu
      · exact hnow

theorem externalIrqEnable_until {t u : Nat} (htu : t ≤ u)
    (hdead : ∀ v, t ≤ v → v < u → liveMs (run cfg s₀ inp v) = false)
    (hen : RegfileCsr.externalIrqEnable (run cfg s₀ inp t).csr = true) :
    RegfileCsr.externalIrqEnable (run cfg s₀ inp u).csr = true := by
  induction htu with
  | refl => exact hen
  | @step u htu ih =>
      exact externalIrqEnable_next (control_run cfg s₀ inp u) (mretBubble_run cfg s₀ inp u)
        (hdead u htu (Nat.lt_succ_self u)) (ih fun v htv hvu => hdead v htv (by omega))

/-- In cycle `u` the live instruction in the memory stage traps, on the interrupt unless it has an
exception of its own, and the next live instruction to arrive, at most 33 cycles later, is that at
`mtvec`. -/
structure TakesInterrupt (u : Nat) : Prop where
  live : liveMs (run cfg s₀ inp u) = true
  file : (run cfg s₀ inp (u + 1)).csr.file =
    (run cfg s₀ inp u).csr.file.trap (exceptionCode (run cfg s₀ inp u) (inp u))
      (run cfg s₀ inp u).ms.buf.main.bus.pc (exceptionMtval (run cfg s₀ inp u) (inp u))
  code : MemStage.syncException (run cfg s₀ inp u).ms = false →
    exceptionCode (run cfg s₀ inp u) (inp u) = Exc.PLIC_IRQ_BIT
  handler : ∃ n, u < n ∧ n ≤ u + 33 ∧ liveMs (run cfg s₀ inp n) = true ∧
    (∀ k, u < k → k < n → liveMs (run cfg s₀ inp k) = false) ∧
    (run cfg s₀ inp n).ms.buf.main.bus.pc = (run cfg s₀ inp u).csr.file.mtvec

theorem takesInterrupt_of_irqPending {u : Nat} (hlive : liveMs (run cfg s₀ inp u) = true)
    (hpending : irqPending (run cfg s₀ inp u) (inp u) = true) : TakesInterrupt cfg s₀ inp u := by
  rcases traps_of_irqPending hlive hpending with ⟨h5, hcode⟩
  obtain ⟨hflag, haddr, hfile⟩ := @trap_of_code cfg _ _ h5
  rcases liveMs_within cfg s₀ inp u with ⟨n, hun, hn, hnlive, hquiet⟩
  refine { live := hlive, file := hfile, code := hcode, handler := ⟨n, hun, hn, hnlive, hquiet, ?_⟩ }
  rw [next_live_after_exception cfg s₀ inp hun hflag hquiet hnlive]
  exact haddr

/-- Between `t` and `u` nothing live is in the memory stage, so interrupts stay enabled. -/
theorem takesInterrupt_of_enabled {t u : Nat} (htu : t ≤ u)
    (hdead : ∀ v, t ≤ v → v < u → liveMs (run cfg s₀ inp v) = false)
    (hlive : liveMs (run cfg s₀ inp u) = true)
    (hen : RegfileCsr.externalIrqEnable (run cfg s₀ inp t).csr = true)
    (hirq : (inp u).plicIrq = true) : TakesInterrupt cfg s₀ inp u := by
  apply takesInterrupt_of_irqPending cfg s₀ inp hlive
  rw [irqPending, hirq, externalIrqEnable_until cfg s₀ inp htu hdead hen]
  rfl

/-- An interrupt that is enabled in cycle `t` and stays pending is taken by the first instruction that
reaches the memory stage, after at most 32 cycles and before anything else has an effect there, and
the next instruction after it is the handler's, at most 33 cycles later. -/
theorem interrupt_within {t : Nat}
    (hen : RegfileCsr.externalIrqEnable (run cfg s₀ inp t).csr = true)
    (hirq : ∀ u, t ≤ u → u ≤ t + 32 → (inp u).plicIrq = true) :
    ∃ u, t ≤ u ∧ u ≤ t + 32 ∧
      (∀ v, t ≤ v → v < u → liveMs (run cfg s₀ inp v) = false) ∧ TakesInterrupt cfg s₀ inp u := by
  rcases first_liveMs cfg s₀ inp t with ⟨u, htu, hu, hlive, hdead⟩
  exact ⟨u, htu, hu, hdead,
    takesInterrupt_of_enabled cfg s₀ inp htu hdead hlive hen (hirq u htu hu)⟩

end Run

/-- Inputs in which fetch reads `addi x1, x0, -1`, `csrw mie, x1` and `csrw mstatus, x1` first, with the
interrupt pending from the start. -/
def enableFirst (n : Nat) : CpuIn :=
  { imemRdata :=
      if n = 2 then 0xfff00093#32
      else if n = 3 then 0x30409073#32
      else if n = 4 then 0x30009073#32
      else 0x00000013#32
    dmemRdata := 0#32
    plicIrq := true }

/-- Interrupts are enabled in cycle 8, so some trap sends the core to `mtvec` by cycle 73. -/
theorem interrupt_within_enableFirst :
    ∃ u n, 8 ≤ u ∧ u < n ∧ n ≤ 73 ∧ liveMs (run plainBuild zero enableFirst n) = true ∧
      (run plainBuild zero enableFirst n).ms.buf.main.bus.pc =
        (run plainBuild zero enableFirst u).csr.file.mtvec := by
  rcases @interrupt_within plainBuild zero enableFirst 8 (by decide +kernel) fun _ _ _ => rfl with
    ⟨u, htu, hu, -, htakes⟩
  rcases htakes.handler with ⟨n, hun, hn, hlive, -, hpc⟩
  exact ⟨u, n, htu, hun, by omega, hlive, hpc⟩

end Cpu
end RiscvCpu
