import RiscvCpu.Devices.Arbiter
import RiscvCpu.Devices.Pending
import RiscvCpu.Progress.Interrupt
import RiscvCpu.Soc.System
import RiscvCpu.Stack.Alias

/-!
# Delivery — from an interrupt line of the chip to the handler

An input of the interrupt controller that is enabled, above the threshold and out of service is pending
one cycle later and on the line to the core two cycles later.  It stays there until a program reaches for
the controller, and so the core takes it in bounded time.
-/

namespace RiscvCpu

namespace Plic

variable {r : Regs} {p : In} {i : BitVec 5}

theorem valid_of_mayInterrupt (h : MayInterrupt r i) : (claimNext r).valid = true := by
  have hlt := (r.priorityRegs i).isLt
  have hpos : 0 < (r.priorityRegs i).toNat := Nat.lt_of_le_of_lt (Nat.zero_le _) h.above
  rcases @search_downFrom r (buckets r) ⟨false, 0#5⟩ rfl 7 with ⟨q, -, -, -, -, hfold⟩ | ⟨hnone, -⟩
  · exact congrArg Claim.valid hfold
  · exact absurd h.isOpen.2 (hnone _ hpos (by omega))

/-- Source `i` is enabled, above the threshold and not in service. -/
structure Armed (r : Regs) (i : BitVec 5) : Prop where
  source : i ≠ 0#5
  enabled : r.enableRegs.getLsbD i.toNat = true
  waiting : r.inServiceRegs.getLsbD i.toNat = false
  above : r.thresholdReg < r.priorityRegs i

/-! ## While the bus leaves the controller alone -/

theorem claimed_none (h : p.plicSel = false) : claimed r p = none := by
  simp [claimed, claimRead, h]

theorem armed_next (hsel : p.plicSel = false) (h : Armed r i) : Armed (next r p) i := by
  have henable : (next r p).enableRegs = r.enableRegs := by simp [next, hsel]
  have hthreshold : (next r p).thresholdReg = r.thresholdReg := by simp [next, hsel]
  have hpriority : (next r p).priorityRegs = r.priorityRegs := by simp [next, hsel]
  refine { source := h.source, enabled := ?_, waiting := ?_, above := ?_ }
  · rw [henable]
    exact h.enabled
  · rw [next_inService, h.waiting, claimed_none hsel]
    rfl
  · rw [hthreshold, hpriority]
    exact h.above

/-- An armed source is latched from its input, and then stays. -/
theorem mayInterrupt_next (hsel : p.plicSel = false) (h : Armed r i)
    (hline : r.pendingRegs.getLsbD i.toNat = true ∨ p.peripheralInterrupts.getLsbD i.toNat = true) :
    MayInterrupt (next r p) i := by
  have harmed := armed_next hsel h
  refine
    { source := h.source
      pending := ?_
      enabled := harmed.enabled
      waiting := harmed.waiting
      above := harmed.above }
  rw [next_pending, claimed_none hsel, h.waiting]
  rcases hline with hpend | hline
  · simp [hpend, h.source]
  · simp [hline, h.source]

theorem armed_of_mayInterrupt (h : MayInterrupt r i) : Armed r i :=
  { source := h.source, enabled := h.enabled, waiting := h.waiting, above := h.above }

end Plic

namespace MyCpu

section Run

variable (cfg : Config) (mem : InstRam.Mem) (s₀ : MyCpu) (pins : Nat → Pins)

/-- The inputs of the interrupt controller in cycle `k`. -/
def plicIn (k : Nat) : Plic.In :=
  Soc.plicIn (run cfg mem s₀ pins k).soc (socIn cfg (run cfg mem s₀ pins k) (pins k))

theorem plic_next (k : Nat) :
    (run cfg mem s₀ pins (k + 1)).soc.plic =
      Plic.next (run cfg mem s₀ pins k).soc.plic (plicIn cfg mem s₀ pins k) := rfl

variable {cfg mem s₀ pins}

/-- Once its input has been high, an armed source may interrupt for as long as the bus leaves the
controller alone. -/
theorem mayInterrupt_until {i : BitVec 5} {t u : Nat}
    (harmed : Plic.Armed (run cfg mem s₀ pins t).soc.plic i)
    (hline : (plicIn cfg mem s₀ pins t).peripheralInterrupts.getLsbD i.toNat = true) (htu : t < u)
    (hquiet : ∀ k, t ≤ k → k < u →
      Bridge.plicRegionSel (dmemReq cfg (run cfg mem s₀ pins k)) = false) :
    Plic.MayInterrupt (run cfg mem s₀ pins u).soc.plic i := by
  induction htu with
  | refl =>
      rw [Nat.succ_eq_add_one, plic_next]
      exact Plic.mayInterrupt_next (hquiet t (Nat.le_refl t) (Nat.lt_succ_self t)) harmed
        (Or.inr hline)
  | @step u htu ih =>
      have h := ih fun k htk hku => hquiet k htk (Nat.lt_succ_of_lt hku)
      rw [Nat.succ_eq_add_one, plic_next]
      exact Plic.mayInterrupt_next (hquiet u (Nat.le_of_lt htu) (Nat.lt_succ_self u))
        (Plic.armed_of_mayInterrupt h) (Or.inl h.pending)

/-- An interrupt input of the chip reaches the handler.  Source `i` is high in cycle `t`, enabled, above
the threshold and out of service, and the core has interrupts enabled two cycles later: if the program
does not reach for the interrupt controller in between, the first live instruction in the memory stage
from cycle `t + 2` on traps, in cycle `t + 34` at the latest, and the handler follows within 33 cycles. -/
theorem interrupt_delivered (cfg : Config) (mem : InstRam.Mem) (s₀ : MyCpu) (pins : Nat → Pins)
    {i : BitVec 5} {t : Nat} (harmed : Plic.Armed (run cfg mem s₀ pins t).soc.plic i)
    (hline : (plicIn cfg mem s₀ pins t).peripheralInterrupts.getLsbD i.toNat = true)
    (hquiet : ∀ k, t ≤ k → k < t + 33 →
      Bridge.plicRegionSel (dmemReq cfg (run cfg mem s₀ pins k)) = false)
    (hen : RegfileCsr.externalIrqEnable (run cfg mem s₀ pins (t + 2)).cpu.csr = true) :
    ∃ u, t + 2 ≤ u ∧ u ≤ t + 34 ∧
      (∀ v, t + 2 ≤ v → v < u → Cpu.liveMs (run cfg mem s₀ pins v).cpu = false) ∧
      Cpu.TakesInterrupt cfg s₀.cpu (fun k => (run cfg mem s₀ pins k).cpuIn) u := by
  rcases Cpu.first_liveMs cfg s₀.cpu (fun k => (run cfg mem s₀ pins k).cpuIn) (t + 2) with
    ⟨u, htu, hu, hlive, hdead⟩
  have hirq : (run cfg mem s₀ pins u).cpuIn.plicIrq = true := by
    obtain ⟨v, rfl⟩ : ∃ v, u = v + 1 := ⟨u - 1, by omega⟩
    have hmay := mayInterrupt_until harmed hline (show t < v by omega) fun k htk hkv =>
      hquiet k htk (by omega)
    exact Plic.valid_of_mayInterrupt hmay
  rw [run_cpu] at hen
  refine ⟨u, htu, by omega, fun v htv hvu => ?_,
    Cpu.takesInterrupt_of_enabled cfg s₀.cpu _ htu hdead hlive hen hirq⟩
  rw [run_cpu]
  exact hdead v htv hvu

end Run

/-- `lui x1, 0x80300; addi x2, x0, 7; sw x2, 16(x1); lui x3, 0x80302; addi x4, x0, 16; sw x4, 0(x3)` give
source 4 a priority and enable it; `addi x6, x0, 1024; csrw mtvec, x6` set the handler, and
`addi x5, x0, -1; csrw mie, x5; csrw mstatus, x5` enable interrupts. -/
def enableSource (a : BitVec 12) : Word :=
  if a = 0#12 then 0x803000b7#32
  else if a = 1#12 then 0x00700113#32
  else if a = 2#12 then 0x0020a823#32
  else if a = 3#12 then 0x803021b7#32
  else if a = 4#12 then 0x01000213#32
  else if a = 5#12 then 0x0041a023#32
  else if a = 6#12 then 0x40000313#32
  else if a = 7#12 then 0x30531073#32
  else if a = 8#12 then 0xfff00293#32
  else if a = 9#12 then 0x30429073#32
  else if a = 10#12 then 0x30029073#32
  else 0x00000013#32

/-- External input 4 is high. -/
def raisedPins (_ : Nat) : Pins :=
  { clkUart := false, uartRx := true, externalInterrupts := 0x10#32 }

/-- The last `csrw` takes effect in cycle 16. -/
theorem interrupt_delivered_external :
    ∃ u n, 16 ≤ u ∧ u ≤ 48 ∧ u < n ∧ n ≤ u + 33 ∧
      (Cpu.run Cpu.plainBuild Cpu.zero
        (fun k => (run Cpu.plainBuild enableSource zero raisedPins k).cpuIn) n).ms.buf.main.bus.pc =
      (Cpu.run Cpu.plainBuild Cpu.zero
        (fun k => (run Cpu.plainBuild enableSource zero raisedPins k).cpuIn) u).csr.file.mtvec := by
  have harmed : Plic.Armed (run Cpu.plainBuild enableSource zero raisedPins 14).soc.plic 4#5 :=
    ⟨by decide, by decide +kernel, by decide +kernel, by decide +kernel⟩
  rcases interrupt_delivered Cpu.plainBuild enableSource zero raisedPins harmed (by decide +kernel)
    (by decide +kernel) (by decide +kernel) with ⟨u, htu, hu, -, htakes⟩
  rcases htakes.handler with ⟨n, hun, hn, -, -, hpc⟩
  exact ⟨u, n, htu, hu, hun, hn, hpc⟩

end MyCpu
end RiscvCpu
