import RiscvCpu.Progress.Delivery
import RiscvCpu.Refine.Chip
import RiscvCpu.Refine.Privileged

/-!
# Firmware — programs with handlers on the whole of `my_cpu.sv`

The machine with CSRs, traps and the interrupt has the data memory of the chip to itself: what it loads
from there is what it has stored.  The peripherals and the interrupt controller answer as they like.
-/

namespace RiscvCpu
namespace Cpu

section Run

variable {M : Type} {D : Isa.Memory M} {serves : Isa.Request → Bool} {cfg : Config} {imem : Word → Word}
  {s₀ : Cpu} {inp : Nat → CpuIn} {m : Nat → M}

/-- In the first `T` cycles the memory `m` serves the requests in `serves`, and keeps what it holds in all
others. -/
structure Beside (D : Isa.Memory M) (serves : Isa.Request → Bool) (cfg : Config) (s₀ : Cpu)
    (inp : Nat → CpuIn) (m : Nat → M) (T : Nat) : Prop where
  served : ServedBefore D (fun q => serves q = true) cfg s₀ inp m T
  passed : ∀ k, k < T → ∀ q, request cfg (run cfg s₀ inp k) (inp k) = some q → serves q = false →
    m (k + 1) = m k

/-- A cycle in which no instruction is executed asks for nothing. -/
theorem request_of_not_executes {t : Nat} {l : Labels} {h : Isa.Hart} {ws : List Isa.Write}
    {qs : List Isa.Request} (ht : Tracks cfg imem (run cfg s₀ inp t) (inp t) l h ws qs)
    (hexec : executes cfg s₀ inp t = false) : request cfg (run cfg s₀ inp t) (inp t) = none := by
  rcases executes_eq_false hexec with hflag | ⟨-, hstay⟩
  · exact request_of_flag hflag
  · exact ht.stay_request hstay

/-- The machine in front of the memory is the machine that is given what the memory answers. -/
theorem runHart_eq (hknown : ∀ a, Isa.Known (imem a)) {t : Nat} (henv : EnvBefore cfg imem s₀ inp t)
    (hsound : SoundBefore cfg imem s₀ inp t) (hmem : Beside D serves cfg s₀ inp m t) :
    D.runHart serves imem cfg.pcStart (m 0) (hartAnswersUpTo cfg s₀ inp t) =
      (hart cfg imem s₀ inp t, m t) := by
  induction t with
  | zero => rfl
  | succ t ih =>
      have hlt := Nat.lt_succ_self t
      have hbefore : EnvBefore cfg imem s₀ inp t := fun k hk => henv k (Nat.lt_succ_of_lt hk)
      have hkept : SoundBefore cfg imem s₀ inp t := fun k hk => hsound k (Nat.lt_succ_of_lt hk)
      have ht := tracks_run hknown hbefore hkept
      have h := ih hbefore hkept
        { served := hmem.served.mono (Nat.le_succ t)
          passed := fun k hk => hmem.passed k (Nat.lt_succ_of_lt hk) }
      cases hexec : executes cfg s₀ inp t with
      | false =>
          rw [hart, hartAnswersUpTo_stays hexec,
            hmem.served.idle t hlt (request_of_not_executes ht hexec)]
          exact h
      | true =>
          have hal := (hsound t hlt hexec).aligned
          rw [hart, hartAnswersUpTo_executes hexec, Isa.Memory.runHart_concat, Isa.Hart.run_concat, h]
          simp only [executes, leaves, Bool.and_eq_true, Bool.not_eq_true'] at hexec
          have hreq := ht.retire_request hexec.2 hknown hal hexec.1.1
          cases hq : (hart cfg imem s₀ inp t).trace.state.request? imem with
          | none =>
              rw [Isa.Memory.stepHart_of_none hq, hmem.served.idle t hlt (hreq.trans hq)]
              rfl
          | some q =>
              have hsome := hreq.trans hq
              cases hserves : serves q with
              | false =>
                  rw [Isa.Memory.stepHart_of_not_serves hq hserves, hmem.passed t hlt q hsome hserves]
                  rfl
              | true =>
                  rw [Isa.Memory.stepHart_of_serves hq hserves
                    (hmem.served.answered t hlt q hsome hserves),
                    hmem.served.performed t hlt q hsome hserves]
                  rfl

end Run

end Cpu

namespace MyCpu

variable {cfg : Config} {mem : InstRam.Mem} {s₀ : MyCpu} {pins : Nat → Pins}

theorem beside_core (T : Nat) :
    Cpu.Beside DataRam.memory DataRam.serves cfg s₀.cpu (coreIn cfg mem s₀ pins)
      (fun k => (run cfg mem s₀ pins k).soc.ram) T := by
  refine { served := servedBefore_core T, passed := ?_ }
  intro k _ q hq hserves
  rw [run_core] at hq
  have hsel := (dmemReq_of_request hq).2.2.2.2
  rw [hserves] at hsel
  show (next cfg (run cfg mem s₀ pins k) (pins k) mem).soc.ram = _
  rw [next_ram, hsel]
  rfl

/-- Under a sound program, and with the stack value buffer undisturbed, the chip is the machine with CSRs,
traps and the interrupt in front of its data memory.  Whatever the peripherals answer, the interrupt
controller raises and the pins do: the bus is asked for what the machine asks for, in its order (again for
an access that was interrupted), and the data memory holds what the machine leaves there; one cycle later
the CSR file does, and two cycles later write-back has written what it writes. -/
theorem runs_firmware (cfg : Config) (mem : InstRam.Mem) (s₀ : MyCpu) (pins : Nat → Pins)
    (hknown : ∀ a, Isa.Known (mem a)) (t : Nat) (hok : Undisturbed cfg mem s₀ pins t)
    (hsound : Cpu.SoundBefore cfg (imem mem) s₀.cpu (coreIn cfg mem s₀ pins) t) :
    let x := DataRam.memory.runHart DataRam.serves (imem mem) cfg.pcStart s₀.soc.ram
      (Cpu.hartAnswersUpTo cfg s₀.cpu (coreIn cfg mem s₀ pins) t)
    Cpu.requestsUpTo cfg s₀.cpu (coreIn cfg mem s₀ pins) t = x.1.trace.requests ∧
      Cpu.writesUpTo cfg s₀.cpu (coreIn cfg mem s₀ pins) (t + 2) = x.1.trace.writes ∧
      (run cfg mem s₀ pins (t + 1)).cpu.csr.file.Holds x.1.csr ∧
      (run cfg mem s₀ pins t).soc.ram = x.2 ∧
      t / 33 ≤ (Cpu.hartAnswersUpTo cfg s₀.cpu (coreIn cfg mem s₀ pins) t).length := by
  have henv := envBefore_core hok
  have hknown' : ∀ a, Isa.Known (imem mem a) := fun a => hknown (InstRam.index a)
  have h := Cpu.tracks_run hknown' henv hsound
  have heq := Cpu.runHart_eq hknown' henv hsound (beside_core t)
  rw [show s₀.soc.ram = (run cfg mem s₀ pins 0).soc.ram from rfl, heq]
  refine ⟨h.requests, Cpu.writesUpTo_two h, ?_, rfl, Cpu.hartAnswers_rate t⟩
  rw [← run_core]
  exact h.file

/-- `enableSource` with the handler `lui x11, 0x80304; lw x10, 4(x11); lui x12, 0x80100; sw x10, 0(x12);
sw x10, 4(x11); mret`: it reads the claim register, and stores what the bus answers in the data memory and
in the claim register. -/
def serveSource (a : BitVec 12) : Word :=
  if a = 256#12 then 0x803045b7#32
  else if a = 257#12 then 0x0045a503#32
  else if a = 258#12 then 0x80100637#32
  else if a = 259#12 then 0x00a62023#32
  else if a = 260#12 then 0x00a5a223#32
  else if a = 261#12 then 0x30200073#32
  else enableSource a

theorem enableSource_known (a : BitVec 12) : Isa.Known (enableSource a) := by
  unfold enableSource
  repeat refine Isa.known_ite (by decide +kernel) ?_
  decide +kernel

theorem serveSource_known (a : BitVec 12) : Isa.Known (serveSource a) := by
  unfold serveSource
  iterate 6 refine Isa.known_ite (by decide +kernel) ?_
  exact enableSource_known a

/-- In 32 cycles the handler has been entered and left. -/
theorem runs_firmware_serveSource :
    let x := DataRam.memory.runHart DataRam.serves (imem serveSource)
      Cpu.plainBuild.pcStart zero.soc.ram
      (Cpu.hartAnswersUpTo Cpu.plainBuild zero.cpu
        (coreIn Cpu.plainBuild serveSource zero raisedPins) 32)
    Cpu.requestsUpTo Cpu.plainBuild zero.cpu
          (coreIn Cpu.plainBuild serveSource zero raisedPins) 32 = x.1.trace.requests ∧
      Cpu.writesUpTo Cpu.plainBuild zero.cpu
          (coreIn Cpu.plainBuild serveSource zero raisedPins) 34 = x.1.trace.writes ∧
      (run Cpu.plainBuild serveSource zero raisedPins 33).cpu.csr.file.Holds x.1.csr ∧
      (run Cpu.plainBuild serveSource zero raisedPins 32).soc.ram = x.2 ∧
      32 / 33 ≤ (Cpu.hartAnswersUpTo Cpu.plainBuild zero.cpu
        (coreIn Cpu.plainBuild serveSource zero raisedPins) 32).length :=
  runs_firmware Cpu.plainBuild serveSource zero raisedPins serveSource_known 32 (by decide +kernel)
    (by decide +kernel)

end MyCpu
end RiscvCpu
