import RiscvCpu.Rtl.CpuTop
import RiscvCpu.Soc.MyCpu

/-!
# System — `my_cpu.sv` with the core

The core wired to `soc_inst_ram`, the bridge and what lies behind it.  Only the pins of the chip are
left as inputs.  Run by itself, the core is one of the cores of the pipeline modules, and what lies
behind its data port is one of the runs of `Soc`.
-/

namespace RiscvCpu

namespace InstRam

/-- The 4096 words of `soc_inst_ram`, which nothing writes. -/
abbrev Mem := BitVec 12 → Word

/-- `addr[INDEX_WIDTH+1:2]`. -/
def index (addr : Word) : BitVec 12 := addr.extractLsb' 2 12

/-- `rdata` after an edge. -/
def next (m : Mem) (rdata : Word) (en : Bool) (addr : Word) : Word :=
  if en then m (index addr) else rdata

end InstRam

/-- The registers and memories of `my_cpu`, with the output register of its instruction memory. -/
structure MyCpu where
  cpu : Cpu
  imemRdata : Word
  soc : Soc

/-- The pins of the chip in one cycle. -/
structure Pins where
  clkUart : Bool
  uartRx : Bool
  externalInterrupts : Word

namespace MyCpu

/-- The memories are not reset. -/
def reset (s : MyCpu) : MyCpu :=
  { cpu := s.cpu.reset, imemRdata := s.imemRdata, soc := s.soc.reset }

section Wires

variable (cfg : Config) (s : MyCpu) (p : Pins)

def cpuIn : CpuIn :=
  { imemRdata := s.imemRdata
    dmemRdata := s.soc.cpuDmemRdata
    plicIrq := s.soc.plic.plicIrq }

/-- `cpu_dmem_*`. -/
def dmemReq : DmemReq :=
  { en := Cpu.dmemEn cfg s.cpu s.cpuIn
    addr := Cpu.dmemAddr s.cpu
    wen := Cpu.dmemWen cfg s.cpu s.cpuIn
    wdata := Cpu.dmemWdata s.cpu }

def socIn : SocIn :=
  { req := dmemReq cfg s
    clkUart := p.clkUart
    uartRx := p.uartRx
    externalInterrupts := p.externalInterrupts }

def next (mem : InstRam.Mem) : MyCpu :=
  { cpu := Cpu.next cfg s.cpu s.cpuIn
    imemRdata :=
      InstRam.next mem s.imemRdata (Cpu.imemEn cfg s.cpu s.cpuIn) (Cpu.imemAddr cfg s.cpu)
    soc := s.soc.next (socIn cfg s p) }

end Wires

/-- The state in cycle `t` after reset from the power-up state `s₀`. -/
def run (cfg : Config) (mem : InstRam.Mem) (s₀ : MyCpu) (pins : Nat → Pins) (t : Nat) : MyCpu :=
  Clocked.run (fun s p => next cfg s p mem) (reset s₀) pins t

section Run

variable (cfg : Config) (mem : InstRam.Mem) (s₀ : MyCpu) (pins : Nat → Pins)

theorem run_next (t : Nat) :
    run cfg mem s₀ pins (t + 1) = next cfg (run cfg mem s₀ pins t) (pins t) mem :=
  rfl

/-- The core runs as it does by itself, under what the chip answers it. -/
theorem run_cpu (t : Nat) :
    (run cfg mem s₀ pins t).cpu =
      Cpu.run cfg s₀.cpu (fun k => (run cfg mem s₀ pins k).cpuIn) t := by
  induction t with
  | zero => rfl
  | succ t ih =>
      calc (run cfg mem s₀ pins (t + 1)).cpu
          = Cpu.next cfg (run cfg mem s₀ pins t).cpu (run cfg mem s₀ pins t).cpuIn := rfl
        _ = Cpu.run cfg s₀.cpu (fun k => (run cfg mem s₀ pins k).cpuIn) (t + 1) := by
              rw [ih]
              rfl

/-- What lies behind the data port runs as it does by itself, under the requests of the core. -/
theorem run_soc (t : Nat) :
    (run cfg mem s₀ pins t).soc =
      Soc.run s₀.soc (fun k => socIn cfg (run cfg mem s₀ pins k) (pins k)) t := by
  induction t with
  | zero => rfl
  | succ t ih =>
      calc (run cfg mem s₀ pins (t + 1)).soc
          = (run cfg mem s₀ pins t).soc.next (socIn cfg (run cfg mem s₀ pins t) (pins t)) := rfl
        _ = Soc.run s₀.soc (fun k => socIn cfg (run cfg mem s₀ pins k) (pins k)) (t + 1) := by
              rw [ih]
              rfl

end Run

end MyCpu
end RiscvCpu
