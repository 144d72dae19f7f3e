import RiscvCpu.Board.PeripBridge
import RiscvCpu.Rtl.CpuTop
import RiscvCpu.Soc.System

/-!
# Adapter — `current_board_adapter.sv`

The core on the board: its instruction memory, and the bridge on its data port.  A write needs no more
than a strobe; `dmem_en` only marks what is to be read.  The interrupt line is tied low.
-/

namespace RiscvCpu
namespace Board

/-- The registers and memories of the board's `my_cpu`, with the output register of its instruction
memory. -/
structure Adapter where
  cpu : Cpu
  imemRdata : Word
  bridge : PeripBridge.Regs

/-- The switches and keys, and the value of the counter, in one cycle. -/
structure Pins where
  sw : BitVec 64
  key : BitVec 8
  cntRdata : Word

namespace Adapter

/-- The memories are not reset. -/
def reset (s : Adapter) : Adapter :=
  { cpu := s.cpu.reset, imemRdata := s.imemRdata, bridge := PeripBridge.reset s.bridge }

section Wires

variable (cfg : Config) (s : Adapter) (p : Pins)

def cpuIn : CpuIn :=
  { imemRdata := s.imemRdata
    dmemRdata := PeripBridge.peripRdata s.bridge p.cntRdata
    plicIrq := false }

def bridgeIn : PeripBridge.In :=
  { peripAddr := Cpu.dmemAddr s.cpu
    peripWdata := Cpu.dmemWdata s.cpu
    peripWen := Cpu.dmemWen cfg s.cpu (cpuIn s p) != 0#4
    peripRen := Cpu.dmemEn cfg s.cpu (cpuIn s p)
    peripMask := Cpu.dmemWen cfg s.cpu (cpuIn s p)
    virtualSwInput := p.sw
    virtualKeyInput := p.key }

def next (mem : InstRam.Mem) : Adapter :=
  { cpu := Cpu.next cfg s.cpu (cpuIn s p)
    imemRdata :=
      InstRam.next mem s.imemRdata (Cpu.imemEn cfg s.cpu (cpuIn s p)) (Cpu.imemAddr cfg s.cpu)
    bridge := PeripBridge.next s.bridge (bridgeIn cfg s p) }

end Wires

/-- The state in cycle `t` after reset from the power-up state `s₀`. -/
def run (cfg : Config) (mem : InstRam.Mem) (s₀ : Adapter) (pins : Nat → Pins) (t : Nat) : Adapter :=
  Clocked.run (fun s p => next cfg s p mem) (reset s₀) pins t

/-- The inputs of the core along a run. -/
def coreIn (cfg : Config) (mem : InstRam.Mem) (s₀ : Adapter) (pins : Nat → Pins) (k : Nat) : CpuIn :=
  cpuIn (run cfg mem s₀ pins k) (pins k)

/-- The core runs as it does by itself, under what the board answers it. -/
theorem run_cpu (cfg : Config) (mem : InstRam.Mem) (s₀ : Adapter) (pins : Nat → Pins) (t : Nat) :
    Cpu.run cfg s₀.cpu (coreIn cfg mem s₀ pins) t = (run cfg mem s₀ pins t).cpu := by
  induction t with
  | zero => rfl
  | succ t ih =>
      calc Cpu.run cfg s₀.cpu (coreIn cfg mem s₀ pins) (t + 1)
          = Cpu.next cfg (Cpu.run cfg s₀.cpu (coreIn cfg mem s₀ pins) t)
              (coreIn cfg mem s₀ pins t) := rfl
        _ = (run cfg mem s₀ pins (t + 1)).cpu := by
              rw [ih]
              rfl

end Adapter
end Board
end RiscvCpu
