import RiscvCpu.Lib.Clocked
import RiscvCpu.Soc.Bridge
import RiscvCpu.Soc.Io
import RiscvCpu.Soc.Plic

/-!
# MyCpu — `my_cpu.sv` without the core

The bridge, the data memory, the peripherals and the interrupt controller, wired as in the source.
The core's data port is an input: any request may come in any cycle.
-/

namespace RiscvCpu

/-- Everything of `my_cpu` on the far side of the core's data port. -/
structure Soc where
  bridge : Bridge.Regs
  ram : DataRam.Mem
  io : Io.Regs
  plic : Plic.Regs

/-- The core's data request and the pins of the chip in one cycle. -/
structure SocIn where
  req : DmemReq
  clkUart : Bool
  uartRx : Bool
  externalInterrupts : Word

namespace Soc

/-- The data memory and the UART's buffers are not reset. -/
def reset (s : Soc) : Soc :=
  { bridge := Bridge.reset
    ram := s.ram
    io := Io.reset s.io
    plic := Plic.reset }

variable (s : Soc) (i : SocIn)

def answers : Bridge.Answers :=
  { ramRdata := DataRam.rdata s.ram (Bridge.ramSel i.req) i.req.addr
    ioRdata := Io.ioRdata s.io
    plicRdata := s.plic.plicRdata }

def ioIn : Io.In :=
  { ioSel := Bridge.ioRegionSel i.req
    ioRe := Bridge.ioRe i.req
    ioWen := Bridge.ioWen i.req
    ioAddr := i.req.addr
    ioWdata := i.req.wdata
    clkUart := i.clkUart
    uartRx := i.uartRx }

def plicIn : Plic.In :=
  { peripheralInterrupts := i.externalInterrupts ||| Io.peripheralInterrupts s.io
    plicSel := Bridge.plicRegionSel i.req
    plicWe := Bridge.plicWe i.req
    plicRe := Bridge.plicRe i.req
    plicAddr := i.req.addr
    plicWdata := i.req.wdata }

/-- `cpu_dmem_rdata`. -/
def cpuDmemRdata : Word := Bridge.cpuDmemRdata s.bridge

def next : Soc :=
  { bridge := Bridge.next s.bridge i.req (answers s i)
    ram :=
      DataRam.next s.ram (Bridge.ramSel i.req) i.req.addr (Bridge.ramWen i.req) i.req.wdata
    io := Io.next s.io (ioIn i)
    plic := Plic.next s.plic (plicIn s i) }

/-- The state in cycle `t` after reset from the power-up state `s₀`. -/
def run (s₀ : Soc) (inp : Nat → SocIn) (t : Nat) : Soc := Clocked.run next (reset s₀) inp t

end Soc
end RiscvCpu
