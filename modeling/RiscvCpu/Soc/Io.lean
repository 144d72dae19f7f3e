import RiscvCpu.Soc.Timer
import RiscvCpu.Soc.Uart

/-!
# Io — `IO.sv`

The UART, the timer and the LED register behind one port.  The answer of the port is selected by a
register that remembers which peripheral the last cycle read.
-/

namespace RiscvCpu
namespace Io

/-- `IO_TARGET_*`. -/
inductive Target
  | none
  | uart
  | timer
  | led
  deriving DecidableEq

structure Regs where
  uart : Uart.Regs
  timer : Timer.Regs
  led : Word
  readTargetR : Target

structure In where
  ioSel : Bool
  ioRe : Bool
  ioWen : BitVec 4
  ioAddr : Word
  ioWdata : Word
  clkUart : Bool
  uartRx : Bool

def reset (r : Regs) : Regs :=
  { uart := Uart.reset r.uart
    timer := Timer.reset
    led := 0#32
    readTargetR := .none }

variable (r : Regs) (p : In)

def ioWe : Bool := p.ioWen != 0#4
def uartSel : Bool := p.ioSel && Map.page p.ioAddr == Map.page Map.UART_BASE_ADDR
def timerSel : Bool := p.ioSel && Map.page p.ioAddr == Map.page Map.TIMER_BASE_ADDR
def ledSel : Bool := p.ioSel && Map.page p.ioAddr == Map.page Map.LEDS_BASE_ADDR

def uartIn : Uart.In :=
  { addr := p.ioAddr.extractLsb' 0 16
    wdata := p.ioWdata
    we := uartSel p && ioWe p
    re := uartSel p && p.ioRe
    clkUart := p.clkUart
    rx := p.uartRx }

def timerIn : DevIn :=
  { addr := p.ioAddr.extractLsb' 0 16
    wdata := p.ioWdata
    we := timerSel p && ioWe p
    re := timerSel p && p.ioRe }

def ioRdata : Word :=
  match r.readTargetR with
  | .uart => r.uart.rdata
  | .timer => r.timer.rdata
  | .led => r.led
  | .none => 0#32

def peripheralInterrupts : Word :=
  ((BitVec.ofBool r.timer.timerInt).setWidth 32 <<< Map.TIMER_INT_ID) |||
    ((BitVec.ofBool r.uart.flags.rxInt).setWidth 32 <<< Map.UART_RX_INT_ID) |||
    ((BitVec.ofBool r.uart.flags.txInt).setWidth 32 <<< Map.UART_TX_INT_ID)

def next : Regs :=
  { uart := Uart.next r.uart (uartIn p)
    timer := Timer.next r.timer (timerIn p)
    led := if ledSel p && ioWe p then strobeWord p.ioWen r.led p.ioWdata else r.led
    readTargetR :=
      if p.ioSel && p.ioRe then
        if uartSel p then .uart
        else if timerSel p then .timer
        else if ledSel p then .led
        else .none
      else .none }

end Io
end RiscvCpu
