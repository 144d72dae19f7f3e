import RiscvCpu.Board.Transmitter
import RiscvCpu.Board.TwinController

/-!
# Panel — the serial port and the twin controller of `top.sv`

The host's end of the board: what comes in on `rx` sets the switches and keys, and what is asked for goes
out on `tx`.
-/

namespace RiscvCpu
namespace Board

structure Panel where
  uart : Uart.Regs
  twin : TwinController.Regs

namespace Panel

/-- What the rest of the board and the host show in one cycle. -/
structure In where
  rx : Bool
  seg : BitVec 40
  led : Word

def reset : Panel := { uart := Uart.reset, twin := TwinController.reset }

/-- The inputs of the serial port. -/
def uartIn (s : Panel) (p : In) : Uart.In :=
  { rx := p.rx, txData := s.twin.txData, txStart := s.twin.txStart }

/-- The inputs of the twin controller. -/
def twinIn (s : Panel) (p : In) : TwinController.In :=
  { rxReady := s.uart.ready.rxReady
    rxData := s.uart.rx.rxData
    txBusy := s.uart.tx.txBusy
    seg := p.seg
    led := p.led }

def next (div : Word) (s : Panel) (p : In) : Panel :=
  { uart := Uart.next div s.uart (uartIn s p), twin := TwinController.next s.twin (twinIn s p) }

/-- The state in cycle `t` after reset. -/
def run (div : Word) (inp : Nat → In) (t : Nat) : Panel := Clocked.run (next div) reset inp t

/-- The inputs of the serial port along a run. -/
def uartInAt (div : Word) (inp : Nat → In) (t : Nat) : Uart.In := uartIn (run div inp t) (inp t)

/-- The inputs of the twin controller along a run. -/
def twinInAt (div : Word) (inp : Nat → In) (t : Nat) : TwinController.In :=
  twinIn (run div inp t) (inp t)

variable {div : Word} {inp : Nat → In}

theorem run_succ (t : Nat) : run div inp (t + 1) = next div (run div inp t) (inp t) := rfl

/-- The serial port runs as it does by itself. -/
theorem run_uart (t : Nat) : Uart.run div (uartInAt div inp) t = (run div inp t).uart := by
  induction t with
  | zero => rfl
  | succ t ih =>
      calc Uart.run div (uartInAt div inp) (t + 1)
          = Uart.next div (Uart.run div (uartInAt div inp) t) (uartInAt div inp t) := rfl
        _ = (run div inp (t + 1)).uart := by
              rw [ih]
              rfl

end Panel
end Board
end RiscvCpu
