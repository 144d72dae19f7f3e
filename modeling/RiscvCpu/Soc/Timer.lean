import RiscvCpu.Soc.Defines

/-!
# Timer — `timer.sv`

The countdown timer with its prescaler.  A read is answered by a register: the value an access
addresses is on `rdata` from the cycle after the access on.
-/

namespace RiscvCpu

namespace Timer

structure Regs where
  timerLoad : Word
  timerValue : Word
  timerCtrl : Word
  timerPrescaler : Word
  prescalerCount : Word
  timerInt : Bool
  rdata : Word
  deriving DecidableEq

def reset : Regs :=
  { timerLoad := 0#32
    timerValue := 0#32
    timerCtrl := 0#32
    timerPrescaler := 0#32
    prescalerCount := 0#32
    timerInt := false
    rdata := 0#32 }

variable (r : Regs) (p : DevIn)

def timerEnable : Bool := r.timerCtrl.getLsbD 0
def timerIntEnable : Bool := r.timerCtrl.getLsbD 1
def timerMode : Bool := r.timerCtrl.getLsbD 2
def timerReload : Bool := r.timerCtrl.getLsbD 3
def timerPrescalerEnable : Bool := r.timerCtrl.getLsbD 4

def prescalerPulse : Bool :=
  !timerPrescalerEnable r || decide (r.timerPrescaler ≤ r.prescalerCount)

def timerStep : Bool := timerEnable r && prescalerPulse r

/-- The register a read at `addr` addresses. -/
def readReg (addr : BitVec 16) : Word :=
  if addr == Map.TIMER_LOAD then r.timerLoad
  else if addr == Map.TIMER_VALUE then r.timerValue
  else if addr == Map.TIMER_CTRL then r.timerCtrl
  else if addr == Map.TIMER_INTCLR then 0#32
  else if addr == Map.TIMER_PRESCALER then r.timerPrescaler
  else 0#32

def nextPrescalerCount : Word :=
  -- a write to either register restarts the prescaler
  if !timerEnable r || !timerPrescalerEnable r ||
      (p.we && (p.addr == Map.TIMER_CTRL || p.addr == Map.TIMER_PRESCALER)) then 0#32
  else if r.timerPrescaler ≤ r.prescalerCount then 0#32
  else r.prescalerCount + 1#32

/-- A bus write. -/
def write : Regs :=
  if p.addr == Map.TIMER_LOAD then { r with timerLoad := p.wdata, timerValue := p.wdata }
  else if p.addr == Map.TIMER_CTRL then { r with timerCtrl := p.wdata, timerInt := false }
  else if p.addr == Map.TIMER_INTCLR then
    -- an acknowledgement touches nothing but the interrupt
    if p.wdata.getLsbD 0 then { r with timerInt := false } else r
  else if p.addr == Map.TIMER_PRESCALER then { r with timerPrescaler := p.wdata }
  else r

/-- One step of the countdown. -/
def countdown : Regs :=
  if 1#32 < r.timerValue then { r with timerValue := r.timerValue - 1#32 }
  else if r.timerValue == 1#32 then
    { r with
      -- expiry: reload, or stop at zero
      timerInt := if timerIntEnable r then true else r.timerInt
      timerValue := if timerMode r && timerReload r then r.timerLoad else 0#32 }
  else r

/-- The bus write and the countdown share one priority chain. -/
def next : Regs :=
  let r' := if p.we then write r p else if timerStep r then countdown r else r
  { r' with
    prescalerCount := nextPrescalerCount r p
    rdata := if p.re then readReg r p.addr else r.rdata }

end Timer
end RiscvCpu
