import RiscvCpu.Soc.Defines

/-!
# Uart — `UART.sv`

The serial port: two FIFOs of eight bytes, a transmitter, a receiver and their two baud counters.
`uart_data` is written by the source and read by nothing; it is left out.  `clk_uart` and `rx` enter
as the levels sampled on each edge of `clk`.
-/

namespace RiscvCpu
namespace Uart

def FIFO_DEPTH : BitVec 4 := 8#4

inductive TxState
  | idle
  | start
  | data
  | stop
  deriving DecidableEq

inductive RxState
  | idle
  | start
  | data
  | stop
  deriving DecidableEq

/-- The storage of a FIFO. -/
abbrev Buffer := BitVec 3 → BitVec 8

/-- The transmit FIFO and the transmitter. -/
structure TxRegs where
  buffer : Buffer
  head : BitVec 3
  tail : BitVec 3
  count : BitVec 4
  state : TxState
  bitIdx : BitVec 3
  shift : BitVec 8
  tx : Bool

/-- The receive FIFO and the receiver. -/
structure RxRegs where
  buffer : Buffer
  head : BitVec 3
  tail : BitVec 3
  count : BitVec 4
  state : RxState
  bitIdx : BitVec 3
  shift : BitVec 8

/-- The synchronisers and the two baud counters. -/
structure LineRegs where
  (clkUartSync0 clkUartSync1 clkUartSync2 : Bool)
  (rxSync0 rxSync1 rxSync2 : Bool)
  baudCnt : Word
  rxBaudCnt : Word

/-- The registered status flags and interrupt outputs. -/
structure Flags where
  (txEmpty rxReady txFull rxFull txInt rxInt : Bool)

structure Regs where
  uartCtrl : Word
  uartBaud : Word
  rdata : Word
  overflowError : Bool
  line : LineRegs
  txr : TxRegs
  rxr : RxRegs
  flags : Flags

/-- The inputs of the port in one cycle. -/
structure In extends DevIn where
  clkUart : Bool
  rx : Bool

/-- The two buffers are not reset. -/
def reset (r : Regs) : Regs :=
  { uartCtrl := 0#32
    uartBaud := 868#32
    rdata := 0#32
    overflowError := false
    line := ⟨false, false, false, true, true, true, 0#32, 0#32⟩
    txr := ⟨r.txr.buffer, 0#3, 0#3, 0#4, .idle, 0#3, 0#8, true⟩
    rxr := ⟨r.rxr.buffer, 0#3, 0#3, 0#4, .idle, 0#3, 0#8⟩
    flags := ⟨true, false, false, false, false, false⟩ }

variable (r : Regs) (p : In)

/-! ## Wires -/

def rxIntEn : Bool := r.uartCtrl.getLsbD 0
def txIntEn : Bool := r.uartCtrl.getLsbD 1
def uartEn : Bool := r.uartCtrl.getLsbD 2
def boundaryOn : Bool := r.uartCtrl.getLsbD 4

def parityError : Bool := false

def uartStatus : Word :=
  0#24 ++
    (BitVec.ofBool r.flags.rxInt ++ BitVec.ofBool r.flags.txInt ++
      BitVec.ofBool r.overflowError ++ BitVec.ofBool parityError ++
      BitVec.ofBool r.flags.rxFull ++ BitVec.ofBool r.flags.txFull ++
      BitVec.ofBool r.flags.rxReady ++ BitVec.ofBool r.flags.txEmpty)

def baudTick : Bool := boundaryOn r && uartEn r && decide (r.uartBaud ≤ r.line.baudCnt)
def rxBaudTick : Bool := boundaryOn r && uartEn r && decide (r.uartBaud ≤ r.line.rxBaudCnt)
def clkUartTick : Bool := r.line.clkUartSync1 && !r.line.clkUartSync2
def txTick : Bool := if boundaryOn r then baudTick r else clkUartTick r && uartEn r
def rxTick : Bool := if boundaryOn r then rxBaudTick r else clkUartTick r && uartEn r
def rxFalling : Bool := r.line.rxSync2 && !r.line.rxSync1

def writeDataReq : Bool := p.we && p.addr == Map.UART_RT_DATA
def writeStatusReq : Bool := p.we && p.addr == Map.UART_RT_STATUS
def writeCtrlReq : Bool := p.we && p.addr == Map.UART_RT_CTRL
def writeBaudReq : Bool := p.we && p.addr == Map.UART_RT_BAUD
def readDataReq : Bool := p.re && p.addr == Map.UART_RT_DATA
def softResetReq : Bool := writeCtrlReq p && p.wdata.getLsbD 3

def txPush : Bool := uartEn r && writeDataReq p && decide (r.txr.count < FIFO_DEPTH)

def txPop : Bool := uartEn r && txTick r && r.txr.state == .idle && r.txr.count != 0#4

def rxPop : Bool := uartEn r && readDataReq p && r.rxr.count != 0#4

def rxPush : Bool := uartEn r && rxTick r && r.rxr.state == .stop && r.line.rxSync1

/-- The received byte of this cycle finds room in the FIFO. -/
def rxStore : Bool := rxPush r && decide (r.rxr.count < FIFO_DEPTH)

/-- The register a read at `addr` addresses. -/
def readReg (addr : BitVec 16) : Word :=
  if addr == Map.UART_RT_DATA then
    if r.rxr.count != 0#4 then 0#24 ++ r.rxr.buffer r.rxr.head else 0#32
  else if addr == Map.UART_RT_STATUS then uartStatus r
  else if addr == Map.UART_RT_CTRL then r.uartCtrl
  else if addr == Map.UART_RT_BAUD then r.uartBaud
  else 0#32

/-! ## Clock edge -/

def nextLine : LineRegs :=
  { clkUartSync0 := p.clkUart
    clkUartSync1 := r.line.clkUartSync0
    clkUartSync2 := r.line.clkUartSync1
    rxSync0 := p.rx
    rxSync1 := r.line.rxSync0
    rxSync2 := r.line.rxSync1
    baudCnt :=
      if !uartEn r || !boundaryOn r || softResetReq p then 0#32
      else if r.uartBaud ≤ r.line.baudCnt then 0#32
      else r.line.baudCnt + 1#32
    rxBaudCnt :=
      if !uartEn r || !boundaryOn r || softResetReq p then 0#32
      -- half a bit from the falling edge to the middle of the start bit
      else if r.rxr.state == .idle && rxFalling r then r.uartBaud >>> 1
      else if r.rxr.state == .idle then 0#32
      else if r.uartBaud ≤ r.line.rxBaudCnt then 0#32
      else r.line.rxBaudCnt + 1#32 }

/-- A FIFO count after a push and a pop of one cycle. -/
def nextCount (count : BitVec 4) (push pop : Bool) : BitVec 4 :=
  if push && !pop then count + 1#4
  else if !push && pop then count - 1#4
  else count

/-- The transmitter: its state, bit index and output. -/
def nextTxState : TxState × BitVec 3 × Bool :=
  match r.txr.state with
  -- the byte is taken and the start bit goes out on the same edge
  | .idle => if txPop r then (.start, 0#3, false) else (.idle, r.txr.bitIdx, true)
  | .start =>
      if txTick r then (.data, 0#3, r.txr.shift.getLsbD 0)
      else (.start, r.txr.bitIdx, r.txr.tx)
  | .data =>
      if txTick r then
        if r.txr.bitIdx == 7#3 then (.stop, r.txr.bitIdx, true)
        else
          (.data, r.txr.bitIdx + 1#3, r.txr.shift.getLsbD (r.txr.bitIdx + 1#3).toNat)
      else (.data, r.txr.bitIdx, r.txr.tx)
  | .stop => if txTick r then (.idle, r.txr.bitIdx, true) else (.stop, r.txr.bitIdx, r.txr.tx)

def nextTx : TxRegs :=
  if softResetReq p then ⟨r.txr.buffer, 0#3, 0#3, 0#4, .idle, 0#3, 0#8, true⟩
  else
    { buffer :=
        if txPush r p then Function.update r.txr.buffer r.txr.tail (p.wdata.setWidth 8)
        else r.txr.buffer
      head := if txPop r then r.txr.head + 1#3 else r.txr.head
      tail := if txPush r p then r.txr.tail + 1#3 else r.txr.tail
      count := nextCount r.txr.count (txPush r p) (txPop r)
      state := (nextTxState r).1
      bitIdx := (nextTxState r).2.1
      shift := if txPop r then r.txr.buffer r.txr.head else r.txr.shift
      tx := (nextTxState r).2.2 }

/-- The receiver: its state and bit index. -/
def nextRxState : RxState × BitVec 3 :=
  match r.rxr.state with
  | .idle => (if rxFalling r && uartEn r then .start else .idle, r.rxr.bitIdx)
  | .start =>
      if rxTick r then
        -- a start bit that is high again in its middle was noise
        if !r.line.rxSync1 then (.data, 0#3) else (.idle, r.rxr.bitIdx)
      else (.start, r.rxr.bitIdx)
  | .data =>
      if rxTick r then
        if r.rxr.bitIdx == 7#3 then (.stop, r.rxr.bitIdx) else (.data, r.rxr.bitIdx + 1#3)
      else (.data, r.rxr.bitIdx)
  -- a low stop bit ends the frame without a byte
  | .stop => (if rxTick r then .idle else .stop, r.rxr.bitIdx)

/-- `rx_shift[idx] <= b`. -/
def setShiftBit (x : BitVec 8) (idx : BitVec 3) (b : Bool) : BitVec 8 :=
  (x &&& ~~~(1#8 <<< idx.toNat)) ||| ((BitVec.ofBool b).setWidth 8 <<< idx.toNat)

def nextRx : RxRegs :=
  if softResetReq p then ⟨r.rxr.buffer, 0#3, 0#3, 0#4, .idle, 0#3, 0#8⟩
  else
    { buffer :=
        if rxStore r then Function.update r.rxr.buffer r.rxr.tail r.rxr.shift
        else r.rxr.buffer
      head := if rxPop r p then r.rxr.head + 1#3 else r.rxr.head
      tail := if rxStore r then r.rxr.tail + 1#3 else r.rxr.tail
      count := nextCount r.rxr.count (rxStore r) (rxPop r p)
      state := (nextRxState r).1
      bitIdx := (nextRxState r).2
      shift :=
        if r.rxr.state == .data && rxTick r then
          setShiftBit r.rxr.shift r.rxr.bitIdx r.line.rxSync1
        else r.rxr.shift }

/-- The last assignment wins: a received byte that is lost, a refused write, a clearing write. -/
def nextOverflow : Bool :=
  if softResetReq p then false
  else if rxPush r && !rxStore r then true
  else if writeDataReq p && !txPush r p then r.overflowError || uartEn r
  else if writeStatusReq p && p.wdata.getLsbD 5 then false
  else r.overflowError

def nextFlags : Flags :=
  let txIdle := r.txr.count == 0#4 && r.txr.state == .idle
  { txEmpty := txIdle
    rxReady := r.rxr.count != 0#4
    txFull := r.txr.count == FIFO_DEPTH
    rxFull := r.rxr.count == FIFO_DEPTH
    txInt := txIntEn r && txIdle
    rxInt := rxIntEn r && r.rxr.count != 0#4 }

def next : Regs :=
  { uartCtrl :=
      -- the soft reset bit is not kept
      if writeCtrlReq p then p.wdata.extractLsb' 4 28 ++ (0#1 ++ p.wdata.extractLsb' 0 3)
      else r.uartCtrl
    uartBaud := if writeBaudReq p then p.wdata else r.uartBaud
    rdata :=
      if softResetReq p then 0#32 else if p.re then readReg r p.addr else r.rdata
    overflowError := nextOverflow r p
    line := nextLine r p
    txr := nextTx r p
    rxr := nextRx r p
    flags := nextFlags r }

end Uart
end RiscvCpu
