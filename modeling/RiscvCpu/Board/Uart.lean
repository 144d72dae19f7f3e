import RiscvCpu.Lib.Memory

/-!
# Uart — `uart.sv`

The serial port of the board.  `BAUD_DIV` is a parameter; the counters that run up to it have 13 bits, and
the comparisons are those of 32-bit words.
-/

namespace RiscvCpu
namespace Board
namespace Uart

/-- `BAUD_DIV`, for positive parameters. -/
def BAUD_DIV (CLK_FREQ BAUD_RATE : Word) : Word := CLK_FREQ / BAUD_RATE

/-- The synchroniser. -/
structure Sync where
  (rxD0 rxD1 rxD2 : Bool)

/-- The receiver. -/
structure Rx where
  rxState : BitVec 2
  rxCnt : BitVec 13
  rxBitCnt : BitVec 4
  rxShift : BitVec 8
  rxData : BitVec 8
  rxReadyPulse : Bool

/-- The stretched `rx_ready`. -/
structure Ready where
  rxReady : Bool
  rxReadyCnt : BitVec 16

/-- The transmitter. -/
structure Tx where
  txState : BitVec 4
  txCnt : BitVec 13
  txBitCnt : BitVec 4
  txShift : BitVec 10
  txBusy : Bool
  tx : Bool

structure Regs where
  sync : Sync
  rx : Rx
  ready : Ready
  tx : Tx

structure In where
  rx : Bool
  txData : BitVec 8
  txStart : Bool

def reset : Regs :=
  { sync := ⟨true, true, true⟩
    rx := ⟨0#2, 0#13, 0#4, 0#8, 0#8, false⟩
    ready := ⟨false, 0#16⟩
    tx := ⟨0#4, 0#13, 0#4, 0b1111111111#10, false, true⟩ }

variable (div : Word)

def rxNegedge (s : Sync) : Bool := s.rxD2 && !s.rxD1

/-- `cnt == BAUD_DIV-1`. -/
def last (cnt : BitVec 13) : Bool := cnt.setWidth 32 == div - 1#32

def nextSync (s : Sync) (rx : Bool) : Sync := ⟨rx, s.rxD0, s.rxD1⟩

def nextRx (s : Sync) (r : Rx) : Rx :=
  if r.rxState == 0#2 then
    if rxNegedge s then
      { r with
        rxState := 1#2, rxCnt := (div >>> 1).setWidth 13, rxBitCnt := 0#4, rxReadyPulse := false }
    else { r with rxReadyPulse := false }
  else if r.rxState == 1#2 then
    if last div r.rxCnt then { r with rxState := 2#2, rxCnt := 0#13, rxReadyPulse := false }
    else { r with rxCnt := r.rxCnt + 1#13, rxReadyPulse := false }
  else if r.rxState == 2#2 then
    if last div r.rxCnt then
      { r with
        rxState := if r.rxBitCnt == 7#4 then 3#2 else 2#2
        rxCnt := 0#13
        rxBitCnt := if r.rxBitCnt == 7#4 then r.rxBitCnt else r.rxBitCnt + 1#4
        rxShift := BitVec.ofBool s.rxD2 ++ r.rxShift.extractLsb' 1 7
        rxReadyPulse := false }
    else { r with rxCnt := r.rxCnt + 1#13, rxReadyPulse := false }
  else
    -- the stop bit is not looked at
    if last div r.rxCnt then
      { r with rxState := 0#2, rxCnt := 0#13, rxData := r.rxShift, rxReadyPulse := true }
    else { r with rxCnt := r.rxCnt + 1#13, rxReadyPulse := false }

def nextReady (r : Rx) (s : Ready) : Ready :=
  if r.rxReadyPulse then ⟨true, 0#16⟩
  else if s.rxReady then
    if s.rxReadyCnt.setWidth 32 < div - 1#32 then ⟨true, s.rxReadyCnt + 1#16⟩
    else ⟨false, s.rxReadyCnt⟩
  else s

def nextTx (r : Tx) (txData : BitVec 8) (txStart : Bool) : Tx :=
  if r.txState == 0#4 then
    if txStart then
      { r with
        txState := 1#4
        txCnt := 0#13
        txBitCnt := 0#4
        txShift := 1#1 ++ (txData ++ 0#1)
        txBusy := true }
    else { r with txBusy := false }
  else if r.txState == 1#4 then
    if last div r.txCnt then
      { r with
        txState := if r.txBitCnt == 9#4 then 0#4 else 1#4
        txCnt := 0#13
        txBitCnt := if r.txBitCnt == 9#4 then r.txBitCnt else r.txBitCnt + 1#4
        txShift := 1#1 ++ r.txShift.extractLsb' 1 9
        tx := r.txShift.getLsbD 0 }
    else { r with txCnt := r.txCnt + 1#13 }
  else r

def next (r : Regs) (p : In) : Regs :=
  { sync := nextSync r.sync p.rx
    rx := nextRx div r.sync r.rx
    ready := nextReady div r.rx r.ready
    tx := nextTx div r.tx p.txData p.txStart }

end Uart
end Board
end RiscvCpu
