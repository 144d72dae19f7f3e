import RiscvCpu.Lib.Memory

/-!
# TwinController — `twin_controller.sv`

The host sets the virtual switches and keys with one byte each, and asks for a report with the byte 0x80.
The report is the state of the board at that time: 18 bytes, which go through the serial port one by
one.
-/

namespace RiscvCpu
namespace Board
namespace TwinController

inductive State
  | idle
  | send
  deriving DecidableEq

structure Regs where
  currentState : State
  sendCnt : BitVec 5
  statusBuffer : Vector (BitVec 8) 18
  txStart : Bool
  txStartD : Bool
  txData : BitVec 8
  sw : BitVec 64
  key : BitVec 8

structure In where
  rxReady : Bool
  rxData : BitVec 8
  txBusy : Bool
  seg : BitVec 40
  led : Word

def reset : Regs :=
  { currentState := .idle
    sendCnt := 0#5
    statusBuffer := Vector.replicate 18 0#8
    txStart := false
    txStartD := false
    txData := 0#8
    sw := 0#64
    key := 0#8 }

/-- `x[i] <= b`. -/
def setBit {n : Nat} (x : BitVec n) (i : Nat) (b : Bool) : BitVec n :=
  (x &&& ~~~(1#n <<< i)) ||| ((BitVec.ofBool b).setWidth n <<< i)

/-- `rx_data[6:0]`. -/
def index (rxData : BitVec 8) : Nat := (rxData.extractLsb' 0 7).toNat

/-- `status_buffer` as it is filled. -/
def status (seg : BitVec 40) (key : BitVec 8) (sw : BitVec 64) (led : Word) : Vector (BitVec 8) 18 :=
  #v[seg.extractLsb' 0 8, seg.extractLsb' 8 8, seg.extractLsb' 16 8, seg.extractLsb' 24 8,
    seg.extractLsb' 32 8,
    key,
    sw.extractLsb' 0 8, sw.extractLsb' 8 8, sw.extractLsb' 16 8, sw.extractLsb' 24 8,
    sw.extractLsb' 32 8, sw.extractLsb' 40 8, sw.extractLsb' 48 8, sw.extractLsb' 56 8,
    led.extractLsb' 0 8, led.extractLsb' 8 8, led.extractLsb' 16 8, led.extractLsb' 24 8]

variable (r : Regs) (p : In)

/-- A report is asked for, and none is being sent. -/
def asks : Bool := r.currentState == .idle && p.rxReady && p.rxData == 0x80#8

/-- The next byte of the report is offered to the serial port. -/
def offers : Bool := r.currentState == .send && !p.txBusy

def nextState : State :=
  match r.currentState with
  | .idle => if p.rxReady && p.rxData == 0x80#8 then .send else .idle
  | .send => if !p.txBusy && r.sendCnt == 17#5 then .idle else .send

/-- `status_buffer[send_cnt]`; `send_cnt` stays below 18. -/
def statusByte : BitVec 8 := r.statusBuffer.toList.getD r.sendCnt.toNat 0#8

/-- A byte that switches something. -/
def commands : Bool := p.rxReady && p.rxData != 0x80#8 && p.rxData != 0#8

def next : Regs :=
  { currentState := nextState r p
    sendCnt :=
      if r.currentState == .idle then 0#5
      -- `tx_start` is up for two cycles, and counts in the first
      else if r.txStart && !r.txStartD then r.sendCnt + 1#5
      else r.sendCnt
    statusBuffer := if asks r p then status p.seg r.key r.sw p.led else r.statusBuffer
    txStart := offers r p
    txStartD := r.txStart
    txData := if offers r p then statusByte r else r.txData
    sw :=
      if commands p && decide (index p.rxData ≤ 64) then
        setBit r.sw (index p.rxData - 1) (p.rxData.getLsbD 7)
      else r.sw
    key :=
      if commands p && !decide (index p.rxData ≤ 64) && decide (index p.rxData ≤ 72) then
        setBit r.key (index p.rxData - 65) (p.rxData.getLsbD 7)
      else r.key }

end TwinController
end Board
end RiscvCpu
