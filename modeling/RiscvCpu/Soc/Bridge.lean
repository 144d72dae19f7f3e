import RiscvCpu.Soc.Defines

/-!
# Bridge — `bridge.sv` and `soc_data_ram`

The address decode between the core and the memory, the peripherals and the interrupt controller.
Each target's answer is captured in the cycle of the request, and a registered target select returns
it to the core one cycle later.
-/

namespace RiscvCpu

/-- A data request of the core. -/
structure DmemReq where
  en : Bool
  addr : Word
  wen : BitVec 4
  wdata : Word

namespace DataRam

/-- The 65536 words of `soc_data_ram`. -/
abbrev Mem := BitVec 16 → Word

/-- `addr[INDEX_WIDTH+1:2]`. -/
def index (addr : Word) : BitVec 16 := addr.extractLsb' 2 16

def rdata (m : Mem) (en : Bool) (addr : Word) : Word := if en then m (index addr) else 0#32

def next (m : Mem) (en : Bool) (addr : Word) (wen : BitVec 4) (wdata : Word) : Mem :=
  if en then Function.update m (index addr) (strobeWord wen (m (index addr)) wdata) else m

end DataRam

namespace Bridge

/-- `TARGET_*`. -/
inductive Target
  | none
  | ram
  | io
  | plic
  deriving DecidableEq

structure Regs where
  readTargetR : Target
  ramRdataR : Word
  ioRdataR : Word
  plicRdataR : Word

def reset : Regs :=
  { readTargetR := .none
    ramRdataR := 0#32
    ioRdataR := 0#32
    plicRdataR := 0#32 }

/-- The answers of the three targets in one cycle. -/
structure Answers where
  ramRdata : Word
  ioRdata : Word
  plicRdata : Word

variable (r : Regs) (q : DmemReq) (a : Answers)

def cpuWrite : Bool := q.en && q.wen != 0#4
def cpuRead : Bool := q.en && q.wen == 0#4

def ramBootSel : Bool := q.addr.extractLsb' 28 4 == 0x6#4
def ramCoremarkSel : Bool := Map.page q.addr == 0x8000#16
def ramExtSel : Bool := q.addr.extractLsb' 18 14 == 0b10000000000100#14

def ramSel : Bool := q.en && (ramBootSel q || ramCoremarkSel q || ramExtSel q)

def ioRegionSel : Bool :=
  q.en &&
    (Map.page q.addr == Map.page Map.UART_BASE_ADDR ||
      Map.page q.addr == Map.page Map.TIMER_BASE_ADDR ||
      Map.page q.addr == Map.page Map.LEDS_BASE_ADDR)

def plicRegionSel : Bool :=
  q.en && Map.page q.addr == 0x8030#16 && decide (q.addr.extractLsb' 12 4 ≤ 0x5#4)

def ramWen : BitVec 4 := if ramSel q && cpuWrite q then q.wen else 0#4

def ioRe : Bool := ioRegionSel q && cpuRead q
def ioWen : BitVec 4 := if ioRegionSel q && cpuWrite q then q.wen else 0#4

def plicRe : Bool := plicRegionSel q && cpuRead q
def plicWe : Bool := plicRegionSel q && cpuWrite q

def cpuDmemRdata : Word :=
  match r.readTargetR with
  | .ram => r.ramRdataR
  | .io => r.ioRdataR
  | .plic => r.plicRdataR
  | .none => 0#32

def next : Regs :=
  { readTargetR :=
      if q.en then
        if ramSel q then .ram
        else if ioRegionSel q then .io
        else if plicRegionSel q then .plic
        else .none
      else .none
    -- every target's answer is taken in the cycle of the request
    ramRdataR := if cpuRead q && ramSel q then a.ramRdata else r.ramRdataR
    ioRdataR := if cpuRead q && ioRegionSel q then a.ioRdata else r.ioRdataR
    plicRdataR := if cpuRead q && plicRegionSel q then a.plicRdata else r.plicRdataR }

end Bridge
end RiscvCpu
