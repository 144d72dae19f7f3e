import RiscvCpu.Lib.Memory

/-!
# PeripBridge — `perip_bridge.sv` and `dram_driver.sv`

The board's bridge between the core, the data memory, the switches and keys, the LEDs and the display.
The data memory is the block memory of `memory_models.sv`, which answers with the word before the write.
The counter and the display driver are modules of their own: the value of the counter comes in as a
port.
-/

namespace RiscvCpu
namespace Board

namespace DramDriver

/-- The 65536 words of `blk_mem_gen_0`. -/
abbrev Mem := BitVec 16 → Word

/-- The memory and its output register. -/
structure Regs where
  mem : Mem
  douta : Word

/-- `perip_addr[17:2]`. -/
def addra (addr : Word) : BitVec 16 := addr.extractLsb' 2 16

def dramWe (peripMask : BitVec 4) (dramWen : Bool) : BitVec 4 :=
  if dramWen then peripMask else 0#4

def next (r : Regs) (addr wdata : Word) (peripMask : BitVec 4) (dramWen : Bool) : Regs :=
  { mem :=
      Function.update r.mem (addra addr)
        (strobeWord (dramWe peripMask dramWen) (r.mem (addra addr)) wdata)
    douta := r.mem (addra addr) }

end DramDriver

namespace PeripBridge

def SW0_ADDR : Word := 0x8020_0000#32
def SW1_ADDR : Word := 0x8020_0004#32
def KEY_ADDR : Word := 0x8020_0010#32
def SEG_ADDR : Word := 0x8020_0020#32
def LED_ADDR : Word := 0x8020_0040#32
def CNT_ADDR : Word := 0x8020_0050#32
def CNT_START_CMD : Word := 0x8000_0000#32
def CNT_STOP_CMD : Word := 0xFFFF_FFFF#32

structure Regs where
  led : Word
  segWdata : Word
  cntEnableCfg : Bool
  readAddrD : Word
  readValidD : Bool
  mmioRdata : Word
  dram : DramDriver.Regs

structure In where
  peripAddr : Word
  peripWdata : Word
  peripWen : Bool
  peripRen : Bool
  peripMask : BitVec 4
  virtualSwInput : BitVec 64
  virtualKeyInput : BitVec 8

/-- The output registers of the memories are not reset. -/
def reset (r : Regs) : Regs :=
  { r with
    led := 0#32
    segWdata := 0#32
    cntEnableCfg := false
    readAddrD := 0#32
    readValidD := false }

/-- `dram_region_sel` of an address. -/
def dramRegionSel (addr : Word) : Bool := addr.extractLsb' 18 14 == 0b10000000000100#14

variable (r : Regs) (p : In)

/-- `cnt_enable_cfg` after a write to the counter. -/
def cntEnableNext (wdata : Word) : Bool :=
  if wdata == CNT_START_CMD then true
  else if wdata == CNT_STOP_CMD then false
  else r.cntEnableCfg

/-- The register that `perip_addr` selects for reading. -/
def mmioNext : Word :=
  if p.peripAddr == SW0_ADDR then p.virtualSwInput.extractLsb' 0 32
  else if p.peripAddr == SW1_ADDR then p.virtualSwInput.extractLsb' 32 32
  else if p.peripAddr == KEY_ADDR then p.virtualKeyInput.setWidth 32
  else if p.peripAddr == SEG_ADDR then r.segWdata
  else 0xDEAD_BEEF#32

def next : Regs :=
  -- the mask is looked at by the data memory only
  { led := if p.peripWen && p.peripAddr == LED_ADDR then p.peripWdata else r.led
    segWdata := if p.peripWen && p.peripAddr == SEG_ADDR then p.peripWdata else r.segWdata
    cntEnableCfg :=
      if p.peripWen && p.peripAddr == CNT_ADDR then cntEnableNext r p.peripWdata
      else r.cntEnableCfg
    readAddrD := p.peripAddr
    readValidD := p.peripRen
    mmioRdata := mmioNext r p
    dram :=
      DramDriver.next r.dram p.peripAddr p.peripWdata p.peripMask
        (p.peripWen && dramRegionSel p.peripAddr) }

/-- `{32{c}} & x`. -/
def masked (c : Bool) (x : Word) : Word := if c then x else 0#32

/-- `perip_rdata`, with `cnt_rdata` from the counter. -/
def peripRdata (cntRdata : Word) : Word :=
  if r.readValidD then
    masked (r.readAddrD == SW0_ADDR) r.mmioRdata |||
      masked (r.readAddrD == SW1_ADDR) r.mmioRdata |||
      masked (r.readAddrD == KEY_ADDR) r.mmioRdata |||
      masked (r.readAddrD == SEG_ADDR) r.mmioRdata |||
      masked (dramRegionSel r.readAddrD) r.dram.douta |||
      masked (r.readAddrD == CNT_ADDR) cntRdata
  else 0#32

end PeripBridge
end Board
end RiscvCpu
