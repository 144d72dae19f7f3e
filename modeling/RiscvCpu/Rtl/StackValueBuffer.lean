import RiscvCpu.Rtl.Defines

/-!
# StackValueBuffer — `stack_value_buffer.sv`

A direct-mapped table of `2 ^ n` words of the 256 KiB stack window.  Reset clears the valid bits and
the captured word; tags and data keep what they held.
-/

namespace RiscvCpu
namespace StackValueBuffer

/-- The registers of a buffer with `INDEX_WIDTH = n` and `TAG_WIDTH = 18 - n - 2`. -/
structure Regs (n : Nat) where
  validArray : BitVec n → Bool
  tagArray : BitVec n → BitVec (16 - n)
  dataArray : BitVec n → Word
  capturedValid : Bool
  capturedData : Word

structure Ports where
  captureEn : Bool
  captureAddr : Word
  captureFlush : Bool
  storeValid : Bool
  storeAllocate : Bool
  storeAddr : Word
  storeWstrb : BitVec 4
  storeWdata : Word

variable {n : Nat}

def reset (r : Regs n) : Regs n :=
  { r with validArray := fun _ => false, capturedValid := false, capturedData := 0#32 }

def index (n : Nat) (addr : Word) : BitVec n := addr.extractLsb' 2 n

def tag (n : Nat) (addr : Word) : BitVec (16 - n) := addr.extractLsb' (n + 2) (16 - n)

/-- The entry that `addr` maps to is valid and carries its tag. -/
def tagHit (r : Regs n) (addr : Word) : Bool :=
  r.validArray (index n addr) && (r.tagArray (index n addr) == tag n addr)

def queryHit (r : Regs n) (queryValid : Bool) (queryAddr : Word) : Bool :=
  queryValid && (queryAddr.extractLsb' 0 2 == 0b00#2) && tagHit r queryAddr

def queryData (r : Regs n) (queryAddr : Word) : Word := r.dataArray (index n queryAddr)

/-- The store of this cycle writes its entry. -/
def storeWrite (r : Regs n) (p : Ports) : Bool :=
  p.storeValid && (p.storeWstrb == 0b1111#4) && (p.storeAllocate || tagHit r p.storeAddr)

/-- The store of this cycle invalidates its entry. -/
def storeInvalidate (r : Regs n) (p : Ports) : Bool :=
  p.storeValid && (p.storeWstrb != 0b1111#4) && tagHit r p.storeAddr

def next (r : Regs n) (p : Ports) : Regs n :=
  { validArray :=
      if storeWrite r p then Function.update r.validArray (index n p.storeAddr) true
      else if storeInvalidate r p then Function.update r.validArray (index n p.storeAddr) false
      else r.validArray
    tagArray :=
      if storeWrite r p then Function.update r.tagArray (index n p.storeAddr) (tag n p.storeAddr)
      else r.tagArray
    dataArray :=
      if storeWrite r p then Function.update r.dataArray (index n p.storeAddr) p.storeWdata
      else r.dataArray
    capturedValid := if p.captureFlush then false else p.captureEn
    capturedData :=
      if p.captureFlush then r.capturedData
      -- by index alone: the tag was compared when the load was in decode
      else if p.captureEn then r.dataArray (index n p.captureAddr)
      else r.capturedData }

end StackValueBuffer
end RiscvCpu
