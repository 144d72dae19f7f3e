import RiscvCpu.Soc.Defines

/-!
# Plic — `PLIC.sv`

The interrupt controller: pending, enable, in-service, priority and threshold registers, the two-pass
priority search, and the registered claim candidate.
-/

namespace RiscvCpu
namespace Plic

structure Regs where
  priorityRegs : BitVec 5 → BitVec 3
  pendingRegs : Word
  enableRegs : Word
  thresholdReg : BitVec 3
  inServiceRegs : Word
  claimIdR : BitVec 5
  claimValidR : Bool
  plicIrq : Bool
  plicRdata : Word

structure In where
  peripheralInterrupts : Word
  plicSel : Bool
  plicWe : Bool
  plicRe : Bool
  plicAddr : Word
  plicWdata : Word

def reset : Regs :=
  { priorityRegs := fun _ => 0#3
    pendingRegs := 0#32
    enableRegs := 0#32
    thresholdReg := 0#3
    inServiceRegs := 0#32
    claimIdR := 0#5
    claimValidR := false
    plicIrq := false
    plicRdata := 0#32 }

variable (r : Regs) (p : In)

/-! ## Priority search -/

def eligibleIrqs : Word := r.pendingRegs &&& r.enableRegs &&& ~~~r.inServiceRegs

/-- `prio_valid` and `prio_id`: for each priority, whether a source has it and which. -/
structure Buckets where
  prioValid : BitVec 3 → Bool
  prioId : BitVec 3 → BitVec 5

/-- One turn of the loop over the sources. -/
def Buckets.enter (b : Buckets) (i : Nat) : Buckets :=
  -- the loop counts down, so the lowest source of a priority is entered last
  if (eligibleIrqs r).getLsbD i then
    { prioValid := Function.update b.prioValid (r.priorityRegs (BitVec.ofNat 5 i)) true
      prioId :=
        Function.update b.prioId (r.priorityRegs (BitVec.ofNat 5 i)) (BitVec.ofNat 5 i) }
  else b

/-- `n, n - 1, …, 1`. -/
def downFrom : Nat → List Nat
  | 0 => []
  | n + 1 => (n + 1) :: downFrom n

def buckets : Buckets :=
  (downFrom (Map.PLIC_NUM_INTERRUPTS - 1)).foldl (Buckets.enter r)
    ⟨fun _ => false, fun _ => 0#5⟩

/-- `claim_valid_next` and `claim_id_next`. -/
structure Claim where
  valid : Bool
  id : BitVec 5

/-- One turn of the loop over the priorities. -/
def Claim.search (b : Buckets) (c : Claim) (q : Nat) : Claim :=
  -- the first priority that is found is the highest
  if !c.valid && b.prioValid (BitVec.ofNat 3 q) && decide (r.thresholdReg.toNat < q) then
    { valid := true, id := b.prioId (BitVec.ofNat 3 q) }
  else c

def claimNext : Claim := (downFrom 7).foldl (Claim.search r (buckets r)) ⟨false, 0#5⟩

/-! ## Register port -/

/-- The address is one of the priority registers. -/
def isPriorityAddr (addr : Word) : Bool :=
  decide (Map.PLIC_PRIORITY_BASE_ADDR ≤ addr) &&
    decide (addr < Map.PLIC_PRIORITY_BASE_ADDR + BitVec.ofNat 32 (Map.PLIC_NUM_INTERRUPTS * 4))

def priorityIdx (addr : Word) : BitVec 5 :=
  ((addr - Map.PLIC_PRIORITY_BASE_ADDR) >>> 2).setWidth 5

def readReg (addr : Word) : Word :=
  if isPriorityAddr addr then (r.priorityRegs (priorityIdx addr)).setWidth 32
  else if addr == Map.PLIC_PENDING_BASE_ADDR then r.pendingRegs
  else if addr == Map.PLIC_ENABLE_BASE_ADDR then r.enableRegs
  else if addr == Map.PLIC_THRESHOLD_BASE_ADDR then r.thresholdReg.setWidth 32
  else if addr == Map.PLIC_IN_SERVICE_BASE_ADDR then r.inServiceRegs
  else 0xDEAD_BEEF#32

/-- What a read at `addr` puts on `plic_rdata`: the claimed id, or the register. -/
def readData (addr : Word) : Word :=
  if addr == Map.PLIC_CLAIM_BASE_ADDR then
    if r.claimValidR then r.claimIdR.setWidth 32 else 0#32
  else readReg r addr

def writeReg (addr data : Word) : Regs :=
  if isPriorityAddr addr then
    -- source 0 has no priority
    if priorityIdx addr != 0#5 then
      { r with
        priorityRegs := Function.update r.priorityRegs (priorityIdx addr) (data.setWidth 3) }
    else r
  else if addr == Map.PLIC_ENABLE_BASE_ADDR then
    { r with enableRegs := data.extractLsb' 1 31 ++ 0#1 }
  else if addr == Map.PLIC_THRESHOLD_BASE_ADDR then { r with thresholdReg := data.setWidth 3 }
  else r

/-! ## Clock edge -/

/-- The bit of one source. -/
def sourceBit (id : BitVec 5) : Word := 1#32 <<< id.toNat

def claimMask : Word :=
  -- the candidate of the cycle before, not that of this one
  if p.plicSel && p.plicRe && p.plicAddr == Map.PLIC_CLAIM_BASE_ADDR && r.claimValidR then
    sourceBit r.claimIdR
  else 0#32

/-- `plic_wdata[ID_WIDTH-1:0]`. -/
def completeId : BitVec 5 := p.plicWdata.setWidth 5

def releaseMask : Word :=
  if p.plicSel && p.plicWe && p.plicAddr == Map.PLIC_CLAIM_BASE_ADDR &&
      (completeId p != 0#5 && decide ((completeId p).toNat < Map.PLIC_NUM_INTERRUPTS) &&
        r.inServiceRegs.getLsbD (completeId p).toNat) then
    sourceBit (completeId p)
  else 0#32

/-- `x[0] = 0`. -/
def clearBit0 (x : Word) : Word := x &&& ~~~1#32

def pendingNext : Word :=
  clearBit0
    -- a claim goes before an input that is high in the same cycle
    ((r.pendingRegs ||| (p.peripheralInterrupts &&& ~~~r.inServiceRegs)) &&& ~~~claimMask r p)

def inServiceNext : Word :=
  -- a complete goes before a claim of the same source
  clearBit0 ((r.inServiceRegs ||| claimMask r p) &&& ~~~releaseMask r p)

def next : Regs :=
  let r' :=
    if p.plicSel && p.plicWe && p.plicAddr != Map.PLIC_CLAIM_BASE_ADDR then
      writeReg r p.plicAddr p.plicWdata
    else r
  { r' with
    pendingRegs := pendingNext r p
    inServiceRegs := inServiceNext r p
    claimIdR := (claimNext r).id
    claimValidR := (claimNext r).valid
    plicIrq := (claimNext r).valid
    plicRdata := if p.plicSel && p.plicRe then readData r p.plicAddr else r.plicRdata }

end Plic
end RiscvCpu
