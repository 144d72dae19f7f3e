import RiscvCpu.Rtl.Defines

/-!
# IfStage — `if_stage.sv`

One-cycle instruction fetch with a 128-entry direct-mapped branch target buffer.  Reset clears the
valid bitmaps and leaves the two payload memories as they are.
-/

namespace RiscvCpu
namespace IfStage

/-- One BTB payload, `{tag, counter, target}`. -/
structure BpEntry where
  tag : BitVec 23
  counter : BitVec 2
  target : Word

structure Regs where
  ifActive : Bool
  reqValid : Bool
  reqPc : Word
  redirectPending : Bool
  redirectPcR : Word
  bpValidLookup : BitVec 7 → Bool
  bpValidUpdate : BitVec 7 → Bool
  bpLookupMem : BitVec 7 → BpEntry
  bpUpdateMem : BitVec 7 → BpEntry
  bpQValid : Bool
  bpQEntry : BpEntry
  bpUpdateValidR : Bool
  bpUpdatePcR : Word
  bpUpdateTakenR : Bool
  bpUpdateTargetR : Word

structure Ports where
  instIn : Word
  dsAllowin : Bool
  brTaken : Bool
  brTarget : Word
  bpUpdateValid : Bool
  bpUpdatePc : Word
  bpUpdateTaken : Bool
  bpUpdateTarget : Word
  bpUpdateIsJalr : Bool
  exceptionFlag : Bool
  exceptionAddr : Word

/-- The registers after a clock edge with `rst_n` low. -/
def reset (r : Regs) : Regs :=
  { r with
    ifActive := false
    reqValid := false
    reqPc := 0#32
    redirectPending := false
    redirectPcR := 0#32
    bpValidLookup := fun _ => false
    bpValidUpdate := fun _ => false
    bpQValid := false
    bpQEntry := ⟨0#23, 0#2, 0#32⟩
    bpUpdateValidR := false
    bpUpdatePcR := 0#32
    bpUpdateTakenR := false
    bpUpdateTargetR := 0#32 }

def bpIndex (pc : Word) : BitVec 7 := pc.extractLsb' 2 7
def bpTag (pc : Word) : BitVec 23 := pc.extractLsb' 9 23

def bpCounterUpdate (current : BitVec 2) (taken : Bool) : BitVec 2 :=
  -- the two-bit counter saturates at both ends
  if taken then
    if current == 0b11#2 then current else current + 1#2
  else
    if current == 0b00#2 then current else current - 1#2

/-! ## Combinational wires -/

def redirectNow (p : Ports) : Bool := p.exceptionFlag || p.brTaken

def bpHit (r : Regs) : Bool := r.bpQValid && (r.bpQEntry.tag == bpTag r.reqPc)

def bpPredTaken (r : Regs) : Bool := bpHit r && r.bpQEntry.counter.getLsbD 1

def bpPredTarget (r : Regs) : Word := if bpHit r then r.bpQEntry.target else 0#32

def predictedNextPc (r : Regs) : Word :=
  if bpPredTaken r then r.bpQEntry.target else r.reqPc + 4#32

def responseFire (r : Regs) (p : Ports) : Bool :=
  r.reqValid && p.dsAllowin && !redirectNow p

def requestFire (r : Regs) (p : Ports) : Bool :=
  -- an accepted response frees the bus for the next request in the same cycle
  r.ifActive && !redirectNow p && (!r.reqValid || responseFire r p)

def requestPc (cfg : Config) (r : Regs) : Word :=
  if r.redirectPending then r.redirectPcR
  else if r.reqValid then predictedNextPc r
  -- the first request after reset
  else cfg.pcStart

def fsToDsValid (r : Regs) (p : Ports) : Bool := r.reqValid && !redirectNow p

def fsToDsBus (r : Regs) (p : Ports) : FsToDsBus :=
  { inst := p.instIn
    pc := r.reqPc
    bpPredTaken := bpPredTaken r
    bpPredTarget := bpPredTarget r }

def fsExcBus : ExcBus := ⟨Exc.NONE, 0#32⟩

/-! ## Predictor training -/

def bpUpdateIndex (r : Regs) : BitVec 7 := bpIndex r.bpUpdatePcR

def bpUpdateEntry (r : Regs) : BpEntry := r.bpUpdateMem (bpUpdateIndex r)

def bpUpdateTagMatch (r : Regs) : Bool :=
  r.bpValidUpdate (bpUpdateIndex r) && ((bpUpdateEntry r).tag == bpTag r.bpUpdatePcR)

def bpUpdateCounterNext (r : Regs) : BitVec 2 :=
  if bpUpdateTagMatch r then
    bpCounterUpdate (bpUpdateEntry r).counter r.bpUpdateTakenR
  -- a new entry starts in one of the two weak states
  else if r.bpUpdateTakenR then 0b10#2 else 0b01#2

def bpUpdateEntryNext (r : Regs) : BpEntry :=
  { tag := bpTag r.bpUpdatePcR
    counter := bpUpdateCounterNext r
    target := r.bpUpdateTargetR }

def bpLookupUpdateCollision (cfg : Config) (r : Regs) (p : Ports) : Bool :=
  -- the lookup table is read in the cycle in which it is written
  r.bpUpdateValidR && requestFire r p && (bpUpdateIndex r == bpIndex (requestPc cfg r))

/-- The write port shared by the lookup table and its update shadow. -/
def bpWrite {α : Type} (r : Regs) (mem : BitVec 7 → α) (x : α) : BitVec 7 → α :=
  if r.bpUpdateValidR then Function.update mem (bpUpdateIndex r) x else mem

/-! ## Clock edge -/

def next (cfg : Config) (r : Regs) (p : Ports) : Regs :=
  { ifActive := true
    -- a redirect drops the outstanding response
    reqValid :=
      if redirectNow p then false
      else if requestFire r p then true
      else if responseFire r p then false
      else r.reqValid
    reqPc :=
      if redirectNow p then r.reqPc
      else if requestFire r p then requestPc cfg r
      else r.reqPc
    redirectPending :=
      if p.exceptionFlag then true
      else if p.brTaken then true
      else if requestFire r p && r.redirectPending then false
      else r.redirectPending
    -- an exception goes before a branch
    redirectPcR :=
      if p.exceptionFlag then p.exceptionAddr
      else if p.brTaken then p.brTarget
      else r.redirectPcR
    bpValidLookup := bpWrite r r.bpValidLookup true
    bpValidUpdate := bpWrite r r.bpValidUpdate true
    bpLookupMem := bpWrite r r.bpLookupMem (bpUpdateEntryNext r)
    bpUpdateMem := bpWrite r r.bpUpdateMem (bpUpdateEntryNext r)
    bpQValid :=
      if requestFire r p then
        if bpLookupUpdateCollision cfg r p then true
        else r.bpValidLookup (bpIndex (requestPc cfg r))
      else if redirectNow p then false
      else r.bpQValid
    bpQEntry :=
      if requestFire r p then
        -- the entry on its way into the table is passed on
        if bpLookupUpdateCollision cfg r p then bpUpdateEntryNext r
        else r.bpLookupMem (bpIndex (requestPc cfg r))
      else r.bpQEntry
    -- `jalr` is not trained
    bpUpdateValidR := p.bpUpdateValid && !p.bpUpdateIsJalr
    bpUpdatePcR :=
      if p.bpUpdateValid && !p.bpUpdateIsJalr then p.bpUpdatePc else r.bpUpdatePcR
    bpUpdateTakenR :=
      if p.bpUpdateValid && !p.bpUpdateIsJalr then p.bpUpdateTaken else r.bpUpdateTakenR
    bpUpdateTargetR :=
      if p.bpUpdateValid && !p.bpUpdateIsJalr then p.bpUpdateTarget else r.bpUpdateTargetR }

end IfStage
end RiscvCpu
