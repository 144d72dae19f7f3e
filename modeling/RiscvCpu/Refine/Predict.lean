import RiscvCpu.Refine.Stream
import RiscvCpu.Rtl.TbCpuTop

/-!
# Predict — words and predictions belong to the memory

The words in flight are those of the instruction memory at their pcs, and only a branch or a jump is
ever predicted taken: the branch target buffer is trained at their pcs, and its tags tell aligned pcs
apart.
-/

namespace RiscvCpu

open Decode

/-! ## Words -/

namespace Cpu

/-- The words in front of the memory stage are those of the program `imem` at their pcs; `rdata` is
the output of the instruction memory. -/
structure Fetched (imem : Word → Word) (s : Cpu) (rdata : Word) : Prop where
  fetch : s.fs.reqValid = true → rdata = imem s.fs.reqPc
  dsMain : s.ds.buf.valid = true → s.ds.buf.main.bus.inst = imem s.ds.buf.main.bus.pc
  dsSkid : s.ds.buf.skidValid = true → s.ds.buf.skid.bus.inst = imem s.ds.buf.skid.bus.pc
  esMain : s.es.buf.valid = true → PayloadOf (imem s.es.buf.main.bus.ctrl.pc) s.es.buf.main
  esSkid : s.es.buf.skidValid = true → PayloadOf (imem s.es.buf.skid.bus.ctrl.pc) s.es.buf.skid

variable {cfg : Config} {imem : Word → Word} {s : Cpu} {i i' : CpuIn} {rdata : Word}

theorem fetched_reset (s₀ : Cpu) : Fetched imem s₀.reset rdata := by
  constructor <;> intro h <;> cases h

/-- A pending response was requested on this edge or stood before. -/
theorem next_reqPc :
    (next cfg s i).fs.reqPc = (if imemEn cfg s i then imemAddr cfg s else s.fs.reqPc) ∧
      ((next cfg s i).fs.reqValid = true → imemEn cfg s i = true ∨ s.fs.reqValid = true) := by
  constructor
  · cases hred : IfStage.redirectNow (ifPorts cfg s i) with
    | false =>
        simp only [next, IfStage.next, hred, imemEn, imemAddr]
        rfl
    | true => simp [next, IfStage.next, hred, imemEn, IfStage.requestFire]
  · intro hv
    by_contra hn
    simp only [not_or, Bool.not_eq_true] at hn
    have hreq : IfStage.requestFire s.fs (ifPorts cfg s i) = false := hn.1
    simp [next, IfStage.next, hreq, hn.2] at hv

/-- The memory's output and the pc of the request change together. -/
theorem fetched_next (hc : Control s) (h : Fetched imem s i.imemRdata)
    (hrdata : rdata = if imemEn cfg s i then imem (imemAddr cfg s) else i.imemRdata) :
    Fetched imem (next cfg s i) rdata := by
  -- decode takes the response on the bus, execute takes what decode holds
  have hds := SkidBuffer.forall_next (w := dsWires cfg s i) (x := dsPayload cfg s i)
    (P := fun l : IdStage.Payload => l.bus.inst = imem l.bus.pc) h.dsMain h.dsSkid (by
      intro hfire
      rw [ds_inFire, Bool.and_eq_true, Bool.and_eq_true] at hfire
      exact h.fetch hfire.1.1)
  have hes := SkidBuffer.forall_next (w := esWires cfg s i) (x := esPayload cfg s i)
    (P := fun l : ExeStage.Payload => PayloadOf (imem l.bus.ctrl.pc) l) h.esMain h.esSkid (by
      intro hfire
      have hv := ds_valid_of_es_inFire hfire
      show PayloadOf (imem s.ds.buf.main.bus.pc) _
      rw [← h.dsMain hv]
      exact payloadOf_esPayload hc hv)
  rcases @next_reqPc cfg s i with ⟨hpc, hvalid⟩
  refine { fetch := ?_, dsMain := hds.1, dsSkid := hds.2, esMain := hes.1, esSkid := hes.2 }
  -- the response belongs to the request that was made with it
  intro hv
  rw [hrdata, hpc]
  cases hen : imemEn cfg s i with
  | true => rfl
  | false =>
      rcases hvalid hv with hreq | hold
      · rw [hen] at hreq
        cases hreq
      · exact h.fetch hold

end Cpu

namespace Tb

/-- The words in flight are the memory's, and no load has hit the stack value buffer. -/
structure Words (imem : Word → Word) (s : Tb) : Prop where
  fetch : s.cpu.fs.reqValid = true → s.imemRdata = imem s.cpu.fs.reqPc
  dsMain : s.cpu.ds.buf.valid = true →
    s.cpu.ds.buf.main.bus.inst = imem s.cpu.ds.buf.main.bus.pc
  dsSkid : s.cpu.ds.buf.skidValid = true →
    s.cpu.ds.buf.skid.bus.inst = imem s.cpu.ds.buf.skid.bus.pc
  esMain : s.cpu.es.buf.valid = true →
    PayloadOf (imem s.cpu.es.buf.main.bus.ctrl.pc) s.cpu.es.buf.main ∧
      s.cpu.es.buf.main.bus.mem.stackLoadHit = false
  esSkid : s.cpu.es.buf.skidValid = true →
    PayloadOf (imem s.cpu.es.buf.skid.bus.ctrl.pc) s.cpu.es.buf.skid ∧
      s.cpu.es.buf.skid.bus.mem.stackLoadHit = false

variable {cfg : Config} {imem : Word → Word} {s : Tb}

theorem words_reset (cpu : Cpu) (dmem : DMem) : Words imem (reset cpu dmem) := by
  constructor <;> intro h <;> cases h

theorem Words.fetched (h : Words imem s) : Cpu.Fetched imem s.cpu s.imemRdata :=
  { fetch := h.fetch
    dsMain := h.dsMain
    dsSkid := h.dsSkid
    esMain := fun hv => (h.esMain hv).1
    esSkid := fun hv => (h.esSkid hv).1 }

/-- A load that hits the stack value buffer in decode is based on `x2` or `x8`. -/
theorem stackBase_of_hit {c : Cpu} {i : CpuIn}
    (h : (Cpu.dsToEsBus cfg c i).mem.stackLoadHit = true) :
    instLw (IdStage.idInst c.ds) = true ∧ stackBaseReg (IdStage.idInst c.ds) = true := by
  simp only [Cpu.dsToEsBus, IdStage.dsToEsBus, IdStage.memPacket, IdStage.stackLoadHit,
    IdStage.stackQueryValid, Bool.and_eq_true] at h
  exact ⟨h.1.1.1.1.1.1.2, h.1.1.1.1.1.2⟩

theorem words_next (hc : Cpu.Control s.cpu) (h : Words imem s)
    (hno : ∀ a, instLw (imem a) = true → stackBaseReg (imem a) = false) :
    Words imem (next cfg imem s) := by
  have hword : Cpu.Fetched imem (next cfg imem s).cpu (next cfg imem s).imemRdata :=
    Cpu.fetched_next hc h.fetched rfl
  -- no such program has a stack load
  have hhit := SkidBuffer.forall_next (w := Cpu.esWires cfg s.cpu s.inputs)
    (x := Cpu.esPayload cfg s.cpu s.inputs)
    (P := fun l : ExeStage.Payload => l.bus.mem.stackLoadHit = false)
    (fun hv => (h.esMain hv).2) (fun hv => (h.esSkid hv).2) (by
      intro hfire
      have hinst : IdStage.idInst s.cpu.ds = imem s.cpu.ds.buf.main.bus.pc :=
        h.dsMain (Cpu.ds_valid_of_es_inFire hfire)
      cases hhit : (Cpu.esPayload cfg s.cpu s.inputs).bus.mem.stackLoadHit with
      | false => rfl
      | true =>
          rcases stackBase_of_hit hhit with ⟨hlw, hbase⟩
          rw [hinst] at hlw hbase
          rw [hno _ hlw] at hbase
          cases hbase)
  exact
    { fetch := hword.fetch
      dsMain := hword.dsMain
      dsSkid := hword.dsSkid
      esMain := fun hv => ⟨hword.esMain hv, hhit.1 hv⟩
      esSkid := fun hv => ⟨hword.esSkid hv, hhit.2 hv⟩ }

end Tb

/-! ## Predictions -/

namespace Cpu

/-- The pc, when it is aligned, holds a branch or a jump. -/
def JumpAt (imem : Word → Word) (pc : Word) : Prop :=
  pc.toNat % 4 = 0 → isBrJmpInst (imem pc) = true

/-- The entry at `idx` belongs to an aligned pc that holds a branch or a jump. -/
def Trained (imem : Word → Word) (idx : BitVec 7) (e : IfStage.BpEntry) : Prop :=
  ∃ pc : Word, pc.toNat % 4 = 0 ∧ IfStage.bpIndex pc = idx ∧ IfStage.bpTag pc = e.tag ∧
    isBrJmpInst (imem pc) = true

/-- Index and tag tell aligned pcs apart. -/
theorem eq_of_index_tag {pc pc' : Word} (h : pc.toNat % 4 = 0) (h' : pc'.toNat % 4 = 0)
    (hidx : IfStage.bpIndex pc = IfStage.bpIndex pc')
    (htag : IfStage.bpTag pc = IfStage.bpTag pc') : pc = pc' := by
  have hlt := pc.isLt
  have hlt' := pc'.isLt
  simp only [IfStage.bpIndex, IfStage.bpTag, ← BitVec.toNat_inj, BitVec.extractLsb'_toNat,
    Nat.shiftRight_eq_div_pow] at hidx htag
  apply BitVec.eq_of_toNat_eq
  omega

theorem jumpAt_of_trained {imem : Word → Word} {pc : Word} {e : IfStage.BpEntry}
    (h : Trained imem (IfStage.bpIndex pc) e) (htag : e.tag = IfStage.bpTag pc) :
    JumpAt imem pc := by
  rcases h with ⟨pc', hal', hidx, htag', hjmp⟩
  intro hal
  rw [eq_of_index_tag hal hal' hidx.symm (htag.symm.trans htag'.symm)]
  exact hjmp

/-- Nothing but a branch or a jump is predicted taken. -/
structure Predict (imem : Word → Word) (s : Cpu) : Prop where
  table : ∀ idx, s.fs.bpValidLookup idx = true → Trained imem idx (s.fs.bpLookupMem idx)
  response : s.fs.reqValid = true → s.fs.bpQValid = true →
    Trained imem (IfStage.bpIndex s.fs.reqPc) s.fs.bpQEntry
  update : s.fs.bpUpdateValidR = true → s.fs.bpUpdatePcR.toNat % 4 = 0 ∧
    isBrJmpInst (imem s.fs.bpUpdatePcR) = true
  dsMain : s.ds.buf.valid = true → s.ds.buf.main.bus.bpPredTaken = true →
    JumpAt imem s.ds.buf.main.bus.pc
  dsSkid : s.ds.buf.skidValid = true → s.ds.buf.skid.bus.bpPredTaken = true →
    JumpAt imem s.ds.buf.skid.bus.pc
  esMain : s.es.buf.valid = true → s.es.buf.main.bus.brJmp.bpPredTaken = true →
    JumpAt imem s.es.buf.main.bus.ctrl.pc
  esSkid : s.es.buf.skidValid = true → s.es.buf.skid.bus.brJmp.bpPredTaken = true →
    JumpAt imem s.es.buf.skid.bus.ctrl.pc

variable {cfg : Config} {imem : Word → Word} {s : Cpu} {i : CpuIn}

theorem predict_reset (s₀ : Cpu) : Predict imem s₀.reset := by
  constructor
  · intro idx h; cases h
  all_goals intro h; cases h

/-- The entry that the update registers write. -/
theorem trained_update (h : Predict imem s) (hv : s.fs.bpUpdateValidR = true) :
    Trained imem (IfStage.bpUpdateIndex s.fs) (IfStage.bpUpdateEntryNext s.fs) := by
  rcases h.update hv with ⟨hal, hjmp⟩
  exact ⟨s.fs.bpUpdatePcR, hal, rfl, rfl, hjmp⟩

theorem next_table (h : Predict imem s) (idx : BitVec 7)
    (hv : (next cfg s i).fs.bpValidLookup idx = true) :
    Trained imem idx ((next cfg s i).fs.bpLookupMem idx) := by
  simp only [next, IfStage.next, IfStage.bpWrite] at hv ⊢
  cases hu : s.fs.bpUpdateValidR with
  | false =>
      simp only [hu, Bool.false_eq_true, if_false] at hv ⊢
      exact h.table idx hv
  | true =>
      simp only [hu, if_true] at hv ⊢
      by_cases hidx : idx = IfStage.bpUpdateIndex s.fs
      · subst hidx
        rw [Function.update_self]
        exact trained_update h hu
      · rw [Function.update_of_ne hidx] at hv ⊢
        exact h.table idx hv

theorem next_response (h : Predict imem s) (hv : (next cfg s i).fs.reqValid = true)
    (hq : (next cfg s i).fs.bpQValid = true) :
    Trained imem (IfStage.bpIndex (next cfg s i).fs.reqPc) (next cfg s i).fs.bpQEntry := by
  simp only [next, IfStage.next] at hv hq ⊢
  cases hred : IfStage.redirectNow (ifPorts cfg s i) with
  | true => simp [hred] at hv
  | false =>
      cases hreq : IfStage.requestFire s.fs (ifPorts cfg s i) with
      -- no request: the old response with its old entry
      | false =>
          simp only [hred, hreq, Bool.false_eq_true, if_false] at hv hq ⊢
          have hold : s.fs.reqValid = true := by
            revert hv
            cases IfStage.responseFire s.fs (ifPorts cfg s i) <;> simp
          exact h.response hold hq
      | true =>
          simp only [hred, hreq, Bool.false_eq_true, if_false, if_true] at hq ⊢
          -- a request: the entry being written, or the one in the table
          cases hcol : IfStage.bpLookupUpdateCollision cfg s.fs (ifPorts cfg s i) with
          | true =>
              simp only [if_true]
              simp only [IfStage.bpLookupUpdateCollision, Bool.and_eq_true, beq_iff_eq] at hcol
              rw [← hcol.2]
              exact trained_update h hcol.1.1
          | false =>
              simp only [hcol, Bool.false_eq_true, if_false] at hq ⊢
              exact h.table _ hq

/-- What fetch predicts taken is a branch or a jump. -/
theorem jumpAt_of_bpPredTaken (h : Predict imem s) (hv : s.fs.reqValid = true)
    (htaken : IfStage.bpPredTaken s.fs = true) : JumpAt imem s.fs.reqPc := by
  simp only [IfStage.bpPredTaken, IfStage.bpHit, Bool.and_eq_true, beq_iff_eq] at htaken
  exact jumpAt_of_trained (h.response hv htaken.1.1) htaken.1.2

theorem predict_next (h : Predict imem s)
    (hes : s.es.buf.valid = true → PayloadOf (imem s.es.buf.main.bus.ctrl.pc) s.es.buf.main)
    (hal : liveEs s = true → exceptionFlag s i = false →
      s.es.buf.main.bus.ctrl.pc.toNat % 4 = 0) :
    Predict imem (next cfg s i) := by
  have hds := SkidBuffer.forall_next (w := dsWires cfg s i) (x := dsPayload cfg s i)
    (P := fun l : IdStage.Payload => l.bus.bpPredTaken = true → JumpAt imem l.bus.pc)
    h.dsMain h.dsSkid (by
      intro hfire htaken
      rw [ds_inFire, Bool.and_eq_true, Bool.and_eq_true] at hfire
      exact jumpAt_of_bpPredTaken h hfire.1.1 htaken)
  have hes' := SkidBuffer.forall_next (w := esWires cfg s i) (x := esPayload cfg s i)
    (P := fun l : ExeStage.Payload =>
      l.bus.brJmp.bpPredTaken = true → JumpAt imem l.bus.ctrl.pc)
    h.esMain h.esSkid (fun hfire => h.dsMain (ds_valid_of_es_inFire hfire))
  refine { table := next_table h, response := next_response h, update := ?_, dsMain := hds.1
           dsSkid := hds.2, esMain := hes'.1, esSkid := hes'.2 }
  -- the table is trained only at the pc of a live branch in execute
  intro hv
  have hv' : ((ifPorts cfg s i).bpUpdateValid && !(ifPorts cfg s i).bpUpdateIsJalr) = true := hv
  have hpc : (next cfg s i).fs.bpUpdatePcR = s.es.buf.main.bus.ctrl.pc := by
    simp only [next, IfStage.next, hv', if_true]
    rfl
  rw [Bool.and_eq_true] at hv'
  have hup : ExeStage.bpUpdateValid s.es (exePorts cfg s i) = true := hv'.1
  simp only [ExeStage.bpUpdateValid, ExeStage.esValid, ExeStage.esFlush, Bool.and_eq_true,
    Bool.not_eq_true', Bool.or_eq_false_iff] at hup
  rcases hup with ⟨⟨hvalid, hflush, hquiet⟩, hjmp⟩
  rw [hpc]
  refine ⟨hal (by simp [liveEs, hvalid, hflush]) hquiet, ?_⟩
  have hctrl := (hes hvalid).decoded.ctrl
  have hjmp' : s.es.buf.main.bus.ctrl.isBrJmp = true := hjmp
  rw [hctrl] at hjmp'
  exact hjmp'

end Cpu
end RiscvCpu
