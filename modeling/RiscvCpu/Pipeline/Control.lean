import RiscvCpu.Pipeline.Packet

/-!
# Control — the control invariant of the pipeline

`Control` lists what holds of the valid bits, the registered readies, the skid entries and the flush
marks in every reachable state of the core, whatever instruction words, load data and interrupt
levels it reads.  Every property of whole runs rests on it.

The invariant says in particular which stages can stand still when the pipeline is flushed: the
execute stage stands still only for an unflushed multiplication or division, behind which the memory
stage is empty, and no instruction that traps or redirects leaves a bubble behind it.
-/

namespace RiscvCpu
namespace Cpu

/-! ## Names for the wires of one cycle -/

section Wires

variable (cfg : Config) (s : Cpu) (i : CpuIn)

/-- `exception_flag || br_taken`, as `id_stage` sees it. -/
def pipeFlush : Bool := exceptionFlag s i || brRedirect cfg s i

def esReadyGo : Bool := ExeStage.esReadyGo s.es (exePorts cfg s i)

def esToMsValid : Bool := ExeStage.esToMsValid s.es (exePorts cfg s i)

def fsToDsValid : Bool := IfStage.fsToDsValid s.fs (ifPorts cfg s i)

def loadUseHazard : Bool := IdStage.loadUseHazard cfg s.ds (idPorts cfg s i)

/-- The boundaries' wires. -/
def dsWires : SkidBuffer.Wires :=
  IdStage.wires (idPorts cfg s i) (IdStage.dsReadyGo cfg s.ds (idPorts cfg s i))

def esWires : SkidBuffer.Wires :=
  ExeStage.wires (exePorts cfg s i) (exeInPorts cfg s i) (esReadyGo cfg s i)

def msWires : SkidBuffer.Wires :=
  MemStage.wires (memInPorts cfg s i) MemStage.msReadyGo (WbStage.wsAllowin s.ws)
    (exceptionFlag s i)

def dsPayload : IdStage.Payload :=
  ⟨IfStage.fsToDsBus s.fs (ifPorts cfg s i), IfStage.fsExcBus⟩

def esPayload : ExeStage.Payload :=
  ExeStage.inPayload cfg s.es (exePorts cfg s i) (exeInPorts cfg s i)

def msPayload : MemStage.Payload :=
  ⟨ExeStage.esToMsBus cfg s.es (exePorts cfg s i), ExeStage.exeExcBus s.es (exePorts cfg s i),
    ExeStage.esFlush s.es (exePorts cfg s i)⟩

end Wires

variable {cfg : Config} {s : Cpu} {i : CpuIn}

theorem next_ds_buf :
    (next cfg s i).ds.buf = SkidBuffer.next s.ds.buf (dsWires cfg s i) (dsPayload cfg s i) := rfl

theorem next_es_buf :
    (next cfg s i).es.buf = SkidBuffer.next s.es.buf (esWires cfg s i) (esPayload cfg s i) := rfl

theorem next_ms_buf :
    (next cfg s i).ms.buf = SkidBuffer.next s.ms.buf (msWires cfg s i) (msPayload cfg s i) := rfl

theorem pipeFlush_idPorts : IdStage.pipeFlush (idPorts cfg s i) = pipeFlush cfg s i := rfl

theorem dsFlush_eq : dsFlush cfg s i = (pipeFlush cfg s i || s.ds.dsFlushR) := rfl

theorem esFlush_eq : esFlush cfg s i = (s.es.buf.main.dsFlush || exceptionFlag s i) := rfl

/-! ## The invariant -/

/-- A packet that cannot redirect fetch, and that stores only if it also writes a register, as only
`FLW` does. -/
def Passive (b : DsToEsBus) : Prop :=
  b.ctrl.isBrJmp = false ∧
    (b.mem.isStore = true → b.ctrl.regfileWen = true ∨ b.ctrl.regFpuWen = true)

/-- The control invariant. -/
structure Control (s : Cpu) : Prop where
  wsAllowin : s.ws.wsAllowinR = true
  msAllowin : s.ms.buf.allowin = true
  msSkid : s.ms.buf.skidValid = false
  dsWf : SkidBuffer.WF s.ds.buf
  esWf : SkidBuffer.WF s.es.buf
  active : s.fs.reqValid = true → s.fs.ifActive = true
  dsExc : s.ds.buf.main.exc = IfStage.fsExcBus ∧ s.ds.buf.skid.exc = IfStage.fsExcBus
  esMain : ∃ x, PayloadOf x s.es.buf.main
  esSkid : ∃ x, PayloadOf x s.es.buf.skid
  msMain : ∃ x, MemPayloadOf x s.ms.buf.main
  /-- Execute has stopped only for an unflushed multiplication or division. -/
  esStopped : s.es.buf.allowin = false →
    s.es.buf.main.dsFlush = false ∧ s.es.buf.main.bus.ctrl.isMul = true ∧ s.ms.buf.valid = false
  esSkidLive : s.es.buf.skidValid = true → s.es.buf.skid.dsFlush = false
  /-- An unflushed instruction in execute has its unflushed successor in decode. -/
  esFollowed : s.es.buf.valid = true → s.es.buf.main.dsFlush = false →
    s.ds.buf.valid = true ∧ s.ds.dsFlushR = false
  /-- An unflushed instruction in decode has its successor in fetch. -/
  dsFollowed : s.ds.buf.valid = true → s.ds.dsFlushR = false →
    s.fs.reqValid = true ∧ (s.ds.buf.allowin = true ∨ s.ds.buf.skidValid = true)
  dsSkidFollowed : s.ds.buf.skidValid = true → s.ds.dsFlushSkid = false → s.fs.reqValid = true
  dsSkidMark : s.ds.buf.skidValid = true → s.ds.dsFlushSkid = true → s.ds.dsFlushR = true
  /-- What an empty execute stage still shows is squashed, or neither a jump nor a plain store. -/
  esBubble : s.es.buf.valid = false →
    s.es.buf.main.dsFlush = true ∨ Passive s.es.buf.main.bus
  /-- A system instruction in the memory stage has a successor in execute. -/
  msFollowed : s.ms.buf.valid = true → MemStage.msFlush s.ms = false →
    MemStage.excCode s.ms ≠ 0#7 → s.es.buf.valid = true
  /-- What an empty memory stage still shows raises no exception. -/
  msBubble : s.ms.buf.valid = false →
    MemStage.msFlush s.ms = true ∨ MemStage.excCode s.ms = 0#7 ∨
    (MemStage.excCode s.ms = Exc.MRET ∧ s.csr.prevExceptionFlag = false)

theorem control_reset (s₀ : Cpu) : Control s₀.reset :=
  { wsAllowin := rfl
    msAllowin := rfl
    msSkid := rfl
    dsWf := SkidBuffer.wf_reset _
    esWf := SkidBuffer.wf_reset _
    active := by intro h; cases h
    dsExc := ⟨rfl, rfl⟩
    esMain := ⟨0#32, payloadOf_reset⟩
    esSkid := ⟨0#32, payloadOf_reset⟩
    msMain := ⟨0#32, memPayloadOf_reset⟩
    esStopped := by intro h; cases h
    esSkidLive := by intro h; cases h
    esFollowed := by intro h; cases h
    dsFollowed := by intro h; cases h
    dsSkidFollowed := by intro h; cases h
    dsSkidMark := by intro h; cases h
    esBubble := by intro _; exact Or.inr ⟨rfl, fun h => by cases h⟩
    msFollowed := by intro h; cases h
    msBubble := by intro _; exact Or.inr (Or.inl rfl) }

/-! ## The memory stage never waits -/

theorem ms_moves (h : Control s) :
    SkidBuffer.coreAllowin s.ms.buf (msWires cfg s i) = true := by
  simp [SkidBuffer.coreAllowin, msWires, MemStage.wires, MemStage.msReadyGo, WbStage.wsAllowin,
    h.wsAllowin]

theorem ms_inFire (h : Control s) :
    SkidBuffer.inFire s.ms.buf (msWires cfg s i) = esToMsValid cfg s i := by
  simp [SkidBuffer.inFire, msWires, MemStage.wires, memInPorts, h.msAllowin, esToMsValid]

theorem next_ms_valid (h : Control s) :
    (next cfg s i).ms.buf.valid = esToMsValid cfg s i := by
  rw [next_ms_buf, SkidBuffer.next_of_moved (ms_moves h)]
  simp [h.msSkid, ms_inFire h]

theorem next_ms_main (h : Control s) :
    (next cfg s i).ms.buf.main =
      if esToMsValid cfg s i then msPayload cfg s i else s.ms.buf.main := by
  rw [next_ms_buf, SkidBuffer.next_of_moved (ms_moves h)]
  simp [h.msSkid, ms_inFire h]

/-- The mark that the memory stage takes over from execute. -/
theorem next_msFlush (h : Control s) (hmove : esToMsValid cfg s i = true) :
    MemStage.msFlush (next cfg s i).ms = (s.es.buf.main.dsFlush || exceptionFlag s i) := by
  rw [MemStage.msFlush, next_ms_main h, if_pos hmove]
  rfl

/-! ## Exceptions come from a valid, unflushed instruction -/

theorem exceptionCode_of_msFlush (h : MemStage.msFlush s.ms = true) :
    exceptionCode s i = 0#7 := by
  simp [exceptionCode, MemStage.exceptionCode, h, Exc.NONE]

theorem exceptionCode_of_bubble (hv : s.ms.buf.valid = false)
    (hflush : MemStage.msFlush s.ms = false) :
    exceptionCode s i = MemStage.excCode s.ms := by
  simp [exceptionCode, MemStage.exceptionCode, hflush, MemStage.exceptionIam,
    MemStage.exceptionLam, MemStage.exceptionSam, MemStage.takeIrq, MemStage.msValid, hv]

/-- `exception_flag` implies `ms_valid` and not `ms_flush`. -/
theorem ms_live_of_exceptionFlag (h : Control s) (hexc : exceptionFlag s i = true) :
    s.ms.buf.valid = true ∧ MemStage.msFlush s.ms = false := by
  cases hflush : MemStage.msFlush s.ms with
  | true =>
      simp [exceptionFlag, RegfileCsr.exceptionFlag, exceptionCode_of_msFlush hflush,
        RegfileCsr.mretJmpFlag, RegfileCsr.mretFlag, Exc.MRET] at hexc
  | false =>
      refine ⟨?_, rfl⟩
      by_contra hv
      have hv' : s.ms.buf.valid = false := by simpa using hv
      rw [exceptionFlag, exceptionCode_of_bubble hv' hflush] at hexc
      rcases h.msBubble hv' with hfl | hcode | ⟨hcode, hprev⟩
      · rw [hflush] at hfl; cases hfl
      · simp [RegfileCsr.exceptionFlag, RegfileCsr.mretJmpFlag, RegfileCsr.mretFlag, hcode,
          Exc.MRET] at hexc
      · simp [RegfileCsr.exceptionFlag, RegfileCsr.mretJmpFlag, hcode, hprev, Exc.MRET] at hexc

/-! ## A stalled execute stage -/

/-- Execute stands still in this cycle. -/
theorem es_stalled (h : SkidBuffer.coreAllowin s.es.buf (esWires cfg s i) = false)
    (hc : Control s) :
    s.es.buf.valid = true ∧ s.es.buf.main.dsFlush = false ∧ exceptionFlag s i = false ∧
      s.es.buf.main.bus.ctrl.isMul = true ∧ esReadyGo cfg s i = false := by
  have hv := SkidBuffer.valid_of_stalled h
  have hready : esReadyGo cfg s i = false := by
    simpa [SkidBuffer.coreAllowin, hv, esWires, ExeStage.wires, exePorts, MemStage.msAllowin,
      hc.msAllowin] using h
  have hstall : ExeStage.mulStall s.es (exePorts cfg s i) = true := by
    simpa [esReadyGo, ExeStage.esReadyGo, ExeStage.fpuStall] using hready
  simp only [ExeStage.mulStall, Mul.mulStall, ExeStage.mulPorts, Bool.and_eq_true,
    Bool.not_eq_true', ExeStage.esFlush, Bool.or_eq_false_iff] at hstall
  exact ⟨hv, hstall.1.1.1, hstall.1.1.2, hstall.1.2.1.2, hready⟩

theorem esReadyGo_of_moves (hc : Control s) (hv : s.es.buf.valid = true)
    (h : SkidBuffer.coreAllowin s.es.buf (esWires cfg s i) = true) :
    esReadyGo cfg s i = true := by
  simpa [SkidBuffer.coreAllowin, hv, esWires, ExeStage.wires, exePorts, MemStage.msAllowin,
    hc.msAllowin] using h

theorem es_moves_of_flush (hc : Control s)
    (h : s.es.buf.main.dsFlush = true ∨ exceptionFlag s i = true) :
    SkidBuffer.coreAllowin s.es.buf (esWires cfg s i) = true := by
  by_contra hn
  have hn' : SkidBuffer.coreAllowin s.es.buf (esWires cfg s i) = false := by simpa using hn
  rcases es_stalled hn' hc with ⟨-, hf, he, -, -⟩
  rcases h with h | h
  · rw [hf] at h; cases h
  · rw [he] at h; cases h

/-! ## The class of the instruction in execute -/

theorem es_passive_of_isMul (hc : Control s) (hmul : s.es.buf.main.bus.ctrl.isMul = true) :
    Passive s.es.buf.main.bus := by
  rcases hc.esMain with ⟨x, hx⟩
  have hctrl := hx.decoded.ctrl
  rw [hctrl] at hmul
  have hop := Decode.opcode_of_isMulInst hmul
  rw [Passive, hx.decoded.isStore, hctrl]
  simp [Decode.ctrlPacket, Decode.isBrJmpInst, Decode.isBranch, Decode.isJal, Decode.isJalr,
    Decode.isStoreInst, Decode.isStore, Decode.instFlw, Decode.instFsw, Decode.isFload,
    Decode.isFstore, hop]

theorem isMul_of_isBrJmp (hc : Control s) (hbr : s.es.buf.main.bus.ctrl.isBrJmp = true) :
    s.es.buf.main.bus.ctrl.isMul = false := by
  cases hmul : s.es.buf.main.bus.ctrl.isMul with
  | false => rfl
  | true =>
      rw [(es_passive_of_isMul hc hmul).1] at hbr
      cases hbr

theorem es_passive_of_load (hc : Control s)
    (hmem : s.es.buf.main.bus.ctrl.exeResultSel.mem = true)
    (hwen : s.es.buf.main.bus.ctrl.regfileWen = true ∨ s.es.buf.main.bus.ctrl.regFpuWen = true) :
    Passive s.es.buf.main.bus := by
  rcases hc.esMain with ⟨x, hx⟩
  have hctrl := hx.decoded.ctrl
  refine ⟨?_, fun _ => hwen⟩
  rw [hctrl] at hmem ⊢
  exact Decode.isBrJmpInst_of_isMemInst hmem

/-- A system instruction is neither a multiplication nor a memory access. -/
theorem es_class_of_excCode (hc : Control s) (hexc : s.es.buf.main.exc.excCode ≠ 0#7) :
    s.es.buf.main.bus.ctrl.isMul = false ∧
      s.es.buf.main.bus.ctrl.exeResultSel.mem = false := by
  rcases hc.esMain with ⟨x, hx⟩
  have hsys : Decode.sysCode x ≠ 0#7 := by
    intro hzero
    rw [hx.excCode, hzero] at hexc
    simp at hexc
  have hop := Decode.opcode_of_sysCode hsys
  rw [hx.decoded.ctrl]
  constructor
  · cases hm : Decode.isMulInst x with
    | false => exact hm
    | true => rw [Decode.opcode_of_isMulInst hm] at hop; cases hop
  · simp [Decode.ctrlPacket, Decode.exeResultSel, Decode.isMemInst, Decode.isLoad, Decode.isStore,
      Decode.instFlw, Decode.instFsw, Decode.isFload, Decode.isFstore, hop]

theorem isBrJmp_of_brRedirect (h : brRedirect cfg s i = true) :
    s.es.buf.main.dsFlush = false ∧ exceptionFlag s i = false ∧
      s.es.buf.main.bus.ctrl.isBrJmp = true := by
  simp only [brRedirect, ExeStage.brRedirect, Bool.and_eq_true, Bool.not_eq_true',
    ExeStage.esFlush, Bool.or_eq_false_iff] at h
  exact ⟨h.1.1.1, h.1.1.2, h.1.2⟩

theorem pipeFlush_of_stalled (hc : Control s)
    (h : SkidBuffer.coreAllowin s.es.buf (esWires cfg s i) = false) :
    pipeFlush cfg s i = false := by
  rcases es_stalled h hc with ⟨-, -, hexc, hmul, -⟩
  rw [pipeFlush, hexc, Bool.false_or]
  by_contra hred
  have hred' : brRedirect cfg s i = true := by simpa using hred
  rw [isMul_of_isBrJmp hc (isBrJmp_of_brRedirect hred').2.2] at hmul
  cases hmul

/-- The registered ready of execute is high whenever the pipeline is flushed. -/
theorem esAllowin_of_pipeFlush (hc : Control s) (h : pipeFlush cfg s i = true) :
    s.es.buf.allowin = true := by
  by_contra hn
  have hn' : s.es.buf.allowin = false := by simpa using hn
  rcases hc.esStopped hn' with ⟨-, hmul, hms⟩
  rw [pipeFlush, Bool.or_eq_true] at h
  rcases h with h | h
  · rw [(ms_live_of_exceptionFlag hc h).1] at hms; cases hms
  · rw [isMul_of_isBrJmp hc (isBrJmp_of_brRedirect h).2.2] at hmul
    cases hmul

/-! ## The edge of decode and fetch -/

theorem ds_inFire :
    SkidBuffer.inFire s.ds.buf (dsWires cfg s i) =
      (s.fs.reqValid && !pipeFlush cfg s i && s.ds.buf.allowin) := rfl

theorem next_reqValid (hc : Control s) (hv : s.fs.reqValid = true)
    (hflush : pipeFlush cfg s i = false) : (next cfg s i).fs.reqValid = true := by
  have hred : IfStage.redirectNow (ifPorts cfg s i) = false := hflush
  cases hresp : IfStage.responseFire s.fs (ifPorts cfg s i) <;>
    simp [next, IfStage.next, hred, IfStage.requestFire, hresp, hc.active hv, hv]

theorem next_dsFlushR_moved
    (h : SkidBuffer.coreAllowin s.ds.buf (dsWires cfg s i) = true) :
    (next cfg s i).ds.dsFlushR =
      (s.ds.buf.skidValid && (s.ds.dsFlushSkid || pipeFlush cfg s i)) := by
  have hfire := @ds_inFire cfg s i
  simp only [dsWires] at h hfire
  simp only [next, IdStage.next, IdStage.handshakeNext, h, hfire, pipeFlush_idPorts, if_true]
  cases s.ds.buf.skidValid <;> by_cases hf : pipeFlush cfg s i = true <;> simp [hf]

theorem next_dsFlushR_stalled
    (h : SkidBuffer.coreAllowin s.ds.buf (dsWires cfg s i) = false) :
    (next cfg s i).ds.dsFlushR = (s.ds.dsFlushR || pipeFlush cfg s i) := by
  have hv := SkidBuffer.valid_of_stalled h
  simp only [dsWires] at h
  simp only [next, IdStage.next, IdStage.handshakeNext, h, pipeFlush_idPorts, hv]
  by_cases hf : pipeFlush cfg s i = true <;> simp [hf]

theorem next_dsFlushSkid_stalled
    (h : SkidBuffer.coreAllowin s.ds.buf (dsWires cfg s i) = false) :
    (next cfg s i).ds.dsFlushSkid =
      if s.ds.buf.skidValid then s.ds.dsFlushSkid || pipeFlush cfg s i
      else if SkidBuffer.inFire s.ds.buf (dsWires cfg s i) then false
      else s.ds.dsFlushSkid := by
  have hfire := @ds_inFire cfg s i
  rw [hfire]
  simp only [dsWires] at h hfire
  cases hf : pipeFlush cfg s i <;> cases hsk : s.ds.buf.skidValid <;>
    simp [next, IdStage.next, IdStage.handshakeNext, h, pipeFlush_idPorts, hfire, hf, hsk]

/-- An unflushed decode stage stays occupied and unflushed on an edge without a flush. -/
theorem next_ds_live (hc : Control s) (hv : s.ds.buf.valid = true)
    (hmark : s.ds.dsFlushR = false) (hflush : pipeFlush cfg s i = false) :
    (next cfg s i).ds.buf.valid = true ∧ (next cfg s i).ds.dsFlushR = false := by
  rcases hc.dsFollowed hv hmark with ⟨hreq, hroom⟩
  cases hcore : SkidBuffer.coreAllowin s.ds.buf (dsWires cfg s i) with
  | true =>
      rw [next_ds_buf, SkidBuffer.next_of_moved hcore, next_dsFlushR_moved hcore, ds_inFire]
      -- the follower is parked or on the bus
      cases hsk : s.ds.buf.skidValid with
      | true =>
          have hskid : s.ds.dsFlushSkid = false := by
            cases hm : s.ds.dsFlushSkid with
            | false => rfl
            | true => rw [hc.dsSkidMark hsk hm] at hmark; cases hmark
          simp [hskid, hflush]
      | false =>
          have hallow : s.ds.buf.allowin = true := by simpa [hsk] using hroom
          simp [hreq, hflush, hallow]
  | false =>
      rw [next_ds_buf, SkidBuffer.next_of_stalled hcore, next_dsFlushR_stalled hcore]
      simp [hmark, hflush]

theorem next_dsFollowed (hc : Control s) (hv : (next cfg s i).ds.buf.valid = true)
    (hmark : (next cfg s i).ds.dsFlushR = false) :
    (next cfg s i).fs.reqValid = true ∧
      ((next cfg s i).ds.buf.allowin = true ∨ (next cfg s i).ds.buf.skidValid = true) := by
  cases hcore : SkidBuffer.coreAllowin s.ds.buf (dsWires cfg s i) with
  | true =>
      rw [next_dsFlushR_moved hcore] at hmark
      rw [next_ds_buf, SkidBuffer.next_of_moved hcore] at hv ⊢
      refine ⟨?_, Or.inl rfl⟩
      -- the new instruction was parked, or it comes from fetch; either way fetch requests on
      cases hsk : s.ds.buf.skidValid with
      | true =>
          have hboth : s.ds.dsFlushSkid = false ∧ pipeFlush cfg s i = false := by
            simpa [hsk] using hmark
          exact next_reqValid hc (hc.dsSkidFollowed hsk hboth.1) hboth.2
      | false =>
          have hfire : (s.fs.reqValid = true ∧ pipeFlush cfg s i = false) ∧
              s.ds.buf.allowin = true := by
            simpa [hsk, ds_inFire] using hv
          exact next_reqValid hc hfire.1.1 hfire.1.2
  | false =>
      rw [next_dsFlushR_stalled hcore] at hmark
      obtain ⟨hR, hflush⟩ : s.ds.dsFlushR = false ∧ pipeFlush cfg s i = false := by
        simpa using hmark
      rcases hc.dsFollowed (SkidBuffer.valid_of_stalled hcore) hR with ⟨hreq, hroom⟩
      refine ⟨next_reqValid hc hreq hflush, Or.inr ?_⟩
      rw [next_ds_buf, SkidBuffer.next_of_stalled hcore, ds_inFire]
      -- there was room for one more, or the entry was taken already
      rcases hroom with hallow | hsk
      · simp [dsWires, IdStage.wires, hreq, hflush, hallow]
      · simp [dsWires, IdStage.wires, hsk]

/-- A full skid entry after the edge was full before it or took the beat of this cycle. -/
theorem next_ds_skid (hskid : (next cfg s i).ds.buf.skidValid = true) :
    SkidBuffer.coreAllowin s.ds.buf (dsWires cfg s i) = false ∧
      (s.ds.buf.skidValid = true ∨ s.fs.reqValid = true ∧ pipeFlush cfg s i = false) := by
  cases hcore : SkidBuffer.coreAllowin s.ds.buf (dsWires cfg s i) with
  | true =>
      rw [next_ds_buf, SkidBuffer.next_of_moved hcore] at hskid
      cases hskid
  | false =>
      rw [next_ds_buf, SkidBuffer.next_of_stalled hcore, ds_inFire] at hskid
      simp only [Bool.and_eq_true, Bool.or_eq_true, Bool.not_eq_true'] at hskid
      exact ⟨rfl, hskid.2.imp id fun hfire => hfire.1⟩

theorem next_dsSkidFollowed (hc : Control s) (hskid : (next cfg s i).ds.buf.skidValid = true)
    (hmark : (next cfg s i).ds.dsFlushSkid = false) : (next cfg s i).fs.reqValid = true := by
  rcases next_ds_skid hskid with ⟨hcore, hsk | ⟨hreq, hflush⟩⟩
  · rw [next_dsFlushSkid_stalled hcore, hsk] at hmark
    obtain ⟨hm, hflush⟩ : s.ds.dsFlushSkid = false ∧ pipeFlush cfg s i = false := by
      simpa using hmark
    exact next_reqValid hc (hc.dsSkidFollowed hsk hm) hflush
  · exact next_reqValid hc hreq hflush

theorem next_dsSkidMark (hc : Control s) (hskid : (next cfg s i).ds.buf.skidValid = true)
    (hmark : (next cfg s i).ds.dsFlushSkid = true) : (next cfg s i).ds.dsFlushR = true := by
  rcases next_ds_skid hskid with ⟨hcore, hfrom⟩
  rw [next_dsFlushR_stalled hcore]
  rw [next_dsFlushSkid_stalled hcore] at hmark
  cases hsk : s.ds.buf.skidValid with
  | true =>
      rw [hsk, if_pos rfl, Bool.or_eq_true] at hmark
      rcases hmark with hm | hflush
      · simp [hc.dsSkidMark hsk hm]
      · simp [hflush]
  | false =>
      -- the entry was filled in this very cycle, so there was no flush
      have hfire : SkidBuffer.inFire s.ds.buf (dsWires cfg s i) = true := by
        rw [next_ds_buf, SkidBuffer.next_of_stalled hcore] at hskid
        simpa [hsk, dsWires, IdStage.wires] using hskid
      simp [hsk, hfire] at hmark

theorem next_dsExc (hc : Control s) :
    (next cfg s i).ds.buf.main.exc = IfStage.fsExcBus ∧
      (next cfg s i).ds.buf.skid.exc = IfStage.fsExcBus := by
  rw [next_ds_buf]
  exact SkidBuffer.both_next (P := fun b : IdStage.Payload => b.exc = IfStage.fsExcBus) hc.dsExc.1
    hc.dsExc.2 fun _ => rfl

/-! ## The edge of execute -/

theorem payloadOf_esPayload (hc : Control s) (hv : s.ds.buf.valid = true) :
    PayloadOf (IdStage.idInst s.ds) (esPayload cfg s i) := by
  have hexc : s.ds.buf.main.exc = ⟨0#7, 0#32⟩ := hc.dsExc.1
  refine
    { decoded := decoded_dsToEsBus cfg s.ds (idPorts cfg s i) (stackQueryHit cfg s i)
      excCode := ?_, excMtval := ?_ }
  · simp only [esPayload, ExeStage.inPayload, exeInPorts, IdStage.dsExcBus, IdStage.dsValid, hv,
      hexc, dsFlush, Decode.sysCode, Bool.and_true]
    cases IdStage.dsFlush s.ds (idPorts cfg s i) <;>
      cases Decode.instEcall (IdStage.idInst s.ds) <;>
        cases Decode.instEbreak (IdStage.idInst s.ds) <;>
          cases Decode.instMret (IdStage.idInst s.ds) <;> rfl
  · simp only [esPayload, ExeStage.inPayload, exeInPorts, IdStage.dsExcBus, hexc]
    repeat' split
    all_goals rfl

theorem es_inFire :
    SkidBuffer.inFire s.es.buf (esWires cfg s i) =
      (s.ds.buf.valid && !loadUseHazard cfg s i && s.es.buf.allowin) := rfl

theorem ds_valid_of_es_inFire (h : SkidBuffer.inFire s.es.buf (esWires cfg s i) = true) :
    s.ds.buf.valid = true := by
  rw [es_inFire, Bool.and_eq_true, Bool.and_eq_true] at h
  exact h.1.1

theorem next_esPayload (hc : Control s) :
    (∃ x, PayloadOf x (next cfg s i).es.buf.main) ∧
      (∃ x, PayloadOf x (next cfg s i).es.buf.skid) := by
  rw [next_es_buf]
  exact SkidBuffer.both_next (P := fun b : ExeStage.Payload => ∃ x, PayloadOf x b) hc.esMain
    hc.esSkid fun hfire => ⟨_, payloadOf_esPayload hc (ds_valid_of_es_inFire hfire)⟩

theorem esToMsValid_eq : esToMsValid cfg s i = (s.es.buf.valid && esReadyGo cfg s i) := rfl

theorem esToMsValid_parts (h : esToMsValid cfg s i = true) :
    s.es.buf.valid = true ∧ esReadyGo cfg s i = true := by
  rwa [esToMsValid_eq, Bool.and_eq_true] at h

theorem next_esStopped (hc : Control s) (hstop : (next cfg s i).es.buf.allowin = false) :
    (next cfg s i).es.buf.main.dsFlush = false ∧
      (next cfg s i).es.buf.main.bus.ctrl.isMul = true ∧
      (next cfg s i).ms.buf.valid = false := by
  have hcore : SkidBuffer.coreAllowin s.es.buf (esWires cfg s i) = false := hstop
  rcases es_stalled hcore hc with ⟨-, hflush, -, hmul, hready⟩
  rw [next_ms_valid hc, next_es_buf, SkidBuffer.next_of_stalled hcore, esToMsValid_eq, hready]
  exact ⟨hflush, hmul, Bool.and_false _⟩

theorem next_esSkidLive (hc : Control s) (hskid : (next cfg s i).es.buf.skidValid = true) :
    (next cfg s i).es.buf.skid.dsFlush = false := by
  rw [next_es_buf] at hskid ⊢
  cases hcore : SkidBuffer.coreAllowin s.es.buf (esWires cfg s i) with
  | true =>
      rw [SkidBuffer.next_of_moved hcore] at hskid
      cases hskid
  | false =>
      rw [SkidBuffer.next_of_stalled hcore] at hskid ⊢
      rcases es_stalled hcore hc with ⟨hv, hflush, -, -, -⟩
      -- nothing is flushed while execute stands still
      have hnew : (esPayload cfg s i).dsFlush = false := by
        show dsFlush cfg s i = false
        rw [dsFlush_eq, pipeFlush_of_stalled hc hcore, (hc.esFollowed hv hflush).2]
        rfl
      dsimp only at hskid ⊢
      split
      · exact hnew
      · rename_i hn
        have hsk : s.es.buf.skidValid = true := by
          revert hskid hn
          cases s.es.buf.skidValid <;> cases SkidBuffer.inFire s.es.buf (esWires cfg s i) <;> simp
        exact hc.esSkidLive hsk

theorem next_esFollowed (hc : Control s) (hv : (next cfg s i).es.buf.valid = true)
    (hlive : (next cfg s i).es.buf.main.dsFlush = false) :
    (next cfg s i).ds.buf.valid = true ∧ (next cfg s i).ds.dsFlushR = false := by
  cases hcore : SkidBuffer.coreAllowin s.es.buf (esWires cfg s i) with
  | false =>
      rcases es_stalled hcore hc with ⟨hev, hef, -, -, -⟩
      rcases hc.esFollowed hev hef with ⟨hdv, hmark⟩
      exact next_ds_live hc hdv hmark (pipeFlush_of_stalled hc hcore)
  | true =>
      rw [next_es_buf, SkidBuffer.next_of_moved hcore] at hv hlive
      cases hsk : s.es.buf.skidValid with
      | true =>
          -- execute had stopped for an unflushed instruction, so nothing was flushed
          have hstop := hc.esWf.stopped hsk
          rcases hc.esStopped hstop with ⟨hef, -, -⟩
          rcases hc.esFollowed (hc.esWf.occupied hstop) hef with ⟨hdv, hmark⟩
          have hflush : pipeFlush cfg s i = false := by
            cases hf : pipeFlush cfg s i with
            | false => rfl
            | true => rw [esAllowin_of_pipeFlush hc hf] at hstop; cases hstop
          exact next_ds_live hc hdv hmark hflush
      | false =>
          have hfire : SkidBuffer.inFire s.es.buf (esWires cfg s i) = true := by
            simpa [hsk] using hv
          have hnew : (esPayload cfg s i).dsFlush = false := by
            simpa [hsk, hfire] using hlive
          replace hnew : dsFlush cfg s i = false := hnew
          rw [dsFlush_eq, Bool.or_eq_false_iff] at hnew
          exact next_ds_live hc (ds_valid_of_es_inFire hfire) hnew.2 hnew.1

/-- The instruction behind an unflushed one is held back only by a load or by a stopped execute
stage. -/
theorem not_followed (hc : Control s) (hv : s.es.buf.valid = true)
    (hlive : s.es.buf.main.dsFlush = false)
    (hcore : SkidBuffer.coreAllowin s.es.buf (esWires cfg s i) = true)
    (hfire : SkidBuffer.inFire s.es.buf (esWires cfg s i) = false) :
    s.es.buf.allowin = false ∨
      (s.es.buf.main.bus.ctrl.exeResultSel.mem = true ∧
        (s.es.buf.main.bus.ctrl.regfileWen = true ∨ s.es.buf.main.bus.ctrl.regFpuWen = true)) := by
  cases hallow : s.es.buf.allowin with
  | false => exact Or.inl rfl
  | true =>
      right
      -- decode is occupied and execute is ready, so it must be the hazard
      have hhaz : loadUseHazard cfg s i = true := by
        simpa [es_inFire, hallow, (hc.esFollowed hv hlive).1] using hfire
      -- and with execute done, only a load can be awaited
      have hready := esReadyGo_of_moves hc hv hcore
      have hpend : IdStage.exeForwardPending (idPorts cfg s i) = true := by
        simp only [loadUseHazard, IdStage.loadUseHazard, IdStage.exeLoadUseHazard,
          Bool.and_eq_true] at hhaz
        exact hhaz.1.1
      have hready' : ExeStage.esReadyGo s.es (exePorts cfg s i) = true := hready
      simp only [IdStage.exeForwardPending, idPorts, ExeStage.exeResultPending, hready',
        Bool.not_true, Bool.and_false, Bool.or_false, ExeStage.exeLoadPending,
        Bool.and_eq_true, Bool.or_eq_true] at hpend
      exact ⟨hpend.1.2, hpend.2⟩

theorem next_esBubble (hc : Control s) (hv : (next cfg s i).es.buf.valid = false) :
    (next cfg s i).es.buf.main.dsFlush = true ∨ Passive (next cfg s i).es.buf.main.bus := by
  rw [next_es_buf] at hv ⊢
  cases hcore : SkidBuffer.coreAllowin s.es.buf (esWires cfg s i) with
  | false =>
      rw [SkidBuffer.next_of_stalled hcore] at hv
      cases hv
  | true =>
      rw [SkidBuffer.next_of_moved hcore] at hv ⊢
      obtain ⟨hsk, hfire⟩ : s.es.buf.skidValid = false ∧
          SkidBuffer.inFire s.es.buf (esWires cfg s i) = false := by
        simpa using hv
      simp only [hsk, hfire, Bool.false_eq_true, if_false]
      cases hev : s.es.buf.valid with
      | false => exact hc.esBubble hev
      | true =>
          cases hlive : s.es.buf.main.dsFlush with
          | true => exact Or.inl rfl
          | false =>
              -- only a load or what stood behind a stopped unit leaves a bubble
              right
              rcases not_followed hc hev hlive hcore hfire with hstop | ⟨hmem, hwen⟩
              · exact es_passive_of_isMul hc (hc.esStopped hstop).2.1
              · exact es_passive_of_load hc hmem hwen

/-! ## The edge of the memory stage -/

theorem next_msMain (hc : Control s) : ∃ x, MemPayloadOf x (next cfg s i).ms.buf.main := by
  rw [next_ms_main hc]
  split
  · rename_i h
    rcases hc.esMain with ⟨x, hx⟩
    exact ⟨x, memPayloadOf_of_payloadOf (esToMsValid_parts h).1 hx⟩
  · exact hc.msMain

theorem next_msFollowed (hc : Control s) (hv : (next cfg s i).ms.buf.valid = true)
    (hlive : MemStage.msFlush (next cfg s i).ms = false)
    (hexc : MemStage.excCode (next cfg s i).ms ≠ 0#7) :
    (next cfg s i).es.buf.valid = true := by
  rw [next_ms_valid hc] at hv
  rw [next_msFlush hc hv] at hlive
  rw [MemStage.excCode, next_ms_main hc, hv] at hexc
  have hcode : s.es.buf.main.exc.excCode ≠ 0#7 := hexc
  have hflush : s.es.buf.main.dsFlush = false ∧ exceptionFlag s i = false :=
    Bool.or_eq_false_iff.mp hlive
  rcases es_class_of_excCode hc hcode with ⟨hmul, hmem⟩
  rw [next_es_buf]
  cases hcore : SkidBuffer.coreAllowin s.es.buf (esWires cfg s i) with
  | false => rw [SkidBuffer.next_of_stalled hcore]
  | true =>
      rw [SkidBuffer.next_of_moved hcore]
      cases hfire : SkidBuffer.inFire s.es.buf (esWires cfg s i) with
      | true => simp
      | false =>
          -- what traps in decode is neither stopped nor a load
          exfalso
          rcases not_followed hc (esToMsValid_parts hv).1 hflush.1 hcore hfire with hstop | ⟨hload, -⟩
          · rw [(hc.esStopped hstop).2.1] at hmul; cases hmul
          · rw [hload] at hmem; cases hmem

/-- An unflushed memory stage either raises an exception or passes the code of decode on. -/
theorem exceptionCode_cases (hlive : MemStage.msFlush s.ms = false) :
    (exceptionCode s i).getLsbD 5 = true ∨ exceptionCode s i = MemStage.excCode s.ms := by
  simp only [exceptionCode, MemStage.exceptionCode, hlive, Bool.false_eq_true, if_false]
  split
  · exact Or.inl rfl
  · split
    · exact Or.inl rfl
    · split
      · exact Or.inl rfl
      · split
        · exact Or.inl rfl
        · exact Or.inr rfl

theorem sysCode_cases (x : Word) :
    Decode.sysCode x = 0#7 ∨ Decode.sysCode x = Exc.MRET ∨
      (Decode.sysCode x).getLsbD 5 = true := by
  simp only [Decode.sysCode]
  split
  · exact Or.inr (Or.inr rfl)
  · split
    · exact Or.inr (Or.inr rfl)
    · split
      · exact Or.inr (Or.inl rfl)
      · exact Or.inl rfl

theorem excCode_cases (hc : Control s) :
    MemStage.excCode s.ms = 0#7 ∨ MemStage.excCode s.ms = Exc.MRET ∨
      (MemStage.excCode s.ms).getLsbD 5 = true := by
  rcases hc.msMain with ⟨x, hx⟩
  rcases hx.excCode with hcode | ⟨-, hcode⟩
  · rw [MemStage.excCode, hcode]; exact sysCode_cases x
  · exact Or.inl hcode

theorem next_prevExceptionFlag_of_mret (h : exceptionCode s i = Exc.MRET) :
    (next cfg s i).csr.prevExceptionFlag = false := by
  simp [next, RegfileCsr.next, csrPorts, h, RegfileCsr.mretFlag, Exc.MRET]

theorem next_msBubble (hc : Control s) (hv : (next cfg s i).ms.buf.valid = false) :
    MemStage.msFlush (next cfg s i).ms = true ∨ MemStage.excCode (next cfg s i).ms = 0#7 ∨
      (MemStage.excCode (next cfg s i).ms = Exc.MRET ∧
        (next cfg s i).csr.prevExceptionFlag = false) := by
  rw [next_ms_valid hc] at hv
  rw [MemStage.msFlush, MemStage.excCode, next_ms_main hc, hv]
  show MemStage.msFlush s.ms = true ∨ MemStage.excCode s.ms = 0#7 ∨
    (MemStage.excCode s.ms = Exc.MRET ∧ _)
  cases hlive : MemStage.msFlush s.ms with
  | true => exact Or.inl rfl
  | false =>
      right
      cases hmv : s.ms.buf.valid with
      | false =>
          rcases hc.msBubble hmv with hflush | hzero | ⟨hmret, -⟩
          · rw [hlive] at hflush; cases hflush
          · exact Or.inl hzero
          · refine Or.inr ⟨hmret, next_prevExceptionFlag_of_mret ?_⟩
            rw [exceptionCode_of_bubble hmv hlive, hmret]
      | true =>
          by_cases hzero : MemStage.excCode s.ms = 0#7
          · exact Or.inl hzero
          · -- a system instruction is followed, and what follows it did not move
            have hev := hc.msFollowed hmv hlive hzero
            have hnoexc : exceptionFlag s i = false := by
              cases he : exceptionFlag s i with
              | false => rfl
              | true =>
                  have hready : esReadyGo cfg s i = true :=
                    esReadyGo_of_moves hc hev (es_moves_of_flush hc (Or.inr he))
                  rw [esToMsValid_eq, hev, hready] at hv
                  cases hv
            rw [exceptionFlag, RegfileCsr.exceptionFlag, Bool.or_eq_false_iff] at hnoexc
            have hcode : exceptionCode s i = MemStage.excCode s.ms := by
              rcases exceptionCode_cases hlive with h5 | heq
              · rw [h5] at hnoexc; cases hnoexc.1
              · exact heq
            rcases excCode_cases hc with h0 | hmret | h5
            · exact absurd h0 hzero
            · exact Or.inr ⟨hmret, next_prevExceptionFlag_of_mret (hcode.trans hmret)⟩
            · rw [hcode, h5] at hnoexc; cases hnoexc.1

/-! ## The invariant holds in every cycle -/

theorem control_next (hc : Control s) : Control (next cfg s i) :=
  { wsAllowin := by simp [next, WbStage.next, WbStage.wsAllowin, hc.wsAllowin]
    msAllowin := by rw [next_ms_buf, SkidBuffer.next_of_moved (ms_moves hc)]
    msSkid := by rw [next_ms_buf, SkidBuffer.next_of_moved (ms_moves hc)]
    dsWf := SkidBuffer.wf_next _ _ _
    esWf := SkidBuffer.wf_next _ _ _
    active := by intro _; rfl
    dsExc := next_dsExc hc
    esMain := (next_esPayload hc).1
    esSkid := (next_esPayload hc).2
    msMain := next_msMain hc
    esStopped := next_esStopped hc
    esSkidLive := next_esSkidLive hc
    esFollowed := next_esFollowed hc
    dsFollowed := next_dsFollowed hc
    dsSkidFollowed := next_dsSkidFollowed hc
    dsSkidMark := next_dsSkidMark hc
    esBubble := next_esBubble hc
    msFollowed := next_msFollowed hc
    msBubble := next_msBubble hc }

/-- Every run stays inside the invariant. -/
theorem control_run (cfg : Config) (s₀ : Cpu) (inp : Nat → CpuIn) (n : Nat) :
    Control (run cfg s₀ inp n) := by
  induction n with
  | zero => exact control_reset s₀
  | succ n ih => exact control_next ih

end Cpu
end RiscvCpu
