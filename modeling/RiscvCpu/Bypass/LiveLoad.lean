import RiscvCpu.Pipeline.Path
import RiscvCpu.Stack.Operand

/-!
# LiveLoad — an operand taken from the load that is still in the memory stage

With `LW_LIVE_BYPASS_ENABLE` a plain ALU instruction may follow the `LW` it depends on without a
bubble.  The select `2'b11` is decided while the load is in execute and used one cycle later, so the
consumer must then be in execute and the load in the memory stage.  It is so because the select is
granted only on an edge on which the load moves on: the consumer never enters the skid entry, and an
ALU instruction does not wait in execute.
-/

namespace RiscvCpu

namespace Decode

/-- The instructions that `ordinary_int_alu_consumer` accepts. -/
def ordinaryIntAlu (x : Word) : Bool :=
  isAluInst x && (isOpReg x || isOpImm x) && !isFpuInst x && !isMulInst x && !isMemInst x &&
  !isCsrInst x && !isBrJmpInst x && !isBitmanInst x

end Decode

namespace Cpu

variable {cfg : Config} {s : Cpu} {i : CpuIn} {t : Nat} {l : Labels}

/-- The packet takes an operand from the live load word. -/
def TakesLiveLoad (b : DsToEsBus) : Prop :=
  b.src.src1Fwd = 0b11#2 ∨ b.src.src2Fwd = 0b11#2

/-! ## The cycle in which the select is granted -/

theorem liveLw_of_srcFwd {p : IdStage.Ports} {live : Bool} {rs : BitVec 5}
    (h : IdStage.srcFwd p live rs = 0b11#2) : live = true := by
  cases live with
  | true => rfl
  | false =>
      simp only [IdStage.srcFwd, Bool.false_eq_true, if_false] at h
      split at h
      · split at h
        · cases h
        · split at h
          · cases h
          · cases h
      · cases h

theorem liveLwRs1_of_src1Fwd (h : (dsToEsBus cfg s i).src.src1Fwd = 0b11#2) :
    IdStage.liveLwRs1 cfg s.ds (idPorts cfg s i) = true := by
  have hfwd : IdStage.src1Fwd cfg s.ds (idPorts cfg s i) = 0b11#2 := h
  rw [IdStage.src1Fwd] at hfwd
  split at hfwd
  · cases hfwd
  · exact liveLw_of_srcFwd hfwd

theorem liveLwRs2_of_src2Fwd (h : (dsToEsBus cfg s i).src.src2Fwd = 0b11#2) :
    IdStage.liveLwRs2 cfg s.ds (idPorts cfg s i) = true := by
  have hfwd : IdStage.src2Fwd cfg s.ds (idPorts cfg s i) = 0b11#2 := h
  rw [IdStage.src2Fwd] at hfwd
  split at hfwd
  · cases hfwd
  · exact liveLw_of_srcFwd hfwd

/-- The select is granted to an ordinary consumer while the load it waits for moves on. -/
theorem granted_of_takesLiveLoad (h : TakesLiveLoad (dsToEsBus cfg s i)) :
    ExeStage.exeLwLiveOk cfg s.es (exePorts cfg s i) = true ∧
      Decode.ordinaryIntAlu (IdStage.idInst s.ds) = true := by
  have hboth : ExeStage.exeLwLiveOk cfg s.es (exePorts cfg s i) = true ∧
      IdStage.ordinaryIntAluConsumer s.ds (idPorts cfg s i) = true := by
    rcases h with h | h
    · have hlive := liveLwRs1_of_src1Fwd h
      simp only [IdStage.liveLwRs1, Bool.and_eq_true] at hlive
      exact hlive.2.1.1
    · have hlive := liveLwRs2_of_src2Fwd h
      simp only [IdStage.liveLwRs2, Bool.and_eq_true] at hlive
      exact hlive.2.1.1
  refine ⟨hboth.1, ?_⟩
  have hcons := hboth.2
  simp only [IdStage.ordinaryIntAluConsumer, Bool.and_eq_true] at hcons
  simp only [Decode.ordinaryIntAlu, Bool.and_eq_true]
  tauto

/-- The register that a granted select names is the one the load writes. -/
theorem rd_of_src1Fwd (h : (dsToEsBus cfg s i).src.src1Fwd = 0b11#2) :
    Decode.rs1Addr (IdStage.idInst s.ds) = s.es.buf.main.bus.ctrl.rdAddr := by
  have hlive := liveLwRs1_of_src1Fwd h
  simp only [IdStage.liveLwRs1, IdStage.exeWrites, Bool.and_eq_true, beq_iff_eq] at hlive
  exact hlive.2.2.1.2

theorem rd_of_src2Fwd (h : (dsToEsBus cfg s i).src.src2Fwd = 0b11#2) :
    Decode.rs2Addr (IdStage.idInst s.ds) = s.es.buf.main.bus.ctrl.rdAddr := by
  have hlive := liveLwRs2_of_src2Fwd h
  simp only [IdStage.liveLwRs2, IdStage.exeWrites, Bool.and_eq_true, beq_iff_eq] at hlive
  exact hlive.2.2.1.2

theorem exeLwLiveOk_parts (h : ExeStage.exeLwLiveOk cfg s.es (exePorts cfg s i) = true) :
    ExeStage.memStageAccept s.es (exePorts cfg s i) = true ∧
      ExeStage.instLw s.es = true ∧ (ExeStage.bus s.es).ctrl.regfileWen = true ∧
      (ExeStage.bus s.es).ctrl.rdAddr ≠ 0#5 := by
  simp only [ExeStage.exeLwLiveOk, Bool.and_eq_true, bne_iff_ne, ne_eq] at h
  refine ⟨?_, h.2.1.1.2, h.2.1.2, h.2.2⟩
  rw [ExeStage.memStageAccept, Bool.and_eq_true, Bool.and_eq_true]
  exact h.2.1.1.1

/-! ## The invariant -/

/-- The memory stage holds the `LW` that writes what the ALU instruction in execute takes live. -/
structure ServedLive (s : Cpu) (l : Labels) : Prop where
  consumer : Decode.ordinaryIntAlu l.esMain.inst = true
  ahead : LwAhead s
  load : Decode.instLw l.ms.inst = true
  rs1 : s.es.buf.main.bus.src.src1Fwd = 0b11#2 →
    Decode.rs1Addr l.esMain.inst = Decode.rdAddr l.ms.inst
  rs2 : s.es.buf.main.bus.src.src2Fwd = 0b11#2 →
    Decode.rs2Addr l.esMain.inst = Decode.rdAddr l.ms.inst

/-- No consumer of a live load waits in the skid entry, and the one in execute is served. -/
structure LiveLoads (s : Cpu) (l : Labels) : Prop where
  skid : s.es.buf.skidValid = true → ¬ TakesLiveLoad s.es.buf.skid.bus
  main : s.es.buf.valid = true → TakesLiveLoad s.es.buf.main.bus → ServedLive s l

theorem liveLoads_reset (s₀ : Cpu) : LiveLoads s₀.reset Labels.reset :=
  { skid := by intro h; cases h
    main := by intro h; cases h }

/-- On the edge on which a consumer passes to execute its load passes to the memory stage. -/
theorem servedLive_accepted (hc : Control s) (hl : Labelled s l)
    (hcore : SkidBuffer.coreAllowin s.es.buf (esWires cfg s i) = true)
    (hskid : s.es.buf.skidValid = false)
    (hfire : SkidBuffer.inFire s.es.buf (esWires cfg s i) = true)
    (h : TakesLiveLoad (dsToEsBus cfg s i)) :
    ServedLive (next cfg s i) (Labels.next cfg s i t l) := by
  have hinst : IdStage.idInst s.ds = l.dsMain.inst := hl.dsMain.2
  have hes : (Labels.next cfg s i t l).esMain = l.dsMain := by
    simp [Labels.next, SkidBuffer.nextMain, hcore, hskid, hfire]
  have hbus : (next cfg s i).es.buf.main.bus = dsToEsBus cfg s i := by
    rw [next_es_buf, SkidBuffer.next_of_moved hcore]
    simp only [hskid, hfire, Bool.false_eq_true, if_false, if_true]
    rfl
  rcases granted_of_takesLiveLoad h with ⟨hok, hcons⟩
  rcases exeLwLiveOk_parts hok with ⟨haccept, hlw, hwen, hrd⟩
  -- the load leaves execute on this edge
  have hmove : esToMsValid cfg s i = true := by
    rcases accept_parts haccept with ⟨hv, hready, -⟩
    rw [esToMsValid_eq, hv, hready]
    rfl
  have hms : (Labels.next cfg s i t l).ms = l.esMain := by rw [Labels.next_ms hc, if_pos hmove]
  have hload : Decode.instLw l.esMain.inst = true :=
    Decode.instLw_of_es hl.esMain.2.decoded hlw
  have hrdl : s.es.buf.main.bus.ctrl.rdAddr = Decode.rdAddr l.esMain.inst := by
    rw [hl.esMain.2.decoded.ctrl]
    rfl
  refine { consumer := ?_, ahead := ?_, load := ?_, rs1 := ?_, rs2 := ?_ }
  · rw [hes, ← hinst]
    exact hcons
  · exact (lwAhead_next hc hl.esMain.2 hload haccept hwen hrd).1
  · rw [hms]
    exact hload
  · intro hfwd
    rw [hbus] at hfwd
    rw [hes, hms, ← hinst, ← hrdl]
    exact rd_of_src1Fwd hfwd
  · intro hfwd
    rw [hbus] at hfwd
    rw [hes, hms, ← hinst, ← hrdl]
    exact rd_of_src2Fwd hfwd

theorem liveLoads_next_main (hc : Control s) (hl : Labelled s l) (h : LiveLoads s l)
    (hv : (next cfg s i).es.buf.valid = true)
    (htakes : TakesLiveLoad (next cfg s i).es.buf.main.bus) :
    ServedLive (next cfg s i) (Labels.next cfg s i t l) := by
  have hbuf := @next_es_buf cfg s i
  rw [hbuf] at hv htakes
  cases hcore : SkidBuffer.coreAllowin s.es.buf (esWires cfg s i) with
  | false =>
      -- only a multiplication or division stands still
      exfalso
      rw [SkidBuffer.next_of_stalled hcore] at htakes
      rcases es_stalled hcore hc with ⟨hev, -, -, hmul, -⟩
      have hcons := (h.main hev htakes).consumer
      rw [hl.esMain.2.decoded.ctrl] at hmul
      have hmul' : Decode.isMulInst l.esMain.inst = true := hmul
      simp [Decode.ordinaryIntAlu, hmul'] at hcons
  | true =>
      rw [SkidBuffer.next_of_moved hcore] at hv htakes
      cases hskid : s.es.buf.skidValid with
      | true =>
          exfalso
          simp only [hskid, if_true] at htakes
          exact h.skid hskid htakes
      | false =>
          have hfire : SkidBuffer.inFire s.es.buf (esWires cfg s i) = true := by
            simpa [hskid] using hv
          simp only [hskid, hfire, Bool.false_eq_true, if_false, if_true] at htakes
          exact servedLive_accepted hc hl hcore hskid hfire htakes

theorem liveLoads_next_skid (hc : Control s) (h : LiveLoads s l)
    (hv : (next cfg s i).es.buf.skidValid = true) :
    ¬ TakesLiveLoad (next cfg s i).es.buf.skid.bus := by
  have hbuf := @next_es_buf cfg s i
  rw [hbuf] at hv ⊢
  cases hcore : SkidBuffer.coreAllowin s.es.buf (esWires cfg s i) with
  | true =>
      rw [SkidBuffer.next_of_moved hcore] at hv
      cases hv
  | false =>
      rw [SkidBuffer.next_of_stalled hcore] at hv ⊢
      cases hskid : s.es.buf.skidValid with
      | true =>
          simp only [Bool.not_true, Bool.and_false, Bool.false_eq_true, if_false]
          exact h.skid hskid
      | false =>
          have hfire : SkidBuffer.inFire s.es.buf (esWires cfg s i) = true := by
            simp only [hskid, Bool.false_or, Bool.and_eq_true] at hv
            exact hv.2
          simp only [hfire, Bool.not_false, Bool.and_true, if_true]
          -- what stands still in execute is no load that moves on
          intro htakes
          have hok := (@granted_of_takesLiveLoad cfg s i htakes).1
          have hready := (es_stalled hcore hc).2.2.2.2
          rw [(accept_parts (exeLwLiveOk_parts hok).1).2.1] at hready
          cases hready

theorem liveLoads_run (cfg : Config) (s₀ : Cpu) (inp : Nat → CpuIn) (t : Nat) :
    LiveLoads (run cfg s₀ inp t) (labelsAt cfg s₀ inp t) := by
  induction t with
  | zero => exact liveLoads_reset s₀
  | succ t ih =>
      have hc := control_run cfg s₀ inp t
      exact
        { skid := liveLoads_next_skid hc ih
          main := liveLoads_next_main hc (labelled_run cfg s₀ inp t) ih }

/-! ## The contract -/

section Run

variable (cfg : Config) (s₀ : Cpu) (inp : Nat → CpuIn)

/-- What the memory stage hands to write-back in cycle `t`. -/
def toWriteBack (t : Nat) : MsToWsBus :=
  MemStage.msToWsBus (run cfg s₀ inp t).ms (inp t).dmemRdata
    (exceptionFlag (run cfg s₀ inp t) (inp t))

/-- In cycle `t` the plain ALU instruction in execute takes `rs` from the `LW` in the memory stage,
which is its nearest older producer and hands that same word to write-back. -/
structure LiveOperand (t : Nat) (rs : BitVec 5) : Prop where
  consumer : Decode.ordinaryIntAlu (labelsAt cfg s₀ inp t).esMain.inst = true
  liveValid : MemStage.memLwLiveValid cfg (run cfg s₀ inp t).ms = true
  msAllowin : MemStage.msAllowin (run cfg s₀ inp t).ms = true
  load : Decode.instLw (labelsAt cfg s₀ inp t).ms.inst = true
  writes : rs ≠ 0#5 ∧ Decode.rdAddr (labelsAt cfg s₀ inp t).ms.inst = rs
  older : (labelsAt cfg s₀ inp t).ms.seq < (labelsAt cfg s₀ inp t).esMain.seq
  /-- No instruction that ever reaches the memory stage lies between the two. -/
  nearest : ∀ n, MemStage.msValid (run cfg s₀ inp n).ms = true →
    (labelsAt cfg s₀ inp n).ms.seq ≤ (labelsAt cfg s₀ inp t).ms.seq ∨
      (labelsAt cfg s₀ inp t).esMain.seq ≤ (labelsAt cfg s₀ inp n).ms.seq
  handed : MemStage.msToWsValid (run cfg s₀ inp t).ms = true ∧
    (toWriteBack cfg s₀ inp t).regfileWen = true ∧ (toWriteBack cfg s₀ inp t).rdAddr = rs
  data : MemStage.memLwLiveData cfg (inp t).dmemRdata = (toWriteBack cfg s₀ inp t).result

theorem isMul_of_ordinaryIntAlu {x : Word} (h : Decode.ordinaryIntAlu x = true) :
    Decode.isMulInst x = false := by
  simp only [Decode.ordinaryIntAlu, Bool.and_eq_true, Bool.not_eq_true'] at h
  exact h.1.1.1.1.2

/-- Whatever enters the memory stage is no younger than the instruction in execute, or it enters
after that one. -/
theorem nothing_between {t : Nat}
    (hmove : esToMsValid cfg (run cfg s₀ inp t) (inp t) = true) (n : Nat) :
    (labelsAt cfg s₀ inp n).ms.seq ≤ (labelsAt cfg s₀ inp t).ms.seq ∨
      (labelsAt cfg s₀ inp t).esMain.seq ≤ (labelsAt cfg s₀ inp n).ms.seq := by
  rcases Nat.lt_or_ge t n with hlt | hle
  · right
    calc
      (labelsAt cfg s₀ inp t).esMain.seq = (labelsAt cfg s₀ inp (t + 1)).ms.seq := by
        rw [labelsAt, Labels.next_ms (control_run cfg s₀ inp t), if_pos hmove]
      _ ≤ (labelsAt cfg s₀ inp n).ms.seq := ms_seq_mono cfg s₀ inp hlt
  · exact Or.inl (ms_seq_mono cfg s₀ inp hle)

/-- A served consumer that is not flushed gets the word its load hands to write-back. -/
theorem liveOperand_of_served (hcfg : cfg.lwLiveBypassEnable = true) {t : Nat} {rs : BitVec 5}
    (hv : (run cfg s₀ inp t).es.buf.valid = true)
    (hexc : exceptionFlag (run cfg s₀ inp t) (inp t) = false)
    (h : ServedLive (run cfg s₀ inp t) (labelsAt cfg s₀ inp t))
    (hrs : rs = Decode.rdAddr (labelsAt cfg s₀ inp t).ms.inst) :
    LiveOperand cfg s₀ inp t rs := by
  have hc := control_run cfg s₀ inp t
  have hms := (labelled_run cfg s₀ inp t).ms.2
  have hrd : (MemStage.bus (run cfg s₀ inp t).ms).rdAddr = rs := by
    rw [hrs]
    exact hms.rdAddr
  -- an ALU instruction moves on in the cycle in which it takes its operand
  have hmul : (run cfg s₀ inp t).es.buf.main.bus.ctrl.isMul = false := by
    rw [(labelled_run cfg s₀ inp t).esMain.2.decoded.ctrl]
    exact isMul_of_ordinaryIntAlu h.consumer
  have hmove : esToMsValid cfg (run cfg s₀ inp t) (inp t) = true :=
    esToMsValid_of_not_isMul hv hmul
  have hload : (MemStage.bus (run cfg s₀ inp t).ms).loadInst = LoadInst.LW := by
    simpa [MemStage.loadLw] using h.ahead.loads
  have hexe : (MemStage.bus (run cfg s₀ inp t).ms).exeResultSel.exe = false := by
    rw [MemStage.bus, hms.exeResultSel]
    exact (Decode.class_of_instLw h.load).2.2.2.1
  refine
    { consumer := h.consumer, liveValid := ?_, msAllowin := hc.msAllowin, load := h.load
      writes := ⟨?_, hrs.symm⟩, older := ms_lt_esMain (inOrder_run cfg s₀ inp t) hv
      nearest := fun n _ => nothing_between cfg s₀ inp hmove n, handed := ⟨?_, ?_, hrd⟩
      data := ?_ }
  · simp [MemStage.memLwLiveValid, hcfg, h.ahead.valid, h.ahead.unflushed, h.ahead.loads]
  · rw [← hrd]
    exact h.ahead.rdNonzero
  · simp [MemStage.msToWsValid, h.ahead.valid, MemStage.msReadyGo]
  · simp [toWriteBack, MemStage.msToWsBus, MemStage.memRegfileWen, h.ahead.valid,
      h.ahead.writes, h.ahead.unflushed, hexc]
  · simp [toWriteBack, MemStage.msToWsBus, MemStage.memResult, MemStage.memLwLiveData, hcfg,
      MemStage.loadData, hexe, hload, LoadInst.LW, LoadInst.LB, LoadInst.LBU, LoadInst.LH,
      LoadInst.LHU]

/-- The assertion is silent while no operand is taken live. -/
theorem liveLwContract_of_idle {cfg : Config} {s : Cpu} {i : CpuIn} {valid : Bool}
    (h : (ExeStage.esValid s.es && !esFlush cfg s i &&
      (((ExeStage.bus s.es).src.src1Fwd == 0b11#2) ||
        ((ExeStage.bus s.es).src.src2Fwd == 0b11#2))) = false) :
    ExeStage.liveLwContract cfg s.es (exePorts cfg s i) valid = true := by
  have h' : (ExeStage.esValid s.es && !ExeStage.esFlush s.es (exePorts cfg s i) &&
      (((ExeStage.bus s.es).src.src1Fwd == 0b11#2) ||
        ((ExeStage.bus s.es).src.src2Fwd == 0b11#2))) = false := h
  simp only [ExeStage.liveLwContract, Bool.and_assoc] at h' ⊢
  rw [h', Bool.and_false]
  rfl

/-- What the assertion demands of a consumer is what it is. -/
theorem liveLwContract_of_liveOperand {t : Nat} {rs : BitVec 5}
    (h : LiveOperand cfg s₀ inp t rs) :
    ExeStage.liveLwContract cfg (run cfg s₀ inp t).es
      (exePorts cfg (run cfg s₀ inp t) (inp t))
      (MemStage.memLwLiveValid cfg (run cfg s₀ inp t).ms) = true := by
  have hctrl : (ExeStage.bus (run cfg s₀ inp t).es).ctrl =
      Decode.ctrlPacket (labelsAt cfg s₀ inp t).esMain.inst
        (ExeStage.bus (run cfg s₀ inp t).es).ctrl.pc :=
    (labelled_run cfg s₀ inp t).esMain.2.decoded.ctrl
  have hallow : (exePorts cfg (run cfg s₀ inp t) (inp t)).msAllowin = true := h.msAllowin
  have hcons := h.consumer
  simp only [Decode.ordinaryIntAlu, Bool.and_eq_true, Bool.not_eq_true'] at hcons
  rcases hcons with ⟨⟨⟨⟨⟨⟨⟨halu, -⟩, hfpu⟩, hmul⟩, hmem⟩, hcsr⟩, hbr⟩, hbit⟩
  rw [ExeStage.liveLwContract, hctrl]
  simp [Decode.ctrlPacket, halu, hfpu, hmul, hmem, hcsr, hbr, hbit, h.liveValid, hallow]

/-- Each select that asks for the live word is served. -/
theorem liveOperands_of_live (hcfg : cfg.lwLiveBypassEnable = true) {t : Nat}
    (hv : ExeStage.esValid (run cfg s₀ inp t).es = true)
    (hflush : esFlush cfg (run cfg s₀ inp t) (inp t) = false) :
    ((ExeStage.bus (run cfg s₀ inp t).es).src.src1Fwd = 0b11#2 →
      LiveOperand cfg s₀ inp t (Decode.rs1Addr (labelsAt cfg s₀ inp t).esMain.inst)) ∧
    ((ExeStage.bus (run cfg s₀ inp t).es).src.src2Fwd = 0b11#2 →
      LiveOperand cfg s₀ inp t (Decode.rs2Addr (labelsAt cfg s₀ inp t).esMain.inst)) := by
  have hserved := (liveLoads_run cfg s₀ inp t).main
  have hexc : exceptionFlag (run cfg s₀ inp t) (inp t) = false :=
    (Bool.or_eq_false_iff.mp hflush).2
  constructor
  · intro hfwd
    have h := hserved hv (Or.inl hfwd)
    exact liveOperand_of_served cfg s₀ inp hcfg hv hexc h (h.rs1 hfwd)
  · intro hfwd
    have h := hserved hv (Or.inr hfwd)
    exact liveOperand_of_served cfg s₀ inp hcfg hv hexc h (h.rs2 hfwd)

/-- With the live bypass enabled its contract is kept in every cycle of every run: the assertion
never fires, and every operand that a valid, unflushed instruction takes through the bypass comes
from its nearest older producer, an `LW` that hands the same word to write-back. -/
theorem live_load_contract (hcfg : cfg.lwLiveBypassEnable = true) (t : Nat) :
    ExeStage.liveLwContract cfg (run cfg s₀ inp t).es
      (exePorts cfg (run cfg s₀ inp t) (inp t))
      (MemStage.memLwLiveValid cfg (run cfg s₀ inp t).ms) = true ∧
    (ExeStage.esValid (run cfg s₀ inp t).es = true →
      esFlush cfg (run cfg s₀ inp t) (inp t) = false →
      ((ExeStage.bus (run cfg s₀ inp t).es).src.src1Fwd = 0b11#2 →
        LiveOperand cfg s₀ inp t (Decode.rs1Addr (labelsAt cfg s₀ inp t).esMain.inst)) ∧
      ((ExeStage.bus (run cfg s₀ inp t).es).src.src2Fwd = 0b11#2 →
        LiveOperand cfg s₀ inp t (Decode.rs2Addr (labelsAt cfg s₀ inp t).esMain.inst))) := by
  refine ⟨?_, liveOperands_of_live cfg s₀ inp hcfg⟩
  -- without such a select the assertion is idle
  cases hfires : (ExeStage.esValid (run cfg s₀ inp t).es && !esFlush cfg (run cfg s₀ inp t) (inp t) &&
      (((ExeStage.bus (run cfg s₀ inp t).es).src.src1Fwd == 0b11#2) ||
        ((ExeStage.bus (run cfg s₀ inp t).es).src.src2Fwd == 0b11#2))) with
  | false => exact liveLwContract_of_idle hfires
  | true =>
      simp only [Bool.and_eq_true, Bool.not_eq_true', Bool.or_eq_true, beq_iff_eq] at hfires
      rcases hfires with ⟨⟨hv, hflush⟩, hfwd | hfwd⟩
      · have hoperand := (liveOperands_of_live cfg s₀ inp hcfg hv hflush).1 hfwd
        exact liveLwContract_of_liveOperand cfg s₀ inp hoperand
      · have hoperand := (liveOperands_of_live cfg s₀ inp hcfg hv hflush).2 hfwd
        exact liveLwContract_of_liveOperand cfg s₀ inp hoperand

end Run

/-- The build with the live bypass. -/
def liveBuild : Config := { perfBench := false, lwLiveBypassEnable := true }

/-- A load and an addition of what it loads. -/
def loadThenAdd (n : Nat) : CpuIn :=
  { imemRdata :=
      if n == 2 then 0x00002283#32        -- lw x5, 0(x0)
      else if n == 3 then 0x00128313#32   -- addi x6, x5, 1
      else 0x00000013#32
    dmemRdata := 7#32
    plicIrq := false }

/-- The addition of that stream takes its operand live in cycle 5. -/
theorem live_load_contract_load_then_add : LiveOperand liveBuild zero loadThenAdd 5 5#5 :=
  ((live_load_contract liveBuild zero loadThenAdd rfl 5).2 (by decide +kernel)
    (by decide +kernel)).1 (by decide +kernel)

end Cpu
end RiscvCpu
