import RiscvCpu.Pipeline.Label

/-!
# Squash — instructions behind a redirect have no effect

The effects of an instruction are its register write in write-back, its CSR write in the memory
stage, and its data request, its write to the stack value buffer and its predictor update in execute.

A set of label numbers is `Dead` in a state when every stage that holds one of them has marked it as
squashed.  No edge revives a dead instruction (`dead_next`), a dead instruction has no effect
(`not_performs_of_dead`), and both kinds of redirect leave every younger instruction dead.
-/

namespace RiscvCpu

inductive Effect where
  | registerWrite
  | csrWrite
  | dataRequest
  | stackWrite
  | predictorUpdate

/-- The instruction numbered `q` has the effect `e` in this cycle. -/
def Performs (cfg : Config) (s : Cpu) (i : CpuIn) (l : Labels) (e : Effect) (q : Nat) : Prop :=
  match e with
  | .registerWrite =>
      (WbStage.regfileWen s.ws || WbStage.regFpuWen s.ws) = true ∧ l.ws.seq = q
  | .csrWrite => Cpu.csrWe s i = true ∧ l.ms.seq = q
  | .dataRequest => Cpu.dmemEn cfg s i = true ∧ l.esMain.seq = q
  | .stackWrite => (Cpu.stackPorts cfg s i).storeValid = true ∧ l.esMain.seq = q
  | .predictorUpdate => (Cpu.ifPorts cfg s i).bpUpdateValid = true ∧ l.esMain.seq = q

variable {cfg : Config} {s : Cpu} {i : CpuIn} {t : Nat} {l : Labels}

namespace Cpu

/-! ## Effects in execute -/

theorem esReadyGo_of_not_isMul (h : s.es.buf.main.bus.ctrl.isMul = false) :
    esReadyGo cfg s i = true := by
  have hmul : (ExeStage.bus s.es).ctrl.isMul = false := h
  simp [esReadyGo, ExeStage.esReadyGo, ExeStage.mulStall, Mul.mulStall, ExeStage.mulPorts, hmul,
    ExeStage.fpuStall]

/-- Nothing but a multiplication or a division stays in execute. -/
theorem esToMsValid_of_not_isMul (hv : s.es.buf.valid = true)
    (h : s.es.buf.main.bus.ctrl.isMul = false) : esToMsValid cfg s i = true := by
  rw [esToMsValid_eq, hv, esReadyGo_of_not_isMul h, Bool.and_self]

theorem memOp_none_of_isMul (hc : Control s) (hmul : s.es.buf.main.bus.ctrl.isMul = true) :
    s.es.buf.main.bus.mem.memOp.any = false := by
  rcases hc.esMain with ⟨x, hx⟩
  rw [hx.decoded.ctrl] at hmul
  have hop := Decode.opcode_of_isMulInst hmul
  rw [hx.decoded.memOp]
  simp [MemOp.any, Decode.memOp, Decode.instLb, Decode.instSb, Decode.instLh, Decode.instSh,
    Decode.instLw, Decode.instSw, Decode.instLbu, Decode.instLhu, Decode.instFlw, Decode.instFsw,
    Decode.isLoad, Decode.isStore, Decode.isFload, Decode.isFstore, hop]

/-- An instruction with an effect in execute is valid and unflushed, and moves on. -/
theorem es_moves_of_performs (hc : Control s) {e : Effect} {q : Nat}
    (h : Performs cfg s i l e q) (he : e ≠ .registerWrite) (he' : e ≠ .csrWrite) :
    l.esMain.seq = q ∧ s.es.buf.valid = true ∧ s.es.buf.main.dsFlush = false ∧
      exceptionFlag s i = false ∧ esToMsValid cfg s i = true := by
  cases e with
  | registerWrite => exact absurd rfl he
  | csrWrite => exact absurd rfl he'
  | dataRequest =>
      rcases h with ⟨hen, hq⟩
      simp only [dmemEn, ExeStage.dmemEn, ExeStage.esFlush, Bool.and_eq_true, Bool.not_eq_true',
        Bool.or_eq_false_iff] at hen
      -- a multiplication or a division makes no request
      have hmul : s.es.buf.main.bus.ctrl.isMul = false := by
        cases hm : s.es.buf.main.bus.ctrl.isMul with
        | false => rfl
        | true =>
            have hnone := memOp_none_of_isMul hc hm
            have hany : s.es.buf.main.bus.mem.memOp.any = true := hen.1.2
            rw [hany] at hnone
            cases hnone
      exact ⟨hq, hen.1.1, hen.2.1, hen.2.2, esToMsValid_of_not_isMul hen.1.1 hmul⟩
  | stackWrite =>
      rcases h with ⟨hen, hq⟩
      simp only [stackPorts, ExeStage.stackStoreValid, ExeStage.memStageAccept, ExeStage.esFlush,
        Bool.and_eq_true, Bool.not_eq_true', Bool.or_eq_false_iff] at hen
      have hto : esToMsValid cfg s i = true := hen.1.1.1.1
      exact ⟨hq, (esToMsValid_parts hto).1, hen.1.1.2.1, hen.1.1.2.2, hto⟩
  | predictorUpdate =>
      rcases h with ⟨hen, hq⟩
      simp only [ifPorts, ExeStage.bpUpdateValid, ExeStage.esFlush, Bool.and_eq_true,
        Bool.not_eq_true', Bool.or_eq_false_iff] at hen
      have hbr : s.es.buf.main.bus.ctrl.isBrJmp = true := hen.2
      have hmul := isMul_of_isBrJmp hc hbr
      exact ⟨hq, hen.1.1, hen.1.2.1, hen.1.2.2, esToMsValid_of_not_isMul hen.1.1 hmul⟩

/-- `br_redirect` implies `es_valid`. -/
theorem esValid_of_brRedirect (hc : Control s) (h : brRedirect cfg s i = true) :
    s.es.buf.valid = true := by
  rcases isBrJmp_of_brRedirect h with ⟨hflush, -, hbr⟩
  cases hv : s.es.buf.valid with
  | true => rfl
  | false =>
      exfalso
      rcases hc.esBubble hv with hf | hp
      · rw [hflush] at hf; cases hf
      · rw [hp.1] at hbr; cases hbr

/-- No CSR is written by an instruction in the cycle in which it raises `exception_flag`. -/
theorem not_csrWe_of_exceptionFlag (hc : Control s) (h : exceptionFlag s i = true) :
    ¬ csrWe s i = true := by
  intro hwe
  have hlive := ms_live_of_exceptionFlag hc h
  simp only [csrWe, MemStage.csrWe, Bool.and_eq_true, Bool.not_eq_true'] at hwe
  rcases hc.msMain with ⟨x, hx⟩
  have hfl : s.ms.buf.main.esFlush = false := hlive.2
  have hwen : Decode.csrWen x = true := by
    have hw : s.ms.buf.main.bus.csrWen = true := hwe.1.1.2
    rw [hx.csrWen, Bool.and_eq_true] at hw
    exact hw.1
  rw [exceptionFlag, RegfileCsr.exceptionFlag, hwe.2, Bool.false_or, RegfileCsr.mretJmpFlag,
    Bool.and_eq_true] at h
  -- without a trap the code is the one attached in decode, and a CSR instruction has none
  have hcode : exceptionCode s i = MemStage.excCode s.ms := by
    rcases exceptionCode_cases hlive.2 with h5 | heq
    · rw [h5] at hwe; cases hwe.2
    · exact heq
  have hsys : Decode.sysCode x = Exc.MRET := by
    have hm : MemStage.excCode s.ms = Exc.MRET := by
      rw [← hcode]
      simpa [RegfileCsr.mretFlag] using h.1
    rcases hx.excCode with heq | ⟨hf, -⟩
    · rw [← heq]; exact hm
    · rw [hfl] at hf; cases hf
  have hzero := Decode.sysCode_of_csrWen hwen
  rw [hzero] at hsys
  cases hsys

theorem es_moves_of_pipeFlush (hc : Control s) (h : pipeFlush cfg s i = true) :
    SkidBuffer.coreAllowin s.es.buf (esWires cfg s i) = true := by
  cases hcore : SkidBuffer.coreAllowin s.es.buf (esWires cfg s i) with
  | true => rfl
  | false => rw [pipeFlush_of_stalled hc hcore] at h; cases h

theorem esSkid_of_pipeFlush (hc : Control s) (h : pipeFlush cfg s i = true) :
    s.es.buf.skidValid = false := by
  cases hsk : s.es.buf.skidValid with
  | false => rfl
  | true =>
      have hstop := hc.esWf.stopped hsk
      rw [esAllowin_of_pipeFlush hc h] at hstop
      cases hstop

end Cpu

/-! ## Dead instructions -/

/-- Every stage that holds an instruction numbered in `T` has marked it as squashed. -/
structure Dead (T : Nat → Prop) (s : Cpu) (l : Labels) : Prop where
  fs : s.fs.reqValid = true → ¬ T l.fs.seq
  dsMain : s.ds.buf.valid = true → T l.dsMain.seq → s.ds.dsFlushR = true
  dsSkid : s.ds.buf.skidValid = true → T l.dsSkid.seq → s.ds.dsFlushSkid = true
  esMain : s.es.buf.valid = true → T l.esMain.seq → s.es.buf.main.dsFlush = true
  esSkid : s.es.buf.skidValid = true → T l.esSkid.seq → s.es.buf.skid.dsFlush = true
  ms : s.ms.buf.valid = true → T l.ms.seq → MemStage.msFlush s.ms = true
  ws : s.ws.wsValid = true → T l.ws.seq →
    s.ws.msWsBusR.regfileWen = false ∧ s.ws.msWsBusR.regFpuWen = false

section DeadNext

variable {T : Nat → Prop}

theorem dead_next_fs (h : Dead T s l) (hnew : ¬ T (t + 1))
    (hv : (Cpu.next cfg s i).fs.reqValid = true) : ¬ T (Labels.next cfg s i t l).fs.seq := by
  simp only [Labels.next]
  cases hen : Cpu.imemEn cfg s i with
  | true => exact hnew
  | false =>
      have hvalid : s.fs.reqValid = true := by
        have hreq : IfStage.requestFire s.fs (Cpu.ifPorts cfg s i) = false := hen
        simp only [Cpu.next, IfStage.next, hreq, Bool.false_eq_true, if_false] at hv
        split at hv
        · cases hv
        · split at hv
          · cases hv
          · exact hv
      exact h.fs hvalid

theorem dead_next_ds (h : Dead T s l) :
    ((Cpu.next cfg s i).ds.buf.valid = true → T (Labels.next cfg s i t l).dsMain.seq →
      (Cpu.next cfg s i).ds.dsFlushR = true) ∧
    ((Cpu.next cfg s i).ds.buf.skidValid = true → T (Labels.next cfg s i t l).dsSkid.seq →
      (Cpu.next cfg s i).ds.dsFlushSkid = true) := by
  -- what fetch hands over is not dead
  have hfs : SkidBuffer.inFire s.ds.buf (Cpu.dsWires cfg s i) = true → ¬ T l.fs.seq := by
    intro hfire
    rw [Cpu.ds_inFire, Bool.and_eq_true, Bool.and_eq_true] at hfire
    exact h.fs hfire.1.1
  cases hcore : SkidBuffer.coreAllowin s.ds.buf (Cpu.dsWires cfg s i) with
  | true =>
      rw [Cpu.next_ds_buf, SkidBuffer.next_of_moved hcore, Cpu.next_dsFlushR_moved hcore]
      simp only [Labels.next, SkidBuffer.nextMain, hcore, if_true]
      refine ⟨?_, fun hsk => by cases hsk⟩
      intro hv hT
      cases hsk : s.ds.buf.skidValid with
      -- the skid entry becomes the instruction and keeps its mark
      | true =>
          rw [hsk, if_pos rfl] at hT
          simp [h.dsSkid hsk hT]
      | false =>
          have hfire : SkidBuffer.inFire s.ds.buf (Cpu.dsWires cfg s i) = true := by
            simpa [hsk] using hv
          rw [hsk, hfire] at hT
          exact absurd hT (hfs hfire)
  | false =>
      have hv := SkidBuffer.valid_of_stalled hcore
      rw [Cpu.next_ds_buf, SkidBuffer.next_of_stalled hcore, Cpu.next_dsFlushR_stalled hcore,
        Cpu.next_dsFlushSkid_stalled hcore]
      simp only [Labels.next, SkidBuffer.nextMain, SkidBuffer.nextSkid, hcore, Bool.false_eq_true,
        if_false]
      refine ⟨fun _ hT => by simp [h.dsMain hv hT], ?_⟩
      intro hskid hT
      cases hsk : s.ds.buf.skidValid with
      | true =>
          simp only [hsk, Bool.not_true, Bool.and_false, Bool.false_eq_true, if_false] at hT
          simp [h.dsSkid hsk hT]
      | false =>
          have hfire : SkidBuffer.inFire s.ds.buf (Cpu.dsWires cfg s i) = true := by
            simpa [hsk, Cpu.dsWires, IdStage.wires] using hskid
          simp only [hfire, hsk, Bool.not_false, Bool.and_true, if_true] at hT
          exact absurd hT (hfs hfire)

theorem dead_next_es (h : Dead T s l) :
    ((Cpu.next cfg s i).es.buf.valid = true → T (Labels.next cfg s i t l).esMain.seq →
      (Cpu.next cfg s i).es.buf.main.dsFlush = true) ∧
    ((Cpu.next cfg s i).es.buf.skidValid = true → T (Labels.next cfg s i t l).esSkid.seq →
      (Cpu.next cfg s i).es.buf.skid.dsFlush = true) := by
  -- what decode hands over is marked if it is dead
  have hds : SkidBuffer.inFire s.es.buf (Cpu.esWires cfg s i) = true → T l.dsMain.seq →
      (Cpu.esPayload cfg s i).dsFlush = true := by
    intro hfire hT
    show Cpu.dsFlush cfg s i = true
    rw [Cpu.dsFlush_eq, h.dsMain (Cpu.ds_valid_of_es_inFire hfire) hT, Bool.or_true]
  cases hcore : SkidBuffer.coreAllowin s.es.buf (Cpu.esWires cfg s i) with
  | true =>
      rw [Cpu.next_es_buf, SkidBuffer.next_of_moved hcore]
      simp only [Labels.next, SkidBuffer.nextMain, hcore, if_true]
      refine ⟨?_, fun hsk => by cases hsk⟩
      intro hv hT
      cases hsk : s.es.buf.skidValid with
      | true =>
          rw [hsk, if_pos rfl] at hT
          exact h.esSkid hsk hT
      | false =>
          have hfire : SkidBuffer.inFire s.es.buf (Cpu.esWires cfg s i) = true := by
            simpa [hsk] using hv
          simp only [hsk, hfire, Bool.false_eq_true, if_false, if_true] at hT ⊢
          exact hds hfire hT
  | false =>
      have hv := SkidBuffer.valid_of_stalled hcore
      rw [Cpu.next_es_buf, SkidBuffer.next_of_stalled hcore]
      simp only [Labels.next, SkidBuffer.nextMain, SkidBuffer.nextSkid, hcore, Bool.false_eq_true,
        if_false]
      refine ⟨fun _ hT => h.esMain hv hT, ?_⟩
      intro hskid hT
      split at hT
      · rename_i hin
        rw [if_pos hin]
        exact hds (Bool.and_eq_true_iff.mp hin).1 hT
      · rename_i hin
        rw [if_neg hin]
        have hsk : s.es.buf.skidValid = true := by
          revert hskid hin
          cases s.es.buf.skidValid <;>
            cases SkidBuffer.inFire s.es.buf (Cpu.esWires cfg s i) <;> simp
        exact h.esSkid hsk hT

theorem dead_next_ms (h : Dead T s l) (hc : Cpu.Control s)
    (hv : (Cpu.next cfg s i).ms.buf.valid = true) (hT : T (Labels.next cfg s i t l).ms.seq) :
    MemStage.msFlush (Cpu.next cfg s i).ms = true := by
  rw [Cpu.next_ms_valid hc] at hv
  rw [Labels.next_ms hc, if_pos hv] at hT
  rw [Cpu.next_msFlush hc hv, h.esMain (Cpu.esToMsValid_parts hv).1 hT, Bool.true_or]

/-- Write-back after the edge, when it is valid. -/
theorem next_ws_bus (hc : Cpu.Control s) :
    (Cpu.next cfg s i).ws.wsValid = s.ms.buf.valid ∧
      (s.ms.buf.valid = true → (Cpu.next cfg s i).ws.msWsBusR =
        MemStage.msToWsBus s.ms i.dmemRdata (Cpu.exceptionFlag s i)) := by
  constructor
  · simp [Cpu.next, WbStage.next, MemStage.msToWsValid, MemStage.msValid, MemStage.msReadyGo,
      WbStage.wsAllowin, hc.wsAllowin]
  · intro hv
    simp [Cpu.next, WbStage.next, MemStage.msToWsValid, MemStage.msValid, MemStage.msReadyGo,
      WbStage.wsAllowin, hc.wsAllowin, hv]

theorem dead_next_ws (h : Dead T s l) (hc : Cpu.Control s)
    (hv : (Cpu.next cfg s i).ws.wsValid = true) (hT : T (Labels.next cfg s i t l).ws.seq) :
    (Cpu.next cfg s i).ws.msWsBusR.regfileWen = false ∧
      (Cpu.next cfg s i).ws.msWsBusR.regFpuWen = false := by
  rw [(next_ws_bus hc).1] at hv
  rw [Labels.next_ws hc, if_pos hv] at hT
  have hflush := h.ms hv hT
  rw [(next_ws_bus hc).2 hv]
  simp [MemStage.msToWsBus, MemStage.memRegfileWen, MemStage.memRegFpuWen, hflush]

/-- No edge revives a dead instruction. -/
theorem dead_next (hc : Cpu.Control s) (h : Dead T s l) (hnew : ¬ T (t + 1)) :
    Dead T (Cpu.next cfg s i) (Labels.next cfg s i t l) :=
  { fs := dead_next_fs h hnew
    dsMain := (dead_next_ds h).1
    dsSkid := (dead_next_ds h).2
    esMain := (dead_next_es h).1
    esSkid := (dead_next_es h).2
    ms := dead_next_ms h hc
    ws := dead_next_ws h hc }

/-- A dead instruction has no effect. -/
theorem not_performs_of_dead (hc : Cpu.Control s) (h : Dead T s l) {q : Nat} (hq : T q)
    (e : Effect) : ¬ Performs cfg s i l e q := by
  intro hp
  cases e with
  -- each effect is gated by the mark of its stage
  | registerWrite =>
      rcases hp with ⟨hwen, rfl⟩
      simp only [WbStage.regfileWen, WbStage.regFpuWen, Bool.or_eq_true, Bool.and_eq_true] at hwen
      rcases hwen with ⟨hv, hw⟩ | ⟨hv, hw⟩
      · rw [(h.ws hv hq).1] at hw; cases hw
      · rw [(h.ws hv hq).2] at hw; cases hw
  | csrWrite =>
      rcases hp with ⟨hwe, rfl⟩
      simp only [Cpu.csrWe, MemStage.csrWe, Bool.and_eq_true, Bool.not_eq_true'] at hwe
      rw [h.ms hwe.1.1.1 hq] at hwe
      cases hwe.1.2
  | dataRequest =>
      rcases Cpu.es_moves_of_performs hc hp (by simp) (by simp) with ⟨rfl, hv, hf, -, -⟩
      rw [h.esMain hv hq] at hf; cases hf
  | stackWrite =>
      rcases Cpu.es_moves_of_performs hc hp (by simp) (by simp) with ⟨rfl, hv, hf, -, -⟩
      rw [h.esMain hv hq] at hf; cases hf
  | predictorUpdate =>
      rcases Cpu.es_moves_of_performs hc hp (by simp) (by simp) with ⟨rfl, hv, hf, -, -⟩
      rw [h.esMain hv hq] at hf; cases hf

end DeadNext

/-! ## A redirect leaves what is behind it dead -/

/-- A flush marks what decode and its skid entry hold; they take nothing in. -/
theorem marked_ds_of_pipeFlush (hflush : Cpu.pipeFlush cfg s i = true) :
    ((Cpu.next cfg s i).ds.buf.valid = true → (Cpu.next cfg s i).ds.dsFlushR = true) ∧
    ((Cpu.next cfg s i).ds.buf.skidValid = true → (Cpu.next cfg s i).ds.dsFlushSkid = true) := by
  have hnofire : SkidBuffer.inFire s.ds.buf (Cpu.dsWires cfg s i) = false := by
    simp [Cpu.ds_inFire, hflush]
  cases hcore : SkidBuffer.coreAllowin s.ds.buf (Cpu.dsWires cfg s i) with
  | true =>
      rw [Cpu.next_ds_buf, SkidBuffer.next_of_moved hcore, Cpu.next_dsFlushR_moved hcore, hflush]
      constructor
      · intro hv
        simpa [hnofire] using hv
      · intro hv
        cases hv
  | false =>
      rw [Cpu.next_ds_buf, SkidBuffer.next_of_stalled hcore, Cpu.next_dsFlushR_stalled hcore,
        Cpu.next_dsFlushSkid_stalled hcore, hflush]
      constructor
      · intro _
        exact Bool.or_true _
      · intro hv
        have hsk : s.ds.buf.skidValid = true := by
          simp only [hnofire, Bool.or_false, Bool.and_eq_true] at hv
          exact hv.2
        simp [hsk]

/-- In a flush, execute accepts at most what decode hands over, with the mark on it. -/
theorem marked_es_of_pipeFlush (hc : Cpu.Control s) (hflush : Cpu.pipeFlush cfg s i = true) :
    ((Cpu.next cfg s i).es.buf.valid = true →
      (Cpu.next cfg s i).es.buf.main.dsFlush = true) ∧
    (Cpu.next cfg s i).es.buf.skidValid = false := by
  have hcore := Cpu.es_moves_of_pipeFlush hc hflush
  have hsk := Cpu.esSkid_of_pipeFlush hc hflush
  rw [Cpu.next_es_buf, SkidBuffer.next_of_moved hcore]
  constructor
  · intro hv
    have hfire : SkidBuffer.inFire s.es.buf (Cpu.esWires cfg s i) = true := by
      simpa [hsk] using hv
    simp only [hsk, hfire, Bool.false_eq_true, if_false, if_true]
    show Cpu.dsFlush cfg s i = true
    rw [Cpu.dsFlush_eq, hflush, Bool.true_or]
  · rfl

/-- After a flush, a set of instructions is dead as soon as those of them that are in execute and in
the memory stage are squashed. -/
theorem dead_of_pipeFlush {T : Nat → Prop} (hc : Cpu.Control s)
    (hflush : Cpu.pipeFlush cfg s i = true)
    (hms : s.es.buf.valid = true → T l.esMain.seq →
      s.es.buf.main.dsFlush = true ∨ Cpu.exceptionFlag s i = true)
    (hws : s.ms.buf.valid = true → T l.ms.seq →
      MemStage.msFlush s.ms = true ∨ Cpu.exceptionFlag s i = true) :
    Dead T (Cpu.next cfg s i) (Labels.next cfg s i t l) := by
  refine { fs := ?_, dsMain := ?_, dsSkid := ?_, esMain := ?_, esSkid := ?_, ms := ?_, ws := ?_ }
  -- fetch drops its response
  · intro hv
    have hred : IfStage.redirectNow (Cpu.ifPorts cfg s i) = true := hflush
    simp [Cpu.next, IfStage.next, hred] at hv
  · intro hv _
    exact (marked_ds_of_pipeFlush hflush).1 hv
  · intro hv _
    exact (marked_ds_of_pipeFlush hflush).2 hv
  · intro hv _
    exact (marked_es_of_pipeFlush hc hflush).1 hv
  · intro hv
    rw [(marked_es_of_pipeFlush hc hflush).2] at hv
    cases hv
  -- the memory stage and write-back are as assumed of the stage before
  · intro hv hT
    rw [Cpu.next_ms_valid hc] at hv
    rw [Labels.next_ms hc, if_pos hv] at hT
    rw [Cpu.next_msFlush hc hv]
    rcases hms (Cpu.esToMsValid_parts hv).1 hT with hf | he
    · rw [hf, Bool.true_or]
    · rw [he, Bool.or_true]
  · intro hv hT
    rw [(next_ws_bus hc).1] at hv
    rw [Labels.next_ws hc, if_pos hv] at hT
    rw [(next_ws_bus hc).2 hv]
    rcases hws hv hT with hf | he
    · simp [MemStage.msToWsBus, MemStage.memRegfileWen, MemStage.memRegFpuWen, hf]
    · simp [MemStage.msToWsBus, MemStage.memRegfileWen, MemStage.memRegFpuWen, he]

section Run

variable (cfg : Config) (s₀ : Cpu) (inp : Nat → CpuIn)

/-- An effect of cycle `n` belongs to an instruction that is past execute after it. -/
theorem performs_seq_le {n q : Nat} {e : Effect}
    (h : Performs cfg (Cpu.run cfg s₀ inp n) (inp n) (labelsAt cfg s₀ inp n) e q) :
    q ≤ (labelsAt cfg s₀ inp (n + 1)).ms.seq := by
  have hc := Cpu.control_run cfg s₀ inp n
  have hmono := ms_seq_le_succ cfg s₀ inp n
  -- the effects of execute belong to the instruction that moves on
  have hexe : e ≠ .registerWrite → e ≠ .csrWrite → q ≤ (labelsAt cfg s₀ inp (n + 1)).ms.seq := by
    intro h1 h2
    rcases Cpu.es_moves_of_performs hc h h1 h2 with ⟨hq, -, -, -, hto⟩
    rw [labelsAt, Labels.next_ms hc, if_pos hto]
    exact Nat.le_of_eq hq.symm
  cases e with
  | registerWrite =>
      rcases h with ⟨-, rfl⟩
      exact Nat.le_trans (inOrder_run cfg s₀ inp n).ws_le hmono
  | csrWrite =>
      rcases h with ⟨-, rfl⟩
      exact hmono
  | dataRequest => exact hexe (by simp) (by simp)
  | stackWrite => exact hexe (by simp) (by simp)
  | predictorUpdate => exact hexe (by simp) (by simp)

/-- A set that is dead after cycle `t` has no effect from then on, provided none of it is fetched
later. -/
theorem not_performs_later {T : Nat → Prop} {t n q : Nat}
    (hdead : Dead T (Cpu.run cfg s₀ inp (t + 1)) (labelsAt cfg s₀ inp (t + 1)))
    (hnew : ∀ k, T k → k ≤ t + 1) (htn : t < n) (hq : T q) (e : Effect) :
    ¬ Performs cfg (Cpu.run cfg s₀ inp n) (inp n) (labelsAt cfg s₀ inp n) e q := by
  have hall : Dead T (Cpu.run cfg s₀ inp n) (labelsAt cfg s₀ inp n) := by
    induction htn with
    | refl => exact hdead
    | step hle ih =>
        refine dead_next (Cpu.control_run cfg s₀ inp _) ih ?_
        intro hT
        have := hnew _ hT
        have hle' : t + 1 ≤ _ := hle
        omega
  exact not_performs_of_dead (Cpu.control_run cfg s₀ inp n) hall hq e

/-- Before an instruction is in the memory stage nothing younger has an effect. -/
theorem not_performs_before {t n q : Nat} (hn : n < t)
    (hafter : (labelsAt cfg s₀ inp t).ms.seq < q) (e : Effect) :
    ¬ Performs cfg (Cpu.run cfg s₀ inp n) (inp n) (labelsAt cfg s₀ inp n) e q := by
  intro hp
  have hle := performs_seq_le cfg s₀ inp hp
  have hmono := ms_seq_mono cfg s₀ inp (show n + 1 ≤ t from hn)
  omega

/-- What is younger than the memory stage has its effects in execute. -/
theorem performs_in_es {n q : Nat} {e : Effect}
    (hp : Performs cfg (Cpu.run cfg s₀ inp n) (inp n) (labelsAt cfg s₀ inp n) e q)
    (hafter : (labelsAt cfg s₀ inp n).ms.seq < q) : e ≠ .registerWrite ∧ e ≠ .csrWrite := by
  have hws := (inOrder_run cfg s₀ inp n).ws_le
  constructor
  · rintro rfl
    have := hp.2
    omega
  · rintro rfl
    have := hp.2
    omega

/-- No instruction requested after a redirecting branch and before its redirect ever has an effect. -/
theorem squashed_of_brRedirect {t q : Nat}
    (h : Cpu.brRedirect cfg (Cpu.run cfg s₀ inp t) (inp t) = true)
    (hafter : (labelsAt cfg s₀ inp t).esMain.seq < q) (hbefore : q ≤ t + 1) (n : Nat)
    (e : Effect) :
    ¬ Performs cfg (Cpu.run cfg s₀ inp n) (inp n) (labelsAt cfg s₀ inp n) e q := by
  have hc := Cpu.control_run cfg s₀ inp t
  have hflush : Cpu.pipeFlush cfg (Cpu.run cfg s₀ inp t) (inp t) = true := by
    rw [Cpu.pipeFlush, h, Bool.or_true]
  have hv := Cpu.esValid_of_brRedirect hc h
  have hlt := ms_lt_esMain (inOrder_run cfg s₀ inp t) hv
  have hms := Nat.lt_trans hlt hafter
  let T : Nat → Prop := fun q => (labelsAt cfg s₀ inp t).esMain.seq < q ∧ q ≤ t + 1
  rcases Nat.lt_trichotomy n t with hn | rfl | hn
  · exact not_performs_before cfg s₀ inp hn hms e
  · -- in the cycle of the redirect itself, execute holds the branch
    intro hp
    rcases performs_in_es cfg s₀ inp hp hms with ⟨he, he'⟩
    have := (Cpu.es_moves_of_performs hc hp he he').1
    omega
  · refine not_performs_later cfg s₀ inp (T := T) ?_ (fun _ hk => hk.2) hn ⟨hafter, hbefore⟩ e
    refine dead_of_pipeFlush hc hflush ?_ ?_
    · intro _ hT
      exact absurd hT.1 (Nat.lt_irrefl _)
    · intro _ hT
      have := hT.1
      omega

/-- No instruction requested after one that raises `exception_flag` and before that cycle ever has
an effect. -/
theorem squashed_of_exceptionFlag {t q : Nat}
    (h : Cpu.exceptionFlag (Cpu.run cfg s₀ inp t) (inp t) = true)
    (hafter : (labelsAt cfg s₀ inp t).ms.seq < q) (hbefore : q ≤ t + 1) (n : Nat) (e : Effect) :
    ¬ Performs cfg (Cpu.run cfg s₀ inp n) (inp n) (labelsAt cfg s₀ inp n) e q := by
  have hc := Cpu.control_run cfg s₀ inp t
  have hflush : Cpu.pipeFlush cfg (Cpu.run cfg s₀ inp t) (inp t) = true := by
    rw [Cpu.pipeFlush, h, Bool.true_or]
  let T : Nat → Prop := fun q => (labelsAt cfg s₀ inp t).ms.seq < q ∧ q ≤ t + 1
  rcases Nat.lt_trichotomy n t with hn | rfl | hn
  · exact not_performs_before cfg s₀ inp hn hafter e
  · -- execute is killed in the cycle of the exception
    intro hp
    rcases performs_in_es cfg s₀ inp hp hafter with ⟨he, he'⟩
    have hexc := (Cpu.es_moves_of_performs hc hp he he').2.2.2.1
    rw [h] at hexc
    cases hexc
  · refine not_performs_later cfg s₀ inp (T := T) ?_ (fun _ hk => hk.2) hn ⟨hafter, hbefore⟩ e
    exact dead_of_pipeFlush hc hflush (fun _ _ => Or.inr h) (fun _ _ => Or.inr h)

/-- An instruction that raises `exception_flag` writes neither a register nor a CSR, in any cycle. -/
theorem trapped_writes_nothing {t : Nat}
    (h : Cpu.exceptionFlag (Cpu.run cfg s₀ inp t) (inp t) = true) (n : Nat) :
    ¬ Performs cfg (Cpu.run cfg s₀ inp n) (inp n) (labelsAt cfg s₀ inp n) .registerWrite
        (labelsAt cfg s₀ inp t).ms.seq ∧
      ¬ Performs cfg (Cpu.run cfg s₀ inp n) (inp n) (labelsAt cfg s₀ inp n) .csrWrite
        (labelsAt cfg s₀ inp t).ms.seq := by
  have hc := Cpu.control_run cfg s₀ inp t
  have hflush : Cpu.pipeFlush cfg (Cpu.run cfg s₀ inp t) (inp t) = true := by
    rw [Cpu.pipeFlush, h, Bool.true_or]
  have hlive := Cpu.ms_live_of_exceptionFlag hc h
  have horder := inOrder_run cfg s₀ inp
  let T : Nat → Prop := fun q => (labelsAt cfg s₀ inp t).ms.seq ≤ q ∧ q ≤ t + 1
  rcases Nat.lt_trichotomy n t with hn | rfl | hn
  · -- the instruction has not reached the memory stage yet
    have hlt := ms_seq_lt cfg s₀ inp hn hlive.1
    have hws := (horder n).ws_le
    constructor
    · intro hp
      have := hp.2
      omega
    · intro hp
      have := hp.2
      omega
  · constructor
    · intro hp
      have hws := (horder n).ws_lt hlive.1
      have := hp.2
      omega
    · rintro ⟨hwe, -⟩
      exact Cpu.not_csrWe_of_exceptionFlag hc h hwe
  · have hq : T (labelsAt cfg s₀ inp t).ms.seq := by
      refine ⟨Nat.le_refl _, ?_⟩
      have hp := (List.pairwise_cons.mp (horder t).flight).1 (t + 1) (by simp)
      omega
    have hdead := dead_of_pipeFlush (l := labelsAt cfg s₀ inp t) (t := t) (T := T) hc hflush
      (fun _ _ => Or.inr h) (fun _ _ => Or.inr h)
    exact ⟨not_performs_later cfg s₀ inp hdead (fun _ hk => hk.2) hn hq _,
      not_performs_later cfg s₀ inp hdead (fun _ hk => hk.2) hn hq _⟩

/-- An instruction that passes the memory stage without a trap writes its register in the next cycle
and its CSR in this one. -/
theorem retires {n : Nat} (hv : (Cpu.run cfg s₀ inp n).ms.buf.valid = true)
    (hlive : MemStage.msFlush (Cpu.run cfg s₀ inp n).ms = false)
    (hexc : Cpu.exceptionFlag (Cpu.run cfg s₀ inp n) (inp n) = false) :
    (Decode.ctrlRegfileWen (labelsAt cfg s₀ inp n).ms.inst = true →
      Performs cfg (Cpu.run cfg s₀ inp (n + 1)) (inp (n + 1)) (labelsAt cfg s₀ inp (n + 1))
        .registerWrite (labelsAt cfg s₀ inp n).ms.seq ∧
      WbStage.regfileAddr (Cpu.run cfg s₀ inp (n + 1)).ws =
        Decode.rdAddr (labelsAt cfg s₀ inp n).ms.inst ∧
      WbStage.regfileWdata (Cpu.run cfg s₀ inp (n + 1)).ws =
        Cpu.memResult (Cpu.run cfg s₀ inp n) (inp n)) ∧
    (Decode.csrWen (labelsAt cfg s₀ inp n).ms.inst = true →
      Performs cfg (Cpu.run cfg s₀ inp n) (inp n) (labelsAt cfg s₀ inp n) .csrWrite
        (labelsAt cfg s₀ inp n).ms.seq) := by
  have hc := Cpu.control_run cfg s₀ inp n
  have hlab := (labelled_run cfg s₀ inp n).ms.2
  rcases @next_ws_bus cfg _ (inp n) hc with ⟨hwv, hwb⟩
  -- one edge takes the instruction to write-back
  have hws : (Cpu.run cfg s₀ inp (n + 1)).ws = (Cpu.next cfg (Cpu.run cfg s₀ inp n) (inp n)).ws :=
    rfl
  constructor
  · intro hwen
    have hbus : (MemStage.bus (Cpu.run cfg s₀ inp n).ms).regfileWen = true := by
      rw [MemStage.bus, hlab.regfileWen, hwen]
    refine ⟨⟨?_, ?_⟩, ?_, ?_⟩
    · rw [hws, WbStage.regfileWen, hwv, hwb hv]
      simp [MemStage.msToWsBus, MemStage.memRegfileWen, MemStage.msValid, hv, hbus, hlive, hexc]
    · rw [labelsAt, Labels.next_ws hc, if_pos hv]
    · rw [hws, WbStage.regfileAddr, hwb hv]
      exact hlab.rdAddr
    · rw [hws, WbStage.regfileWdata, hwb hv]
      rfl
  · intro hwen
    refine ⟨?_, rfl⟩
    have hcode : (Cpu.exceptionCode (Cpu.run cfg s₀ inp n) (inp n)).getLsbD 5 = false := by
      rw [Cpu.exceptionFlag, RegfileCsr.exceptionFlag, Bool.or_eq_false_iff] at hexc
      exact hexc.1
    have hbus : (MemStage.bus (Cpu.run cfg s₀ inp n).ms).csrWen = true := by
      have hfl : (Cpu.run cfg s₀ inp n).ms.buf.main.esFlush = false := hlive
      rw [MemStage.bus, hlab.csrWen, hwen, hfl]
      rfl
    simp only [Cpu.csrWe, MemStage.csrWe, MemStage.msValid, hv, hbus, hlive, hcode]
    rfl

end Run

end RiscvCpu
