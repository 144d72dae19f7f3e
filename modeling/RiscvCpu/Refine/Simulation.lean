import RiscvCpu.Refine.Predict
import RiscvCpu.Refine.Retire

/-!
# Simulation — the pipeline refines the sequential machine

In every cycle the core between its one-cycle memories stands at some state of the sequential
machine: the one after the `k` live instructions that have left execute.  An edge on which no live
instruction leaves execute keeps that state, and one on which one leaves takes the next.  What
write-back has written and the two stages before it are about to write is what the `k` instructions
write, and what the data memory has been asked for is what they ask for.
-/

namespace RiscvCpu

open Decode

namespace Cpu

variable {cfg : Config} {imem : Word → Word} {s : Cpu} {i i' : CpuIn} {rdata : Word}

/-! ## Write-back -/

/-- Write-back makes the write that the memory stage handed to it. -/
theorem wbWrite_next (hc : Control s) : wbWrite (next cfg s i) = msWrite s i := by
  have hallow : WbStage.wsAllowin s.ws = true := hc.wsAllowin
  have hws : (next cfg s i).ws =
      { wsValid := s.ms.buf.valid
        wsAllowinR := true
        msWsBusR :=
          if s.ms.buf.valid then MemStage.msToWsBus s.ms i.dmemRdata (exceptionFlag s i)
          else s.ws.msWsBusR } := by
    simp [next, WbStage.next, hallow, MemStage.msToWsValid, MemStage.msReadyGo, MemStage.msValid]
  rw [wbWrite, hws]
  cases hv : s.ms.buf.valid with
  | false => simp [WbStage.regfileWen, msWrite, MemStage.memRegfileWen, MemStage.msValid, hv]
  | true => rfl

/-- The register file is what write-back has written. -/
theorem regfile_next {ws : List Isa.Write} (h : s.regfile = Isa.applyWrites ws) :
    (next cfg s i).regfile = Isa.applyWrites (ws ++ (wbWrite s).toList) := by
  show Regfiles.next s.regfile (WbStage.regfileWen s.ws) (WbStage.regfileAddr s.ws)
    (WbStage.regfileWdata s.ws) = _
  rw [Regfiles.next, wbWrite]
  cases hw : (WbStage.regfileWen s.ws && (WbStage.regfileAddr s.ws != 0#5)) with
  | false => simpa using h
  | true =>
      simp only [if_true, Option.toList_some]
      rw [Isa.applyWrites_concat, ← h]
      rfl

/-- The view of the registers behind execute replays what is still to be written. -/
theorem applyWrites_eq_regView {ws : List Isa.Write} (h : s.regfile = Isa.applyWrites ws)
    {r : BitVec 5} (hr : r ≠ 0#5) :
    Isa.applyWrites (ws ++ (wbWrite s).toList ++ (msWrite s i).toList) r = regView s i r := by
  rw [msWrite, Isa.applyWrites_enabled _ _ _ _ _ hr, wbWrite,
    Isa.applyWrites_enabled _ _ _ _ _ hr, ← h]
  rfl

/-! ## An execute stage without a live instruction -/

theorem esFlush_of_not_live (h : liveEs s = false) :
    s.es.buf.valid = false ∨ ExeStage.esFlush s.es (exePorts cfg s i) = true := by
  rw [liveEs, Bool.and_eq_false_iff] at h
  rcases h with hv | hf
  · exact Or.inl hv
  · right
    have hf' : s.es.buf.main.dsFlush = true := by simpa using hf
    show (s.es.buf.main.dsFlush || exceptionFlag s i) = true
    rw [hf', Bool.true_or]

/-- It asks for nothing. -/
theorem dmemEn_of_not_live (h : liveEs s = false) : dmemEn cfg s i = false := by
  rcases @esFlush_of_not_live cfg s i h with hv | hf
  · simp [dmemEn, ExeStage.dmemEn, ExeStage.esValid, hv]
  · simp [dmemEn, ExeStage.dmemEn, hf]

/-- It leaves the registers as they are. -/
theorem ahead_of_not_live (h : liveEs s = false) {ρ : BitVec 5 → Word} (hzero : ρ 0#5 = 0#32)
    (hregs : ∀ r, r ≠ 0#5 → ρ r = regView s i r) : Ahead cfg s i ρ rdata := by
  have hwrites : esWrites cfg s i = false := by
    rcases @esFlush_of_not_live cfg s i h with hv | hf
    · simp [esWrites, ExeStage.exeRegfileWen, ExeStage.esValid, hv]
    · simp [esWrites, ExeStage.exeRegfileWen, hf]
  have hlive : ExeStage.exeLwLiveOk cfg s.es (exePorts cfg s i) = false := by
    rcases @esFlush_of_not_live cfg s i h with hv | hf
    · simp [ExeStage.exeLwLiveOk, ExeStage.esToMsValid, ExeStage.esValid, hv]
    · simp [ExeStage.exeLwLiveOk, hf]
  refine { zero := hzero, written := ?_, loaded := ?_, other := fun r hr _ => hregs r hr }
  · intro hw
    rw [hwrites] at hw
    cases hw
  · intro hok
    rw [hlive] at hok
    cases hok

theorem unitAgrees_of_rest (h : Mul.Rest s.es.mul s.es.divider) : UnitAgrees cfg imem s i :=
  { busy := fun _ _ => Mul.Busy.fresh h
    rest := fun _ => h }

end Cpu

namespace Tb

variable (cfg : Config) (imem : Word → Word)

/-! ## What a run shows -/

/-- The register writes made in the cycles before `t`. -/
def writesUpTo (cpu : Cpu) (dmem : DMem) : Nat → List Isa.Write
  | 0 => []
  | t + 1 => writesUpTo cpu dmem t ++ (Cpu.wbWrite (run cfg imem cpu dmem t).cpu).toList

/-- The data-memory requests issued in the cycles before `t`. -/
def requestsUpTo (cpu : Cpu) (dmem : DMem) : Nat → List Isa.Request
  | 0 => []
  | t + 1 =>
      requestsUpTo cpu dmem t ++
        (Cpu.request cfg (run cfg imem cpu dmem t).cpu (run cfg imem cpu dmem t).inputs).toList

/-! ## The invariant -/

/-- The core stands at the sequential state after `k` instructions, having shown `ws` and `qs`. -/
structure Simulates (σ₀ : Isa.State) (s : Tb) (k : Nat) (ws : List Isa.Write)
    (qs : List Isa.Request) : Prop where
  control : Cpu.Control s.cpu
  words : Words imem s
  predict : Cpu.Predict imem s.cpu
  flow : Cpu.Flow cfg s.cpu
  quiet : Cpu.exceptionFlag s.cpu s.inputs = false
  head : Cpu.headPc cfg s.cpu = (Isa.run imem σ₀ k).pc
  pcAligned : (Isa.run imem σ₀ k).pc.toNat % 4 = 0
  mem : s.dmem = (Isa.run imem σ₀ k).mem
  regfile : s.cpu.regfile = Isa.applyWrites ws
  writes : ws ++ (Cpu.wbWrite s.cpu).toList ++ (Cpu.msWrite s.cpu s.inputs).toList =
    Isa.writes imem σ₀ k
  requests : qs = Isa.requests imem σ₀ k
  main : Cpu.liveEs s.cpu = true →
    Carries cfg imem (Isa.run imem σ₀ k).read s.dmemRdata s.cpu.es.buf.main
  skid : s.cpu.es.buf.skidValid = true →
    Carries cfg imem (Isa.run imem σ₀ (k + 1)).read s.dmemRdata s.cpu.es.buf.skid ∧
      ¬ Cpu.TakesLiveLoad s.cpu.es.buf.skid.bus
  unit : Cpu.UnitAgrees cfg imem s.cpu s.inputs

/-- The instruction memory holds only instructions of the interpreter, and no `LW` based on `x2` or
`x8`. -/
structure Supported : Prop where
  decodes : ∀ a, (Isa.decode (imem a)).isSome = true
  noStack : ∀ a, instLw (imem a) = true → stackBaseReg (imem a) = false

variable {cfg imem} {pc : Word} {mem : DMem} {s : Tb} {k : Nat} {ws : List Isa.Write}
  {qs : List Isa.Request}

theorem Supported.isa (h : Supported imem) (a : Word) :
    Datapath.isaOpcode (opcode (imem a)) = true := by
  rcases Option.isSome_iff_exists.mp (h.decodes a) with ⟨ins, hins⟩
  exact Datapath.isaOpcode_of_encodes (Isa.encodes_of_decode hins)

namespace Simulates

/-- The registers of the sequential state are those that the core still has to write. -/
theorem regs (h : Simulates cfg imem (Isa.State.init pc mem) s k ws qs) (r : BitVec 5)
    (hr : r ≠ 0#5) :
    (Isa.run imem (Isa.State.init pc mem) k).read r = Cpu.regView s.cpu s.inputs r := by
  rw [Isa.State.read, if_neg hr, Isa.regs_eq_applyWrites, ← h.writes,
    Cpu.applyWrites_eq_regView h.regfile hr]

variable {σ₀ : Isa.State}

/-- The live instruction in execute is the next of the sequential machine. -/
theorem retiring (h : Simulates cfg imem σ₀ s k ws qs) (hp : Supported imem)
    (hal : (Isa.run imem σ₀ k).Aligned imem) (hlive : Cpu.liveEs s.cpu = true) :
    ∃ ins, Cpu.Retiring cfg imem s.cpu s.inputs (Isa.run imem σ₀ k) ins := by
  have hv := (Cpu.liveEs_parts hlive).1
  have hpc : s.cpu.es.buf.main.bus.ctrl.pc = (Isa.run imem σ₀ k).pc := by
    rw [← h.head, Cpu.headPc, if_pos hlive]
  rcases Option.isSome_iff_exists.mp (hp.decodes (Isa.run imem σ₀ k).pc) with ⟨ins, hins⟩
  exact ⟨ins,
    { control := h.control
      executing :=
        { live := hlive
          quiet := h.quiet
          word := (h.words.esMain hv).1
          isa := hp.isa _
          carries := h.main hlive }
      pc := hpc
      decode := hins
      aligned := hal ins hins
      pcAligned := h.pcAligned }⟩

/-- What decode hands to execute carries the registers after the instruction in execute. -/
theorem accepted (h : Simulates cfg imem σ₀ s k ws qs) (hp : Supported imem)
    {ρ : BitVec 5 → Word} {rdata : Word}
    (hfire : SkidBuffer.inFire s.cpu.es.buf (Cpu.esWires cfg s.cpu s.inputs) = true)
    (hA : Cpu.Ahead cfg s.cpu s.inputs ρ rdata) :
    Carries cfg imem ρ rdata (Cpu.esPayload cfg s.cpu s.inputs) := by
  have hinst : IdStage.idInst s.cpu.ds = imem s.cpu.ds.buf.main.bus.pc :=
    h.words.dsMain (Cpu.ds_valid_of_es_inFire hfire)
  have hstack : ExeStage.exeStackLwHit s.cpu.es (Cpu.exePorts cfg s.cpu s.inputs) = false := by
    cases hhit : ExeStage.exeStackLwHit s.cpu.es (Cpu.exePorts cfg s.cpu s.inputs) with
    | false => rfl
    -- the programs in question have no stack load
    | true =>
        have hno := (Cpu.load_of_capture h.control hhit).choose_spec.2.2
        have hv : s.cpu.es.buf.valid = true := by
          simp only [ExeStage.exeStackLwHit, ExeStage.memStageAccept, ExeStage.esToMsValid,
            ExeStage.esValid, Bool.and_eq_true] at hhit
          exact hhit.1.1.1.1.1.1.1
        rw [(h.words.esMain hv).2] at hno
        cases hno
  apply Cpu.carries_accepted hinst _ hstack hfire hA
  rw [hinst]
  exact (Datapath.usesF_of_isaOpcode (hp.isa _)).1

theorem flush_of_stay (h : Simulates cfg imem σ₀ s k ws qs)
    (hstay : (Cpu.liveEs s.cpu && Cpu.esToMsValid cfg s.cpu s.inputs) = false) :
    Cpu.pipeFlush cfg s.cpu s.inputs = false := by
  rw [Cpu.pipeFlush, h.quiet, Bool.false_or]
  cases hbr : Cpu.brRedirect cfg s.cpu s.inputs with
  | false => rfl
  | true =>
      rcases Cpu.esMoves_of_brRedirect h.control hbr with ⟨hlive, -, hmove⟩
      rw [hlive, hmove] at hstay
      cases hstay

theorem next_words (h : Simulates cfg imem σ₀ s k ws qs) (hp : Supported imem) :
    Words imem (next cfg imem s) := words_next h.control h.words hp.noStack

theorem next_predict (h : Simulates cfg imem σ₀ s k ws qs) :
    Cpu.Predict imem (next cfg imem s).cpu := by
  apply Cpu.predict_next h.predict fun hv => (h.words.esMain hv).1
  intro hlive _
  have hpc : s.cpu.es.buf.main.bus.ctrl.pc = (Isa.run imem σ₀ k).pc := by
    rw [← h.head, Cpu.headPc, if_pos hlive]
  rw [hpc]
  exact h.pcAligned

/-! ## An edge on which the next instruction leaves execute -/

/-- The data memory answers from the memory of the sequential state. -/
theorem answered (h : Simulates cfg imem σ₀ s k ws qs) :
    Cpu.Retiring.Answered cfg s.cpu s.inputs (Isa.run imem σ₀ k).mem
      (next cfg imem s).dmemRdata := by
  intro hen
  rw [next_dmemRdata hen, h.mem]

variable {ins : Isa.Instr}

theorem retire_head (h : Simulates cfg imem σ₀ s k ws qs)
    (hr : Cpu.Retiring cfg imem s.cpu s.inputs (Isa.run imem σ₀ k) ins)
    (hmove : Cpu.esToMsValid cfg s.cpu s.inputs = true) :
    Cpu.headPc cfg (next cfg imem s).cpu = (Isa.run imem σ₀ (k + 1)).pc := by
  have hlive := hr.executing.live
  show Cpu.headPc cfg (Cpu.next cfg s.cpu s.inputs) = (Isa.step imem (Isa.run imem σ₀ k)).pc
  rw [← hr.nextPc_eq]
  cases hbr : Cpu.brRedirect cfg s.cpu s.inputs with
  | true =>
      -- the core goes where the instruction says
      have hflush : Cpu.pipeFlush cfg s.cpu s.inputs = true := by
        rw [Cpu.pipeFlush, hbr, Bool.or_true]
      have hjump : isBrJmpInst (Cpu.esWord imem s.cpu) = true := by
        rw [← hr.executing.isBrJmp_eq]
        exact (Cpu.isBrJmp_of_brRedirect hbr).2.2
      rw [(Cpu.next_of_pipeFlush h.control hflush).2.2.2.2, Cpu.flushTarget, h.quiet]
      exact hr.executing.brRedirectTarget_eq hjump
  | false =>
      -- fetch has gone there already
      have hflush : Cpu.pipeFlush cfg s.cpu s.inputs = false := by
        rw [Cpu.pipeFlush, hbr, h.quiet, Bool.false_or]
      rw [Cpu.headPc_of_leaving h.control h.flow hflush hlive hmove]
      apply hr.executing.esHop_target hbr
      intro hpred
      apply h.predict.esMain hr.executing.valid hpred
      rw [hr.pc]
      exact h.pcAligned

theorem retire_mem (h : Simulates cfg imem σ₀ s k ws qs)
    (hr : Cpu.Retiring cfg imem s.cpu s.inputs (Isa.run imem σ₀ k) ins) :
    (next cfg imem s).dmem = (Isa.run imem σ₀ (k + 1)).mem := by
  have hstep : (Isa.run imem σ₀ (k + 1)).mem =
      (((Isa.run imem σ₀ k).request? imem).map
        fun q => q.apply (Isa.run imem σ₀ k).mem).getD (Isa.run imem σ₀ k).mem := rfl
  rw [hstep, ← hr.request_eq, ← h.mem, Cpu.request, next]
  cases hen : Cpu.dmemEn cfg s.cpu s.inputs with
  | false => rfl
  | true =>
      simp only [if_true, Option.map_some, Option.getD_some, Isa.Request.apply]
      exact DMem.write_lanes.symm

theorem retire_main (h : Simulates cfg imem (Isa.State.init pc mem) s k ws qs)
    (hp : Supported imem)
    (hr : Cpu.Retiring cfg imem s.cpu s.inputs (Isa.run imem (Isa.State.init pc mem) k) ins)
    (hmove : Cpu.esToMsValid cfg s.cpu s.inputs = true)
    (hlive : Cpu.liveEs (next cfg imem s).cpu = true) :
    Carries cfg imem (Isa.run imem (Isa.State.init pc mem) (k + 1)).read
      (next cfg imem s).dmemRdata (next cfg imem s).cpu.es.buf.main := by
  have hcore := Cpu.moves_of_leaving h.control hmove
  rw [next_cpu, Cpu.liveEs, Cpu.next_es_buf, SkidBuffer.next_of_moved hcore] at hlive
  rw [next_cpu, Cpu.next_es_buf, SkidBuffer.next_of_moved hcore]
  simp only [Bool.and_eq_true] at hlive
  -- the next instruction was parked behind it, or comes from decode
  cases hskid : s.cpu.es.buf.skidValid with
  | true =>
      simp only [if_true]
      rcases h.skid hskid with ⟨hcarries, hnot⟩
      exact hcarries.of_not_live hnot _
  | false =>
      have hfire : SkidBuffer.inFire s.cpu.es.buf (Cpu.esWires cfg s.cpu s.inputs) = true := by
        simpa [hskid] using hlive.1
      simp only [hfire, Bool.false_eq_true, if_false, if_true]
      exact h.accepted hp hfire (hr.ahead h.unit h.regs h.answered)

/-- The core goes on to the next sequential state. -/
theorem retire (h : Simulates cfg imem (Isa.State.init pc mem) s k ws qs) (hp : Supported imem)
    (hr : Cpu.Retiring cfg imem s.cpu s.inputs (Isa.run imem (Isa.State.init pc mem) k) ins)
    (hmove : Cpu.esToMsValid cfg s.cpu s.inputs = true) :
    Simulates cfg imem (Isa.State.init pc mem) (next cfg imem s) (k + 1)
      (ws ++ (Cpu.wbWrite s.cpu).toList) (qs ++ (Cpu.request cfg s.cpu s.inputs).toList) := by
  have hready := (Cpu.esToMsValid_parts hmove).2
  have hcore := Cpu.moves_of_leaving h.control hmove
  refine
    { control := Cpu.control_next h.control
      words := h.next_words hp
      predict := h.next_predict
      flow := Cpu.flow_next h.control h.flow
      quiet := hr.exceptionFlag_next h.unit hmove rfl
      head := h.retire_head hr hmove
      pcAligned := ?_
      mem := h.retire_mem hr
      regfile := Cpu.regfile_next h.regfile
      writes := ?_
      requests := ?_
      main := h.retire_main hp hr hmove
      skid := ?_
      unit := Cpu.unitAgrees_of_rest (hr.rest_next h.unit hready) }
  -- pc, writes, requests, and an empty skid entry
  · have hpc := (Isa.step_of_decode hr.decode).1
    show (Isa.step imem _).pc.toNat % 4 = 0
    rw [hpc]
    exact Isa.nextPc_aligned h.pcAligned hr.aligned
  · have hms : Cpu.msWrite (next cfg imem s).cpu (next cfg imem s).inputs =
        (Isa.run imem (Isa.State.init pc mem) k).write? imem :=
      hr.msWrite_next h.unit hmove rfl h.answered
    rw [hms, next_cpu, Cpu.wbWrite_next h.control, Isa.writes, h.writes]
  · rw [h.requests, Isa.requests, hr.request_eq]
  · intro hskid
    rw [next_cpu, Cpu.next_es_buf, SkidBuffer.next_of_moved hcore] at hskid
    cases hskid

/-! ## An edge on which none does -/

theorem stay_request (h : Simulates cfg imem σ₀ s k ws qs)
    (hstay : (Cpu.liveEs s.cpu && Cpu.esToMsValid cfg s.cpu s.inputs) = false) :
    Cpu.dmemEn cfg s.cpu s.inputs = false := by
  cases hlive : Cpu.liveEs s.cpu with
  | false => exact Cpu.dmemEn_of_not_live hlive
  | true =>
      -- a multiplication or division
      have hready : Cpu.esReadyGo cfg s.cpu s.inputs = false := by
        simpa [hlive, (Cpu.liveEs_parts hlive).1, Cpu.esToMsValid_eq] using hstay
      have hmul : s.cpu.es.buf.main.bus.ctrl.isMul = true := by
        cases hm : s.cpu.es.buf.main.bus.ctrl.isMul with
        | true => rfl
        | false =>
            rw [Cpu.esReadyGo_of_not_isMul hm] at hready
            cases hready
      have hop : (ExeStage.bus s.cpu.es).mem.memOp.any = false :=
        Cpu.memOp_none_of_isMul h.control hmul
      simp [Cpu.dmemEn, ExeStage.dmemEn, hop]

theorem stay_data (h : Simulates cfg imem σ₀ s k ws qs)
    (hstay : (Cpu.liveEs s.cpu && Cpu.esToMsValid cfg s.cpu s.inputs) = false) :
    (next cfg imem s).dmemRdata = s.dmemRdata ∧ (next cfg imem s).dmem = s.dmem := by
  have hen := h.stay_request hstay
  simp [next, hen]

theorem stay_main (h : Simulates cfg imem (Isa.State.init pc mem) s k ws qs)
    (hp : Supported imem)
    (hstay : (Cpu.liveEs s.cpu && Cpu.esToMsValid cfg s.cpu s.inputs) = false)
    (hlive' : Cpu.liveEs (next cfg imem s).cpu = true) :
    Carries cfg imem (Isa.run imem (Isa.State.init pc mem) k).read
      (next cfg imem s).dmemRdata (next cfg imem s).cpu.es.buf.main := by
  -- a stalled instruction keeps its operands; an empty execute stage takes the next
  cases hlive : Cpu.liveEs s.cpu with
  | true =>
      have hcore := Cpu.stalled_of_staying h.control hlive hstay
      rw [(h.stay_data hstay).1, next_cpu, Cpu.next_es_buf, SkidBuffer.next_of_stalled hcore]
      exact h.main hlive
  | false =>
      rcases Cpu.es_free cfg s.inputs h.control hlive with ⟨-, hskid, hcore, -⟩
      rw [next_cpu, Cpu.liveEs, Cpu.next_es_buf, SkidBuffer.next_of_moved hcore] at hlive'
      rw [next_cpu, Cpu.next_es_buf, SkidBuffer.next_of_moved hcore]
      simp only [Bool.and_eq_true] at hlive'
      have hfire : SkidBuffer.inFire s.cpu.es.buf (Cpu.esWires cfg s.cpu s.inputs) = true := by
        simpa [hskid] using hlive'.1
      simp only [hskid, hfire, Bool.false_eq_true, if_false, if_true]
      exact h.accepted hp hfire (Cpu.ahead_of_not_live hlive rfl h.regs)

/-- Behind a stalled multiplication or division an independent instruction may be parked. -/
theorem stay_skid (h : Simulates cfg imem (Isa.State.init pc mem) s k ws qs)
    (hp : Supported imem) (hal : (Isa.run imem (Isa.State.init pc mem) k).Aligned imem)
    (hstay : (Cpu.liveEs s.cpu && Cpu.esToMsValid cfg s.cpu s.inputs) = false)
    (hskid' : (next cfg imem s).cpu.es.buf.skidValid = true) :
    Carries cfg imem (Isa.run imem (Isa.State.init pc mem) (k + 1)).read
        (next cfg imem s).dmemRdata (next cfg imem s).cpu.es.buf.skid ∧
      ¬ Cpu.TakesLiveLoad (next cfg imem s).cpu.es.buf.skid.bus := by
  rw [next_cpu, Cpu.next_es_buf] at hskid' ⊢
  cases hcore : SkidBuffer.coreAllowin s.cpu.es.buf (Cpu.esWires cfg s.cpu s.inputs) with
  | true =>
      rw [SkidBuffer.next_of_moved hcore] at hskid'
      cases hskid'
  | false =>
      have hready := (Cpu.es_stalled hcore h.control).2.2.2.2
      have hlive := Cpu.live_of_stalled h.control hcore
      rcases h.retiring hp hal hlive with ⟨ins, hr⟩
      rw [SkidBuffer.next_of_stalled hcore] at hskid' ⊢
      cases hskid : s.cpu.es.buf.skidValid with
      | true =>
          simp only [Bool.not_true, Bool.and_false, Bool.false_eq_true, if_false]
          rw [(h.stay_data hstay).1]
          exact h.skid hskid
      | false =>
          have hfire : SkidBuffer.inFire s.cpu.es.buf (Cpu.esWires cfg s.cpu s.inputs) = true := by
            simp only [hskid, Bool.false_or, Bool.and_eq_true] at hskid'
            exact hskid'.2
          simp only [hfire, Bool.not_false, Bool.and_true, if_true]
          refine ⟨h.accepted hp hfire (hr.ahead h.unit h.regs h.answered), ?_⟩
          -- the load of a live operand would be leaving execute
          intro htakes
          have hok := (@Cpu.granted_of_takesLiveLoad cfg s.cpu s.inputs htakes).1
          rw [(Cpu.accept_parts (Cpu.exeLwLiveOk_parts hok).1).2.1] at hready
          cases hready

theorem stay_unit (h : Simulates cfg imem σ₀ s k ws qs) (hp : Supported imem)
    (hal : (Isa.run imem σ₀ k).Aligned imem)
    (hstay : (Cpu.liveEs s.cpu && Cpu.esToMsValid cfg s.cpu s.inputs) = false) :
    Cpu.UnitAgrees cfg imem (next cfg imem s).cpu (next cfg imem s).inputs := by
  cases hlive : Cpu.liveEs s.cpu with
  | false => exact Cpu.unitAgrees_of_rest (Cpu.rest_next_idle h.unit hlive)
  | true =>
      -- the same operation on the same operands, one cycle further
      have hcore := Cpu.stalled_of_staying h.control hlive hstay
      rcases Cpu.es_stalled hcore h.control with ⟨hv, hf, -, hmul, hready⟩
      rcases h.retiring hp hal hlive with ⟨ins, hr⟩
      rw [hr.isMul_eq] at hmul
      have hmain : (next cfg imem s).cpu.es.buf.main = s.cpu.es.buf.main := by
        rw [next_cpu, Cpu.next_es_buf, SkidBuffer.next_of_stalled hcore]
      have hword : Cpu.esWord imem (next cfg imem s).cpu = Cpu.esWord imem s.cpu := by
        rw [Cpu.esWord, Cpu.esWord, hmain]
      have hdata : (next cfg imem s).inputs.dmemRdata = s.inputs.dmemRdata := (h.stay_data hstay).1
      have hlive' : Cpu.liveEs (next cfg imem s).cpu = true := by
        rw [Cpu.liveEs, hmain, next_cpu, Cpu.next_es_buf, SkidBuffer.next_of_stalled hcore, hf]
        rfl
      constructor
      · intro _ _
        rw [hword, Cpu.esArg1, Cpu.esArg2, hmain, hdata]
        exact hr.busy_next h.unit hmul hready
      · intro hno
        have hno' := hno hlive'
        rw [hword, hmul] at hno'
        cases hno'

/-- The core stays at its sequential state. -/
theorem stay (h : Simulates cfg imem (Isa.State.init pc mem) s k ws qs) (hp : Supported imem)
    (hal : (Isa.run imem (Isa.State.init pc mem) k).Aligned imem)
    (hstay : (Cpu.liveEs s.cpu && Cpu.esToMsValid cfg s.cpu s.inputs) = false) :
    Simulates cfg imem (Isa.State.init pc mem) (next cfg imem s) k
      (ws ++ (Cpu.wbWrite s.cpu).toList) (qs ++ (Cpu.request cfg s.cpu s.inputs).toList) := by
  -- nothing live enters the memory stage, so nothing new is on its way to write-back
  have hdead : Cpu.liveMs (next cfg imem s).cpu = false := Cpu.next_not_liveMs h.control hstay
  refine
    { control := Cpu.control_next h.control
      words := h.next_words hp
      predict := h.next_predict
      flow := Cpu.flow_next h.control h.flow
      quiet := Cpu.exceptionFlag_of_dead (Cpu.control_next h.control) hdead
      head := (Cpu.next_headPc h.control (h.flush_of_stay hstay) hstay).trans h.head
      pcAligned := h.pcAligned
      mem := (h.stay_data hstay).2.trans h.mem
      regfile := Cpu.regfile_next h.regfile
      writes := ?_
      requests := ?_
      main := h.stay_main hp hstay
      skid := h.stay_skid hp hal hstay
      unit := h.stay_unit hp hal hstay }
  · rw [Cpu.msWrite_of_dead hdead, next_cpu, Cpu.wbWrite_next h.control, ← h.writes]
    simp
  · rw [Cpu.request, h.stay_request hstay]
    simpa using h.requests

end Simulates

/-! ## Every run -/

theorem simulates_reset (cpu : Cpu) (dmem : DMem) :
    Simulates cfg imem (Isa.State.init cfg.pcStart dmem) (reset cpu dmem) 0 [] [] := by
  have hpc : cfg.pcStart.toNat % 4 = 0 := by
    rw [Config.pcStart]
    cases cfg.perfBench <;> rfl
  refine
    { control := Cpu.control_reset cpu
      words := words_reset cpu dmem
      predict := Cpu.predict_reset cpu
      flow := Cpu.flow_reset cpu
      quiet := Cpu.exceptionFlag_of_dead (Cpu.control_reset cpu) rfl
      head := rfl
      pcAligned := hpc
      mem := rfl
      regfile := rfl
      writes := rfl
      requests := rfl
      main := ?_
      skid := ?_
      unit := Cpu.unitAgrees_of_rest ⟨⟨rfl, rfl, rfl, rfl⟩, ⟨rfl, rfl, rfl⟩⟩ }
  · intro h
    cases h
  · intro h
    cases h

theorem simulates_run (cpu : Cpu) (dmem : DMem) (hp : Supported imem)
    (hal : ∀ n, (Isa.run imem (Isa.State.init cfg.pcStart dmem) n).Aligned imem) (t : Nat) :
    ∃ k, Simulates cfg imem (Isa.State.init cfg.pcStart dmem) (run cfg imem cpu dmem t) k
      (writesUpTo cfg imem cpu dmem t) (requestsUpTo cfg imem cpu dmem t) := by
  induction t with
  | zero => exact ⟨0, simulates_reset cpu dmem⟩
  | succ t ih =>
      rcases ih with ⟨k, h⟩
      cases hstay : (Cpu.liveEs (run cfg imem cpu dmem t).cpu &&
          Cpu.esToMsValid cfg (run cfg imem cpu dmem t).cpu (run cfg imem cpu dmem t).inputs) with
      | false => exact ⟨k, h.stay hp (hal k) hstay⟩
      | true =>
          rw [Bool.and_eq_true] at hstay
          rcases h.retiring hp (hal k) hstay.1 with ⟨ins, hr⟩
          exact ⟨k + 1, h.retire hp hr hstay.2⟩

/-- The pipeline refines the sequential machine.  For every instruction memory that holds only
instructions of the interpreter and no `LW` based on `x2` or `x8`, for every data memory, in both
builds, and for a program that runs aligned: at every cycle of the run from reset, the register
writes made by write-back and the data-memory requests are each a prefix of what the interpreter
does from `PC_START`. -/
theorem pipeline_refines_interpreter (cfg : Config) (imem : Word → Word) (cpu : Cpu) (dmem : DMem)
    (hdecodes : ∀ a, (Isa.decode (imem a)).isSome = true)
    (hnoStack : ∀ a, instLw (imem a) = true → stackBaseReg (imem a) = false)
    (haligned : ∀ n, (Isa.run imem (Isa.State.init cfg.pcStart dmem) n).Aligned imem) (t : Nat) :
    ∃ n,
      writesUpTo cfg imem cpu dmem t <+: Isa.writes imem (Isa.State.init cfg.pcStart dmem) n ∧
      requestsUpTo cfg imem cpu dmem t <+: Isa.requests imem (Isa.State.init cfg.pcStart dmem) n := by
  rcases simulates_run cpu dmem ⟨hdecodes, hnoStack⟩ haligned t with ⟨k, h⟩
  refine ⟨k, ?_, ?_⟩
  · rw [← h.writes, List.append_assoc]
    exact List.prefix_append _ _
  · exact ⟨[], by rw [List.append_nil, h.requests]⟩

/-- A load, a multiplication of what it loads, an addition that waits for it, and a store. -/
def loadMulStore (pc : Word) : Word :=
  if pc == 0x8000_0000#32 then 0x00002283#32        -- lw x5, 0(x0)
  else if pc == 0x8000_0004#32 then 0x02528333#32   -- mul x6, x5, x5
  else if pc == 0x8000_0008#32 then 0x00130393#32   -- addi x7, x6, 1
  else if pc == 0x8000_000c#32 then 0x00702223#32   -- sw x7, 4(x0)
  else 0x00000013#32

theorem loadMulStore_cases (P : Word → Prop) (h1 : P 0x00002283#32) (h2 : P 0x02528333#32)
    (h3 : P 0x00130393#32) (h4 : P 0x00702223#32) (h5 : P 0x00000013#32) (pc : Word) :
    P (loadMulStore pc) := by
  rw [loadMulStore]
  split
  · exact h1
  · split
    · exact h2
    · split
      · exact h3
      · split
        · exact h4
        · exact h5

theorem loadMulStore_aligned (σ : Isa.State) : σ.Aligned loadMulStore := by
  rw [Isa.State.Aligned]
  apply loadMulStore_cases fun x => ∀ i, Isa.decode x = some i → i.aligned σ
  case h1 =>
    intro i hi
    cases hi
    exact (rfl : (0#32 + 0#32).toNat % 4 = 0)
  case h4 =>
    intro i hi
    cases hi
    exact (rfl : (0#32 + 4#32).toNat % 4 = 0)
  all_goals
    intro i hi
    cases hi
    trivial

theorem pipeline_refines_interpreter_load_mul_store :
    ∃ n,
      writesUpTo Cpu.liveBuild loadMulStore Cpu.zero (fun _ => 7#32) 20 <+:
        Isa.writes loadMulStore (Isa.State.init 0x8000_0000#32 fun _ => 7#32) n ∧
      requestsUpTo Cpu.liveBuild loadMulStore Cpu.zero (fun _ => 7#32) 20 <+:
        Isa.requests loadMulStore (Isa.State.init 0x8000_0000#32 fun _ => 7#32) n :=
  pipeline_refines_interpreter Cpu.liveBuild loadMulStore Cpu.zero (fun _ => 7#32)
    (loadMulStore_cases (fun x => (Isa.decode x).isSome = true) rfl rfl rfl rfl rfl)
    (loadMulStore_cases (fun x => instLw x = true → stackBaseReg x = false) (by decide)
      (by decide) (by decide) (by decide) (by decide))
    (fun _ => loadMulStore_aligned _) 20

end Tb
end RiscvCpu
