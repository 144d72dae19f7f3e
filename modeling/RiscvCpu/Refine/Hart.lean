import RiscvCpu.Refine.Misaligned
import RiscvCpu.Refine.Open
import RiscvCpu.Refine.System

/-!
# Hart — the core stays with its machine

In every cycle the core stands at the state of the machine with CSRs, traps and the interrupt that has
read the answers so far, one answer for each instruction that has left execute.  An instruction in the
memory stage counts as executed when it raises nothing, and as trapped or returned when it does: then
what stands behind it is dropped, and fetch goes where the machine is.
-/

namespace RiscvCpu

open Decode

namespace Cpu

variable {cfg : Config} {imem : Word → Word} {s : Cpu} {i i' : CpuIn} {t : Nat} {l : Labels}

/-! ## The invariant -/

/-- Nothing is trapped, and the core stands at the pc of the machine `h`. -/
structure Steady (cfg : Config) (imem : Word → Word) (s : Cpu) (i : CpuIn) (l : Labels) (h : Isa.Hart) :
    Prop where
  code : exceptionCode s i = 0#7
  head : headPc cfg s = h.trace.state.pc
  plain : liveEs s = true → StackPlain s
  main : liveEs s = true →
    Carries cfg imem h.trace.state.read i.dmemRdata s.unstacked.es.buf.main
  skid : s.es.buf.skidValid = true → ∀ word,
    Carries cfg imem (h.trace.step imem word).state.read i.dmemRdata s.es.buf.skid ∧
      ¬ TakesLiveLoad s.es.buf.skid.bus ∧ ¬ TakesStackWord s.es.buf.skid.bus
  unit : UnitAgrees cfg imem s.unstacked.calm i
  csrs : CsrCoherent Csr.implemented s l h.csr

/-- The core follows the machine `h`, having shown the register writes `ws` and the requests `qs`. -/
structure Tracks (cfg : Config) (imem : Word → Word) (s : Cpu) (i : CpuIn) (l : Labels) (h : Isa.Hart)
    (ws : List Isa.Write) (qs : List Isa.Request) : Prop where
  program : Programmed cfg imem s i l
  pcAligned : h.trace.state.pc.toNat % 4 = 0
  regfile : s.regfile = Isa.applyWrites ws
  regs : h.trace.state.regs = Isa.applyWrites h.trace.writes
  writes : ws ++ (wbWrite s).toList ++ (msWrite s i).toList = h.trace.writes
  requests : qs = h.trace.requests
  file : (next cfg s i).csr.file.Holds h.csr
  trapped : (next cfg s i).csr.prevExceptionFlag = h.trapped
  target : exceptionFlag s i = true → exceptionAddr s i = h.trace.state.pc
  steady : exceptionFlag s i = false → Steady cfg imem s i l h

theorem tracks_reset (cfg : Config) (imem : Word → Word) (s₀ : Cpu) (i : CpuIn) :
    Tracks cfg imem s₀.reset i Labels.reset (Isa.Hart.init cfg.pcStart) [] [] := by
  have hcsrs := csrCoherent_reset Csr.implemented s₀
  have hcode : exceptionCode s₀.reset i = 0#7 := exceptionCode_of_bubble rfl rfl
  refine
    { program := programmed_reset cfg imem s₀ i
      pcAligned := pcStart_aligned cfg
      regfile := rfl
      regs := rfl
      writes := rfl
      requests := rfl
      file := ?_
      trapped := ?_
      target := ?_
      steady := fun _ =>
        { code := hcode
          head := rfl
          plain := ?_
          main := ?_
          skid := ?_
          unit := unitAgrees_of_rest ⟨⟨rfl, rfl, rfl, rfl⟩, ⟨rfl, rfl, rfl⟩⟩
          csrs := hcsrs } }
  · rw [next_csr_file hcode]
    exact hcsrs.file
  · exact next_prevExceptionFlag_of_code hcode
  · intro hno
    rw [exceptionFlag_of_code hcode] at hno
    cases hno
  all_goals
    intro hno
    cases hno

namespace Tracks

variable {h h' : Isa.Hart} {ws : List Isa.Write} {qs : List Isa.Request}

theorem read_eq (ht : Tracks cfg imem s i l h ws qs) (r : BitVec 5) (hr : r ≠ 0#5) :
    h.trace.state.read r = regView s i r := by
  rw [Isa.State.read, if_neg hr, ht.regs, ← ht.writes, applyWrites_eq_regView ht.regfile hr]

theorem pc_eq (ht : Tracks cfg imem s i l h ws qs) (hlive : liveEs s = true)
    (hquiet : exceptionFlag s i = false) : s.es.buf.main.bus.ctrl.pc = h.trace.state.pc := by
  rw [← (ht.steady hquiet).head, headPc, if_pos hlive]

theorem program_next (ht : Tracks cfg imem s i l h ws qs) (henv : Env cfg imem s i i') :
    Programmed cfg imem (next cfg s i) i' (Labels.next cfg s i t l) := by
  apply programmed_next ht.program henv
  intro hlive hquiet
  rw [ht.pc_eq hlive hquiet]
  exact ht.pcAligned

theorem csrs_next (ht : Tracks cfg imem s i l h ws qs) (hquiet : exceptionFlag s i = false) :
    CsrCoherent Csr.implemented (next cfg s i) (Labels.next cfg s i t l)
      (csrModelNext cfg s i l h.csr) :=
  csrCoherent_next (ht.steady hquiet).csrs (fun _ ha => ha) Csr.counter_of_implemented
    ht.program.control ht.program.labelled (ht.steady hquiet).code hquiet
    fun _ _ _ hin hno => by
      rw [hin] at hno
      cases hno

/-! ## Behind a trap or a return -/

/-- The pipeline is empty, and fetch goes to the pc of the machine. -/
theorem resume (ht : Tracks cfg imem s i l h ws qs) (henv : Env cfg imem s i i')
    (hflag : exceptionFlag s i = true) :
    Tracks cfg imem (next cfg s i) i' (Labels.next cfg s i t l) h (ws ++ (wbWrite s).toList)
      (qs ++ (request cfg s i).toList) := by
  have hc := ht.program.control
  have hflush : pipeFlush cfg s i = true := by rw [pipeFlush, hflag, Bool.true_or]
  rcases next_of_pipeFlush hc hflush with ⟨hes, -, -, -, hhead⟩
  have hdead := @not_liveMs_of_flag cfg s i hc hflag
  have hcode : exceptionCode (next cfg s i) i' = 0#7 :=
    exceptionCode_next_of_dead hc (fun hno => by rw [hflag] at hno; cases hno) hdead
  have hskid : (next cfg s i).es.buf.skidValid = false := by
    rw [next_es_buf, SkidBuffer.next_of_moved (es_moves_of_pipeFlush hc hflush)]
  have hcommitted : committed (next cfg s i) = (next cfg s i).csr.file := by
    rw [committed, hdead]
    rfl
  refine
    { program := ht.program_next henv
      pcAligned := ht.pcAligned
      regfile := regfile_next ht.regfile
      regs := ht.regs
      writes := ?_
      requests := ?_
      file := ?_
      trapped := (next_prevExceptionFlag_of_code hcode).trans ht.trapped
      target := ?_
      steady := fun _ =>
        { code := hcode
          head := ?_
          plain := ?_
          main := ?_
          skid := ?_
          unit := unit_killed ht.program.phase hflag
          csrs := { file := ?_, main := ?_, skid := ?_ } } }
  · rw [msWrite_of_dead hdead, wbWrite_next hc, ← ht.writes]
    simp
  · rw [request_of_flag hflag]
    simpa using ht.requests
  · rw [next_csr_file hcode, hcommitted]
    exact ht.file
  · intro hno
    rw [exceptionFlag_of_code hcode] at hno
    cases hno
  · rw [hhead, flushTarget, if_pos hflag]
    exact ht.target hflag
  · intro hlive
    rw [hes] at hlive
    cases hlive
  · intro hlive
    rw [hes] at hlive
    cases hlive
  · intro hv
    rw [hskid] at hv
    cases hv
  · rw [hcommitted]
    exact ht.file
  · intro hlive
    rw [hes] at hlive
    cases hlive
  · intro hv
    rw [hskid] at hv
    cases hv

/-! ## A quiet cycle -/

theorem flush_of_stay (ht : Tracks cfg imem s i l h ws qs) (hquiet : exceptionFlag s i = false)
    (hstay : (liveEs s && esToMsValid cfg s i) = false) : pipeFlush cfg s i = false := by
  rw [pipeFlush, hquiet, Bool.false_or]
  cases hbr : brRedirect cfg s i with
  | false => rfl
  | true =>
      rcases esMoves_of_brRedirect ht.program.control hbr with ⟨hlive, -, hmove⟩
      rw [hlive, hmove] at hstay
      cases hstay

/-- The live instruction of the interpreter in execute is the next of the machine. -/
theorem retiring (ht : Tracks cfg imem s i l h ws qs) (hquiet : exceptionFlag s i = false)
    (hlive : liveEs s = true) {ins : Isa.Instr}
    (hins : Isa.decode (imem h.trace.state.pc) = some ins) (hal : ins.aligned h.trace.state)
    (word : Word) :
    Retiring cfg imem s.unstacked.calm i (h.trace.state.reading word) ins := by
  have hv := (liveEs_parts hlive).1
  have hpc := ht.pc_eq hlive hquiet
  exact
    { control := control_calm (control_unstacked ht.program.control)
      executing :=
        { live := hlive
          quiet := hquiet
          word := payloadOf_unstacked (ht.program.words.esMain hv)
          isa := by
            show Datapath.isaOpcode (opcode (imem s.es.buf.main.bus.ctrl.pc)) = true
            rw [hpc]
            exact Datapath.isaOpcode_of_encodes (Isa.encodes_of_decode hins)
          carries := (ht.steady hquiet).main hlive }
      pc := hpc
      decode := hins
      aligned := (Isa.instr_aligned_reading _ word ins).mpr hal
      pcAligned := ht.pcAligned }

/-- And so is a live system instruction. -/
theorem commanding (ht : Tracks cfg imem s i l h ws qs) (hquiet : exceptionFlag s i = false)
    (hlive : liveEs s = true) {ins : Isa.SystemInstr}
    (hins : Isa.decodeSystem (imem h.trace.state.pc) = some ins) : Commanding imem s i h ins := by
  have hpc := ht.pc_eq hlive hquiet
  exact
    { control := ht.program.control
      live := hlive
      quiet := hquiet
      word := by
        rw [← hpc]
        exact ht.program.words.esMain (liveEs_parts hlive).1
      pc := hpc
      encodes := Isa.encodes_of_decodeSystem hins }

/-- The instruction that decode hands to execute. -/
theorem accepted (ht : Tracks cfg imem s i l h ws qs) (hknown : ∀ a, Isa.Known (imem a))
    {ρ : BitVec 5 → Word} {rdata word : Word}
    (hfire : SkidBuffer.inFire s.es.buf (esWires cfg s i) = true) (hA : Ahead cfg s i ρ rdata)
    (hcap : ExeStage.exeStackLwHit s.es (exePorts cfg s i) = true →
      word = ρ s.es.buf.main.bus.ctrl.rdAddr) :
    Carries cfg imem ρ rdata ((esPayload cfg s i).unstacked word) := by
  have hinst : IdStage.idInst s.ds = imem s.ds.buf.main.bus.pc :=
    ht.program.words.dsMain (ds_valid_of_es_inFire hfire)
  apply carries_unstacked hinst _ hfire hA hcap
  rw [hinst]
  exact Isa.usesF_of_known (hknown _)

/-- It comes into an execute stage that moves and has nothing parked. -/
theorem enter_main (ht : Tracks cfg imem s i l h ws qs) (hknown : ∀ a, Isa.Known (imem a))
    {ρ : BitVec 5 → Word} (hskid : s.es.buf.skidValid = false)
    (hcore : SkidBuffer.coreAllowin s.es.buf (esWires cfg s i) = true)
    (hlive' : liveEs (next cfg s i) = true) (hA : Ahead cfg s i ρ i'.dmemRdata)
    (hcap : ExeStage.exeStackLwHit s.es (exePorts cfg s i) = true →
      (next cfg s i).stack.capturedData = ρ s.es.buf.main.bus.ctrl.rdAddr) :
    StackPlain (next cfg s i) ∧
      Carries cfg imem ρ i'.dmemRdata (next cfg s i).unstacked.es.buf.main := by
  rw [liveEs, next_es_buf, SkidBuffer.next_of_moved hcore] at hlive'
  simp only [Bool.and_eq_true] at hlive'
  have hfire : SkidBuffer.inFire s.es.buf (esWires cfg s i) = true := by
    simpa [hskid] using hlive'.1
  have hmain : (next cfg s i).es.buf.main = esPayload cfg s i := by
    rw [next_es_buf, SkidBuffer.next_of_moved hcore]
    simp [hskid, hfire]
  constructor
  · intro htakes
    rw [hmain] at htakes ⊢
    exact plainAlu_of_takes htakes
  · show Carries cfg imem _ _
      ((next cfg s i).es.buf.main.unstacked (next cfg s i).stack.capturedData)
    rw [hmain]
    exact ht.accepted hknown hfire hA hcap

/-- A multiplication or division takes nothing of this cycle. -/
theorem takes_nothing_of_isMul (ht : Tracks cfg imem s i l h ws qs) (hquiet : exceptionFlag s i = false)
    (hlive : liveEs s = true) (hmul : s.es.buf.main.bus.ctrl.isMul = true) :
    ¬ TakesStackWord s.es.buf.main.bus ∧ ¬ TakesLiveLoad s.es.buf.main.bus := by
  have hno : ¬ TakesStackWord s.es.buf.main.bus := by
    intro htakes
    rw [((ht.steady hquiet).plain hlive htakes).isMul] at hmul
    cases hmul
  refine ⟨hno, fun htakes => ?_⟩
  have hmain := (ht.steady hquiet).main hlive
  rw [unstacked_of_not hno] at hmain
  have hword := (ht.program.words.esMain (liveEs_parts hlive).1).decoded.ctrl
  rw [hword] at hmul
  have hmul' : isMulInst (imem s.es.buf.main.bus.ctrl.pc) = true := hmul
  have hord := hmain.live htakes
  rw [not_ordinaryIntAlu (Or.inr (Or.inl hmul'))] at hord
  cases hord

/-! ## A quiet cycle in which nothing leaves execute -/

/-- A multiplication or division is an instruction of the interpreter, and aligned. -/
theorem retiring_of_isMul (ht : Tracks cfg imem s i l h ws qs) (hquiet : exceptionFlag s i = false)
    (hknown : ∀ a, Isa.Known (imem a)) (hlive : liveEs s = true)
    (hmul : s.es.buf.main.bus.ctrl.isMul = true) :
    ∃ ins, ∀ word, Retiring cfg imem s.unstacked.calm i (h.trace.state.reading word) ins := by
  rcases hknown h.trace.state.pc with hdec | hsys
  · rcases Option.isSome_iff_exists.mp hdec with ⟨ins, hins⟩
    rw [(ht.program.words.esMain (liveEs_parts hlive).1).decoded.ctrl, ht.pc_eq hlive hquiet] at hmul
    have hal := Isa.aligned_of_isMul hmul (Isa.encodes_of_decode hins) h.trace.state
    exact ⟨ins, fun word => ht.retiring hquiet hlive hins hal word⟩
  · rcases Option.isSome_iff_exists.mp hsys with ⟨ins, hins⟩
    rw [(ht.commanding hquiet hlive hins).isMul] at hmul
    cases hmul

theorem stay_request (ht : Tracks cfg imem s i l h ws qs)
    (hstay : (liveEs s && esToMsValid cfg s i) = false) : request cfg s i = none := by
  have hno : dmemEn cfg s i = false := by
    cases hlive : liveEs s with
    | false => exact dmemEn_of_not_live hlive
    | true =>
        -- a multiplication or division
        have hmul := (es_stalled (stalled_of_staying ht.program.control hlive hstay)
          ht.program.control).2.2.2.1
        have hop : (ExeStage.bus s.es).mem.memOp.any = false := memOp_none_of_isMul ht.program.control hmul
        simp [dmemEn, ExeStage.dmemEn, hop]
  rw [request, hno]
  rfl

theorem stay_main (ht : Tracks cfg imem s i l h ws qs) (hquiet : exceptionFlag s i = false)
    (hknown : ∀ a, Isa.Known (imem a)) (hstay : (liveEs s && esToMsValid cfg s i) = false)
    (hlive' : liveEs (next cfg s i) = true) :
    StackPlain (next cfg s i) ∧
      Carries cfg imem h.trace.state.read i'.dmemRdata (next cfg s i).unstacked.es.buf.main := by
  have hc := ht.program.control
  cases hlive : liveEs s with
  | true =>
      -- a stalled instruction keeps its operands
      have hcore := stalled_of_staying hc hlive hstay
      have hmain : (next cfg s i).es.buf.main = s.es.buf.main := by
        rw [next_es_buf, SkidBuffer.next_of_stalled hcore]
      rcases ht.takes_nothing_of_isMul hquiet hlive (es_stalled hcore hc).2.2.2.1 with ⟨hstack, hlw⟩
      have hno : ¬ TakesStackWord (next cfg s i).es.buf.main.bus := by rwa [hmain]
      refine ⟨fun htakes => absurd htakes hno, ?_⟩
      have hcarries := (ht.steady hquiet).main hlive
      rw [unstacked_of_not hstack] at hcarries
      rw [unstacked_of_not hno, hmain]
      exact hcarries.of_not_live hlw _
  | false =>
      -- an empty execute stage takes the next
      rcases es_free cfg i hc hlive with ⟨-, hskid, hcore, -⟩
      apply ht.enter_main hknown hskid hcore hlive'
        (ahead_of_not_live hlive rfl fun r hr => ht.read_eq r hr)
      intro hhit
      -- nothing captures in an empty stage
      simp only [ExeStage.exeStackLwHit, Bool.and_eq_true] at hhit
      rcases accept_parts hhit.1.1.1.1 with ⟨hv, -, hflush⟩
      have hmark := (Bool.or_eq_false_iff.mp hflush).1
      rw [liveEs, hv, hmark] at hlive
      cases hlive

/-- Behind a stalled multiplication or division an independent instruction may be parked. -/
theorem stay_skid (ht : Tracks cfg imem s i l h ws qs) (hquiet : exceptionFlag s i = false)
    (hknown : ∀ a, Isa.Known (imem a)) (hskid' : (next cfg s i).es.buf.skidValid = true) (word : Word) :
    Carries cfg imem (h.trace.step imem word).state.read i'.dmemRdata (next cfg s i).es.buf.skid ∧
      ¬ TakesLiveLoad (next cfg s i).es.buf.skid.bus ∧
      ¬ TakesStackWord (next cfg s i).es.buf.skid.bus := by
  have hc := ht.program.control
  have hs := ht.steady hquiet
  rw [next_es_buf] at hskid' ⊢
  cases hcore : SkidBuffer.coreAllowin s.es.buf (esWires cfg s i) with
  | true =>
      rw [SkidBuffer.next_of_moved hcore] at hskid'
      cases hskid'
  | false =>
      rcases es_stalled hcore hc with ⟨-, -, -, hmul, hready⟩
      have hlive := live_of_stalled hc hcore
      rcases ht.retiring_of_isMul hquiet hknown hlive hmul with ⟨ins, hr⟩
      rw [SkidBuffer.next_of_stalled hcore] at hskid' ⊢
      cases hskid : s.es.buf.skidValid with
      | true =>
          simp only [Bool.not_true, Bool.and_false, Bool.false_eq_true, if_false]
          rcases hs.skid hskid word with ⟨hcarries, hlw, hstack⟩
          exact ⟨hcarries.of_not_live hlw _, hlw, hstack⟩
      | false =>
          have hfire : SkidBuffer.inFire s.es.buf (esWires cfg s i) = true := by
            simp only [hskid, Bool.false_or, Bool.and_eq_true] at hskid'
            exact hskid'.2
          simp only [hfire, Bool.not_false, Bool.and_true, if_true]
          -- a load that grants its word to a consumer would be leaving execute
          have hnohit : ¬ ExeStage.exeStackLwHit s.es (exePorts cfg s i) = true := by
            intro hhit
            simp only [ExeStage.exeStackLwHit, Bool.and_eq_true] at hhit
            rw [(accept_parts hhit.1.1.1.1).2.1] at hready
            cases hready
          have hlw : ¬ TakesLiveLoad (esPayload cfg s i).bus := by
            intro htakes
            have hok := (@granted_of_takesLiveLoad cfg s i htakes).1
            rw [(accept_parts (exeLwLiveOk_parts hok).1).2.1] at hready
            cases hready
          have hstack : ¬ TakesStackWord (esPayload cfg s i).bus := fun htakes =>
            hnohit (@capture_of_takesStackWord cfg s i htakes).1
          have hA := ahead_calm ((hr word).ahead hs.unit (fun r hr => ht.read_eq r hr) fun _ => rfl)
          have hcarries := @accepted cfg imem s i l h ws qs ht hknown _ _ word hfire
            (ahead_unstacked (hs.plain hlive) hA) fun hhit => absurd hhit hnohit
          simp only [TakesStackWord, not_or, Bool.not_eq_true] at hstack
          rw [ExeStage.Payload.unstacked_of_not hstack.1 hstack.2] at hcarries
          exact ⟨hcarries.of_not_live hlw _, hlw, by simp [TakesStackWord, hstack]⟩

theorem stay_unit (ht : Tracks cfg imem s i l h ws qs) (hquiet : exceptionFlag s i = false)
    (hknown : ∀ a, Isa.Known (imem a)) (hstay : (liveEs s && esToMsValid cfg s i) = false) :
    UnitAgrees cfg imem (next cfg s i).unstacked.calm i' := by
  have hc := ht.program.control
  have hs := ht.steady hquiet
  cases hlive : liveEs s with
  | false =>
      apply unit_rests ht.program.phase hs.plain
      exact @rest_next_idle cfg imem s.unstacked.calm i hs.unit hlive
  | true =>
      -- the same operation on the same operands, one cycle further
      have hcore := stalled_of_staying hc hlive hstay
      rcases es_stalled hcore hc with ⟨-, hf, -, hmul, hready⟩
      rcases ht.takes_nothing_of_isMul hquiet hlive hmul with ⟨hstack, hlw⟩
      rcases ht.retiring_of_isMul hquiet hknown hlive hmul with ⟨ins, hretiring⟩
      have hr := hretiring 0#32
      have hunit := hs.unit
      rw [unstacked_of_not hstack] at hr hunit
      have hmul' : isMulInst (esWord imem s) = true := by
        rw [← show s.es.buf.main.bus.ctrl.isMul = isMulInst (esWord imem s) from hr.isMul_eq]
        exact hmul
      have hmain : (next cfg s i).es.buf.main = s.es.buf.main := by
        rw [next_es_buf, SkidBuffer.next_of_stalled hcore]
      have hno : ¬ TakesStackWord (next cfg s i).es.buf.main.bus := by rwa [hmain]
      have hword : esWord imem (next cfg s i) = esWord imem s := by rw [esWord, esWord, hmain]
      have h1 : s.es.buf.main.bus.src.src1Fwd ≠ 0b11#2 := fun hfwd => hlw (Or.inl hfwd)
      have h2 : s.es.buf.main.bus.src.src2Fwd ≠ 0b11#2 := fun hfwd => hlw (Or.inr hfwd)
      have harg1 : esArg1 cfg (next cfg s i) i' = esArg1 cfg s i := by
        rw [esArg1, esArg1, hmain, ExeStage.Payload.argument1, ExeStage.Payload.argument1,
          ExeStage.argument_of_ne h1, ExeStage.argument_of_ne h1]
      have harg2 : esArg2 cfg (next cfg s i) i' = esArg2 cfg s i := by
        rw [esArg2, esArg2, hmain, ExeStage.Payload.argument2, ExeStage.Payload.argument2,
          ExeStage.argument_of_ne h2, ExeStage.argument_of_ne h2]
      have hlive' : liveEs (next cfg s i) = true := by
        rw [liveEs, hmain, next_es_buf, SkidBuffer.next_of_stalled hcore, hf]
        rfl
      have hbusy := hr.busy_next hunit hmul' hready
      rw [unstacked_of_not hno]
      constructor
      · intro _ _
        show Mul.Busy (mulPacket (esWord imem (next cfg s i))) (esArg1 cfg (next cfg s i) i')
          (esArg2 cfg (next cfg s i) i') _ _
        rw [hword, harg1, harg2]
        exact Mul.busy_calm_next ht.program.phase hbusy
      · intro hnot
        have hnot' : isMulInst (esWord imem (next cfg s i)) = false := hnot hlive'
        rw [hword, hmul'] at hnot'
        cases hnot'

/-- The core stays with its machine. -/
theorem stay (ht : Tracks cfg imem s i l h ws qs) (hquiet : exceptionFlag s i = false)
    (hknown : ∀ a, Isa.Known (imem a)) (henv : Env cfg imem s i i')
    (hstay : (liveEs s && esToMsValid cfg s i) = false) :
    Tracks cfg imem (next cfg s i) i' (Labels.next cfg s i t l) h (ws ++ (wbWrite s).toList)
      (qs ++ (request cfg s i).toList) := by
  have hc := ht.program.control
  have hs := ht.steady hquiet
  -- nothing live enters the memory stage, so nothing new is on its way to write-back
  have hdead : liveMs (next cfg s i) = false := next_not_liveMs hc hstay
  have hcode : exceptionCode (next cfg s i) i' = 0#7 :=
    exceptionCode_next_of_dead hc (fun _ => hs.code) hdead
  have hcsrs := ht.csrs_next (t := t) hquiet
  have hsame : csrModelNext cfg s i l h.csr = h.csr := by
    simp [csrModelNext, executesCsr, hstay]
  rw [hsame] at hcsrs
  refine
    { program := ht.program_next henv
      pcAligned := ht.pcAligned
      regfile := regfile_next ht.regfile
      regs := ht.regs
      writes := ?_
      requests := ?_
      file := ?_
      trapped := (next_prevExceptionFlag_of_code hcode).trans ht.trapped
      target := ?_
      steady := fun _ =>
        { code := hcode
          head := (next_headPc hc (ht.flush_of_stay hquiet hstay) hstay).trans hs.head
          plain := fun hlive' =>
            (@stay_main cfg imem s i i' l h ws qs ht hquiet hknown hstay hlive').1
          main := fun hlive' => (ht.stay_main hquiet hknown hstay hlive').2
          skid := fun hskid word => ht.stay_skid hquiet hknown hskid word
          unit := ht.stay_unit hquiet hknown hstay
          csrs := hcsrs } }
  · rw [msWrite_of_dead hdead, wbWrite_next hc, ← ht.writes]
    simp
  · rw [ht.stay_request hstay]
    simpa using ht.requests
  · rw [next_csr_file hcode]
    exact hcsrs.file
  · intro hno
    rw [exceptionFlag_of_code hcode] at hno
    cases hno

end Tracks

end Cpu
end RiscvCpu
