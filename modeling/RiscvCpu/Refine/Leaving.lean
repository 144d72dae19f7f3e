import RiscvCpu.Refine.Hart

/-!
# Leaving — the core does what its machine does

An edge on which an instruction leaves execute.  The memory stage then decides whether it has been
executed, trapped or returned.
-/

namespace RiscvCpu

open Decode

namespace Cpu

variable {cfg : Config} {imem : Word → Word} {s : Cpu} {i i' : CpuIn} {t : Nat} {l : Labels}

/-! ## What an instruction that is not trapped hands over -/

/-- The instruction that leaves execute is not trapped, and takes the machine from `h` to `h'`. -/
structure Passing (cfg : Config) (imem : Word → Word) (s : Cpu) (i i' : CpuIn) (l : Labels)
    (h h' : Isa.Hart) : Prop where
  live : liveEs s = true
  moves : esToMsValid cfg s i = true
  code : exceptionCode (next cfg s i) i' = 0#7
  pcAligned : h'.trace.state.pc.toNat % 4 = 0
  head : headPc cfg (next cfg s i) = h'.trace.state.pc
  regs : h'.trace.state.regs = Isa.applyWrites h'.trace.writes
  writes : h'.trace.writes = h.trace.writes ++ (msWrite (next cfg s i) i').toList
  requests : h'.trace.requests = h.trace.requests ++ (request cfg s i).toList
  ahead : Ahead cfg s i h'.trace.state.read i'.dmemRdata
  captured : ExeStage.exeStackLwHit s.es (exePorts cfg s i) = true →
    i'.dmemRdata = h'.trace.state.read s.es.buf.main.bus.ctrl.rdAddr
  parked : s.es.buf.skidValid = true →
    Carries cfg imem h'.trace.state.read i.dmemRdata s.es.buf.skid ∧
      ¬ TakesLiveLoad s.es.buf.skid.bus ∧ ¬ TakesStackWord s.es.buf.skid.bus
  unit : UnitAgrees cfg imem (next cfg s i).unstacked.calm i'
  csrs : csrModelNext cfg s i l h.csr = h'.csr
  trapped : h'.trapped = h.trapped

namespace Tracks

variable {h h' : Isa.Hart} {ws : List Isa.Write} {qs : List Isa.Request}

/-- What comes into execute behind it. -/
theorem proceed_main (ht : Tracks cfg imem s i l h ws qs) (hknown : ∀ a, Isa.Known (imem a))
    (henv : Env cfg imem s i i') (hp : Passing cfg imem s i i' l h h')
    (hlive' : liveEs (next cfg s i) = true) :
    StackPlain (next cfg s i) ∧
      Carries cfg imem h'.trace.state.read i'.dmemRdata (next cfg s i).unstacked.es.buf.main := by
  have hcore := moves_of_leaving ht.program.control hp.moves
  cases hskid : s.es.buf.skidValid with
  | true =>
      -- it was parked
      have hmain : (next cfg s i).es.buf.main = s.es.buf.skid := by
        rw [next_es_buf, SkidBuffer.next_of_moved hcore]
        simp [hskid]
      rcases hp.parked hskid with ⟨hcarries, hlw, hstack⟩
      have hno : ¬ TakesStackWord (next cfg s i).es.buf.main.bus := by rwa [hmain]
      refine ⟨fun htakes => absurd htakes hno, ?_⟩
      rw [unstacked_of_not hno, hmain]
      exact hcarries.of_not_live hlw _
  | false =>
      apply ht.enter_main hknown hskid hcore hlive' hp.ahead
      intro hhit
      rw [(next_of_capture ht.program.control hhit).2.2.1, henv.capture hhit]
      exact hp.captured hhit

/-- The core goes on with its machine. -/
theorem proceed (ht : Tracks cfg imem s i l h ws qs) (hquiet : exceptionFlag s i = false)
    (hknown : ∀ a, Isa.Known (imem a)) (henv : Env cfg imem s i i')
    (hp : Passing cfg imem s i i' l h h') :
    Tracks cfg imem (next cfg s i) i' (Labels.next cfg s i t l) h' (ws ++ (wbWrite s).toList)
      (qs ++ (request cfg s i).toList) := by
  have hcsrs := ht.csrs_next (t := t) hquiet
  rw [hp.csrs] at hcsrs
  refine
    { program := ht.program_next henv
      pcAligned := hp.pcAligned
      regfile := regfile_next ht.regfile
      regs := hp.regs
      writes := ?_
      requests := ?_
      file := ?_
      trapped := ?_
      target := ?_
      steady := fun _ =>
        { code := hp.code
          head := hp.head
          plain := fun hlive' => (ht.proceed_main hknown henv hp hlive').1
          main := fun hlive' => (ht.proceed_main hknown henv hp hlive').2
          skid := ?_
          unit := hp.unit
          csrs := hcsrs } }
  · rw [wbWrite_next ht.program.control, ht.writes, hp.writes]
  · rw [ht.requests, hp.requests]
  · rw [next_csr_file hp.code]
    exact hcsrs.file
  · rw [next_prevExceptionFlag_of_code hp.code, ht.trapped, hp.trapped]
  · intro hno
    rw [exceptionFlag_of_code hp.code] at hno
    cases hno
  · intro hskid
    rw [next_es_buf, SkidBuffer.next_of_moved (moves_of_leaving ht.program.control hp.moves)] at hskid
    cases hskid

/-- A trap or a return takes the core with its machine. -/
theorem divert (ht : Tracks cfg imem s i l h ws qs) (henv : Env cfg imem s i i')
    (hd : Diverted cfg (next cfg s i) i' h') (hal : h'.trace.state.pc.toNat % 4 = 0)
    (hregs : h'.trace.state.regs = h.trace.state.regs) (hwrites : h'.trace.writes = h.trace.writes)
    (hrequests : h'.trace.requests = h.trace.requests ++ (request cfg s i).toList) :
    Tracks cfg imem (next cfg s i) i' (Labels.next cfg s i t l) h' (ws ++ (wbWrite s).toList)
      (qs ++ (request cfg s i).toList) := by
  refine
    { program := ht.program_next henv
      pcAligned := hal
      regfile := regfile_next ht.regfile
      regs := ?_
      writes := ?_
      requests := ?_
      file := hd.file
      trapped := hd.trapped
      target := fun _ => hd.target
      steady := ?_ }
  · rw [hregs, hwrites]
    exact ht.regs
  · rw [wbWrite_next ht.program.control, msWrite_of_flag hd.flag, hwrites, ← ht.writes]
    simp
  · rw [ht.requests, hrequests]
  · intro hno
    rw [hd.flag] at hno
    cases hno

/-! ### An instruction of the interpreter -/

section Base

variable {ins : Isa.Instr}

theorem base_request (ht : Tracks cfg imem s i l h ws qs) (hquiet : exceptionFlag s i = false)
    (hlive : liveEs s = true) {word : Word}
    (hr : Retiring cfg imem s.unstacked.calm i (h.trace.state.reading word) ins) :
    request cfg s i = h.trace.state.request? imem := by
  rw [← request_eq_unstacked ((ht.steady hquiet).plain hlive)]
  show request cfg s.unstacked.calm i = _
  rw [hr.request_eq, Isa.request?_reading]

theorem base_head (ht : Tracks cfg imem s i l h ws qs) (hquiet : exceptionFlag s i = false)
    (hlive : liveEs s = true) {word : Word}
    (hr : Retiring cfg imem s.unstacked.calm i (h.trace.state.reading word) ins)
    (hmove : esToMsValid cfg s i = true) :
    headPc cfg (next cfg s i) = (h.trace.step imem word).state.pc := by
  have hc := ht.program.control
  have hplain := (ht.steady hquiet).plain hlive
  show headPc cfg (next cfg s i) = (Isa.step imem (h.trace.state.reading word)).pc
  rw [← hr.nextPc_eq]
  have hbr' : brRedirect cfg s.unstacked.calm i = brRedirect cfg s i := brRedirect_eq_unstacked hplain
  cases hbr : brRedirect cfg s i with
  | true =>
      -- a branch takes no stack word, and the core goes where it says
      have hno : ¬ TakesStackWord s.es.buf.main.bus := by
        intro htakes
        have hjump := (isBrJmp_of_brRedirect hbr).2.2
        rw [(hplain htakes).isBrJmp] at hjump
        cases hjump
      have hsame := unstacked_of_not hno
      rw [hsame] at hr ⊢
      have hflush : pipeFlush cfg s i = true := by rw [pipeFlush, hbr, Bool.or_true]
      have hjump : isBrJmpInst (esWord imem s.calm) = true := by
        rw [← hr.executing.isBrJmp_eq]
        exact (isBrJmp_of_brRedirect hbr).2.2
      rw [(next_of_pipeFlush hc hflush).2.2.2.2, flushTarget, hquiet]
      exact hr.executing.brRedirectTarget_eq hjump
  | false =>
      have hflush : pipeFlush cfg s i = false := by rw [pipeFlush, hbr, hquiet, Bool.false_or]
      rw [hbr] at hbr'
      rw [headPc_of_leaving hc ht.program.flow hflush hlive hmove]
      apply hr.executing.esHop_target hbr'
      intro hpred
      apply ht.program.predict.esMain (liveEs_parts hlive).1 hpred
      rw [ht.pc_eq hlive hquiet]
      exact ht.pcAligned

variable (i') in
/-- What it traps on: the interrupt alone. -/
theorem base_trapCause (ht : Tracks cfg imem s i l h ws qs) (hquiet : exceptionFlag s i = false)
    (hlive : liveEs s = true) {word : Word}
    (hr : Retiring cfg imem s.unstacked.calm i (h.trace.state.reading word) ins)
    (hsys : Isa.decodeSystem (imem h.trace.state.pc) = none) (hmove : esToMsValid cfg s i = true) :
    MemPayloadOf (imem h.trace.state.pc) (next cfg s i).ms.buf.main ∧
      liveMs (next cfg s i) = true ∧
      trapCause (next cfg s i) i' (imem h.trace.state.pc) =
        (h.cause? imem i'.plicIrq).map trapCauseOf := by
  have hs := ht.steady hquiet
  obtain ⟨hms, -, hcsr, -, -⟩ := @next_unstacked cfg s i (hs.plain hlive)
  have hcause := hr.trapCause_next i' hs.unit hmove
  rcases hr.liveMs_payload hmove with ⟨hx, -, hliveMs⟩
  have hword : esWord imem s.unstacked.calm = imem h.trace.state.pc := by
    rw [hr.esWord_eq]
    rfl
  have hms' : (next cfg s.unstacked.calm i).ms = (next cfg s i).ms := hms
  have hcsr' : (next cfg s.unstacked.calm i).csr = (next cfg s i).csr := hcsr
  rw [hword] at hx hcause
  rw [trapCause_congr hms' hcsr'] at hcause
  refine ⟨?_, ?_, ?_⟩
  · rwa [← hms']
  · rwa [liveMs, ← hms']
  · have hirq : irqPending (next cfg s.unstacked.calm i) i' = irqPending (next cfg s i) i' := by
      rw [irqPending, irqPending, hcsr']
    rw [hcause, hirq, irqPending_eq ht.file, Isa.Hart.cause?, hsys]
    cases i'.plicIrq && h.enabled <;> rfl

theorem base_passing (ht : Tracks cfg imem s i l h ws qs) (hquiet : exceptionFlag s i = false)
    (hlive : liveEs s = true)
    (hr : Retiring cfg imem s.unstacked.calm i (h.trace.state.reading i'.dmemRdata) ins)
    (hmove : esToMsValid cfg s i = true) (hcode : exceptionCode (next cfg s i) i' = 0#7) :
    Passing cfg imem s i i' l h { h with trace := h.trace.step imem i'.dmemRdata } := by
  have hs := ht.steady hquiet
  have hready := (esToMsValid_parts hmove).2
  obtain ⟨hms, -, hcsr, -, -⟩ := @next_unstacked cfg s i (hs.plain hlive)
  have hms' : (next cfg s.unstacked.calm i).ms = (next cfg s i).ms := hms
  have hcsr' : (next cfg s.unstacked.calm i).csr = (next cfg s i).csr := hcsr
  refine
    { live := hlive
      moves := hmove
      code := hcode
      pcAligned := ?_
      head := ht.base_head hquiet hlive hr hmove
      regs := Isa.Trace.step_regs ht.regs _
      writes := ?_
      requests := ?_
      ahead := ?_
      captured := ?_
      parked := fun hskid => hs.skid hskid _
      unit := ?_
      csrs := ?_
      trapped := rfl }
  · show (Isa.step imem _).pc.toNat % 4 = 0
    rw [(Isa.step_of_decode hr.decode).1]
    exact Isa.nextPc_aligned ht.pcAligned hr.aligned
  · have hno : exceptionFlag (next cfg s.unstacked.calm i) i' = false := by
      rw [exceptionFlag_congr hms' hcsr']
      exact exceptionFlag_of_code hcode
    rw [← msWrite_congr hms' hcsr', hr.msWrite_next_of_quiet hs.unit hmove hno fun _ => rfl]
    rfl
  · rw [ht.base_request hquiet hlive hr]
    rfl
  · exact ahead_unstacked (hs.plain hlive)
      (ahead_calm (hr.ahead hs.unit (fun r hr => ht.read_eq r hr) fun _ => rfl))
  · intro hhit
    exact (hr.loaded_of_capture (fun _ => rfl) hhit).symm
  · exact unit_rests ht.program.phase hs.plain (hr.rest_next hs.unit hready)
  · -- it is no CSR instruction
    have hl := ht.program.labelled
    have hinst : l.esMain.inst = imem h.trace.state.pc := by
      rw [ht.program.named.esMain (liveEs_parts hlive).1, ← hl.esMain.1, ht.pc_eq hlive hquiet]
    have hop := Datapath.usesF_of_isaOpcode
      (Datapath.isaOpcode_of_encodes (Isa.encodes_of_decode hr.decode))
    have hno : isCsrInst l.esMain.inst = false := by
      rw [hinst]
      exact isCsrInst_eq_false hop.2
    simp [csrModelNext, executesCsr, hno]

end Base

/-! ### A system instruction -/

/-- A CSR instruction reads the CSR of the machine. -/
theorem csr_value (ht : Tracks cfg imem s i l h ws qs) (hquiet : exceptionFlag s i = false)
    {o : Isa.CsrUpdate} {rd : BitVec 5} {addr : BitVec 12} {src : Isa.CsrSource}
    (hs : Commanding imem s i h (.csr o rd addr src)) :
    l.esMain.inst = imem h.trace.state.pc ∧
      csrValue s.es.buf.main = RegisterFile.read Isa.csrLayout h.csr addr := by
  have hl := ht.program.labelled
  have hinst : l.esMain.inst = imem h.trace.state.pc := by
    rw [ht.program.named.esMain (liveEs_parts hs.live).1, ← hl.esMain.1, hs.pc]
  refine ⟨hinst, ?_⟩
  rcases hs.csrWord with ⟨hw, -, haddr, himpl⟩
  have hvalue := (ht.steady hquiet).csrs.main hs.live (by rw [hinst]; exact hw.isCsr)
    (by rw [hinst, haddr]; exact himpl)
  rw [hinst, haddr] at hvalue
  rw [csrLayout_eq]
  exact hvalue

theorem csr_passing (ht : Tracks cfg imem s i l h ws qs) (hquiet : exceptionFlag s i = false)
    {o : Isa.CsrUpdate} {rd : BitVec 5} {addr : BitVec 12} {src : Isa.CsrSource}
    (hs : Commanding imem s i h (.csr o rd addr src))
    (hcode : exceptionCode (next cfg s i) i' = 0#7) :
    Passing cfg imem s i i' l h (h.access o rd addr src) := by
  have hsteady := ht.steady hquiet
  rcases ht.csr_value hquiet hs with ⟨hinst, hvalue⟩
  -- it takes no word of the stack buffer
  have hstack : ¬ TakesStackWord s.es.buf.main.bus := by
    intro htakes
    have halu := (hsteady.plain hs.live htakes).isAlu
    rw [hs.ctrl] at halu
    have halu' : isAluInst (imem h.trace.state.pc) = true := halu
    rw [(class_of_isCsrInst hs.csrWord.1.isCsr).2.1] at halu'
    cases halu'
  have hcarries := hsteady.main hs.live
  rw [unstacked_of_not hstack] at hcarries
  have hal : (h.trace.state.pc + 4#32).toNat % 4 = 0 := by
    have hpc := ht.pcAligned
    rw [BitVec.toNat_add]
    simp only [BitVec.reduceToNat]
    omega
  refine
    { live := hs.live
      moves := hs.moves
      code := hcode
      pcAligned := hal
      head := hs.headPc_next ht.program.flow ht.program.predict ht.pcAligned
      regs := ?_
      writes := hs.msWrite_next hvalue (exceptionFlag_of_code hcode)
      requests := ?_
      ahead := hs.ahead hvalue (fun r hr => ht.read_eq r hr) _
      captured := ?_
      parked := ?_
      unit := ?_
      csrs := hs.csrModelNext_eq hcarries ht.program.labelled hinst
      trapped := rfl }
  · exact Isa.Trace.write_regs ht.regs rd _
  · rw [hs.request_none]
    exact (List.append_nil _).symm
  · -- it is no load
    intro hhit
    simp only [ExeStage.exeStackLwHit, Bool.and_eq_true] at hhit
    have hload := instLw_of_es hs.word.decoded hhit.1.1.1.2
    have hmem := hs.only.isMem
    simp only [instLw, Bool.and_eq_true] at hload
    simp [isMemInst, hload.1] at hmem
  · -- nothing is parked behind what does not wait
    intro hskid
    have hmul := (ht.program.control.esStopped (ht.program.control.esWf.stopped hskid)).2.1
    rw [hs.isMul] at hmul
    cases hmul
  · apply unit_rests ht.program.phase hsteady.plain
    have hidle := @mulPorts_idle cfg s.unstacked.calm i fun _ => hs.isMul
    refine Mul.rest_next (hsteady.unit.rest fun _ => ?_) hidle
    show isMulInst (imem s.es.buf.main.bus.ctrl.pc) = false
    rw [hs.pc]
    exact hs.only.isMul

/-! ### Any instruction -/

/-- Masking the low bits of `mepc` leaves an aligned address. -/
theorem aligned_of_masked (x : Word) : (x &&& ~~~3#32).toNat % 4 = 0 := by
  rw [← clear_low_bits, BitVec.toNat_append]
  simp only [BitVec.reduceToNat, Nat.or_zero]
  omega

/-- The instruction in execute is trapped in the memory stage. -/
theorem trap (ht : Tracks cfg imem s i l h ws qs) (hquiet : exceptionFlag s i = false)
    (hknown : ∀ a, Isa.Known (imem a)) (henv : Env cfg imem s i i') (hlive : liveEs s = true)
    (hmove : esToMsValid cfg s i = true) (hreq : request cfg s i = h.trace.state.request? imem)
    (hx : MemPayloadOf (imem h.trace.state.pc) (next cfg s i).ms.buf.main) {c : Isa.Cause}
    (hcause : trapCause (next cfg s i) i' (imem h.trace.state.pc) = some (trapCauseOf c))
    (hvector : (h.csr Isa.SysReg.MTVEC).toNat % 4 = 0) :
    Tracks cfg imem (next cfg s i) i' (Labels.next cfg s i t l)
      (Isa.Hart.trap { h with trace := h.trace.ask imem } c) (ws ++ (wbWrite s).toList)
      (qs ++ (request cfg s i).toList) := by
  have hc := ht.program.control
  have hpc : (next cfg s i).ms.buf.main.bus.pc = h.trace.state.pc := by
    rw [next_ms_main hc, if_pos hmove]
    exact ht.pc_eq hlive hquiet
  have hd : Diverted cfg (next cfg s i) i' (Isa.Hart.trap { h with trace := h.trace.ask imem } c) :=
    diverted_of_trap (h := { h with trace := h.trace.ask imem }) (next_liveMs hc hlive hquiet hmove) hx
      (Isa.usesF_of_known (hknown _)) hpc ht.file hcause
  refine ht.divert henv hd hvector rfl rfl ?_
  rw [hreq]
  rfl

/-- An instruction of the interpreter that is not trapped. -/
theorem retire_base (ht : Tracks cfg imem s i l h ws qs) (hquiet : exceptionFlag s i = false)
    (hknown : ∀ a, Isa.Known (imem a)) (hal : h.trace.state.Aligned imem) (hlive : liveEs s = true)
    (hmove : esToMsValid cfg s i = true)
    (hsys : Isa.decodeSystem (imem h.trace.state.pc) = none) (hno : h.cause? imem i'.plicIrq = none) :
    Passing cfg imem s i i' l h { h with trace := h.trace.step imem i'.dmemRdata } := by
  rcases Isa.decode_of_not_system (hknown _) hsys with ⟨ins, hins⟩
  have hr := ht.retiring hquiet hlive hins (hal ins hins) i'.dmemRdata
  rcases ht.base_trapCause i' hquiet hlive hr hsys hmove with ⟨hx, hliveMs, hcause⟩
  rw [hno] at hcause
  have hmret : instMret (imem h.trace.state.pc) = false := by
    simp [instMret, (Datapath.usesF_of_isaOpcode
      (Datapath.isaOpcode_of_encodes (Isa.encodes_of_decode hins))).2]
  exact ht.base_passing hquiet hlive hr hmove
    (code_of_passing hliveMs hx (Isa.usesF_of_known (hknown _)) hcause hmret)

/-- What leaves execute makes the request of the next instruction. -/
theorem retire_request (ht : Tracks cfg imem s i l h ws qs) (hquiet : exceptionFlag s i = false)
    (hknown : ∀ a, Isa.Known (imem a)) (hal : h.trace.state.Aligned imem) (hlive : liveEs s = true) :
    request cfg s i = h.trace.state.request? imem := by
  cases hsys : Isa.decodeSystem (imem h.trace.state.pc) with
  | none =>
      rcases Isa.decode_of_not_system (hknown _) hsys with ⟨ins, hins⟩
      exact ht.base_request hquiet hlive (ht.retiring hquiet hlive hins (hal ins hins) 0#32)
  | some ins =>
      rw [(ht.commanding hquiet hlive hsys).request_none, Isa.request?_of_system hsys]

/-- The core does what the machine does with the next instruction. -/
theorem retire (ht : Tracks cfg imem s i l h ws qs) (hquiet : exceptionFlag s i = false)
    (hknown : ∀ a, Isa.Known (imem a)) (henv : Env cfg imem s i i') (hlive : liveEs s = true)
    (hmove : esToMsValid cfg s i = true) (hsound : h.Sound imem i'.plicIrq) :
    Tracks cfg imem (next cfg s i) i' (Labels.next cfg s i t l)
      (h.step imem ⟨i'.dmemRdata, i'.plicIrq⟩) (ws ++ (wbWrite s).toList)
      (qs ++ (request cfg s i).toList) := by
  have hal := hsound.aligned
  have hf := Isa.usesF_of_known (hknown h.trace.state.pc)
  have hreq := ht.retire_request hquiet hknown hal hlive
  cases hsys : Isa.decodeSystem (imem h.trace.state.pc) with
  | none =>
      cases hc : h.cause? imem i'.plicIrq with
      | some c =>
          rcases Isa.decode_of_not_system (hknown _) hsys with ⟨ins, hins⟩
          have hr := ht.retiring hquiet hlive hins (hal ins hins) 0#32
          rcases ht.base_trapCause i' hquiet hlive hr hsys hmove with ⟨hx, -, hcause⟩
          rw [hc] at hcause
          rw [Isa.Hart.step_of_cause hc]
          exact ht.trap hquiet hknown henv hlive hmove hreq hx hcause (hsound.vector (by rw [hc]; rfl))
      | none =>
          rw [Isa.Hart.step_of_no_cause hc, Isa.Hart.execute, hsys]
          exact ht.proceed hquiet hknown henv
            (ht.retire_base hquiet hknown hal hlive hmove hsys hc)
  | some ins =>
      have hs := ht.commanding hquiet hlive hsys
      rcases hs.payload_next cfg with ⟨hx, -, hliveMs, -⟩
      have hcause := hs.trapCause_next i' hsys ht.file
      cases hc : h.cause? imem i'.plicIrq with
      | some c =>
          rw [hc] at hcause
          rw [Isa.Hart.step_of_cause hc]
          exact ht.trap hquiet hknown henv hlive hmove hreq hx hcause (hsound.vector (by rw [hc]; rfl))
      | none =>
          rw [hc] at hcause
          rw [Isa.Hart.step_of_no_cause hc, Isa.Hart.execute, hsys]
          cases ins with
          | csr o rd addr src =>
              have hmret := hs.csrWord.1.mret
              exact ht.proceed hquiet hknown henv
                (ht.csr_passing hquiet hs (code_of_passing hliveMs hx hf hcause hmret))
          | mret =>
              have henc := hs.encodes
              cases henc with
              | mret hw =>
                  have hmret : instMret (imem h.trace.state.pc) = true ∧
                      csrWen (imem h.trace.state.pc) = false := by
                    rw [hw]
                    decide
                  have hprev : (next cfg s i).csr.prevExceptionFlag = true := by
                    rw [ht.trapped]
                    exact hsound.returns hsys
                  have hd : Diverted cfg (next cfg s i) i' h.ret :=
                    diverted_of_ret hliveMs hx hf ht.file hcause hmret.1 hmret.2 hprev
                  refine ht.divert henv hd (aligned_of_masked _) rfl rfl ?_
                  rw [hs.request_none]
                  exact (List.append_nil _).symm
          | ecall | ebreak =>
              -- these always trap
              rw [Isa.Hart.cause?, hsys] at hc
              cases hc

end Tracks

end Cpu
end RiscvCpu
