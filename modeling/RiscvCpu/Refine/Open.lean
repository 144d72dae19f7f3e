import RiscvCpu.Isa.Trace
import RiscvCpu.Refine.Drain
import RiscvCpu.Refine.Simulation

/-!
# Open — the core in any environment

Nothing is assumed of what answers the data port but this: a word captured from the stack value buffer
is the word that its load is answered with.  The interrupt line is arbitrary.  What is said of a core
that runs a program here is said without the machine that it refines.
-/

namespace RiscvCpu

open Decode

namespace Cpu

/-! ## The environment -/

/-- From one cycle to the next the instruction memory answers a request and otherwise holds its output,
and a load that captures its entry of the stack buffer is answered with the same word. -/
structure Env (cfg : Config) (imem : Word → Word) (s : Cpu) (i i' : CpuIn) : Prop where
  fetch : i'.imemRdata = if imemEn cfg s i then imem (imemAddr cfg s) else i.imemRdata
  capture : ExeStage.exeStackLwHit s.es (exePorts cfg s i) = true →
    StackValueBuffer.queryData s.stack (dmemAddr s) = i'.dmemRdata

variable {cfg : Config} {imem : Word → Word} {s s' : Cpu} {i i' : CpuIn} {t : Nat} {l : Labels}

theorem isa_of_decodes (hdec : ∀ a, (Isa.decode (imem a)).isSome = true) (a : Word) :
    Datapath.isaOpcode (opcode (imem a)) = true := by
  rcases Option.isSome_iff_exists.mp (hdec a) with ⟨ins, hins⟩
  exact Datapath.isaOpcode_of_encodes (Isa.encodes_of_decode hins)

/-! ## The program -/

/-- The labels in execute name the words of the program. -/
structure Named (imem : Word → Word) (s : Cpu) (l : Labels) : Prop where
  esMain : s.es.buf.valid = true → l.esMain.inst = imem l.esMain.pc
  esSkid : s.es.buf.skidValid = true → l.esSkid.inst = imem l.esSkid.pc

theorem named_next (hl : Labelled s l) (hF : Fetched imem s i.imemRdata) (h : Named imem s l) :
    Named imem (next cfg s i) (Labels.next cfg s i t l) := by
  have hes := SkidBuffer.forall_next (r := s.es.buf.carrying l.esMain l.esSkid)
    (w := esWires cfg s i) (x := l.dsMain) (P := fun m : Label => m.inst = imem m.pc) h.esMain h.esSkid (by
      intro hfire
      have hds := hF.dsMain (ds_valid_of_es_inFire hfire)
      rwa [hl.dsMain.1, hl.dsMain.2] at hds)
  rw [← SkidBuffer.carrying_next s.es.buf (esWires cfg s i) (esPayload cfg s i)] at hes
  exact { esMain := hes.1, esSkid := hes.2 }

/-- The core runs the program `imem`. -/
structure Programmed (cfg : Config) (imem : Word → Word) (s : Cpu) (i : CpuIn) (l : Labels) : Prop where
  control : Control s
  labelled : Labelled s l
  words : Fetched imem s i.imemRdata
  named : Named imem s l
  predict : Predict imem s
  flow : Flow cfg s
  phase : Mul.UnitPhase s.es.mul s.es.divider

theorem programmed_reset (cfg : Config) (imem : Word → Word) (s₀ : Cpu) (i : CpuIn) :
    Programmed cfg imem s₀.reset i Labels.reset :=
  { control := control_reset s₀
    labelled := labelled_reset s₀
    words := fetched_reset s₀
    named := by constructor <;> intro h <;> cases h
    predict := predict_reset s₀
    flow := flow_reset s₀
    phase := Mul.unitPhase_reset _ }

theorem programmed_next (h : Programmed cfg imem s i l) (henv : Env cfg imem s i i')
    (hal : liveEs s = true → exceptionFlag s i = false →
      s.es.buf.main.bus.ctrl.pc.toNat % 4 = 0) :
    Programmed cfg imem (next cfg s i) i' (Labels.next cfg s i t l) :=
  { control := control_next h.control
    labelled := labelled_next h.control h.labelled
    words := fetched_next h.control h.words henv.fetch
    named := named_next h.labelled h.words h.named
    predict := predict_next h.predict h.words.esMain hal
    flow := flow_next h.control h.flow
    phase := Mul.unitPhase_next h.phase (ExeStage.mulPorts s.es (exePorts cfg s i)) }

/-! ## The memory stage decides -/

theorem trapCause_congr {x : Word} (hms : s.ms = s'.ms) (hcsr : s.csr = s'.csr) :
    trapCause s i x = trapCause s' i x := by
  rw [trapCause, trapCause, msTarget, msTarget, msAddr, msAddr, irqPending, irqPending, hms, hcsr]

theorem exceptionFlag_congr (hms : s.ms = s'.ms) (hcsr : s.csr = s'.csr) :
    exceptionFlag s i = exceptionFlag s' i := by
  simp only [exceptionFlag, exceptionCode, hms, hcsr]

theorem msWrite_congr (hms : s.ms = s'.ms) (hcsr : s.csr = s'.csr) : msWrite s i = msWrite s' i := by
  simp only [msWrite, exceptionFlag_congr hms hcsr, memResult, hms]

theorem msWrite_of_flag (h : exceptionFlag s i = true) : msWrite s i = none := by
  simp [msWrite, MemStage.memRegfileWen, h]

/-- A memory stage without a live instruction raises no code. -/
theorem exceptionCode_next_of_dead (hc : Control s)
    (hcode : exceptionFlag s i = false → exceptionCode s i = 0#7)
    (hdead : liveMs (next cfg s i) = false) : exceptionCode (next cfg s i) i' = 0#7 := by
  cases hfl : MemStage.msFlush (next cfg s i).ms with
  | true => exact exceptionCode_of_msFlush hfl
  | false =>
      have hv : (next cfg s i).ms.buf.valid = false := by simpa [liveMs, hfl] using hdead
      rw [exceptionCode_of_bubble hv hfl]
      -- what the empty stage still shows is the instruction that was there
      rw [next_ms_valid hc] at hv
      rw [MemStage.msFlush, next_ms_main hc, hv] at hfl
      rw [MemStage.excCode, next_ms_main hc, hv]
      show MemStage.excCode s.ms = 0#7
      cases hflag : exceptionFlag s i with
      | true =>
          by_contra hne
          rcases ms_live_of_exceptionFlag hc hflag with ⟨hmv, hmfl⟩
          have hes := hc.msFollowed hmv hmfl hne
          have hready : esReadyGo cfg s i = true :=
            esReadyGo_of_moves hc hes (es_moves_of_flush hc (Or.inr hflag))
          rw [esToMsValid_eq, hes, hready] at hv
          cases hv
      | false =>
          rcases @exceptionCode_cases s i hfl with h5 | heq
          · rw [hcode hflag] at h5
            cases h5
          · rw [← heq, hcode hflag]

theorem not_liveMs_of_flag (hc : Control s) (hflag : exceptionFlag s i = true) :
    liveMs (next cfg s i) = false := by
  cases hlive : liveMs (next cfg s i) with
  | false => rfl
  | true =>
      have hquiet := (head_of_next_liveMs hc hlive).2.1
      rw [hflag] at hquiet
      cases hquiet

/-- In the cycle of a trap or a return execute asks for nothing. -/
theorem request_of_flag (h : exceptionFlag s i = true) : request cfg s i = none := by
  have hflush : ExeStage.esFlush s.es (exePorts cfg s i) = true := by
    show (s.es.buf.main.dsFlush || exceptionFlag s i) = true
    rw [h, Bool.or_true]
  have hno : dmemEn cfg s i = false := by
    simp [dmemEn, ExeStage.dmemEn, hflush]
  rw [request, hno]
  rfl

/-! ## The unit -/

/-- A unit does not see where the operands come from, unless it is asked for something. -/
theorem unitNext_unstacked {m : Mul.Regs} {d : Divider.Regs} (h : liveEs s = true → StackPlain s) :
    Mul.unitNext m d (ExeStage.mulPorts s.unstacked.es (exePorts cfg s i)) =
      Mul.unitNext m d (ExeStage.mulPorts s.es (exePorts cfg s i)) := by
  by_cases htakes : TakesStackWord s.es.buf.main.bus
  · have hidle : liveEs s = true → s.es.buf.main.bus.ctrl.isMul = false :=
      fun hlive => (h hlive htakes).isMul
    exact ExeStage.unitNext_idle (@mulPorts_idle cfg s.unstacked i hidle) (@mulPorts_idle cfg s i hidle)
      rfl rfl
  · rw [unstacked_of_not htakes]

theorem unitAgrees_of_calm (h : Mul.Rest (next cfg s i).calm.es.mul (next cfg s i).calm.es.divider) :
    UnitAgrees cfg imem (next cfg s i).unstacked.calm i' := unitAgrees_of_rest h

/-- The unit comes to rest. -/
theorem unit_rests (hphase : Mul.UnitPhase s.es.mul s.es.divider)
    (hplain : liveEs s = true → StackPlain s)
    (hrest : Mul.Rest (next cfg s.unstacked.calm i).es.mul (next cfg s.unstacked.calm i).es.divider) :
    UnitAgrees cfg imem (next cfg s i).unstacked.calm i' := by
  apply unitAgrees_of_calm
  apply unit_calm_rest hphase
  have hsame := @unitNext_unstacked cfg s i s.es.mul.calm (Mul.calmDivider s.es.mul s.es.divider) hplain
  show Mul.Rest (Mul.unitNext s.es.mul.calm (Mul.calmDivider s.es.mul s.es.divider)
      (ExeStage.mulPorts s.es (exePorts cfg s i))).1
    (Mul.unitNext s.es.mul.calm (Mul.calmDivider s.es.mul s.es.divider)
      (ExeStage.mulPorts s.es (exePorts cfg s i))).2
  rw [← hsame]
  exact hrest

/-- Also when a trap or a return throws its operation away. -/
theorem unit_killed (hphase : Mul.UnitPhase s.es.mul s.es.divider) (hflag : exceptionFlag s i = true) :
    UnitAgrees cfg imem (next cfg s i).unstacked.calm i' := by
  apply unitAgrees_of_calm
  have hkill : (ExeStage.mulPorts s.es (exePorts cfg s i)).kill = true := by
    show (s.es.buf.main.dsFlush || exceptionFlag s i) = true
    rw [hflag, Bool.or_true]
  exact Mul.rest_of_kill hphase hkill

end Cpu
end RiscvCpu
