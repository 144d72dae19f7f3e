import RiscvCpu.Csr.Registers
import RiscvCpu.Refine.Access
import RiscvCpu.Refine.Predict

/-!
# Misaligned — no instruction at a misaligned pc takes effect

A branch or jump to a misaligned target traps only in the memory stage, when fetch has long gone
there.  What keeps the target's instruction from acting is that the head of the pipeline is aligned
in every cycle but the one of the trap, and in that cycle everything behind the memory stage is
flushed.
-/

namespace RiscvCpu

theorem RegfileCsr.mtvec_write (f : File) (a : BitVec 12) (x : Word) :
    (f.write a x).mtvec = if a = Csr.MTVEC then x else f.mtvec := by
  have hread (g : File) : g.read Csr.MTVEC = some g.mtvec := rfl
  have hnew := hread (f.write a x)
  by_cases ha : a = Csr.MTVEC
  · rw [if_pos ha]
    rw [ha] at hnew ⊢
    rw [f.read_write Csr.MTVEC x rfl, if_pos rfl] at hnew
    exact (Option.some.inj hnew).symm
  · rw [if_neg ha]
    rw [f.read_write_other x (Ne.symm ha), hread f] at hnew
    exact (Option.some.inj hnew).symm

open Decode

namespace Cpu

/-! ## A run over a fixed program -/

section Program

variable (cfg : Config) (s₀ : Cpu) (imem : Word → Word) (inp : Nat → CpuIn)

/-- The instruction memory answers a request in the next cycle and holds its output otherwise.  The
data memory and the interrupt are not restricted. -/
def FetchesFrom : Prop :=
  ∀ t, (inp (t + 1)).imemRdata =
    if imemEn cfg (run cfg s₀ inp t) (inp t) then imem (imemAddr cfg (run cfg s₀ inp t))
    else (inp t).imemRdata

/-- Every write to `mtvec` is a multiple of four. -/
def VectorAligned : Prop :=
  ∀ t, csrWe (run cfg s₀ inp t) (inp t) = true →
    MemStage.csrWaddr (run cfg s₀ inp t).ms = Csr.MTVEC →
    (csrPorts cfg (run cfg s₀ inp t) (inp t)).csrWdata.toNat % 4 = 0

end Program

variable {cfg : Config} {imem : Word → Word} {s : Cpu} {i : CpuIn} {rdata : Word}

/-! ## The trap of a misaligned target -/

theorem low_bits_bne (x : Word) : (x.extractLsb' 0 2 != 0b00#2) = false ↔ x.toNat % 4 = 0 := by
  rw [bne, Datapath.low_bits_beq]
  simp [Isa.offset]

/-- The memory stage traps on the target of the instruction it holds. -/
theorem exceptionFlag_of_iam (h : MemStage.exceptionIam s.ms = true) : exceptionFlag s i = true := by
  have hfl : MemStage.msFlush s.ms = false := by
    simp only [MemStage.exceptionIam, Bool.and_eq_true, Bool.not_eq_true'] at h
    exact h.2
  have hcode : exceptionCode s i = Exc.IAM := by
    simp [exceptionCode, MemStage.exceptionCode, hfl, h]
  rw [exceptionFlag, RegfileCsr.exceptionFlag, hcode]
  rfl

theorem not_iam_of_quiet (h : exceptionFlag s i = false) : MemStage.exceptionIam s.ms = false := by
  cases hiam : MemStage.exceptionIam s.ms with
  | false => rfl
  | true =>
      rw [exceptionFlag_of_iam hiam] at h
      cases h

/-- An instruction that leaves execute unflushed traps next if and only if it jumps to a misaligned
target. -/
theorem next_iam (hc : Control s) (hlive : liveEs s = true) (hexc : exceptionFlag s i = false)
    (hmove : esToMsValid cfg s i = true) :
    MemStage.exceptionIam (next cfg s i).ms =
      (ExeStage.brTaken s.es (exePorts cfg s i) &&
        (ExeStage.brTarget s.es).extractLsb' 0 2 != 0b00#2) := by
  rcases liveMs_parts (next_liveMs hc hlive hexc hmove) with ⟨hv, hfl⟩
  have hmain : (next cfg s i).ms.buf.main = msPayload cfg s i := by
    rw [next_ms_main hc, if_pos hmove]
  rw [MemStage.exceptionIam, MemStage.msValid, hv, hfl, hmain, Bool.true_and, Bool.not_false,
    Bool.and_true]
  rfl

/-- What goes on untrapped goes to an aligned target. -/
theorem target_aligned (hc : Control s) (hlive : liveEs s = true) (hexc : exceptionFlag s i = false)
    (hmove : esToMsValid cfg s i = true)
    (hno : MemStage.exceptionIam (next cfg s i).ms = false)
    (htaken : ExeStage.brTaken s.es (exePorts cfg s i) = true) :
    (ExeStage.brTarget s.es).toNat % 4 = 0 := by
  rw [next_iam hc hlive hexc hmove, htaken, Bool.true_and, low_bits_bne] at hno
  exact hno

theorem add_four_aligned {x : Word} (h : x.toNat % 4 = 0) : (x + 4#32).toNat % 4 = 0 := by
  rw [BitVec.toNat_add]
  have h4 : (4#32).toNat = 4 := rfl
  omega

/-! ## The invariant -/

/-- Where the pipeline goes on is aligned, except in the cycle of the trap of a misaligned target. -/
structure AlignedPath (cfg : Config) (imem : Word → Word) (s : Cpu) (rdata : Word) : Prop where
  control : Control s
  fetched : Fetched imem s rdata
  predict : Predict imem s
  flow : Flow cfg s
  vector : s.csr.file.mtvec.toNat % 4 = 0
  head : MemStage.exceptionIam s.ms = false → (headPc cfg s).toNat % 4 = 0
  ms : liveMs s = true → s.ms.buf.main.bus.pc.toNat % 4 = 0
  ws : (WbStage.regfileWen s.ws || WbStage.regFpuWen s.ws) = true →
    s.ws.msWsBusR.pc.toNat % 4 = 0

theorem pcStart_aligned (cfg : Config) : cfg.pcStart.toNat % 4 = 0 := by
  unfold Config.pcStart
  split <;> rfl

theorem alignedPath_reset (s₀ : Cpu) : AlignedPath cfg imem s₀.reset rdata :=
  { control := control_reset s₀
    fetched := fetched_reset s₀
    predict := predict_reset s₀
    flow := flow_reset s₀
    vector := rfl
    head := fun _ => pcStart_aligned cfg
    ms := by intro h; cases h
    ws := by intro h; cases h }

namespace AlignedPath

theorem es (h : AlignedPath cfg imem s rdata) (hlive : liveEs s = true)
    (hexc : exceptionFlag s i = false) : s.es.buf.main.bus.ctrl.pc.toNat % 4 = 0 := by
  have hhead := h.head (not_iam_of_quiet hexc)
  rwa [headPc, if_pos hlive] at hhead

theorem exceptionAddr_aligned (h : AlignedPath cfg imem s rdata) :
    (exceptionAddr s i).toNat % 4 = 0 := by
  rw [exceptionAddr, RegfileCsr.exceptionAddr]
  split
  -- the return address loses its low bits
  · rw [BitVec.toNat_append, Nat.shiftLeft_eq]
    simp
  · exact h.vector

/-- The branch that redirects goes to its target, or to the next word. -/
theorem redirect_aligned (h : AlignedPath cfg imem s rdata) (hbr : brRedirect cfg s i = true)
    (hno : MemStage.exceptionIam (next cfg s i).ms = false) :
    (brRedirectTarget cfg s i).toNat % 4 = 0 := by
  rcases esMoves_of_brRedirect h.control hbr with ⟨hlive, hexc, hmove⟩
  rw [brRedirectTarget, ExeStage.brRedirectTarget]
  split
  · rename_i htaken
    exact target_aligned h.control hlive hexc hmove hno htaken
  · exact add_four_aligned (h.es hlive hexc)

/-- The instruction that leaves execute without a redirect went as predicted. -/
theorem hop_aligned (h : AlignedPath cfg imem s rdata) (hflush : pipeFlush cfg s i = false)
    (hlive : liveEs s = true) (hmove : esToMsValid cfg s i = true)
    (hno : MemStage.exceptionIam (next cfg s i).ms = false) :
    (esHop s.es.buf.main).target.toNat % 4 = 0 := by
  rcases Bool.or_eq_false_iff.mp hflush with ⟨hexc, hbr⟩
  have hv := (liveEs_parts hlive).1
  have hpc := h.es hlive hexc
  cases hpred : s.es.buf.main.bus.brJmp.bpPredTaken with
  | false =>
      simp only [esHop, hop, hpred, Bool.false_eq_true, if_false]
      exact add_four_aligned hpc
  | true =>
      -- only a branch or a jump is predicted taken, and this one was predicted right
      have hjmp : s.es.buf.main.bus.ctrl.isBrJmp = true := by
        have hword := h.predict.esMain hv hpred hpc
        rw [(h.fetched.esMain hv).decoded.ctrl]
        exact hword
      have hctrl : (ExeStage.bus s.es).ctrl.isBrJmp = true := hjmp
      have hpred' : (ExeStage.bus s.es).brJmp.bpPredTaken = true := hpred
      rw [brRedirect, ExeStage.brRedirect, esFlush_of_live hlive hexc, hctrl, hpred'] at hbr
      simp only [Bool.not_false, Bool.true_and, Bool.or_eq_false_iff, bne_eq_false_iff_eq] at hbr
      rcases hbr with ⟨htaken, htarget⟩
      rw [htaken, Bool.true_and, bne_eq_false_iff_eq] at htarget
      have hal := target_aligned h.control hlive hexc hmove hno htaken
      rw [htarget] at hal
      simp only [esHop, hop, hpred, if_true]
      exact hal

theorem next_head (h : AlignedPath cfg imem s rdata)
    (hno : MemStage.exceptionIam (next cfg s i).ms = false) :
    (headPc cfg (next cfg s i)).toNat % 4 = 0 := by
  cases hflush : pipeFlush cfg s i with
  | true =>
      rw [(next_of_pipeFlush h.control hflush).2.2.2.2, flushTarget]
      split
      · exact h.exceptionAddr_aligned
      · rename_i hexc
        have hbr : brRedirect cfg s i = true := by simpa [pipeFlush, hexc] using hflush
        exact h.redirect_aligned hbr hno
  | false =>
      cases hleave : liveEs s && esToMsValid cfg s i with
      | true =>
          rcases Bool.and_eq_true_iff.mp hleave with ⟨hlive, hmove⟩
          rw [headPc_of_leaving h.control h.flow hflush hlive hmove]
          exact h.hop_aligned hflush hlive hmove hno
      | false =>
          rw [next_headPc h.control hflush hleave]
          exact h.head (not_iam_of_quiet (Bool.or_eq_false_iff.mp hflush).1)

theorem next_ms (h : AlignedPath cfg imem s rdata) (hlive : liveMs (next cfg s i) = true) :
    (next cfg s i).ms.buf.main.bus.pc.toNat % 4 = 0 := by
  rcases head_of_next_liveMs h.control hlive with ⟨-, hexc, hpc⟩
  rw [hpc]
  exact h.head (not_iam_of_quiet hexc)

theorem next_ws (h : AlignedPath cfg imem s rdata)
    (hw : (WbStage.regfileWen (next cfg s i).ws || WbStage.regFpuWen (next cfg s i).ws) = true) :
    (next cfg s i).ws.msWsBusR.pc.toNat % 4 = 0 := by
  rcases @next_ws_bus cfg s i h.control with ⟨hvalid, hbus⟩
  rw [WbStage.regfileWen, WbStage.regFpuWen, hvalid] at hw
  have hv : s.ms.buf.valid = true := by
    rw [Bool.or_eq_true, Bool.and_eq_true, Bool.and_eq_true] at hw
    rcases hw with hw | hw
    · exact hw.1
    · exact hw.1
  rw [hbus hv, hv] at hw
  have hfl : MemStage.msFlush s.ms = false := by
    simp only [MemStage.msToWsBus, MemStage.memRegfileWen, MemStage.memRegFpuWen, Bool.or_eq_true,
      Bool.and_eq_true, Bool.not_eq_true'] at hw
    rcases hw with hw | hw
    · exact hw.2.1.2
    · exact hw.2.1.2
  rw [hbus hv]
  exact h.ms (by simp [liveMs, hv, hfl])

theorem next_vector (h : AlignedPath cfg imem s rdata)
    (hwrite : csrWe s i = true → MemStage.csrWaddr s.ms = Csr.MTVEC →
      (csrPorts cfg s i).csrWdata.toNat % 4 = 0) :
    (next cfg s i).csr.file.mtvec.toNat % 4 = 0 := by
  show (RegfileCsr.fileNext s.csr (csrPorts cfg s i)).mtvec.toNat % 4 = 0
  rw [RegfileCsr.fileNext]
  split
  · rename_i hwe
    rw [RegfileCsr.mtvec_write]
    split
    · rename_i haddr
      exact hwrite hwe haddr
    · exact h.vector
  -- a trap and a return leave the vector alone
  · split
    · exact h.vector
    · split
      · exact h.vector
      · exact h.vector

theorem next (h : AlignedPath cfg imem s i.imemRdata)
    (hrdata : rdata = if imemEn cfg s i then imem (imemAddr cfg s) else i.imemRdata)
    (hwrite : csrWe s i = true → MemStage.csrWaddr s.ms = Csr.MTVEC →
      (csrPorts cfg s i).csrWdata.toNat % 4 = 0) :
    AlignedPath cfg imem (Cpu.next cfg s i) rdata :=
  { control := control_next h.control
    fetched := fetched_next h.control h.fetched hrdata
    predict := predict_next h.predict h.fetched.esMain fun hlive hexc => h.es hlive hexc
    flow := flow_next h.control h.flow
    vector := h.next_vector hwrite
    head := h.next_head
    ms := h.next_ms
    ws := h.next_ws }

end AlignedPath

section Run

variable (s₀ : Cpu) {inp : Nat → CpuIn}

theorem alignedPath_run (hfetch : FetchesFrom cfg s₀ imem inp) (hvec : VectorAligned cfg s₀ inp)
    (t : Nat) : AlignedPath cfg imem (run cfg s₀ inp t) (inp t).imemRdata := by
  induction t with
  | zero => exact alignedPath_reset s₀
  | succ t ih => exact ih.next (hfetch t) (hvec t)

/-- Wherever a label is, its pc is the address of the request it was made with. -/
def Originates (cfg : Config) (s₀ : Cpu) (inp : Nat → CpuIn) (l : Label) : Prop :=
  ∀ m, l.seq = m + 1 → l.pc = imemAddr cfg (run cfg s₀ inp m)

theorem labels_originate (cfg : Config) (inp : Nat → CpuIn) (t : Nat) :
    Originates cfg s₀ inp (labelsAt cfg s₀ inp t).fs ∧
    Originates cfg s₀ inp (labelsAt cfg s₀ inp t).dsMain ∧
    Originates cfg s₀ inp (labelsAt cfg s₀ inp t).dsSkid ∧
    Originates cfg s₀ inp (labelsAt cfg s₀ inp t).esMain ∧
    Originates cfg s₀ inp (labelsAt cfg s₀ inp t).esSkid ∧
    Originates cfg s₀ inp (labelsAt cfg s₀ inp t).ms ∧
    Originates cfg s₀ inp (labelsAt cfg s₀ inp t).ws := by
  induction t with
  | zero =>
      have hnone : Originates cfg s₀ inp ⟨0, 0#32, 0#32⟩ := by
        intro m h
        cases h
      exact ⟨hnone, hnone, hnone, hnone, hnone, hnone, hnone⟩
  | succ t ih =>
      rcases ih with ⟨hfs, hdm, hdsk, hem, hesk, hms, hws⟩
      have hnew : Originates cfg s₀ inp ⟨t + 1, imemAddr cfg (run cfg s₀ inp t), 0#32⟩ := by
        intro m h
        cases h
        rfl
      have hbus : Originates cfg s₀ inp ((labelsAt cfg s₀ inp t).onBus (inp t)) := hfs
      simp only [labelsAt, Labels.next, SkidBuffer.nextMain, SkidBuffer.nextSkid]
      refine ⟨?_, ?_, ?_, ?_, ?_, ?_, ?_⟩ <;> repeat' split
      all_goals assumption

/-- Whatever has an effect was requested at an aligned address. -/
theorem AlignedPath.origin_aligned {t q : Nat} {e : Effect}
    (h : AlignedPath cfg imem (run cfg s₀ inp t) rdata)
    (hp : Performs cfg (run cfg s₀ inp t) (inp t) (labelsAt cfg s₀ inp t) e (q + 1)) :
    (imemAddr cfg (run cfg s₀ inp q)).toNat % 4 = 0 := by
  have hlab := labelled_run cfg s₀ inp t
  rcases labels_originate s₀ cfg inp t with ⟨-, -, -, hem, -, hms, hws⟩
  -- the effects of execute come from its live instruction
  have hexe : e ≠ .registerWrite → e ≠ .csrWrite →
      (imemAddr cfg (run cfg s₀ inp q)).toNat % 4 = 0 := by
    intro h1 h2
    rcases es_moves_of_performs h.control hp h1 h2 with ⟨hseq, hv, hf, hexc, -⟩
    rw [← hem q hseq, ← hlab.esMain.1]
    exact h.es (by simp [liveEs, hv, hf]) hexc
  cases e with
  | registerWrite =>
      rcases hp with ⟨hwen, hseq⟩
      rw [← hws q hseq, ← hlab.ws.1]
      exact h.ws hwen
  | csrWrite =>
      rcases hp with ⟨hwe, hseq⟩
      simp only [csrWe, MemStage.csrWe, MemStage.msValid, Bool.and_eq_true, Bool.not_eq_true'] at hwe
      rw [← hms q hseq, ← hlab.ms.1]
      exact h.ms (by simp [liveMs, hwe])
  | dataRequest => exact hexe (by simp) (by simp)
  | stackWrite => exact hexe (by simp) (by simp)
  | predictorUpdate => exact hexe (by simp) (by simp)

/-- A taken branch or a jump with a misaligned target raises `IAM` in the next cycle. -/
theorem AlignedPath.jump_traps (hF : ∀ a, usesF (imem a) = false)
    (h : AlignedPath cfg imem s rdata) (hv : s.es.buf.valid = true)
    (htaken : ExeStage.brTaken s.es (exePorts cfg s i) = true)
    (hmis : (ExeStage.brTarget s.es).toNat % 4 ≠ 0) (i' : CpuIn) :
    esToMsValid cfg s i = true ∧ liveMs (Cpu.next cfg s i) = true ∧
      exceptionCode (Cpu.next cfg s i) i' = Exc.IAM ∧
      TrapEntered s.es.buf.main.bus.ctrl.pc 0#32 (ExeStage.brTarget s.es)
        (Cpu.next cfg s i).csr.file (Cpu.next cfg (Cpu.next cfg s i) i').csr.file := by
  -- it is unflushed, and as a branch it leaves execute at once
  have hflush : ExeStage.esFlush s.es (exePorts cfg s i) = false := by
    cases hf : ExeStage.esFlush s.es (exePorts cfg s i) with
    | false => rfl
    | true => simp [ExeStage.brTaken, hf] at htaken
  rcases Bool.or_eq_false_iff.mp hflush with ⟨hf, hexc⟩
  have hlive : liveEs s = true := by simp [liveEs, hv, hf]
  have hword := h.fetched.esMain hv
  have hmem : MemPayloadOf (imem s.es.buf.main.bus.ctrl.pc) (msPayload cfg s i) :=
    memPayloadOf_of_payloadOf hv hword
  have hjmp : s.es.buf.main.bus.ctrl.isBrJmp = true := by
    rw [hword.decoded.ctrl]
    exact hmem.brTaken htaken
  have hmove : esToMsValid cfg s i = true :=
    esToMsValid_of_not_isMul hv (isMul_of_isBrJmp h.control hjmp)
  have hlive' := next_liveMs h.control hlive hexc hmove
  have hmain : (Cpu.next cfg s i).ms.buf.main = msPayload cfg s i := by
    rw [next_ms_main h.control, if_pos hmove]
  have hx : MemPayloadOf (imem s.es.buf.main.bus.ctrl.pc) (Cpu.next cfg s i).ms.buf.main := by
    rw [hmain]
    exact hmem
  have hcause : trapCause (Cpu.next cfg s i) i' (imem s.es.buf.main.bus.ctrl.pc) =
      some .instructionMisaligned := by
    have hlow : ((msTarget (Cpu.next cfg s i)).extractLsb' 0 2 != 0b00#2) = true := by
      rw [msTarget, hmain]
      cases hb : ((ExeStage.brTarget s.es).extractLsb' 0 2 != 0b00#2) with
      | true => exact hb
      | false => exact absurd ((low_bits_bne _).mp hb) hmis
    have htaken' : (Cpu.next cfg s i).ms.buf.main.exc.brTaken = true := by
      rw [hmain]
      exact htaken
    rw [trapCause, htaken', hlow]
    rfl
  refine ⟨hmove, hlive', ?_, ?_⟩
  · rw [exceptionCode_eq hlive' hx (hF _), hcause]
    rfl
  · have hentered := @trap_entered cfg (Cpu.next cfg s i) i' _ hlive' hx (hF _) _ hcause
    rw [hmain] at hentered
    rw [trapValue, msTarget, hmain] at hentered
    exact hentered

/-- No instruction at a misaligned pc takes effect: it does not reach the memory stage unflushed, the
jump to it traps there as itself, and nothing requested at its address ever acts. -/
theorem misaligned_takes_no_effect (hF : ∀ a, usesF (imem a) = false)
    (hfetch : FetchesFrom cfg s₀ imem inp) (hvec : VectorAligned cfg s₀ inp) :
    (∀ t, liveMs (run cfg s₀ inp t) = true →
      (run cfg s₀ inp t).ms.buf.main.bus.pc.toNat % 4 = 0) ∧
    -- a taken branch, `JAL` or `JALR`; `br_taken` is low under a flush
    (∀ t, (run cfg s₀ inp t).es.buf.valid = true →
      ExeStage.brTaken (run cfg s₀ inp t).es (exePorts cfg (run cfg s₀ inp t) (inp t)) = true →
      (ExeStage.brTarget (run cfg s₀ inp t).es).toNat % 4 ≠ 0 →
      liveMs (run cfg s₀ inp (t + 1)) = true ∧
      (labelsAt cfg s₀ inp (t + 1)).ms.seq = (labelsAt cfg s₀ inp t).esMain.seq ∧
      exceptionCode (run cfg s₀ inp (t + 1)) (inp (t + 1)) = Exc.IAM ∧
      TrapEntered (run cfg s₀ inp t).es.buf.main.bus.ctrl.pc 0#32
        (ExeStage.brTarget (run cfg s₀ inp t).es)
        (run cfg s₀ inp (t + 1)).csr.file (run cfg s₀ inp (t + 2)).csr.file ∧
      ∀ n, ¬ Performs cfg (run cfg s₀ inp n) (inp n) (labelsAt cfg s₀ inp n) .registerWrite
        (labelsAt cfg s₀ inp t).esMain.seq) ∧
    -- what was requested at a misaligned address in cycle `m`
    (∀ m, imemEn cfg (run cfg s₀ inp m) (inp m) = true →
      (imemAddr cfg (run cfg s₀ inp m)).toNat % 4 ≠ 0 → ∀ n e,
      ¬ Performs cfg (run cfg s₀ inp n) (inp n) (labelsAt cfg s₀ inp n) e (m + 1)) := by
  have hpath := alignedPath_run s₀ hfetch hvec
  refine ⟨fun t => (hpath t).ms, ?_, ?_⟩
  · intro t hv htaken hmis
    rcases (hpath t).jump_traps hF hv htaken hmis (inp (t + 1)) with
      ⟨hmove, hlive, hcode, hentered⟩
    have hseq : (labelsAt cfg s₀ inp (t + 1)).ms.seq = (labelsAt cfg s₀ inp t).esMain.seq := by
      rw [labelsAt, Labels.next_ms (hpath t).control, if_pos hmove]
    refine ⟨hlive, hseq, hcode, hentered, ?_⟩
    intro n
    rw [← hseq]
    refine (trapped_writes_nothing cfg s₀ inp ?_ n).1
    have hcode' : exceptionCode (run cfg s₀ inp (t + 1)) (inp (t + 1)) = Exc.IAM := hcode
    rw [exceptionFlag, RegfileCsr.exceptionFlag, hcode']
    rfl
  · intro m _ hmis n e hp
    exact hmis ((hpath n).origin_aligned s₀ hp)

/-! ## The closed system -/

theorem fetched_run (hfetch : FetchesFrom cfg s₀ imem inp) (t : Nat) :
    Fetched imem (run cfg s₀ inp t) (inp t).imemRdata := by
  induction t with
  | zero => exact fetched_reset s₀
  | succ t ih => exact fetched_next (control_run cfg s₀ inp t) ih (hfetch t)

/-- A program that writes no CSR keeps its trap vector. -/
theorem vectorAligned_of_no_csrWen (hfetch : FetchesFrom cfg s₀ imem inp)
    (hno : ∀ a, csrWen (imem a) = false) : VectorAligned cfg s₀ inp := by
  intro t hwe _
  simp only [csrWe, MemStage.csrWe, MemStage.msValid, Bool.and_eq_true, Bool.not_eq_true'] at hwe
  rcases hwe with ⟨⟨⟨hv, hwen⟩, -⟩, -⟩
  cases t with
  | zero => cases hv
  | succ t =>
      -- it came from execute, with the word of its pc
      have hc := control_run cfg s₀ inp t
      have hmove : esToMsValid cfg (run cfg s₀ inp t) (inp t) = true := by
        rw [← next_ms_valid hc]
        exact hv
      have hv' := (esToMsValid_parts hmove).1
      have hword : MemPayloadOf (imem (run cfg s₀ inp t).es.buf.main.bus.ctrl.pc)
          (msPayload cfg (run cfg s₀ inp t) (inp t)) :=
        memPayloadOf_of_payloadOf hv' ((fetched_run s₀ hfetch t).esMain hv')
      have hmain : (run cfg s₀ inp (t + 1)).ms.buf.main = msPayload cfg (run cfg s₀ inp t) (inp t) :=
        (next_ms_main hc).trans (if_pos hmove)
      rw [MemStage.bus, hmain] at hwen
      have hsome := hword.csrWen.symm.trans hwen
      rw [hno, Bool.false_and] at hsome
      cases hsome

end Run

end Cpu

namespace Tb

theorem run_cpu (cfg : Config) (imem : Word → Word) (cpu : Cpu) (dmem : DMem) (t : Nat) :
    Cpu.run cfg cpu (fun k => (run cfg imem cpu dmem k).inputs) t =
      (run cfg imem cpu dmem t).cpu := by
  induction t with
  | zero => rfl
  | succ t ih =>
      show Cpu.next cfg (Cpu.run cfg cpu (fun k => (run cfg imem cpu dmem k).inputs) t) _ = _
      rw [ih]
      rfl

/-- The core between its one-cycle memories runs the program in the instruction memory. -/
theorem fetchesFrom_run (cfg : Config) (imem : Word → Word) (cpu : Cpu) (dmem : DMem) :
    Cpu.FetchesFrom cfg cpu imem (fun k => (run cfg imem cpu dmem k).inputs) := by
  intro t
  rw [run_cpu]
  rfl

/-- `jal x1, 2` at the reset address, and `nop` elsewhere. -/
def jumpToOdd (a : Word) : Word := if a = 0x8000_0000#32 then 0x002000ef#32 else 0x00000013#32

def jumpRun (n : Nat) : CpuIn := (run Cpu.plainBuild jumpToOdd Cpu.zero (fun _ => 0#32) n).inputs

theorem jumpToOdd_words (a : Word) : usesF (jumpToOdd a) = false ∧ csrWen (jumpToOdd a) = false := by
  unfold jumpToOdd
  split <;> decide

/-- The jump is in execute in cycle 4. -/
theorem misaligned_takes_no_effect_jal :
    (Cpu.run Cpu.plainBuild Cpu.zero jumpRun 6).csr.file.mepc = 0x8000_0000#32 ∧
      (Cpu.run Cpu.plainBuild Cpu.zero jumpRun 6).csr.file.mtval = 0x8000_0002#32 := by
  have hfetch := fetchesFrom_run Cpu.plainBuild jumpToOdd Cpu.zero fun _ => 0#32
  have hvec := Cpu.vectorAligned_of_no_csrWen Cpu.zero hfetch fun a => (jumpToOdd_words a).2
  have htrap := (Cpu.misaligned_takes_no_effect Cpu.zero (fun a => (jumpToOdd_words a).1) hfetch
    hvec).2.1 4 (by decide +kernel) (by decide +kernel) (by decide +kernel)
  have hpc : (Cpu.run Cpu.plainBuild Cpu.zero jumpRun 4).es.buf.main.bus.ctrl.pc =
      0x8000_0000#32 := by decide +kernel
  have htarget : ExeStage.brTarget (Cpu.run Cpu.plainBuild Cpu.zero jumpRun 4).es =
      0x8000_0002#32 := by decide +kernel
  exact ⟨htrap.2.2.2.1.mepc.trans hpc, htrap.2.2.2.1.mtval.trans htarget⟩

end Tb
end RiscvCpu
