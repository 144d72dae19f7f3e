import RiscvCpu.Refine.Operands

/-!
# Retire — the live instruction leaves execute

What leaves execute raises no exception, is written back two cycles later, and decode hands its
successor the registers of the sequential machine after it.
-/

namespace RiscvCpu

open Decode

namespace Datapath

/-! ## Aligned instructions trap on nothing -/

variable {x : Word} {σ : Isa.State} {a b : Word} {ins : Isa.Instr}

/-- The address of a data request that agrees. -/
theorem address_of_request {q : Isa.Request} (h : request x a b = some q) :
    (memOp x).any = true ∧ a + memImm x = q.addr := by
  simp only [request] at h
  split at h
  · rename_i hany
    cases h
    exact ⟨hany, rfl⟩
  · cases h

/-- A load or store of the instruction set presents a request. -/
theorem memOp_any_of_isMemInst (henc : Isa.Encodes x ins)
    (h : Agrees x σ a b (Isa.outcome σ ins)) (hmem : isMemInst x = true) :
    (memOp x).any = true := by
  have hf := (usesF_of_isaOpcode (isaOpcode_of_encodes henc)).1
  simp only [isMemInst, instFlw_eq_false hf, instFsw_eq_false hf, Bool.or_false] at hmem
  cases henc with
  | load o hop ho => exact (address_of_request h.request).1
  | store o hop ho => exact (address_of_request h.request).1
  | lui hop | auipc hop | jal hop | jalr hop | fence hop =>
      have hop' : opcode x = _ := hop
      simp [isLoad, isStore, hop'] at hmem
  | branch _ hop _ | imm _ hop _ | shamt _ hop _ | unary _ hop _ | op _ hop _ =>
      have hop' : opcode x = _ := hop
      simp [isLoad, isStore, hop'] at hmem

theorem low_bits_zero {addr : Word} (h : addr.toNat % 4 = 0) :
    (addr.extractLsb' 0 2 != 0b00#2) = false := by
  rw [bne, low_bits_beq, Isa.offset, h]
  rfl

theorem bit_zero {addr : Word} (h : addr.toNat % 2 = 0) : addr.getLsbD 0 = false := by
  rw [BitVec.getLsbD, Nat.testBit_eq_decide_div_mod_eq]
  simp [h]

/-- An address that is a multiple of the size of the access passes both checks. -/
theorem aligned_passes {addr : Word} {size : Nat} {word half : Bool} (hal : addr.toNat % size = 0)
    (hword : word = true → size = 4) (hhalf : half = true → size = 2) :
    ((word && (addr.extractLsb' 0 2 != 0b00#2)) || (half && addr.getLsbD 0)) = false := by
  cases hw : word with
  | true =>
      rw [hword hw] at hal
      have hbit := @bit_zero addr (by omega)
      simp only [low_bits_zero hal, hbit, Bool.and_false, Bool.or_false]
  | false =>
      cases hh : half with
      | true =>
          rw [hhalf hh] at hal
          simp only [bit_zero hal, Bool.and_false, Bool.false_and, Bool.or_false]
      | false => rfl

theorem not_misaligned (henc : Isa.Encodes x ins) (hal : ins.aligned σ)
    (h : Agrees x σ a b (Isa.outcome σ ins)) :
    misalignedLoad x (a + memImm x) = false ∧ misalignedStore x (a + memImm x) = false := by
  cases henc with
  | load o hop ho =>
      have hop' : opcode x = 0b0000011#7 := hop
      have hal' : (σ.read (Isa.rs1 x) + Isa.immI x).toNat % o.size = 0 := hal
      rw [(address_of_request h.request).2]
      refine ⟨?_, by simp [misalignedStore, Decode.instSw, Decode.instSh, isStore, hop']⟩
      have hload : isLoad x = true := by simp [isLoad, hop']
      -- the function field of a load fixes the size of the access
      have hf3 : ∀ e ∈ Isa.loadTable,
          ((e.1 == 0b010#3) = true → e.2.size = 4) ∧
            ((e.1 == 0b001#3 || e.1 == 0b101#3) = true → e.2.size = 2) := by
        decide
      rcases hf3 _ ho with ⟨hword, hhalf⟩
      simp only [misalignedLoad, Decode.instLw, Decode.instLh, Decode.instLhu, hload, f3_010,
        f3_001, f3_101, Bool.true_and, Isa.loadRequest]
      exact aligned_passes hal' hword hhalf
  | store o hop ho =>
      have hop' : opcode x = 0b0100011#7 := hop
      have hal' : (σ.read (Isa.rs1 x) + Isa.immS x).toNat % o.size = 0 := hal
      rw [(address_of_request h.request).2]
      refine ⟨by simp [misalignedLoad, Decode.instLw, Decode.instLh, Decode.instLhu, isLoad, hop'],
        ?_⟩
      have hstore : isStore x = true := by simp [isStore, hop']
      -- and so does that of a store
      have hf3 : ∀ e ∈ Isa.storeTable,
          ((e.1 == 0b010#3) = true → e.2.size = 4) ∧
            ((e.1 == 0b001#3) = true → e.2.size = 2) := by
        decide
      rcases hf3 _ ho with ⟨hword, hhalf⟩
      simp only [misalignedStore, Decode.instSw, Decode.instSh, hstore, f3_010, f3_001,
        Bool.true_and, Isa.storeRequest]
      exact aligned_passes hal' hword hhalf
  | lui hop | auipc hop | jal hop | jalr hop | fence hop =>
      have hop' : opcode x = _ := hop
      simp [misalignedLoad, misalignedStore, Decode.instLw, Decode.instLh, Decode.instLhu,
        Decode.instSw, Decode.instSh, isLoad, isStore, hop']
  | branch _ hop _ | imm _ hop _ | shamt _ hop _ | unary _ hop _ | op _ hop _ =>
      have hop' : opcode x = _ := hop
      simp [misalignedLoad, misalignedStore, Decode.instLw, Decode.instLh, Decode.instLhu,
        Decode.instSw, Decode.instSh, isLoad, isStore, hop']

/-! ## What a register write writes -/

/-- The value written, with the memory `mem` behind a load. -/
def written (x pc a b : Word) (mem : DMem) : Word :=
  if (exeResultSel x).exe then value x pc a b
  else loadValue (loadInstOf x) (a + memImm x) (mem (wordAddr (a + memImm x)))

theorem result_eq (x pc a b : Word) (mem : DMem) :
    result x pc a b mem = if ctrlRegfileWen x then some (rdAddr x, written x pc a b mem) else none :=
  rfl

/-- `exe_result` of a load or store is its address. -/
theorem value_mem {pc : Word} (hx : isaOpcode (opcode x) = true) (hmem : isMemInst x = true) :
    value x pc a b = a + memImm x := by
  have hf := (usesF_of_isaOpcode hx).1
  have hmem' := hmem
  simp only [isMemInst, instFlw_eq_false hf, instFsw_eq_false hf, Bool.or_false, Bool.or_eq_true,
    isLoad, isStore, beq_iff_eq] at hmem'
  have hp := (plain_of_access hmem').2.1
  simp [value, hp.bitman, hp.alu, hmem]

/-- What writes a register without a result from execute is a load. -/
theorem isLoad_of_not_exe (hx : isaOpcode (opcode x) = true) (hwen : ctrlRegfileWen x = true)
    (hexe : (exeResultSel x).exe = false) : isLoad x = true := by
  rw [exeResultSel_exe_eq hx] at hexe
  rw [ctrlRegfileWen_eq hx] at hwen
  simp only [Bool.or_eq_false_iff] at hexe
  simpa [hexe] using hwen

end Datapath

namespace Cpu

variable {cfg : Config} {imem : Word → Word} {s : Cpu} {i i' : CpuIn} {σ : Isa.State}
  {ins : Isa.Instr} {rdata : Word}

/-- Execute holds the next instruction `ins` of the sequential state `σ`. -/
structure Retiring (cfg : Config) (imem : Word → Word) (s : Cpu) (i : CpuIn) (σ : Isa.State)
    (ins : Isa.Instr) : Prop where
  control : Control s
  executing : Executing cfg imem s i σ.read
  pc : s.es.buf.main.bus.ctrl.pc = σ.pc
  decode : Isa.decode (imem σ.pc) = some ins
  aligned : ins.aligned σ
  pcAligned : σ.pc.toNat % 4 = 0

/-- The multiply/divide unit works for the live instruction in execute, or rests. -/
structure UnitAgrees (cfg : Config) (imem : Word → Word) (s : Cpu) (i : CpuIn) : Prop where
  busy : liveEs s = true → isMulInst (esWord imem s) = true →
    Mul.Busy (mulPacket (esWord imem s)) (esArg1 cfg s i) (esArg2 cfg s i) s.es.mul s.es.divider
  rest : (liveEs s = true → isMulInst (esWord imem s) = false) →
    Mul.Rest s.es.mul s.es.divider

/-- The register write that the memory stage hands to write-back. -/
def msWrite (s : Cpu) (i : CpuIn) : Option Isa.Write :=
  if MemStage.memRegfileWen s.ms (exceptionFlag s i) && (MemStage.memDstAddr s.ms != 0#5) then
    some ⟨(MemStage.bus s.ms).pc, MemStage.memDstAddr s.ms, memResult s i⟩
  else none

namespace Retiring

/-! ## The instruction in execute and its outcome -/

theorem esWord_eq (h : Retiring cfg imem s i σ ins) : esWord imem s = imem σ.pc := by
  rw [esWord, h.pc]

theorem encodes (h : Retiring cfg imem s i σ ins) : Isa.Encodes (esWord imem s) ins := by
  rw [h.esWord_eq]
  exact Isa.encodes_of_decode h.decode

theorem agrees (h : Retiring cfg imem s i σ ins) :
    Datapath.Agrees (esWord imem s) σ (esArg1 cfg s i) (esArg2 cfg s i) (Isa.outcome σ ins) := by
  apply Datapath.agrees_of_encodes h.encodes h.aligned
  rw [← h.pc]
  exact h.executing.carries.operands

theorem nextPc_eq (h : Retiring cfg imem s i σ ins) :
    Datapath.nextPc (esWord imem s) s.es.buf.main.bus.ctrl.pc (esArg1 cfg s i) (esArg2 cfg s i) =
      (Isa.step imem σ).pc := by
  rw [h.pc, (Isa.step_of_decode h.decode).1]
  exact h.agrees.nextPc

theorem request_eq (h : Retiring cfg imem s i σ ins) :
    request cfg s i = σ.request? imem := by
  rw [h.executing.request_eq, (Isa.step_of_decode h.decode).2.2]
  exact h.agrees.request

theorem write_eq (h : Retiring cfg imem s i σ ins) :
    σ.write? imem =
      if ctrlRegfileWen (esWord imem s) && (rdAddr (esWord imem s) != 0#5) then
        some ⟨σ.pc, rdAddr (esWord imem s),
          Datapath.written (esWord imem s) σ.pc (esArg1 cfg s i) (esArg2 cfg s i) σ.mem⟩
      else none := by
  have hres := h.agrees.result
  rw [Datapath.result_eq] at hres
  rw [(Isa.step_of_decode h.decode).2.1, Isa.Outcome.write, ← hres]
  cases ctrlRegfileWen (esWord imem s) with
  | false => rfl
  | true =>
      by_cases hrd : rdAddr (esWord imem s) = 0#5
      · simp [hrd]
      · simp [hrd]

end Retiring

/-! ## The multiply/divide unit -/

theorem operation_of_isMulInst {x : Word} (h : isMulInst x = true) :
    Mul.Operation (mulPacket x) := by
  have hop := opcode_of_isMulInst h
  rw [isMulInst_reg hop, beq_iff_eq] at h
  rw [mulPacket_reg hop, h]
  generalize funct3 x = f
  have hf : f = 0b000#3 ∨ f = 0b001#3 ∨ f = 0b010#3 ∨ f = 0b011#3 ∨ f = 0b100#3 ∨ f = 0b101#3 ∨
      f = 0b110#3 ∨ f = 0b111#3 := by
    revert f
    decide
  rcases hf with rfl | rfl | rfl | rfl | rfl | rfl | rfl | rfl
  · exact .mul true true
  · exact .mulh true true
  · exact .mulh true false
  · exact .mulh false false
  · exact .div true
  · exact .div false
  · exact .rem true
  · exact .rem false

namespace Retiring

theorem isMul_eq (h : Retiring cfg imem s i σ ins) :
    s.es.buf.main.bus.ctrl.isMul = isMulInst (esWord imem s) := by
  have hctrl := h.executing.word.decoded.ctrl
  rw [hctrl]
  rfl

theorem mulStall_of_ready (h : Retiring cfg imem s i σ ins)
    (hmul : isMulInst (esWord imem s) = true) (hready : esReadyGo cfg s i = true) :
    Mul.mulStall s.es.mul
      (Mul.busyPorts (mulPacket (esWord imem s)) (esArg1 cfg s i) (esArg2 cfg s i)) = false := by
  rw [← h.executing.mulPorts_eq h.control hmul]
  simp only [esReadyGo, ExeStage.esReadyGo, Bool.and_eq_true, Bool.not_eq_true'] at hready
  exact hready.1

/-- A multiplication or division that leaves execute shows its value and frees the unit. -/
theorem unit_of_ready (h : Retiring cfg imem s i σ ins) (hu : UnitAgrees cfg imem s i)
    (hmul : isMulInst (esWord imem s) = true) (hready : esReadyGo cfg s i = true) :
    ExeStage.mulResult s.es (exePorts cfg s i) =
        (mulPacket (esWord imem s)).value (esArg1 cfg s i) (esArg2 cfg s i) ∧
      Mul.Rest (next cfg s i).es.mul (next cfg s i).es.divider := by
  have hports := h.executing.mulPorts_eq h.control hmul
  have hdone := Mul.rest_of_done (operation_of_isMulInst hmul)
    (hu.busy h.executing.live hmul) (h.mulStall_of_ready hmul hready)
  rw [← hports] at hdone
  exact hdone

theorem exeResult_eq (h : Retiring cfg imem s i σ ins) (hu : UnitAgrees cfg imem s i)
    (hready : esReadyGo cfg s i = true) :
    ExeStage.exeResult cfg s.es (exePorts cfg s i) =
      Datapath.value (esWord imem s) σ.pc (esArg1 cfg s i) (esArg2 cfg s i) := by
  rw [h.executing.exeResult_eq fun hmul => (h.unit_of_ready hu hmul hready).1, h.pc]

theorem rest_next (h : Retiring cfg imem s i σ ins) (hu : UnitAgrees cfg imem s i)
    (hready : esReadyGo cfg s i = true) :
    Mul.Rest (next cfg s i).es.mul (next cfg s i).es.divider := by
  cases hmul : isMulInst (esWord imem s) with
  | true => exact (h.unit_of_ready hu hmul hready).2
  | false =>
      have hidle := @mulPorts_idle cfg s i fun _ => h.isMul_eq.trans hmul
      exact Mul.rest_next (hu.rest fun _ => hmul) hidle

/-- One that waits stays under way. -/
theorem busy_next (h : Retiring cfg imem s i σ ins) (hu : UnitAgrees cfg imem s i)
    (hmul : isMulInst (esWord imem s) = true) (hready : esReadyGo cfg s i = false) :
    Mul.Busy (mulPacket (esWord imem s)) (esArg1 cfg s i) (esArg2 cfg s i)
      (next cfg s i).es.mul (next cfg s i).es.divider := by
  have hports := h.executing.mulPorts_eq h.control hmul
  have hstall : Mul.mulStall s.es.mul
      (Mul.busyPorts (mulPacket (esWord imem s)) (esArg1 cfg s i) (esArg2 cfg s i)) = true := by
    rw [← hports]
    simpa [esReadyGo, ExeStage.esReadyGo, ExeStage.fpuStall, ExeStage.mulStall] using hready
  have hbusy := Mul.busy_next (operation_of_isMulInst hmul) (hu.busy h.executing.live hmul) hstall
  rw [← hports] at hbusy
  exact hbusy

end Retiring

/-- An execute stage without a live instruction leaves the unit at rest. -/
theorem rest_next_idle (hu : UnitAgrees cfg imem s i) (hlive : liveEs s = false) :
    Mul.Rest (next cfg s i).es.mul (next cfg s i).es.divider := by
  have hno : ∀ {P : Prop}, liveEs s = true → P := by
    intro P h
    rw [hlive] at h
    cases h
  exact Mul.rest_next (hu.rest hno) (@mulPorts_idle cfg s i hno)

namespace Retiring

/-! ## In the memory stage -/

theorem liveMs_payload (h : Retiring cfg imem s i σ ins) (hmove : esToMsValid cfg s i = true) :
    MemPayloadOf (esWord imem s) (next cfg s i).ms.buf.main ∧
      (next cfg s i).ms.buf.main = msPayload cfg s i ∧ liveMs (next cfg s i) = true := by
  have hmain : (next cfg s i).ms.buf.main = msPayload cfg s i := by
    rw [next_ms_main h.control, if_pos hmove]
  refine ⟨?_, hmain, next_liveMs h.control h.executing.live h.executing.quiet hmove⟩
  rw [hmain]
  exact memPayloadOf_of_payloadOf h.executing.valid h.executing.word

/-- A jump goes to an aligned target. -/
theorem target_aligned (h : Retiring cfg imem s i σ ins) :
    (ExeStage.brTaken s.es (exePorts cfg s i) &&
      ((ExeStage.brTarget s.es).extractLsb' 0 2 != 0b00#2)) = false := by
  cases htaken : ExeStage.brTaken s.es (exePorts cfg s i) with
  | false => rfl
  | true =>
      have hbr := isBrJmpInst_of_brTaken h.executing.decoded htaken
      rw [h.executing.brTaken_eq hbr] at htaken
      have hnext := h.agrees.nextPc
      rw [Datapath.nextPc, htaken, if_pos rfl] at hnext
      rw [h.executing.brTarget_eq hbr, h.pc, hnext, Bool.true_and]
      exact Datapath.low_bits_zero (Isa.nextPc_aligned h.pcAligned h.aligned)

/-- The instruction accesses no misaligned address. -/
theorem access_aligned (h : Retiring cfg imem s i σ ins) (hu : UnitAgrees cfg imem s i)
    (hready : esReadyGo cfg s i = true) :
    misalignedLoad (esWord imem s) (ExeStage.exeResult cfg s.es (exePorts cfg s i)) = false ∧
      misalignedStore (esWord imem s) (ExeStage.exeResult cfg s.es (exePorts cfg s i)) = false := by
  rw [h.exeResult_eq hu hready]
  cases hmem : isMemInst (esWord imem s) with
  | true =>
      rw [Datapath.value_mem h.executing.isa hmem]
      exact Datapath.not_misaligned h.encodes h.aligned h.agrees
  | false =>
      simp only [isMemInst, Bool.or_eq_false_iff] at hmem
      simp [misalignedLoad, misalignedStore, Decode.instLw, Decode.instLh, Decode.instLhu,
        Decode.instSw, Decode.instSh, hmem]

variable (i') in
/-- It traps on nothing but the interrupt in the memory stage. -/
theorem trapCause_next (h : Retiring cfg imem s i σ ins) (hu : UnitAgrees cfg imem s i)
    (hmove : esToMsValid cfg s i = true) :
    trapCause (next cfg s i) i' (esWord imem s) =
      if irqPending (next cfg s i) i' then some .externalInterrupt else none := by
  rcases h.liveMs_payload hmove with ⟨hx, hmain, hlive⟩
  rcases Datapath.usesF_of_isaOpcode h.executing.isa with ⟨hf, hsys⟩
  rcases h.access_aligned hu (esToMsValid_parts hmove).2 with ⟨hload, hstore⟩
  have htarget : ((next cfg s i).ms.buf.main.exc.brTaken &&
      ((msTarget (next cfg s i)).extractLsb' 0 2 != 0b00#2)) = false := by
    rw [msTarget, hmain]
    exact h.target_aligned
  have haddr : msAddr (next cfg s i) = ExeStage.exeResult cfg s.es (exePorts cfg s i) := by
    rw [msAddr, MemStage.bus, hmain]
    rfl
  have hnosys : instEcall (esWord imem s) = false ∧ instEbreak (esWord imem s) = false := by
    simp [instEcall, instEbreak, hsys]
  -- none of the other causes is there
  simp only [trapCause, htarget, haddr, hload, hstore, hnosys, Bool.false_eq_true, if_false]

theorem instMret_eq (h : Retiring cfg imem s i σ ins) : instMret (esWord imem s) = false := by
  simp [instMret, (Datapath.usesF_of_isaOpcode h.executing.isa).2]

/-- It raises no exception in the memory stage. -/
theorem exceptionFlag_next (h : Retiring cfg imem s i σ ins) (hu : UnitAgrees cfg imem s i)
    (hmove : esToMsValid cfg s i = true) (hirq : i'.plicIrq = false) :
    exceptionFlag (next cfg s i) i' = false := by
  rcases h.liveMs_payload hmove with ⟨hx, -, hlive⟩
  have hcode := exceptionCode_eq (i := i') hlive hx (Datapath.usesF_of_isaOpcode h.executing.isa).1
  have hno : irqPending (next cfg s i) i' = false := by rw [irqPending, hirq, Bool.false_and]
  rw [h.trapCause_next i' hu hmove, hno, h.instMret_eq] at hcode
  rw [exceptionFlag, hcode]
  rfl

end Retiring

/-- Without a live instruction that leaves execute there is none in the memory stage next. -/
theorem next_not_liveMs (hc : Control s) (hstay : (liveEs s && esToMsValid cfg s i) = false) :
    liveMs (next cfg s i) = false := by
  cases hlive : liveMs (next cfg s i) with
  | false => rfl
  | true =>
      have hv : esToMsValid cfg s i = true := by
        rw [← next_ms_valid hc]
        simp only [liveMs, Bool.and_eq_true] at hlive
        exact hlive.1
      rw [(head_of_next_liveMs hc hlive).1, hv] at hstay
      cases hstay

theorem exceptionFlag_of_dead (hc : Control s) (h : liveMs s = false) :
    exceptionFlag s i = false := by
  cases he : exceptionFlag s i with
  | false => rfl
  | true =>
      rcases ms_live_of_exceptionFlag hc he with ⟨hv, hf⟩
      rw [liveMs, hv, hf] at h
      cases h

theorem msWrite_of_dead (h : liveMs s = false) : msWrite s i = none := by
  rw [liveMs, Bool.and_eq_false_iff] at h
  rcases h with hv | hf
  · simp [msWrite, MemStage.memRegfileWen, MemStage.msValid, hv]
  · have hf' : MemStage.msFlush s.ms = true := by simpa using hf
    simp [msWrite, MemStage.memRegfileWen, hf']

namespace Retiring

/-- The word that a load is answered with is that of the sequential memory. -/
def Answered (cfg : Config) (s : Cpu) (i : CpuIn) (mem : DMem) (rdata : Word) : Prop :=
  dmemEn cfg s i = true → rdata = mem (wordAddr (dmemAddr s))

theorem dmemAddr_eq (h : Retiring cfg imem s i σ ins)
    (hmem : isMemInst (esWord imem s) = true) :
    dmemEn cfg s i = true ∧ dmemAddr s = esArg1 cfg s i + memImm (esWord imem s) := by
  have hany := Datapath.memOp_any_of_isMemInst h.encodes h.agrees hmem
  have hx := h.executing.decoded
  have hv : ExeStage.esValid s.es = true := h.executing.valid
  rcases h.executing.srcBase_eq (not_ordinaryIntAlu (Or.inl hmem)) with ⟨h1, -⟩
  constructor
  · rw [dmemEn, ExeStage.dmemEn, hv, h.executing.esFlush, hx.memOp, hany]
    rfl
  · rw [dmemAddr, ExeStage.dmemAddr, h1, hx.memImm]

/-- What the memory stage hands on for it is what the sequential machine writes. -/
theorem memResult_next (h : Retiring cfg imem s i σ ins) (hu : UnitAgrees cfg imem s i)
    (hmove : esToMsValid cfg s i = true) (hdata : Answered cfg s i σ.mem i'.dmemRdata)
    (hwen : ctrlRegfileWen (esWord imem s) = true) :
    memResult (next cfg s i) i' =
      Datapath.written (esWord imem s) σ.pc (esArg1 cfg s i) (esArg2 cfg s i) σ.mem := by
  rcases h.liveMs_payload hmove with ⟨hx, hmain, -⟩
  have hready := (esToMsValid_parts hmove).2
  have hresult : (MemStage.bus (next cfg s i).ms).exeResult =
      Datapath.value (esWord imem s) σ.pc (esArg1 cfg s i) (esArg2 cfg s i) := by
    rw [MemStage.bus, hmain, ← h.exeResult_eq hu hready]
    rfl
  have hsel : (MemStage.bus (next cfg s i).ms).exeResultSel = exeResultSel (esWord imem s) :=
    hx.exeResultSel
  have hinst : (MemStage.bus (next cfg s i).ms).loadInst = loadInstOf (esWord imem s) :=
    hx.loadInst
  rw [memResult, MemStage.memResult, Datapath.loadData_eq, hsel, hinst, hresult,
    Datapath.written]
  -- a value of execute passes through; a load takes the answer of the memory
  cases hexe : (exeResultSel (esWord imem s)).exe with
  | true => rfl
  | false =>
      have hmem : isMemInst (esWord imem s) = true := by
        simp [isMemInst, Datapath.isLoad_of_not_exe h.executing.isa hwen hexe]
      rcases h.dmemAddr_eq hmem with ⟨hen, haddr⟩
      rw [Datapath.value_mem h.executing.isa hmem, hdata hen, haddr]

/-- So it does if no interrupt is taken on it. -/
theorem msWrite_next_of_quiet (h : Retiring cfg imem s i σ ins) (hu : UnitAgrees cfg imem s i)
    (hmove : esToMsValid cfg s i = true) (hquiet : exceptionFlag (next cfg s i) i' = false)
    (hdata : Answered cfg s i σ.mem i'.dmemRdata) :
    msWrite (next cfg s i) i' = σ.write? imem := by
  rcases h.liveMs_payload hmove with ⟨hx, hmain, hlive⟩
  rcases liveMs_parts hlive with ⟨hv, hfl⟩
  have hwen : MemStage.memRegfileWen (next cfg s i).ms (exceptionFlag (next cfg s i) i') =
      ctrlRegfileWen (esWord imem s) := by
    have hw : (MemStage.bus (next cfg s i).ms).regfileWen = ctrlRegfileWen (esWord imem s) :=
      hx.regfileWen
    rw [MemStage.memRegfileWen, MemStage.msValid, hv, hfl, hquiet, hw]
    simp
  have hrd : MemStage.memDstAddr (next cfg s i).ms = rdAddr (esWord imem s) := hx.rdAddr
  have hpc : (MemStage.bus (next cfg s i).ms).pc = σ.pc := by
    rw [MemStage.bus, hmain, ← h.pc]
    rfl
  rw [msWrite, hwen, hrd, hpc, h.write_eq]
  cases hw : ctrlRegfileWen (esWord imem s) with
  | false => rfl
  | true => rw [h.memResult_next hu hmove hdata hw]

theorem msWrite_next (h : Retiring cfg imem s i σ ins) (hu : UnitAgrees cfg imem s i)
    (hmove : esToMsValid cfg s i = true) (hirq : i'.plicIrq = false)
    (hdata : Answered cfg s i σ.mem i'.dmemRdata) :
    msWrite (next cfg s i) i' = σ.write? imem :=
  h.msWrite_next_of_quiet hu hmove (h.exceptionFlag_next hu hmove hirq) hdata

/-! ## What its successor carries -/

/-- Execute writes the register of its word, if that word has one. -/
theorem esWrites_eq (h : Retiring cfg imem s i σ ins) :
    esWrites cfg s i = ctrlRegfileWen (esWord imem s) ∧
      s.es.buf.main.bus.ctrl.rdAddr = rdAddr (esWord imem s) := by
  have hctrl := h.executing.ctrl
  constructor
  · rw [esWrites, ExeStage.exeRegfileWen, ExeStage.esValid, h.executing.valid, h.executing.esFlush,
      hctrl]
    simp [ctrlPacket]
  · have hctrl' : s.es.buf.main.bus.ctrl =
        ctrlPacket (esWord imem s) s.es.buf.main.bus.ctrl.pc := hctrl
    rw [hctrl']
    rfl

/-- A result that decode may take from execute is the value that the instruction writes. -/
theorem ahead_written (h : Retiring cfg imem s i σ ins) (hu : UnitAgrees cfg imem s i)
    (hw : esWrites cfg s i = true) (hne : s.es.buf.main.bus.ctrl.rdAddr ≠ 0#5)
    (hpend : IdStage.exeForwardPending (idPorts cfg s i) = false) :
    (Isa.step imem σ).read s.es.buf.main.bus.ctrl.rdAddr =
      ExeStage.exeResult cfg s.es (exePorts cfg s i) := by
  have hv := h.executing.valid
  have hflush := h.executing.esFlush
  have hctrl := h.executing.ctrl
  have hwrite := h.write_eq
  rw [h.esWrites_eq.1] at hw
  rw [h.esWrites_eq.2] at hne ⊢
  -- it is ready, and no load
  rw [IdStage.exeForwardPending, Bool.or_eq_false_iff] at hpend
  have hready : esReadyGo cfg s i = true := by
    have hr : ExeStage.exeResultPending s.es (exePorts cfg s i) = false := hpend.2
    simpa [ExeStage.exeResultPending, ExeStage.esValid, hv, hflush, esReadyGo] using hr
  have hnoload : isMemInst (esWord imem s) = false := by
    have hl : ExeStage.exeLoadPending s.es (exePorts cfg s i) = false := hpend.1
    rw [ExeStage.exeLoadPending, ExeStage.esValid, hv, hflush, hctrl] at hl
    simpa [ctrlPacket, exeResultSel, hw] using hl
  have hexe : (exeResultSel (esWord imem s)).exe = true := by
    cases hexe : (exeResultSel (esWord imem s)).exe with
    | true => rfl
    | false =>
        have hload := Datapath.isLoad_of_not_exe h.executing.isa hw hexe
        simp [isMemInst, hload] at hnoload
  have hne' : (rdAddr (esWord imem s) != 0#5) = true := by simpa using hne
  rw [hw, hne', Bool.and_self, if_pos rfl] at hwrite
  have hread := Isa.step_read_same hwrite hne
  rw [h.exeResult_eq hu hready]
  simpa [Datapath.written, hexe] using hread

/-- The word that a load reads is the value that it writes. -/
theorem ahead_loaded (h : Retiring cfg imem s i σ ins) (hdata : Answered cfg s i σ.mem rdata)
    (hok : ExeStage.exeLwLiveOk cfg s.es (exePorts cfg s i) = true) :
    (Isa.step imem σ).read s.es.buf.main.bus.ctrl.rdAddr = rdata := by
  have hctrl := h.executing.ctrl
  have hwrite := h.write_eq
  rcases exeLwLiveOk_parts hok with ⟨-, hlw, hwen, hne⟩
  have hwen' : ctrlRegfileWen (esWord imem s) = true := by
    rw [hctrl] at hwen
    exact hwen
  have hne' : rdAddr (esWord imem s) ≠ 0#5 := by
    rw [hctrl] at hne
    exact hne
  have hload := Decode.instLw_of_es h.executing.decoded hlw
  have hclass := Decode.class_of_instLw hload
  have hb : (rdAddr (esWord imem s) != 0#5) = true := by simpa using hne'
  rw [hwen', hb, Bool.and_self, if_pos rfl] at hwrite
  rw [h.esWrites_eq.2, Isa.step_read_same hwrite hne']
  rcases h.dmemAddr_eq hclass.2.2.2.2.1 with ⟨hen, haddr⟩
  rw [hdata hen, haddr]
  have hvec := Decode.loadInstOf_of_instLw hload
  simp [Datapath.written, hclass.2.2.2.1, Datapath.loadValue, hvec, LoadInst.LW, LoadInst.LB,
    LoadInst.LBU, LoadInst.LH, LoadInst.LHU]

/-- The step leaves every register alone that execute does not write. -/
theorem ahead_other (h : Retiring cfg imem s i σ ins) {r : BitVec 5}
    (hnot : ¬ (esWrites cfg s i = true ∧ s.es.buf.main.bus.ctrl.rdAddr = r)) :
    (Isa.step imem σ).read r = σ.read r := by
  apply Isa.step_read_other
  intro w hw heq
  rw [h.write_eq] at hw
  split at hw
  · rename_i hcond
    cases hw
    rw [Bool.and_eq_true] at hcond
    exact hnot ⟨h.esWrites_eq.1.trans hcond.1, h.esWrites_eq.2.trans heq⟩
  · cases hw

/-- The registers after the instruction in execute are those of the next sequential state. -/
theorem ahead (h : Retiring cfg imem s i σ ins) (hu : UnitAgrees cfg imem s i)
    (hregs : ∀ r, r ≠ 0#5 → σ.read r = regView s i r)
    (hdata : Answered cfg s i σ.mem rdata) :
    Ahead cfg s i (Isa.step imem σ).read rdata :=
  { zero := rfl
    written := by
      intro hw hne hpend
      exact h.ahead_written hu hw hne hpend
    loaded := by
      intro hok
      exact h.ahead_loaded hdata hok
    other := by
      intro r hr hnot
      exact (h.ahead_other hnot).trans (hregs r hr) }

end Retiring

end Cpu
end RiscvCpu
