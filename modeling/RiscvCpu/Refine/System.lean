import Mathlib.Tactic.IntervalCases
import RiscvCpu.Csr.Coherence
import RiscvCpu.Isa.System
import RiscvCpu.Refine.Predict
import RiscvCpu.Refine.Retire

/-!
# System — the system instructions in the pipeline

What the words of the system instructions decode to, the CSR file behind a trap and behind a return, and
the live system instruction in execute: it asks for nothing, goes nowhere but to the next pc, and its
result is the old value of its CSR.
-/

namespace RiscvCpu

open Decode

/-! ## Words -/

namespace Isa

/-- The word encodes the system instruction. -/
inductive EncodesSystem (w : Word) : SystemInstr → Prop
  | csr (o : CsrUpdate) (immediate : Bool) (hop : Isa.opcode w = 0b1110011#7)
      (haddr : SysReg.all.contains (imm12 w) = true) (ho : (Isa.funct3 w, (o, immediate)) ∈ csrTable) :
      EncodesSystem w
        (.csr o (rd w) (imm12 w) (if immediate then .imm (rs1 w) else .reg (rs1 w)))
  | ecall (hw : w = 0x0000_0073#32) : EncodesSystem w .ecall
  | ebreak (hw : w = 0x0010_0073#32) : EncodesSystem w .ebreak
  | mret (hw : w = 0x3020_0073#32) : EncodesSystem w .mret

theorem encodes_of_decodeSystem {w : Word} {ins : SystemInstr} (h : decodeSystem w = some ins) :
    EncodesSystem w ins := by
  unfold decodeSystem at h
  split at h
  · cases h
    exact .ecall ‹_›
  · split at h
    · cases h
      exact .ebreak ‹_›
    · split at h
      · cases h
        exact .mret ‹_›
      · split at h
        · split at h
          · rcases Option.map_eq_some_iff.mp h with ⟨⟨o, immediate⟩, ho, rfl⟩
            exact .csr o immediate ‹_› ‹_› (mem_of_lookup ho)
          · cases h
        · cases h

theorem opcode_of_encodesSystem {w : Word} {ins : SystemInstr} (h : EncodesSystem w ins) :
    Decode.opcode w = 0b1110011#7 := by
  cases h with
  | csr _ _ hop _ _ => exact hop
  | ecall hw | ebreak hw | mret hw =>
      subst hw
      decide

/-- A system instruction is none of the interpreter's. -/
theorem decode_of_system {w : Word} (h : Decode.opcode w = 0b1110011#7) : decode w = none := by
  have hop : Isa.opcode w = 0b1110011#7 := h
  simp [decode, hop]

/-- So it makes no data request. -/
theorem request?_of_system {imem : Word → Word} {σ : State} {ins : SystemInstr}
    (h : decodeSystem (imem σ.pc) = some ins) : σ.request? imem = none := by
  simp [State.request?, State.outcome?,
    decode_of_system (opcode_of_encodesSystem (encodes_of_decodeSystem h))]

/-- A word of the program is an instruction of the interpreter or a system instruction. -/
def Known (w : Word) : Prop := (decode w).isSome = true ∨ (decodeSystem w).isSome = true

instance (w : Word) : Decidable (Known w) :=
  inferInstanceAs (Decidable ((decode w).isSome = true ∨ (decodeSystem w).isSome = true))

theorem known_ite {p : Prop} [Decidable p] {x y : Word} (hx : Known x) (hy : Known y) :
    Known (if p then x else y) := by
  split
  · exact hx
  · exact hy

theorem decode_of_not_system {w : Word} (h : Known w) (hsys : decodeSystem w = none) :
    ∃ ins, decode w = some ins := by
  rcases h with h | h
  · exact Option.isSome_iff_exists.mp h
  · rw [hsys] at h
    cases h

theorem decodeSystem_of_decode {w : Word} (h : (decode w).isSome = true) : decodeSystem w = none := by
  cases hsys : decodeSystem w with
  | none => rfl
  | some ins =>
      rw [decode_of_system (opcode_of_encodesSystem (encodes_of_decodeSystem hsys))] at h
      cases h

/-- A multiplication or division accesses no memory and does not jump. -/
theorem aligned_of_isMul {w : Word} {ins : Instr} (hmul : isMulInst w = true) (henc : Encodes w ins)
    (σ : State) : ins.aligned σ := by
  have hreg : Decode.opcode w = 0b0110011#7 := by
    by_contra hne
    rw [isMulInst_eq_false (by simpa [isOpReg] using hne)] at hmul
    cases hmul
  cases henc with
  | op | imm | shamt | unary | lui | auipc | fence => exact trivial
  | jal hop | jalr hop | branch _ hop _ | load _ hop _ | store _ hop _ =>
      rw [show Isa.opcode w = 0b0110011#7 from hreg] at hop
      cases hop

theorem usesF_of_known {w : Word} (h : Known w) : usesF w = false := by
  rcases h with h | h
  · rcases Option.isSome_iff_exists.mp h with ⟨ins, hins⟩
    exact (Datapath.usesF_of_isaOpcode (Datapath.isaOpcode_of_encodes (encodes_of_decode hins))).1
  · rcases Option.isSome_iff_exists.mp h with ⟨ins, hins⟩
    have hop := opcode_of_encodesSystem (encodes_of_decodeSystem hins)
    simp [usesF, isFload, isFstore, isFmadd, isFmsub, isFnmsub, isFnmadd, isFpu, hop]

end Isa

namespace Decode

variable {x : Word}

/-- What a word of the opcode `SYSTEM` is not. -/
structure OnlySystem (x : Word) : Prop where
  isMul : isMulInst x = false
  isBrJmp : isBrJmpInst x = false
  isMem : isMemInst x = false
  memOp : (memOp x).any = false
  load : ∀ addr, misalignedLoad x addr = false
  store : ∀ addr, misalignedStore x addr = false

theorem onlySystem_of_opcode (hop : opcode x = 0b1110011#7) : OnlySystem x :=
  { isMul := isMulInst_eq_false (by simp [isOpReg, hop])
    isBrJmp := by simp [isBrJmpInst, isBranch, isJal, isJalr, hop]
    isMem := by simp [isMemInst, isLoad, isStore, instFlw, instFsw, isFload, isFstore, hop]
    memOp := by
      simp [MemOp.any, Decode.memOp, instLb, instSb, instLh, instSh, instLw, instSw, instLbu, instLhu,
        instFlw, instFsw, isLoad, isStore, isFload, isFstore, hop]
    load := by
      intro addr
      simp [misalignedLoad, instLw, instLh, instLhu, isLoad, hop]
    store := by
      intro addr
      simp [misalignedStore, instSw, instSh, isStore, hop] }

/-- What decode sees of a CSR instruction. -/
structure CsrWord (x : Word) (o : Isa.CsrUpdate) (src : Isa.CsrSource) : Prop where
  isCsr : isCsrInst x = true
  ecall : instEcall x = false
  ebreak : instEbreak x = false
  mret : instMret x = false
  needRs1 : src = .reg (rs1Addr x) → needRs1 x = true
  immSel : csrImmSel x = true → src = .imm (immZ x)
  regSel : csrImmSel x = false → src = .reg (rs1Addr x)
  access : ∀ operand, Csr.accessOf x operand =
    { addr := csrAddr x
      write := o == .write || src.field != 0#5
      modify := fun old => o.apply operand old }

theorem csrWord_of_encodes {o : Isa.CsrUpdate} {immediate : Bool} (hop : opcode x = 0b1110011#7)
    (ho : (Isa.funct3 x, (o, immediate)) ∈ Isa.csrTable) :
    CsrWord x o (if immediate then .imm (immZ x) else .reg (rs1Addr x)) := by
  have hf3 : ∀ f, (f, (o, immediate)) ∈ Isa.csrTable →
      (f = 0b001#3 ∧ o = .write ∧ immediate = false) ∨ (f = 0b010#3 ∧ o = .set ∧ immediate = false) ∨
      (f = 0b011#3 ∧ o = .clear ∧ immediate = false) ∨ (f = 0b101#3 ∧ o = .write ∧ immediate = true) ∨
      (f = 0b110#3 ∧ o = .set ∧ immediate = true) ∨ (f = 0b111#3 ∧ o = .clear ∧ immediate = true) := by
    intro f hf
    simpa [Isa.csrTable] using hf
  have hcases := hf3 (funct3 x) ho
  rcases hcases with ⟨hf, rfl, rfl⟩ | ⟨hf, rfl, rfl⟩ | ⟨hf, rfl, rfl⟩ | ⟨hf, rfl, rfl⟩ |
    ⟨hf, rfl, rfl⟩ | ⟨hf, rfl, rfl⟩
  all_goals
    constructor <;>
      simp [isCsrInst, instCsrrw, instCsrrs, instCsrrc, instCsrrwi, instCsrrsi, instCsrrci, instEcall,
        instEbreak, instMret, needRs1, csrImmSel, isSystem, hop, f3_000, f3_001, f3_010, f3_011, f3_101,
        f3_110, f3_111, hf, Csr.accessOf, csrWen, csrOp, Isa.CsrUpdate.apply, Isa.CsrSource.field]

end Decode

/-- The machine has the CSRs of the file. -/
theorem implemented_eq : Isa.SysReg.all.contains = Csr.implemented := by
  funext a
  exact List.contains_eq_mem a Isa.SysReg.all

theorem csrLayout_eq : Isa.csrLayout = Csr.layout := by
  rw [Isa.csrLayout, implemented_eq]
  rfl

/-! ## The CSR file behind a trap and behind a return -/

namespace RegfileCsr

/-- The file holds the contents `m`. -/
def File.Holds (f : File) (m : BitVec 12 → Word) : Prop :=
  ∀ a, Csr.implemented a = true → f.read a = some (m a)

theorem withStatus_getLsbD (x : Word) (mpie mie : Bool) (k : Nat) :
    (Isa.withStatus x mpie mie).getLsbD k =
      if k = 3 then mie else if k = 7 then mpie else x.getLsbD k := by
  by_cases hk : k < 32
  · cases mpie <;> cases mie <;> interval_cases k <;> simp [Isa.withStatus]
  · have hx := BitVec.getLsbD_of_ge x k (by omega)
    have hl := BitVec.getLsbD_of_ge (Isa.withStatus x mpie mie) k (by omega)
    rw [hl, hx, if_neg (by omega), if_neg (by omega)]

variable {f f' : File} {h : Isa.Hart}

theorem File.Holds.mstatus {m : BitVec 12 → Word} (hf : f.Holds m) : m Csr.MSTATUS = f.mstatus := by
  have hread := hf Csr.MSTATUS rfl
  exact (Option.some.inj hread).symm

/-- A file that holds the contents of the machine holds them also after a trap. -/
theorem holds_trap {c : Isa.Cause} (hin : Cpu.TrapEntered h.trace.state.pc c.code 0#32 f f')
    (hf : f.Holds h.csr) : f'.Holds (h.trap c).csr := by
  have hstatus : f'.mstatus = Isa.enterStatus (h.csr Isa.SysReg.MSTATUS) := by
    rw [show h.csr Isa.SysReg.MSTATUS = f.mstatus from hf.mstatus]
    apply BitVec.eq_of_getLsbD_eq
    intro k _
    rw [hin.mstatus, Isa.enterStatus, withStatus_getLsbD]
  intro a ha
  have hold := hf a ha
  rw [hin.others, hin.mepc, hin.mcause, hin.mtval, hstatus]
  simp only [Csr.implemented, Csr.registers, decide_eq_true_eq, List.mem_cons, List.not_mem_nil,
    or_false] at ha
  rcases ha with rfl | rfl | rfl | rfl | rfl | rfl | rfl | rfl | rfl | rfl | rfl | rfl | rfl
  all_goals first | rfl | exact hold

/-- And after a return. -/
theorem holds_ret (hf : f.Holds h.csr) : f.mret.Holds h.ret.csr := by
  have hstatus : f.mret.mstatus = Isa.leaveStatus (h.csr Isa.SysReg.MSTATUS) := by
    rw [show h.csr Isa.SysReg.MSTATUS = f.mstatus from hf.mstatus]
    apply BitVec.eq_of_getLsbD_eq
    intro k _
    rw [Cpu.mret_mstatus_getLsbD, Isa.leaveStatus, withStatus_getLsbD]
  intro a ha
  have hold := hf a ha
  rw [show f.mret = { f with mstatus := f.mret.mstatus } from rfl, hstatus]
  simp only [Csr.implemented, Csr.registers, decide_eq_true_eq, List.mem_cons, List.not_mem_nil,
    or_false] at ha
  rcases ha with rfl | rfl | rfl | rfl | rfl | rfl | rfl | rfl | rfl | rfl | rfl | rfl | rfl
  all_goals first | rfl | exact hold

end RegfileCsr

/-! ## The live instruction in the memory stage -/

namespace Cpu

variable {cfg : Config} {imem : Word → Word} {s : Cpu} {i i' : CpuIn} {x : Word} {h : Isa.Hart}

/-- The causes of the machine, as the memory stage names them. -/
def trapCauseOf : Isa.Cause → TrapCause
  | .ecall => .ecall
  | .ebreak => .ebreak
  | .externalInterrupt => .externalInterrupt

theorem irqPending_eq (hfile : s.csr.file.Holds h.csr) :
    irqPending s i = (i.plicIrq && h.enabled) := by
  have hmie : h.csr Isa.SysReg.MIE = s.csr.file.mie := (Option.some.inj (hfile Csr.MIE rfl)).symm
  have hmstatus : h.csr Isa.SysReg.MSTATUS = s.csr.file.mstatus := hfile.mstatus
  rw [irqPending, RegfileCsr.externalIrqEnable, Isa.Hart.enabled, hmie, hmstatus]
  rfl

/-- The instruction in the memory stage sends the core to the machine `h`. -/
structure Diverted (cfg : Config) (s : Cpu) (i : CpuIn) (h : Isa.Hart) : Prop where
  flag : exceptionFlag s i = true
  target : exceptionAddr s i = h.trace.state.pc
  file : (next cfg s i).csr.file.Holds h.csr
  trapped : (next cfg s i).csr.prevExceptionFlag = h.trapped

theorem diverted_of_trap (hlive : liveMs s = true) (hx : MemPayloadOf x s.ms.buf.main)
    (hf : usesF x = false) (hpc : s.ms.buf.main.bus.pc = h.trace.state.pc)
    (hfile : s.csr.file.Holds h.csr) {c : Isa.Cause}
    (hcause : trapCause s i x = some (trapCauseOf c)) : Diverted cfg s i (h.trap c) := by
  have hcode : exceptionCode s i = (trapCauseOf c).code := by rw [exceptionCode_eq hlive hx hf, hcause]
  have h5 := code_bit5 (trapCauseOf c)
  have hnoret : RegfileCsr.mretJmpFlag s.csr (trapCauseOf c).code = false := by cases c <;> rfl
  have hin : TrapEntered _ _ _ _ (next cfg s i).csr.file := trap_entered hlive hx hf hcause
  have hmcause : (trapCauseOf c).mcause = c.code := by cases c <;> rfl
  have hvalue : trapValue s (trapCauseOf c) = 0#32 := by cases c <;> rfl
  rw [hpc, hmcause, hvalue] at hin
  refine { flag := ?_, target := ?_, file := RegfileCsr.holds_trap hin hfile, trapped := ?_ }
  · rw [exceptionFlag, RegfileCsr.exceptionFlag, hcode, h5, Bool.true_or]
  · rw [exceptionAddr, RegfileCsr.exceptionAddr, hcode, hnoret]
    exact Option.some.inj (hfile Csr.MTVEC rfl)
  · simp only [next, RegfileCsr.next, csrPorts, hcode, h5, if_true]
    rfl

/-- The address to which a return goes. -/
theorem clear_low_bits (x : Word) : x.extractLsb' 2 30 ++ 0#2 = x &&& ~~~3#32 := by
  have hmask : ∀ n < 32, (3#32).getLsbD n = decide (n < 2) := by decide
  apply BitVec.eq_of_getLsbD_eq
  intro n hn
  simp only [BitVec.getLsbD_append, BitVec.getLsbD_extractLsb', BitVec.getLsbD_and,
    BitVec.getLsbD_not]
  grind

theorem diverted_of_ret (hlive : liveMs s = true) (hx : MemPayloadOf x s.ms.buf.main)
    (hf : usesF x = false) (hfile : s.csr.file.Holds h.csr) (hcause : trapCause s i x = none)
    (hmret : instMret x = true) (hwen : csrWen x = false)
    (hprev : s.csr.prevExceptionFlag = true) : Diverted cfg s i h.ret := by
  have hcode : exceptionCode s i = Exc.MRET := by
    rw [exceptionCode_eq hlive hx hf, hcause, if_pos hmret]
  have hjmp : RegfileCsr.mretJmpFlag s.csr Exc.MRET = true := by
    rw [RegfileCsr.mretJmpFlag, hprev]
    rfl
  have hnowe : csrWe s i = false := by
    have hw : (MemStage.bus s.ms).csrWen = false := by rw [MemStage.bus, hx.csrWen, hwen, Bool.false_and]
    simp [csrWe, MemStage.csrWe, hw]
  refine { flag := ?_, target := ?_, file := ?_, trapped := next_prevExceptionFlag_of_mret hcode }
  · rw [exceptionFlag, RegfileCsr.exceptionFlag, hcode, hjmp, Bool.or_true]
  · rw [exceptionAddr, RegfileCsr.exceptionAddr, hcode, if_pos hjmp, clear_low_bits]
    have hmepc : h.csr Isa.SysReg.MEPC = s.csr.file.mepc := (Option.some.inj (hfile Csr.MEPC rfl)).symm
    show _ = h.csr Isa.SysReg.MEPC &&& ~~~3#32
    rw [hmepc]
  · rw [mret_file hnowe hcode]
    exact RegfileCsr.holds_ret hfile

theorem exceptionFlag_of_code (hcode : exceptionCode s i = 0#7) : exceptionFlag s i = false := by
  rw [exceptionFlag, hcode]
  rfl

theorem code_of_passing (hlive : liveMs s = true) (hx : MemPayloadOf x s.ms.buf.main)
    (hf : usesF x = false) (hcause : trapCause s i x = none) (hmret : instMret x = false) :
    exceptionCode s i = 0#7 := by
  rw [exceptionCode_eq hlive hx hf, hcause, hmret]
  rfl

theorem next_prevExceptionFlag_of_code (hcode : exceptionCode s i = 0#7) :
    (next cfg s i).csr.prevExceptionFlag = s.csr.prevExceptionFlag := by
  simp only [next, RegfileCsr.next, csrPorts, hcode]
  rfl

end Cpu

/-! ## The live system instruction in execute -/

namespace Cpu

variable {cfg : Config} {imem : Word → Word} {s : Cpu} {i i' : CpuIn} {h : Isa.Hart}
  {ins : Isa.SystemInstr}

/-- Execute holds the system instruction `ins` at the pc of the machine `h`. -/
structure Commanding (imem : Word → Word) (s : Cpu) (i : CpuIn) (h : Isa.Hart)
    (ins : Isa.SystemInstr) : Prop where
  control : Control s
  live : liveEs s = true
  quiet : exceptionFlag s i = false
  word : PayloadOf (imem h.trace.state.pc) s.es.buf.main
  pc : s.es.buf.main.bus.ctrl.pc = h.trace.state.pc
  encodes : Isa.EncodesSystem (imem h.trace.state.pc) ins

namespace Commanding

theorem only (hs : Commanding imem s i h ins) : OnlySystem (imem h.trace.state.pc) :=
  onlySystem_of_opcode (Isa.opcode_of_encodesSystem hs.encodes)

theorem usesF (hs : Commanding imem s i h ins) : usesF (imem h.trace.state.pc) = false := by
  have hop := Isa.opcode_of_encodesSystem hs.encodes
  simp [Decode.usesF, isFload, isFstore, isFmadd, isFmsub, isFnmsub, isFnmadd, isFpu, hop]

theorem ctrl (hs : Commanding imem s i h ins) :
    s.es.buf.main.bus.ctrl =
      ctrlPacket (imem h.trace.state.pc) s.es.buf.main.bus.ctrl.pc :=
  hs.word.decoded.ctrl

theorem isMul (hs : Commanding imem s i h ins) : s.es.buf.main.bus.ctrl.isMul = false := by
  rw [hs.ctrl]
  exact hs.only.isMul

/-- It does not wait. -/
theorem moves (hs : Commanding imem s i h ins) : esToMsValid cfg s i = true :=
  esToMsValid_of_not_isMul (liveEs_parts hs.live).1 hs.isMul

/-- It asks for nothing. -/
theorem request_none (hs : Commanding imem s i h ins) : request cfg s i = none := by
  have hno : dmemEn cfg s i = false := by
    have hop : (ExeStage.bus s.es).mem.memOp.any = false := by
      rw [show (ExeStage.bus s.es).mem.memOp = _ from hs.word.decoded.memOp]
      exact hs.only.memOp
    simp [dmemEn, ExeStage.dmemEn, hop]
  rw [request, hno]
  rfl

/-- It redirects nothing. -/
theorem brRedirect_eq (hs : Commanding imem s i h ins) : brRedirect cfg s i = false := by
  cases hbr : brRedirect cfg s i with
  | false => rfl
  | true =>
      have hjump := (isBrJmp_of_brRedirect hbr).2.2
      rw [hs.ctrl] at hjump
      have hjump' : isBrJmpInst (imem h.trace.state.pc) = true := hjump
      rw [hs.only.isBrJmp] at hjump'
      cases hjump'

/-- Fetch has gone on behind it. -/
theorem headPc_next (hs : Commanding imem s i h ins) (hflow : Flow cfg s) (hpred : Predict imem s)
    (hal : h.trace.state.pc.toNat % 4 = 0) :
    headPc cfg (next cfg s i) = h.trace.state.pc + 4#32 := by
  have hflush : pipeFlush cfg s i = false := by
    rw [pipeFlush, hs.brRedirect_eq, hs.quiet, Bool.false_or]
  rw [headPc_of_leaving hs.control hflow hflush hs.live hs.moves]
  have hnot : s.es.buf.main.bus.brJmp.bpPredTaken = false := by
    cases hp : s.es.buf.main.bus.brJmp.bpPredTaken with
    | false => rfl
    | true =>
        have hjump := hpred.esMain (liveEs_parts hs.live).1 hp
        rw [hs.pc] at hjump
        rw [JumpAt, hs.only.isBrJmp] at hjump
        cases hjump hal
  simp [esHop, hop, hnot, hs.pc]

variable (cfg) in
/-- The instruction reaches the memory stage. -/
theorem payload_next (hs : Commanding imem s i h ins) :
    MemPayloadOf (imem h.trace.state.pc) (next cfg s i).ms.buf.main ∧
      (next cfg s i).ms.buf.main = msPayload cfg s i ∧ liveMs (next cfg s i) = true ∧
      (next cfg s i).ms.buf.main.bus.pc = h.trace.state.pc := by
  have hmain : (next cfg s i).ms.buf.main = msPayload cfg s i := by
    rw [next_ms_main hs.control, if_pos hs.moves]
  refine ⟨?_, hmain, next_liveMs hs.control hs.live hs.quiet hs.moves, ?_⟩
  · rw [hmain]
    exact memPayloadOf_of_payloadOf (liveEs_parts hs.live).1 hs.word
  · rw [hmain, ← hs.pc]
    rfl

variable (i') in
/-- What it traps on there. -/
theorem trapCause_next (hs : Commanding imem s i h ins)
    (hdec : Isa.decodeSystem (imem h.trace.state.pc) = some ins)
    (hfile : (next cfg s i).csr.file.Holds h.csr) :
    trapCause (next cfg s i) i' (imem h.trace.state.pc) =
      (h.cause? imem i'.plicIrq).map trapCauseOf := by
  have hx := (hs.payload_next cfg).1
  have hbr := hx.brTaken_eq_false hs.only.isBrJmp
  have hirq := irqPending_eq (i := i') hfile
  simp only [trapCause, hbr, hs.only.load, hs.only.store, Bool.false_and, Bool.false_eq_true, if_false,
    Isa.Hart.cause?, hdec, hirq]
  have henc := hs.encodes
  cases henc with
  | csr o immediate hop haddr ho =>
      have hw := csrWord_of_encodes hop ho
      simp only [hw.ecall, hw.ebreak, Bool.false_eq_true, if_false]
      split <;> rfl
  | ecall hw =>
      rw [hw, show instEcall 0x0000_0073#32 = true by decide]
      rfl
  | ebreak hw =>
      rw [hw, show instEcall 0x0010_0073#32 = false by decide,
        show instEbreak 0x0010_0073#32 = true by decide]
      rfl
  | mret hw =>
      rw [hw, show instEcall 0x3020_0073#32 = false by decide,
        show instEbreak 0x3020_0073#32 = false by decide]
      simp only [Bool.false_eq_true, if_false]
      split <;> rfl

/-! ### A CSR instruction -/

section Csr

variable {o : Isa.CsrUpdate} {rd : BitVec 5} {addr : BitVec 12} {src : Isa.CsrSource}

theorem csrWord (hs : Commanding imem s i h (.csr o rd addr src)) :
    CsrWord (imem h.trace.state.pc) o src ∧ rdAddr (imem h.trace.state.pc) = rd ∧
      csrAddr (imem h.trace.state.pc) = addr ∧ Csr.implemented addr = true := by
  have henc := hs.encodes
  cases henc with
  | csr o immediate hop haddr ho =>
      exact ⟨csrWord_of_encodes hop ho, rfl, rfl, implemented_eq ▸ haddr⟩

/-- Its result is the old value. -/
theorem exeResult_eq (hs : Commanding imem s i h (.csr o rd addr src)) :
    ExeStage.exeResult cfg s.es (exePorts cfg s i) = csrValue s.es.buf.main := by
  have hcsr := hs.csrWord.1.isCsr
  obtain ⟨hbit, halu, hfpu, hmem, hmul, -, -⟩ := class_of_isCsrInst hcsr
  have hctrl : (ExeStage.bus s.es).ctrl = _ := hs.ctrl
  rw [ExeStage.exeResult, esFlush_of_live hs.live hs.quiet, hctrl]
  simp only [ctrlPacket, hbit, halu, hfpu, hmem, hmul, hcsr, Bool.false_eq_true, if_false, if_true]
  rfl

theorem esWrites_eq (hs : Commanding imem s i h (.csr o rd addr src)) : esWrites cfg s i = true := by
  have hctrl : (ExeStage.bus s.es).ctrl = _ := hs.ctrl
  have hwen := (class_of_isCsrInst hs.csrWord.1.isCsr).2.2.2.2.2.2
  rw [esWrites, ExeStage.exeRegfileWen, ExeStage.esValid, (liveEs_parts hs.live).1,
    esFlush_of_live hs.live hs.quiet, hctrl]
  simp [ctrlPacket, hwen]

theorem rdAddr_eq (hs : Commanding imem s i h (.csr o rd addr src)) :
    s.es.buf.main.bus.ctrl.rdAddr = rd := by
  rw [hs.ctrl]
  exact hs.csrWord.2.1

/-- What decode takes from execute behind it. -/
theorem ahead (hs : Commanding imem s i h (.csr o rd addr src))
    (hvalue : csrValue s.es.buf.main = RegisterFile.read Isa.csrLayout h.csr addr)
    (hregs : ∀ r, r ≠ 0#5 → h.trace.state.read r = regView s i r) (rdata : Word) :
    Ahead cfg s i (h.access o rd addr src).trace.state.read rdata := by
  have hread : ∀ r, r ≠ 0#5 → (h.access o rd addr src).trace.state.read r =
      if r = rd then RegisterFile.read Isa.csrLayout h.csr addr else h.trace.state.read r :=
    fun r hr => Isa.Trace.write_read h.trace rd _ hr
  refine { zero := rfl, written := ?_, loaded := ?_, other := ?_ }
  · intro _ hne _
    rw [hread _ hne, hs.rdAddr_eq, if_pos rfl, hs.exeResult_eq, hvalue]
  · -- it is no load
    intro hok
    have hlw := (exeLwLiveOk_parts hok).2.1
    have hload := instLw_of_es hs.word.decoded hlw
    have hmem := hs.only.isMem
    simp only [instLw, Bool.and_eq_true] at hload
    simp [isMemInst, hload.1] at hmem
  · intro r hr hnot
    rw [hread r hr, if_neg (fun heq => hnot ⟨hs.esWrites_eq, hs.rdAddr_eq.trans heq.symm⟩)]
    exact hregs r hr

/-- What it writes back. -/
theorem msWrite_next (hs : Commanding imem s i h (.csr o rd addr src))
    (hvalue : csrValue s.es.buf.main = RegisterFile.read Isa.csrLayout h.csr addr)
    (hquiet : exceptionFlag (next cfg s i) i' = false) :
    (h.access o rd addr src).trace.writes =
      h.trace.writes ++ (msWrite (next cfg s i) i').toList := by
  rcases hs.payload_next cfg with ⟨hx, hmain, hlive, hpc⟩
  rcases liveMs_parts hlive with ⟨hv, hfl⟩
  obtain ⟨-, -, -, -, -, hexe, hwen⟩ := class_of_isCsrInst hs.csrWord.1.isCsr
  have hw : MemStage.memRegfileWen (next cfg s i).ms (exceptionFlag (next cfg s i) i') = true := by
    rw [MemStage.memRegfileWen, MemStage.msValid, hv, hfl, hquiet, MemStage.bus, hx.regfileWen, hwen]
    rfl
  have hrd : MemStage.memDstAddr (next cfg s i).ms = rd := by
    rw [MemStage.memDstAddr, MemStage.bus, hx.rdAddr]
    exact hs.csrWord.2.1
  have hresult : memResult (next cfg s i) i' = RegisterFile.read Isa.csrLayout h.csr addr := by
    have hsel : (MemStage.bus (next cfg s i).ms).exeResultSel.exe = true := by
      rw [MemStage.bus, hx.exeResultSel]
      exact hexe
    rw [memResult, MemStage.memResult, if_pos hsel, MemStage.bus, hmain, ← hvalue, ← hs.exeResult_eq]
    rfl
  rw [msWrite, hw, hrd, hresult, MemStage.bus, hpc]
  show h.trace.writes ++ (Isa.Outcome.write _ _).toList = _
  by_cases hzero : rd = 0#5
  · simp [Isa.Outcome.write, hzero]
  · simp [Isa.Outcome.write, hzero]

/-- The operand that it uses. -/
theorem csrOperand_eq {rdata : Word} (hs : Commanding imem s i h (.csr o rd addr src))
    (hcarries : Carries cfg imem h.trace.state.read rdata s.es.buf.main) :
    csrOperand s (imem h.trace.state.pc) = src.value h.trace.state := by
  have hw := hs.csrWord.1
  rw [csrOperand]
  cases hsel : csrImmSel (imem h.trace.state.pc) with
  | true =>
      rw [hw.immSel hsel]
      rfl
  | false =>
      have hsrc := hw.regSel hsel
      have huse : Datapath.uses1 (imem h.trace.state.pc) = true := by
        simp [Datapath.uses1, hw.needRs1 hsrc]
      -- it takes nothing of this cycle
      have hfwd : s.es.buf.main.bus.src.src1Fwd ≠ 0b11#2 := by
        intro hfwd
        have hord := hcarries.live (Or.inl hfwd)
        rw [hs.pc] at hord
        simp [ordinaryIntAlu, hw.isCsr] at hord
      have hop := hcarries.operands.first
      rw [hs.pc] at hop
      have harg := hop huse
      rw [ExeStage.Payload.argument1, ExeStage.argument_of_ne hfwd] at harg
      have hopcode := Isa.opcode_of_encodesSystem hs.encodes
      have hlui : instLui (imem h.trace.state.pc) = false ∧ instAuipc (imem h.trace.state.pc) = false := by
        simp [instLui, instAuipc, isLui, isAuipc, hopcode]
      rw [Datapath.operand1, hlui.1, hlui.2] at harg
      rw [hsrc]
      exact harg

/-- The access of the machine. -/
theorem csrModelNext_eq {rdata : Word} {l : Labels} (hs : Commanding imem s i h (.csr o rd addr src))
    (hcarries : Carries cfg imem h.trace.state.read rdata s.es.buf.main)
    (hl : Labelled s l) (hinst : l.esMain.inst = imem h.trace.state.pc) :
    csrModelNext cfg s i l h.csr = (h.access o rd addr src).csr := by
  have hcsr : isCsrInst l.esMain.inst = true := by
    rw [hinst]
    exact hs.csrWord.1.isCsr
  rw [csrModelNext, if_pos (executesCsr_of_live hl hs.live hs.quiet hcsr)]
  show RegisterFile.step Csr.layout h.csr _ =
    RegisterFile.step Isa.csrLayout h.csr (Isa.csrAccess h.trace.state o addr src)
  rw [csrLayout_eq, csrAccess, hinst, hs.csrOperand_eq hcarries, hs.csrWord.1.access, hs.csrWord.2.2.1]
  rfl

end Csr

end Commanding

end Cpu

end RiscvCpu
