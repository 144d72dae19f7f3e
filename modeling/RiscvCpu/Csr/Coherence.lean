import RiscvCpu.Csr.Registers
import RiscvCpu.Pipeline.Request

/-!
# Coherence — CSR accesses over whole runs

A CSR instruction reads its register in decode and writes it from the memory stage.  In between the
new value is in execute, from where a younger access takes it with its forwarding snapshot, and in the
memory stage, from where it takes it through the bypass of the CSR file.

The accesses are compared with a register file that performs them one at a time, in the order in
which they leave execute.  The three sources agree on every address with a register.  On an address
without one they do not: the forwarded word is the one to be written, although it is then lost.
-/

namespace RiscvCpu

open Csr

namespace Decode

variable {x : Word}

theorem isCsrInst_of_csrWen (h : csrWen x = true) : isCsrInst x = true := by
  simp only [csrWen, isCsrInst, Bool.or_eq_true, Bool.and_eq_true] at h ⊢
  tauto

/-- A CSR instruction is in no other class, and its result comes from execute. -/
theorem class_of_isCsrInst (h : isCsrInst x = true) :
    isBitmanInst x = false ∧ isAluInst x = false ∧ isFpuInst x = false ∧ isMemInst x = false ∧
      isMulInst x = false ∧ (exeResultSel x).exe = true ∧ ctrlRegfileWen x = true := by
  have hop : opcode x = 0b1110011#7 := by
    simp only [isCsrInst, instCsrrw, instCsrrs, instCsrrc, instCsrrwi, instCsrrsi, instCsrrci,
      isSystem, Bool.or_eq_true, Bool.and_eq_true, beq_iff_eq] at h
    tauto
  have hreg : isOpReg x = false := by simp [isOpReg, hop]
  have himm : isOpImm x = false := by simp [isOpImm, hop]
  have hF : usesF x = false := by
    simp [usesF, isFload, isFstore, isFmadd, isFmsub, isFnmsub, isFnmadd, isFpu, hop]
  refine ⟨isBitmanInst_eq_false hreg himm, isAluInst_eq_false hreg himm (by simp [isLui, hop])
    (by simp [isAuipc, hop]), isFpuInst_eq_false hF, ?_, isMulInst_eq_false hreg, ?_, ?_⟩
  · simp [isMemInst, isLoad, isStore, instFlw_eq_false hF, instFsw_eq_false hF, hop]
  · simp [exeResultSel, h]
  · simp [ctrlRegfileWen, h]

end Decode

namespace Cpu

variable {cfg : Config} {s : Cpu} {i : CpuIn} {t : Nat} {l : Labels}

/-! ## The sequential model of a run -/

/-- The word read by the CSR instruction of a packet: the snapshot or the word read in decode. -/
def csrValue (b : ExeStage.Payload) : Word :=
  if b.bus.csr.csrRdataFwd then b.csrWdata else b.bus.csr.csrRdata

/-- The operand that execute gives to the CSR instruction `x`. -/
def csrOperand (s : Cpu) (x : Word) : Word :=
  if Decode.csrImmSel x then Decode.immZExt x else ExeStage.src1Base s.es

/-- A live CSR instruction leaves execute in this cycle. -/
def executesCsr (cfg : Config) (s : Cpu) (i : CpuIn) (l : Labels) : Bool :=
  liveEs s && esToMsValid cfg s i && !exceptionFlag s i && Decode.isCsrInst l.esMain.inst

/-- The access that execute performs in this cycle. -/
def csrAccess (s : Cpu) (l : Labels) : RegisterFile.Access (BitVec 12) Word :=
  accessOf l.esMain.inst (csrOperand s l.esMain.inst)

/-- The CSR accesses that have left execute before cycle `t`, the oldest first. -/
def csrTrace (cfg : Config) (s₀ : Cpu) (inp : Nat → CpuIn) :
    Nat → List (RegisterFile.Access (BitVec 12) Word)
  | 0 => []
  | t + 1 =>
      csrTrace cfg s₀ inp t ++
        if executesCsr cfg (run cfg s₀ inp t) (inp t) (labelsAt cfg s₀ inp t) then
          [csrAccess (run cfg s₀ inp t) (labelsAt cfg s₀ inp t)]
        else []

/-- The contents of the sequential register file after those accesses. -/
def csrModel (cfg : Config) (s₀ : Cpu) (inp : Nat → CpuIn) (t : Nat) : BitVec 12 → Word :=
  RegisterFile.run layout (fun _ => 0#32) (csrTrace cfg s₀ inp t)

/-- The contents of the sequential register file after this cycle. -/
def csrModelNext (cfg : Config) (s : Cpu) (i : CpuIn) (l : Labels) (m : BitVec 12 → Word) :
    BitVec 12 → Word :=
  if executesCsr cfg s i l then RegisterFile.step layout m (csrAccess s l) else m

theorem csrModel_succ (cfg : Config) (s₀ : Cpu) (inp : Nat → CpuIn) (t : Nat) :
    csrModel cfg s₀ inp (t + 1) = csrModelNext cfg (run cfg s₀ inp t) (inp t)
      (labelsAt cfg s₀ inp t) (csrModel cfg s₀ inp t) := by
  simp only [csrModel, csrTrace, csrModelNext]
  split
  · exact RegisterFile.run_concat _
  · rw [List.append_nil]

/-! ## Runs without traps -/

/-- In this cycle no trap or interrupt is taken and no `MRET` is performed. -/
structure Undisturbed (s : Cpu) (i : CpuIn) (l : Labels) : Prop where
  noTrap : exceptionFlag s i = false
  noMret : liveMs s = true → Decode.instMret l.ms.inst = false

/-! ## The CSR file with the write on its way -/

/-- The file once the write in the memory stage is done. -/
def committed (s : Cpu) : RegfileCsr.File :=
  if liveMs s && (MemStage.bus s.ms).csrWen then
    s.csr.file.write (MemStage.csrWaddr s.ms) (MemStage.bus s.ms).csrWdata
  else s.csr.file

/-- The word that an older write to the address of decode's CSR instruction has still to deliver: the
one in execute, or else the one in the memory stage. -/
def pendingCsrWord (cfg : Config) (s : Cpu) (i : CpuIn) : Option Word :=
  let a := Decode.csrAddr (IdStage.idInst s.ds)
  if IdStage.csrRdataFwd s.ds (idPorts cfg s i) then some (ExeStage.csrWdata s.es)
  else if csrWe s i && (a == MemStage.csrWaddr s.ms) then
    some (MemStage.csrWdata s.ms (exceptionCode s i))
  else none

/-- A live CSR instruction whose address has no register passes to execute with a word other than
zero that a write ahead of it has still to deliver. -/
def staleCsrRead (cfg : Config) (s : Cpu) (i : CpuIn) : Bool :=
  let x := IdStage.idInst s.ds
  SkidBuffer.inFire s.es.buf (esWires cfg s i) && !dsFlush cfg s i && Decode.isCsrInst x &&
  !implemented (Decode.csrAddr x) && !counter (Decode.csrAddr x) &&
  ((pendingCsrWord cfg s i).getD 0#32 != 0#32)

/-! ## What the stages compute -/

theorem csrValue_esPayload :
    csrValue (esPayload cfg s i) =
      if IdStage.csrRdataFwd s.ds (idPorts cfg s i) then ExeStage.csrWdata s.es
      else RegfileCsr.csrRdata s.csr (csrPorts cfg s i)
        (Decode.csrAddr (IdStage.idInst s.ds)) := rfl

theorem csrData_eq : ExeStage.csrData s.es = csrValue s.es.buf.main := rfl

/-- The word that execute sends to the CSR file is the new value of the access. -/
theorem csrWdata_eq {x : Word} (hx : PayloadOf x s.es.buf.main)
    (h : Decode.isCsrInst x = true) :
    ExeStage.csrWdata s.es =
      (accessOf x (csrOperand s x)).modify (csrValue s.es.buf.main) := by
  have hop : (ExeStage.bus s.es).csr.csrOp = Decode.csrOp x := hx.decoded.csrOp
  have hsel : (ExeStage.bus s.es).csr.csrImmSel = Decode.csrImmSel x := hx.decoded.csrImmSel
  have himm : (ExeStage.bus s.es).csr.csrImm = Decode.csrImm x := hx.decoded.csrImm
  simp only [ExeStage.csrWdata, hop, hsel, himm, csrData_eq, accessOf, csrOperand, Decode.csrImm,
    Decode.imzValid]
  simp only [Decode.isCsrInst, Decode.instCsrrw, Decode.instCsrrs, Decode.instCsrrc,
    Decode.instCsrrwi, Decode.instCsrrsi, Decode.instCsrrci, Decode.f3_001, Decode.f3_010,
    Decode.f3_011, Decode.f3_101, Decode.f3_110, Decode.f3_111, Bool.or_eq_true,
    Bool.and_eq_true, beq_iff_eq] at h
  rcases h with ((((⟨hs, hf⟩ | ⟨hs, hf⟩) | ⟨hs, hf⟩) | ⟨hs, hf⟩) | ⟨hs, hf⟩) | ⟨hs, hf⟩
  all_goals
    simp [Decode.csrOp, Decode.csrImmSel, Decode.instCsrrw, Decode.instCsrrs, Decode.instCsrrc,
      Decode.instCsrrwi, Decode.instCsrrsi, Decode.instCsrrci, Decode.f3_001, Decode.f3_010,
      Decode.f3_011, Decode.f3_101, Decode.f3_110, Decode.f3_111, hs, hf, Decode.gate]

/-! ## The file over one edge -/

theorem csrWe_eq (hcode : exceptionCode s i = 0#7) :
    csrWe s i = (liveMs s && (MemStage.bus s.ms).csrWen) := by
  simp only [csrWe, MemStage.csrWe, hcode, liveMs, MemStage.msValid]
  cases s.ms.buf.valid <;> cases MemStage.msFlush s.ms <;> simp

theorem next_csr_file (hcode : exceptionCode s i = 0#7) :
    (next cfg s i).csr.file = committed s := by
  have hwe := csrWe_eq hcode
  have hcode5 : (0#7 : BitVec 7).getLsbD 5 = false := rfl
  simp only [next, RegfileCsr.next, RegfileCsr.fileNext, csrPorts, hwe, hcode, hcode5, committed,
    MemStage.csrWdata, Bool.false_eq_true, if_false]
  rfl

theorem executesCsr_parts (h : executesCsr cfg s i l = true) :
    liveEs s = true ∧ esToMsValid cfg s i = true ∧ exceptionFlag s i = false ∧
      Decode.isCsrInst l.esMain.inst = true := by
  simp only [executesCsr, Bool.and_eq_true, Bool.not_eq_true'] at h
  exact ⟨h.1.1.1, h.1.1.2, h.1.2, h.2⟩

/-- A live CSR instruction in execute always moves on. -/
theorem executesCsr_of_live (hl : Labelled s l) (hlive : liveEs s = true)
    (hexc : exceptionFlag s i = false) (hcsr : Decode.isCsrInst l.esMain.inst = true) :
    executesCsr cfg s i l = true := by
  have hv := (liveEs_parts hlive).1
  have hmul : s.es.buf.main.bus.ctrl.isMul = false := by
    rw [hl.esMain.2.decoded.ctrl]
    exact (Decode.class_of_isCsrInst hcsr).2.2.2.2.1
  have hmove : esToMsValid cfg s i = true := esToMsValid_of_not_isMul hv hmul
  simp [executesCsr, hlive, hmove, hexc, hcsr]

theorem exeCsrWen_eq (hl : Labelled s l) :
    ExeStage.exeCsrWen s.es (exePorts cfg s i) =
      (liveEs s && !exceptionFlag s i && Decode.csrWen l.esMain.inst) := by
  have hwen : (ExeStage.bus s.es).csr.csrWen = Decode.csrWen l.esMain.inst :=
    hl.esMain.2.decoded.csrWen
  have hflush : ExeStage.esFlush s.es (exePorts cfg s i) =
      (s.es.buf.main.dsFlush || exceptionFlag s i) := rfl
  simp only [ExeStage.exeCsrWen, hwen, hflush, ExeStage.esValid, liveEs]
  cases s.es.buf.valid <;> cases s.es.buf.main.dsFlush <;> cases exceptionFlag s i <;> simp

/-- The write that enters the memory stage is that of the access performed in this cycle. -/
theorem committed_next (hc : Control s) (hl : Labelled s l) (hcode : exceptionCode s i = 0#7) :
    committed (next cfg s i) =
      if executesCsr cfg s i l && Decode.csrWen l.esMain.inst then
        (committed s).write (Decode.csrAddr l.esMain.inst) (ExeStage.csrWdata s.es)
      else committed s := by
  have hfile := @next_csr_file cfg s i hcode
  cases hmove : esToMsValid cfg s i with
  | false =>
      -- the memory stage is empty after this edge
      have hempty : liveMs (next cfg s i) = false := by
        rw [liveMs, next_ms_valid hc, hmove]
        rfl
      simp [committed, hempty, hfile, executesCsr, hmove]
  | true =>
      have hv := (esToMsValid_parts hmove).1
      have hmain : (next cfg s i).ms.buf.main = msPayload cfg s i := by
        rw [next_ms_main hc, if_pos hmove]
      have hlive : liveMs (next cfg s i) = (liveEs s && !exceptionFlag s i) := by
        rw [liveMs, next_ms_valid hc, hmove, next_msFlush hc hmove]
        simp [liveEs, hv]
      have hwen : (MemStage.bus (next cfg s i).ms).csrWen =
          (liveEs s && !exceptionFlag s i && Decode.csrWen l.esMain.inst) := by
        rw [MemStage.bus, hmain]
        exact exeCsrWen_eq hl
      have haddr : MemStage.csrWaddr (next cfg s i).ms = Decode.csrAddr l.esMain.inst := by
        rw [MemStage.csrWaddr, MemStage.bus, hmain]
        exact hl.esMain.2.decoded.csrWaddr
      have hdata : (MemStage.bus (next cfg s i).ms).csrWdata = ExeStage.csrWdata s.es := by
        rw [MemStage.bus, hmain]
        rfl
      have hcond : (liveMs (next cfg s i) && (MemStage.bus (next cfg s i).ms).csrWen) =
          (executesCsr cfg s i l && Decode.csrWen l.esMain.inst) := by
        rw [hlive, hwen, executesCsr, hmove]
        cases hw : Decode.csrWen l.esMain.inst with
        | false => simp
        | true =>
            rw [Decode.isCsrInst_of_csrWen hw]
            cases liveEs s <;> cases exceptionFlag s i <;> rfl
      have hnow : committed (next cfg s i) =
          if liveMs (next cfg s i) && (MemStage.bus (next cfg s i).ms).csrWen then
            (next cfg s i).csr.file.write (MemStage.csrWaddr (next cfg s i).ms)
              (MemStage.bus (next cfg s i).ms).csrWdata
          else (next cfg s i).csr.file := rfl
      rw [hnow, hcond, hfile, haddr, hdata]

/-! ## The invariant -/

/-- The file with the write on its way holds the contents `m` of the sequential register file, and
the accesses to an address in `D` that wait in execute have read their word from it. -/
structure CsrCoherent (D : BitVec 12 → Bool) (s : Cpu) (l : Labels) (m : BitVec 12 → Word) :
    Prop where
  file : ∀ a, implemented a = true → (committed s).read a = some (m a)
  main : liveEs s = true → Decode.isCsrInst l.esMain.inst = true →
    D (Decode.csrAddr l.esMain.inst) = true →
    csrValue s.es.buf.main = RegisterFile.read layout m (Decode.csrAddr l.esMain.inst)
  skid : s.es.buf.skidValid = true → Decode.isCsrInst l.esSkid.inst = true →
    D (Decode.csrAddr l.esSkid.inst) = true →
    csrValue s.es.buf.skid = RegisterFile.read layout m (Decode.csrAddr l.esSkid.inst)

/-- What passes to execute with an address in `D` that has no register is given no word but zero. -/
def CsrReadFresh (D : BitVec 12 → Bool) (cfg : Config) (s : Cpu) (i : CpuIn) : Prop :=
  let x := IdStage.idInst s.ds
  SkidBuffer.inFire s.es.buf (esWires cfg s i) = true → dsFlush cfg s i = false →
    Decode.isCsrInst x = true → D (Decode.csrAddr x) = true →
    implemented (Decode.csrAddr x) = false → (pendingCsrWord cfg s i).getD 0#32 = 0#32

theorem csrCoherent_reset (D : BitVec 12 → Bool) (s₀ : Cpu) :
    CsrCoherent D s₀.reset Labels.reset (fun _ => 0#32) :=
  { file := by
      intro a ha
      have hfile : committed s₀.reset = RegfileCsr.reset.file := rfl
      rw [hfile]
      simp only [implemented, registers, decide_eq_true_eq, List.mem_cons, List.not_mem_nil,
        or_false] at ha
      rcases ha with rfl | rfl | rfl | rfl | rfl | rfl | rfl | rfl | rfl | rfl | rfl | rfl | rfl
      all_goals rfl
    main := by intro h; cases h
    skid := by intro h; cases h }

/-- A word that is not stale is fresh for every address but the counters. -/
theorem csrReadFresh_of_not_stale (h : staleCsrRead cfg s i = false) :
    CsrReadFresh (fun a => !counter a) cfg s i := by
  intro hfire hlive hcsr hin himpl
  have hcount : counter (Decode.csrAddr (IdStage.idInst s.ds)) = false := by simpa using hin
  by_contra hz
  have hstale : staleCsrRead cfg s i = true := by
    simp [staleCsrRead, hfire, hlive, hcsr, hcount, himpl, hz]
  rw [hstale] at h
  cases h

section Step

variable {D : BitVec 12 → Bool} {m : BitVec 12 → Word}

/-- The read port of the CSR file shows the sequential contents, unless its bypass shows a word on
its way to an address without a register. -/
theorem csrRdata_eq (h : CsrCoherent D s l m) (hcode : exceptionCode s i = 0#7) {a : BitVec 12}
    (hcount : counter a = false)
    (hzero : implemented a = false → csrWe s i = true → a = MemStage.csrWaddr s.ms →
      MemStage.csrWdata s.ms (exceptionCode s i) = 0#32) :
    RegfileCsr.csrRdata s.csr (csrPorts cfg s i) a = RegisterFile.read layout m a := by
  have hwe := csrWe_eq hcode
  have hdata : MemStage.csrWdata s.ms (exceptionCode s i) = (MemStage.bus s.ms).csrWdata := by
    rw [hcode]
    rfl
  simp only [counter, Bool.or_eq_false_iff, beq_eq_false_iff_ne] at hcount
  -- either the memory stage is writing this very address, or the stored register is read
  by_cases hbypass : a = MemStage.csrWaddr s.ms ∧ csrWe s i = true
  · have hport : RegfileCsr.csrRdata s.csr (csrPorts cfg s i) a =
        (MemStage.bus s.ms).csrWdata := by
      simp only [RegfileCsr.csrRdata, csrPorts, ← hbypass.1, hbypass.2, hdata]
      simp
    rw [hport]
    cases ha : implemented a with
    | true =>
        have hread := h.file a ha
        rw [committed, ← hwe, if_pos hbypass.2, ← hbypass.1,
          RegfileCsr.File.read_write _ _ _ ha, if_pos rfl] at hread
        simpa [RegisterFile.read, layout, ha] using hread
    | false =>
        rw [← hdata, hzero ha hbypass.2 hbypass.1]
        simp [RegisterFile.read, layout, ha]
  · have hcond : (a == MemStage.csrWaddr s.ms && csrWe s i) = false := by
      cases hw : csrWe s i with
      | false => rw [Bool.and_false]
      | true =>
          have hne : a ≠ MemStage.csrWaddr s.ms := fun heq => hbypass ⟨heq, hw⟩
          simp [hne]
    simp only [RegfileCsr.csrRdata, csrPorts, hcond, Bool.false_eq_true, if_false]
    cases ha : implemented a with
    | true =>
        have hread := h.file a ha
        have hstored : s.csr.file.read a = some (m a) := by
          rw [← hread, committed, ← hwe]
          split
          · rename_i hw
            exact (RegfileCsr.File.read_write_other _ _ fun heq => hbypass ⟨heq, hw⟩).symm
          · rfl
        simp [hstored, RegisterFile.read, layout, ha]
    | false =>
        simp [RegfileCsr.File.read_of_absent _ ha, hcount, RegisterFile.read, layout, ha]

/-- A younger access takes the new value of the CSR instruction in execute: what that instruction
writes is what the sequential register file then holds. -/
theorem csrValue_forwarded (hD : ∀ a, implemented a = true → D a = true)
    (h : CsrCoherent D s l m) (hl : Labelled s l) (hexc : exceptionFlag s i = false)
    (hfwd : IdStage.csrRdataFwd s.ds (idPorts cfg s i) = true)
    (hzero : implemented (Decode.csrAddr (IdStage.idInst s.ds)) = false →
      ExeStage.csrWdata s.es = 0#32) :
    ExeStage.csrWdata s.es = RegisterFile.read layout (csrModelNext cfg s i l m)
      (Decode.csrAddr (IdStage.idInst s.ds)) := by
  have hwaddr : ExeStage.exeCsrAddr s.es = Decode.csrAddr l.esMain.inst :=
    hl.esMain.2.decoded.csrWaddr
  have hparts : ExeStage.exeCsrWen s.es (exePorts cfg s i) = true ∧
      ExeStage.exeCsrAddr s.es = Decode.csrAddr (IdStage.idInst s.ds) := by
    simpa [IdStage.csrRdataFwd, idPorts] using hfwd
  have haddr : Decode.csrAddr l.esMain.inst = Decode.csrAddr (IdStage.idInst s.ds) := by
    rw [← hwaddr]
    exact hparts.2
  rw [exeCsrWen_eq hl, Bool.and_eq_true, Bool.and_eq_true] at hparts
  rcases hparts with ⟨⟨⟨hlive, -⟩, hw⟩, -⟩
  have hcsr := Decode.isCsrInst_of_csrWen hw
  have hself : RegisterFile.read layout (csrModelNext cfg s i l m)
      (Decode.csrAddr l.esMain.inst) =
      if implemented (Decode.csrAddr l.esMain.inst) then
        (csrAccess s l).modify
          (RegisterFile.read layout m (Decode.csrAddr l.esMain.inst))
      else 0#32 := by
    rw [csrModelNext, if_pos (executesCsr_of_live hl hlive hexc hcsr)]
    exact RegisterFile.read_step_self (x := csrAccess s l) hw
  rw [← haddr, hself]
  split
  · rename_i himpl
    rw [csrWdata_eq hl.esMain.2 hcsr, h.main hlive hcsr (hD _ himpl)]
    rfl
  · rename_i himpl
    exact hzero (by rw [← haddr]; simpa using himpl)

/-- The CSR instruction in execute leaves an address alone to which it does not forward. -/
theorem csrModelNext_read_other (hl : Labelled s l)
    (hfwd : IdStage.csrRdataFwd s.ds (idPorts cfg s i) = false) :
    RegisterFile.read layout (csrModelNext cfg s i l m)
        (Decode.csrAddr (IdStage.idInst s.ds)) =
      RegisterFile.read layout m (Decode.csrAddr (IdStage.idInst s.ds)) := by
  have hwaddr : ExeStage.exeCsrAddr s.es = Decode.csrAddr l.esMain.inst :=
    hl.esMain.2.decoded.csrWaddr
  rw [csrModelNext]
  split
  · rename_i hex
    refine RegisterFile.read_step_other ?_
    -- a write to the same address would have been forwarded
    intro hw heq
    rcases executesCsr_parts hex with ⟨hlive, -, hexc, -⟩
    have hw' : Decode.csrWen l.esMain.inst = true := hw
    have hexe : ExeStage.exeCsrWen s.es (exePorts cfg s i) = true := by
      rw [exeCsrWen_eq hl, hlive, hexc, hw']
      rfl
    have heq' : ExeStage.exeCsrAddr s.es = Decode.csrAddr (IdStage.idInst s.ds) := by
      rw [hwaddr]
      exact heq.symm
    have htrue : IdStage.csrRdataFwd s.ds (idPorts cfg s i) = true := by
      simp [IdStage.csrRdataFwd, idPorts, hexe, heq']
    rw [htrue] at hfwd
    cases hfwd
  · rfl

/-- The access performed in this cycle decides what the one behind it reads. -/
theorem csrValue_accepted (hD : ∀ a, implemented a = true → D a = true)
    (h : CsrCoherent D s l m) (hl : Labelled s l) (hcode : exceptionCode s i = 0#7)
    (hexc : exceptionFlag s i = false)
    (hcount : counter (Decode.csrAddr (IdStage.idInst s.ds)) = false)
    (hzero : implemented (Decode.csrAddr (IdStage.idInst s.ds)) = false →
      (pendingCsrWord cfg s i).getD 0#32 = 0#32) :
    csrValue (esPayload cfg s i) = RegisterFile.read layout (csrModelNext cfg s i l m)
      (Decode.csrAddr (IdStage.idInst s.ds)) := by
  cases hfwd : IdStage.csrRdataFwd s.ds (idPorts cfg s i) with
  | true =>
      rw [csrValue_esPayload, if_pos hfwd]
      refine csrValue_forwarded hD h hl hexc hfwd ?_
      intro himpl
      have hz := hzero himpl
      simpa [pendingCsrWord, hfwd] using hz
  | false =>
      rw [csrValue_esPayload, hfwd, if_neg Bool.false_ne_true, csrModelNext_read_other hl hfwd]
      refine csrRdata_eq h hcode hcount ?_
      intro himpl hwe haddr
      have hz := hzero himpl
      simpa [pendingCsrWord, hfwd, hwe, haddr] using hz

/-- While execute stands still no access is performed. -/
theorem executesCsr_of_stalled (hl : Labelled s l)
    (hmul : s.es.buf.main.bus.ctrl.isMul = true) :
    executesCsr cfg s i l = false ∧ Decode.isCsrInst l.esMain.inst = false := by
  have hnot : Decode.isCsrInst l.esMain.inst = false := by
    cases hcsr : Decode.isCsrInst l.esMain.inst with
    | false => rfl
    | true =>
        rw [hl.esMain.2.decoded.ctrl] at hmul
        have hmul' : Decode.isMulInst l.esMain.inst = true := hmul
        rw [(Decode.class_of_isCsrInst hcsr).2.2.2.2.1] at hmul'
        cases hmul'
  exact ⟨by simp [executesCsr, hnot], hnot⟩

theorem csrCoherent_next_file (h : CsrCoherent D s l m) (hD : ∀ a, implemented a = true → D a = true)
    (hc : Control s) (hl : Labelled s l) (hcode : exceptionCode s i = 0#7) (a : BitVec 12)
    (ha : implemented a = true) :
    (committed (next cfg s i)).read a = some (csrModelNext cfg s i l m a) := by
  rw [committed_next hc hl hcode, csrModelNext]
  -- the write that enters the memory stage is that of the access made in this cycle
  cases hex : executesCsr cfg s i l with
  | false => simpa using h.file a ha
  | true =>
      rcases executesCsr_parts hex with ⟨hlive, -, -, hcsr⟩
      cases hw : Decode.csrWen l.esMain.inst with
      | false =>
          have hsame : RegisterFile.step layout m (csrAccess s l) a = m a := by
            refine RegisterFile.step_other ?_
            intro hw'
            have hw'' : Decode.csrWen l.esMain.inst = true := hw'
            rw [hw] at hw''
            cases hw''
          simpa [hsame] using h.file a ha
      | true =>
          simp only [Bool.and_self, if_true]
          by_cases heq : a = Decode.csrAddr l.esMain.inst
          · subst heq
            rw [RegfileCsr.File.read_write _ _ _ ha, if_pos rfl,
              csrWdata_eq hl.esMain.2 hcsr, h.main hlive hcsr (hD _ ha)]
            have hstep : RegisterFile.step layout m (csrAccess s l)
                (Decode.csrAddr l.esMain.inst) = (csrAccess s l).modify
                  (RegisterFile.read layout m (Decode.csrAddr l.esMain.inst)) := by
              have hw' : (csrAccess s l).write = true := hw
              rw [RegisterFile.step, if_pos hw']
              exact Function.update_self ..
            rw [hstep]
            rfl
          · rw [RegfileCsr.File.read_write_other _ _ heq]
            have hsame : RegisterFile.step layout m (csrAccess s l) a = m a :=
              RegisterFile.step_other fun _ => heq
            rw [hsame]
            exact h.file a ha

theorem csrCoherent_next_main (h : CsrCoherent D s l m)
    (hD : ∀ a, implemented a = true → D a = true) (hcount : ∀ a, D a = true → counter a = false)
    (hc : Control s) (hl : Labelled s l) (hcode : exceptionCode s i = 0#7)
    (hexc : exceptionFlag s i = false) (hfresh : CsrReadFresh D cfg s i)
    (hlive : liveEs (next cfg s i) = true)
    (hcsr : Decode.isCsrInst (Labels.next cfg s i t l).esMain.inst = true)
    (hin : D (Decode.csrAddr (Labels.next cfg s i t l).esMain.inst) = true) :
    csrValue (next cfg s i).es.buf.main = RegisterFile.read layout (csrModelNext cfg s i l m)
      (Decode.csrAddr (Labels.next cfg s i t l).esMain.inst) := by
  rcases liveEs_parts hlive with ⟨hv, hmark⟩
  have hbuf := @next_es_buf cfg s i
  rw [hbuf] at hv hmark ⊢
  simp only [Labels.next, SkidBuffer.nextMain] at hcsr hin ⊢
  cases hcore : SkidBuffer.coreAllowin s.es.buf (esWires cfg s i) with
  | false =>
      -- what stands still is no CSR instruction
      exfalso
      simp only [hcore, Bool.false_eq_true, if_false] at hcsr
      have hnot := (@executesCsr_of_stalled cfg s i l hl (es_stalled hcore hc).2.2.2.1).2
      rw [hnot] at hcsr
      cases hcsr
  | true =>
      rw [SkidBuffer.next_of_moved hcore] at hv hmark ⊢
      rw [hcore] at hcsr hin
      cases hskid : s.es.buf.skidValid with
      | true =>
          simp only [hskid, if_true] at hcsr hin ⊢
          have hmul := (hc.esStopped (hc.esWf.stopped hskid)).2.1
          have hidle := (@executesCsr_of_stalled cfg s i l hl hmul).1
          rw [csrModelNext, hidle, if_neg Bool.false_ne_true]
          exact h.skid hskid hcsr hin
      | false =>
          have hfire : SkidBuffer.inFire s.es.buf (esWires cfg s i) = true := by
            simpa [hskid] using hv
          simp only [hskid, hfire, Bool.false_eq_true, if_false, if_true] at hcsr hin hmark ⊢
          have hinst : IdStage.idInst s.ds = l.dsMain.inst := hl.dsMain.2
          rw [← hinst] at hcsr hin ⊢
          exact csrValue_accepted hD h hl hcode hexc (hcount _ hin)
            (hfresh hfire hmark hcsr hin)

theorem csrCoherent_next_skid (h : CsrCoherent D s l m)
    (hD : ∀ a, implemented a = true → D a = true) (hcount : ∀ a, D a = true → counter a = false)
    (hc : Control s) (hl : Labelled s l) (hcode : exceptionCode s i = 0#7)
    (hexc : exceptionFlag s i = false) (hfresh : CsrReadFresh D cfg s i)
    (hv : (next cfg s i).es.buf.skidValid = true)
    (hcsr : Decode.isCsrInst (Labels.next cfg s i t l).esSkid.inst = true)
    (hin : D (Decode.csrAddr (Labels.next cfg s i t l).esSkid.inst) = true) :
    csrValue (next cfg s i).es.buf.skid = RegisterFile.read layout (csrModelNext cfg s i l m)
      (Decode.csrAddr (Labels.next cfg s i t l).esSkid.inst) := by
  have hmark := next_esSkidLive hc hv
  have hbuf := @next_es_buf cfg s i
  rw [hbuf] at hv hmark ⊢
  simp only [Labels.next, SkidBuffer.nextSkid] at hcsr hin ⊢
  cases hcore : SkidBuffer.coreAllowin s.es.buf (esWires cfg s i) with
  | true =>
      -- an edge that moves leaves the skid entry empty
      rw [SkidBuffer.next_of_moved hcore] at hv
      cases hv
  | false =>
      rw [SkidBuffer.next_of_stalled hcore] at hv hmark ⊢
      rw [hcore] at hcsr hin
      cases hskid : s.es.buf.skidValid with
      -- the parked instruction waits, and what stands in front of it is no CSR instruction
      | true =>
          simp only [hskid, Bool.not_true, Bool.and_false, Bool.false_eq_true, if_false]
            at hcsr hin ⊢
          have hidle := (@executesCsr_of_stalled cfg s i l hl (es_stalled hcore hc).2.2.2.1).1
          rw [csrModelNext, hidle, if_neg Bool.false_ne_true]
          exact h.skid hskid hcsr hin
      | false =>
          have hfire : SkidBuffer.inFire s.es.buf (esWires cfg s i) = true := by
            simp only [hskid, Bool.false_or, Bool.and_eq_true] at hv
            exact hv.2
          simp only [hskid, hfire, Bool.not_false, Bool.and_true, Bool.false_eq_true, if_false,
            if_true] at hcsr hin hmark ⊢
          have hinst : IdStage.idInst s.ds = l.dsMain.inst := hl.dsMain.2
          rw [← hinst] at hcsr hin ⊢
          exact csrValue_accepted hD h hl hcode hexc (hcount _ hin)
            (hfresh hfire hmark hcsr hin)

theorem csrCoherent_next (h : CsrCoherent D s l m) (hD : ∀ a, implemented a = true → D a = true)
    (hcount : ∀ a, D a = true → counter a = false) (hc : Control s) (hl : Labelled s l)
    (hcode : exceptionCode s i = 0#7) (hexc : exceptionFlag s i = false)
    (hfresh : CsrReadFresh D cfg s i) :
    CsrCoherent D (next cfg s i) (Labels.next cfg s i t l) (csrModelNext cfg s i l m) :=
  { file := csrCoherent_next_file h hD hc hl hcode
    main := csrCoherent_next_main h hD hcount hc hl hcode hexc hfresh
    skid := csrCoherent_next_skid h hD hcount hc hl hcode hexc hfresh }

end Step

/-! ## Runs in which nothing is disturbed -/

section Run

variable (cfg : Config) (s₀ : Cpu) (inp : Nat → CpuIn)

/-- No trap or interrupt is taken and no `MRET` is performed in the cycles up to `t`. -/
def UndisturbedUpTo (t : Nat) : Prop :=
  ∀ k, k ≤ t → Undisturbed (run cfg s₀ inp k) (inp k) (labelsAt cfg s₀ inp k)

/-- A trap code in the memory stage, or one from decode, reaches the CSR file. -/
theorem bit5_of_trapping {s : Cpu} {i : CpuIn} (hlive : MemStage.msFlush s.ms = false)
    (h5 : (MemStage.excCode s.ms).getLsbD 5 = true) : exceptionFlag s i = true := by
  have hcode : (exceptionCode s i).getLsbD 5 = true := by
    rcases exceptionCode_cases hlive with hcode | hcode
    · exact hcode
    · rw [hcode]
      exact h5
  rw [exceptionFlag, RegfileCsr.exceptionFlag, hcode, Bool.true_or]

/-- An undisturbed instruction in the memory stage raises nothing. -/
theorem excCode_of_live {x : Word} (hc : Control s) (hx : MemPayloadOf x s.ms.buf.main)
    (hlive : liveMs s = true) (hexc : exceptionFlag s i = false)
    (hmret : Decode.instMret x = false) : MemStage.excCode s.ms = 0#7 := by
  have hflush := (liveMs_parts hlive).2
  rcases excCode_cases hc with hz | hcode | h5
  · exact hz
  · rcases hx.excCode with heq | ⟨hf, -⟩
    · have hsys : Decode.sysCode x = Exc.MRET := heq.symm.trans hcode
      rw [(opcode_of_mret hsys).2.1] at hmret
      cases hmret
    · have hf' : MemStage.msFlush s.ms = true := hf
      rw [hflush] at hf'
      cases hf'
  · rw [bit5_of_trapping (i := i) hflush h5] at hexc
    cases hexc

/-- Then the memory stage holds no system instruction that traps or returns, squashed ones apart. -/
theorem excCode_of_undisturbed {t : Nat} (h : UndisturbedUpTo cfg s₀ inp t) :
    MemStage.msFlush (run cfg s₀ inp t).ms = true ∨
      MemStage.excCode (run cfg s₀ inp t).ms = 0#7 := by
  induction t with
  | zero => exact Or.inr rfl
  | succ t ih =>
      have hc := control_run cfg s₀ inp t
      have hnow := h (t + 1) (Nat.le_refl _)
      cases hflush : MemStage.msFlush (run cfg s₀ inp (t + 1)).ms with
      | true => exact Or.inl rfl
      | false =>
          right
          cases hv : (run cfg s₀ inp (t + 1)).ms.buf.valid with
          | false =>
              -- a bubble shows what was there in the cycle before
              have hmain : (run cfg s₀ inp (t + 1)).ms.buf.main = (run cfg s₀ inp t).ms.buf.main := by
                have hv' : (next cfg (run cfg s₀ inp t) (inp t)).ms.buf.valid = false := hv
                rw [next_ms_valid hc] at hv'
                show (next cfg (run cfg s₀ inp t) (inp t)).ms.buf.main = _
                rw [next_ms_main hc, hv', if_neg Bool.false_ne_true]
              rcases ih fun k hk => h k (Nat.le_succ_of_le hk) with hf | hz
              · rw [MemStage.msFlush, hmain] at hflush
                rw [MemStage.msFlush, hflush] at hf
                cases hf
              · rw [MemStage.excCode, hmain]
                exact hz
          | true =>
              have hlive : liveMs (run cfg s₀ inp (t + 1)) = true := by
                unfold liveMs
                rw [hv, hflush]
                rfl
              exact excCode_of_live (control_run cfg s₀ inp (t + 1))
                (labelled_run cfg s₀ inp (t + 1)).ms.2 hlive hnow.noTrap (hnow.noMret hlive)

theorem exceptionCode_of_undisturbed {t : Nat} (h : UndisturbedUpTo cfg s₀ inp t) :
    exceptionCode (run cfg s₀ inp t) (inp t) = 0#7 := by
  cases hflush : MemStage.msFlush (run cfg s₀ inp t).ms with
  | true => exact exceptionCode_of_msFlush hflush
  | false =>
      rcases exceptionCode_cases hflush with h5 | hcode
      · have htrap : exceptionFlag (run cfg s₀ inp t) (inp t) = true := by
          rw [exceptionFlag, RegfileCsr.exceptionFlag, h5, Bool.true_or]
        rw [(h t (Nat.le_refl t)).noTrap] at htrap
        cases htrap
      · rcases excCode_of_undisturbed cfg s₀ inp h with hf | hz
        · rw [hflush] at hf
          cases hf
        · exact hcode.trans hz

theorem csrCoherent_run {D : BitVec 12 → Bool} (hD : ∀ a, implemented a = true → D a = true)
    (hcount : ∀ a, D a = true → counter a = false) {t : Nat}
    (hquiet : ∀ k, k < t → Undisturbed (run cfg s₀ inp k) (inp k) (labelsAt cfg s₀ inp k))
    (hfresh : ∀ k, k < t → CsrReadFresh D cfg (run cfg s₀ inp k) (inp k)) :
    CsrCoherent D (run cfg s₀ inp t) (labelsAt cfg s₀ inp t) (csrModel cfg s₀ inp t) := by
  induction t with
  | zero => exact csrCoherent_reset D s₀
  | succ t ih =>
      have hup : UndisturbedUpTo cfg s₀ inp t := fun k hk => hquiet k (Nat.lt_succ_of_le hk)
      have hcoh := ih (fun k hk => hquiet k (Nat.lt_succ_of_lt hk))
        (fun k hk => hfresh k (Nat.lt_succ_of_lt hk))
      rw [csrModel_succ]
      exact csrCoherent_next hcoh hD hcount (control_run cfg s₀ inp t) (labelled_run cfg s₀ inp t)
        (exceptionCode_of_undisturbed cfg s₀ inp hup) (hup t (Nat.le_refl t)).noTrap
        (hfresh t (Nat.lt_succ_self t))

/-- The CSR instruction that leaves execute in cycle `n` writes the word it reads from the sequential
register file to its destination. -/
structure ReadsSequential (n : Nat) : Prop where
  write : Performs cfg (run cfg s₀ inp (n + 2)) (inp (n + 2)) (labelsAt cfg s₀ inp (n + 2))
    .registerWrite (labelsAt cfg s₀ inp n).esMain.seq
  rd : WbStage.regfileAddr (run cfg s₀ inp (n + 2)).ws =
    Decode.rdAddr (labelsAt cfg s₀ inp n).esMain.inst
  value : WbStage.regfileWdata (run cfg s₀ inp (n + 2)).ws =
    RegisterFile.read layout (csrModel cfg s₀ inp n)
      (Decode.csrAddr (labelsAt cfg s₀ inp n).esMain.inst)

/-- What a live CSR instruction has read is what it writes back. -/
theorem writesBack_csrValue {n : Nat}
    (hex : executesCsr cfg (run cfg s₀ inp n) (inp n) (labelsAt cfg s₀ inp n) = true)
    (hexc : exceptionFlag (run cfg s₀ inp (n + 1)) (inp (n + 1)) = false) :
    Performs cfg (run cfg s₀ inp (n + 2)) (inp (n + 2)) (labelsAt cfg s₀ inp (n + 2))
        .registerWrite (labelsAt cfg s₀ inp n).esMain.seq ∧
      WbStage.regfileAddr (run cfg s₀ inp (n + 2)).ws =
        Decode.rdAddr (labelsAt cfg s₀ inp n).esMain.inst ∧
      WbStage.regfileWdata (run cfg s₀ inp (n + 2)).ws =
        csrValue (run cfg s₀ inp n).es.buf.main := by
  have hc := control_run cfg s₀ inp n
  rcases executesCsr_parts hex with ⟨hes, hmove, hnoexc, hcsr⟩
  have hms : liveMs (run cfg s₀ inp (n + 1)) = true := next_liveMs hc hes hnoexc hmove
  have hlab : (labelsAt cfg s₀ inp (n + 1)).ms = (labelsAt cfg s₀ inp n).esMain := by
    rw [labelsAt, Labels.next_ms hc, if_pos hmove]
  have hmain : (run cfg s₀ inp (n + 1)).ms.buf.main =
      msPayload cfg (run cfg s₀ inp n) (inp n) := by
    show (next cfg (run cfg s₀ inp n) (inp n)).ms.buf.main = _
    rw [next_ms_main hc, if_pos hmove]
  rcases Decode.class_of_isCsrInst hcsr with ⟨hbit, halu, hfpu, hmem, hmul, hsel, hwen⟩
  simp only [liveMs, Bool.and_eq_true, Bool.not_eq_true'] at hms hes
  have hret := (retires cfg s₀ inp hms.1 hms.2 hexc).1 (by rw [hlab]; exact hwen)
  rw [hlab] at hret
  refine ⟨hret.1, hret.2.1, hret.2.2.trans ?_⟩
  -- the memory stage passes the result of execute on
  have hctrl : (ExeStage.bus (run cfg s₀ inp n).es).ctrl =
      Decode.ctrlPacket (labelsAt cfg s₀ inp n).esMain.inst
        (ExeStage.bus (run cfg s₀ inp n).es).ctrl.pc :=
    (labelled_run cfg s₀ inp n).esMain.2.decoded.ctrl
  have hsel' : (MemStage.bus (run cfg s₀ inp (n + 1)).ms).exeResultSel.exe = true := by
    rw [MemStage.bus, (labelled_run cfg s₀ inp (n + 1)).ms.2.exeResultSel, hlab]
    exact hsel
  have hflush := @esFlush_of_live cfg _ _ (executesCsr_parts hex).1 hnoexc
  rw [memResult, MemStage.memResult, if_pos hsel', MemStage.bus, hmain]
  show ExeStage.exeResult cfg (run cfg s₀ inp n).es
    (exePorts cfg (run cfg s₀ inp n) (inp n)) = _
  rw [ExeStage.exeResult, hflush, hctrl]
  simp [Decode.ctrlPacket, hbit, halu, hfpu, hmem, hmul, hcsr, csrData_eq]

/-- In every run without traps, interrupts and `MRET` the CSR file, once the memory stage is empty,
holds what the sequential register file holds; and if no live CSR instruction is given a word that is
on its way to an address without a register, every CSR instruction, those on the two counters apart,
writes back the word it reads there. -/
theorem csr_accesses_sequential (t : Nat) (hquiet : UndisturbedUpTo cfg s₀ inp t) :
    (liveMs (run cfg s₀ inp t) = false → ∀ a, implemented a = true →
      (run cfg s₀ inp t).csr.file.read a = some (csrModel cfg s₀ inp t a)) ∧
    ((∀ k, k < t → staleCsrRead cfg (run cfg s₀ inp k) (inp k) = false) →
      ∀ n, n < t →
        executesCsr cfg (run cfg s₀ inp n) (inp n) (labelsAt cfg s₀ inp n) = true →
        counter (Decode.csrAddr (labelsAt cfg s₀ inp n).esMain.inst) = false →
        ReadsSequential cfg s₀ inp n) := by
  constructor
  -- the file alone: no read is constrained
  · intro hdrained a ha
    have hcoh := csrCoherent_run cfg s₀ inp (D := implemented) (t := t) (fun _ h => h)
      counter_of_implemented (fun k hk => hquiet k (Nat.le_of_lt hk))
      (fun k _ _ _ _ hin himpl => by rw [hin] at himpl; cases himpl)
    have hfile := hcoh.file a ha
    rwa [committed, hdrained, Bool.false_and, if_neg Bool.false_ne_true] at hfile
  -- the reads: every address but the counters
  · intro hok n hn hex hcount
    have hcoh := csrCoherent_run cfg s₀ inp (D := fun a => !counter a) (t := n)
      (fun a ha => by simp [counter_of_implemented a ha]) (fun a ha => by simpa using ha)
      (fun k hk => hquiet k (by omega))
      (fun k hk => csrReadFresh_of_not_stale (hok k (by omega)))
    rcases writesBack_csrValue cfg s₀ inp hex (hquiet (n + 1) hn).noTrap with ⟨hw, hrd, hval⟩
    rcases executesCsr_parts hex with ⟨hlive, -, -, hcsr⟩
    exact
      { write := hw
        rd := hrd
        value := hval.trans (hcoh.main hlive hcsr (by simp [hcount])) }

end Run

/-- A write of 5 to a CSR and a read of the same CSR right behind it. -/
def writeThenRead (a : BitVec 12) (n : Nat) : CpuIn :=
  { imemRdata :=
      if n == 2 then a ++ 0x2d073#20        -- csrrwi x0, a, 5
      else if n == 3 then a ++ 0x020f3#20   -- csrrs x1, a, x0
      else 0x00000013#32
    dmemRdata := 0#32
    plicIrq := false }

/-- The read gets 5 also from an address without a register. -/
theorem csr_accesses_not_sequential :
    ¬ ∀ (cfg : Config) (s₀ : Cpu) (inp : Nat → CpuIn) (t : Nat),
      UndisturbedUpTo cfg s₀ inp t → ∀ n, n < t →
        executesCsr cfg (run cfg s₀ inp n) (inp n) (labelsAt cfg s₀ inp n) = true →
        counter (Decode.csrAddr (labelsAt cfg s₀ inp n).esMain.inst) = false →
        ReadsSequential cfg s₀ inp n := by
  intro h
  have htrap : ∀ k, k ≤ 6 → exceptionFlag (run plainBuild zero (writeThenRead 0x800#12) k)
      (writeThenRead 0x800#12 k) = false := by decide +kernel
  have hmret : ∀ k, k ≤ 6 → liveMs (run plainBuild zero (writeThenRead 0x800#12) k) = true →
      Decode.instMret (labelsAt plainBuild zero (writeThenRead 0x800#12) k).ms.inst = false := by
    decide +kernel
  have hval := (h plainBuild zero (writeThenRead 0x800#12) 6
    (fun k hk => ⟨htrap k hk, hmret k hk⟩) 5 (by decide) (by decide +kernel)
    (by decide +kernel)).value
  revert hval
  decide +kernel

/-- From `mscratch` it gets the 5 that was written. -/
theorem csr_accesses_sequential_mscratch :
    ReadsSequential plainBuild zero (writeThenRead MSCRATCH) 5 ∧
      WbStage.regfileWdata (run plainBuild zero (writeThenRead MSCRATCH) 7).ws = 5#32 :=
  have htrap : ∀ k, k ≤ 6 → exceptionFlag (run plainBuild zero (writeThenRead MSCRATCH) k)
      (writeThenRead MSCRATCH k) = false := by decide +kernel
  have hmret : ∀ k, k ≤ 6 → liveMs (run plainBuild zero (writeThenRead MSCRATCH) k) = true →
      Decode.instMret (labelsAt plainBuild zero (writeThenRead MSCRATCH) k).ms.inst = false := by
    decide +kernel
  ⟨(csr_accesses_sequential plainBuild zero (writeThenRead MSCRATCH) 6
    (fun k hk => ⟨htrap k hk, hmret k hk⟩)).2 (by decide +kernel) 5 (by decide)
    (by decide +kernel) (by decide +kernel), by decide +kernel⟩

end Cpu
end RiscvCpu
