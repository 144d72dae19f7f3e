import RiscvCpu.Pipeline.Path
import RiscvCpu.Rtl.TbCpuTop

/-!
# Trap — trap entry, trap return and the data bus

What an instruction in the memory stage traps on is stated from the instruction itself: its word, its
resolved target, its address and the interrupt level.  `exceptionCode_eq` shows that the code raised
by the core is the code of that cause, and from it follow the entry of a trap with the right CSRs,
the trap of a misaligned store, the data requests of an interrupted instruction and the effect of
`MRET`.
-/

namespace RiscvCpu

/-! ## Causes -/

inductive TrapCause where
  | instructionMisaligned
  | loadMisaligned
  | storeMisaligned
  | ecall
  | ebreak
  | externalInterrupt
  deriving DecidableEq

namespace TrapCause

/-- The value of `mcause`. -/
def mcause : TrapCause → Word
  | .instructionMisaligned => 0#32
  | .loadMisaligned => 4#32
  | .storeMisaligned => 6#32
  | .ecall => 11#32
  | .ebreak => 3#32
  | .externalInterrupt => 0x8000_000B#32

/-- The core's exception code. -/
def code : TrapCause → BitVec 7
  | .instructionMisaligned => Exc.IAM
  | .loadMisaligned => Exc.LAM
  | .storeMisaligned => Exc.SAM
  | .ecall => Exc.ECALL
  | .ebreak => Exc.EBREAK
  | .externalInterrupt => Exc.PLIC_IRQ_BIT

end TrapCause

namespace Decode

/-- A load, or a store, of the word `x` to a misaligned address. -/
def misalignedLoad (x addr : Word) : Bool :=
  (instLw x && (addr.extractLsb' 0 2 != 0b00#2)) || ((instLh x || instLhu x) && addr.getLsbD 0)

def misalignedStore (x addr : Word) : Bool :=
  (instSw x && (addr.extractLsb' 0 2 != 0b00#2)) || (instSh x && addr.getLsbD 0)

/-- The word is an instruction that presents a data request. -/
def accessesMemory (x : Word) : Bool := (memOp x).any

end Decode

namespace Cpu

/-- The address computed by the instruction in the memory stage, and the target it jumped to. -/
def msAddr (s : Cpu) : Word := (MemStage.bus s.ms).exeResult
def msTarget (s : Cpu) : Word := s.ms.buf.main.exc.brTarget

/-- The external interrupt is pending and enabled. -/
def irqPending (s : Cpu) (i : CpuIn) : Bool := i.plicIrq && RegfileCsr.externalIrqEnable s.csr

/-- What the live instruction `x` in the memory stage traps on, synchronous causes first. -/
def trapCause (s : Cpu) (i : CpuIn) (x : Word) : Option TrapCause :=
  if s.ms.buf.main.exc.brTaken && ((msTarget s).extractLsb' 0 2 != 0b00#2) then
    some .instructionMisaligned
  else if Decode.misalignedLoad x (msAddr s) then some .loadMisaligned
  else if Decode.misalignedStore x (msAddr s) then some .storeMisaligned
  else if Decode.instEcall x then some .ecall
  else if Decode.instEbreak x then some .ebreak
  else if irqPending s i then some .externalInterrupt
  else none

/-- The value that a trap leaves in `mtval`. -/
def trapValue (s : Cpu) : TrapCause → Word
  | .instructionMisaligned => msTarget s
  | .loadMisaligned => msAddr s
  | .storeMisaligned => msAddr s
  | _ => 0#32

end Cpu

/-! ## The load/store vector names the access -/

namespace Decode

variable {x : Word}

theorem loadInstOf_store (h : isStore x = true) :
    loadInstOf x = ⟨f3_000 x, f3_001 x, f3_010 x, false, false, true⟩ := by
  have hop : opcode x = 0b0100011#7 := by simpa [isStore] using h
  simp [loadInstOf, memOp, isStoreInst, instLb, instSb, instLh, instSh, instLw, instSw, instLbu,
    instLhu, instFlw, instFsw, isLoad, isStore, isFload, isFstore, hop]

theorem loadInstOf_load (h : isLoad x = true) :
    loadInstOf x = ⟨f3_000 x, f3_001 x, f3_010 x, f3_100 x, f3_101 x, false⟩ := by
  have hop : opcode x = 0b0000011#7 := by simpa [isLoad] using h
  simp [loadInstOf, memOp, isStoreInst, instLb, instSb, instLh, instSh, instLw, instSw, instLbu,
    instLhu, instFlw, instFsw, isLoad, isStore, isFload, isFstore, hop]

/-- Outside the F extension, what is neither a load nor a store has an empty vector. -/
theorem loadInstOf_other (hf : usesF x = false) (hl : isLoad x = false) (hs : isStore x = false) :
    loadInstOf x = ⟨false, false, false, false, false, false⟩ := by
  simp [loadInstOf, memOp, isStoreInst, instLb, instSb, instLh, instSh, instLw, instSw, instLbu,
    instLhu, instFlw_eq_false hf, instFsw_eq_false hf, hl, hs]

theorem isLoad_store_exclusive : isLoad x = true → isStore x = false := by
  intro h
  have hop : opcode x = 0b0000011#7 := by simpa [isLoad] using h
  simp [isStore, hop]

/-- Outside the F extension the memory stage's checks see exactly the misaligned accesses. -/
theorem misaligned_iff (hf : usesF x = false) (addr : Word) :
    (((loadInstOf x == LoadInst.LW) && (addr.extractLsb' 0 2 != 0b00#2)) ||
      (((loadInstOf x == LoadInst.LH) || (loadInstOf x == LoadInst.LHU)) &&
        (addr.extractLsb' 0 2).getLsbD 0)) = misalignedLoad x addr ∧
    (((loadInstOf x == LoadInst.SW) && (addr.extractLsb' 0 2 != 0b00#2)) ||
      ((loadInstOf x == LoadInst.SH) && (addr.extractLsb' 0 2).getLsbD 0)) =
        misalignedStore x addr := by
  have hbit : (addr.extractLsb' 0 2).getLsbD 0 = addr.getLsbD 0 := by simp
  rw [hbit]
  simp only [misalignedLoad, misalignedStore, instLw, instLh, instLhu, instSw, instSh]
  generalize (addr.extractLsb' 0 2 != 0b00#2) = unaligned
  generalize addr.getLsbD 0 = odd
  cases hl : isLoad x with
  | true =>
      rw [loadInstOf_load hl, isLoad_store_exclusive hl]
      simp only [f3_000, f3_001, f3_010, f3_100, f3_101]
      -- eight function fields, whatever the address
      generalize funct3 x = f
      revert f unaligned odd
      decide
  | false =>
      cases hs : isStore x with
      | true =>
          rw [loadInstOf_store hs]
          simp only [f3_000, f3_001, f3_010, f3_101]
          generalize funct3 x = f
          revert f unaligned odd
          decide
      | false =>
          rw [loadInstOf_other hf hl hs]
          revert unaligned odd
          simp [LoadInst.LW, LoadInst.LH, LoadInst.LHU, LoadInst.SW, LoadInst.SH]

end Decode

/-! ## The code raised by the memory stage -/

namespace Cpu

variable {cfg : Config} {s : Cpu} {i : CpuIn} {x : Word}

/-- The checks of the memory stage, for a live instruction `x`. -/
theorem checks_of_live (hlive : liveMs s = true) (hx : MemPayloadOf x s.ms.buf.main)
    (hf : Decode.usesF x = false) :
    MemStage.exceptionIam s.ms =
      (s.ms.buf.main.exc.brTaken && ((msTarget s).extractLsb' 0 2 != 0b00#2)) ∧
    MemStage.exceptionLam s.ms = Decode.misalignedLoad x (msAddr s) ∧
    MemStage.exceptionSam s.ms = Decode.misalignedStore x (msAddr s) ∧
    MemStage.excCode s.ms = Decode.sysCode x := by
  rcases liveMs_parts hlive with ⟨hv, hfl⟩
  have hload : (MemStage.bus s.ms).loadInst = Decode.loadInstOf x := hx.loadInst
  rcases Decode.misaligned_iff hf (msAddr s) with ⟨hl, hs⟩
  -- jump target, load address, store address, code of decode
  refine ⟨?_, ?_, ?_, ?_⟩
  · simp [MemStage.exceptionIam, MemStage.msValid, hv, hfl, msTarget]
  · rw [← hl]
    simp [MemStage.exceptionLam, MemStage.msValid, hv, hfl, hload, MemStage.dataOffset, msAddr]
  · rw [← hs]
    simp [MemStage.exceptionSam, MemStage.msValid, hv, hfl, hload, MemStage.dataOffset, msAddr]
  · rcases hx.excCode with heq | ⟨hflush, -⟩
    · exact heq
    · have hfl' : s.ms.buf.main.esFlush = false := hfl
      rw [hfl'] at hflush
      cases hflush

theorem takeIrq_of_live (hlive : liveMs s = true) :
    takeIrq s i = (!MemStage.syncException s.ms && irqPending s i) := by
  rcases liveMs_parts hlive with ⟨hv, hfl⟩
  simp [takeIrq, MemStage.takeIrq, MemStage.msValid, hv, hfl, irqPending, Bool.and_assoc]

/-- The code raised for a live instruction is that of its cause. -/
theorem exceptionCode_eq (hlive : liveMs s = true) (hx : MemPayloadOf x s.ms.buf.main)
    (hf : Decode.usesF x = false) :
    exceptionCode s i =
      match trapCause s i x with
      | some c => c.code
      | none => if Decode.instMret x then Exc.MRET else 0#7 := by
  rcases checks_of_live hlive hx hf with ⟨hiam, hlam, hsam, hcode⟩
  have hirq := takeIrq_of_live (i := i) hlive
  have hfl := (liveMs_parts hlive).2
  simp only [exceptionCode, MemStage.exceptionCode, hfl, Bool.false_eq_true, if_false]
  simp only [takeIrq] at hirq
  rw [hirq, MemStage.syncException, hiam, hlam, hsam, hcode]
  -- both sides judge the causes in the same order
  simp only [trapCause]
  split
  · rfl
  · split
    · rfl
    · split
      · rfl
      · rename_i h1 h2 h3
        simp only [h1, h2, h3, Bool.false_or, Decode.sysCode]
        cases Decode.instEcall x <;> cases Decode.instEbreak x <;> cases Decode.instMret x <;>
          cases irqPending s i <;> rfl

theorem code_bit5 (c : TrapCause) : c.code.getLsbD 5 = true := by
  cases c <;> rfl

/-- `exception_code[5]` is high exactly for a live instruction that traps. -/
theorem exceptionCode_bit5_iff (hc : Control s) (hx : MemPayloadOf x s.ms.buf.main)
    (hf : Decode.usesF x = false) :
    (exceptionCode s i).getLsbD 5 = true ↔
      liveMs s = true ∧ (trapCause s i x).isSome = true := by
  constructor
  · intro h5
    have hexc : exceptionFlag s i = true := by
      rw [exceptionFlag, RegfileCsr.exceptionFlag, h5, Bool.true_or]
    rcases ms_live_of_exceptionFlag hc hexc with ⟨hv, hfl⟩
    have hlive : liveMs s = true := by
      rw [liveMs, hv, hfl]; rfl
    refine ⟨hlive, ?_⟩
    rw [exceptionCode_eq hlive hx hf] at h5
    cases hcause : trapCause s i x with
    | some c => rfl
    | none =>
        rw [hcause] at h5
        -- what is left is `mret` or nothing, and neither has bit 5
        cases hm : Decode.instMret x <;> rw [hm] at h5 <;> cases h5
  · rintro ⟨hlive, hcause⟩
    rcases Option.isSome_iff_exists.mp hcause with ⟨c, hc'⟩
    rw [exceptionCode_eq hlive hx hf, hc']
    exact code_bit5 c

/-! ## Trap entry -/

theorem setBit_getLsbD (x : Word) {n : Nat} (hn : n < 32) (b : Bool) (k : Nat) :
    (RegfileCsr.setBit x n b).getLsbD k = if k = n then b else x.getLsbD k := by
  by_cases hk : k = n
  · subst hk
    simp [RegfileCsr.setBit, hn]
  · by_cases hlt : k < n
    · simp [RegfileCsr.setBit, hk, hlt]
      omega
    · have hsub : k - n ≠ 0 := by omega
      by_cases hk32 : k < 32
      · simp [RegfileCsr.setBit, hk, hsub, hk32]
      · simp [RegfileCsr.setBit, hk, hk32, BitVec.getLsbD_of_ge x k (by omega)]

/-- The CSR file after a trap: only the four trap registers change, and of `mstatus` only MPIE, which
takes MIE, and MIE, which is cleared. -/
structure TrapEntered (pc : Word) (cause value : Word) (f f' : RegfileCsr.File) : Prop where
  mepc : f'.mepc = pc
  mcause : f'.mcause = cause
  mtval : f'.mtval = value
  mstatus : ∀ k, f'.mstatus.getLsbD k =
    if k = 3 then false else if k = 7 then f.mstatus.getLsbD 3 else f.mstatus.getLsbD k
  others : f' = { f with
    mepc := f'.mepc, mcause := f'.mcause, mtval := f'.mtval, mstatus := f'.mstatus }

theorem exceptionMtval_eq (hlive : liveMs s = true) (hx : MemPayloadOf x s.ms.buf.main)
    (hf : Decode.usesF x = false) {c : TrapCause} (hcause : trapCause s i x = some c) :
    exceptionMtval s i = trapValue s c := by
  rcases checks_of_live hlive hx hf with ⟨hiam, hlam, hsam, -⟩
  have hfl := (liveMs_parts hlive).2
  have hmtval : s.ms.buf.main.exc.exc.excMtval = 0#32 := hx.excMtval
  simp only [exceptionMtval, MemStage.exceptionMtval, hfl, Bool.false_eq_true, if_false, hiam,
    hlam, hsam, hmtval, ite_self]
  -- the causes in the order in which they are judged
  simp only [trapCause] at hcause
  split at hcause
  · rename_i h1
    cases hcause
    rw [if_pos h1]
    rfl
  · rename_i h1
    rw [if_neg h1]
    split at hcause
    · rename_i h2
      cases hcause
      rw [h2, Bool.true_or]
      rfl
    · rename_i h2
      split at hcause
      · rename_i h3
        cases hcause
        rw [h3, Bool.or_true]
        rfl
      · rename_i h3
        simp only [h2, h3, Bool.or_false, Bool.false_eq_true, if_false]
        split at hcause
        · cases hcause; rfl
        · split at hcause
          · cases hcause; rfl
          · split at hcause
            · cases hcause; rfl
            · cases hcause

theorem trap_entered (hlive : liveMs s = true) (hx : MemPayloadOf x s.ms.buf.main)
    (hf : Decode.usesF x = false) {c : TrapCause} (hcause : trapCause s i x = some c) :
    TrapEntered s.ms.buf.main.bus.pc c.mcause (trapValue s c) s.csr.file
      (next cfg s i).csr.file := by
  have hcode : exceptionCode s i = c.code := by rw [exceptionCode_eq hlive hx hf, hcause]
  have h5 := code_bit5 c
  have hval := exceptionMtval_eq hlive hx hf hcause
  -- the CSR port is taken by the trap
  have hwe : csrWe s i = false := by
    simp only [csrWe, MemStage.csrWe, hcode, h5, Bool.not_true, Bool.and_false]
  have hfile : (next cfg s i).csr.file =
      s.csr.file.trap c.code s.ms.buf.main.bus.pc (trapValue s c) := by
    simp only [next, RegfileCsr.next, RegfileCsr.fileNext, csrPorts, hwe, hcode, h5, hval,
      MemStage.csrWdata, Bool.false_eq_true, if_false, if_true]
    rfl
  rw [hfile]
  refine { mepc := rfl, mcause := ?_, mtval := ?_, mstatus := ?_, others := rfl }
  · cases c <;> rfl
  · cases c <;> rfl
  · intro k
    simp only [RegfileCsr.File.trap, setBit_getLsbD _ (by decide : 3 < 32),
      setBit_getLsbD _ (by decide : 7 < 32), RegfileCsr.mieBit]

end Cpu

/-! ## Runs without F-extension opcodes -/

/-- No label of the run names an F-extension word. -/
theorem label_noF (cfg : Config) (s₀ : Cpu) {inp : Nat → CpuIn}
    (hF : ∀ n, Decode.usesF (inp n).imemRdata = false) (t : Nat) :
    Decode.usesF (labelsAt cfg s₀ inp t).dsMain.inst = false ∧
    Decode.usesF (labelsAt cfg s₀ inp t).dsSkid.inst = false ∧
    Decode.usesF (labelsAt cfg s₀ inp t).esMain.inst = false ∧
    Decode.usesF (labelsAt cfg s₀ inp t).esSkid.inst = false ∧
    Decode.usesF (labelsAt cfg s₀ inp t).ms.inst = false := by
  induction t with
  | zero => exact ⟨rfl, rfl, rfl, rfl, rfl⟩
  | succ t ih =>
      rcases ih with ⟨hdm, hdsk, hem, hesk, hms⟩
      have hbus : Decode.usesF ((labelsAt cfg s₀ inp t).onBus (inp t)).inst = false := hF t
      simp only [labelsAt, Labels.next, SkidBuffer.nextMain, SkidBuffer.nextSkid]
      refine ⟨?_, ?_, ?_, ?_, ?_⟩ <;> repeat' split
      all_goals assumption

namespace Cpu

section Run

variable (cfg : Config) (s₀ : Cpu) (inp : Nat → CpuIn)

/-- A valid instruction is in the memory stage in one cycle only. -/
theorem ms_seq_inj {m n : Nat} (hm : (run cfg s₀ inp m).ms.buf.valid = true)
    (hn : (run cfg s₀ inp n).ms.buf.valid = true)
    (h : (labelsAt cfg s₀ inp m).ms.seq = (labelsAt cfg s₀ inp n).ms.seq) : m = n := by
  rcases Nat.lt_trichotomy m n with hlt | heq | hlt
  · have := ms_seq_lt cfg s₀ inp hlt hn
    omega
  · exact heq
  · have := ms_seq_lt cfg s₀ inp hlt hm
    omega

/-- Every trap is entered exactly once, with the right CSRs. -/
theorem trap_entered_exactly_once (hF : ∀ n, Decode.usesF (inp n).imemRdata = false) :
    (∀ t, exceptionFlag (run cfg s₀ inp t) (inp t) = true →
      (run cfg s₀ inp t).ms.buf.valid = true ∧ MemStage.msFlush (run cfg s₀ inp t).ms = false) ∧
    (∀ t, (exceptionCode (run cfg s₀ inp t) (inp t)).getLsbD 5 = true →
      liveMs (run cfg s₀ inp t) = true ∧
      (trapCause (run cfg s₀ inp t) (inp t) (labelsAt cfg s₀ inp t).ms.inst).isSome = true) ∧
    (∀ t c, liveMs (run cfg s₀ inp t) = true →
      trapCause (run cfg s₀ inp t) (inp t) (labelsAt cfg s₀ inp t).ms.inst = some c →
      (∀ n, ((exceptionCode (run cfg s₀ inp n) (inp n)).getLsbD 5 = true ∧
        (labelsAt cfg s₀ inp n).ms.seq = (labelsAt cfg s₀ inp t).ms.seq) ↔ n = t) ∧
      TrapEntered (labelsAt cfg s₀ inp t).ms.pc c.mcause (trapValue (run cfg s₀ inp t) c)
        (run cfg s₀ inp t).csr.file (run cfg s₀ inp (t + 1)).csr.file) := by
  have hlab := fun n => (labelled_run cfg s₀ inp n).ms
  have hnoF := fun n => (label_noF cfg s₀ hF n).2.2.2.2
  -- a trap code is raised for exactly the live instructions with a cause
  have hbit := fun n => exceptionCode_bit5_iff (i := inp n) (control_run cfg s₀ inp n)
    (hlab n).2 (hnoF n)
  refine ⟨fun t => ms_live_of_exceptionFlag (control_run cfg s₀ inp t), fun t => (hbit t).mp, ?_⟩
  intro t c hlive hcause
  have hsome : (trapCause (run cfg s₀ inp t) (inp t)
      (labelsAt cfg s₀ inp t).ms.inst).isSome = true := by rw [hcause]; rfl
  have hvalid : ∀ n, liveMs (run cfg s₀ inp n) = true →
      (run cfg s₀ inp n).ms.buf.valid = true := fun n hn => (liveMs_parts hn).1
  constructor
  · intro n
    constructor
    -- an instruction is in the memory stage in one cycle only
    · rintro ⟨h5, hseq⟩
      exact ms_seq_inj cfg s₀ inp (hvalid n ((hbit n).mp h5).1) (hvalid t hlive) hseq
    · rintro rfl
      exact ⟨(hbit n).mpr ⟨hlive, hsome⟩, rfl⟩
  · rw [← (hlab t).1]
    exact trap_entered hlive (hlab t).2 (hnoF t) hcause

end Run

/-- The build used in the examples of this development. -/
def plainBuild : Config := { perfBench := false, lwLiveBypassEnable := false }

/-- Inputs in which fetch reads `ecall` first and `nop` from then on. -/
def ecallFirst (n : Nat) : CpuIn :=
  { imemRdata := if n = 2 then 0x00000073#32 else 0x00000013#32
    dmemRdata := 0#32
    plicIrq := false }

/-- `ecall` as the first instruction of a program reaches the memory stage in cycle 5. -/
theorem trap_entered_exactly_once_ecall :
    (run plainBuild zero ecallFirst 6).csr.file.mcause = 11#32 ∧
      ∀ n, ((exceptionCode (run plainBuild zero ecallFirst n) (ecallFirst n)).getLsbD 5 = true ∧
        (labelsAt plainBuild zero ecallFirst n).ms.seq =
          (labelsAt plainBuild zero ecallFirst 5).ms.seq) ↔ n = 5 := by
  have hF : ∀ n, Decode.usesF (ecallFirst n).imemRdata = false := by
    intro n
    by_cases hn : n = 2 <;> simp only [ecallFirst, hn, if_true, if_false] <;> decide
  have h := (trap_entered_exactly_once plainBuild zero ecallFirst hF).2.2 5 .ecall
    (by decide +kernel) (by decide +kernel)
  exact ⟨h.2.mcause, h.1⟩

/-! ## Trap return -/

section Mret

variable (cfg : Config) (s₀ : Cpu) (inp : Nat → CpuIn)

/-- What the manual promises of an `MRET` that is live in the memory stage in cycle `t`: fetch is
redirected to `mepc`, nothing younger has an effect, and `mstatus` is updated once. -/
structure MretReturns (t : Nat) : Prop where
  redirects : exceptionFlag (run cfg s₀ inp t) (inp t) = true
  target : exceptionAddr (run cfg s₀ inp t) (inp t) =
    (run cfg s₀ inp t).csr.file.mepc.extractLsb' 2 30 ++ 0#2
  squashes : ∀ q, (labelsAt cfg s₀ inp t).ms.seq < q → q ≤ t + 1 → ∀ n e,
    ¬ Performs cfg (run cfg s₀ inp n) (inp n) (labelsAt cfg s₀ inp n) e q
  once : ∀ n, (RegfileCsr.mretFlag (exceptionCode (run cfg s₀ inp n) (inp n)) = true ∧
    (labelsAt cfg s₀ inp n).ms.seq = (labelsAt cfg s₀ inp t).ms.seq) ↔ n = t
  mstatus : ∀ k, (run cfg s₀ inp (t + 1)).csr.file.mstatus.getLsbD k =
    if k = 3 then (run cfg s₀ inp t).csr.file.mstatus.getLsbD 7
    else if k = 7 then true else (run cfg s₀ inp t).csr.file.mstatus.getLsbD k

variable {cfg s₀ inp}

theorem opcode_of_mret {x : Word} (h : Decode.sysCode x = Exc.MRET) :
    Decode.opcode x = 0b1110011#7 ∧ Decode.instMret x = true ∧ Decode.instEcall x = false ∧
      Decode.instEbreak x = false := by
  refine ⟨Decode.opcode_of_sysCode (by rw [h]; decide), ?_⟩
  simp only [Decode.sysCode] at h
  cases he : Decode.instEcall x with
  | true => rw [he] at h; cases h
  | false =>
      cases hb : Decode.instEbreak x with
      | true => rw [he, hb] at h; cases h
      | false =>
          cases hm : Decode.instMret x with
          | true => exact ⟨rfl, rfl, rfl⟩
          | false => rw [he, hb, hm] at h; cases h

/-- A live `MRET` raises the code of a return, or that of an interrupt. -/
theorem exceptionCode_of_mret {s : Cpu} {i : CpuIn} {x : Word} (hlive : liveMs s = true)
    (hx : MemPayloadOf x s.ms.buf.main) (hm : Decode.sysCode x = Exc.MRET) :
    exceptionCode s i = if irqPending s i then Exc.PLIC_IRQ_BIT else Exc.MRET := by
  rcases opcode_of_mret hm with ⟨hop, hmret, hecall, hebreak⟩
  -- an `mret` takes no branch and makes no access
  have hbr := hx.brTaken_eq_false (by
    simp [Decode.isBrJmpInst, Decode.isBranch, Decode.isJal, Decode.isJalr, hop])
  have hload : Decode.misalignedLoad x (msAddr s) = false := by
    simp [Decode.misalignedLoad, Decode.instLw, Decode.instLh, Decode.instLhu, Decode.isLoad, hop]
  have hstore : Decode.misalignedStore x (msAddr s) = false := by
    simp [Decode.misalignedStore, Decode.instSw, Decode.instSh, Decode.isStore, hop]
  have hF : Decode.usesF x = false := by
    simp [Decode.usesF, Decode.isFload, Decode.isFstore, Decode.isFmadd, Decode.isFmsub,
      Decode.isFnmsub, Decode.isFnmadd, Decode.isFpu, hop]
  rw [exceptionCode_eq hlive hx hF]
  simp only [trapCause, hbr, hload, hstore, hecall, hebreak, hmret, Bool.false_and,
    Bool.false_eq_true, if_false, if_true]
  cases irqPending s i <;> rfl

/-- An uninterrupted `MRET` behind a trap leaves the memory stage for good. -/
theorem ms_leaves_of_exceptionFlag {t : Nat} (hlive : liveMs (run cfg s₀ inp t) = true)
    (hcode : MemStage.excCode (run cfg s₀ inp t).ms ≠ 0#7)
    (hexc : exceptionFlag (run cfg s₀ inp t) (inp t) = true) :
    (labelsAt cfg s₀ inp t).ms.seq < (labelsAt cfg s₀ inp (t + 1)).ms.seq := by
  have hc := control_run cfg s₀ inp t
  rcases liveMs_parts hlive with ⟨hv, hfl⟩
  have hes := hc.msFollowed hv hfl hcode
  have hmove : esToMsValid cfg (run cfg s₀ inp t) (inp t) = true := by
    rw [esToMsValid_eq, hes, esReadyGo_of_moves hc hes (es_moves_of_flush hc (Or.inr hexc))]
    rfl
  rw [labelsAt, Labels.next_ms hc, if_pos hmove]
  exact ms_lt_esMain (inOrder_run cfg s₀ inp t) hes

/-- `mstatus` after a return: MIE takes MPIE, and MPIE is set. -/
theorem mret_mstatus_getLsbD (f : RegfileCsr.File) (k : Nat) :
    f.mret.mstatus.getLsbD k =
      if k = 3 then f.mstatus.getLsbD 7 else if k = 7 then true else f.mstatus.getLsbD k := by
  simp only [RegfileCsr.File.mret, setBit_getLsbD _ (by decide : 3 < 32),
    setBit_getLsbD _ (by decide : 7 < 32), RegfileCsr.mpieBit]
  by_cases h3 : k = 3
  · simp [h3]
  · by_cases h7 : k = 7 <;> simp [h3, h7]

/-- The CSR file after the code of a return, which takes the CSR port. -/
theorem mret_file {s : Cpu} {i : CpuIn} (hwe : csrWe s i = false)
    (hmret : exceptionCode s i = Exc.MRET) : (next cfg s i).csr.file = s.csr.file.mret := by
  simp only [next, RegfileCsr.next, RegfileCsr.fileNext, csrPorts, hwe, hmret]
  rfl

/-- What leaves the memory stage in cycle `t` is there in that cycle only. -/
theorem eq_of_ms_seq_eq {t n : Nat} (hv : (run cfg s₀ inp t).ms.buf.valid = true)
    (hleaves : (labelsAt cfg s₀ inp t).ms.seq < (labelsAt cfg s₀ inp (t + 1)).ms.seq)
    (hseq : (labelsAt cfg s₀ inp n).ms.seq = (labelsAt cfg s₀ inp t).ms.seq) : n = t := by
  rcases Nat.lt_trichotomy n t with hlt | heq | hlt
  · have := ms_seq_lt cfg s₀ inp hlt hv
    omega
  · exact heq
  · have := ms_seq_mono cfg s₀ inp (show t + 1 ≤ n from hlt)
    omega

/-- A live `MRET` returns as documented exactly when a trap has been entered since the last executed
one (or since reset) and no interrupt is taken on it. -/
theorem mret_returns_iff {t : Nat} (hlive : liveMs (run cfg s₀ inp t) = true)
    (hm : Decode.sysCode (labelsAt cfg s₀ inp t).ms.inst = Exc.MRET) :
    MretReturns cfg s₀ inp t ↔
      (run cfg s₀ inp t).csr.prevExceptionFlag = true ∧
        irqPending (run cfg s₀ inp t) (inp t) = false := by
  have hc := control_run cfg s₀ inp t
  have hx := (labelled_run cfg s₀ inp t).ms.2
  have hcode := exceptionCode_of_mret (i := inp t) hlive hx hm
  have hv := (liveMs_parts hlive).1
  constructor
  · intro h
    -- the update of `mstatus` shows that no interrupt was taken, the jump that a trap came before
    have hflag := ((h.once t).mpr rfl).1
    have hirq : irqPending (run cfg s₀ inp t) (inp t) = false := by
      cases hi : irqPending (run cfg s₀ inp t) (inp t) with
      | false => rfl
      | true => rw [hcode, hi] at hflag; cases hflag
    have hred := h.redirects
    rw [exceptionFlag, hcode, hirq] at hred
    refine ⟨?_, hirq⟩
    cases hp : (run cfg s₀ inp t).csr.prevExceptionFlag with
    | true => rfl
    | false =>
        simp [RegfileCsr.exceptionFlag, RegfileCsr.mretJmpFlag, hp, Exc.MRET] at hred
  · rintro ⟨hprev, hirq⟩
    have hmret : exceptionCode (run cfg s₀ inp t) (inp t) = Exc.MRET := by
      rw [hcode, hirq]; rfl
    have hjmp : RegfileCsr.mretJmpFlag (run cfg s₀ inp t).csr Exc.MRET = true := by
      rw [RegfileCsr.mretJmpFlag, hprev]; rfl
    have hexc : exceptionFlag (run cfg s₀ inp t) (inp t) = true := by
      rw [exceptionFlag, hmret, RegfileCsr.exceptionFlag, hjmp, Bool.or_true]
    have hsys : MemStage.excCode (run cfg s₀ inp t).ms ≠ 0#7 := by
      rcases hx.excCode with heq | ⟨hfl, -⟩
      · rw [MemStage.excCode, heq, hm]; decide
      · have hno := (ms_live_of_exceptionFlag hc hexc).2
        rw [MemStage.msFlush, hfl] at hno
        cases hno
    have hleaves := ms_leaves_of_exceptionFlag hlive hsys hexc
    have hnowe : csrWe (run cfg s₀ inp t) (inp t) = false := by
      have hn := not_csrWe_of_exceptionFlag hc hexc
      simpa using hn
    refine
      { redirects := hexc, target := ?_
        squashes := fun q hq hle n e => squashed_of_exceptionFlag cfg s₀ inp hexc hq hle n e
        once := ?_, mstatus := ?_ }
    · rw [exceptionAddr, hmret, RegfileCsr.exceptionAddr, if_pos hjmp]
    · intro n
      constructor
      · rintro ⟨-, hseq⟩
        exact eq_of_ms_seq_eq hv hleaves hseq
      · rintro rfl
        exact ⟨by rw [hmret]; rfl, rfl⟩
    · intro k
      have hfile : (run cfg s₀ inp (t + 1)).csr.file = (run cfg s₀ inp t).csr.file.mret :=
        mret_file hnowe hmret
      rw [hfile, mret_mstatus_getLsbD]

end Mret

/-- Inputs in which fetch reads `mret` first, without a trap before it. -/
def mretFirst (n : Nat) : CpuIn :=
  { imemRdata := if n = 2 then 0x30200073#32 else 0x00000013#32
    dmemRdata := 0#32
    plicIrq := false }

/-- The first `mret` after reset does not return. -/
theorem mret_not_always_returns :
    ¬ ∀ (cfg : Config) (s₀ : Cpu) (inp : Nat → CpuIn) (t : Nat),
      liveMs (run cfg s₀ inp t) = true →
      Decode.sysCode (labelsAt cfg s₀ inp t).ms.inst = Exc.MRET → MretReturns cfg s₀ inp t := by
  intro h
  have hret := h plainBuild zero mretFirst 5 (by decide +kernel) (by decide +kernel)
  have hno : exceptionFlag (run plainBuild zero mretFirst 5) (mretFirst 5) = false := by
    decide +kernel
  rw [hret.redirects] at hno
  cases hno

/-- Inputs in which fetch reads `ecall` at the reset address and `mret` at the trap vector. -/
def ecallThenMret (n : Nat) : CpuIn :=
  { imemRdata := if n = 2 then 0x00000073#32 else if n = 7 then 0x30200073#32 else 0x00000013#32
    dmemRdata := 0#32
    plicIrq := false }

/-- Behind the `ecall`, the `mret` returns. -/
theorem mret_returns_iff_after_ecall : MretReturns plainBuild zero ecallThenMret 10 :=
  (mret_returns_iff (t := 10) (by decide +kernel) (by decide +kernel)).mpr
    ⟨by decide +kernel, by decide +kernel⟩

end Cpu
end RiscvCpu
