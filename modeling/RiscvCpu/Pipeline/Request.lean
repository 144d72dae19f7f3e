import RiscvCpu.Pipeline.Trap

/-!
# Request — data requests and the instructions that trap behind them

A load or a store presents its request in execute, one cycle before the memory stage decides whether
the instruction traps.  So an instruction that traps or is interrupted there has presented its request
exactly when it accesses memory at all, and a misaligned store has driven its strobes.
-/

namespace RiscvCpu
namespace Cpu

section Run

variable (cfg : Config) (s₀ : Cpu) (inp : Nat → CpuIn)

/-! ## One cycle earlier -/

/-- A live instruction in the memory stage was live in execute in the cycle before, and moved. -/
theorem came_from_es {t : Nat} (hlive : liveMs (run cfg s₀ inp t) = true) :
    ∃ n, t = n + 1 ∧ liveEs (run cfg s₀ inp n) = true ∧
      exceptionFlag (run cfg s₀ inp n) (inp n) = false ∧
      (run cfg s₀ inp t).ms.buf.main = msPayload cfg (run cfg s₀ inp n) (inp n) ∧
      (labelsAt cfg s₀ inp t).ms = (labelsAt cfg s₀ inp n).esMain := by
  cases t with
  | zero => cases hlive
  | succ n =>
      have hc := control_run cfg s₀ inp n
      rcases head_of_next_liveMs hc hlive with ⟨hes, hexc, -⟩
      have hmove : esToMsValid cfg (run cfg s₀ inp n) (inp n) = true := by
        rw [← next_ms_valid hc]
        have hl : liveMs (next cfg (run cfg s₀ inp n) (inp n)) = true := hlive
        exact (liveMs_parts hl).1
      refine ⟨n, rfl, hes, hexc, ?_, ?_⟩
      · show (next cfg (run cfg s₀ inp n) (inp n)).ms.buf.main = _
        rw [next_ms_main hc, if_pos hmove]
      · rw [labelsAt, Labels.next_ms hc, if_pos hmove]

/-- A live instruction in execute raises `dmem_en` exactly when it accesses memory. -/
theorem dmemEn_of_liveEs {s : Cpu} {i : CpuIn} {x : Word} (hlive : liveEs s = true)
    (hexc : exceptionFlag s i = false) (hx : PayloadOf x s.es.buf.main) :
    dmemEn cfg s i = Decode.accessesMemory x := by
  have hv : ExeStage.esValid s.es = true := (liveEs_parts hlive).1
  have hop : (ExeStage.bus s.es).mem.memOp = Decode.memOp x := hx.decoded.memOp
  simp [dmemEn, ExeStage.dmemEn, hv, hop, esFlush_of_live hlive hexc, Decode.accessesMemory]

/-- The requests of an instruction that is live in the memory stage in cycle `t` are one request in
the cycle before if it accesses memory, and none otherwise. -/
theorem request_iff {t : Nat} (hlive : liveMs (run cfg s₀ inp t) = true) (k : Nat) :
    Performs cfg (run cfg s₀ inp k) (inp k) (labelsAt cfg s₀ inp k) .dataRequest
        (labelsAt cfg s₀ inp t).ms.seq ↔
      k + 1 = t ∧ Decode.accessesMemory (labelsAt cfg s₀ inp t).ms.inst = true := by
  rcases came_from_es cfg s₀ inp hlive with ⟨n, rfl, hes, hexc, -, hlab⟩
  have hx := (labelled_run cfg s₀ inp n).esMain.2
  have hen := dmemEn_of_liveEs cfg hes hexc hx
  rw [hlab]
  constructor
  · intro hp
    obtain ⟨hq, -, -, -, hmove⟩ :=
      es_moves_of_performs (control_run cfg s₀ inp k) hp (by simp) (by simp)
    have hck := control_run cfg s₀ inp k
    -- the requester is in the memory stage in the next cycle, where each instruction is only once
    have hvk : (run cfg s₀ inp (k + 1)).ms.buf.valid = true := by
      show (next cfg (run cfg s₀ inp k) (inp k)).ms.buf.valid = true
      rw [next_ms_valid hck, hmove]
    have hvt := (liveMs_parts hlive).1
    have hseq : (labelsAt cfg s₀ inp (k + 1)).ms.seq = (labelsAt cfg s₀ inp (n + 1)).ms.seq := by
      rw [hlab, labelsAt, Labels.next_ms hck, if_pos hmove]
      exact hq
    have hkn := ms_seq_inj cfg s₀ inp hvk hvt hseq
    have hkn' : k = n := by omega
    subst hkn'
    exact ⟨rfl, by rw [← hen]; exact hp.1⟩
  · rintro ⟨hk, hacc⟩
    have hkn : k = n := by omega
    subst hkn
    exact ⟨by rw [hen]; exact hacc, rfl⟩

/-! ## Interrupts -/

theorem liveMs_of_takeIrq {s : Cpu} {i : CpuIn} (h : takeIrq s i = true) : liveMs s = true := by
  simp only [takeIrq, MemStage.takeIrq, MemStage.msValid, Bool.and_eq_true] at h
  rw [liveMs, h.1.1.1.1, Bool.true_and]
  exact h.1.1.1.2

/-- Interrupted instructions have not touched the bus exactly in the runs in which no interrupt is
taken on a load or store.  In those runs every load and store that reaches the memory stage has
presented its request exactly once and is not executed again because of an interrupt. -/
theorem interrupted_untouched_iff :
    ((∀ t, takeIrq (run cfg s₀ inp t) (inp t) = true → ∀ k,
        ¬ Performs cfg (run cfg s₀ inp k) (inp k) (labelsAt cfg s₀ inp k) .dataRequest
          (labelsAt cfg s₀ inp t).ms.seq) ↔
      (∀ t, takeIrq (run cfg s₀ inp t) (inp t) = true →
        Decode.accessesMemory (labelsAt cfg s₀ inp t).ms.inst = false)) ∧
    ((∀ t, takeIrq (run cfg s₀ inp t) (inp t) = true →
        Decode.accessesMemory (labelsAt cfg s₀ inp t).ms.inst = false) →
      ∀ t, liveMs (run cfg s₀ inp t) = true →
        Decode.accessesMemory (labelsAt cfg s₀ inp t).ms.inst = true →
        takeIrq (run cfg s₀ inp t) (inp t) = false ∧
        ∀ k, Performs cfg (run cfg s₀ inp k) (inp k) (labelsAt cfg s₀ inp k) .dataRequest
          (labelsAt cfg s₀ inp t).ms.seq ↔ k + 1 = t) := by
  constructor
  · constructor
    · intro h t hirq
      have hlive := liveMs_of_takeIrq hirq
      rcases came_from_es cfg s₀ inp hlive with ⟨n, rfl, -⟩
      cases hacc : Decode.accessesMemory (labelsAt cfg s₀ inp (n + 1)).ms.inst with
      | false => rfl
      | true => exact absurd ((request_iff cfg s₀ inp hlive n).mpr ⟨rfl, hacc⟩) (h _ hirq n)
    · intro h t hirq k hp
      have hacc := ((request_iff cfg s₀ inp (liveMs_of_takeIrq hirq) k).mp hp).2
      rw [h t hirq] at hacc
      cases hacc
  · intro h t hlive hacc
    constructor
    · cases hirq : takeIrq (run cfg s₀ inp t) (inp t) with
      | false => rfl
      | true => rw [h t hirq] at hacc; cases hacc
    · intro k
      rw [request_iff cfg s₀ inp hlive k]
      exact ⟨fun hk => hk.1, fun hk => ⟨hk, hacc⟩⟩

end Run

/-- Inputs in which the program enables the external interrupt and then loads, with the interrupt
pending throughout. -/
def loadUnderInterrupt (n : Nat) : CpuIn :=
  { imemRdata :=
      if n = 2 then 0x80000093#32        -- addi x1, x0, -2048
      else if n = 3 then 0x3040a073#32   -- csrrs x0, mie, x1
      else if n = 4 then 0x30046073#32   -- csrrsi x0, mstatus, 8
      else if n = 5 then 0x00002103#32   -- lw x2, 0(x0)
      else 0x00000013#32
    dmemRdata := 0#32
    plicIrq := true }

theorem loadUnderInterrupt_noF (n : Nat) :
    Decode.usesF (loadUnderInterrupt n).imemRdata = false := by
  simp only [loadUnderInterrupt]
  split
  · decide
  · split
    · decide
    · split
      · decide
      · split <;> decide

/-- The load of that program is interrupted after it has presented its request. -/
theorem interrupted_not_always_untouched :
    ¬ ∀ (cfg : Config) (s₀ : Cpu) (inp : Nat → CpuIn),
      (∀ n, Decode.usesF (inp n).imemRdata = false) →
      ∀ t, takeIrq (run cfg s₀ inp t) (inp t) = true → ∀ k,
        ¬ Performs cfg (run cfg s₀ inp k) (inp k) (labelsAt cfg s₀ inp k) .dataRequest
          (labelsAt cfg s₀ inp t).ms.seq := by
  intro h
  exact h plainBuild zero loadUnderInterrupt loadUnderInterrupt_noF 8 (by decide +kernel) 7
    ⟨by decide +kernel, by decide +kernel⟩

/-! ## Misaligned stores -/

section Run

variable (cfg : Config) (s₀ : Cpu) (inp : Nat → CpuIn)

/-- No cycle of the execution of instruction `q` drives a write strobe with `dmem_en`. -/
def DrivesNoStrobe (q : Nat) : Prop :=
  ∀ k, (labelsAt cfg s₀ inp k).esMain.seq = q →
    ¬ (dmemEn cfg (run cfg s₀ inp k) (inp k) = true ∧
      dmemWen cfg (run cfg s₀ inp k) (inp k) ≠ 0#4)

/-- The store in the memory stage in cycle `t` takes the misaligned-store trap. -/
def TakesStoreTrap (t : Nat) : Prop :=
  exceptionCode (run cfg s₀ inp t) (inp t) = Exc.SAM ∧
    TrapEntered (labelsAt cfg s₀ inp t).ms.pc 6#32 (msAddr (run cfg s₀ inp t))
      (run cfg s₀ inp t).csr.file (run cfg s₀ inp (t + 1)).csr.file

/-- A misaligned store is a store of the base instruction set. -/
theorem isStore_of_misalignedStore {x addr : Word} (h : Decode.misalignedStore x addr = true) :
    Decode.opcode x = 0b0100011#7 ∧ (Decode.instSw x = true ∨ Decode.instSh x = true) := by
  simp only [Decode.misalignedStore, Decode.instSw, Decode.instSh, Decode.isStore,
    Bool.or_eq_true, Bool.and_eq_true, beq_iff_eq] at h ⊢
  rcases h with ⟨hsw, -⟩ | ⟨hsh, -⟩
  · exact ⟨hsw.1, Or.inl hsw⟩
  · exact ⟨hsh.1, Or.inr hsh⟩

/-- The strobes of a live `SW` or `SH` in execute, whatever its address. -/
theorem dmemWen_of_store {s : Cpu} {i : CpuIn} {x : Word} (hlive : liveEs s = true)
    (hexc : exceptionFlag s i = false) (hx : PayloadOf x s.es.buf.main)
    (hop : Decode.opcode x = 0b0100011#7)
    (hst : Decode.instSw x = true ∨ Decode.instSh x = true) :
    dmemEn cfg s i = true ∧ dmemWen cfg s i ≠ 0#4 := by
  have hmem := hx.decoded.memOp
  have hstore := hx.decoded.isStore
  have hs : (ExeStage.bus s.es).mem.isStore = true := by
    show s.es.buf.main.bus.mem.isStore = true
    rw [hstore]
    simp [Decode.isStoreInst, Decode.isStore, hop]
  have hflush := @esFlush_of_live cfg s i hlive hexc
  constructor
  · rw [dmemEn_of_liveEs cfg hlive hexc hx]
    rcases hst with h | h <;> simp [Decode.accessesMemory, MemOp.any, Decode.memOp, h]
  · have hb : (ExeStage.bus s.es).mem.memOp.b = Decode.instSb x := by
      show s.es.buf.main.bus.mem.memOp.b = _
      rw [hmem]
      simp [Decode.memOp, Decode.instLb, Decode.isLoad, hop]
    have hh : (ExeStage.bus s.es).mem.memOp.h = Decode.instSh x := by
      show s.es.buf.main.bus.mem.memOp.h = _
      rw [hmem]
      simp [Decode.memOp, Decode.instLh, Decode.isLoad, hop]
    have hw : (ExeStage.bus s.es).mem.memOp.w = Decode.instSw x := by
      show s.es.buf.main.bus.mem.memOp.w = _
      rw [hmem]
      simp [Decode.memOp, Decode.instLw, Decode.isLoad, Decode.instFlw, Decode.instFsw,
        Decode.isFload, Decode.isFstore, hop]
    -- a word or half store is no byte store, whose strobes are judged first
    have hf3 : Decode.instSb x = false := by
      rcases hst with h | h
      · simp only [Decode.instSw, Decode.f3_010, Bool.and_eq_true, beq_iff_eq] at h
        simp [Decode.instSb, Decode.f3_000, h.2]
      · simp only [Decode.instSh, Decode.f3_001, Bool.and_eq_true, beq_iff_eq] at h
        simp [Decode.instSb, Decode.f3_000, h.2]
    simp only [dmemWen, ExeStage.dmemWen, hflush, ExeStage.instSb, ExeStage.instSh,
      ExeStage.instSw, hb, hh, hw, hs, hf3, Bool.and_true, Bool.false_eq_true,
      if_false]
    cases hsh : Decode.instSh x with
    | true =>
        simp only [if_true, ExeStage.shWen]
        split <;> decide
    | false =>
        have hsw : Decode.instSw x = true := by simpa [hsh] using hst
        simp [hsw]

/-- Every unsquashed misaligned store takes its trap, and has driven a write strobe before. -/
theorem misaligned_store_traps_late {t : Nat} (hlive : liveMs (run cfg s₀ inp t) = true)
    (hmis : Decode.misalignedStore (labelsAt cfg s₀ inp t).ms.inst
      (msAddr (run cfg s₀ inp t)) = true) :
    TakesStoreTrap cfg s₀ inp t ∧ ¬ DrivesNoStrobe cfg s₀ inp (labelsAt cfg s₀ inp t).ms.seq := by
  rcases isStore_of_misalignedStore hmis with ⟨hop, hst⟩
  rcases (labelled_run cfg s₀ inp t).ms with ⟨hpc, hx⟩
  -- no other cause goes before the misaligned address
  constructor
  · have hF : Decode.usesF (labelsAt cfg s₀ inp t).ms.inst = false := by
      simp [Decode.usesF, Decode.isFload, Decode.isFstore, Decode.isFmadd, Decode.isFmsub,
        Decode.isFnmsub, Decode.isFnmadd, Decode.isFpu, hop]
    have hbr := hx.brTaken_eq_false (by
      simp [Decode.isBrJmpInst, Decode.isBranch, Decode.isJal, Decode.isJalr, hop])
    have hload : Decode.misalignedLoad (labelsAt cfg s₀ inp t).ms.inst
        (msAddr (run cfg s₀ inp t)) = false := by
      simp [Decode.misalignedLoad, Decode.instLw, Decode.instLh, Decode.instLhu, Decode.isLoad,
        hop]
    have hcause : trapCause (run cfg s₀ inp t) (inp t) (labelsAt cfg s₀ inp t).ms.inst =
        some .storeMisaligned := by
      simp [trapCause, hbr, hload, hmis]
    refine ⟨?_, ?_⟩
    · rw [exceptionCode_eq hlive hx hF, hcause]
      rfl
    · rw [← hpc]
      exact trap_entered hlive hx hF hcause
  -- it has driven its strobes one cycle earlier, in execute
  · intro hno
    rcases came_from_es cfg s₀ inp hlive with ⟨n, rfl, hes, hexc, -, hlab⟩
    rw [hlab] at hop hst hno
    exact hno n rfl
      (dmemWen_of_store cfg hes hexc (labelled_run cfg s₀ inp n).esMain.2 hop hst)

end Run

/-- A program whose second instruction stores -1 to address 1. -/
def storeToOddImem (addr : Word) : Word :=
  if addr == 0x80000000#32 then 0xfff00093#32        -- addi x1, x0, -1
  else if addr == 0x80000004#32 then 0x001020a3#32   -- sw x1, 1(x0)
  else 0x00000013#32

/-- The system running that program from a cleared data memory. -/
def storeToOdd (t : Nat) : Tb := Tb.run plainBuild storeToOddImem zero (fun _ => 0#32) t

/-- The misaligned store of that program traps and has changed the data memory. -/
theorem misaligned_store_writes :
    ¬ ∀ (cfg : Config) (s₀ : Cpu) (inp : Nat → CpuIn) (t : Nat),
      liveMs (run cfg s₀ inp t) = true →
      Decode.misalignedStore (labelsAt cfg s₀ inp t).ms.inst
        (msAddr (run cfg s₀ inp t)) = true →
      TakesStoreTrap cfg s₀ inp t ∧
        DrivesNoStrobe cfg s₀ inp (labelsAt cfg s₀ inp t).ms.seq := by
  intro h
  have hno := (h plainBuild zero (fun n => (storeToOdd n).inputs) 6 (by decide +kernel)
    (by decide +kernel)).2
  exact hno 5 (by decide +kernel) ⟨by decide +kernel, by decide +kernel⟩

/-- The same store, and the memory word that it overwrites although it traps. -/
theorem misaligned_store_traps_late_at_odd :
    TakesStoreTrap plainBuild zero (fun n => (storeToOdd n).inputs) 6 ∧
      (storeToOdd 5).dmem 0#30 = 0#32 ∧ (storeToOdd 6).dmem 0#30 = 0xffffffff#32 :=
  ⟨(misaligned_store_traps_late plainBuild zero (fun n => (storeToOdd n).inputs) (t := 6)
    (by decide +kernel) (by decide +kernel)).1, by decide +kernel, by decide +kernel⟩

end Cpu
end RiscvCpu
