import RiscvCpu.Rtl.TbCpuTop
import RiscvCpu.Stack.Forward

/-!
# Operand — stack-value forwarding over whole runs

The system of `TbCpuTop`: the core between one-cycle memories.  In every run in which no entry is
replaced under a lookup, an operand taken from the stack value buffer is the word that the `LW` ahead
of its consumer loads.  A run in which an entry is replaced under a lookup, and the consumer gets the
replacing store's word, closes the module.
-/

namespace RiscvCpu

open StackValueBuffer

namespace Cpu

variable {cfg : Config} {s : Cpu} {i : CpuIn}

/-- The packet takes an operand from the stack value buffer. -/
def TakesStackWord (b : DsToEsBus) : Prop :=
  b.src.stackSrc1Fwd = true ∨ b.src.stackSrc2Fwd = true

/-- The memory stage holds an unflushed `LW` that writes the register its consumer reads. -/
structure LwAhead (s : Cpu) : Prop where
  valid : MemStage.msValid s.ms = true
  unflushed : MemStage.msFlush s.ms = false
  loads : MemStage.loadLw s.ms = true
  writes : (MemStage.bus s.ms).regfileWen = true
  rdNonzero : (MemStage.bus s.ms).rdAddr ≠ 0#5

/-! ## The cycle in which the consumer is accepted -/

/-- A consumer is marked only while the load it waits for captures its entry. -/
theorem capture_of_takesStackWord (h : TakesStackWord (dsToEsBus cfg s i)) :
    ExeStage.exeStackLwHit s.es (exePorts cfg s i) = true ∧
      IdStage.ordinaryIntAluConsumer s.ds (idPorts cfg s i) = true := by
  rcases h with h | h <;>
    simp only [dsToEsBus, IdStage.dsToEsBus, IdStage.srcPacket, IdStage.stackLwRs1,
      IdStage.stackLwRs2, Bool.and_eq_true] at h
  · exact ⟨h.1.1, h.1.2⟩
  · exact ⟨h.1.1.1, h.1.1.2⟩

/-- What the load that captures its entry is. -/
theorem load_of_capture (hc : Control s)
    (h : ExeStage.exeStackLwHit s.es (exePorts cfg s i) = true) :
    ∃ x, PayloadOf x s.es.buf.main ∧ Decode.instLw x = true ∧
      s.es.buf.main.bus.mem.stackLoadHit = true := by
  simp only [ExeStage.exeStackLwHit, Bool.and_eq_true] at h
  rcases hc.esMain with ⟨x, hx⟩
  exact ⟨x, hx, Decode.instLw_of_es hx.decoded h.1.1.1.2, h.1.1.2⟩

/-- An `LW` with a destination that passes to the memory stage is there in the next cycle, and hands
the word on the data memory's output to write-back. -/
theorem lwAhead_next {x : Word} (hc : Control s) (hx : PayloadOf x s.es.buf.main)
    (hlw : Decode.instLw x = true)
    (haccept : ExeStage.memStageAccept s.es (exePorts cfg s i) = true)
    (hwen : (ExeStage.bus s.es).ctrl.regfileWen = true)
    (hrd : (ExeStage.bus s.es).ctrl.rdAddr ≠ 0#5) :
    LwAhead (next cfg s i) ∧
      ∀ rdata, MemStage.memResult (next cfg s i).ms rdata = rdata := by
  rcases accept_parts haccept with ⟨hv, hready, hflush⟩
  have hsel := (Decode.class_of_instLw hlw).2.2.2.1
  -- what the memory stage accepts is what execute shows
  have hmove : esToMsValid cfg s i = true := by rw [esToMsValid_eq, hv, hready]; rfl
  have hmain : (next cfg s i).ms.buf.main = msPayload cfg s i := by
    rw [next_ms_main hc, if_pos hmove]
  have hpay : MemPayloadOf x (msPayload cfg s i) := memPayloadOf_of_payloadOf hv hx
  have hload : (msPayload cfg s i).bus.loadInst = LoadInst.LW := by
    rw [hpay.loadInst]
    exact Decode.loadInstOf_of_instLw hlw
  refine ⟨⟨?_, ?_, ?_, ?_, ?_⟩, ?_⟩
  · show (next cfg s i).ms.buf.valid = true
    rw [next_ms_valid hc, hmove]
  · rw [MemStage.msFlush, hmain]
    exact hflush
  · simp [MemStage.loadLw, MemStage.bus, hmain, hload]
  · rw [MemStage.bus, hmain]
    exact hwen
  · rw [MemStage.bus, hmain]
    exact hrd
  · intro rdata
    have hexe : (msPayload cfg s i).bus.exeResultSel.exe = false := by
      rw [hpay.exeResultSel]; exact hsel
    simp [MemStage.memResult, MemStage.loadData, MemStage.bus, hmain, hexe, hload, LoadInst.LW,
      LoadInst.LB, LoadInst.LBU, LoadInst.LH, LoadInst.LHU]

/-- The edge after a capture: the load is in the memory stage, its word on the data memory's
output, and the captured word is the entry's. -/
theorem next_of_capture (hc : Control s)
    (h : ExeStage.exeStackLwHit s.es (exePorts cfg s i) = true) :
    LwAhead (next cfg s i) ∧ dmemEn cfg s i = true ∧
      (next cfg s i).stack.capturedData = queryData s.stack (dmemAddr s) ∧
      ∀ rdata, MemStage.memResult (next cfg s i).ms rdata = rdata := by
  rcases load_of_capture hc h with ⟨x, hx, hlw, -⟩
  have hcap := h
  simp only [ExeStage.exeStackLwHit, Bool.and_eq_true, bne_iff_ne, ne_eq] at h
  rcases accept_parts h.1.1.1.1 with ⟨hv, -, hflush⟩
  rcases Decode.class_of_instLw hlw with ⟨-, -, hjmp, -, -, -⟩
  rcases lwAhead_next hc hx hlw h.1.1.1.1 h.1.2 h.2 with ⟨hahead, hresult⟩
  refine ⟨hahead, ?_, ?_, hresult⟩
  · have hany : (ExeStage.bus s.es).mem.memOp.any = true := by
      show s.es.buf.main.bus.mem.memOp.any = true
      rw [hx.decoded.memOp]
      simp [MemOp.any, Decode.memOp, hlw]
    have hflush' : ExeStage.esFlush s.es (exePorts cfg s i) = false := hflush
    simp [dmemEn, ExeStage.dmemEn, ExeStage.esValid, hv, hany, hflush']
  · -- a load neither redirects fetch nor sits under an exception
    have hexc : exceptionFlag s i = false := (Bool.or_eq_false_iff.mp hflush).2
    have hred : brRedirect cfg s i = false := by
      cases hr : brRedirect cfg s i with
      | false => rfl
      | true =>
          have hb := (isBrJmp_of_brRedirect hr).2.2
          rw [hx.decoded.ctrl] at hb
          rw [← hb]
          exact hjmp
    simp [next, StackValueBuffer.next, stackPorts, hexc, hred, hcap, queryData]

end Cpu

namespace Tb

variable (cfg : Config) (imem : Word → Word)

/-- An operand that a valid, unflushed instruction in execute takes from the stack value buffer is
the word that the `LW` ahead of it writes back. -/
def StackOperandsCoherent (s : Tb) : Prop :=
  ExeStage.esValid s.cpu.es = true → Cpu.esFlush cfg s.cpu s.inputs = false →
    ((ExeStage.bus s.cpu.es).src.stackSrc1Fwd = true →
      Cpu.LwAhead s.cpu ∧
        ExeStage.aluSrc1 cfg s.cpu.es (Cpu.exePorts cfg s.cpu s.inputs) =
          Cpu.memResult s.cpu s.inputs) ∧
    ((ExeStage.bus s.cpu.es).src.stackSrc2Fwd = true →
      Cpu.LwAhead s.cpu ∧
        ExeStage.aluSrc2 cfg s.cpu.es (Cpu.exePorts cfg s.cpu s.inputs) =
          Cpu.memResult s.cpu s.inputs)

/-- An `LW` that hit the buffer passes to execute while its entry is taken over. -/
def replacedUnderLookup (s : Tb) : Bool := Cpu.replacedUnderLookup cfg s.cpu s.inputs

/-- The invariant of the runs in which no entry is replaced under a lookup. -/
structure StackInv (s : Tb) : Prop where
  control : Cpu.Control s.cpu
  coherent : Coherent Cpu.stackWindow s.cpu.stack s.dmem
  mainLooked : s.cpu.es.buf.valid = true → Cpu.LookedUp s.cpu.stack s.cpu.es.buf.main.bus
  skidLooked : s.cpu.es.buf.skidValid = true →
    Cpu.LookedUp s.cpu.stack s.cpu.es.buf.skid.bus
  skidPlain : s.cpu.es.buf.skidValid = true → ¬Cpu.TakesStackWord s.cpu.es.buf.skid.bus
  captured : s.cpu.es.buf.valid = true → Cpu.TakesStackWord s.cpu.es.buf.main.bus →
    s.cpu.es.buf.main.bus.ctrl.isMul = false ∧ Cpu.LwAhead s.cpu ∧
      s.cpu.stack.capturedData = Cpu.memResult s.cpu s.inputs

theorem stackInv_reset (cpu : Cpu) (dmem : DMem) : StackInv (reset cpu dmem) :=
  { control := Cpu.control_reset cpu
    coherent := coherent_reset _ _ _
    mainLooked := by intro h; cases h
    skidLooked := by intro h; cases h
    skidPlain := by intro h; cases h
    captured := by intro h; cases h }

variable {cfg imem} {s : Tb}

theorem next_cpu : (next cfg imem s).cpu = Cpu.next cfg s.cpu s.inputs := rfl

theorem next_dmemRdata (h : Cpu.dmemEn cfg s.cpu s.inputs = true) :
    (next cfg imem s).dmemRdata = s.dmem (wordAddr (Cpu.dmemAddr s.cpu)) := by
  simp [next, h]

/-- The word a load captures is the word it loads. -/
theorem captured_next (h : StackInv s)
    (hcap : ExeStage.exeStackLwHit s.cpu.es (Cpu.exePorts cfg s.cpu s.inputs) = true) :
    Cpu.LwAhead (next cfg imem s).cpu ∧
      (next cfg imem s).cpu.stack.capturedData =
        Cpu.memResult (next cfg imem s).cpu (next cfg imem s).inputs := by
  rcases Cpu.next_of_capture h.control hcap with ⟨hahead, hen, hdata, hresult⟩
  rcases Cpu.load_of_capture h.control hcap with ⟨x, hx, -, hhit⟩
  have hv := (Cpu.dmemEn_parts hen).1
  rcases h.mainLooked hv hhit with ⟨hfwd, hwin, htag⟩
  have haddr : Cpu.dmemAddr s.cpu =
      s.cpu.es.buf.main.bus.src.regSrc1 + s.cpu.es.buf.main.bus.mem.memImm := by
    simp [Cpu.dmemAddr, ExeStage.dmemAddr, ExeStage.src1Base, ExeStage.srcBase, ExeStage.bus, hfwd]
  have hword := h.coherent _ hwin htag
  refine ⟨hahead, ?_⟩
  calc
    (next cfg imem s).cpu.stack.capturedData
        = queryData s.cpu.stack (Cpu.dmemAddr s.cpu) := hdata
    _ = s.dmem (wordAddr (Cpu.dmemAddr s.cpu)) := by rw [haddr]; exact hword
    _ = (next cfg imem s).dmemRdata := (next_dmemRdata hen).symm
    _ = Cpu.memResult (next cfg imem s).cpu (next cfg imem s).inputs := (hresult _).symm

theorem captured_step (h : StackInv s) (hv : (next cfg imem s).cpu.es.buf.valid = true)
    (htakes : Cpu.TakesStackWord (next cfg imem s).cpu.es.buf.main.bus) :
    (next cfg imem s).cpu.es.buf.main.bus.ctrl.isMul = false ∧
      Cpu.LwAhead (next cfg imem s).cpu ∧
      (next cfg imem s).cpu.stack.capturedData =
        Cpu.memResult (next cfg imem s).cpu (next cfg imem s).inputs := by
  have hbuf : (next cfg imem s).cpu.es.buf = SkidBuffer.next s.cpu.es.buf
      (Cpu.esWires cfg s.cpu s.inputs) (Cpu.esPayload cfg s.cpu s.inputs) := rfl
  rw [hbuf] at hv htakes ⊢
  cases hcore : SkidBuffer.coreAllowin s.cpu.es.buf (Cpu.esWires cfg s.cpu s.inputs) with
  | false =>
      -- only a multiplication or division stands still
      rw [SkidBuffer.next_of_stalled hcore] at htakes
      rcases Cpu.es_stalled hcore h.control with ⟨hev, -, -, hmul, -⟩
      have hnot := (h.captured hev htakes).1
      rw [hmul] at hnot
      cases hnot
  | true =>
      rw [SkidBuffer.next_of_moved hcore] at hv htakes ⊢
      cases hskid : s.cpu.es.buf.skidValid with
      | true =>
          simp only [hskid, if_true] at htakes
          exact absurd htakes (h.skidPlain hskid)
      | false =>
          have hfire : SkidBuffer.inFire s.cpu.es.buf (Cpu.esWires cfg s.cpu s.inputs) = true := by
            simpa [hskid] using hv
          simp only [hskid, hfire, Bool.false_eq_true, if_true, if_false] at htakes ⊢
          rcases @Cpu.capture_of_takesStackWord cfg _ _ htakes with ⟨hcap, hcons⟩
          refine ⟨?_, captured_next h hcap⟩
          simp only [IdStage.ordinaryIntAluConsumer, Bool.and_eq_true, Bool.not_eq_true'] at hcons
          exact hcons.1.1.1.1.2

theorem mainLooked_step (h : StackInv s) (hok : replacedUnderLookup cfg s = false)
    (hv : (next cfg imem s).cpu.es.buf.valid = true) :
    Cpu.LookedUp (next cfg imem s).cpu.stack (next cfg imem s).cpu.es.buf.main.bus := by
  have hbuf : (next cfg imem s).cpu.es.buf = SkidBuffer.next s.cpu.es.buf
      (Cpu.esWires cfg s.cpu s.inputs) (Cpu.esPayload cfg s.cpu s.inputs) := rfl
  rw [hbuf] at hv ⊢
  cases hcore : SkidBuffer.coreAllowin s.cpu.es.buf (Cpu.esWires cfg s.cpu s.inputs) with
  -- no store is accepted while execute stands still
  | false =>
      rw [SkidBuffer.next_of_stalled hcore]
      exact Cpu.lookedUp_idle (Cpu.storeValid_of_stalled h.control hcore)
        (h.mainLooked (SkidBuffer.valid_of_stalled hcore))
  | true =>
      rw [SkidBuffer.next_of_moved hcore] at hv ⊢
      cases hskid : s.cpu.es.buf.skidValid with
      | true =>
          simp only [if_true]
          exact Cpu.lookedUp_idle (Cpu.storeValid_of_esSkid h.control hskid) (h.skidLooked hskid)
      | false =>
          have hfire : SkidBuffer.inFire s.cpu.es.buf (Cpu.esWires cfg s.cpu s.inputs) = true := by
            simpa [hskid] using hv
          simp only [hfire, Bool.false_eq_true, if_true, if_false]
          exact Cpu.lookedUp_accepted hfire hok

theorem skid_step (h : StackInv s) (hok : replacedUnderLookup cfg s = false)
    (hv : (next cfg imem s).cpu.es.buf.skidValid = true) :
    Cpu.LookedUp (next cfg imem s).cpu.stack (next cfg imem s).cpu.es.buf.skid.bus ∧
      ¬Cpu.TakesStackWord (next cfg imem s).cpu.es.buf.skid.bus := by
  have hbuf : (next cfg imem s).cpu.es.buf = SkidBuffer.next s.cpu.es.buf
      (Cpu.esWires cfg s.cpu s.inputs) (Cpu.esPayload cfg s.cpu s.inputs) := rfl
  rw [hbuf] at hv ⊢
  cases hcore : SkidBuffer.coreAllowin s.cpu.es.buf (Cpu.esWires cfg s.cpu s.inputs) with
  | true =>
      rw [SkidBuffer.next_of_moved hcore] at hv
      cases hv
  | false =>
      rw [SkidBuffer.next_of_stalled hcore] at hv ⊢
      cases hskid : s.cpu.es.buf.skidValid with
      | true =>
          simp only [Bool.not_true, Bool.and_false, Bool.false_eq_true, if_false]
          exact ⟨Cpu.lookedUp_idle (Cpu.storeValid_of_stalled h.control hcore)
            (h.skidLooked hskid), h.skidPlain hskid⟩
      | false =>
          have hfire : SkidBuffer.inFire s.cpu.es.buf (Cpu.esWires cfg s.cpu s.inputs) = true := by
            simp only [hskid, Bool.false_or, Bool.and_eq_true] at hv
            exact hv.2
          simp only [hfire, Bool.not_false, Bool.and_true, if_true]
          refine ⟨Cpu.lookedUp_accepted hfire hok, ?_⟩
          -- what stands still in execute captures nothing
          intro htakes
          have hcap := (@Cpu.capture_of_takesStackWord cfg _ _ htakes).1
          simp only [ExeStage.exeStackLwHit, Bool.and_eq_true] at hcap
          have hready := (Cpu.es_stalled hcore h.control).2.2.2.2
          rw [(Cpu.accept_parts hcap.1.1.1.1).2.1] at hready
          cases hready

theorem stackInv_next (h : StackInv s) (hok : replacedUnderLookup cfg s = false) :
    StackInv (next cfg imem s) :=
  { control := Cpu.control_next h.control
    coherent := Cpu.coherent_next h.control h.coherent
    mainLooked := mainLooked_step h hok
    skidLooked := fun hv => (skid_step h hok hv).1
    skidPlain := fun hv => (skid_step h hok hv).2
    captured := captured_step h }

theorem stackInv_run (cpu : Cpu) (dmem : DMem) {t : Nat}
    (hok : ∀ k, k < t → replacedUnderLookup cfg (run cfg imem cpu dmem k) = false) :
    StackInv (run cfg imem cpu dmem t) := by
  induction t with
  | zero => exact stackInv_reset cpu dmem
  | succ t ih =>
      exact stackInv_next (ih fun k hk => hok k (Nat.lt_succ_of_lt hk)) (hok t (Nat.lt_succ_self t))

theorem stackOperandsCoherent_of_inv (h : StackInv s) : StackOperandsCoherent cfg s := by
  intro hv _
  constructor
  · intro hfwd
    rcases h.captured hv (Or.inl hfwd) with ⟨-, hahead, hdata⟩
    refine ⟨hahead, ?_⟩
    simp [ExeStage.aluSrc1, ExeStage.aluSrc, hfwd, Cpu.exePorts, hdata]
  · intro hfwd
    rcases h.captured hv (Or.inr hfwd) with ⟨-, hahead, hdata⟩
    refine ⟨hahead, ?_⟩
    simp [ExeStage.aluSrc2, ExeStage.aluSrc, hfwd, Cpu.exePorts, hdata]

/-- In every run whose cycles before `t` replace no entry under a lookup, the operands taken from the
stack value buffer in cycle `t` are right. -/
theorem stack_forwarding_coherent (cfg : Config) (imem : Word → Word) (cpu : Cpu) (dmem : DMem)
    (t : Nat)
    (hok : ∀ k, k < t → replacedUnderLookup cfg (run cfg imem cpu dmem k) = false) :
    StackOperandsCoherent cfg (run cfg imem cpu dmem t) :=
  stackOperandsCoherent_of_inv (stackInv_run cpu dmem hok)

/-! ## An entry replaced under a lookup -/

/-- `lui x2, 0x80100; addi x5, x0, 1; addi x6, x0, 2; sw x5, 0(x2)`, then `store`, then
`lw x7, 0(x2); addi x8, x7, 0`. -/
def storeStoreLoad (store addr : Word) : Word :=
  if addr = 0x8000_0000#32 then 0x8010_0137#32
  else if addr = 0x8000_0004#32 then 0x0010_0293#32
  else if addr = 0x8000_0008#32 then 0x0020_0313#32
  else if addr = 0x8000_000C#32 then 0x0051_2023#32
  else if addr = 0x8000_0010#32 then store
  else if addr = 0x8000_0014#32 then 0x0001_2383#32
  else if addr = 0x8000_0018#32 then 0x0003_8413#32
  else 0x0000_0013#32

/-- The run of `storeStoreLoad` from zeroed registers and memory. -/
def storeStoreLoadRun (store : Word) (t : Nat) : Tb :=
  run ⟨false, false⟩ (storeStoreLoad store) Cpu.zero (fun _ => 0#32) t

/-- `sw x6, 64(x2)` takes the entry of `0(x2)` over while `lw x7, 0(x2)` is looked up: the load
returns 1 and `addi x8, x7, 0` computes with 2. -/
theorem stack_forwarding_not_always_coherent :
    let s := storeStoreLoadRun 0x0461_2023#32 10
    ExeStage.esValid s.cpu.es = true ∧ Cpu.esFlush ⟨false, false⟩ s.cpu s.inputs = false ∧
      (ExeStage.bus s.cpu.es).src.stackSrc1Fwd = true ∧
      MemStage.msValid s.cpu.ms = true ∧ MemStage.loadLw s.cpu.ms = true ∧
      Cpu.memResult s.cpu s.inputs = 1#32 ∧
      ExeStage.aluSrc1 ⟨false, false⟩ s.cpu.es (Cpu.exePorts ⟨false, false⟩ s.cpu s.inputs) =
        2#32 := by
  decide +kernel

/-- With `sw x6, 4(x2)` instead, the entry stays and the operand is right. -/
theorem stack_forwarding_coherent_other_entry :
    (ExeStage.bus (storeStoreLoadRun 0x0061_2223#32 10).cpu.es).src.stackSrc1Fwd = true ∧
      StackOperandsCoherent ⟨false, false⟩ (storeStoreLoadRun 0x0061_2223#32 10) :=
  ⟨by decide +kernel,
    stack_forwarding_coherent ⟨false, false⟩ (storeStoreLoad 0x0061_2223#32) Cpu.zero
      (fun _ => 0#32) 10 (by decide +kernel)⟩

end Tb
end RiscvCpu
