import RiscvCpu.Refine.Operands
import RiscvCpu.Refine.Select

/-!
# MemRequest — the data request of every instruction word

A word that passes from decode to execute presents the access that the instruction set gives it: its
base and immediate, its direction, and for a store its lanes.  The integer loads and stores do.  A
floating-point load presents the strobes of a store, and a floating-point store takes its base from
the floating-point file and its data from the integer file.
-/

namespace RiscvCpu
namespace Isa

/-- A memory access: a load, or a store of an integer or a floating-point register. -/
inductive Access
  | load
  | store (o : StoreOp) (float : Bool)
  deriving DecidableEq

/-- The access of a word: `LOAD`, `STORE`, `FLW` and `FSW`. -/
def accessOf (w : Word) : Option Access :=
  if opcode w = 0b0000011#7 then (loadTable.lookup (funct3 w)).map fun _ => .load
  else if opcode w = 0b0100011#7 then
    (storeTable.lookup (funct3 w)).map fun o => .store o false
  else if opcode w = 0b0000111#7 then if funct3 w = 0b010#3 then some .load else none
  else if opcode w = 0b0100111#7 then
    if funct3 w = 0b010#3 then some (.store .sw true) else none
  else none

end Isa

open Decode

namespace MemRequest

/-- Execute requests nothing, a load, or a store, by the fields of the word `x`, with the integer
registers `ρ` and the floating-point registers `φ`. -/
def Requests (x : Word) (ρ φ : BitVec 5 → Word) (r : ExeStage.Regs) (p : ExeStage.Ports) :
    Option Isa.Access → Prop
  | none => ExeStage.dmemEn r p = false ∧ ExeStage.dmemWen r p = 0#4
  | some .load =>
      ExeStage.dmemEn r p = true ∧ ExeStage.dmemAddr r = ρ (Isa.rs1 x) + Isa.immI x ∧
        ExeStage.dmemWen r p = 0#4
  | some (.store o float) =>
      ExeStage.dmemEn r p = true ∧ ExeStage.dmemAddr r = ρ (Isa.rs1 x) + Isa.immS x ∧
        ((ρ (Isa.rs1 x) + Isa.immS x).toNat % o.size = 0 →
          ExeStage.dmemWen r p = o.strobes (ρ (Isa.rs1 x) + Isa.immS x) ∧
            strobeWord (ExeStage.dmemWen r p) 0#32 (ExeStage.dmemWdata r) =
              o.lanes (ρ (Isa.rs1 x) + Isa.immS x) (if float then φ (Isa.rs2 x) else ρ (Isa.rs2 x)))

/-- Execute requests the access of the word `x`. -/
def AsIsa (x : Word) (ρ φ : BitVec 5 → Word) (r : ExeStage.Regs) (p : ExeStage.Ports) : Prop :=
  Requests x ρ φ r p (Isa.accessOf x)

/-! ## What decode makes of the words -/

variable {x : Word}

/-- The four kinds of access, one constructor for each opcode. -/
inductive Kind (x : Word) : Option Isa.Access → Prop
  | load (o : Isa.LoadOp) (hop : opcode x = 0b0000011#7) (ho : (funct3 x, o) ∈ Isa.loadTable) :
      Kind x (some .load)
  | store (o : Isa.StoreOp) (hop : opcode x = 0b0100011#7)
      (ho : (funct3 x, o) ∈ Isa.storeTable) : Kind x (some (.store o false))
  | flw (hflw : instFlw x = true) : Kind x (some .load)
  | fsw (hfsw : instFsw x = true) : Kind x (some (.store .sw true))
  | none (hany : (memOp x).any = false) : Kind x none

/-- A function field outside the table of an opcode is no access. -/
theorem loadTable_lookup_none :
    ∀ f : BitVec 3, Isa.loadTable.lookup f = none →
      (f == 0b000#3) = false ∧ (f == 0b001#3) = false ∧ (f == 0b010#3) = false ∧
        (f == 0b100#3) = false ∧ (f == 0b101#3) = false := by
  decide

theorem storeTable_lookup_none :
    ∀ f : BitVec 3, Isa.storeTable.lookup f = none →
      (f == 0b000#3) = false ∧ (f == 0b001#3) = false ∧ (f == 0b010#3) = false := by
  decide

theorem kind_accessOf (x : Word) : Kind x (Isa.accessOf x) := by
  have hop : opcode x = Isa.opcode x := rfl
  have hf3 : funct3 x = Isa.funct3 x := rfl
  unfold Isa.accessOf
  split
  case isTrue hl =>
    cases hlook : Isa.loadTable.lookup (Isa.funct3 x) with
    | some o => exact .load o hl (Isa.mem_of_lookup hlook)
    | none =>
        rcases loadTable_lookup_none _ hlook with ⟨h0, h1, h2, h4, h5⟩
        refine .none ?_
        simp [MemOp.any, memOp, instLb, instSb, instLh, instSh, instLw, instSw, instLbu, instLhu,
          instFlw, instFsw, isFload, isFstore, isLoad, isStore, f3_000, f3_001, f3_010, f3_100,
          f3_101, hop, hl, hf3, h0, h1, h2, h4, h5]
  case isFalse hl =>
    split
    case isTrue hs =>
      cases hlook : Isa.storeTable.lookup (Isa.funct3 x) with
      | some o => exact .store o hs (Isa.mem_of_lookup hlook)
      | none =>
          rcases storeTable_lookup_none _ hlook with ⟨h0, h1, h2⟩
          refine .none ?_
          simp [MemOp.any, Datapath.memOp_store hs, hf3, h0, h1, h2]
    case isFalse hs =>
      have hload : isLoad x = false := by simpa [isLoad, hop] using hl
      have hstore : isStore x = false := by simpa [isStore, hop] using hs
      split
      case isTrue hfl =>
        split
        case isTrue h3 => exact .flw (by simp [instFlw, isFload, f3_010, hop, hfl, hf3, h3])
        case isFalse h3 =>
          refine .none ?_
          simp [MemOp.any, memOp, instLb, instSb, instLh, instSh, instLw, instSw, instLbu, instLhu,
            instFlw, instFsw, isFload, isFstore, f3_010, hload, hstore, hop, hfl, hf3, h3]
      case isFalse hfl =>
        have hfload : isFload x = false := by simpa [isFload, hop] using hfl
        split
        case isTrue hfs =>
          split
          case isTrue h3 => exact .fsw (by simp [instFsw, isFstore, f3_010, hop, hfs, hf3, h3])
          case isFalse h3 =>
            refine .none ?_
            simp [MemOp.any, memOp, instLb, instSb, instLh, instSh, instLw, instSw, instLbu,
              instLhu, instFlw, instFsw, hfload, isFstore, f3_010, hload, hstore, hop, hfs, hf3, h3]
        case isFalse hfs =>
          refine .none ?_
          simp [MemOp.any, memOp, instLb, instSb, instLh, instSh, instLw, instSw, instLbu, instLhu,
            instFlw, instFsw, hfload, isFstore, hload, hstore, hop, hfs]

theorem opcode_of_instFlw (h : instFlw x = true) :
    opcode x = 0b0000111#7 ∧ funct3 x = 0b010#3 := by
  simpa [instFlw, isFload, f3_010] using h

theorem opcode_of_instFsw (h : instFsw x = true) :
    opcode x = 0b0100111#7 ∧ funct3 x = 0b010#3 := by
  simpa [instFsw, isFstore, f3_010] using h

/-- `FLW` counts as a store of a word. -/
theorem wen_flw (h : instFlw x = true) (addr : Word) : Datapath.wen x addr = 0b1111#4 := by
  rcases opcode_of_instFlw h with ⟨hop, hf3⟩
  simp [Datapath.wen, memOp, isStoreInst, instLb, instSb, instLh, instSh, instFlw, isFload, isLoad,
    isStore, f3_010, hop, hf3]

/-- Decode takes `FSW` for a store of a word with the immediate of a store. -/
theorem fsw_decoded (h : instFsw x = true) :
    (memOp x).any = true ∧ memImm x = immSExt x ∧ (∀ addr, Datapath.wen x addr = 0b1111#4) ∧
      ∀ w, Datapath.wdata x w = w := by
  rcases opcode_of_instFsw h with ⟨hop, hf3⟩
  have hmemOp : memOp x = ⟨false, false, true, false, false⟩ := by
    simp [memOp, instLb, instSb, instLh, instSh, instLw, instSw, instLbu, instLhu, instFlw,
      instFsw, isFload, isFstore, isLoad, isStore, f3_010, hop, hf3]
  refine ⟨by simp [hmemOp, MemOp.any], ?_, ?_, ?_⟩
  · simp [memImm, imsValid, h, isStore, imiValid, isLoad, gate, hop, isOpImm, instAddi, instSlti,
      instSltiu, instXori, instOri, instAndi, instSlli, instSrli, instSrai, instFlw, isFload,
      instJalr, isJalr]
  · intro addr
    simp [Datapath.wen, hmemOp, isStoreInst, h]
  · intro w
    simp [Datapath.wdata, hmemOp]

end MemRequest

namespace Cpu

variable {cfg : Config} {s : Cpu} {i : CpuIn} {ρ φ : BitVec 5 → Word} {rdata : Word}

/-! ## The operands of a memory access -/

/-- What decode hands over for the register field `rs`: the word of an instruction in execute or in
the memory stage that writes the integer register `rs`, or else `own`. -/
def inFlight (cfg : Config) (s : Cpu) (i : CpuIn) (rs : BitVec 5) (own : Word) : Word :=
  if rs = 0#5 then own
  else if esWrites cfg s i && (s.es.buf.main.bus.ctrl.rdAddr == rs) then
    ExeStage.exeResult cfg s.es (exePorts cfg s i)
  else if MemStage.memRegfileWen s.ms (exceptionFlag s i) && (MemStage.memDstAddr s.ms == rs) then
    memResult s i
  else own

/-- The base of a floating-point store: its own register is a floating-point register. -/
def fswBase (cfg : Config) (s : Cpu) (i : CpuIn) : Word :=
  inFlight cfg s i (rs1Addr (IdStage.idInst s.ds)) (IdStage.src1Fpu s.ds (idPorts cfg s i))

/-- The data of a floating-point store: its own register is an integer register. -/
def fswData (cfg : Config) (s : Cpu) (i : CpuIn) : Word :=
  inFlight cfg s i (rs2Addr (IdStage.idInst s.ds)) (readWithBypass s (rs2Addr (IdStage.idInst s.ds)))

/-- A select without a live word picks the word in flight. -/
theorem srcBase_srcFwd (rs : BitVec 5) (own : Word) :
    ExeStage.srcBase (IdStage.srcFwd (idPorts cfg s i) false rs)
      (ExeStage.exeResult cfg s.es (exePorts cfg s i)) (memResult s i) own =
      inFlight cfg s i rs own := by
  rw [inFlight]
  by_cases hrs : rs = 0#5
  · simp [hrs, IdStage.srcFwd, ExeStage.srcBase]
  · rw [srcFwd_eq hrs, if_neg hrs]
    cases esWrites cfg s i && (s.es.buf.main.bus.ctrl.rdAddr == rs) with
    | true => rfl
    | false =>
        cases MemStage.memRegfileWen s.ms (exceptionFlag s i) && (MemStage.memDstAddr s.ms == rs) with
        | true => rfl
        | false => rfl

/-- A memory instruction is granted no word of the cycle in which it is accepted. -/
theorem not_consumer_of_isMemInst (h : isMemInst (IdStage.idInst s.ds) = true) :
    IdStage.liveLwRs1 cfg s.ds (idPorts cfg s i) = false ∧
      IdStage.liveLwRs2 cfg s.ds (idPorts cfg s i) = false ∧
      IdStage.stackLwRs1 s.ds (idPorts cfg s i) = false ∧
      IdStage.stackLwRs2 s.ds (idPorts cfg s i) = false := by
  have hno : IdStage.ordinaryIntAluConsumer s.ds (idPorts cfg s i) = false := by
    simp [IdStage.ordinaryIntAluConsumer, h]
  simp [IdStage.liveLwRs1, IdStage.liveLwRs2, IdStage.stackLwRs1, IdStage.stackLwRs2, hno]

/-- The base that execute takes from decode. -/
theorem base_accepted (hmem : isMemInst (IdStage.idInst s.ds) = true) :
    ExeStage.srcBase (IdStage.src1Fwd cfg s.ds (idPorts cfg s i))
        (ExeStage.exeResult cfg s.es (exePorts cfg s i)) (memResult s i)
        (IdStage.regSrc1 s.ds (idPorts cfg s i)) =
      inFlight cfg s i (rs1Addr (IdStage.idInst s.ds))
        (if instFlw (IdStage.idInst s.ds) || instFsw (IdStage.idInst s.ds) then
          IdStage.src1Fpu s.ds (idPorts cfg s i)
        else readWithBypass s (rs1Addr (IdStage.idInst s.ds))) := by
  have hopcode := Select.opcode_of_isMemInst hmem
  have hlui : instLui (IdStage.idInst s.ds) = false := by
    rcases hopcode with hop | hop | hop | hop <;> simp [instLui, isLui, hop]
  have hauipc : instAuipc (IdStage.idInst s.ds) = false := by
    rcases hopcode with hop | hop | hop | hop <;> simp [instAuipc, isAuipc, hop]
  rw [IdStage.src1Fwd, IdStage.regSrc1, hlui, hauipc, (not_consumer_of_isMemInst hmem).1, src_eq.1]
  simp only [Bool.or_self, Bool.false_eq_true, if_false]
  exact srcBase_srcFwd _ _

/-- The second operand that execute takes from decode. -/
theorem data_accepted (hmem : isMemInst (IdStage.idInst s.ds) = true) :
    ExeStage.srcBase (IdStage.src2Fwd cfg s.ds (idPorts cfg s i))
        (ExeStage.exeResult cfg s.es (exePorts cfg s i)) (memResult s i)
        (IdStage.regSrc2 s.ds (idPorts cfg s i)) = fswData cfg s i := by
  have hopcode := Select.opcode_of_isMemInst hmem
  have hsel : aluSrc2ImmSel (IdStage.idInst s.ds) = false := by
    rcases hopcode with hop | hop | hop | hop <;>
      simp [aluSrc2ImmSel, isOpImm, isLui, isAuipc, hop]
  have hreg : isOpReg (IdStage.idInst s.ds) = false := by
    rcases hopcode with hop | hop | hop | hop <;> simp [isOpReg, hop]
  have himm : isOpImm (IdStage.idInst s.ds) = false := by
    rcases hopcode with hop | hop | hop | hop <;> simp [isOpImm, hop]
  have hbit : isBitmanInst (IdStage.idInst s.ds) = false := isBitmanInst_eq_false hreg himm
  have hany : instBitmanAny (IdStage.idInst s.ds) = false := hbit
  have hindex : instBitmanImmInst (IdStage.idInst s.ds) = false := by
    rcases hopcode with hop | hop | hop | hop <;>
      simp [instBitmanImmInst, instBclri, instBexti, instBinvi, isBitmanImm, hop]
  rw [IdStage.src2Fwd, IdStage.regSrc2, hsel, hindex, hany, (not_consumer_of_isMemInst hmem).2.1,
    src_eq.2]
  simp only [Bool.or_self, Bool.false_and, Bool.false_eq_true, if_false]
  exact srcBase_srcFwd _ _

/-- For a register that the hazard check looks at, that is the register of `ρ`. -/
theorem inFlight_eq (hA : Ahead cfg s i ρ rdata) {rs : BitVec 5}
    (hwait : rs ≠ 0#5 → esWrites cfg s i = true → s.es.buf.main.bus.ctrl.rdAddr = rs →
      IdStage.exeForwardPending (idPorts cfg s i) = false) :
    inFlight cfg s i rs (readWithBypass s rs) = ρ rs := by
  have hlive : LiveSelect cfg s i false rs := by
    intro h
    cases h
  have hne : IdStage.srcFwd (idPorts cfg s i) false rs ≠ 0b11#2 := by
    simp only [IdStage.srcFwd]
    repeat' split
    all_goals first | decide | contradiction
  have hread := argument_srcFwd hA hlive fun _ => hwait
  rw [ExeStage.argument_of_ne hne] at hread
  rw [← srcBase_srcFwd]
  exact hread

/-! ## The request -/

/-- The instruction that decode passes on in the state `s` stands in execute, valid and
unflushed. -/
structure Accepted (cfg : Config) (s : Cpu) (i : CpuIn) (r : ExeStage.Regs) (p : ExeStage.Ports) :
    Prop where
  fire : SkidBuffer.inFire s.es.buf (esWires cfg s i) = true
  payload : r.buf.main = esPayload cfg s i
  valid : r.buf.valid = true
  unflushed : ExeStage.esFlush r p = false

variable {r : ExeStage.Regs} {p : ExeStage.Ports}

namespace Accepted

theorem requested (h : Accepted cfg s i r p) :
    ExeStage.Requested (IdStage.idInst s.ds) r p := by
  refine ExeStage.requested_of_decoded ?_ h.valid h.unflushed
  rw [ExeStage.bus, h.payload]
  exact decoded_dsToEsBus cfg s.ds (idPorts cfg s i) (stackQueryHit cfg s i)

theorem src1Base_eq (h : Accepted cfg s i r p) (hmem : isMemInst (IdStage.idInst s.ds) = true) :
    ExeStage.src1Base r =
      inFlight cfg s i (rs1Addr (IdStage.idInst s.ds))
        (if instFlw (IdStage.idInst s.ds) || instFsw (IdStage.idInst s.ds) then
          IdStage.src1Fpu s.ds (idPorts cfg s i)
        else readWithBypass s (rs1Addr (IdStage.idInst s.ds))) := by
  rw [ExeStage.src1Base, ExeStage.bus, h.payload]
  exact base_accepted hmem

theorem src2Base_eq (h : Accepted cfg s i r p) (hmem : isMemInst (IdStage.idInst s.ds) = true) :
    ExeStage.src2Base r = fswData cfg s i := by
  rw [ExeStage.src2Base, ExeStage.bus, h.payload]
  exact data_accepted hmem

/-- The base of an integer load or store. -/
theorem base_eq (h : Accepted cfg s i r p) (hA : Ahead cfg s i ρ rdata)
    (hmem : isMemInst (IdStage.idInst s.ds) = true)
    (hint : instFlw (IdStage.idInst s.ds) = false ∧ instFsw (IdStage.idInst s.ds) = false)
    (hneed : needRs1 (IdStage.idInst s.ds) = true) :
    ExeStage.src1Base r = ρ (rs1Addr (IdStage.idInst s.ds)) := by
  rcases @not_consumer_of_isMemInst cfg s i hmem with ⟨hlive, -, hstack, -⟩
  rw [h.src1Base_eq hmem, hint.1, hint.2]
  simp only [Bool.or_self, Bool.false_eq_true, if_false]
  refine inFlight_eq hA fun hrs hw hrd => ?_
  exact not_awaited_of_plain h.fire hrs hw hrd (Or.inl ⟨hneed, rfl, hlive, hstack⟩)

/-- The data of an integer store. -/
theorem data_eq (h : Accepted cfg s i r p) (hA : Ahead cfg s i ρ rdata)
    (hmem : isMemInst (IdStage.idInst s.ds) = true)
    (hneed : needRs2 (IdStage.idInst s.ds) = true) :
    ExeStage.src2Base r = ρ (rs2Addr (IdStage.idInst s.ds)) := by
  rcases @not_consumer_of_isMemInst cfg s i hmem with ⟨-, hlive, -, hstack⟩
  rw [h.src2Base_eq hmem, fswData]
  refine inFlight_eq hA fun hrs hw hrd => ?_
  exact not_awaited_of_plain h.fire hrs hw hrd (Or.inr ⟨hneed, rfl, hlive, hstack⟩)

end Accepted

namespace Accepted

/-! ### One kind of access at a time -/

theorem load_requested (h : Accepted cfg s i r p) (hA : Ahead cfg s i ρ rdata) {o : Isa.LoadOp}
    (hop : opcode (IdStage.idInst s.ds) = 0b0000011#7)
    (ho : (funct3 (IdStage.idInst s.ds), o) ∈ Isa.loadTable) :
    MemRequest.Requests (IdStage.idInst s.ds) ρ φ r p (some .load) := by
  have hreq := h.requested
  rcases Datapath.load_decoded hop ho with ⟨hany, hstore, himm⟩
  have hbase := h.base_eq hA (by simp [isMemInst, isLoad, hop])
    (by simp [instFlw, instFsw, isFload, isFstore, hop]) (by simp [needRs1, isLoad, hop])
  refine ⟨?_, ?_, ?_⟩
  · rw [hreq.en, hany]
  · rw [hreq.addr, hbase, himm]
    rfl
  · rw [hreq.wen]
    simp [Datapath.wen, hstore]

theorem store_requested (h : Accepted cfg s i r p) (hA : Ahead cfg s i ρ rdata) {o : Isa.StoreOp}
    (hop : opcode (IdStage.idInst s.ds) = 0b0100011#7)
    (ho : (funct3 (IdStage.idInst s.ds), o) ∈ Isa.storeTable) :
    MemRequest.Requests (IdStage.idInst s.ds) ρ φ r p (some (.store o false)) := by
  have hreq := h.requested
  have hmem : isMemInst (IdStage.idInst s.ds) = true := by simp [isMemInst, isStore, hop]
  have hbase := h.base_eq hA hmem (by simp [instFlw, instFsw, isFload, isFstore, hop])
    (by simp [needRs1, isStore, hop])
  have hdata := h.data_eq hA hmem (by simp [needRs2, isStore, hop])
  have haddr : ExeStage.dmemAddr r =
      ρ (Isa.rs1 (IdStage.idInst s.ds)) + Isa.immS (IdStage.idInst s.ds) := by
    rw [hreq.addr, hbase, Datapath.memImm_store hop]
    rfl
  refine ⟨?_, haddr, ?_⟩
  · rw [hreq.en, Datapath.any_store hop ho]
  · intro hal
    rcases Datapath.store_agrees _ (ρ (rs2Addr (IdStage.idInst s.ds))) _ ho hal with
      ⟨hstrobes, hlanes⟩
    rw [hreq.wen, hreq.wdata, Datapath.wen_store hop, Datapath.wdata_store hop, haddr, hdata]
    exact ⟨hstrobes, hlanes⟩

/-- `FLW` presents all four strobes. -/
theorem flw_requested (h : Accepted cfg s i r p)
    (hflw : instFlw (IdStage.idInst s.ds) = true) :
    ¬ MemRequest.Requests (IdStage.idInst s.ds) ρ φ r p (some .load) := by
  rintro ⟨-, -, hwen⟩
  rw [h.requested.wen, MemRequest.wen_flw hflw] at hwen
  cases hwen

/-- `FSW` stores a word, at a base and of a value that come from the wrong files. -/
theorem fsw_requested_iff (h : Accepted cfg s i r p)
    (hfsw : instFsw (IdStage.idInst s.ds) = true) :
    MemRequest.Requests (IdStage.idInst s.ds) ρ φ r p (some (.store .sw true)) ↔
      fswBase cfg s i = ρ (rs1Addr (IdStage.idInst s.ds)) ∧
        ((ρ (rs1Addr (IdStage.idInst s.ds)) + immSExt (IdStage.idInst s.ds)).toNat % 4 = 0 →
          fswData cfg s i = φ (rs2Addr (IdStage.idInst s.ds))) := by
  have hreq := h.requested
  have hmem : isMemInst (IdStage.idInst s.ds) = true := by simp [isMemInst, hfsw]
  rcases MemRequest.fsw_decoded hfsw with ⟨hany, himm, hwen, hwdata⟩
  have haddr : ExeStage.dmemAddr r = fswBase cfg s i + immSExt (IdStage.idInst s.ds) := by
    have hbase := h.src1Base_eq hmem
    rw [hfsw, Bool.or_true, if_pos rfl] at hbase
    calc ExeStage.dmemAddr r
        = ExeStage.src1Base r + memImm (IdStage.idInst s.ds) := hreq.addr
      _ = fswBase cfg s i + immSExt (IdStage.idInst s.ds) := by rw [hbase, himm, fswBase]
  have hlanes : strobeWord (ExeStage.dmemWen r p) 0#32 (ExeStage.dmemWdata r) = fswData cfg s i := by
    rw [hreq.wen, hreq.wdata, hwen, hwdata, h.src2Base_eq hmem]
    exact strobeWord_full 0#32 (fswData cfg s i)
  constructor
  · rintro ⟨-, ha, hd⟩
    refine ⟨?_, ?_⟩
    · rw [haddr] at ha
      exact (BitVec.add_left_inj _).mp ha
    · intro hal
      rw [← hlanes]
      exact (hd hal).2
  · rintro ⟨hbase, hd⟩
    refine ⟨?_, ?_, ?_⟩
    · rw [hreq.en, hany]
    · rw [haddr, hbase]
      rfl
    · intro hal
      rw [hlanes, hd hal, hreq.wen, hwen]
      exact ⟨rfl, rfl⟩

theorem none_requested (h : Accepted cfg s i r p)
    (hany : (memOp (IdStage.idInst s.ds)).any = false) :
    MemRequest.Requests (IdStage.idInst s.ds) ρ φ r p none := by
  have hreq := h.requested
  refine ⟨?_, ?_⟩
  · rw [hreq.en, hany]
  · rw [hreq.wen]
    simp only [MemOp.any, Bool.or_eq_false_iff] at hany
    simp [Datapath.wen, hany]

end Accepted

theorem int_of_opcode {x : Word} (hop : opcode x = 0b0000011#7 ∨ opcode x = 0b0100011#7) :
    instFlw x = false ∧ instFsw x = false := by
  rcases hop with hop | hop <;> simp [instFlw, instFsw, isFload, isFstore, hop]

/-- Execute requests the access of the word that decode passed on if and only if the word is no
`FLW` and, where it is `FSW`, the words from the wrong files happen to be those of the right ones. -/
theorem request_asIsa_iff (h : Accepted cfg s i r p) (hA : Ahead cfg s i ρ rdata)
    (φ : BitVec 5 → Word) :
    MemRequest.AsIsa (IdStage.idInst s.ds) ρ φ r p ↔
      instFlw (IdStage.idInst s.ds) = false ∧
        (instFsw (IdStage.idInst s.ds) = true →
          fswBase cfg s i = ρ (rs1Addr (IdStage.idInst s.ds)) ∧
            ((ρ (rs1Addr (IdStage.idInst s.ds)) + immSExt (IdStage.idInst s.ds)).toNat % 4 = 0 →
              fswData cfg s i = φ (rs2Addr (IdStage.idInst s.ds)))) := by
  have hkind := MemRequest.kind_accessOf (IdStage.idInst s.ds)
  rw [MemRequest.AsIsa]
  generalize Isa.accessOf (IdStage.idInst s.ds) = access at hkind ⊢
  cases hkind with
  | load o hop ho =>
      rcases int_of_opcode (Or.inl hop) with ⟨hflw, hfsw⟩
      simp [h.load_requested hA hop ho, hflw, hfsw]
  | store o hop ho =>
      rcases int_of_opcode (Or.inr hop) with ⟨hflw, hfsw⟩
      simp [h.store_requested hA hop ho, hflw, hfsw]
  | flw hflw => simp [h.flw_requested hflw, hflw]
  | fsw hfsw =>
      have hflw : instFlw (IdStage.idInst s.ds) = false := by
        rcases MemRequest.opcode_of_instFsw hfsw with ⟨hop, -⟩
        simp [instFlw, isFload, hop]
      simp [h.fsw_requested_iff hfsw, hflw, hfsw]
  | none hany =>
      have hno : instFlw (IdStage.idInst s.ds) = false ∧ instFsw (IdStage.idInst s.ds) = false := by
        simp only [MemOp.any, memOp, Bool.or_eq_false_iff] at hany
        exact ⟨hany.1.1.2.1.2, hany.1.1.2.2⟩
      simp [h.none_requested hany, hno]

/-! ## Two words -/

/-- A core with the word `x` in decode and nothing ahead of it. -/
def holding (x : Word) : Cpu :=
  { zero with
    ds :=
      { IdStage.reset with
        buf :=
          { SkidBuffer.reset IdStage.resetPayload with
            valid := true
            main := ⟨⟨x, 0x8000_0000#32, false, 0#32⟩, ⟨0#7, 0#32⟩⟩ } }
    regfile := fun n => n.setWidth 32 <<< 4
    regFpu := fun n => n.setWidth 32 <<< 8 }

def quietIn : CpuIn := { imemRdata := 0#32, dmemRdata := 0#32, plicIrq := false }

/-- Execute one cycle later, and what reaches it there. -/
def takenOver (x : Word) : ExeStage.Regs := (next plainBuild (holding x) quietIn).es

def takenPorts (x : Word) : ExeStage.Ports :=
  exePorts plainBuild (next plainBuild (holding x) quietIn) quietIn

theorem accepted_holding (x : Word)
    (hflush : ExeStage.esFlush (takenOver x) (takenPorts x) = false) :
    Accepted plainBuild (holding x) quietIn (takenOver x) (takenPorts x) :=
  { fire := rfl, payload := rfl, valid := rfl, unflushed := hflush }

theorem ahead_holding (x : Word) :
    Ahead plainBuild (holding x) quietIn (regView (holding x) quietIn) 0#32 := by
  refine { zero := rfl, written := ?_, loaded := ?_, other := ?_ }
  · intro h
    cases h
  · intro h
    cases h
  · intro n _ _
    rfl

/-- `sw x2, 4(x1)`. -/
theorem request_asIsa_iff_sw :
    MemRequest.AsIsa 0x0020a223#32 (regView (holding 0x0020a223#32) quietIn)
      (holding 0x0020a223#32).regFpu (takenOver 0x0020a223#32) (takenPorts 0x0020a223#32) :=
  (request_asIsa_iff (accepted_holding 0x0020a223#32 (by decide +kernel))
    (ahead_holding 0x0020a223#32) _).mpr ⟨by decide, fun h => absurd h (by decide)⟩

/-- `flw f1, 0(x1)` drives the strobes of a store. -/
theorem flw_not_asIsa :
    ExeStage.dmemWen (takenOver 0x0000a087#32) (takenPorts 0x0000a087#32) = 0b1111#4 ∧
    ¬ ∀ (cfg : Config) (s : Cpu) (i : CpuIn) (ρ φ : BitVec 5 → Word) (rdata : Word)
        (r : ExeStage.Regs) (p : ExeStage.Ports), Accepted cfg s i r p → Ahead cfg s i ρ rdata →
          MemRequest.AsIsa (IdStage.idInst s.ds) ρ φ r p := by
  have hacc := accepted_holding 0x0000a087#32 (by decide +kernel)
  refine ⟨by decide +kernel, ?_⟩
  intro hall
  have h := hall plainBuild (holding 0x0000a087#32) quietIn _ (fun _ => 0#32) 0#32
    (takenOver 0x0000a087#32) (takenPorts 0x0000a087#32) hacc (ahead_holding 0x0000a087#32)
  exact hacc.flw_requested (by decide) h

end Cpu
end RiscvCpu
