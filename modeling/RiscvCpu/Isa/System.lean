import RiscvCpu.Isa.Trace
import RiscvCpu.Lib.RegisterFile

/-!
# System — the sequential machine with CSRs, traps and the external interrupt

`Hart` adds to the interpreter the CSR instructions, `ecall`, `ebreak` and `mret`, and an interrupt that
is taken in place of an instruction.  Its environment answers every instruction with the word on the
data bus and the level of the interrupt line.  All thirteen CSRs are plain registers.

An interrupt is taken when the instruction at the pc has already made its data request: the handler
returns to an instruction that makes it again.
-/

namespace RiscvCpu
namespace Isa

/-! ## System instructions -/

/-- What a CSR instruction makes of the old value. -/
inductive CsrUpdate where
  | write
  | set
  | clear
  deriving DecidableEq

inductive CsrSource where
  | reg (rs1 : BitVec 5)
  | imm (z : BitVec 5)
  deriving DecidableEq

inductive SystemInstr where
  | csr (o : CsrUpdate) (rd : BitVec 5) (addr : BitVec 12) (src : CsrSource)
  | ecall
  | ebreak
  | mret
  deriving DecidableEq

namespace SysReg

def MSTATUS : BitVec 12 := 0x300#12
def MIE : BitVec 12 := 0x304#12
def MTVEC : BitVec 12 := 0x305#12
def MEPC : BitVec 12 := 0x341#12
def MCAUSE : BitVec 12 := 0x342#12
def MTVAL : BitVec 12 := 0x343#12

/-- The CSRs of the machine: besides these six, `misa`, `mhartid`, `mip`, `mvendorid`, `marchid`, `mimpid`
and `mscratch`. -/
def all : List (BitVec 12) :=
  [MSTATUS, 0x301#12, MTVEC, MEPC, MCAUSE, 0xF14#12, MIE, 0x344#12, MTVAL, 0xF11#12, 0xF12#12,
    0xF13#12, 0x340#12]

end SysReg

/-- `SYSTEM` with a CSR: `funct3`.  The flag says that the source is the immediate. -/
def csrTable : List (BitVec 3 × (CsrUpdate × Bool)) :=
  [(0b001#3, (.write, false)), (0b010#3, (.set, false)), (0b011#3, (.clear, false)),
    (0b101#3, (.write, true)), (0b110#3, (.set, true)), (0b111#3, (.clear, true))]

def decodeSystem (w : Word) : Option SystemInstr :=
  if w = 0x0000_0073#32 then some .ecall
  else if w = 0x0010_0073#32 then some .ebreak
  else if w = 0x3020_0073#32 then some .mret
  else if opcode w = 0b1110011#7 then
    if SysReg.all.contains (imm12 w) then
      (csrTable.lookup (funct3 w)).map fun o =>
        .csr o.1 (rd w) (imm12 w) (if o.2 then .imm (rs1 w) else .reg (rs1 w))
    else none
  else none

/-! ## CSR accesses -/

/-- The source field of the word: without a bit in it `set` and `clear` do not write. -/
def CsrSource.field : CsrSource → BitVec 5
  | .reg r => r
  | .imm z => z

def CsrSource.value (σ : State) : CsrSource → Word
  | .reg r => σ.read r
  | .imm z => z.setWidth 32

def CsrUpdate.apply (operand old : Word) : CsrUpdate → Word
  | .write => operand
  | .set => old ||| operand
  | .clear => old &&& ~~~operand

def csrAccess (σ : State) (o : CsrUpdate) (addr : BitVec 12) (src : CsrSource) :
    RegisterFile.Access (BitVec 12) Word :=
  { addr := addr
    write := o == .write || src.field != 0#5
    modify := fun old => o.apply (src.value σ) old }

def csrLayout : RegisterFile.Layout (BitVec 12) Word :=
  { implemented := SysReg.all.contains, absent := 0#32 }

/-! ## Traps -/

inductive Cause where
  | ecall
  | ebreak
  | externalInterrupt
  deriving DecidableEq

/-- The value of `mcause`. -/
def Cause.code : Cause → Word
  | .ecall => 11#32
  | .ebreak => 3#32
  | .externalInterrupt => 0x8000_000B#32

/-- `mstatus` with new MPIE and MIE. -/
def withStatus (x : Word) (mpie mie : Bool) : Word :=
  (x &&& ~~~0x88#32) ||| (if mpie then 0x80#32 else 0#32) ||| (if mie then 0x08#32 else 0#32)

/-- On trap entry MPIE takes MIE, and MIE is cleared. -/
def enterStatus (x : Word) : Word := withStatus x (x.getLsbD 3) false

/-- On return MIE takes MPIE, and MPIE is set. -/
def leaveStatus (x : Word) : Word := withStatus x true (x.getLsbD 7)

/-! ## The machine -/

/-- What the environment brings to one instruction. -/
structure Answer where
  word : Word
  irq : Bool

/-- The interpreter with its CSRs.  `trapped` says that a trap has been entered since the last
return. -/
structure Hart where
  trace : Trace
  csr : BitVec 12 → Word
  trapped : Bool

namespace Trace

/-- The pc is moved, and nothing else happens. -/
def jump (τ : Trace) (pc : Word) : Trace := { τ with state := { τ.state with pc := pc } }

/-- The instruction at the pc makes its data request, and nothing else happens. -/
def ask (imem : Word → Word) (τ : Trace) : Trace :=
  { τ with requests := τ.requests ++ (τ.state.request? imem).toList }

/-- An instruction that writes `value` to `rd`. -/
def write (τ : Trace) (rd : BitVec 5) (value : Word) : Trace :=
  let w := Outcome.write τ.state.pc ⟨τ.state.pc + 4#32, some (rd, value), none⟩
  { τ with
    state :=
      { τ.state with
        pc := τ.state.pc + 4#32
        regs := (w.map fun w => w.apply τ.state.regs).getD τ.state.regs }
    writes := τ.writes ++ w.toList }

/-- What a register reads afterwards. -/
theorem write_read (τ : Trace) (rd : BitVec 5) (value : Word) {r : BitVec 5} (hr : r ≠ 0#5) :
    (τ.write rd value).state.read r = if r = rd then value else τ.state.read r := by
  simp only [State.read, if_neg hr, write, Outcome.write]
  by_cases hzero : rd = 0#5
  · subst hzero
    simp [hr]
  · simp only [hzero, if_false, Option.map_some, Option.getD_some, Write.apply, Function.update_apply]

/-- The registers stay what has been written. -/
theorem write_regs {τ : Trace} (h : τ.state.regs = applyWrites τ.writes) (rd : BitVec 5) (value : Word) :
    (τ.write rd value).state.regs = applyWrites (τ.write rd value).writes := by
  simp only [write, applyWrites_append, ← h]
  cases Outcome.write τ.state.pc ⟨τ.state.pc + 4#32, some (rd, value), none⟩ <;> rfl

end Trace

namespace Hart

/-- No CSR has been written, and nothing trapped. -/
def ofTrace (τ : Trace) : Hart := { trace := τ, csr := fun _ => 0#32, trapped := false }

def init (pc : Word) : Hart := ofTrace (Trace.init pc)

/-- The external interrupt is enabled. -/
def enabled (h : Hart) : Bool :=
  (h.csr SysReg.MSTATUS).getLsbD 3 && (h.csr SysReg.MIE).getLsbD 11

/-- Trap entry. -/
def trap (h : Hart) (c : Cause) : Hart :=
  { trace := h.trace.jump (h.csr SysReg.MTVEC)
    csr :=
      Function.update
        (Function.update
          (Function.update (Function.update h.csr SysReg.MEPC h.trace.state.pc) SysReg.MCAUSE c.code)
          SysReg.MTVAL 0#32)
        SysReg.MSTATUS (enterStatus (h.csr SysReg.MSTATUS))
    trapped := true }

/-- Trap return. -/
def ret (h : Hart) : Hart :=
  { trace := h.trace.jump (h.csr SysReg.MEPC &&& ~~~3#32)
    csr := Function.update h.csr SysReg.MSTATUS (leaveStatus (h.csr SysReg.MSTATUS))
    trapped := false }

/-- A CSR instruction. -/
def access (h : Hart) (o : CsrUpdate) (rd : BitVec 5) (addr : BitVec 12) (src : CsrSource) : Hart :=
  { h with
    trace := h.trace.write rd (RegisterFile.read csrLayout h.csr addr)
    csr := RegisterFile.step csrLayout h.csr (csrAccess h.trace.state o addr src) }

section Run

variable (imem : Word → Word)

/-- The cause for which the instruction at the pc is not executed, its own before the interrupt. -/
def cause? (h : Hart) (irq : Bool) : Option Cause :=
  match decodeSystem (imem h.trace.state.pc) with
  | some .ecall => some .ecall
  | some .ebreak => some .ebreak
  | _ => if irq && h.enabled then some .externalInterrupt else none

/-- The instruction at the pc, when there is no such cause. -/
def execute (h : Hart) (word : Word) : Hart :=
  match decodeSystem (imem h.trace.state.pc) with
  | some (.csr o rd addr src) => h.access o rd addr src
  | some .mret => h.ret
  | _ => { h with trace := h.trace.step imem word }

variable {imem} in
/-- Without a CSR written the interrupt is masked. -/
theorem cause?_ofTrace {τ : Trace} (hsys : decodeSystem (imem τ.state.pc) = none) (irq : Bool) :
    (ofTrace τ).cause? imem irq = none := by
  have hoff : (ofTrace τ).enabled = false := by simp [enabled, ofTrace]
  have hpc : decodeSystem (imem (ofTrace τ).trace.state.pc) = none := hsys
  rw [cause?, hpc, hoff, Bool.and_false]
  rfl

/-- One instruction, answered with `a`. -/
def step (h : Hart) (a : Answer) : Hart :=
  match h.cause? imem a.irq with
  | some c => { h with trace := h.trace.ask imem }.trap c
  | none => h.execute imem a.word

variable {imem} in
theorem step_of_cause {h : Hart} {a : Answer} {c : Cause} (hc : h.cause? imem a.irq = some c) :
    h.step imem a = { h with trace := h.trace.ask imem }.trap c := by
  rw [step, hc]

variable {imem} in
theorem step_of_no_cause {h : Hart} {a : Answer} (hc : h.cause? imem a.irq = none) :
    h.step imem a = h.execute imem a.word := by
  rw [step, hc]

/-- The instructions from `pc` on, answered with `as`. -/
def run (pc : Word) (as : List Answer) : Hart := as.foldl (step imem) (init pc)

theorem run_concat (pc : Word) (as : List Answer) (a : Answer) :
    run imem pc (as ++ [a]) = (run imem pc as).step imem a := by
  rw [run, List.foldl_append]
  rfl

/-- What a program has to keep: data accesses and jumps are aligned, also those into a handler, and
`mret` is met only when a trap has been entered since the last one. -/
structure Sound (h : Hart) (irq : Bool) : Prop where
  aligned : h.trace.state.Aligned imem
  vector : (h.cause? imem irq).isSome = true → (h.csr SysReg.MTVEC).toNat % 4 = 0
  returns : decodeSystem (imem h.trace.state.pc) = some .mret → h.trapped = true

instance (h : Hart) (irq : Bool) : Decidable (h.Sound imem irq) :=
  decidable_of_iff
    (h.trace.state.Aligned imem ∧
      ((h.cause? imem irq).isSome = true → (h.csr SysReg.MTVEC).toNat % 4 = 0) ∧
      (decodeSystem (imem h.trace.state.pc) = some .mret → h.trapped = true))
    ⟨fun hs => ⟨hs.1, hs.2.1, hs.2.2⟩, fun hs => ⟨hs.aligned, hs.vector, hs.returns⟩⟩

end Run

end Hart

/-! ## In front of a memory, beside other devices -/

namespace Memory

section Hart

variable {M : Type} (D : Memory M) (serves : Request → Bool) (imem : Word → Word)

/-- One instruction.  A load that the memory serves is answered by the memory, and everything else as the
environment says. -/
def stepHart (x : Hart × M) (a : Answer) : Hart × M :=
  match x.1.trace.state.request? imem with
  | some q =>
      if serves q then
        (x.1.step imem { a with word := if q.strobes = 0#4 then D.answer x.2 q else a.word },
          D.perform x.2 q)
      else (x.1.step imem a, x.2)
  | none => (x.1.step imem a, x.2)

section Step

variable {D serves imem} {h : Hart} {m : M}

theorem stepHart_of_none (hq : h.trace.state.request? imem = none) (a : Answer) :
    stepHart D serves imem (h, m) a = (h.step imem a, m) := by
  simp only [stepHart, hq]

theorem stepHart_of_not_serves {q : Request} (hq : h.trace.state.request? imem = some q)
    (hno : serves q = false) (a : Answer) :
    stepHart D serves imem (h, m) a = (h.step imem a, m) := by
  simp [stepHart, hq, hno]

theorem stepHart_of_serves {q : Request} (hq : h.trace.state.request? imem = some q)
    (hserves : serves q = true) {a : Answer} (hword : q.strobes = 0#4 → a.word = D.answer m q) :
    stepHart D serves imem (h, m) a = (h.step imem a, D.perform m q) := by
  have hsame : (if q.strobes = 0#4 then D.answer m q else a.word) = a.word := by
    split
    · exact (hword ‹_›).symm
    · rfl
  simp only [stepHart, hq, hserves, if_true, hsame]

end Step

/-- The instructions from `pc` on, and what they leave of the memory. -/
def runHart (pc : Word) (m : M) (as : List Answer) : Hart × M :=
  as.foldl (stepHart D serves imem) (Hart.init pc, m)

theorem runHart_concat (pc : Word) (m : M) (as : List Answer) (a : Answer) :
    runHart D serves imem pc m (as ++ [a]) =
      stepHart D serves imem (runHart D serves imem pc m as) a := by
  rw [runHart, List.foldl_append]
  rfl

end Hart

end Memory
end Isa
end RiscvCpu
