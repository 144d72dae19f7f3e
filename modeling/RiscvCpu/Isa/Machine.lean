import RiscvCpu.Isa.Encoding

/-!
# Machine — the sequential interpreter

One instruction at a time: the outcome of an instruction in a state, the step of the machine, its
runs, and the register writes and data-memory requests of a run in order.  A word that is no
instruction stops the machine.
-/

namespace RiscvCpu
namespace Isa

structure State where
  pc : Word
  regs : BitVec 5 → Word
  mem : DMem

/-- `x0` reads as zero. -/
def State.read (σ : State) (r : BitVec 5) : Word := if r = 0#5 then 0#32 else σ.regs r

/-- The state before the first instruction. -/
def State.init (pc : Word) (mem : DMem) : State := { pc := pc, regs := fun _ => 0#32, mem := mem }

/-- A register write, with the pc of the instruction that makes it. -/
structure Write where
  pc : Word
  rd : BitVec 5
  value : Word
  deriving DecidableEq

/-- A data-memory request: the address, the byte strobes, and the strobed lanes of the write data. -/
structure Request where
  addr : Word
  strobes : BitVec 4
  lanes : Word
  deriving DecidableEq

/-- What one instruction does. -/
structure Outcome where
  nextPc : Word
  result : Option (BitVec 5 × Word)
  request : Option Request

def loadRequest (addr : Word) : Request := ⟨addr, 0#4, 0#32⟩

def storeRequest (o : StoreOp) (addr x : Word) : Request := ⟨addr, o.strobes addr, o.lanes addr x⟩

def outcome (σ : State) : Instr → Outcome
  | .lui rd imm => ⟨σ.pc + 4#32, some (rd, imm), none⟩
  | .auipc rd imm => ⟨σ.pc + 4#32, some (rd, σ.pc + imm), none⟩
  | .jal rd imm => ⟨σ.pc + imm, some (rd, σ.pc + 4#32), none⟩
  | .jalr rd rs1 imm => ⟨(σ.read rs1 + imm) &&& ~~~1#32, some (rd, σ.pc + 4#32), none⟩
  | .branch c rs1 rs2 imm =>
      ⟨if c.holds (σ.read rs1) (σ.read rs2) then σ.pc + imm else σ.pc + 4#32, none, none⟩
  | .load o rd rs1 imm =>
      let addr := σ.read rs1 + imm
      ⟨σ.pc + 4#32, some (rd, o.extract addr (σ.mem (wordAddr addr))), some (loadRequest addr)⟩
  | .store o rs1 rs2 imm =>
      ⟨σ.pc + 4#32, none, some (storeRequest o (σ.read rs1 + imm) (σ.read rs2))⟩
  | .opImm o rd rs1 imm => ⟨σ.pc + 4#32, some (rd, o.eval (σ.read rs1) imm), none⟩
  | .op o rd rs1 rs2 => ⟨σ.pc + 4#32, some (rd, o.eval (σ.read rs1) (σ.read rs2)), none⟩
  | .fence => ⟨σ.pc + 4#32, none, none⟩

/-- Writes to `x0` are dropped. -/
def Outcome.write (pc : Word) (e : Outcome) : Option Write :=
  match e.result with
  | some (rd, x) => if rd = 0#5 then none else some ⟨pc, rd, x⟩
  | none => none

def Write.apply (w : Write) (regs : BitVec 5 → Word) : BitVec 5 → Word :=
  Function.update regs w.rd w.value

def Request.apply (q : Request) (mem : DMem) : DMem := mem.write q.addr q.strobes q.lanes

section Run

variable (imem : Word → Word)

/-- The outcome of the instruction at the pc. -/
def State.outcome? (σ : State) : Option Outcome := (decode (imem σ.pc)).map (outcome σ)

/-- The register write and the data request of the instruction at the pc. -/
def State.write? (σ : State) : Option Write := (σ.outcome? imem).bind (Outcome.write σ.pc)

def State.request? (σ : State) : Option Request := (σ.outcome? imem).bind Outcome.request

def step (σ : State) : State :=
  { pc := ((σ.outcome? imem).map Outcome.nextPc).getD σ.pc
    regs := ((σ.write? imem).map fun w => w.apply σ.regs).getD σ.regs
    mem := ((σ.request? imem).map fun q => q.apply σ.mem).getD σ.mem }

variable (σ₀ : State)

/-- The state after `n` instructions. -/
def run : Nat → State
  | 0 => σ₀
  | n + 1 => step imem (run n)

/-- The register writes of the first `n` instructions. -/
def writes : Nat → List Write
  | 0 => []
  | n + 1 => writes n ++ ((run imem σ₀ n).write? imem).toList

/-- The data-memory requests of the first `n` instructions. -/
def requests : Nat → List Request
  | 0 => []
  | n + 1 => requests n ++ ((run imem σ₀ n).request? imem).toList

end Run

/-! ## Alignment -/

/-- The instruction accesses no misaligned data address and takes no jump to a misaligned target. -/
def Instr.aligned (σ : State) : Instr → Prop
  | .load o _ rs1 imm => (σ.read rs1 + imm).toNat % o.size = 0
  | .store o rs1 _ imm => (σ.read rs1 + imm).toNat % o.size = 0
  | .jal _ imm => (σ.pc + imm).toNat % 4 = 0
  | .jalr _ rs1 imm => ((σ.read rs1 + imm) &&& ~~~1#32).toNat % 4 = 0
  | .branch c rs1 rs2 imm =>
      c.holds (σ.read rs1) (σ.read rs2) = true → (σ.pc + imm).toNat % 4 = 0
  | .lui _ _ | .auipc _ _ | .opImm _ _ _ _ | .op _ _ _ _ | .fence => True

/-- The instruction at the pc is aligned. -/
def State.Aligned (imem : Word → Word) (σ : State) : Prop :=
  ∀ i, decode (imem σ.pc) = some i → i.aligned σ

instance (σ : State) (i : Instr) : Decidable (i.aligned σ) :=
  match i with
  | .load o _ rs1 imm => inferInstanceAs (Decidable ((σ.read rs1 + imm).toNat % o.size = 0))
  | .store o rs1 _ imm => inferInstanceAs (Decidable ((σ.read rs1 + imm).toNat % o.size = 0))
  | .jal _ imm => inferInstanceAs (Decidable ((σ.pc + imm).toNat % 4 = 0))
  | .jalr _ rs1 imm =>
      inferInstanceAs (Decidable (((σ.read rs1 + imm) &&& ~~~1#32).toNat % 4 = 0))
  | .branch c rs1 rs2 imm =>
      inferInstanceAs
        (Decidable (c.holds (σ.read rs1) (σ.read rs2) = true → (σ.pc + imm).toNat % 4 = 0))
  | .lui _ _ | .auipc _ _ | .opImm _ _ _ _ | .op _ _ _ _ | .fence => .isTrue trivial

instance (imem : Word → Word) (σ : State) : Decidable (σ.Aligned imem) :=
  match h : decode (imem σ.pc) with
  | some i => decidable_of_iff (i.aligned σ) (by simp [State.Aligned, h])
  | none => .isTrue (by simp [State.Aligned, h])

/-- An aligned instruction at an aligned pc goes on at an aligned pc. -/
theorem nextPc_aligned {σ : State} {ins : Instr} (hpc : σ.pc.toNat % 4 = 0)
    (hal : ins.aligned σ) : (outcome σ ins).nextPc.toNat % 4 = 0 := by
  have hnext : (σ.pc + 4#32).toNat % 4 = 0 := by
    rw [BitVec.toNat_add]
    simp only [BitVec.reduceToNat]
    omega
  cases ins with
  | jal rd imm => exact hal
  | jalr rd rs1 imm => exact hal
  | branch c rs1 rs2 imm =>
      cases hc : c.holds (σ.read rs1) (σ.read rs2) with
      | true => simpa [outcome, hc] using hal hc
      | false => simpa [outcome, hc] using hnext
  | lui _ _ | auipc _ _ | load _ _ _ _ | store _ _ _ _ | opImm _ _ _ _ | op _ _ _ _ | fence =>
      exact hnext

/-! ## One step -/

theorem step_of_decode {imem : Word → Word} {σ : State} {ins : Instr}
    (h : decode (imem σ.pc) = some ins) :
    (step imem σ).pc = (outcome σ ins).nextPc ∧
      σ.write? imem = (outcome σ ins).write σ.pc ∧
      σ.request? imem = (outcome σ ins).request := by
  have hout : σ.outcome? imem = some (outcome σ ins) := by simp [State.outcome?, h]
  refine ⟨?_, ?_, ?_⟩
  · simp [step, hout]
  · simp [State.write?, hout]
  · simp [State.request?, hout]

/-- A register that the step does not write. -/
theorem step_read_other {imem : Word → Word} {σ : State} {r : BitVec 5}
    (h : ∀ w, σ.write? imem = some w → w.rd ≠ r) : (step imem σ).read r = σ.read r := by
  simp only [State.read, step]
  cases hw : σ.write? imem with
  | none => rfl
  | some w =>
      have hne : r ≠ w.rd := fun heq => h w hw heq.symm
      simp [Write.apply, Function.update_of_ne hne]

theorem step_read_same {imem : Word → Word} {σ : State} {w : Write}
    (h : σ.write? imem = some w) (hrd : w.rd ≠ 0#5) : (step imem σ).read w.rd = w.value := by
  simp [State.read, step, h, Write.apply, hrd]

/-! ## Registers are what has been written -/

/-- The registers left by a list of writes, starting from zeros. -/
def applyWrites (ws : List Write) : BitVec 5 → Word :=
  ws.foldl (fun regs w => w.apply regs) fun _ => 0#32

theorem applyWrites_append (ws vs : List Write) :
    applyWrites (ws ++ vs) = vs.foldl (fun regs w => w.apply regs) (applyWrites ws) :=
  List.foldl_append ..

theorem applyWrites_concat (ws : List Write) (w : Write) :
    applyWrites (ws ++ [w]) = w.apply (applyWrites ws) := by
  rw [applyWrites_append]
  rfl

/-- One more register write, if it is enabled and not to `x0`. -/
theorem applyWrites_enabled (ws : List Write) (pc : Word) (wen : Bool) (rd : BitVec 5) (x : Word)
    {r : BitVec 5} (hr : r ≠ 0#5) :
    applyWrites (ws ++ (if wen && (rd != 0#5) then some (Write.mk pc rd x) else none).toList) r =
      if wen && (rd == r) then x else applyWrites ws r := by
  cases wen with
  | false => simp
  | true =>
      by_cases heq : rd = r
      · subst heq
        have hne : (rd != 0#5) = true := by simpa using hr
        simp [hne, applyWrites_concat, Write.apply]
      · have hbeq : (rd == r) = false := by simpa using heq
        cases hz : (rd != 0#5) with
        | false => simp [hbeq]
        | true =>
            have hne : r ≠ rd := fun h => heq h.symm
            simp [hbeq, applyWrites_concat, Write.apply, Function.update_of_ne hne]

theorem regs_eq_applyWrites (imem : Word → Word) (pc : Word) (mem : DMem) (n : Nat) :
    (run imem (State.init pc mem) n).regs = applyWrites (writes imem (State.init pc mem) n) := by
  induction n with
  | zero => rfl
  | succ n ih =>
      rw [run, writes, applyWrites_append, ← ih]
      simp only [step]
      cases (run imem (State.init pc mem) n).write? imem <;> rfl

end Isa
end RiscvCpu
