import RiscvCpu.Isa.Machine

/-!
# Trace — the sequential interpreter under an answering environment

A machine that is not alone with its memory does not know what a load returns.  `Trace.run` runs the
interpreter on a list of answers, one for each instruction: the word on the data bus when the
instruction has left execute.  An instruction that is no load ignores its answer.  `Memory.run` is the
trace in front of a memory that answers each request from what the requests before have left there, and
in front of the flat memory it is the run of the machine on that memory.
-/

namespace RiscvCpu
namespace Isa

/-- The state in which every load reads `word`. -/
def State.reading (σ : State) (word : Word) : State := { σ with mem := fun _ => word }

/-- A run so far: the state, and the register writes and requests that led to it. -/
structure Trace where
  state : State
  writes : List Write
  requests : List Request

namespace Trace

variable (imem : Word → Word)

def init (pc : Word) : Trace := { state := State.init pc fun _ => 0#32, writes := [], requests := [] }

/-- One instruction, answered with `word`. -/
def step (τ : Trace) (word : Word) : Trace :=
  { state := Isa.step imem (τ.state.reading word)
    writes := τ.writes ++ ((τ.state.reading word).write? imem).toList
    requests := τ.requests ++ (τ.state.request? imem).toList }

/-- The instructions from `pc` on, answered with `words`. -/
def run (pc : Word) (words : List Word) : Trace := words.foldl (step imem) (init pc)

theorem run_concat (pc : Word) (words : List Word) (word : Word) :
    run imem pc (words ++ [word]) = (run imem pc words).step imem word := by
  rw [run, List.foldl_append]
  rfl

end Trace

variable {imem : Word → Word}

/-! ## What does not depend on the answer -/

/-- The answer decides the result of a load and nothing else. -/
theorem outcome_reading (σ : State) (word : Word) (i : Instr) :
    (outcome (σ.reading word) i).nextPc = (outcome σ i).nextPc ∧
      (outcome (σ.reading word) i).request = (outcome σ i).request := by
  cases i <;> exact ⟨rfl, rfl⟩

theorem request?_reading (σ : State) (word : Word) :
    (σ.reading word).request? imem = σ.request? imem := by
  simp only [State.request?, State.outcome?]
  show ((decode (imem σ.pc)).map _).bind _ = _
  cases decode (imem σ.pc) with
  | none => rfl
  | some i => exact (outcome_reading σ word i).2

theorem instr_aligned_reading (σ : State) (word : Word) (i : Instr) :
    i.aligned (σ.reading word) ↔ i.aligned σ := by
  cases i <;> exact Iff.rfl

theorem aligned_reading (σ : State) (word : Word) :
    (σ.reading word).Aligned imem ↔ σ.Aligned imem := by
  constructor
  · intro h i hi
    exact (instr_aligned_reading σ word i).mp (h i hi)
  · intro h i hi
    exact (instr_aligned_reading σ word i).mpr (h i hi)

namespace Trace

/-- The registers stay what has been written. -/
theorem step_regs {τ : Trace} (h : τ.state.regs = applyWrites τ.writes) (word : Word) :
    (τ.step imem word).state.regs = applyWrites (τ.step imem word).writes := by
  rw [step, applyWrites_append, ← h]
  simp only [Isa.step]
  cases (τ.state.reading word).write? imem <;> rfl

/-! ## A trace over a flat memory -/

/-- The trace stands where the machine `σ` stands after the writes `ws` and the requests `qs`, up to the
memory. -/
structure At (τ : Trace) (σ : State) (ws : List Write) (qs : List Request) : Prop where
  pc : τ.state.pc = σ.pc
  regs : τ.state.regs = σ.regs
  writes : τ.writes = ws
  requests : τ.requests = qs

section At

variable {τ : Trace} {σ : State} {ws : List Write} {qs : List Request}

theorem reading_of_at (h : At τ σ ws qs) (word : Word) :
    τ.state.reading word = σ.reading word := by
  rw [State.reading, State.reading, h.pc, h.regs]

theorem request?_of_at (h : At τ σ ws qs) : τ.state.request? imem = σ.request? imem := by
  rw [← request?_reading τ.state 0#32, reading_of_at h, request?_reading]

theorem aligned_of_at (h : At τ σ ws qs) (hal : σ.Aligned imem) : τ.state.Aligned imem := by
  rwa [← aligned_reading τ.state 0#32, reading_of_at h, aligned_reading]

end At

/-- The answer that the memory of `σ` gives to its next instruction, if that is a load. -/
def Answers (imem : Word → Word) (σ : State) (word : Word) : Prop :=
  ∀ q, σ.request? imem = some q → q.strobes = 0#4 → word = σ.mem (wordAddr q.addr)

/-- An instruction that is answered from memory has the outcome of the machine on that memory. -/
theorem outcome_answered {σ : State} {word : Word} {i : Instr}
    (h : ∀ q, (outcome σ i).request = some q → q.strobes = 0#4 → word = σ.mem (wordAddr q.addr)) :
    outcome (σ.reading word) i = outcome σ i := by
  cases i with
  | load o rd rs1 imm =>
      have hw := h _ rfl rfl
      show Outcome.mk _ (some (rd, o.extract _ word)) _ = Outcome.mk _ _ _
      rw [hw]
      rfl
  | lui | auipc | jal | jalr | branch | store | opImm | op | fence => rfl

theorem outcome?_answered {σ : State} {word : Word} (h : Answers imem σ word) :
    (σ.reading word).outcome? imem = σ.outcome? imem := by
  simp only [State.outcome?]
  show (decode (imem σ.pc)).map _ = _
  cases hd : decode (imem σ.pc) with
  | none => rfl
  | some i =>
      have hreq : ∀ q, (outcome σ i).request = some q → q.strobes = 0#4 →
          word = σ.mem (wordAddr q.addr) := by
        intro q hq
        apply h q
        simp [State.request?, State.outcome?, hd, hq]
      simp only [Option.map_some, outcome_answered hreq]

theorem at_step {τ : Trace} {σ : State} {ws : List Write} {qs : List Request} {word : Word}
    (h : At τ σ ws qs) (hword : Answers imem σ word) :
    At (τ.step imem word) (Isa.step imem σ) (ws ++ (σ.write? imem).toList)
      (qs ++ (σ.request? imem).toList) := by
  have hstate := reading_of_at h word
  have hout := outcome?_answered hword
  have hwrite : (σ.reading word).write? imem = σ.write? imem := by
    rw [State.write?, hout]
    rfl
  refine { pc := ?_, regs := ?_, writes := ?_, requests := ?_ }
  · show (Isa.step imem (τ.state.reading word)).pc = _
    rw [hstate]
    simp only [Isa.step, hout]
    rfl
  · show (Isa.step imem (τ.state.reading word)).regs = _
    rw [hstate]
    simp only [Isa.step, hwrite]
    rfl
  · show τ.writes ++ ((τ.state.reading word).write? imem).toList = _
    rw [hstate, hwrite, h.writes]
  · show τ.requests ++ (τ.state.request? imem).toList = _
    rw [request?_of_at h, h.requests]

theorem at_init (pc : Word) (mem : DMem) : At (init pc) (State.init pc mem) [] [] :=
  { pc := rfl, regs := rfl, writes := rfl, requests := rfl }

/-- Two traces that stand at one place go on alike if the next load of both reads one word. -/
theorem at_step_trace {τ τ' : Trace} {word word' : Word}
    (h : At τ τ'.state τ'.writes τ'.requests)
    (hword : ∀ q, τ'.state.request? imem = some q → q.strobes = 0#4 → word = word') :
    At (τ.step imem word) (τ'.step imem word').state (τ'.step imem word').writes
      (τ'.step imem word').requests := by
  have hread : At τ (τ'.state.reading word') τ'.writes τ'.requests :=
    { pc := h.pc, regs := h.regs, writes := h.writes, requests := h.requests }
  have hanswers : Answers imem (τ'.state.reading word') word := by
    intro q hq
    rw [request?_reading] at hq
    exact hword q hq
  have hstep := at_step hread hanswers
  rw [request?_reading] at hstep
  exact hstep

end Trace

/-! ## In front of a memory -/

/-- A data memory: what it answers to a load, and what a request leaves of it. -/
structure Memory (M : Type) where
  answer : M → Request → Word
  perform : M → Request → M

/-- One word for each word address. -/
def Memory.flat : Memory DMem :=
  { answer := fun m q => m (wordAddr q.addr)
    perform := fun m q => q.apply m }

namespace Memory

section Run

variable {M : Type} (D : Memory M) (imem : Word → Word)

/-- One instruction, answered by the memory. -/
def step (x : Trace × M) : Trace × M :=
  match x.1.state.request? imem with
  | some q => (x.1.step imem (D.answer x.2 q), D.perform x.2 q)
  | none => (x.1.step imem 0#32, x.2)

/-- The first `n` instructions from `pc` on, and what they leave of the memory. -/
def run (pc : Word) (m : M) : Nat → Trace × M
  | 0 => (Trace.init pc, m)
  | n + 1 => step D imem (run pc m n)

end Run

/-- In front of the flat memory the trace is the run of the machine. -/
theorem flat_run (imem : Word → Word) (pc : Word) (mem : DMem) (n : Nat) :
    Trace.At (flat.run imem pc mem n).1 (Isa.run imem (State.init pc mem) n)
        (Isa.writes imem (State.init pc mem) n) (Isa.requests imem (State.init pc mem) n) ∧
      (flat.run imem pc mem n).2 = (Isa.run imem (State.init pc mem) n).mem := by
  induction n with
  | zero => exact ⟨Trace.at_init pc mem, rfl⟩
  | succ n ih =>
      rcases ih with ⟨hat, hmem⟩
      have hreq := @Trace.request?_of_at imem _ _ _ _ hat
      rw [run, step, Isa.run, Isa.writes, Isa.requests, Isa.step]
      cases hq : (Isa.run imem (State.init pc mem) n).request? imem with
      | none =>
          rw [hq] at hreq
          rw [hreq]
          refine ⟨?_, hmem⟩
          have hanswers : Trace.Answers imem (Isa.run imem (State.init pc mem) n) 0#32 := by
            intro q hsome
            rw [hq] at hsome
            cases hsome
          have hstep := Trace.at_step hat hanswers
          rw [Isa.step, hq] at hstep
          exact hstep
      | some q =>
          rw [hq] at hreq
          rw [hreq, hmem]
          refine ⟨?_, rfl⟩
          have hanswers : Trace.Answers imem (Isa.run imem (State.init pc mem) n)
              (flat.answer (Isa.run imem (State.init pc mem) n).mem q) := by
            intro q' hsome _
            rw [hq] at hsome
            cases hsome
            rfl
          have hstep := Trace.at_step hat hanswers
          rw [Isa.step, hq] at hstep
          exact hstep

end Memory
end Isa
end RiscvCpu
