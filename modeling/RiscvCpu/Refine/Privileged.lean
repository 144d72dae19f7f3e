import RiscvCpu.Refine.Sequential

/-!
# Privileged — what the core has done by a cycle, with traps and interrupts

The run of the core under any inputs, beside the machine with CSRs, traps and the external interrupt that
is given one answer for each instruction that has reached the memory stage: the word on the data bus and
the level of the interrupt line in that cycle.
-/

namespace RiscvCpu
namespace Cpu

section Run

variable (cfg : Config) (imem : Word → Word) (s₀ : Cpu) (inp : Nat → CpuIn)

/-- A live instruction leaves execute, and the memory stage does not drop it. -/
def executes (t : Nat) : Bool :=
  leaves cfg s₀ inp t && !exceptionFlag (run cfg s₀ inp t) (inp t)

/-- What the environment brought to the instructions that left execute before cycle `t` when they were in
the memory stage. -/
def hartAnswersUpTo : Nat → List Isa.Answer
  | 0 => []
  | t + 1 =>
      hartAnswersUpTo t ++
        (if executes cfg s₀ inp t then
          some ⟨(inp (t + 1)).dmemRdata, (inp (t + 1)).plicIrq⟩ else none).toList

/-- The machine that has read these answers. -/
def hart (t : Nat) : Isa.Hart := Isa.Hart.run imem cfg.pcStart (hartAnswersUpTo cfg s₀ inp t)

/-- In the first `T` cycles the program keeps what it has to keep. -/
def SoundBefore (T : Nat) : Prop :=
  ∀ k, k < T → executes cfg s₀ inp k = true →
    (hart cfg imem s₀ inp k).Sound imem (inp (k + 1)).plicIrq

variable {cfg imem s₀ inp}

instance (T : Nat) : Decidable (SoundBefore cfg imem s₀ inp T) := by
  unfold SoundBefore
  infer_instance

theorem hartAnswersUpTo_executes {t : Nat} (h : executes cfg s₀ inp t = true) :
    hartAnswersUpTo cfg s₀ inp (t + 1) =
      hartAnswersUpTo cfg s₀ inp t ++ [⟨(inp (t + 1)).dmemRdata, (inp (t + 1)).plicIrq⟩] := by
  rw [hartAnswersUpTo, if_pos h]
  rfl

theorem hartAnswersUpTo_stays {t : Nat} (h : executes cfg s₀ inp t = false) :
    hartAnswersUpTo cfg s₀ inp (t + 1) = hartAnswersUpTo cfg s₀ inp t := by
  simp [hartAnswersUpTo, h]

/-- Nothing is executed in the cycle of a trap or a return, and when nothing leaves. -/
theorem executes_eq_false {t : Nat} (h : executes cfg s₀ inp t = false) :
    exceptionFlag (run cfg s₀ inp t) (inp t) = true ∨
      exceptionFlag (run cfg s₀ inp t) (inp t) = false ∧ leaves cfg s₀ inp t = false := by
  cases hflag : exceptionFlag (run cfg s₀ inp t) (inp t) with
  | true => exact Or.inl rfl
  | false =>
      rw [executes, hflag, Bool.not_false, Bool.and_true] at h
      exact Or.inr ⟨rfl, h⟩

theorem tracks_run (hknown : ∀ a, Isa.Known (imem a)) {t : Nat} (henv : EnvBefore cfg imem s₀ inp t)
    (hsound : SoundBefore cfg imem s₀ inp t) :
    Tracks cfg imem (run cfg s₀ inp t) (inp t) (labelsAt cfg s₀ inp t) (hart cfg imem s₀ inp t)
      (writesUpTo cfg s₀ inp t) (requestsUpTo cfg s₀ inp t) := by
  induction t with
  | zero => exact tracks_reset cfg imem s₀ (inp 0)
  | succ t ih =>
      have h := ih (fun k hk => henv k (Nat.lt_succ_of_lt hk)) fun k hk =>
        hsound k (Nat.lt_succ_of_lt hk)
      have henv' := henv t (Nat.lt_succ_self t)
      cases hexec : executes cfg s₀ inp t with
      | true =>
          have hsound' := hsound t (Nat.lt_succ_self t) hexec
          rw [hart, hartAnswersUpTo_executes hexec, Isa.Hart.run_concat]
          simp only [executes, leaves, Bool.and_eq_true, Bool.not_eq_true'] at hexec
          exact h.retire hexec.2 hknown henv' hexec.1.1 hexec.1.2 hsound'
      | false =>
          rw [hart, hartAnswersUpTo_stays hexec]
          rcases executes_eq_false hexec with hflag | ⟨hquiet, hstay⟩
          · exact h.resume henv' hflag
          · exact h.stay hquiet hknown henv' hstay

/-! ## Every instruction that reaches the memory stage is answered -/

theorem dead_of_not_executes {t : Nat} (h : executes cfg s₀ inp t = false) :
    liveMs (run cfg s₀ inp (t + 1)) = false := by
  have hc := control_run cfg s₀ inp t
  rcases executes_eq_false h with hflag | ⟨-, hstay⟩
  · exact not_liveMs_of_flag hc hflag
  · exact next_not_liveMs hc hstay

theorem hartAnswers_rate (t : Nat) : t / 33 ≤ (hartAnswersUpTo cfg s₀ inp t).length :=
  rate_of_arrivals <|
    arrivals_le (fun _ h => ⟨_, hartAnswersUpTo_executes h⟩) (fun _ h => hartAnswersUpTo_stays h)
      (fun _ h => dead_of_not_executes h) t

end Run

/-- The core is the machine with CSRs, traps and the external interrupt, whenever the interrupt line rises
and whatever answers its data port, but for the loads that capture a word of the stack buffer.  For every
sound program of the interpreter's and the system instructions, in both builds: up to every cycle the
requests are those of the machine that has read the same answers (a request that is interrupted is made
again), two cycles later write-back has written what that machine has written, one cycle later the CSR file
holds what its CSRs hold, and in every 33 cycles an instruction is executed or trapped. -/
theorem runs_with_traps (cfg : Config) (imem : Word → Word) (s₀ : Cpu) (inp : Nat → CpuIn)
    (hknown : ∀ a, Isa.Known (imem a)) (t : Nat) (henv : EnvBefore cfg imem s₀ inp t)
    (hsound : SoundBefore cfg imem s₀ inp t) :
    requestsUpTo cfg s₀ inp t = (hart cfg imem s₀ inp t).trace.requests ∧
      writesUpTo cfg s₀ inp (t + 2) = (hart cfg imem s₀ inp t).trace.writes ∧
      (run cfg s₀ inp (t + 1)).csr.file.Holds (hart cfg imem s₀ inp t).csr ∧
      t / 33 ≤ (hartAnswersUpTo cfg s₀ inp t).length := by
  have h := tracks_run hknown henv hsound
  exact ⟨h.requests, writesUpTo_two h, h.file, hartAnswers_rate t⟩

/-- The handler at 0 is `csrrs x3, mcause, x0; mret`.  From `0x80000000` on: `lui x5, 1; srli x5, x5, 1;
csrrs x0, mie, x5; csrrsi x0, mstatus, 8; lw x6, 0(x1); ecall`. -/
def handled (a : Word) : Word :=
  if a = 0x0000_0000#32 then 0x3420_21f3#32
  else if a = 0x0000_0004#32 then 0x3020_0073#32
  else if a = 0x8000_0000#32 then 0x0000_12b7#32
  else if a = 0x8000_0004#32 then 0x0012_d293#32
  else if a = 0x8000_0008#32 then 0x3042_a073#32
  else if a = 0x8000_000c#32 then 0x3004_6073#32
  else if a = 0x8000_0014#32 then 0x0000_0073#32
  else 0x0000_a303#32

theorem handled_known (a : Word) : Isa.Known (handled a) := by
  unfold handled
  repeat refine Isa.known_ite (by decide +kernel) ?_
  decide +kernel

/-- What fetch reads of it in each cycle, when the interrupt line is raised in cycle 9, where the load is in
the memory stage. -/
def handledFetches : List Word :=
  [0#32, 0#32, 0x0000_12b7#32, 0x0012_d293#32, 0x3042_a073#32, 0x3004_6073#32, 0x0000_a303#32,
    0x0000_0073#32, 0x0000_a303#32, 0x0000_a303#32, 0x0000_a303#32, 0x3420_21f3#32, 0x3020_0073#32,
    0x0000_a303#32, 0x0000_a303#32, 0x0000_a303#32, 0x0000_a303#32, 0x0000_a303#32, 0x0000_0073#32,
    0x0000_a303#32, 0x0000_a303#32, 0x0000_a303#32, 0x0000_a303#32, 0x3420_21f3#32, 0x3020_0073#32]

def handledPort (t : Nat) : CpuIn :=
  { imemRdata := handledFetches.getD t 0x0000_a303#32
    dmemRdata := BitVec.ofNat 32 t
    plicIrq := t == 9 }

/-- The load is interrupted in cycle 9, made again behind the handler, and the `ecall` is trapped in
cycle 21. -/
theorem runs_with_traps_handled :
    requestsUpTo plainBuild zero handledPort 26 =
        (hart plainBuild handled zero handledPort 26).trace.requests ∧
      writesUpTo plainBuild zero handledPort 28 =
        (hart plainBuild handled zero handledPort 26).trace.writes ∧
      (run plainBuild zero handledPort 27).csr.file.Holds
        (hart plainBuild handled zero handledPort 26).csr ∧
      26 / 33 ≤ (hartAnswersUpTo plainBuild zero handledPort 26).length := by
  have hfetch : ∀ k, k < 26 → (handledPort (k + 1)).imemRdata =
      if imemEn plainBuild (run plainBuild zero handledPort k) (handledPort k) then
        handled (imemAddr plainBuild (run plainBuild zero handledPort k))
      else (handledPort k).imemRdata := by
    decide +kernel
  have hno : ∀ k, k < 26 → ExeStage.exeStackLwHit (run plainBuild zero handledPort k).es
      (exePorts plainBuild (run plainBuild zero handledPort k) (handledPort k)) = false := by
    decide +kernel
  refine runs_with_traps plainBuild handled zero handledPort handled_known 26 ?_ (by decide +kernel)
  intro k hk
  refine { fetch := hfetch k hk, capture := ?_ }
  intro hcap
  rw [hno k hk] at hcap
  cases hcap

end Cpu
end RiscvCpu
