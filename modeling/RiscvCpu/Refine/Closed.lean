import RiscvCpu.Refine.Sequential
import RiscvCpu.Stack.Lookup

/-!
# Closed — the core between its memories, stack loads included

The system of `TbCpuTop` is one of the environments of `Sequential`: its data memory is flat, and as
long as no entry of the stack value buffer is replaced under a lookup, a captured word is the word that
memory holds.  So every program of the interpreter runs to any number of instructions, and the choice of
the build shows in nothing but the time that it takes.
-/

namespace RiscvCpu
namespace Tb

variable {cfg : Config} {imem : Word → Word} {cpu : Cpu} {dmem : DMem}

/-- No entry is replaced under a lookup in the first `T` cycles. -/
def Undisturbed (cfg : Config) (imem : Word → Word) (cpu : Cpu) (dmem : DMem) (T : Nat) : Prop :=
  ∀ k, k < T → replacedUnderLookup cfg (run cfg imem cpu dmem k) = false

/-- The inputs of the core. -/
def coreIn (cfg : Config) (imem : Word → Word) (cpu : Cpu) (dmem : DMem) (k : Nat) : CpuIn :=
  (run cfg imem cpu dmem k).inputs

theorem run_core (t : Nat) :
    Cpu.run cfg cpu (coreIn cfg imem cpu dmem) t = (run cfg imem cpu dmem t).cpu :=
  run_cpu cfg imem cpu dmem t

theorem requestsUpTo_core (t : Nat) :
    Cpu.requestsUpTo cfg cpu (coreIn cfg imem cpu dmem) t = requestsUpTo cfg imem cpu dmem t := by
  induction t with
  | zero => rfl
  | succ t ih =>
      rw [Cpu.requestsUpTo, ih, run_core]
      rfl

theorem writesUpTo_core (t : Nat) :
    Cpu.writesUpTo cfg cpu (coreIn cfg imem cpu dmem) t = writesUpTo cfg imem cpu dmem t := by
  induction t with
  | zero => rfl
  | succ t ih =>
      rw [Cpu.writesUpTo, ih, run_core]
      rfl

theorem envBefore_core {T : Nat} (hok : Undisturbed cfg imem cpu dmem T) :
    Cpu.EnvBefore cfg imem cpu (coreIn cfg imem cpu dmem) T := by
  intro k hk
  rw [run_core]
  have h : StackInv (run cfg imem cpu dmem k) :=
    stackInv_run cpu dmem fun j hj => hok j (Nat.lt_trans hj hk)
  refine { fetch := rfl, capture := ?_ }
  intro hcap
  rcases Cpu.hit_of_capture h.control ⟨h.mainLooked, h.skidLooked⟩ hcap with ⟨hen, -, hwin, htag⟩
  exact (h.coherent _ hwin htag).trans (@next_dmemRdata cfg imem _ hen).symm

/-- The flat memory serves every request. -/
theorem servedBefore_core (T : Nat) :
    Cpu.ServedBefore Isa.Memory.flat (fun _ => True) cfg cpu (coreIn cfg imem cpu dmem)
      (fun k => (run cfg imem cpu dmem k).dmem) T := by
  have hreq : ∀ k, Cpu.request cfg (Cpu.run cfg cpu (coreIn cfg imem cpu dmem) k)
      (coreIn cfg imem cpu dmem k) =
        Cpu.request cfg (run cfg imem cpu dmem k).cpu (run cfg imem cpu dmem k).inputs := by
    intro k
    rw [run_core]
    rfl
  refine { answered := ?_, performed := ?_, idle := ?_ }
  · intro k _ q hq _ _
    rw [hreq, Cpu.request] at hq
    split at hq
    next hen =>
      cases hq
      exact @next_dmemRdata cfg imem _ hen
    next => cases hq
  · intro k _ q hq _
    rw [hreq, Cpu.request] at hq
    split at hq
    next hen =>
      cases hq
      show (next cfg imem (run cfg imem cpu dmem k)).dmem = _
      simp only [next, hen, if_true]
      exact DMem.write_lanes.symm
    next => cases hq
  · intro k _ hq
    rw [hreq, Cpu.request] at hq
    split at hq
    next => cases hq
    next hen =>
      show (next cfg imem (run cfg imem cpu dmem k)).dmem = _
      simp [next, hen]

/-- The core has run the first `n` instructions in `t` cycles, as far as it shows. -/
structure Shows (cfg : Config) (imem : Word → Word) (cpu : Cpu) (dmem : DMem) (t n : Nat) : Prop where
  requests : requestsUpTo cfg imem cpu dmem t =
    Isa.requests imem (Isa.State.init cfg.pcStart dmem) n
  writes : writesUpTo cfg imem cpu dmem (t + 2) =
    Isa.writes imem (Isa.State.init cfg.pcStart dmem) n
  mem : (run cfg imem cpu dmem t).dmem = (Isa.run imem (Isa.State.init cfg.pcStart dmem) n).mem

theorem shows_answers (hdec : ∀ a, (Isa.decode (imem a)).isSome = true) {t : Nat}
    (hok : Undisturbed cfg imem cpu dmem t)
    (hal : ∀ n, n < t → (Isa.run imem (Isa.State.init cfg.pcStart dmem) n).Aligned imem) :
    Shows cfg imem cpu dmem t (Cpu.answersUpTo cfg cpu (coreIn cfg imem cpu dmem) t).length := by
  have hflat := Isa.Memory.flat_run imem cfg.pcStart dmem
  rcases Cpu.runs_on_memory Isa.Memory.flat (fun _ => True) cfg imem cpu (coreIn cfg imem cpu dmem)
    (fun k => (run cfg imem cpu dmem k).dmem) hdec t (envBefore_core hok) (servedBefore_core t)
    (fun n hn => Isa.Trace.aligned_of_at (hflat n).1 (hal n hn)) (fun _ _ _ _ => trivial) with
    ⟨hreq, hwrites, hmem⟩
  rw [requestsUpTo_core] at hreq
  rw [writesUpTo_core] at hwrites
  exact
    { requests := hreq.trans (hflat _).1.requests
      writes := hwrites.trans (hflat _).1.writes
      mem := hmem.trans (hflat _).2 }

/-- For every program of the interpreter's instructions that runs aligned, stack loads included, in both
builds and from every power-up state: as long as no entry is replaced under a lookup, the core has by
cycle `t` run some `n` instructions of the sequential machine, at least `t / 33`, and shows their
requests, their register writes and their memory. -/
theorem pipeline_runs_interpreter (cfg : Config) (imem : Word → Word) (cpu : Cpu) (dmem : DMem)
    (hdec : ∀ a, (Isa.decode (imem a)).isSome = true) (t : Nat)
    (hok : Undisturbed cfg imem cpu dmem t)
    (hal : ∀ n, n < t → (Isa.run imem (Isa.State.init cfg.pcStart dmem) n).Aligned imem) :
    ∃ n, t / 33 ≤ n ∧ Shows cfg imem cpu dmem t n :=
  ⟨_, Cpu.answers_rate t, shows_answers hdec hok hal⟩

instance (T : Nat) : Decidable (Undisturbed cfg imem cpu dmem T) := by
  unfold Undisturbed
  infer_instance

theorem storeStoreLoad_decodes (a : Word) :
    (Isa.decode (storeStoreLoad 0x0061_2223#32 a)).isSome = true := by
  unfold storeStoreLoad
  split_ifs <;> rfl

/-- `addi x8, x7, 0` is in execute in cycle 10, with the word captured for `lw x7, 0(x2)`. -/
theorem pipeline_runs_interpreter_stack_load :
    ∃ n, 12 / 33 ≤ n ∧
      Shows Cpu.plainBuild (storeStoreLoad 0x0061_2223#32) Cpu.zero (fun _ => 0#32) 12 n :=
  pipeline_runs_interpreter Cpu.plainBuild (storeStoreLoad 0x0061_2223#32) Cpu.zero (fun _ => 0#32)
    storeStoreLoad_decodes 12 (by decide +kernel) (by decide +kernel)

/-- Any two builds, started anywhere, show the same requests and memory for the first `n` instructions, each
after at most 33 cycles an instruction, and two cycles later the same register writes.  The program is the
interpreter's, it runs aligned, and no entry is replaced under a lookup in either build. -/
theorem builds_show_same (cfg cfg' : Config) (hstart : cfg'.pcStart = cfg.pcStart)
    (imem : Word → Word) (cpu cpu' : Cpu) (dmem : DMem)
    (hdec : ∀ a, (Isa.decode (imem a)).isSome = true) (n : Nat)
    (hok : Undisturbed cfg imem cpu dmem (33 * n)) (hok' : Undisturbed cfg' imem cpu' dmem (33 * n))
    (hal : ∀ k, k < 33 * n → (Isa.run imem (Isa.State.init cfg.pcStart dmem) k).Aligned imem) :
    ∃ t t', t ≤ 33 * n ∧ t' ≤ 33 * n ∧
      requestsUpTo cfg imem cpu dmem t = requestsUpTo cfg' imem cpu' dmem t' ∧
      writesUpTo cfg imem cpu dmem (t + 2) = writesUpTo cfg' imem cpu' dmem (t' + 2) ∧
      (run cfg imem cpu dmem t).dmem = (run cfg' imem cpu' dmem t').dmem ∧
      Shows cfg imem cpu dmem t n := by
  rcases Cpu.exists_answers cfg cpu (coreIn cfg imem cpu dmem) n with ⟨t, ht, hn⟩
  rcases Cpu.exists_answers cfg' cpu' (coreIn cfg' imem cpu' dmem) n with ⟨t', ht', hn'⟩
  have h := shows_answers hdec (fun k hk => hok k (Nat.lt_of_lt_of_le hk ht))
    fun k hk => hal k (Nat.lt_of_lt_of_le hk ht)
  have h' := shows_answers (t := t') hdec (fun k hk => hok' k (Nat.lt_of_lt_of_le hk ht'))
    fun k hk => by
      rw [hstart]
      exact hal k (Nat.lt_of_lt_of_le hk ht')
  rw [hn] at h
  rw [hn'] at h'
  refine ⟨t, t', ht, ht', ?_, ?_, ?_, h⟩
  · rw [h.requests, h'.requests, hstart]
  · rw [h.writes, h'.writes, hstart]
  · rw [h.mem, h'.mem, hstart]

theorem builds_show_same_stack_load :
    ∃ t t', t ≤ 33 * 3 ∧ t' ≤ 33 * 3 ∧
      requestsUpTo Cpu.plainBuild (storeStoreLoad 0x0061_2223#32) Cpu.zero (fun _ => 0#32) t =
        requestsUpTo Cpu.liveBuild (storeStoreLoad 0x0061_2223#32) Cpu.zero (fun _ => 0#32) t' ∧
      writesUpTo Cpu.plainBuild (storeStoreLoad 0x0061_2223#32) Cpu.zero (fun _ => 0#32) (t + 2) =
        writesUpTo Cpu.liveBuild (storeStoreLoad 0x0061_2223#32) Cpu.zero (fun _ => 0#32) (t' + 2) ∧
      (run Cpu.plainBuild (storeStoreLoad 0x0061_2223#32) Cpu.zero (fun _ => 0#32) t).dmem =
        (run Cpu.liveBuild (storeStoreLoad 0x0061_2223#32) Cpu.zero (fun _ => 0#32) t').dmem ∧
      Shows Cpu.plainBuild (storeStoreLoad 0x0061_2223#32) Cpu.zero (fun _ => 0#32) t 3 :=
  builds_show_same Cpu.plainBuild Cpu.liveBuild rfl (storeStoreLoad 0x0061_2223#32) Cpu.zero Cpu.zero
    (fun _ => 0#32) storeStoreLoad_decodes 3 (by decide +kernel) (by decide +kernel)
    (by decide +kernel)

end Tb
end RiscvCpu
