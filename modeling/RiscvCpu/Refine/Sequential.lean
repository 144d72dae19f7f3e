import RiscvCpu.Progress.Pipeline
import RiscvCpu.Refine.Leaving

/-!
# Sequential — what the core has done by a cycle

The run of the core under any inputs, beside the sequential machine that is given one answer for each
instruction that has left execute.  The register writes and the requests of the core are those of that
machine, none lost, repeated or out of order, and every 33 cycles at least one instruction leaves.
-/

namespace RiscvCpu
namespace Cpu

section Run

variable (cfg : Config) (imem : Word → Word) (s₀ : Cpu) (inp : Nat → CpuIn)

/-- A live instruction leaves execute. -/
def leaves (t : Nat) : Bool :=
  liveEs (run cfg s₀ inp t) && esToMsValid cfg (run cfg s₀ inp t) (inp t)

/-- The words on the data bus when the instructions that left execute before cycle `t` were in the
memory stage. -/
def answersUpTo : Nat → List Word
  | 0 => []
  | t + 1 => answersUpTo t ++ (if leaves cfg s₀ inp t then some (inp (t + 1)).dmemRdata else none).toList

/-- The sequential machine that has read these words. -/
def sequential (t : Nat) : Isa.Trace := Isa.Trace.run imem cfg.pcStart (answersUpTo cfg s₀ inp t)

/-- The register writes of the cycles before `t`. -/
def writesUpTo : Nat → List Isa.Write
  | 0 => []
  | t + 1 => writesUpTo t ++ (wbWrite (run cfg s₀ inp t)).toList

/-- The data requests of the cycles before `t`. -/
def requestsUpTo : Nat → List Isa.Request
  | 0 => []
  | t + 1 => requestsUpTo t ++ (request cfg (run cfg s₀ inp t) (inp t)).toList

/-- What surrounds the core in its first `T` cycles is an environment. -/
def EnvBefore (T : Nat) : Prop :=
  ∀ k, k < T → Env cfg imem (run cfg s₀ inp k) (inp k) (inp (k + 1))

/-- The program runs aligned in the first `T` cycles. -/
def AlignedBefore (T : Nat) : Prop :=
  ∀ k, k < T → (sequential cfg imem s₀ inp k).state.Aligned imem

variable {cfg imem s₀ inp}

theorem answersUpTo_leaves {t : Nat} (h : leaves cfg s₀ inp t = true) :
    answersUpTo cfg s₀ inp (t + 1) = answersUpTo cfg s₀ inp t ++ [(inp (t + 1)).dmemRdata] := by
  rw [answersUpTo, if_pos h]
  rfl

theorem answersUpTo_stays {t : Nat} (h : leaves cfg s₀ inp t = false) :
    answersUpTo cfg s₀ inp (t + 1) = answersUpTo cfg s₀ inp t := by
  simp [answersUpTo, h]

/-- At most one instruction leaves in a cycle. -/
theorem answersUpTo_length_succ (t : Nat) :
    (answersUpTo cfg s₀ inp (t + 1)).length ≤ (answersUpTo cfg s₀ inp t).length + 1 := by
  cases hleaves : leaves cfg s₀ inp t with
  | false =>
      rw [answersUpTo_stays hleaves]
      exact Nat.le_succ _
  | true =>
      rw [answersUpTo_leaves hleaves, List.length_append]
      exact Nat.le_refl _

theorem answersUpTo_length_le (t : Nat) : (answersUpTo cfg s₀ inp t).length ≤ t := by
  induction t with
  | zero => exact Nat.le_refl 0
  | succ t ih => exact Nat.le_trans (answersUpTo_length_succ t) (Nat.succ_le_succ ih)

/-! ## The core follows the machine -/

/-- The core stands where the trace `τ` stands, having shown the register writes `ws` and the requests
`qs`: no CSR is ever written, so nothing is trapped and the interrupt stays masked. -/
structure Follows (cfg : Config) (imem : Word → Word) (s : Cpu) (i : CpuIn) (l : Labels) (τ : Isa.Trace)
    (ws : List Isa.Write) (qs : List Isa.Request) : Prop where
  tracks : Tracks cfg imem s i l (Isa.Hart.ofTrace τ) ws qs
  quiet : exceptionFlag s i = false

namespace Follows

variable {s : Cpu} {i i' : CpuIn} {t : Nat} {l : Labels} {τ : Isa.Trace} {ws : List Isa.Write}
  {qs : List Isa.Request}

theorem stay (h : Follows cfg imem s i l τ ws qs) (hdec : ∀ a, (Isa.decode (imem a)).isSome = true)
    (henv : Env cfg imem s i i') (hstay : (liveEs s && esToMsValid cfg s i) = false) :
    Follows cfg imem (next cfg s i) i' (Labels.next cfg s i t l) τ (ws ++ (wbWrite s).toList)
      (qs ++ (request cfg s i).toList) :=
  { tracks := h.tracks.stay h.quiet (fun a => Or.inl (hdec a)) henv hstay
    quiet := exceptionFlag_of_dead (control_next h.tracks.program.control)
      (next_not_liveMs h.tracks.program.control hstay) }

theorem retire (h : Follows cfg imem s i l τ ws qs) (hdec : ∀ a, (Isa.decode (imem a)).isSome = true)
    (hal : τ.state.Aligned imem) (henv : Env cfg imem s i i') (hlive : liveEs s = true)
    (hmove : esToMsValid cfg s i = true) :
    Follows cfg imem (next cfg s i) i' (Labels.next cfg s i t l) (τ.step imem i'.dmemRdata)
      (ws ++ (wbWrite s).toList) (qs ++ (request cfg s i).toList) := by
  have hknown : ∀ a, Isa.Known (imem a) := fun a => Or.inl (hdec a)
  have hsys := Isa.decodeSystem_of_decode (hdec τ.state.pc)
  have hp := h.tracks.retire_base h.quiet hknown hal hlive hmove hsys
    (Isa.Hart.cause?_ofTrace hsys i'.plicIrq)
  exact
    { tracks := h.tracks.proceed h.quiet hknown henv hp
      quiet := exceptionFlag_of_code hp.code }

end Follows

theorem follows_reset (cfg : Config) (imem : Word → Word) (s₀ : Cpu) (i : CpuIn) :
    Follows cfg imem s₀.reset i Labels.reset (Isa.Trace.init cfg.pcStart) [] [] :=
  { tracks := tracks_reset cfg imem s₀ i
    quiet := exceptionFlag_of_dead (control_reset s₀) rfl }

theorem follows_run (hdec : ∀ a, (Isa.decode (imem a)).isSome = true) {t : Nat}
    (henv : EnvBefore cfg imem s₀ inp t) (hal : AlignedBefore cfg imem s₀ inp t) :
    Follows cfg imem (run cfg s₀ inp t) (inp t) (labelsAt cfg s₀ inp t) (sequential cfg imem s₀ inp t)
      (writesUpTo cfg s₀ inp t) (requestsUpTo cfg s₀ inp t) := by
  induction t with
  | zero => exact follows_reset cfg imem s₀ (inp 0)
  | succ t ih =>
      have h := ih (fun k hk => henv k (Nat.lt_succ_of_lt hk)) fun k hk =>
        hal k (Nat.lt_succ_of_lt hk)
      have henv' := henv t (Nat.lt_succ_self t)
      have hal' := hal t (Nat.lt_succ_self t)
      cases hleaves : leaves cfg s₀ inp t with
      | false =>
          rw [sequential, answersUpTo_stays hleaves]
          exact h.stay hdec henv' hleaves
      | true =>
          rw [sequential, answersUpTo_leaves hleaves, Isa.Trace.run_concat]
          rw [leaves, Bool.and_eq_true] at hleaves
          exact h.retire hdec hal' henv' hleaves.1 hleaves.2

/-- What write-back has done two cycles later is what the machine has done now. -/
theorem writesUpTo_two {t : Nat} {l : Labels} {h : Isa.Hart}
    (ht : Tracks cfg imem (run cfg s₀ inp t) (inp t) l h (writesUpTo cfg s₀ inp t)
      (requestsUpTo cfg s₀ inp t)) :
    writesUpTo cfg s₀ inp (t + 2) = h.trace.writes := by
  have hnext : wbWrite (run cfg s₀ inp (t + 1)) = msWrite (run cfg s₀ inp t) (inp t) :=
    wbWrite_next ht.program.control
  rw [writesUpTo, writesUpTo, hnext]
  exact ht.writes

/-! ## Every instruction that reaches the memory stage has left execute -/

/-- A list that grows in every cycle before which something live comes into the memory stage is as long as
there are arrivals. -/
theorem arrivals_le {α : Type} {as : Nat → List α} {p : Nat → Bool}
    (hgrow : ∀ t, p t = true → ∃ a, as (t + 1) = as t ++ [a])
    (hstay : ∀ t, p t = false → as (t + 1) = as t)
    (hdead : ∀ t, p t = false → liveMs (run cfg s₀ inp (t + 1)) = false) (t : Nat) :
    arrivals cfg s₀ inp t ≤ (as t).length := by
  induction t with
  | zero => exact Nat.zero_le _
  | succ t ih =>
      cases hp : p t with
      | true =>
          rcases hgrow t hp with ⟨a, ha⟩
          rw [arrivals, ha, List.length_append]
          have hone : (if liveMs (run cfg s₀ inp (t + 1)) = true then 1 else 0) ≤ 1 := by
            split <;> decide
          exact Nat.add_le_add ih hone
      | false =>
          rw [arrivals, hstay t hp, hdead t hp]
          exact ih

/-- Such a list gets longer in every 33 cycles. -/
theorem rate_of_arrivals {t n : Nat} (hle : arrivals cfg s₀ inp t ≤ n) : t / 33 ≤ n := by
  have hrate := Clocked.count_of_windows (arrivals_window cfg s₀ inp) 0 (t / 33)
  have hmono := arrivals_mono cfg s₀ inp (show 0 + 33 * (t / 33) ≤ t by omega)
  omega

theorem answers_rate (t : Nat) : t / 33 ≤ (answersUpTo cfg s₀ inp t).length :=
  rate_of_arrivals <|
    arrivals_le (fun _ h => ⟨_, answersUpTo_leaves h⟩) (fun _ h => answersUpTo_stays h)
      (fun t h => next_not_liveMs (control_run cfg s₀ inp t) h) t

/-! ## In front of a memory -/

section Served

variable {M : Type}

/-- In the first `T` cycles the memory `D` serves the requests in `P`: the next cycle brings its answer to
a load, and `m k` is what the requests before cycle `k` have left of it. -/
structure ServedBefore (D : Isa.Memory M) (P : Isa.Request → Prop) (cfg : Config) (s₀ : Cpu)
    (inp : Nat → CpuIn) (m : Nat → M) (T : Nat) : Prop where
  answered : ∀ k, k < T → ∀ q, request cfg (run cfg s₀ inp k) (inp k) = some q → P q →
    q.strobes = 0#4 → (inp (k + 1)).dmemRdata = D.answer (m k) q
  performed : ∀ k, k < T → ∀ q, request cfg (run cfg s₀ inp k) (inp k) = some q → P q →
    m (k + 1) = D.perform (m k) q
  idle : ∀ k, k < T → request cfg (run cfg s₀ inp k) (inp k) = none → m (k + 1) = m k

theorem ServedBefore.mono {D : Isa.Memory M} {P : Isa.Request → Prop} {m : Nat → M} {T U : Nat}
    (h : ServedBefore D P cfg s₀ inp m U) (hle : T ≤ U) : ServedBefore D P cfg s₀ inp m T :=
  { answered := fun k hk => h.answered k (Nat.lt_of_lt_of_le hk hle)
    performed := fun k hk => h.performed k (Nat.lt_of_lt_of_le hk hle)
    idle := fun k hk => h.idle k (Nat.lt_of_lt_of_le hk hle) }

/-- In cycle `t` the sequential machine is where the one in front of `D` is, and so is the memory. -/
structure Stands (D : Isa.Memory M) (cfg : Config) (imem : Word → Word) (s₀ : Cpu)
    (inp : Nat → CpuIn) (m : Nat → M) (t : Nat) (x : Isa.Trace × M) : Prop where
  trace : (sequential cfg imem s₀ inp t).At x.1.state x.1.writes x.1.requests
  memory : m t = x.2

variable {D : Isa.Memory M} {P : Isa.Request → Prop} {m : Nat → M} {t : Nat} {x : Isa.Trace × M}

theorem stands_next (h : Stands D cfg imem s₀ inp m t x)
    (hdec : ∀ a, (Isa.decode (imem a)).isSome = true) (hal : x.1.state.Aligned imem)
    (hin : ∀ q, x.1.state.request? imem = some q → P q)
    (hf : Follows cfg imem (run cfg s₀ inp t) (inp t) (labelsAt cfg s₀ inp t)
      (sequential cfg imem s₀ inp t) (writesUpTo cfg s₀ inp t) (requestsUpTo cfg s₀ inp t))
    (hserved : ServedBefore D P cfg s₀ inp m (t + 1)) :
    Stands D cfg imem s₀ inp m (t + 1) (if leaves cfg s₀ inp t then D.step imem x else x) := by
  have hlt := Nat.lt_succ_self t
  cases hleaves : leaves cfg s₀ inp t with
  | false =>
      have hnone : request cfg (run cfg s₀ inp t) (inp t) = none := hf.tracks.stay_request hleaves
      constructor
      · rw [sequential, answersUpTo_stays hleaves]
        exact h.trace
      · rw [hserved.idle t hlt hnone]
        exact h.memory
  | true =>
      have hparts := hleaves
      rw [leaves, Bool.and_eq_true] at hparts
      -- the request of this cycle is that of the next instruction
      have hreq : request cfg (run cfg s₀ inp t) (inp t) = x.1.state.request? imem := by
        rw [hf.tracks.retire_request hf.quiet (fun a => Or.inl (hdec a))
            (Isa.Trace.aligned_of_at h.trace hal) hparts.1]
        exact Isa.Trace.request?_of_at h.trace
      rw [if_pos rfl, Isa.Memory.step]
      cases hq : x.1.state.request? imem with
      | none =>
          constructor
          · rw [sequential, answersUpTo_leaves hleaves, Isa.Trace.run_concat]
            apply Isa.Trace.at_step_trace h.trace
            intro q hsome
            rw [hq] at hsome
            cases hsome
          · rw [hserved.idle t hlt (hreq.trans hq)]
            exact h.memory
      | some q =>
          constructor
          · rw [sequential, answersUpTo_leaves hleaves, Isa.Trace.run_concat]
            apply Isa.Trace.at_step_trace h.trace
            intro q' hsome hload
            rw [hserved.answered t hlt q' (hreq.trans hsome) (hin q' hsome) hload, h.memory]
            rw [hq] at hsome
            cases hsome
            rfl
          · rw [hserved.performed t hlt q (hreq.trans hq) (hin q hq), h.memory]

/-- The sequential machine is the one in front of `D`, and `D` is where that machine leaves it. -/
theorem stands_run (hdec : ∀ a, (Isa.decode (imem a)).isSome = true)
    (henv : EnvBefore cfg imem s₀ inp t) (hserved : ServedBefore D P cfg s₀ inp m t)
    (hal : ∀ n, n < t → (D.run imem cfg.pcStart (m 0) n).1.state.Aligned imem)
    (hin : ∀ n, n < t → ∀ q, (D.run imem cfg.pcStart (m 0) n).1.state.request? imem = some q → P q) :
    AlignedBefore cfg imem s₀ inp t ∧
      Stands D cfg imem s₀ inp m t
        (D.run imem cfg.pcStart (m 0) (answersUpTo cfg s₀ inp t).length) := by
  induction t with
  | zero =>
      exact ⟨fun k hk => absurd hk (Nat.not_lt_zero k),
        { trace := { pc := rfl, regs := rfl, writes := rfl, requests := rfl }, memory := rfl }⟩
  | succ t ih =>
      rcases ih (fun k hk => henv k (Nat.lt_succ_of_lt hk)) (hserved.mono (Nat.le_succ t))
        (fun n hn => hal n (Nat.lt_succ_of_lt hn)) (fun n hn => hin n (Nat.lt_succ_of_lt hn)) with
        ⟨hbefore, hstands⟩
      have hn : (answersUpTo cfg s₀ inp t).length < t + 1 :=
        Nat.lt_succ_of_le (answersUpTo_length_le t)
      have hf := follows_run hdec (fun k hk => henv k (Nat.lt_succ_of_lt hk)) hbefore
      constructor
      · intro k hk
        rcases Nat.lt_succ_iff_lt_or_eq.mp hk with hlt | rfl
        · exact hbefore k hlt
        · exact Isa.Trace.aligned_of_at hstands.trace (hal _ hn)
      · have hnext := stands_next hstands hdec (hal _ hn) (hin _ hn) hf hserved
        cases hleaves : leaves cfg s₀ inp t with
        | false =>
            rw [hleaves] at hnext
            rw [answersUpTo_stays hleaves]
            exact hnext
        | true =>
            rw [hleaves] at hnext
            rw [answersUpTo_leaves hleaves, List.length_append]
            exact hnext

end Served

/-- Any number of instructions have left execute at some time. -/
theorem exists_answers (cfg : Config) (s₀ : Cpu) (inp : Nat → CpuIn) (n : Nat) :
    ∃ t, t ≤ 33 * n ∧ (answersUpTo cfg s₀ inp t).length = n := by
  have hrate := @answers_rate cfg s₀ inp (33 * n)
  rcases Nat.eq_or_lt_of_le (show n ≤ (answersUpTo cfg s₀ inp (33 * n)).length by omega) with heq | hlt
  · exact ⟨33 * n, Nat.le_refl _, heq.symm⟩
  · rcases Clocked.exists_count (f := fun t => (answersUpTo cfg s₀ inp t).length) rfl
      answersUpTo_length_succ hlt with ⟨m, hm, hcount, -⟩
    exact ⟨m, Nat.le_of_lt hm, hcount⟩

end Run

/-- The core is the sequential machine, whatever answers its data port.  For every program of the
interpreter's instructions that runs aligned, in both builds, and whatever the data bus and the
interrupt line bring: up to every cycle the requests are those of the machine that has read the same
answers, two cycles later write-back has written what that machine has written, and an instruction leaves in
every 33 cycles.  Asked of the environment is only that a word captured from the stack value buffer be
the word with which its load is answered. -/
theorem runs_sequentially (cfg : Config) (imem : Word → Word) (s₀ : Cpu) (inp : Nat → CpuIn)
    (hdec : ∀ a, (Isa.decode (imem a)).isSome = true) (t : Nat)
    (henv : EnvBefore cfg imem s₀ inp t) (hal : AlignedBefore cfg imem s₀ inp t) :
    requestsUpTo cfg s₀ inp t = (sequential cfg imem s₀ inp t).requests ∧
      writesUpTo cfg s₀ inp (t + 2) = (sequential cfg imem s₀ inp t).writes ∧
      t / 33 ≤ (answersUpTo cfg s₀ inp t).length := by
  have h := follows_run hdec henv hal
  exact ⟨h.tracks.requests, writesUpTo_two h.tracks, answers_rate t⟩

/-- `lw x5, 0(x1)` everywhere. -/
def pollPort (_ : Word) : Word := 0x0000_a283#32

/-- A port that shows the number of the cycle, under a raised interrupt line. -/
def cyclePort (t : Nat) : CpuIn :=
  { imemRdata := 0x0000_a283#32, dmemRdata := BitVec.ofNat 32 t, plicIrq := true }

instance (T : Nat) : Decidable (AlignedBefore cfg imem s₀ inp T) := by
  unfold AlignedBefore
  infer_instance

theorem runs_sequentially_poll_port :
    requestsUpTo plainBuild zero cyclePort 12 =
        (sequential plainBuild pollPort zero cyclePort 12).requests ∧
      writesUpTo plainBuild zero cyclePort 14 =
        (sequential plainBuild pollPort zero cyclePort 12).writes ∧
      12 / 33 ≤ (answersUpTo plainBuild zero cyclePort 12).length := by
  have hno : ∀ k, k < 12 → ExeStage.exeStackLwHit (run plainBuild zero cyclePort k).es
      (exePorts plainBuild (run plainBuild zero cyclePort k) (cyclePort k)) = false := by
    decide +kernel
  have hdec : (Isa.decode 0x0000_a283#32).isSome = true := by decide
  refine runs_sequentially plainBuild pollPort zero cyclePort (fun _ => hdec) 12 ?_
    (by decide +kernel)
  intro k hk
  refine { fetch := ?_, capture := ?_ }
  · exact (ite_self _).symm
  · intro hcap
    rw [hno k hk] at hcap
    cases hcap

/-- In front of a memory that serves all that the program asks for, the requests, the register writes and
the memory are those of the instructions that have left execute. -/
theorem runs_on_memory {M : Type} (D : Isa.Memory M) (P : Isa.Request → Prop) (cfg : Config)
    (imem : Word → Word) (s₀ : Cpu) (inp : Nat → CpuIn) (m : Nat → M)
    (hdec : ∀ a, (Isa.decode (imem a)).isSome = true) (t : Nat)
    (henv : EnvBefore cfg imem s₀ inp t) (hserved : ServedBefore D P cfg s₀ inp m t)
    (hal : ∀ n, n < t → (D.run imem cfg.pcStart (m 0) n).1.state.Aligned imem)
    (hin : ∀ n, n < t → ∀ q, (D.run imem cfg.pcStart (m 0) n).1.state.request? imem = some q → P q) :
    let x := D.run imem cfg.pcStart (m 0) (answersUpTo cfg s₀ inp t).length
    requestsUpTo cfg s₀ inp t = x.1.requests ∧ writesUpTo cfg s₀ inp (t + 2) = x.1.writes ∧
      m t = x.2 := by
  rcases stands_run hdec henv hserved hal hin with ⟨hbefore, hstands⟩
  have h := follows_run hdec henv hbefore
  exact ⟨h.tracks.requests.trans hstands.trace.requests,
    (writesUpTo_two h.tracks).trans hstands.trace.writes, hstands.memory⟩

end Cpu
end RiscvCpu
