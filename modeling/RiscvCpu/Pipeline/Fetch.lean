import RiscvCpu.Lib.Clocked
import RiscvCpu.Rtl.IfStage

/-!
# Fetch — the stream of instructions that `if_stage` delivers

`if_stage` taken alone in front of an instruction memory that answers in one cycle and holds its
output while it is not enabled.  Everything that comes from the rest of the core is free in every
cycle: the ready of decode, both redirects and the predictor updates.

The law of the stream is carried by one history variable, `expectedPc`: where the next accepted
instruction must come from, given the accepted instructions and the redirects so far.
-/

namespace RiscvCpu
namespace Fetch

/-- `if_stage` with the output register of the instruction memory. -/
structure Regs where
  fs : IfStage.Regs
  instOut : Word

section Run

variable (cfg : Config) (imem : Word → Word) (p : Nat → IfStage.Ports)

/-- The ports in cycle `n`, with the memory's output on `inst_in`. -/
def ports (r : Regs) (n : Nat) : IfStage.Ports := { p n with instIn := r.instOut }

/-- One edge of the stage and of the memory behind it. -/
def next (r : Regs) (n : Nat) : Regs :=
  { fs := IfStage.next cfg r.fs (ports p r n)
    instOut :=
      if IfStage.requestFire r.fs (ports p r n) then imem (IfStage.requestPc cfg r.fs)
      else r.instOut }

/-- The stage in cycle `n` after reset from the power-up state `r₀`. -/
def fetchAt (r₀ : IfStage.Regs) (out₀ : Word) : Nat → Regs
  | 0 => { fs := IfStage.reset r₀, instOut := out₀ }
  | n + 1 => next cfg imem p (fetchAt r₀ out₀ n) n

/-! ## The events of a cycle -/

/-- Fetch is redirected in cycle `n`. -/
def redirect (n : Nat) : Bool := IfStage.redirectNow (p n)

/-- Where cycle `n` redirects fetch to: an exception wins over a branch. -/
def redirectTarget (n : Nat) : Word :=
  if (p n).exceptionFlag then (p n).exceptionAddr else (p n).brTarget

/-- Decode accepts the instruction on the bus in cycle `n`. -/
def accepts (r : Regs) (n : Nat) : Bool :=
  IfStage.fsToDsValid r.fs (ports p r n) && (p n).dsAllowin

/-- `fs_to_ds_bus` in cycle `n`. -/
def busAt (r : Regs) (n : Nat) : FsToDsBus := IfStage.fsToDsBus r.fs (ports p r n)

/-- The next pc an instruction was delivered with. -/
def nextPc (b : FsToDsBus) : Word := if b.bpPredTaken then b.bpPredTarget else b.pc + 4#32

variable (r₀ : IfStage.Regs) (out₀ : Word)

/-- The pc from which the next accepted instruction must come. -/
def expectedPc : Nat → Word
  | 0 => cfg.pcStart
  | n + 1 =>
      let r := fetchAt cfg imem p r₀ out₀ n
      if redirect p n then redirectTarget p n
      else if accepts p r n then nextPc (busAt p r n)
      else expectedPc n

end Run

variable {cfg : Config} {imem : Word → Word} {p : Nat → IfStage.Ports}
variable {r₀ : IfStage.Regs} {out₀ : Word}

theorem fetchAt_succ (n : Nat) :
    fetchAt cfg imem p r₀ out₀ (n + 1) = next cfg imem p (fetchAt cfg imem p r₀ out₀ n) n := rfl

@[simp] theorem redirectNow_ports (r : Regs) (n : Nat) :
    IfStage.redirectNow (ports p r n) = redirect p n := rfl

@[simp] theorem dsAllowin_ports (r : Regs) (n : Nat) :
    (ports p r n).dsAllowin = (p n).dsAllowin := rfl

@[simp] theorem exceptionFlag_ports (r : Regs) (n : Nat) :
    (ports p r n).exceptionFlag = (p n).exceptionFlag := rfl

@[simp] theorem brTaken_ports (r : Regs) (n : Nat) : (ports p r n).brTaken = (p n).brTaken := rfl

@[simp] theorem exceptionAddr_ports (r : Regs) (n : Nat) :
    (ports p r n).exceptionAddr = (p n).exceptionAddr := rfl

@[simp] theorem brTarget_ports (r : Regs) (n : Nat) :
    (ports p r n).brTarget = (p n).brTarget := rfl

theorem accepts_eq_responseFire (r : Regs) (n : Nat) :
    accepts p r n = IfStage.responseFire r.fs (ports p r n) := by
  simp only [accepts, IfStage.fsToDsValid, IfStage.responseFire, redirectNow_ports,
    dsAllowin_ports]
  cases r.fs.reqValid <;> cases redirect p n <;> simp

/-- The predicted next pc of the request is the one read off the bus. -/
theorem nextPc_busAt (r : Regs) (n : Nat) :
    nextPc (busAt p r n) = IfStage.predictedNextPc r.fs := by
  by_cases htaken : IfStage.bpPredTaken r.fs = true
  · have hhit : IfStage.bpHit r.fs = true := by
      simp only [IfStage.bpPredTaken, Bool.and_eq_true] at htaken
      exact htaken.1
    simp [nextPc, busAt, IfStage.fsToDsBus, IfStage.predictedNextPc, htaken,
      IfStage.bpPredTarget, hhit]
  · simp [nextPc, busAt, IfStage.fsToDsBus, IfStage.predictedNextPc, htaken]

/-! ## The invariant -/

/-- A response on the bus is the memory's word at the expected pc; without one, the next request
goes to the expected pc. -/
structure Inv (cfg : Config) (imem : Word → Word) (r : Regs) (expected : Word) : Prop where
  active : r.fs.reqValid = true → r.fs.ifActive = true
  response : r.fs.reqValid = true → r.fs.redirectPending = false
  pc : r.fs.reqValid = true → r.fs.reqPc = expected
  inst : r.fs.reqValid = true → r.instOut = imem r.fs.reqPc
  pending : r.fs.redirectPending = true → r.fs.redirectPcR = expected
  start : r.fs.reqValid = false → r.fs.redirectPending = false → expected = cfg.pcStart

theorem inv_reset :
    Inv cfg imem (fetchAt cfg imem p r₀ out₀ 0) (expectedPc cfg imem p r₀ out₀ 0) := by
  constructor <;> simp [fetchAt, IfStage.reset, expectedPc]

/-- What an edge does to the request registers, in the three cases of a cycle. -/
theorem next_of_redirect (cfg : Config) (imem : Word → Word) {r : Regs} {n : Nat} (h : redirect p n = true) :
    (next cfg imem p r n).fs.reqValid = false ∧
    (next cfg imem p r n).fs.redirectPending = true ∧
    (next cfg imem p r n).fs.redirectPcR = redirectTarget p n := by
  have h' := h
  simp only [redirect, IfStage.redirectNow, Bool.or_eq_true] at h'
  cases he : (p n).exceptionFlag with
  | true => simp [next, IfStage.next, h, he, redirectTarget]
  | false =>
      have hb : (p n).brTaken = true := by simpa [he] using h'
      simp [next, IfStage.next, h, he, hb, redirectTarget]

theorem next_of_request (cfg : Config) (imem : Word → Word) {r : Regs} {n : Nat}
    (h : IfStage.requestFire r.fs (ports p r n) = true) :
    (next cfg imem p r n).fs.reqValid = true ∧
    (next cfg imem p r n).fs.ifActive = true ∧
    (next cfg imem p r n).fs.redirectPending = false ∧
    (next cfg imem p r n).fs.reqPc = IfStage.requestPc cfg r.fs ∧
    (next cfg imem p r n).instOut = imem (IfStage.requestPc cfg r.fs) := by
  have hno : redirect p n = false := by
    simp only [IfStage.requestFire, Bool.and_eq_true, redirectNow_ports] at h
    simpa using h.1.2
  have hexc : (p n).exceptionFlag = false ∧ (p n).brTaken = false := by
    simpa [redirect, IfStage.redirectNow] using hno
  refine ⟨?_, rfl, ?_, ?_, ?_⟩
  · simp [next, IfStage.next, hno, h]
  · cases hp : r.fs.redirectPending <;> simp [next, IfStage.next, h, hexc, hp]
  · simp [next, IfStage.next, hno, h]
  · simp [next, h]

theorem next_of_idle (cfg : Config) (imem : Word → Word) {r : Regs} {n : Nat} (hno : redirect p n = false)
    (h : IfStage.requestFire r.fs (ports p r n) = false) (hresp : accepts p r n = false) :
    (next cfg imem p r n).fs.reqValid = r.fs.reqValid ∧
    (next cfg imem p r n).fs.redirectPending = r.fs.redirectPending ∧
    (next cfg imem p r n).fs.redirectPcR = r.fs.redirectPcR ∧
    (next cfg imem p r n).fs.reqPc = r.fs.reqPc ∧
    (next cfg imem p r n).fs.bpQValid = r.fs.bpQValid ∧
    (next cfg imem p r n).fs.bpQEntry = r.fs.bpQEntry ∧
    (next cfg imem p r n).instOut = r.instOut := by
  have hexc : (p n).exceptionFlag = false ∧ (p n).brTaken = false := by
    simpa [redirect, IfStage.redirectNow] using hno
  rw [accepts_eq_responseFire] at hresp
  simp [next, IfStage.next, hno, h, hresp, hexc]

/-- With a live request, the stage asks for the next instruction exactly when it is relieved. -/
theorem requestFire_of_reqValid {r : Regs} {e : Word} (hinv : Inv cfg imem r e) {n : Nat}
    (hv : r.fs.reqValid = true) :
    IfStage.requestFire r.fs (ports p r n) = accepts p r n := by
  rw [accepts_eq_responseFire]
  simp only [IfStage.requestFire, hinv.active hv, hv, Bool.not_true, Bool.false_or,
    Bool.true_and]
  cases hr : IfStage.responseFire r.fs (ports p r n) with
  | false => simp
  | true =>
      simp only [IfStage.responseFire, Bool.and_eq_true] at hr
      simpa using hr.2

theorem not_accepts_of_not_reqValid {r : Regs} {n : Nat} (hv : r.fs.reqValid = false) :
    accepts p r n = false := by
  simp [accepts, IfStage.fsToDsValid, hv]

theorem inv_step {n : Nat}
    (hinv : Inv cfg imem (fetchAt cfg imem p r₀ out₀ n) (expectedPc cfg imem p r₀ out₀ n)) :
    Inv cfg imem (fetchAt cfg imem p r₀ out₀ (n + 1))
      (expectedPc cfg imem p r₀ out₀ (n + 1)) := by
  rw [fetchAt_succ, expectedPc]
  revert hinv
  generalize fetchAt cfg imem p r₀ out₀ n = r
  generalize expectedPc cfg imem p r₀ out₀ n = e
  intro hinv
  cases hred : redirect p n with
  | true =>
      rcases next_of_redirect cfg imem (r := r) hred with ⟨hvalid, hpend, hpc⟩
      constructor <;> simp [hvalid, hpend, hpc]
  | false =>
      cases hreq : IfStage.requestFire r.fs (ports p r n) with
      | true =>
          obtain ⟨hvalid, hactive, hpend, hpc, hinst⟩ :=
            next_of_request cfg imem hreq
          -- the request goes where the history says the next instruction is
          have hexpected :
              IfStage.requestPc cfg r.fs =
                if accepts p r n then nextPc (busAt p r n) else e := by
            cases hv : r.fs.reqValid with
            | true =>
                have hacc : accepts p r n = true := by
                  rw [← requestFire_of_reqValid hinv hv]; exact hreq
                simp [IfStage.requestPc, hinv.response hv, hv, hacc, nextPc_busAt]
            | false =>
                have hacc := not_accepts_of_not_reqValid (p := p) (n := n) hv
                cases hp : r.fs.redirectPending with
                | true => simp [IfStage.requestPc, hp, hacc, hinv.pending hp]
                | false => simp [IfStage.requestPc, hp, hv, hacc, hinv.start hv hp]
          constructor <;> simp [hvalid, hactive, hpend, hpc, hinst, hexpected]
      | false =>
          have hacc : accepts p r n = false := by
            cases hv : r.fs.reqValid with
            | true => rw [← requestFire_of_reqValid hinv hv]; exact hreq
            | false => exact not_accepts_of_not_reqValid hv
          obtain ⟨hvalid, hpend, hpcr, hpc, -, -, hinst⟩ :=
            next_of_idle cfg imem hred hreq hacc
          constructor
          · intro _; rfl
          · simpa [hvalid, hpend] using hinv.response
          · simpa [hvalid, hpc, hacc] using hinv.pc
          · simpa [hvalid, hinst, hpc] using hinv.inst
          · simpa [hpend, hpcr, hacc] using hinv.pending
          · simpa [hvalid, hpend, hacc] using hinv.start

theorem inv_fetchAt (n : Nat) :
    Inv cfg imem (fetchAt cfg imem p r₀ out₀ n) (expectedPc cfg imem p r₀ out₀ n) := by
  induction n with
  | zero => exact inv_reset
  | succ n ih => exact inv_step ih

/-! ## The stream -/

section Stream

variable (cfg imem p r₀ out₀)

/-- Decode accepts an instruction in cycle `n` of the run. -/
def acceptedAt (n : Nat) : Bool := accepts p (fetchAt cfg imem p r₀ out₀ n) n

/-- `fs_to_ds_bus` in cycle `n` of the run. -/
def streamBus (n : Nat) : FsToDsBus := busAt p (fetchAt cfg imem p r₀ out₀ n) n

/-- Neither a redirect nor an acceptance in the cycles from `a` on and before `n`. -/
def QuietBetween (a n : Nat) : Prop :=
  ∀ k, a ≤ k → k < n → redirect p k = false ∧ acceptedAt cfg imem p r₀ out₀ k = false

end Stream

theorem expectedPc_of_quiet {a n : Nat} (h : a ≤ n) (hquiet : QuietBetween cfg imem p r₀ out₀ a n) :
    expectedPc cfg imem p r₀ out₀ n = expectedPc cfg imem p r₀ out₀ a := by
  induction h with
  | refl => rfl
  | step hle ih =>
      rcases hquiet _ hle (Nat.lt_succ_self _) with ⟨hred, hacc⟩
      have hbefore := ih (fun k hak hkn => hquiet k hak (Nat.lt_succ_of_lt hkn))
      have hacc' : accepts p (fetchAt cfg imem p r₀ out₀ _) _ = false := hacc
      simp [expectedPc, hred, hacc', hbefore]

theorem expectedPc_succ_of_redirect {n : Nat} (h : redirect p n = true) :
    expectedPc cfg imem p r₀ out₀ (n + 1) = redirectTarget p n := by
  simp [expectedPc, h]

theorem expectedPc_succ_of_accepted {n : Nat} (h : acceptedAt cfg imem p r₀ out₀ n = true) :
    expectedPc cfg imem p r₀ out₀ (n + 1) = nextPc (streamBus cfg imem p r₀ out₀ n) := by
  have hacc : accepts p (fetchAt cfg imem p r₀ out₀ n) n = true := h
  have hred : redirect p n = false := by
    simp only [accepts, IfStage.fsToDsValid, Bool.and_eq_true, redirectNow_ports] at hacc
    simpa using hacc.1.2
  simp [expectedPc, hred, hacc, streamBus]

/-- An accepted instruction is the memory's word at its pc, and its pc is the expected one. -/
theorem accepted_spec {n : Nat} (h : acceptedAt cfg imem p r₀ out₀ n = true) :
    (streamBus cfg imem p r₀ out₀ n).inst = imem (streamBus cfg imem p r₀ out₀ n).pc ∧
    (streamBus cfg imem p r₀ out₀ n).pc = expectedPc cfg imem p r₀ out₀ n := by
  have hv : (fetchAt cfg imem p r₀ out₀ n).fs.reqValid = true := by
    simp only [acceptedAt, accepts, IfStage.fsToDsValid, Bool.and_eq_true] at h
    exact h.1.1
  have hinv := @inv_fetchAt cfg imem p r₀ out₀ n
  exact ⟨hinv.inst hv, hinv.pc hv⟩

/-- A refused response stays on the bus and holds back the next request. -/
theorem refused_spec {n : Nat}
    (hvalid : IfStage.fsToDsValid (fetchAt cfg imem p r₀ out₀ n).fs
      (ports p (fetchAt cfg imem p r₀ out₀ n) n) = true)
    (hrefused : (p n).dsAllowin = false) :
    streamBus cfg imem p r₀ out₀ (n + 1) = streamBus cfg imem p r₀ out₀ n ∧
    IfStage.requestFire (fetchAt cfg imem p r₀ out₀ n).fs
      (ports p (fetchAt cfg imem p r₀ out₀ n) n) = false ∧
    IfStage.fsToDsValid (fetchAt cfg imem p r₀ out₀ (n + 1)).fs
      (ports p (fetchAt cfg imem p r₀ out₀ (n + 1)) (n + 1)) = !redirect p (n + 1) := by
  simp only [IfStage.fsToDsValid, Bool.and_eq_true, redirectNow_ports] at hvalid
  have hred : redirect p n = false := by simpa using hvalid.2
  have hacc : accepts p (fetchAt cfg imem p r₀ out₀ n) n = false := by
    simp [accepts, hrefused]
  -- a refused response keeps the bus, so no request follows
  have hreq : IfStage.requestFire (fetchAt cfg imem p r₀ out₀ n).fs
      (ports p (fetchAt cfg imem p r₀ out₀ n) n) = false := by
    rw [requestFire_of_reqValid (inv_fetchAt n) hvalid.1]
    exact hacc
  rcases next_of_idle cfg imem hred hreq hacc with ⟨hv, -, -, hpc, hqv, hqe, hinst⟩
  refine ⟨?_, hreq, ?_⟩
  · simp [streamBus, busAt, fetchAt_succ, IfStage.fsToDsBus, IfStage.bpPredTaken,
      IfStage.bpPredTarget, IfStage.bpHit, ports, hpc, hqv, hqe, hinst]
  · simp [IfStage.fsToDsValid, fetchAt_succ, hv, hvalid.1]

/-- The fetch stream has no gap, no duplicate and no mismatch. -/
theorem fetch_stream_exact (cfg : Config) (imem : Word → Word) (p : Nat → IfStage.Ports)
    (r₀ : IfStage.Regs) (out₀ : Word) :
    -- every accepted instruction is the memory's word at its pc
    (∀ n, acceptedAt cfg imem p r₀ out₀ n = true →
      (streamBus cfg imem p r₀ out₀ n).inst = imem (streamBus cfg imem p r₀ out₀ n).pc) ∧
    -- the first one, if nothing redirected fetch before it
    (∀ n, acceptedAt cfg imem p r₀ out₀ n = true → QuietBetween cfg imem p r₀ out₀ 0 n →
      (streamBus cfg imem p r₀ out₀ n).pc = cfg.pcStart) ∧
    -- the first one after a redirect, the last redirect before it being in cycle `c`
    (∀ c n, c < n → acceptedAt cfg imem p r₀ out₀ n = true → redirect p c = true →
      QuietBetween cfg imem p r₀ out₀ (c + 1) n →
      (streamBus cfg imem p r₀ out₀ n).pc = redirectTarget p c) ∧
    -- the one after the one accepted in cycle `m`, without a redirect in between
    (∀ m n, m < n → acceptedAt cfg imem p r₀ out₀ m = true →
      acceptedAt cfg imem p r₀ out₀ n = true → QuietBetween cfg imem p r₀ out₀ (m + 1) n →
      (streamBus cfg imem p r₀ out₀ n).pc = nextPc (streamBus cfg imem p r₀ out₀ m)) ∧
    -- a response that decode refuses, with no redirect in the cycle
    (∀ n, IfStage.fsToDsValid (fetchAt cfg imem p r₀ out₀ n).fs
        (ports p (fetchAt cfg imem p r₀ out₀ n) n) = true → (p n).dsAllowin = false →
      streamBus cfg imem p r₀ out₀ (n + 1) = streamBus cfg imem p r₀ out₀ n ∧
      IfStage.requestFire (fetchAt cfg imem p r₀ out₀ n).fs
        (ports p (fetchAt cfg imem p r₀ out₀ n) n) = false ∧
      IfStage.fsToDsValid (fetchAt cfg imem p r₀ out₀ (n + 1)).fs
        (ports p (fetchAt cfg imem p r₀ out₀ (n + 1)) (n + 1)) = !redirect p (n + 1)) := by
  refine ⟨?_, ?_, ?_, ?_, ?_⟩
  · intro n hacc
    exact (accepted_spec hacc).1
  · intro n hacc hquiet
    rw [(accepted_spec hacc).2, expectedPc_of_quiet (Nat.zero_le n) hquiet]
    rfl
  · intro c n hcn hacc hred hquiet
    rw [(accepted_spec hacc).2, expectedPc_of_quiet hcn hquiet, expectedPc_succ_of_redirect hred]
  · intro m n hmn haccm hacc hquiet
    rw [(accepted_spec hacc).2, expectedPc_of_quiet hmn hquiet,
      expectedPc_succ_of_accepted haccm]
  · intro n hvalid hrefused
    exact refused_spec hvalid hrefused

end Fetch
end RiscvCpu
