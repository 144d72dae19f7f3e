import RiscvCpu.Lib.Clocked
import RiscvCpu.Rtl.IfStage

/-!
# Predictor — the split branch target buffer as one table

`if_stage` taken alone, every input free in every cycle.  Training is registered, written a cycle
later to a lookup memory and to its update shadow, and passed on to a lookup of the same cycle.  The
reference is one table of at most one entry an index, updated at once.
-/

namespace RiscvCpu
namespace Predictor

open RiscvCpu.IfStage (bpIndex bpTag)

/-! ## The reference table -/

/-- One entry: the full tag, a counter from 0 to 3, and the target. -/
structure Entry where
  tag : BitVec 23
  counter : Nat
  target : Word

def Table : Type := BitVec 7 → Option Entry

def Table.empty : Table := fun _ => none

/-- The taken bit and the target predicted at `pc`; target 0 on a miss. -/
def Table.lookup (t : Table) (pc : Word) : Bool × Word :=
  match t (bpIndex pc) with
  | some e => if e.tag == bpTag pc then (decide (2 ≤ e.counter), e.target) else (false, 0#32)
  | none => (false, 0#32)

/-- One step of a counter that saturates at 0 and at 3. -/
def countStep (counter : Nat) (taken : Bool) : Nat :=
  if taken then min (counter + 1) 3 else counter - 1

/-- The counter after an update: a step of the one that is there for this tag, or a weak start. -/
def Table.counterAfter (t : Table) (pc : Word) (taken : Bool) : Nat :=
  let start := if taken then 2 else 1
  match t (bpIndex pc) with
  | some e => if e.tag == bpTag pc then countStep e.counter taken else start
  | none => start

def Table.update (t : Table) (pc : Word) (taken : Bool) (target : Word) : Table :=
  Function.update t (bpIndex pc) (some ⟨bpTag pc, t.counterAfter pc taken, target⟩)

@[simp] theorem Table.update_index (t : Table) (pc : Word) (taken : Bool) (target : Word) :
    t.update pc taken target (bpIndex pc) = some ⟨bpTag pc, t.counterAfter pc taken, target⟩ :=
  Function.update_self ..

theorem Table.update_of_ne (t : Table) {pc : Word} {idx : BitVec 7} (h : idx ≠ bpIndex pc)
    (taken : Bool) (target : Word) : t.update pc taken target idx = t idx :=
  Function.update_of_ne h ..

/-- An update that trains the table is on the ports. -/
def trains (p : IfStage.Ports) : Bool := p.bpUpdateValid && !p.bpUpdateIsJalr

/-- The table after the updates presented before cycle `n`. -/
def refTable (p : Nat → IfStage.Ports) : Nat → Table
  | 0 => Table.empty
  | n + 1 =>
      if trains (p n) then
        (refTable p n).update (p n).bpUpdatePc (p n).bpUpdateTaken (p n).bpUpdateTarget
      else refTable p n

/-! ## The stage -/

section
variable (cfg : Config) (r₀ : IfStage.Regs) (p : Nat → IfStage.Ports)

/-- The stage in cycle `n` after reset. -/
def fsRun (n : Nat) : IfStage.Regs := Clocked.run (IfStage.next cfg) (IfStage.reset r₀) p n

/-- The request launched in cycle `q` is the one whose response is on the bus in cycle `n`: no other
has been launched since, and no redirect has dropped it. -/
structure Outstanding (q n : Nat) : Prop where
  launched : IfStage.requestFire (fsRun cfg r₀ p q) (p q) = true
  before : q < n
  last : ∀ k, q < k → k < n → IfStage.requestFire (fsRun cfg r₀ p k) (p k) = false
  kept : ∀ k, q < k → k < n → IfStage.redirectNow (p k) = false

end

/-- A payload as an entry. -/
def entryOf (e : IfStage.BpEntry) : Entry := ⟨e.tag, e.counter.toNat, e.target⟩

/-- A payload memory under its valid bitmap. -/
def tableOf (valid : BitVec 7 → Bool) (mem : BitVec 7 → IfStage.BpEntry) : Table :=
  fun idx => if valid idx then some (entryOf (mem idx)) else none

/-- The registered update applied to a table. -/
def applyPending (r : IfStage.Regs) (t : Table) : Table :=
  if r.bpUpdateValidR then t.update r.bpUpdatePcR r.bpUpdateTakenR r.bpUpdateTargetR else t

/-- The registered result of the last lookup. -/
def queried (r : IfStage.Regs) : Option Entry :=
  if r.bpQValid then some (entryOf r.bpQEntry) else none

/-- Both memories hold the updates but for the registered one, which is the newest. -/
structure Coherent (r : IfStage.Regs) (t : Table) : Prop where
  valid : r.bpValidUpdate = r.bpValidLookup
  payload : ∀ idx, r.bpValidLookup idx = true → r.bpUpdateMem idx = r.bpLookupMem idx
  table : applyPending r (tableOf r.bpValidLookup r.bpLookupMem) = t

/-! ## One edge -/

variable {cfg : Config} {r₀ r : IfStage.Regs} {p : Nat → IfStage.Ports} {t : Table}

theorem bpCounterUpdate_toNat (counter : BitVec 2) (taken : Bool) :
    (IfStage.bpCounterUpdate counter taken).toNat = countStep counter.toNat taken := by
  revert counter taken
  decide

/-- The counter on its way into the memories is the one the reference writes. -/
theorem bpUpdateCounterNext_toNat (h : Coherent r t) :
    (IfStage.bpUpdateCounterNext r).toNat =
      (tableOf r.bpValidLookup r.bpLookupMem).counterAfter r.bpUpdatePcR r.bpUpdateTakenR := by
  have hstart : (if r.bpUpdateTakenR then 0b10#2 else 0b01#2).toNat =
      if r.bpUpdateTakenR then 2 else 1 := by
    cases r.bpUpdateTakenR <;> rfl
  unfold IfStage.bpUpdateCounterNext IfStage.bpUpdateTagMatch IfStage.bpUpdateEntry
    IfStage.bpUpdateIndex Table.counterAfter tableOf
  rw [h.valid]
  cases hv : r.bpValidLookup (bpIndex r.bpUpdatePcR) with
  | false => simpa using hstart
  | true =>
      rw [h.payload _ hv]
      cases htag : (r.bpLookupMem (bpIndex r.bpUpdatePcR)).tag == bpTag r.bpUpdatePcR with
      | true => simp [entryOf, eq_of_beq htag, bpCounterUpdate_toNat]
      | false => simp [entryOf, htag, hstart]

theorem entryOf_next (h : Coherent r t) :
    entryOf (IfStage.bpUpdateEntryNext r) =
      ⟨bpTag r.bpUpdatePcR,
        (tableOf r.bpValidLookup r.bpLookupMem).counterAfter r.bpUpdatePcR r.bpUpdateTakenR,
        r.bpUpdateTargetR⟩ := by
  simp only [entryOf, IfStage.bpUpdateEntryNext, bpUpdateCounterNext_toNat h]

/-- The edge writes the registered update. -/
theorem tableOf_next (h : Coherent r t) :
    tableOf (IfStage.bpWrite r r.bpValidLookup true)
      (IfStage.bpWrite r r.bpLookupMem (IfStage.bpUpdateEntryNext r)) = t := by
  rw [← h.table]
  cases hv : r.bpUpdateValidR with
  | false => simp [applyPending, IfStage.bpWrite, hv]
  | true =>
      funext idx
      by_cases hidx : idx = bpIndex r.bpUpdatePcR
      · subst hidx
        rw [applyPending, if_pos hv, Table.update_index]
        simp [IfStage.bpWrite, IfStage.bpUpdateIndex, hv, tableOf, entryOf_next h]
      · rw [applyPending, if_pos hv, Table.update_of_ne _ hidx]
        simp [IfStage.bpWrite, IfStage.bpUpdateIndex, hv, tableOf, hidx]

theorem coherent_next (h : Coherent r t) (q : IfStage.Ports) :
    Coherent (IfStage.next cfg r q)
      (if trains q then t.update q.bpUpdatePc q.bpUpdateTaken q.bpUpdateTarget else t) := by
  refine ⟨?valid, ?payload, ?table⟩
  case valid => simp only [IfStage.next, h.valid]
  case payload =>
    intro idx hv
    simp only [IfStage.next, IfStage.bpWrite] at hv ⊢
    cases hw : r.bpUpdateValidR with
    | false =>
        simp only [hw, Bool.false_eq_true, if_false] at hv ⊢
        exact h.payload idx hv
    | true =>
        simp only [hw, if_true] at hv ⊢
        by_cases hidx : idx = IfStage.bpUpdateIndex r
        · subst hidx
          simp
        · simp only [Function.update_of_ne hidx] at hv ⊢
          exact h.payload idx hv
  case table =>
    have htable : tableOf (IfStage.next cfg r q).bpValidLookup (IfStage.next cfg r q).bpLookupMem =
        t := tableOf_next h
    rw [applyPending, htable]
    cases htrain : trains q with
    | true =>
        have hparts := htrain
        simp only [trains] at hparts
        simp [IfStage.next, hparts]
    | false =>
        have hparts := htrain
        simp only [trains] at hparts
        simp [IfStage.next, hparts]

/-- A lookup reads the table with the registered update in it. -/
theorem queried_next (h : Coherent r t) {q : IfStage.Ports}
    (hfire : IfStage.requestFire r q = true) :
    queried (IfStage.next cfg r q) = t (bpIndex (IfStage.requestPc cfg r)) := by
  have hcollision : IfStage.bpLookupUpdateCollision cfg r q =
      (r.bpUpdateValidR && (bpIndex r.bpUpdatePcR == bpIndex (IfStage.requestPc cfg r))) := by
    simp [IfStage.bpLookupUpdateCollision, hfire, IfStage.bpUpdateIndex]
  rw [← h.table]
  simp only [queried, IfStage.next, hfire, if_true, hcollision]
  cases hv : r.bpUpdateValidR with
  | false => simp [applyPending, hv, tableOf]
  | true =>
      rw [applyPending, if_pos hv]
      by_cases hidx : bpIndex (IfStage.requestPc cfg r) = bpIndex r.bpUpdatePcR
      · -- the entry is passed on
        rw [hidx, Table.update_index]
        simp [entryOf_next h]
      · have hne : bpIndex r.bpUpdatePcR ≠ bpIndex (IfStage.requestPc cfg r) := fun e => hidx e.symm
        rw [Table.update_of_ne _ hidx]
        simp [hne, tableOf]

/-- Without a request or a redirect the response and its prediction stay. -/
theorem response_next {q : IfStage.Ports} (hfire : IfStage.requestFire r q = false)
    (hno : IfStage.redirectNow q = false) (hv : (IfStage.next cfg r q).reqValid = true) :
    r.reqValid = true ∧ (IfStage.next cfg r q).reqPc = r.reqPc ∧
      queried (IfStage.next cfg r q) = queried r := by
  refine ⟨?_, by simp [IfStage.next, hno, hfire], by simp [queried, IfStage.next, hno, hfire]⟩
  cases hres : IfStage.responseFire r q with
  | true => simp [IfStage.next, hno, hfire, hres] at hv
  | false => simpa [IfStage.next, hno, hfire, hres] using hv

/-- What a response says is the lookup of the entry that was read for it. -/
theorem prediction_eq (hq : queried r = t (bpIndex r.reqPc)) :
    (IfStage.bpPredTaken r, IfStage.bpPredTarget r) = t.lookup r.reqPc := by
  have hmsb : ∀ counter : BitVec 2, counter[1] = decide (2 ≤ counter.toNat) := by decide
  rw [Table.lookup, ← hq]
  unfold IfStage.bpPredTaken IfStage.bpPredTarget IfStage.bpHit queried
  cases hvalid : r.bpQValid with
  | false => rfl
  | true =>
      cases htag : r.bpQEntry.tag == bpTag r.reqPc with
      | true => simp [entryOf, eq_of_beq htag, hmsb]
      | false => simp [entryOf, htag]

/-! ## Runs -/

theorem fsRun_succ (n : Nat) :
    fsRun cfg r₀ p (n + 1) = IfStage.next cfg (fsRun cfg r₀ p n) (p n) := rfl

theorem coherent_run (n : Nat) : Coherent (fsRun cfg r₀ p n) (refTable p n) := by
  induction n with
  | zero =>
      refine ⟨rfl, ?_, rfl⟩
      intro idx h
      cases h
  | succ n ih => exact coherent_next ih (p n)

theorem outstanding_succ {q n : Nat} (h : Outstanding cfg r₀ p q n)
    (hfire : IfStage.requestFire (fsRun cfg r₀ p n) (p n) = false)
    (hno : IfStage.redirectNow (p n) = false) : Outstanding cfg r₀ p q (n + 1) := by
  refine ⟨h.launched, Nat.lt_succ_of_lt h.before, ?_, ?_⟩
  · intro k hqk hk
    rcases Nat.lt_succ_iff_lt_or_eq.mp hk with hlt | rfl
    · exact h.last k hqk hlt
    · exact hfire
  · intro k hqk hk
    rcases Nat.lt_succ_iff_lt_or_eq.mp hk with hlt | rfl
    · exact h.kept k hqk hlt
    · exact hno

theorem outstanding_launched {n : Nat}
    (hfire : IfStage.requestFire (fsRun cfg r₀ p n) (p n) = true) :
    Outstanding cfg r₀ p n (n + 1) := by
  refine ⟨hfire, Nat.lt_succ_self n, ?_, ?_⟩
  · intro k hnk hk
    omega
  · intro k hnk hk
    omega

theorem outstanding_unique {q q' n : Nat} (h : Outstanding cfg r₀ p q n)
    (h' : Outstanding cfg r₀ p q' n) : q = q' := by
  rcases Nat.lt_trichotomy q q' with hlt | heq | hgt
  · have := h.last q' hlt h'.before
    rw [h'.launched] at this
    cases this
  · exact heq
  · have := h'.last q hgt h.before
    rw [h.launched] at this
    cases this

/-- The response in cycle `n`: the request it belongs to, and the entry that was read for it. -/
theorem response_run (n : Nat) (hv : (fsRun cfg r₀ p n).reqValid = true) :
    ∃ q, Outstanding cfg r₀ p q n ∧
      (fsRun cfg r₀ p n).reqPc = IfStage.requestPc cfg (fsRun cfg r₀ p q) ∧
      queried (fsRun cfg r₀ p n) = refTable p q (bpIndex (fsRun cfg r₀ p n).reqPc) := by
  induction n with
  | zero => cases hv
  | succ n ih =>
      have hno : IfStage.redirectNow (p n) = false := by
        cases hr : IfStage.redirectNow (p n) with
        | false => rfl
        | true => simp [fsRun_succ, IfStage.next, hr] at hv
      cases hfire : IfStage.requestFire (fsRun cfg r₀ p n) (p n) with
      | true =>
          have hpc : (fsRun cfg r₀ p (n + 1)).reqPc = IfStage.requestPc cfg (fsRun cfg r₀ p n) := by
            simp [fsRun_succ, IfStage.next, hno, hfire]
          refine ⟨n, outstanding_launched hfire, hpc, ?_⟩
          rw [hpc]
          exact queried_next (coherent_run n) hfire
      | false =>
          rcases response_next hfire hno hv with ⟨hv', hpc, hq⟩
          rcases ih hv' with ⟨q, hout, hreq, hread⟩
          refine ⟨q, outstanding_succ hout hfire hno, hpc.trans hreq, ?_⟩
          rw [fsRun_succ, hq, hpc]
          exact hread

/-- A request that has not been dropped or replaced has its response on the bus. -/
theorem reqValid_of_outstanding {q n : Nat} (h : Outstanding cfg r₀ p q n) :
    (fsRun cfg r₀ p n).reqValid = true := by
  rcases h with ⟨hlaunched, hqn, hlast, hkept⟩
  induction hqn with
  | refl =>
      have hno : IfStage.redirectNow (p q) = false := by
        have hparts := hlaunched
        simp only [IfStage.requestFire, Bool.and_eq_true, Bool.not_eq_true'] at hparts
        exact hparts.1.2
      simp [fsRun_succ, IfStage.next, hno, hlaunched]
  | @step n hqn ih =>
      have hvalid := ih (fun k hqk hk => hlast k hqk (Nat.lt_succ_of_lt hk))
        (fun k hqk hk => hkept k hqk (Nat.lt_succ_of_lt hk))
      have hfire := hlast n hqn (Nat.lt_succ_self n)
      have hno := hkept n hqn (Nat.lt_succ_self n)
      have hactive : (fsRun cfg r₀ p n).ifActive = true := by
        rcases Nat.exists_eq_succ_of_ne_zero (Nat.ne_zero_of_lt hqn) with ⟨m, rfl⟩
        rfl
      -- an accepted response would have launched the next request
      have hres : IfStage.responseFire (fsRun cfg r₀ p n) (p n) = false := by
        simpa [IfStage.requestFire, hactive, hno, hvalid] using hfire
      simp [fsRun_succ, IfStage.next, hno, hfire, hres, hvalid]

/-- An entry that was never written holds its power-up payload in both memories. -/
theorem unwritten_run (n : Nat) (idx : BitVec 7)
    (h : (fsRun cfg r₀ p n).bpValidLookup idx = false) :
    (fsRun cfg r₀ p n).bpLookupMem idx = r₀.bpLookupMem idx ∧
      (fsRun cfg r₀ p n).bpUpdateMem idx = r₀.bpUpdateMem idx := by
  induction n with
  | zero => exact ⟨rfl, rfl⟩
  | succ n ih =>
      simp only [fsRun_succ, IfStage.next, IfStage.bpWrite] at h ⊢
      cases hw : (fsRun cfg r₀ p n).bpUpdateValidR with
      | false =>
          simp only [hw, Bool.false_eq_true, if_false] at h ⊢
          exact ih h
      | true =>
          simp only [hw, if_true] at h ⊢
          by_cases hidx : idx = IfStage.bpUpdateIndex (fsRun cfg r₀ p n)
          · rw [hidx, Function.update_self] at h
            cases h
          · rw [Function.update_of_ne hidx] at h ⊢
            rw [Function.update_of_ne hidx]
            exact ih h

/-- For every sequence of stalls, redirects and updates: the response to the request launched in
cycle `q` is on the bus until it is replaced or dropped, with the prediction of the reference table
after the updates presented before `q`, and every response on the bus is such a one; the two bitmaps
are equal, and so are the two memories, where only an entry that was never written depends on what
the memories held at power-up. -/
theorem split_btb_is_one_table (cfg : Config) (r₀ : IfStage.Regs) (p : Nat → IfStage.Ports) :
    (∀ q n, Outstanding cfg r₀ p q n →
      (fsRun cfg r₀ p n).reqValid = true ∧
      (IfStage.fsToDsBus (fsRun cfg r₀ p n) (p n)).pc =
        IfStage.requestPc cfg (fsRun cfg r₀ p q) ∧
      ((IfStage.fsToDsBus (fsRun cfg r₀ p n) (p n)).bpPredTaken,
        (IfStage.fsToDsBus (fsRun cfg r₀ p n) (p n)).bpPredTarget) =
          (refTable p q).lookup (IfStage.requestPc cfg (fsRun cfg r₀ p q))) ∧
    (∀ n, IfStage.fsToDsValid (fsRun cfg r₀ p n) (p n) = true →
      ∃ q, Outstanding cfg r₀ p q n) ∧
    (∀ n, (fsRun cfg r₀ p n).bpValidUpdate = (fsRun cfg r₀ p n).bpValidLookup ∧
      ∀ idx, (fsRun cfg r₀ p n).bpUpdateMem idx = (fsRun cfg r₀ p n).bpLookupMem idx ∨
        ((fsRun cfg r₀ p n).bpValidLookup idx = false ∧
          (fsRun cfg r₀ p n).bpLookupMem idx = r₀.bpLookupMem idx ∧
          (fsRun cfg r₀ p n).bpUpdateMem idx = r₀.bpUpdateMem idx)) ∧
    (r₀.bpUpdateMem = r₀.bpLookupMem →
      ∀ n, (fsRun cfg r₀ p n).bpUpdateMem = (fsRun cfg r₀ p n).bpLookupMem) := by
  refine ⟨?prediction, ?owner, ?copies, ?same⟩
  case prediction =>
    intro q n hout
    have hvalid := reqValid_of_outstanding hout
    rcases response_run n hvalid with ⟨q', hout', hpc, hread⟩
    have heq := outstanding_unique hout' hout
    subst heq
    refine ⟨hvalid, hpc, ?_⟩
    rw [← hpc]
    exact prediction_eq hread
  case owner =>
    intro n hv
    have hvalid : (fsRun cfg r₀ p n).reqValid = true := by
      simp only [IfStage.fsToDsValid, Bool.and_eq_true] at hv
      exact hv.1
    rcases response_run n hvalid with ⟨q, hout, -, -⟩
    exact ⟨q, hout⟩
  case copies =>
    intro n
    have hcoherent : Coherent (fsRun cfg r₀ p n) (refTable p n) := coherent_run n
    refine ⟨hcoherent.valid, ?_⟩
    intro idx
    cases hv : (fsRun cfg r₀ p n).bpValidLookup idx with
    | true => exact Or.inl (hcoherent.payload idx hv)
    | false => exact Or.inr ⟨rfl, unwritten_run n idx hv⟩
  case same =>
    intro hpower n
    funext idx
    cases hv : (fsRun cfg r₀ p n).bpValidLookup idx with
    | true => exact (coherent_run n).payload idx hv
    | false =>
        rcases unwritten_run n idx hv with ⟨hlookup, hupdate⟩
        rw [hlookup, hupdate, hpower]

end Predictor
end RiscvCpu
