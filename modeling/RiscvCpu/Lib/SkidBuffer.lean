import Mathlib.Data.List.Basic
import RiscvCpu.Lib.Clocked

/-!
# SkidBuffer — a pipeline boundary with a registered ready

The upstream side of the boundary sees `allowin`, a registered copy of the stage's own ready, so it
is told one cycle late that the stage has stopped.  The one beat that may still arrive in that cycle
is kept in a second payload register, the skid entry.

Nothing here depends on what the payload is.  The law of the boundary is a conservation law per
edge, `step_conserves`, from which `run_conserves` follows by induction: what has been handed over,
followed by what the two payload registers hold, is exactly what has been accepted.
-/

namespace RiscvCpu
namespace SkidBuffer

universe u v

/-- The registers of one boundary: `main` feeds the stage, `skid` keeps the late beat. -/
structure Regs (α : Type u) where
  valid : Bool
  allowin : Bool
  skidValid : Bool
  main : α
  skid : α

/-- The wires of one boundary in one cycle.  `drop` empties the skid entry. -/
structure Wires where
  upValid : Bool
  readyGo : Bool
  downAllowin : Bool
  drop : Bool

variable {α : Type u} {β : Type v}

/-- The registers after reset: no beat, and the upstream is told to go ahead. -/
def reset (x : α) : Regs α :=
  { valid := false, allowin := true, skidValid := false, main := x, skid := x }

/-- The stage's own ready, before it is registered. -/
def coreAllowin (r : Regs α) (w : Wires) : Bool :=
  !r.valid || w.readyGo && w.downAllowin

/-- The upstream beat of this cycle is accepted. -/
def inFire (r : Regs α) (w : Wires) : Bool :=
  w.upValid && r.allowin

/-- The valid bit the downstream side sees. -/
def toValid (r : Regs α) (w : Wires) : Bool :=
  r.valid && w.readyGo

/-- The beat in `main` is handed over in this cycle. -/
def outFire (r : Regs α) (w : Wires) : Bool :=
  toValid r w && w.downAllowin

def skidValidNext (r : Regs α) (w : Wires) : Bool :=
  if w.drop then false
  else if coreAllowin r w then false
  else if inFire r w && !r.skidValid then true
  else r.skidValid

/-- What the edge loads into a register that travels with `main`. -/
def nextMain (r : Regs α) (w : Wires) (main skid x : β) : β :=
  if coreAllowin r w then
    if r.skidValid then skid
    else if inFire r w then x
    else main
  else main

/-- What the edge loads into a register that travels with `skid`. -/
def nextSkid (r : Regs α) (w : Wires) (skid x : β) : β :=
  if coreAllowin r w then skid
  else if inFire r w && !r.skidValid then x
  else skid

/-- One rising edge of the boundary with `x` on the upstream payload wires. -/
def next (r : Regs α) (w : Wires) (x : α) : Regs α :=
  { valid :=
      if coreAllowin r w then
        if r.skidValid then true else inFire r w
      else r.valid
    allowin := coreAllowin r w
    skidValid := skidValidNext r w
    main := nextMain r w r.main r.skid x
    skid := nextSkid r w r.skid x }

/-- A full skid entry means the upstream has been told to stop, and it has been told so only while
the stage holds a beat. -/
structure WF (r : Regs α) : Prop where
  stopped : r.skidValid = true → r.allowin = false
  occupied : r.allowin = false → r.valid = true

theorem wf_reset (x : α) : WF (reset x) := by
  constructor <;> simp [reset]

/-! ## The two kinds of edge -/

theorem valid_of_stalled {r : Regs α} {w : Wires} (h : coreAllowin r w = false) :
    r.valid = true := by
  revert h
  cases hv : r.valid <;> simp [coreAllowin, hv]

/-- An edge on which the stage moves: the skid entry goes first, then the upstream beat. -/
theorem next_of_moved {r : Regs α} {w : Wires} (h : coreAllowin r w = true) (x : α) :
    next r w x =
      { valid := r.skidValid || inFire r w
        allowin := true
        skidValid := false
        main := if r.skidValid then r.skid else if inFire r w then x else r.main
        skid := r.skid } := by
  cases hskid : r.skidValid <;>
    simp [next, nextMain, nextSkid, skidValidNext, h, hskid]

/-- An edge on which the stage stands still: only the skid entry may fill or be dropped. -/
theorem next_of_stalled {r : Regs α} {w : Wires} (h : coreAllowin r w = false) (x : α) :
    next r w x =
      { valid := true
        allowin := false
        skidValid := !w.drop && (r.skidValid || inFire r w)
        main := r.main
        skid := if inFire r w && !r.skidValid then x else r.skid } := by
  have hv := valid_of_stalled h
  cases hskid : r.skidValid <;> cases hin : inFire r w <;> cases hdrop : w.drop <;>
    simp [next, nextMain, nextSkid, skidValidNext, h, hskid, hin, hdrop, hv]

/-- Every edge establishes the boundary's invariant. -/
theorem wf_next (r : Regs α) (w : Wires) (x : α) : WF (next r w x) := by
  cases hcore : coreAllowin r w with
  | true =>
      rw [next_of_moved hcore]
      constructor <;> simp
  | false =>
      rw [next_of_stalled hcore]
      constructor <;> simp

/-- A property of what the boundary holds and of what it accepts is a property of what it holds
after the edge. -/
theorem forall_next {P : α → Prop} {r : Regs α} {w : Wires} {x : α}
    (hmain : r.valid = true → P r.main) (hskid : r.skidValid = true → P r.skid)
    (hin : inFire r w = true → P x) :
    ((next r w x).valid = true → P (next r w x).main) ∧
      ((next r w x).skidValid = true → P (next r w x).skid) := by
  cases hcore : coreAllowin r w with
  | true =>
      rw [next_of_moved hcore]
      constructor
      · intro hv
        -- the skid entry moves up, or else what arrives is taken
        cases hs : r.skidValid with
        | true => simpa [hs] using hskid hs
        | false =>
            have hf : inFire r w = true := by simpa [hs] using hv
            simpa [hs, hf] using hin hf
      · intro hv
        cases hv
  | false =>
      rw [next_of_stalled hcore]
      constructor
      · intro _
        exact hmain (valid_of_stalled hcore)
      · intro hv
        cases hs : r.skidValid with
        | true => simpa [hs] using hskid hs
        | false =>
            have hf : inFire r w = true := by
              simp only [hs, Bool.false_or, Bool.and_eq_true] at hv
              exact hv.2
            simpa [hs, hf] using hin hf

/-- A relation between the payload registers and registers that travel with them, if it holds of what
the boundary accepts, holds after the edge. -/
theorem related_next {R : α → β → Prop} {r : Regs α} {w : Wires} {x : α} {main skid y : β}
    (hmain : R r.main main) (hskid : R r.skid skid) (hin : inFire r w = true → R x y) :
    R (next r w x).main (nextMain r w main skid y) ∧
      R (next r w x).skid (nextSkid r w skid y) := by
  simp only [next, nextMain, nextSkid]
  constructor
  · split
    · split
      · exact hskid
      · split
        · exact hin ‹_›
        · exact hmain
    · exact hmain
  · split
    · exact hskid
    · split
      · rename_i h
        exact hin (Bool.and_eq_true_iff.mp h).1
      · exact hskid

/-- A property of both payload registers, whether they are full or not. -/
theorem both_next {P : α → Prop} {r : Regs α} {w : Wires} {x : α} (hmain : P r.main)
    (hskid : P r.skid) (hin : inFire r w = true → P x) :
    P (next r w x).main ∧ P (next r w x).skid :=
  @related_next α Unit (fun b _ => P b) r w x () () () hmain hskid hin

/-! ## Contents and conservation -/

/-- The beats held by the boundary, oldest first. -/
def contents (r : Regs α) : List α :=
  (if r.valid then [r.main] else []) ++ (if r.skidValid then [r.skid] else [])

/-- The beat accepted in this cycle, if any. -/
def accepted (r : Regs α) (w : Wires) (x : α) : List α :=
  if inFire r w then [x] else []

/-- The beat handed over in this cycle, if any. -/
def handed (r : Regs α) (w : Wires) : List α :=
  if outFire r w then [r.main] else []

@[simp] theorem contents_reset (x : α) : contents (reset x) = [] := by
  simp [contents, reset]

theorem coreAllowin_of_outFire {r : Regs α} {w : Wires} (h : outFire r w = true) :
    coreAllowin r w = true := by
  simp only [outFire, toValid, Bool.and_eq_true] at h
  simp [coreAllowin, h.1.2, h.2]

theorem outFire_of_coreAllowin {r : Regs α} {w : Wires}
    (hvalid : r.valid = true) (h : coreAllowin r w = true) : outFire r w = true := by
  simpa [coreAllowin, outFire, toValid, hvalid] using h

theorem handed_of_moved {r : Regs α} {w : Wires} (h : coreAllowin r w = true) :
    handed r w = if r.valid then [r.main] else [] := by
  cases hv : r.valid with
  | false => simp [handed, outFire, toValid, hv]
  | true => simp [handed, outFire_of_coreAllowin hv h]

theorem handed_of_stalled {r : Regs α} {w : Wires} (h : coreAllowin r w = false) :
    handed r w = [] := by
  have hout : outFire r w = false := by
    cases ho : outFire r w with
    | false => rfl
    | true => rw [coreAllowin_of_outFire ho] at h; cases h
  simp [handed, hout]

/-- An edge on which the stage moves loses, repeats and reorders nothing. -/
theorem moved_conserves {r : Regs α} (h : WF r) {w : Wires} (hcore : coreAllowin r w = true)
    (x : α) : contents r ++ accepted r w x = handed r w ++ contents (next r w x) := by
  -- `main` leaves and the skid entry or the new beat takes its place
  rw [next_of_moved hcore, handed_of_moved hcore]
  cases hskid : r.skidValid with
  | true =>
      have hin : inFire r w = false := by simp [inFire, h.stopped hskid]
      simp [contents, accepted, hskid, hin]
  | false => cases hin : inFire r w <;> simp [contents, accepted, hskid, hin]

/-- One edge loses, repeats and reorders nothing, as long as the skid entry is not dropped. -/
theorem step_conserves {r : Regs α} (h : WF r) (w : Wires) (x : α) (hdrop : w.drop = false) :
    contents r ++ accepted r w x = handed r w ++ contents (next r w x) := by
  cases hcore : coreAllowin r w with
  | true => exact moved_conserves h hcore x
  | false =>
      -- only the skid entry can fill
      rw [next_of_stalled hcore, handed_of_stalled hcore]
      cases hskid : r.skidValid with
      | true =>
          have hin : inFire r w = false := by simp [inFire, h.stopped hskid]
          simp [contents, accepted, hskid, hin, valid_of_stalled hcore, hdrop]
      | false =>
          cases hin : inFire r w <;>
            simp [contents, accepted, hskid, hin, valid_of_stalled hcore, hdrop]

/-- Whether or not the skid entry is dropped, an edge repeats and reorders nothing. -/
theorem step_sublist {r : Regs α} (h : WF r) (w : Wires) (x : α) :
    (handed r w ++ contents (next r w x)).Sublist (contents r ++ accepted r w x) := by
  cases hcore : coreAllowin r w with
  | true => rw [moved_conserves h hcore x]
  | false =>
      cases hdrop : w.drop with
      | false => rw [step_conserves h w x hdrop]
      | true =>
          rw [next_of_stalled hcore, handed_of_stalled hcore]
          simp [contents, valid_of_stalled hcore, hdrop]

/-! ## Registers that travel with the payload -/

/-- The boundary with other registers in place of its payload registers. -/
def Regs.carrying (r : Regs α) (main skid : β) : Regs β :=
  { valid := r.valid
    allowin := r.allowin
    skidValid := r.skidValid
    main := main
    skid := skid }

theorem carrying_next (r : Regs α) (w : Wires) (x : α) (main skid y : β) :
    (next r w x).carrying (nextMain r w main skid y) (nextSkid r w skid y) =
      next (r.carrying main skid) w y := rfl

theorem wf_carrying {r : Regs α} (h : WF r) (main skid : β) : WF (r.carrying main skid) :=
  ⟨h.stopped, h.occupied⟩

/-! ## Runs -/

section Run

variable (x₀ : α) (wires : Nat → Wires) (payload : Nat → α)

/-- The boundary's registers in cycle `n` after reset. -/
def regsAt (n : Nat) : Regs α :=
  Clocked.run (fun r (i : Wires × α) => next r i.1 i.2) (reset x₀) (fun k => (wires k, payload k)) n

theorem regsAt_succ (n : Nat) :
    regsAt x₀ wires payload (n + 1) = next (regsAt x₀ wires payload n) (wires n) (payload n) := rfl

/-- The payloads accepted in the cycles before `n`. -/
def acceptedUpTo : Nat → List α
  | 0 => []
  | n + 1 => acceptedUpTo n ++ accepted (regsAt x₀ wires payload n) (wires n) (payload n)

/-- The payloads handed over in the cycles before `n`. -/
def handedUpTo : Nat → List α
  | 0 => []
  | n + 1 => handedUpTo n ++ handed (regsAt x₀ wires payload n) (wires n)

/-- A machine that holds a boundary runs it: its buffer is the boundary driven by the wires and the
payload that the machine computes. -/
theorem regsAt_of_run {S : Type*} {I : Type*} {step : S → I → S} {s : S} {inp : Nat → I} {x₀ : α}
    (buf : S → Regs α) (w : S → I → Wires) (x : S → I → α)
    (hinit : buf s = reset x₀)
    (hstep : ∀ s i, buf (step s i) = next (buf s) (w s i) (x s i)) (n : Nat) :
    buf (Clocked.run step s inp n) =
      regsAt x₀ (fun k => w (Clocked.run step s inp k) (inp k))
        (fun k => x (Clocked.run step s inp k) (inp k)) n := by
  induction n with
  | zero => exact hinit
  | succ n ih => rw [Clocked.run_succ, hstep, regsAt_succ, ih]

theorem wf_regsAt (n : Nat) : WF (regsAt x₀ wires payload n) := by
  induction n with
  | zero => exact wf_reset x₀
  | succ n => exact wf_next _ (wires n) (payload n)

/-- The boundary is a lossless first-in first-out queue over every run. -/
theorem run_conserves (hdrop : ∀ n, (wires n).drop = false) (n : Nat) :
    acceptedUpTo x₀ wires payload n =
      handedUpTo x₀ wires payload n ++ contents (regsAt x₀ wires payload n) := by
  induction n with
  | zero => simp [acceptedUpTo, handedUpTo, regsAt]
  | succ n ih =>
      have hstep := step_conserves (wf_regsAt x₀ wires payload n) (wires n) (payload n) (hdrop n)
      calc
        acceptedUpTo x₀ wires payload (n + 1)
            = handedUpTo x₀ wires payload n ++
                (contents (regsAt x₀ wires payload n) ++
                  accepted (regsAt x₀ wires payload n) (wires n) (payload n)) := by
              rw [acceptedUpTo, ih, List.append_assoc]
        _ = handedUpTo x₀ wires payload n ++
              (handed (regsAt x₀ wires payload n) (wires n) ++
                contents (regsAt x₀ wires payload (n + 1))) := by
              rw [hstep, regsAt_succ]
        _ = handedUpTo x₀ wires payload (n + 1) ++ contents (regsAt x₀ wires payload (n + 1)) := by
              rw [handedUpTo, List.append_assoc]

/-! ### A boundary inside a machine -/

/-- The payloads accepted in the cycles before `n` by a boundary whose registers are `b`. -/
def acceptedBy (b : Nat → Regs α) (wires : Nat → Wires) (payload : Nat → α) : Nat → List α
  | 0 => []
  | n + 1 => acceptedBy b wires payload n ++ accepted (b n) (wires n) (payload n)

/-- Those it has handed over. -/
def handedBy (b : Nat → Regs α) (wires : Nat → Wires) : Nat → List α
  | 0 => []
  | n + 1 => handedBy b wires n ++ handed (b n) (wires n)

variable {x₀ wires payload} {b : Nat → Regs α}

theorem acceptedBy_eq (hb : ∀ k, b k = regsAt x₀ wires payload k) (n : Nat) :
    acceptedBy b wires payload n = acceptedUpTo x₀ wires payload n := by
  induction n with
  | zero => rfl
  | succ n ih => rw [acceptedBy, ih, hb, acceptedUpTo]

theorem handedBy_eq (hb : ∀ k, b k = regsAt x₀ wires payload k) (n : Nat) :
    handedBy b wires n = handedUpTo x₀ wires payload n := by
  induction n with
  | zero => rfl
  | succ n ih => rw [handedBy, ih, hb, handedUpTo]

/-- It is lossless where the machine runs it as it runs alone. -/
theorem conserves_inside (hb : ∀ k, b k = regsAt x₀ wires payload k)
    (hdrop : ∀ k, (wires k).drop = false) (n : Nat) :
    acceptedBy b wires payload n = handedBy b wires n ++ contents (b n) := by
  rw [acceptedBy_eq hb, handedBy_eq hb, hb, run_conserves x₀ wires payload hdrop]

variable (x₀ wires payload)

/-! ### Order of arrival -/

/-- Some beat has been accepted between two cycles only if it stands behind the earlier ones. -/
theorem acceptedUpTo_mono {m n : Nat} (h : m ≤ n) :
    acceptedUpTo x₀ wires payload m <+: acceptedUpTo x₀ wires payload n := by
  induction h with
  | refl => exact List.prefix_rfl
  | step _ ih => exact ih.trans (List.prefix_append _ _)

/-- Every place in the order of arrival was taken in some cycle. -/
theorem exists_accepted {i n : Nat} (h : i < (acceptedUpTo x₀ wires payload n).length) :
    ∃ m, m < n ∧ inFire (regsAt x₀ wires payload m) (wires m) = true ∧
      (acceptedUpTo x₀ wires payload m).length = i := by
  induction n with
  | zero => simp [acceptedUpTo] at h
  | succ n ih =>
      by_cases hlt : i < (acceptedUpTo x₀ wires payload n).length
      · rcases ih hlt with ⟨m, hmn, hin, hlen⟩
        exact ⟨m, Nat.lt_succ_of_lt hmn, hin, hlen⟩
      · cases hin : inFire (regsAt x₀ wires payload n) (wires n) with
        | false => simp [acceptedUpTo, accepted, hin] at h; omega
        | true =>
            refine ⟨n, Nat.lt_succ_self n, hin, ?_⟩
            simp [acceptedUpTo, accepted, hin] at h
            omega

/-- A beat that is handed over was accepted in an earlier cycle, at the same place in the order. -/
theorem accepted_of_outFire (hdrop : ∀ k, (wires k).drop = false) {n : Nat}
    (hout : outFire (regsAt x₀ wires payload n) (wires n) = true) :
    ∃ m, m < n ∧ inFire (regsAt x₀ wires payload m) (wires m) = true ∧
      (acceptedUpTo x₀ wires payload m).length = (handedUpTo x₀ wires payload n).length := by
  apply exists_accepted
  have hvalid : (regsAt x₀ wires payload n).valid = true := by
    simp only [outFire, toValid, Bool.and_eq_true] at hout
    exact hout.1.1
  rw [run_conserves x₀ wires payload hdrop n]
  simp [contents, hvalid]

end Run

/-! ## Payload independence

The control bits of a boundary do not look at the payload, so a run with one payload is the image of
a run with a richer one.  Stamping every beat with its cycle of acceptance is the use made of it.
-/

def Regs.map (f : α → β) (r : Regs α) : Regs β :=
  { valid := r.valid
    allowin := r.allowin
    skidValid := r.skidValid
    main := f r.main
    skid := f r.skid }

@[simp] theorem inFire_map (f : α → β) (r : Regs α) (w : Wires) :
    inFire (r.map f) w = inFire r w := rfl

@[simp] theorem outFire_map (f : α → β) (r : Regs α) (w : Wires) :
    outFire (r.map f) w = outFire r w := rfl

theorem map_nextMain (f : α → β) (r : Regs α) (w : Wires) (main skid x : α) :
    f (nextMain r w main skid x) = nextMain (r.map f) w (f main) (f skid) (f x) := by
  simp only [nextMain, apply_ite f]
  rfl

theorem map_nextSkid (f : α → β) (r : Regs α) (w : Wires) (skid x : α) :
    f (nextSkid r w skid x) = nextSkid (r.map f) w (f skid) (f x) := by
  simp only [nextSkid, apply_ite f]
  rfl

theorem map_next (f : α → β) (r : Regs α) (w : Wires) (x : α) :
    (next r w x).map f = next (r.map f) w (f x) := by
  have hmain := map_nextMain f r w r.main r.skid x
  have hskid := map_nextSkid f r w r.skid x
  simp only [Regs.map, next] at hmain hskid ⊢
  rw [hmain, hskid]
  rfl

section Stamp

variable (x₀ : α) (wires : Nat → Wires) (payload : Nat → α)

theorem map_regsAt (f : α → β) (n : Nat) :
    (regsAt x₀ wires payload n).map f = regsAt (f x₀) wires (fun k => f (payload k)) n := by
  induction n with
  | zero => rfl
  | succ n ih => rw [regsAt_succ, regsAt_succ, map_next, ih]

theorem map_acceptedUpTo (f : α → β) (n : Nat) :
    (acceptedUpTo x₀ wires payload n).map f =
      acceptedUpTo (f x₀) wires (fun k => f (payload k)) n := by
  induction n with
  | zero => rfl
  | succ n ih =>
      rw [acceptedUpTo, acceptedUpTo, List.map_append, ih, ← map_regsAt]
      simp only [accepted, inFire_map, apply_ite (List.map f), List.map_cons, List.map_nil]
      rfl

theorem map_handedUpTo (f : α → β) (n : Nat) :
    (handedUpTo x₀ wires payload n).map f =
      handedUpTo (f x₀) wires (fun k => f (payload k)) n := by
  induction n with
  | zero => rfl
  | succ n ih =>
      rw [handedUpTo, handedUpTo, List.map_append, ih, ← map_regsAt]
      simp only [handed, outFire_map, apply_ite (List.map f), List.map_cons, List.map_nil]
      rfl

/-- The boundary with every beat replaced by the cycle in which it was accepted. -/
def stampsAt (n : Nat) : Regs Nat := regsAt 0 wires (fun k => k) n

theorem stampsAt_succ (n : Nat) :
    stampsAt wires (n + 1) = next (stampsAt wires n) (wires n) n := rfl

/-- The stamped boundary is the boundary as far as its control bits go. -/
theorem stampsAt_map_unit (n : Nat) :
    (stampsAt wires n).map (fun _ => ()) =
      (regsAt x₀ wires payload n).map (fun _ => ()) := by
  rw [stampsAt, map_regsAt, map_regsAt]

theorem length_acceptedUpTo (n : Nat) :
    (acceptedUpTo x₀ wires payload n).length =
      (acceptedUpTo 0 wires (fun k => k) n).length := by
  have hunit :
      (acceptedUpTo x₀ wires payload n).map (fun _ => ()) =
        (acceptedUpTo 0 wires (fun k => k) n).map (fun _ => ()) := by
    rw [map_acceptedUpTo, map_acceptedUpTo]
  simpa using congrArg List.length hunit

theorem length_handedUpTo (n : Nat) :
    (handedUpTo x₀ wires payload n).length =
      (handedUpTo 0 wires (fun k => k) n).length := by
  have hunit :
      (handedUpTo x₀ wires payload n).map (fun _ => ()) =
        (handedUpTo 0 wires (fun k => k) n).map (fun _ => ()) := by
    rw [map_handedUpTo, map_handedUpTo]
  simpa using congrArg List.length hunit

/-- A beat handed over in cycle `n` whose place in the order of arrival is that of the beat accepted
in cycle `m` is that beat. -/
theorem stamp_of_outFire (hdrop : ∀ k, (wires k).drop = false) {m n : Nat}
    (hin : inFire (regsAt x₀ wires payload m) (wires m) = true)
    (hout : outFire (regsAt x₀ wires payload n) (wires n) = true)
    (hplace :
      (acceptedUpTo x₀ wires payload m).length = (handedUpTo x₀ wires payload n).length) :
    (stampsAt wires n).main = m ∧ m < n := by
  have hunit := fun k => stampsAt_map_unit x₀ wires payload k
  have hin' : inFire (stampsAt wires m) (wires m) = true := by
    rw [← inFire_map (fun _ => ()), hunit, inFire_map]; exact hin
  have hout' : outFire (stampsAt wires n) (wires n) = true := by
    rw [← outFire_map (fun _ => ()), hunit, outFire_map]; exact hout
  rw [length_acceptedUpTo, length_handedUpTo] at hplace
  have hvalid : (stampsAt wires n).valid = true := by
    simp only [outFire, toValid, Bool.and_eq_true] at hout'
    exact hout'.1.1
  -- what has been accepted before `n` is what has been handed over, then `main`, then the rest
  have hcons := run_conserves 0 wires (fun k => k) hdrop n
  have hmain : (acceptedUpTo 0 wires (fun k => k) n)[(handedUpTo 0 wires (fun k => k) n).length]? =
      some (stampsAt wires n).main := by
    rw [hcons, List.getElem?_append_right (Nat.le_refl _), Nat.sub_self]
    have hv : (regsAt 0 wires (fun k => k) n).valid = true := hvalid
    simp [contents, hv, stampsAt]
  have hlt : m < n := by
    by_contra hge
    have hpre := (acceptedUpTo_mono 0 wires (fun k => k) (Nat.le_of_not_lt hge)).length_le
    have hbound := (List.getElem?_eq_some_iff.mp hmain).1
    omega
  have hfirst : (acceptedUpTo 0 wires (fun k => k) (m + 1))[(acceptedUpTo 0 wires
      (fun k => k) m).length]? = some m := by
    have hacc : accepted (regsAt 0 wires (fun k => k) m) (wires m) m = [m] := by
      have h : inFire (regsAt 0 wires (fun k => k) m) (wires m) = true := hin'
      simp [accepted, h]
    rw [acceptedUpTo, hacc, List.getElem?_append_right (Nat.le_refl _), Nat.sub_self]
    rfl
  rcases acceptedUpTo_mono 0 wires (fun k => k) (Nat.succ_le_of_lt hlt) with ⟨rest, hrest⟩
  have hsame : (acceptedUpTo 0 wires (fun k => k) n)[(acceptedUpTo 0 wires
      (fun k => k) m).length]? = some m := by
    rw [← hrest, List.getElem?_append_left (List.getElem?_eq_some_iff.mp hfirst).1]
    exact hfirst
  rw [hplace, hmain] at hsame
  exact ⟨Option.some.inj hsame, hlt⟩

end Stamp

end SkidBuffer
end RiscvCpu
