import RiscvCpu.Board.Receiver

/-!
# Ready — the output of the receiver

A byte that is received is shown for `BAUD_DIV` cycles: `rx_ready` is up and the byte is on `rx_data`.  The
next byte comes later than that, so what is shown is always the byte heard last.
-/

namespace RiscvCpu
namespace Board

open Serial

namespace Uart

variable {div : Word} {B P gap : Nat} {o o' : Option (Frame 8)} {r : Rx} {s : Ready} {y : Sync}

/-! ## The stretched pulse -/

/-- `rx_ready` is over before the receiver is done with the next frame. -/
structure Stretched (B : Nat) (o : Option (Frame 8)) (s : Ready) : Prop where
  count : s.rxReadyCnt.toNat < B
  age : s.rxReady = true → ∃ f, o = some f ∧ (done B < f.age ∨ f.age ≤ s.rxReadyCnt.toNat)

theorem not_pulse_of_stretched (h : Stretched B o s) (hstrikes : Strikes B o r)
    (hready : s.rxReady = true) : r.rxReadyPulse = false := by
  rcases h.age hready with ⟨f, rfl, hage⟩
  have hcount := h.count
  have hne : f.age ≠ done B := by
    rw [done] at hage ⊢
    omega
  rw [hstrikes.pulse]
  simpa using hne

theorem readyCnt_lt (hdiv : Divides div B) (c : BitVec 16) :
    c.setWidth 32 < div - 1#32 ↔ c.toNat + 1 < B := by
  have htoNat := hdiv.toNat
  have hpos := hdiv.pos
  have hlt := c.isLt
  rw [BitVec.lt_def, BitVec.toNat_setWidth, BitVec.toNat_sub, BitVec.toNat_ofNat]
  omega

theorem readyCnt_succ (hdiv : Divides div B) {c : BitVec 16} (h : c.toNat + 1 < B) :
    (c + 1#16).toNat = c.toNat + 1 := by
  have hle := hdiv.le
  rw [BitVec.toNat_add, BitVec.toNat_ofNat]
  omega

theorem stretched_next (hdiv : Divides div B) (hgoes : Goes gap o o') (hstrikes : Strikes B o r)
    (h : Stretched B o s) : Stretched B o' (nextReady div r s) := by
  -- a frame grows older, and a new one is younger than any count
  have hage : ∀ n, (∃ f, o = some f ∧ (done B ≤ f.age ∨ f.age + 1 ≤ n)) →
      ∃ f, o' = some f ∧ (done B < f.age ∨ f.age ≤ n) := by
    rintro n ⟨f, rfl, hf⟩
    cases hgoes with
    | older =>
        refine ⟨_, rfl, ?_⟩
        show done B < f.age + 1 ∨ f.age + 1 ≤ n
        omega
    | again _ x _ => exact ⟨_, rfl, Or.inr (Nat.zero_le n)⟩
  rw [nextReady]
  split
  next hpulse =>
    refine { count := hdiv.pos, age := fun _ => hage _ ?_ }
    rw [hstrikes.pulse] at hpulse
    cases o with
    | none => cases hpulse
    | some f => exact ⟨f, rfl, Or.inl (by simpa using hpulse : f.age = done B).ge⟩
  next =>
    split
    next hready =>
      rcases h.age hready with ⟨f, hf, hfage⟩
      split
      next hlt =>
        have hcount := (readyCnt_lt hdiv s.rxReadyCnt).mp hlt
        refine { count := ?_, age := fun _ => hage _ ⟨f, hf, ?_⟩ }
        · show (s.rxReadyCnt + 1#16).toNat < B
          rw [readyCnt_succ hdiv hcount]
          exact hcount
        · show done B ≤ f.age ∨ f.age + 1 ≤ (s.rxReadyCnt + 1#16).toNat
          rw [readyCnt_succ hdiv hcount]
          omega
      next => exact { count := h.count, age := fun hready' => by cases hready' }
    next hready => exact { count := h.count, age := fun hready' => absurd hready' hready }

/-- `rx_data` changes with a pulse. -/
theorem rxData_next (h : (nextRx div y r).rxReadyPulse = false) : (nextRx div y r).rxData = r.rxData := by
  unfold nextRx at h ⊢
  split_ifs at h ⊢ <;> rfl

variable {line : Nat → Option (Frame 8)} {inp : Nat → In}

theorem stretched_run (hdiv : Divides div B) (htuned : Tuned B P gap) (hline : Spaced gap line)
    (hrx : ∀ t, (inp t).rx = level P (line t)) (t : Nat) :
    Stretched B (delay 3 line t) (run div inp t).ready := by
  induction t with
  | zero => exact { count := hdiv.pos, age := fun h => by cases h }
  | succ t ih =>
      have hstrikes := (tracks_run hdiv htuned hline hrx t).2
      exact stretched_next hdiv ((spaced_delay hline 3).goes t) hstrikes ih

variable (div inp) in
/-- The byte announced in cycle `t`. -/
def hearing (t : Nat) : List (BitVec 8) :=
  if (run div inp t).rx.rxReadyPulse then [(run div inp t).rx.rxData] else []

theorem heard_succ (t : Nat) : heard div inp (t + 1) = heard div inp t ++ hearing div inp t := rfl

/-- What a cycle with `rx_ready` shows is the byte heard last; nothing else is announced meanwhile, and
every announced byte is shown. -/
structure Shows (div : Word) (inp : Nat → In) (t : Nat) : Prop where
  last : (run div inp t).ready.rxReady = true →
    ∃ bytes, heard div inp t = bytes ++ [(run div inp t).rx.rxData]
  fresh : hearing div inp t = [] ∨
    (run div inp (t + 1)).ready.rxReady = true ∧
      hearing div inp t = [(run div inp (t + 1)).rx.rxData]
  same : (run div inp (t + 1)).ready.rxReady = true →
    (run div inp (t + 1)).rx.rxData = (run div inp t).rx.rxData

/-- A byte that is shown without having been announced in the cycle before was shown then. -/
theorem shown_before {t : Nat} (hnone : hearing div inp t = [])
    (hready : (run div inp (t + 1)).ready.rxReady = true) :
    (run div inp t).ready.rxReady = true ∧
      (run div inp t).ready.rxReadyCnt.setWidth 32 < div - 1#32 ∧
      (run div inp (t + 1)).ready.rxReadyCnt = (run div inp t).ready.rxReadyCnt + 1#16 := by
  have hpulse : (run div inp t).rx.rxReadyPulse = false := by
    by_contra hpulse
    rw [hearing, if_pos (by simpa using hpulse)] at hnone
    cases hnone
  have hnext : (run div inp (t + 1)).ready = nextReady div (run div inp t).rx (run div inp t).ready := rfl
  rw [hnext, nextReady, hpulse] at hready ⊢
  simp only [Bool.false_eq_true, if_false] at hready ⊢
  split at hready
  next hbefore =>
    split at hready
    next hlt => exact ⟨hbefore, hlt, by rw [if_pos hbefore, if_pos hlt]⟩
    next => cases hready
  next hbefore => exact absurd hready hbefore

/-- One cycle, given that no byte is announced while another one is shown. -/
theorem shows_run (h : ∀ t, (run div inp t).ready.rxReady = true →
    (run div inp t).rx.rxReadyPulse = false) (t : Nat) : Shows div inp t := by
  have hsame : ∀ t, (run div inp (t + 1)).ready.rxReady = true →
      (run div inp (t + 1)).rx.rxData = (run div inp t).rx.rxData := fun t hready =>
    rxData_next (h (t + 1) hready)
  have hfresh : ∀ t, hearing div inp t = [] ∨
      (run div inp (t + 1)).ready.rxReady = true ∧
        hearing div inp t = [(run div inp (t + 1)).rx.rxData] := by
    intro t
    rw [hearing]
    split
    next hpulse =>
      have hready : (run div inp (t + 1)).ready.rxReady = true := by
        show (nextReady div (run div inp t).rx (run div inp t).ready).rxReady = true
        rw [nextReady, if_pos hpulse]
      exact Or.inr ⟨hready, by rw [hsame t hready]⟩
    next => exact Or.inl rfl
  refine { last := ?_, fresh := hfresh t, same := hsame t }
  induction t with
  | zero => exact fun hready => by cases hready
  | succ t ih =>
      intro hready
      rcases hfresh t with hnone | ⟨-, hbyte⟩
      · rw [heard_succ, hnone, List.append_nil, hsame t hready]
        exact ih (shown_before hnone hready).1
      · exact ⟨heard div inp t, by rw [heard_succ, hbyte]⟩

/-! ## When a byte is shown -/

/-- No byte is announced while another one is shown. -/
theorem quiet_of_ready (hdiv : Divides div B) (htuned : Tuned B P gap) (hline : Spaced gap line)
    (hrx : ∀ t, (inp t).rx = level P (line t)) (t : Nat)
    (hready : (run div inp t).ready.rxReady = true) : (run div inp t).rx.rxReadyPulse = false :=
  not_pulse_of_stretched (stretched_run hdiv htuned hline hrx t) (tracks_run hdiv htuned hline hrx t).2
    hready

/-- The frame of `x`, from the second cycle on. -/
def single (x : BitVec 8) : Nat → Option (Frame 8)
  | 0 => none
  | t + 1 => some ⟨x, t⟩

theorem spaced_single (gap : Nat) (x : BitVec 8) : Spaced gap (single x) := by
  refine { silent := rfl, goes := ?_ }
  intro t
  cases t with
  | zero => exact .first x
  | succ t => exact .older ⟨x, t⟩

end Uart
end Board
end RiscvCpu
