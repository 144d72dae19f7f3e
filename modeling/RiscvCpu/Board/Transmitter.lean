import RiscvCpu.Board.Receiver

/-!
# Transmitter — what the board's serial port says

A byte that is taken in one cycle begins on the line `B + 1` cycles later, and its bits are as long as the
divider says.  Between two frames the line is high for one cycle more than a stop bit.
-/

namespace RiscvCpu
namespace Board
namespace Uart

open Serial

variable {div : Word} {B : Nat}

/-- What is on the line in the next cycle. -/
def frameNext (div : Word) (r : Tx) (o : Option (Frame 8)) : Option (Frame 8) :=
  if r.txState == 1#4 && last div r.txCnt && r.txBitCnt == 0#4 then
    some ⟨r.txShift.extractLsb' 1 8, 0⟩
  else o.map fun f => ⟨f.byte, f.age + 1⟩

/-- The line of the transmitter. -/
def line (div : Word) (inp : Nat → In) : Nat → Option (Frame 8)
  | 0 => none
  | t + 1 => frameNext div (run div inp t).tx (line div inp t)

/-- The byte that the transmitter takes. -/
def taking (r : Tx) (txData : BitVec 8) (txStart : Bool) : List (BitVec 8) :=
  if r.txState == 0#4 && txStart then [txData] else []

/-- The bytes that the transmitter has taken before cycle `t`. -/
def taken (div : Word) (inp : Nat → In) : Nat → List (BitVec 8) :=
  upTo fun k => taking (run div inp k).tx (inp k).txData (inp k).txStart

/-! ## The transmitter in a frame -/

/-- The transmitter holds bit `q` of the frame of `x` and the bits behind it, and its counter stands at
`c`. -/
structure Sending (B : Nat) (x : BitVec 8) (q c : Nat) (r : Tx) : Prop where
  slot : q ≤ 9
  phase : c < B
  count : r.txCnt.toNat = c
  state : r.txState = 1#4
  busy : r.txBusy = true
  bit : r.txBitCnt.toNat = q
  bits : ∀ i, i < 10 → r.txShift.getLsbD i = frameBit x (q + i)

variable {x : BitVec 8} {q c : Nat} {r : Tx} {o : Option (Frame 8)} {d : BitVec 8} {start : Bool}

theorem nextTx_count (hdiv : Divides div B) (h : Sending B x q c r) (hc : c + 1 < B) :
    nextTx div r d start = { r with txCnt := r.txCnt + 1#13 } := by
  have hlast : last div r.txCnt = false := by
    rw [last_eq hdiv h.count]
    simpa using hc.ne
  simp [nextTx, h.state, hlast]

theorem sending_count (hdiv : Divides div B) (h : Sending B x q c r) (hc : c + 1 < B) :
    Sending B x q (c + 1) (nextTx div r d start) := by
  rw [nextTx_count hdiv h hc]
  exact
    { slot := h.slot
      phase := hc
      count := cnt_succ hdiv h.count hc
      state := h.state
      busy := h.busy
      bit := h.bit
      bits := h.bits }

theorem nine_eq (h : r.txBitCnt.toNat = q) : (r.txBitCnt == 9#4) = decide (q = 9) := by
  rw [Bool.eq_iff_iff, beq_iff_eq, decide_eq_true_iff, ← BitVec.toNat_inj, h, BitVec.toNat_ofNat]

/-- At the end of a slot bit `q` goes out. -/
theorem nextTx_last (hdiv : Divides div B) (h : Sending B x q c r) (hc : c + 1 = B) :
    nextTx div r d start =
      { r with
        txState := if q = 9 then 0#4 else 1#4
        txCnt := 0#13
        txBitCnt := if q = 9 then r.txBitCnt else r.txBitCnt + 1#4
        txShift := 1#1 ++ r.txShift.extractLsb' 1 9
        tx := frameBit x q } := by
  have hlast : last div r.txCnt = true := by
    rw [last_eq hdiv h.count]
    simpa using hc
  have hbit : r.txShift.getLsbD 0 = frameBit x q := h.bits 0 (by decide)
  simp only [nextTx, h.state, hlast, nine_eq h.bit, hbit, decide_eq_true_eq, if_true, beq_self_eq_true,
    show (1#4 == 0#4) = false from rfl, Bool.false_eq_true, if_false]

theorem ones_getLsbD (y : BitVec 10) {i : Nat} (hi : i < 10) :
    (1#1 ++ y.extractLsb' 1 9).getLsbD i = if i = 9 then true else y.getLsbD (i + 1) := by
  rw [BitVec.getLsbD_append, BitVec.getLsbD_extractLsb']
  rcases Nat.lt_or_ge i 9 with hlt | hge
  · have hne : i ≠ 9 := by omega
    simp [hlt, hne, Nat.add_comm]
  · have heq : i = 9 := by omega
    subst heq
    simp

theorem sending_last (hdiv : Divides div B) (h : Sending B x q c r) (hc : c + 1 = B) (hq : q < 9) :
    Sending B x (q + 1) 0 (nextTx div r d start) := by
  rw [nextTx_last hdiv h hc]
  refine
    { slot := hq
      phase := hdiv.pos
      count := rfl
      state := if_neg hq.ne
      busy := h.busy
      bit := ?_
      bits := ?_ }
  · show (if q = 9 then r.txBitCnt else r.txBitCnt + 1#4).toNat = q + 1
    rw [if_neg hq.ne, BitVec.toNat_add, h.bit, BitVec.toNat_ofNat]
    omega
  · intro i hi
    rw [ones_getLsbD _ hi]
    split
    next heq =>
      -- ones move in behind the stop bit
      rw [frameBit_stop x (by omega)]
    next hne => rw [h.bits (i + 1) (by omega), Nat.add_right_comm, Nat.add_assoc]

/-- The byte of a frame that has not begun. -/
theorem byte_of_sending (h : Sending B x 0 c r) : r.txShift.extractLsb' 1 8 = x := by
  apply BitVec.eq_of_getLsbD_eq
  intro i hi
  have hbit := h.bits (i + 1) (by omega)
  rw [Nat.zero_add, frameBit_data x hi] at hbit
  simp [hi, Nat.add_comm 1 i, hbit]

/-- The frame as it is loaded. -/
theorem load_getLsbD (d : BitVec 8) {i : Nat} (hi : i < 10) :
    (1#1 ++ (d ++ 0#1)).getLsbD i = frameBit d i := by
  rw [BitVec.getLsbD_append, BitVec.getLsbD_append]
  rcases i with - | j
  · rfl
  · rcases Nat.lt_or_ge j 8 with hj | hj
    · rw [frameBit_data d hj, if_pos (by omega), if_neg (by omega), Nat.add_sub_cancel]
    · have heq : j = 8 := by omega
      subst heq
      rfl

theorem sending_take (hdiv : Divides div B) (h : r.txState = 0#4) :
    Sending B d 0 0 (nextTx div r d true) ∧ (nextTx div r d true).tx = r.tx := by
  have hnext : nextTx div r d true =
      { r with
        txState := 1#4, txCnt := 0#13, txBitCnt := 0#4, txShift := 1#1 ++ (d ++ 0#1), txBusy := true } := by
    simp [nextTx, h]
  rw [hnext]
  refine ⟨?_, rfl⟩
  refine
    { slot := by decide
      phase := hdiv.pos
      count := rfl
      state := rfl
      busy := rfl
      bit := rfl
      bits := ?_ }
  intro i hi
  rw [Nat.zero_add]
  exact load_getLsbD d hi

theorem nextTx_rest (h : r.txState = 0#4) : nextTx div r d false = { r with txBusy := false } := by
  simp [nextTx, h]

/-! ## The transmitter and its line -/

/-- Where the transmitter is with `o` on its line. -/
inductive Emits (B : Nat) : Option (Frame 8) → Tx → Prop
  | rest {o : Option (Frame 8)} {r : Tx} (hstate : r.txState = 0#4) (htx : r.tx = true)
      (hold : ∀ f, o = some f → 9 * B ≤ f.age) : Emits B o r
  | wait {o : Option (Frame 8)} {x : BitVec 8} {c : Nat} {r : Tx} (hsend : Sending B x 0 c r)
      (htx : r.tx = true) (hold : ∀ f, o = some f → 9 * B + 1 + c ≤ f.age) : Emits B o r
  | frame {x : BitVec 8} {q c : Nat} {r : Tx} (hsend : Sending B x (q + 1) c r)
      (htx : r.tx = frameBit x q) : Emits B (some ⟨x, q * B + c⟩) r

/-- The line is at the level of what is on it. -/
theorem Emits.level (hpos : 0 < B) (h : Emits B o r) : r.tx = level B o := by
  have hhigh : (∀ f, o = some f → 9 * B ≤ f.age) → Serial.level B o = true := by
    intro hold
    cases o with
    | none => rfl
    | some f => exact level_stop hpos (hold f rfl)
  cases h with
  | rest _ htx hold => rw [htx, hhigh hold]
  | wait _ htx hold =>
      rw [htx, hhigh fun f hf => by
        have hage := hold f hf
        omega]
  | frame hsend htx => rw [htx, Serial.level, lineAt_slot _ _ hsend.phase]

theorem frameNext_older (h : ¬ (r.txState = 1#4 ∧ last div r.txCnt = true ∧ r.txBitCnt = 0#4)) :
    frameNext div r o = o.map fun f => ⟨f.byte, f.age + 1⟩ := by
  rw [frameNext, if_neg]
  simpa [and_assoc] using h

/-- The start bit goes out. -/
theorem frameNext_begins (hdiv : Divides div B) (h : Sending B x 0 c r) (hc : c + 1 = B) :
    frameNext div r o = some ⟨x, 0⟩ := by
  have hbit : r.txBitCnt = 0#4 := by
    rw [← BitVec.toNat_inj]
    exact h.bit
  rw [frameNext, h.state, last_eq hdiv h.count, hbit, decide_eq_true hc, byte_of_sending h]
  rfl

theorem goes_older (gap : Nat) (o : Option (Frame 8)) :
    Goes gap o (o.map fun f => ⟨f.byte, f.age + 1⟩) := by
  cases o with
  | none => exact .silent
  | some f => exact .older f

theorem aged_older (o : Option (Frame 8)) : aged 0 (o.map fun f => ⟨f.byte, f.age + 1⟩) = [] := by
  cases o with
  | none => rfl
  | some f => rfl

/-- One cycle. -/
theorem emits_next (hdiv : Divides div B) (h : Emits B o r) :
    Emits B (frameNext div r o) (nextTx div r d start) ∧ Goes (10 * B + 1) o (frameNext div r o) := by
  have hpos := hdiv.pos
  cases h with
  | rest hstate htx hold =>
      have holder : frameNext div r o = o.map fun f => ⟨f.byte, f.age + 1⟩ := by
        apply frameNext_older
        rw [hstate]
        rintro ⟨hone, -⟩
        cases hone
      rw [holder]
      refine ⟨?_, goes_older _ o⟩
      cases start with
      | false =>
          rw [nextTx_rest hstate]
          refine .rest hstate htx ?_
          intro f hf
          rcases Option.map_eq_some_iff.mp hf with ⟨g, hg, rfl⟩
          exact Nat.le_succ_of_le (hold g hg)
      | true =>
          rcases @sending_take div B r d hdiv hstate with ⟨hsend, htx'⟩
          refine .wait hsend (htx'.trans htx) ?_
          intro f hf
          rcases Option.map_eq_some_iff.mp hf with ⟨g, hg, rfl⟩
          exact Nat.succ_le_succ (hold g hg)
  | @wait _ x c _ hsend htx hold =>
      have hphase := hsend.phase
      rcases Nat.lt_or_ge (c + 1) B with hlt | hge
      · have holder : frameNext div r o = o.map fun f => ⟨f.byte, f.age + 1⟩ := by
          apply frameNext_older
          rintro ⟨-, hlast, -⟩
          rw [last_eq hdiv hsend.count, decide_eq_true_iff] at hlast
          omega
        rw [holder]
        refine ⟨.wait (sending_count hdiv hsend hlt) ?_ ?_, goes_older _ o⟩
        · rw [nextTx_count hdiv hsend hlt]
          exact htx
        · intro f hf
          rcases Option.map_eq_some_iff.mp hf with ⟨g, hg, rfl⟩
          have hage := hold g hg
          show 9 * B + 1 + (c + 1) ≤ g.age + 1
          omega
      · have hc : c + 1 = B := by omega
        rw [frameNext_begins hdiv hsend hc]
        refine ⟨?_, ?_⟩
        · have hframe := @Emits.frame B x 0 0 (nextTx div r d start)
            (sending_last hdiv hsend hc (by decide)) (by rw [nextTx_last hdiv hsend hc])
          rwa [Nat.zero_mul, Nat.add_zero] at hframe
        · cases o with
          | none => exact .first x
          | some f =>
              have hage := hold f rfl
              exact .again f x (by omega)
  | @frame x q c _ hsend htx =>
      have hphase := hsend.phase
      have hslot := hsend.slot
      have holder : frameNext div r (some ⟨x, q * B + c⟩) = some ⟨x, q * B + c + 1⟩ := by
        apply frameNext_older
        rintro ⟨-, -, hbit⟩
        have htoNat := hsend.bit
        rw [hbit] at htoNat
        cases htoNat
      rw [holder]
      refine ⟨?_, .older ⟨x, q * B + c⟩⟩
      rcases Nat.lt_or_ge (c + 1) B with hlt | hge
      · refine .frame (c := c + 1) (sending_count hdiv hsend hlt) ?_
        rw [nextTx_count hdiv hsend hlt]
        exact htx
      · have hc : c + 1 = B := by omega
        have hage : q * B + c + 1 = (q + 1) * B + 0 := by
          rw [Nat.succ_mul]
          omega
        have htx' : (nextTx div r d start).tx = frameBit x (q + 1) := by
          rw [nextTx_last hdiv hsend hc]
        rw [hage]
        rcases Nat.lt_or_ge (q + 1) 9 with hq | hq
        · exact .frame (sending_last hdiv hsend hc hq) htx'
        · -- the stop bit goes out, and the transmitter is free
          have hq9 : q + 1 = 9 := by omega
          refine .rest ?_ (htx'.trans (frameBit_stop x (by omega))) ?_
          · rw [nextTx_last hdiv hsend hc]
            exact if_pos hq9
          · intro f hf
            cases hf
            show 9 * B ≤ (q + 1) * B + 0
            rw [hq9]
            exact Nat.le_refl _

/-- A byte that waits for its start bit has just been taken, or has waited one cycle less before. -/
theorem sending_of_next (hdiv : Divides div B) (he : Emits B o r)
    (h : Sending B x 0 c (nextTx div r d start)) :
    (c = 0 ∧ taking r d start ≠ []) ∨ ∃ y k, c = k + 1 ∧ Sending B y 0 k r := by
  have hcount := h.count
  have hbit := h.bit
  have hstate := h.state
  cases he with
  | rest hidle _ _ =>
      cases start with
      | false =>
          rw [nextTx_rest hidle] at hstate
          have hone : r.txState = 1#4 := hstate
          rw [hidle] at hone
          cases hone
      | true =>
          have hzero := (@sending_take div B r d hdiv hidle).1.count
          refine Or.inl ⟨hcount.symm.trans hzero, ?_⟩
          simp [taking, hidle]
  | @wait _ y k _ hsend _ _ =>
      have hphase := hsend.phase
      rcases Nat.lt_or_ge (k + 1) B with hlt | hge
      · have hnext := (@sending_count div B y 0 k r d start hdiv hsend hlt).count
        exact Or.inr ⟨y, k, hcount.symm.trans hnext, hsend⟩
      · have hnext := (@sending_last div B y 0 k r d start hdiv hsend (by omega) (by decide)).bit
        omega
  | @frame y q k _ hsend _ =>
      -- the bit counter does not come back to zero
      have hphase := hsend.phase
      have hslot := hsend.slot
      rcases Nat.lt_or_ge (k + 1) B with hlt | hge
      · have hnext := (@sending_count div B y (q + 1) k r d start hdiv hsend hlt).bit
        omega
      · have hk : k + 1 = B := by omega
        rcases Nat.lt_or_ge (q + 1) 9 with hq | hq
        · have hnext := (@sending_last div B y (q + 1) k r d start hdiv hsend hk hq).bit
          omega
        · have hq9 : q + 1 = 9 := by omega
          rw [nextTx_last hdiv hsend hk, hq9] at hstate
          cases hstate

/-! ## Runs -/

variable {inp : Nat → In}

theorem emits_run (hdiv : Divides div B) (t : Nat) :
    Emits B (line div inp t) (run div inp t).tx := by
  induction t with
  | zero =>
      refine .rest rfl rfl ?_
      intro f hf
      cases hf
  | succ t ih => exact (emits_next hdiv ih).1

theorem spaced_line (hdiv : Divides div B) : Spaced (10 * B + 1) (line div inp) :=
  { silent := rfl
    goes := fun t => (@emits_next div B _ _ (inp t).txData (inp t).txStart hdiv (emits_run hdiv t)).2 }

theorem tx_run (hdiv : Divides div B) (t : Nat) :
    (run div inp t).tx.tx = level B (line div inp t) :=
  (emits_run hdiv t).level hdiv.pos

variable (div inp) in
/-- The byte taken in cycle `t`. -/
def takingAt (t : Nat) : List (BitVec 8) :=
  taking (run div inp t).tx (inp t).txData (inp t).txStart

/-- A byte that waits for its start bit with the counter at `c` has been taken `c + 1` cycles ago. -/
theorem takingAt_of_sending (hdiv : Divides div B) {t : Nat} {x : BitVec 8} {c : Nat}
    (h : Sending B x 0 c (run div inp t).tx) : ∃ u, t = u + c + 1 ∧ takingAt div inp u ≠ [] := by
  induction t generalizing x c with
  | zero => cases h.state
  | succ t ih =>
      rcases sending_of_next hdiv (emits_run hdiv t) h with ⟨rfl, htaken⟩ | ⟨y, k, rfl, hsend⟩
      · exact ⟨t, rfl, htaken⟩
      · rcases ih hsend with ⟨u, rfl, htaken⟩
        exact ⟨u, rfl, htaken⟩

/-- From the cycle after it is taken on, a byte waits with a running counter. -/
theorem sending_of_takingAt (hdiv : Divides div B) {t : Nat} {x : BitVec 8}
    (h : takingAt div inp t = [x]) {c : Nat} (hc : c < B) :
    Sending B x 0 c (run div inp (t + 1 + c)).tx := by
  induction c with
  | zero =>
      rw [takingAt, taking] at h
      split at h
      next htake =>
        rw [Bool.and_eq_true, beq_iff_eq] at htake
        cases h
        have hsend := (@sending_take div B _ (inp t).txData hdiv htake.1).1
        rw [← htake.2] at hsend
        exact hsend
      next => cases h
  | succ c ih => exact sending_count hdiv (ih (Nat.lt_of_succ_lt hc)) hc

/-- A frame that begins has been taken `B + 1` cycles ago. -/
theorem exists_takingAt (hdiv : Divides div B) {t : Nat} (h : aged 0 (line div inp (t + 1)) ≠ []) :
    ∃ u, t = u + B ∧ takingAt div inp u ≠ [] := by
  have hbegin : (run div inp t).tx.txState = 1#4 ∧ last div (run div inp t).tx.txCnt = true ∧
      (run div inp t).tx.txBitCnt = 0#4 := by
    by_contra hnot
    apply h
    show aged 0 (frameNext div (run div inp t).tx (line div inp t)) = []
    rw [frameNext_older hnot, aged_older]
  rcases hbegin with ⟨hstate, hlast, hbit⟩
  have hemits := @emits_run div B inp hdiv t
  generalize line div inp t = o at hemits
  cases hemits with
  | rest hidle _ _ =>
      rw [hidle] at hstate
      cases hstate
  | @wait _ x c _ hsend _ _ =>
      rw [last_eq hdiv hsend.count, decide_eq_true_iff] at hlast
      rcases takingAt_of_sending hdiv hsend with ⟨u, hu, htaken⟩
      exact ⟨u, by omega, htaken⟩
  | frame hsend _ =>
      have htoNat := hsend.bit
      rw [hbit] at htoNat
      cases htoNat

theorem takingAt_cases (t : Nat) : takingAt div inp t = [] ∨ ∃ x, takingAt div inp t = [x] := by
  rw [takingAt, taking]
  split
  · exact Or.inr ⟨_, rfl⟩
  · exact Or.inl rfl

/-- A byte begins on the line `B + 1` cycles after it is taken. -/
theorem aged_line (hdiv : Divides div B) (t : Nat) :
    aged 0 (line div inp (t + (B + 1))) = takingAt div inp t := by
  rcases @takingAt_cases div inp t with hnone | ⟨x, htake⟩
  · rw [hnone]
    by_contra hne
    rcases @exists_takingAt div B inp hdiv (t + B) hne with ⟨u, hu, htaken⟩
    have htu : u = t := by omega
    rw [htu] at htaken
    exact htaken hnone
  · have hpos := hdiv.pos
    have hsend := sending_of_takingAt hdiv htake (show B - 1 < B by omega)
    rw [show t + 1 + (B - 1) = t + B by omega] at hsend
    have hline : line div inp (t + (B + 1)) = some ⟨x, 0⟩ := frameNext_begins hdiv hsend (by omega)
    rw [hline, htake]
    rfl

theorem begun_line (hdiv : Divides div B) (t : Nat) :
    begun (line div inp) (t + (B + 1)) = taken div inp t := by
  induction t with
  | zero =>
      -- nothing begins in the first cycles
      have hnone : ∀ u, u ≤ B + 1 → begun (line div inp) u = [] := by
        intro u
        induction u with
        | zero => intro _; rfl
        | succ u ih =>
            intro hu
            have hline : aged 0 (line div inp u) = [] := by
              rcases u with - | u
              · rfl
              · by_contra hne
                rcases exists_takingAt hdiv hne with ⟨v, hv, -⟩
                omega
            show begun (line div inp) u ++ aged 0 (line div inp u) = []
            rw [ih (Nat.le_of_succ_le hu), hline]
            rfl
      rw [Nat.zero_add]
      exact hnone (B + 1) (Nat.le_refl _)
  | succ t ih =>
      rw [Nat.succ_add]
      show begun (line div inp) (t + (B + 1)) ++ aged 0 (line div inp (t + (B + 1))) = _
      rw [ih, aged_line hdiv t]
      rfl

/-- What begins on the line is heard at its other end. -/
theorem heard_line (hdiv : Divides div B) {div' : Word} {B' : Nat} (hdiv' : Divides div' B')
    (htuned : Tuned B' B (10 * B + 1)) {inp' : Nat → In}
    (hwire : ∀ t, (inp' t).rx = (run div inp t).tx.tx) (t : Nat) :
    heard div' inp' (t + (done B' + 3)) = begun (line div inp) t :=
  heard_of_begun hdiv' htuned (spaced_line hdiv) (fun t => (hwire t).trans (tx_run hdiv t)) t

/-- What one port takes, the port at the other end of its line announces, all of it and nothing else, in
order, and each byte after the same time: whenever bytes are offered, and for any two dividers that are
near enough to each other. -/
theorem says_every_byte (div : Word) (B : Nat) (hdiv : Divides div B) (div' : Word) (B' : Nat)
    (hdiv' : Divides div' B') (htuned : Tuned B' B (10 * B + 1)) (inp inp' : Nat → In)
    (hwire : ∀ t, (inp' t).rx = (run div inp t).tx.tx) (t : Nat) :
    heard div' inp' (t + (B + 1) + (done B' + 3)) = taken div inp t := by
  rw [heard_line hdiv hdiv' htuned hwire, begun_line hdiv]

/-- A byte is offered all the time, and changes with every cycle. -/
def counting (t : Nat) : In := { rx := true, txData := BitVec.ofNat 8 t, txStart := true }

/-- A port that only listens to another one. -/
def wired (div : Word) (inp : Nat → In) (t : Nat) : In :=
  { rx := (run div inp t).tx.tx, txData := 0#8, txStart := false }

/-- Two ports with the default parameters. -/
theorem says_every_byte_counting :
    heard (BAUD_DIV 50000000#32 115200#32) (wired (BAUD_DIV 50000000#32 115200#32) counting)
        (9000 + (434 + 1) + (done 434 + 3)) =
      taken (BAUD_DIV 50000000#32 115200#32) counting 9000 :=
  have hdiv : Divides (BAUD_DIV 50000000#32 115200#32) 434 :=
    { toNat := by decide, pos := by decide, le := by decide }
  says_every_byte (BAUD_DIV 50000000#32 115200#32) 434 hdiv (BAUD_DIV 50000000#32 115200#32) 434 hdiv
    (tuned_self (by decide)) counting (wired (BAUD_DIV 50000000#32 115200#32) counting) (fun _ => rfl)
    9000

end Uart
end Board
end RiscvCpu
