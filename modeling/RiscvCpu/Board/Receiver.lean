import RiscvCpu.Board.Uart
import RiscvCpu.Lib.Clocked
import RiscvCpu.Lib.Frames
import Mathlib.Tactic.IntervalCases

/-!
# Receiver — what the board's serial port hears

The receiver counts `BAUD_DIV` cycles for a bit, from half a bit behind the falling edge of the start bit
on.  The sender may count a little more or less: as long as its bits do not run away from the samples, and
its frames leave the receiver the time to come back to rest, every byte is heard once.  In slot `m` of the
receiver, with its counter at `c`, the frame seen through the synchroniser is `m * B + c - B / 2` cycles
old.
-/

namespace RiscvCpu
namespace Board
namespace Uart

open Serial

variable {div : Word} {B P gap : Nat}

/-- A divider that the counters can reach. -/
structure Divides (div : Word) (B : Nat) : Prop where
  toNat : div.toNat = B
  pos : 0 < B
  le : B ≤ 8192

/-- The age of a frame at which the receiver is done with it. -/
def done (B : Nat) : Nat := 10 * B - B / 2

/-- Bits of `P` cycles stay with the samples up to the last data bit, and frames do not begin before the
receiver is done. -/
structure Tuned (B P gap : Nat) : Prop where
  early : 8 * P ≤ 8 * B + (B - 1 - B / 2)
  late : 8 * B + (B - 1 - B / 2) < 9 * P
  stop : 9 * P < gap
  rest : done B < gap

theorem Tuned.pos (h : Tuned B P gap) : 0 < P := by
  have hlate := h.late
  omega

/-- The sender counts the same divider, and stays one cycle longer in its stop bit. -/
theorem tuned_self (hpos : 0 < B) : Tuned B B (10 * B + 1) := by
  refine { early := ?_, late := ?_, stop := ?_, rest := ?_ }
  · omega
  · omega
  · omega
  · rw [done]
    omega

/-- Sample `m` finds bit `m` on the line. -/
theorem lineAt_sample (h : Tuned B P gap) (x : BitVec 8) {m age : Nat} (hpos : 1 ≤ m) (hm : m ≤ 8)
    (hage : age = m * B + (B - 1 - B / 2)) : lineAt P x age = frameBit x m := by
  have hearly := h.early
  have hlate := h.late
  have hbounds : m * P ≤ age ∧ age < m * P + P := by
    interval_cases m <;> omega
  have hsum : age = m * P + (age - m * P) := by omega
  rw [hsum]
  exact lineAt_slot x m (by omega)

/-! ## Counters -/

theorem last_eq (hdiv : Divides div B) {cnt : BitVec 13} {c : Nat} (h : cnt.toNat = c) :
    last div cnt = decide (c + 1 = B) := by
  have htoNat := hdiv.toNat
  have hpos := hdiv.pos
  have hlt := cnt.isLt
  have hB := hdiv.le
  rw [last, Bool.eq_iff_iff, beq_iff_eq, decide_eq_true_iff, ← BitVec.toNat_inj,
    BitVec.toNat_setWidth, BitVec.toNat_sub, BitVec.toNat_ofNat]
  omega

theorem cnt_succ (hdiv : Divides div B) {cnt : BitVec 13} {c : Nat} (h : cnt.toNat = c)
    (hlt : c + 1 < B) : (cnt + 1#13).toNat = c + 1 := by
  have hB := hdiv.le
  rw [BitVec.toNat_add, BitVec.toNat_ofNat]
  omega

theorem half_div (hdiv : Divides div B) : ((div >>> 1).setWidth 13).toNat = B / 2 := by
  have hB := hdiv.le
  rw [BitVec.toNat_setWidth, BitVec.toNat_ushiftRight, hdiv.toNat, Nat.shiftRight_eq_div_pow,
    Nat.pow_one]
  omega

/-! ## The receiver in a frame -/

/-- The state of the receiver in slot `m`. -/
def slotState (m : Nat) : BitVec 2 := if m = 0 then 1#2 else if m ≤ 8 then 2#2 else 3#2

/-- The receiver is in slot `m` of the frame of `x` and its counter stands at `c`: the data bits before
slot `m` are at the top of its shift register. -/
structure Receiving (B : Nat) (x : BitVec 8) (m c : Nat) (r : Rx) : Prop where
  slot : m ≤ 9
  phase : c < B
  count : r.rxCnt.toNat = c
  state : r.rxState = slotState m
  bit : m ≤ 8 → r.rxBitCnt.toNat = m - 1
  bits : ∀ i, i + 1 < m → r.rxShift.getLsbD (9 - m + i) = x.getLsbD i

variable {x : BitVec 8} {m c : Nat} {r : Rx} {s : Sync}

/-- Before the end of a slot the receiver only counts. -/
theorem nextRx_count (hdiv : Divides div B) (h : Receiving B x m c r) (hc : c + 1 < B) :
    nextRx div s r = { r with rxCnt := r.rxCnt + 1#13, rxReadyPulse := false } := by
  have hlast : last div r.rxCnt = false := by
    rw [last_eq hdiv h.count]
    simpa using hc.ne
  have hstate := h.state
  rw [slotState] at hstate
  unfold nextRx
  split_ifs at hstate
  · simp [hstate, hlast]
  · simp [hstate, hlast]
  · simp [hstate, hlast]

theorem receiving_count (hdiv : Divides div B) (h : Receiving B x m c r) (hc : c + 1 < B) :
    Receiving B x m (c + 1) (nextRx div s r) := by
  rw [nextRx_count hdiv h hc]
  exact
    { slot := h.slot
      phase := hc
      count := cnt_succ hdiv h.count hc
      state := h.state
      bit := h.bit
      bits := h.bits }

theorem shift_getLsbD (v : Bool) (y : BitVec 8) {i : Nat} (hi : i < 8) :
    (BitVec.ofBool v ++ y.extractLsb' 1 7).getLsbD i = if i = 7 then v else y.getLsbD (i + 1) := by
  rw [BitVec.getLsbD_append, BitVec.getLsbD_ofBool, BitVec.getLsbD_extractLsb']
  rcases Nat.lt_or_ge i 7 with hlt | hge
  · have hne : i ≠ 7 := by omega
    simp [hlt, hne, Nat.add_comm]
  · have heq : i = 7 := by omega
    subst heq
    simp

/-- At the end of a slot the receiver goes to the next one, with the bit that it sees. -/
theorem receiving_last (hdiv : Divides div B) (h : Receiving B x m c r) (hc : c + 1 = B) (hm : m ≤ 8)
    (hsee : 1 ≤ m → s.rxD2 = frameBit x m) :
    Receiving B x (m + 1) 0 (nextRx div s r) ∧ (nextRx div s r).rxReadyPulse = false := by
  have hlast : last div r.rxCnt = true := by
    rw [last_eq hdiv h.count]
    simpa using hc
  rcases Nat.eq_zero_or_pos m with rfl | hpos
  · -- half of the start bit is over
    have hstate : r.rxState = 1#2 := h.state
    have hnext : nextRx div s r =
        { r with rxState := 2#2, rxCnt := 0#13, rxReadyPulse := false } := by
      simp [nextRx, hstate, hlast]
    rw [hnext]
    refine ⟨?_, rfl⟩
    exact
      { slot := by decide
        phase := hdiv.pos
        count := rfl
        state := rfl
        bit := fun _ => h.bit (by decide)
        bits := fun i hi => by omega }
  · have hstate : r.rxState = 2#2 := by
      have hne : m ≠ 0 := by omega
      rw [h.state, slotState, if_neg hne, if_pos hm]
    have hbit := h.bit hm
    have hseven : (r.rxBitCnt == 7#4) = decide (m = 8) := by
      rw [Bool.eq_iff_iff, beq_iff_eq, decide_eq_true_iff, ← BitVec.toNat_inj, hbit,
        BitVec.toNat_ofNat]
      omega
    have hnext : nextRx div s r =
        { r with
          rxState := if m = 8 then 3#2 else 2#2
          rxCnt := 0#13
          rxBitCnt := if m = 8 then r.rxBitCnt else r.rxBitCnt + 1#4
          rxShift := BitVec.ofBool s.rxD2 ++ r.rxShift.extractLsb' 1 7
          rxReadyPulse := false } := by
      simp [nextRx, hstate, hlast, hseven]
    rw [hnext]
    refine ⟨?_, rfl⟩
    refine
      { slot := by omega
        phase := hdiv.pos
        count := rfl
        state := ?_
        bit := ?_
        bits := ?_ }
    · have hne : m + 1 ≠ 0 := by omega
      rw [slotState, if_neg hne]
      rcases Nat.lt_or_ge m 8 with hlt | hge
      · have hne8 : m ≠ 8 := by omega
        simp only [hne8, if_false, if_pos (Nat.succ_le_of_lt hlt)]
      · have heq : m = 8 := by omega
        subst heq
        rfl
    · intro hm8
      have hne : m ≠ 8 := by omega
      show (if m = 8 then r.rxBitCnt else r.rxBitCnt + 1#4).toNat = m + 1 - 1
      rw [if_neg hne, BitVec.toNat_add, hbit, BitVec.toNat_ofNat]
      omega
    · intro i hi
      rw [shift_getLsbD _ _ (by omega)]
      rcases Nat.lt_or_ge (i + 1) m with hlt | hge
      · -- the bits before move down
        rw [if_neg (by omega), show 9 - (m + 1) + i + 1 = 9 - m + i by omega]
        exact h.bits i hlt
      · have him : m = i + 1 := by omega
        subst him
        rw [if_pos (by omega), hsee hpos, frameBit_data x (by omega)]

/-- At the end of slot 9 the byte is there. -/
theorem receiving_end (hdiv : Divides div B) (h : Receiving B x 9 c r) (hc : c + 1 = B) :
    (nextRx div s r).rxState = 0#2 ∧ (nextRx div s r).rxData = x ∧
      (nextRx div s r).rxReadyPulse = true := by
  have hlast : last div r.rxCnt = true := by
    rw [last_eq hdiv h.count]
    simpa using hc
  have hstate : r.rxState = 3#2 := h.state
  have hshift : r.rxShift = x := by
    apply BitVec.eq_of_getLsbD_eq
    intro i hi
    have hbit := h.bits i (by omega)
    rwa [Nat.sub_self, Nat.zero_add] at hbit
  have hnext : nextRx div s r =
      { r with rxState := 0#2, rxCnt := 0#13, rxData := r.rxShift, rxReadyPulse := true } := by
    simp [nextRx, hstate, hlast]
  rw [hnext]
  exact ⟨rfl, hshift, rfl⟩

/-- A falling edge starts the receiver half a bit into its first slot. -/
theorem receiving_start (hdiv : Divides div B) (x : BitVec 8) (h : r.rxState = 0#2)
    (hedge : rxNegedge s = true) :
    Receiving B x 0 (B / 2) (nextRx div s r) ∧ (nextRx div s r).rxReadyPulse = false := by
  have hnext : nextRx div s r =
      { r with
        rxState := 1#2, rxCnt := (div >>> 1).setWidth 13, rxBitCnt := 0#4, rxReadyPulse := false } := by
    simp [nextRx, h, hedge]
  have hpos := hdiv.pos
  rw [hnext]
  refine ⟨?_, rfl⟩
  exact
    { slot := by decide
      phase := by omega
      count := half_div hdiv
      state := rfl
      bit := fun _ => rfl
      bits := fun i hi => by omega }

theorem nextRx_rest (h : r.rxState = 0#2) (hedge : rxNegedge s = false) :
    nextRx div s r = { r with rxReadyPulse := false } := by
  simp [nextRx, h, hedge]

/-! ## The receiver on a line -/

/-- Where the receiver is when it sees `o`, three cycles late. -/
inductive Tracks (B : Nat) : Option (Frame 8) → Rx → Prop
  | rest {o : Option (Frame 8)} {r : Rx} (hstate : r.rxState = 0#2)
      (hdone : ∀ f, o = some f → done B ≤ f.age) : Tracks B o r
  | frame {f : Frame 8} {m c : Nat} {r : Rx} (hage : f.age + B / 2 = m * B + c)
      (hrec : Receiving B f.byte m c r) : Tracks B (some f) r

/-- The pulse comes with the byte of the frame that the receiver is done with. -/
structure Strikes (B : Nat) (o : Option (Frame 8)) (r : Rx) : Prop where
  pulse : r.rxReadyPulse = o.any fun f => f.age == done B
  data : ∀ f, o = some f → f.age = done B → r.rxData = f.byte

theorem strikes_of_none {o : Option (Frame 8)} (hpulse : r.rxReadyPulse = false)
    (hage : ∀ f, o = some f → f.age ≠ done B) : Strikes B o r := by
  refine { pulse := ?_, data := fun f hf heq => absurd heq (hage f hf) }
  rw [hpulse]
  cases o with
  | none => rfl
  | some f => simpa using (hage f rfl)

/-- One cycle. -/
theorem tracks_next (hdiv : Divides div B) (htuned : Tuned B P gap) {o o' : Option (Frame 8)}
    (hgoes : Goes gap o o') (hd2 : s.rxD2 = level P o) (hd1 : s.rxD1 = level P o')
    (h : Tracks B o r) : Tracks B o' (nextRx div s r) ∧ Strikes B o' (nextRx div s r) := by
  have hpos := hdiv.pos
  have hB : done B + B / 2 = 10 * B := by
    rw [done]
    omega
  cases h with
  | rest hstate hdone =>
      -- a new frame is met at its falling edge
      have hnew : ∀ y, o' = some ⟨y, 0⟩ → Goes gap o (some ⟨y, 0⟩) →
          Tracks B o' (nextRx div s r) ∧ Strikes B o' (nextRx div s r) := by
        intro y ho' hgoes'
        rcases level_fall htuned.pos htuned.stop hgoes' with ⟨hhigh, hlow⟩
        have hedge : rxNegedge s = true := by
          rw [rxNegedge, hd2, hd1, ho', hhigh, hlow]
          rfl
        rcases receiving_start hdiv y hstate hedge with ⟨hrec, hpulse⟩
        rw [ho']
        refine ⟨.frame (f := ⟨y, 0⟩) (by show 0 + B / 2 = 0 * B + B / 2; omega) hrec,
          strikes_of_none hpulse ?_⟩
        intro f hf
        cases hf
        show 0 ≠ done B
        omega
      cases hgoes with
      | silent =>
          have hedge : rxNegedge s = false := by
            rw [rxNegedge, hd1]
            exact Bool.and_false _
          rw [nextRx_rest hstate hedge]
          refine ⟨.rest hstate ?_, strikes_of_none rfl ?_⟩
          · intro f hf
            cases hf
          · intro f hf
            cases hf
      | first y => exact hnew y rfl (.first y)
      | older f =>
          have hage := hdone f rfl
          have hearly := htuned.early
          have hedge : rxNegedge s = false := by
            rw [rxNegedge, hd2, hd1]
            cases hlevel : level P (some f) with
            | false => rfl
            | true =>
                have hrise := lineAt_rise f.byte (show 8 * P ≤ f.age by omega) hlevel
                rw [level, hrise]
                rfl
          rw [nextRx_rest hstate hedge]
          refine ⟨.rest hstate ?_, strikes_of_none rfl ?_⟩
          · intro g hg
            cases hg
            exact Nat.le_succ_of_le hage
          · intro g hg
            cases hg
            exact (Nat.lt_succ_of_le hage).ne'
      | again f y hage => exact hnew y rfl (.again f y hage)
  | @frame f m c _ hage hrec =>
      have hslot := hrec.slot
      have hphase := hrec.phase
      have hrest := htuned.rest
      have hmB : m * B ≤ 9 * B := Nat.mul_le_mul_right B hslot
      cases hgoes with
      | again _ y hgap => omega
      | older =>
          rcases Nat.lt_or_ge (c + 1) B with hlt | hge
          · have hpulse : (nextRx div s r).rxReadyPulse = false := by rw [nextRx_count hdiv hrec hlt]
            refine ⟨.frame (f := ⟨f.byte, f.age + 1⟩) (m := m) (c := c + 1)
              (by show f.age + 1 + B / 2 = m * B + (c + 1); omega)
              (receiving_count hdiv hrec hlt), strikes_of_none hpulse ?_⟩
            intro g hg
            cases hg
            show f.age + 1 ≠ done B
            omega
          · have hc : c + 1 = B := by omega
            rcases Nat.lt_or_ge m 9 with hm | hm
            · -- the sample of slot `m`
              have hsee : 1 ≤ m → s.rxD2 = frameBit f.byte m := by
                intro hm1
                rw [hd2]
                exact lineAt_sample htuned f.byte hm1 (by omega) (by omega)
              rcases receiving_last hdiv hrec hc (by omega) hsee with ⟨hnext, hpulse⟩
              have hsucc : (m + 1) * B = m * B + B := Nat.succ_mul m B
              refine ⟨.frame (f := ⟨f.byte, f.age + 1⟩) (m := m + 1) (c := 0)
                (by show f.age + 1 + B / 2 = (m + 1) * B + 0; omega) hnext,
                strikes_of_none hpulse ?_⟩
              intro g hg
              cases hg
              have hm8 : m * B ≤ 8 * B := Nat.mul_le_mul_right B (by omega)
              show f.age + 1 ≠ done B
              omega
            · have hm9 : m = 9 := by omega
              subst hm9
              rcases receiving_end (s := s) hdiv hrec hc with ⟨hstate, hdata, hpulse⟩
              have hdone : f.age + 1 = done B := by omega
              refine ⟨.rest hstate ?_, { pulse := ?_, data := ?_ }⟩
              · intro g hg
                cases hg
                exact hdone.ge
              · rw [hpulse]
                simp [hdone]
              · intro g hg _
                cases hg
                exact hdata

/-! ## Runs -/

/-- The state in cycle `t` after reset. -/
def run (div : Word) (inp : Nat → In) (t : Nat) : Regs := Clocked.run (next div) reset inp t

/-- The bytes that the receiver has announced before cycle `t`. -/
def heard (div : Word) (inp : Nat → In) : Nat → List (BitVec 8) :=
  upTo fun k => if (run div inp k).rx.rxReadyPulse then [(run div inp k).rx.rxData] else []

variable {line : Nat → Option (Frame 8)} {inp : Nat → In}

theorem sync_run (hrx : ∀ t, (inp t).rx = level P (line t)) (t : Nat) :
    (run div inp t).sync =
      ⟨level P (delay 1 line t), level P (delay 2 line t), level P (delay 3 line t)⟩ := by
  induction t with
  | zero =>
      rw [delay_start, delay_start, delay_start]
      rfl
  | succ t ih =>
      have hnext : (run div inp (t + 1)).sync =
          ⟨(inp t).rx, (run div inp t).sync.rxD0, (run div inp t).sync.rxD1⟩ := rfl
      rw [hnext, ih, hrx, delay_succ, delay_succ, delay_succ, delay_zero]

theorem tracks_run (hdiv : Divides div B) (htuned : Tuned B P gap) (hline : Spaced gap line)
    (hrx : ∀ t, (inp t).rx = level P (line t)) (t : Nat) :
    Tracks B (delay 3 line t) (run div inp t).rx ∧ Strikes B (delay 3 line t) (run div inp t).rx := by
  induction t with
  | zero =>
      rw [delay_start]
      refine ⟨.rest rfl ?_, strikes_of_none rfl ?_⟩
      · intro f hf
        cases hf
      · intro f hf
        cases hf
  | succ t ih =>
      have hsync := @sync_run div P line inp hrx t
      have hgoes := (spaced_delay hline 3).goes t
      have hd1 : (run div inp t).sync.rxD1 = level P (delay 3 line (t + 1)) := by
        rw [hsync, delay_succ]
      have hd2 : (run div inp t).sync.rxD2 = level P (delay 3 line t) := by rw [hsync]
      exact tracks_next hdiv htuned hgoes hd2 hd1 ih.1

/-- The receiver announces the frames that it is done with. -/
theorem heard_delay (hdiv : Divides div B) (htuned : Tuned B P gap) (hline : Spaced gap line)
    (hrx : ∀ t, (inp t).rx = level P (line t)) (t : Nat) :
    heard div inp t = passed (done B) (delay 3 line) t := by
  induction t with
  | zero => rfl
  | succ t ih =>
      have hstrikes := (tracks_run hdiv htuned hline hrx t).2
      have hout : (if (run div inp t).rx.rxReadyPulse then [(run div inp t).rx.rxData] else []) =
          aged (done B) (delay 3 line t) := by
        cases ho : delay 3 line t with
        | none =>
            have hpulse := hstrikes.pulse
            rw [ho] at hpulse
            rw [hpulse]
            rfl
        | some f =>
            have hpulse := hstrikes.pulse
            rw [ho] at hpulse
            by_cases hage : f.age = done B
            · have hdata := hstrikes.data f ho hage
              simp [hpulse, hage, hdata, aged]
            · simp [hpulse, hage, aged]
      show heard div inp t ++ _ = passed (done B) (delay 3 line) t ++ _
      rw [ih]
      exact congrArg (passed (done B) (delay 3 line) t ++ ·) hout

/-- Every byte on the line is heard once, in order, and at one time after the beginning of its frame: for
every divider that the counters can reach, and every sender that is tuned to it. -/
theorem heard_of_begun (hdiv : Divides div B) (htuned : Tuned B P gap) (hline : Spaced gap line)
    (hrx : ∀ t, (inp t).rx = level P (line t)) (t : Nat) :
    heard div inp (t + (done B + 3)) = begun line t := by
  calc heard div inp (t + (done B + 3))
      = passed (done B) (delay 3 line) (t + done B + 3) := by
        rw [← Nat.add_assoc, heard_delay hdiv htuned hline hrx]
    _ = passed (done B) line (t + done B) := passed_delay (done B) 3 (t + done B)
    _ = begun line t := passed_add hline htuned.rest t

end Uart
end Board
end RiscvCpu
