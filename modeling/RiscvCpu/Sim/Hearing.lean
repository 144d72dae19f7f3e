import RiscvCpu.Devices.Loopback
import RiscvCpu.Sim.UartDecoder

/-!
# Hearing — the decoder on the line of the transmitter

With divisor 1519 a bit stays on the line for 1520 cycles, as many as the decoder counts.  The decoder
falls in with a frame at its first low sample and takes every bit in the middle: its sample of bit `m`
is due when the frame is `760 + 1520 * m` cycles old.  The bytes it writes are then the bytes the
transmitter has taken, the last of which may still be on the line.
-/

namespace RiscvCpu

namespace UartDecoder

open Serial

/-! ## The decoder in a frame -/

/-- The state of the decoder in bit `m` of a frame. -/
def slotState (m : Nat) : DecoderState :=
  if m = 0 then .start else if m ≤ 8 then .data else .stop

theorem slotState_data {j : Nat} (hj : j < 8) : slotState (j + 1) = .data := by
  simp [slotState, Nat.succ_le_of_lt hj]

theorem slotState_ne_idle (m : Nat) : slotState m ≠ .idle := by
  unfold slotState
  split
  next => simp
  next => split <;> simp

/-- The decoder takes its sample of bit `m` of the frame of `x` in `k` more samples; the data bits
before `m` are in its value, and nothing else. -/
structure Listening (x : BitVec 8) (m k : Nat) (d : UartDecoder) : Prop where
  slot : m ≤ 9
  countdown : d.countdown.toNat = k
  state : d.state = slotState m
  bit : ∀ j, j < 8 → m = j + 1 → d.bit.toNat = j
  value : 0 < m → ∀ i, i < 8 → d.value.getLsbD i = (decide (i + 1 < m) && x.getLsbD i)

variable {x : BitVec 8} {m k : Nat} {d : UartDecoder}

theorem Listening.due (h : Listening x m 0 d) : (d.countdown == 0#32) = true := by
  rw [beq_iff_eq, ← BitVec.toNat_inj, h.countdown]
  rfl

/-- Until the sample is due the decoder only counts, whatever the line does. -/
theorem sample_waiting (h : Listening x m (k + 1) d) (tx : Bool) :
    d.sample tx = .ok ⟨{ d with countdown := d.countdown - 1#32 }, none, false⟩ ∧
      Listening x m k { d with countdown := d.countdown - 1#32 } := by
  have hne : (d.countdown == 0#32) = false := by
    rw [beq_eq_false_iff_ne, ne_eq, ← BitVec.toNat_inj, h.countdown]
    simp
  have hcount : (d.countdown - 1#32).toNat = k := by
    have hlt := d.countdown.isLt
    have hk := h.countdown
    rw [BitVec.toNat_sub, BitVec.toNat_ofNat]
    omega
  refine ⟨?_, ⟨h.slot, hcount, h.state, h.bit, h.value⟩⟩
  have hbusy := slotState_ne_idle m
  rw [← h.state] at hbusy
  unfold sample
  cases hst : d.state with
  | idle => exact absurd hst hbusy
  | start => simp only [hne, Bool.false_eq_true, if_false]
  | data => simp only [hne, Bool.false_eq_true, if_false]
  | stop => simp only [hne, Bool.false_eq_true, if_false]

theorem countdown_restart : (kUartCyclesPerBit - 1#32).toNat = 1519 := rfl

/-- The sample of the start bit. -/
theorem sample_start (h : Listening x 0 0 d) :
    ∃ a, d.sample false = .ok a ∧ a.put = none ∧ Listening x 1 1519 a.decoder := by
  have hzero := h.due
  have hst : d.state = .start := h.state
  unfold sample
  simp only [hst, hzero, if_true, Bool.not_false]
  refine ⟨_, rfl, rfl, ?_⟩
  exact
    { slot := by decide
      countdown := countdown_restart
      state := rfl
      bit := fun j _ hj => by
        show (0#32).toNat = j
        rw [BitVec.toNat_ofNat]
        omega
      value := fun _ i _ => by
        have hnot : ¬ i + 1 < 1 := by omega
        simp [hnot] }

/-- The sample of a data bit. -/
theorem sample_data {j : Nat} (hj : j < 8) (h : Listening x (j + 1) 0 d) :
    ∃ a, d.sample (x.getLsbD j) = .ok a ∧ a.put = none ∧ Listening x (j + 2) 1519 a.decoder := by
  have hzero := h.due
  have hst : d.state = .data := h.state.trans (slotState_data hj)
  have hbit := h.bit j hj rfl
  -- the bits up to this one
  have hvalue : ∀ i, i < 8 →
      (d.value ||| ((BitVec.ofBool (x.getLsbD j)).setWidth 8 <<< d.bit.toNat)).getLsbD i =
        (decide (i + 1 < j + 2) && x.getLsbD i) := by
    intro i hi
    rw [hbit, BitVec.getLsbD_or, bitAt_getLsbD _ hi, h.value (Nat.succ_pos j) i hi]
    rcases Nat.lt_trichotomy i j with hlt | rfl | hgt
    · have hne : i ≠ j := by omega
      have hlt' : i < j + 1 := by omega
      simp [hlt, hlt', hne]
    · simp
    · have hne : i ≠ j := by omega
      have hle : ¬ i < j := by omega
      have hle' : ¬ i < j + 1 := by omega
      simp [hne, hle, hle']
  unfold sample
  simp only [hst, hzero, if_true]
  rcases Nat.lt_or_ge j 7 with hj7 | hj7
  · -- another data bit follows
    have hlast : (d.bit == 7#32) = false := by
      rw [beq_eq_false_iff_ne, ne_eq, ← BitVec.toNat_inj, hbit]
      simp
      omega
    simp only [hlast, Bool.false_eq_true, if_false]
    refine ⟨_, rfl, rfl, ?_⟩
    exact
      { slot := by omega
        countdown := countdown_restart
        state := (slotState_data (show j + 1 < 8 by omega)).symm
        bit := fun i _ hi => by
          show (d.bit + 1#32).toNat = i
          rw [BitVec.toNat_add, hbit, BitVec.toNat_ofNat]
          omega
        value := fun _ => hvalue }
  · -- the stop bit follows
    have hj7' : j = 7 := by omega
    subst hj7'
    have hlast : (d.bit == 7#32) = true := by
      rw [beq_iff_eq, ← BitVec.toNat_inj, hbit]
      rfl
    simp only [hlast, if_true]
    refine ⟨_, rfl, rfl, ?_⟩
    exact
      { slot := by decide
        countdown := countdown_restart
        state := rfl
        bit := fun i hi hij => by omega
        value := fun _ => hvalue }

/-- The sample of the stop bit writes the byte. -/
theorem sample_stop (h : Listening x 9 0 d) :
    ∃ a, d.sample true = .ok a ∧ a.put = some x ∧ a.decoder.state = .idle := by
  have hzero := h.due
  have hst : d.state = .stop := h.state
  have hvalue : d.value = x := by
    apply BitVec.eq_of_getLsbD_eq
    intro i hi
    have hlt : i + 1 < 9 := by omega
    rw [h.value (by decide) i hi, decide_eq_true hlt, Bool.true_and]
  unfold sample
  simp only [hst, hzero, if_true, Bool.not_true, Bool.false_eq_true, if_false]
  refine ⟨_, rfl, congrArg some hvalue, ?_⟩
  unfold emit
  split <;> rfl

theorem sample_high (h : d.state = .idle) : d.sample true = .ok ⟨d, none, false⟩ := by
  simp [sample, h]

/-- The first low sample. -/
theorem sample_low (h : d.state = .idle) :
    ∃ a, d.sample false = .ok a ∧ a.put = none ∧ Listening x 0 759 a.decoder := by
  unfold sample
  simp only [h, Bool.not_false, if_true]
  refine ⟨_, rfl, rfl, ?_⟩
  exact
    { slot := Nat.zero_le _
      countdown := rfl
      state := rfl
      bit := fun j _ hj => by omega
      value := fun hpos => absurd hpos (Nat.lt_irrefl 0) }

/-- The decoder before its sample of a frame that is `age` cycles old and not written yet. -/
def Catching (x : BitVec 8) (age : Nat) (d : UartDecoder) : Prop :=
  (age = 0 ∧ d.state = .idle) ∨ ∃ m k, age + k = 760 + 1520 * m ∧ Listening x m k d

/-- One sample of a frame: the decoder goes on, or it is in the middle of the stop bit and writes the
byte. -/
theorem catching_next {age : Nat} (h : Catching x age d) :
    ∃ a, d.sample (lineAt 1520 x age) = .ok a ∧
      ((a.put = none ∧ Catching x (age + 1) a.decoder) ∨
        (age = 14440 ∧ a.put = some x ∧ a.decoder.state = .idle)) := by
  rcases h with ⟨rfl, hidle⟩ | ⟨m, k, hage, hlisten⟩
  · rcases @sample_low x d hidle with ⟨a, hsample, hput, hnext⟩
    exact ⟨a, hsample, Or.inl ⟨hput, Or.inr ⟨0, 759, rfl, hnext⟩⟩⟩
  · rcases k with - | k
    · -- the sample is due, in the middle of bit `m`
      have hline : lineAt 1520 x age = frameBit x m := by
        rw [show age = m * 1520 + 760 by omega, lineAt_slot x m (by decide)]
      rw [hline]
      have hm := hlisten.slot
      rcases Nat.lt_or_ge m 9 with hlt | hge
      · have hslot : ∃ a, d.sample (frameBit x m) = .ok a ∧ a.put = none ∧
            Listening x (m + 1) 1519 a.decoder := by
          rcases m with - | j
          · exact sample_start hlisten
          · rw [frameBit_data x (by omega)]
            exact sample_data (by omega) hlisten
        rcases hslot with ⟨a, hsample, hput, hnext⟩
        exact ⟨a, hsample, Or.inl ⟨hput, Or.inr ⟨m + 1, 1519, by omega, hnext⟩⟩⟩
      · have hm9 : m = 9 := Nat.le_antisymm hm hge
        subst hm9
        rw [frameBit_stop x (by decide)]
        rcases sample_stop hlisten with ⟨a, hsample, hput, hidle⟩
        exact ⟨a, hsample, Or.inr ⟨by omega, hput, hidle⟩⟩
    · rcases sample_waiting hlisten (lineAt 1520 x age) with ⟨hsample, hnext⟩
      exact ⟨_, hsample, Or.inl ⟨rfl, Or.inr ⟨m, k, by omega, hnext⟩⟩⟩

/-- A byte that is not written yet is at most in the middle of its stop bit. -/
theorem Catching.age_le {age : Nat} (h : Catching x age d) : age ≤ 14440 := by
  rcases h with ⟨rfl, -⟩ | ⟨m, k, hage, hlisten⟩
  · exact Nat.zero_le _
  · have hm := hlisten.slot
    omega

end UartDecoder

namespace Uart

open Serial
open UartDecoder

variable {r : Regs} {p : In} {x : BitVec 8} {age : Nat}

/-! ## The transmitter in a frame -/

/-- The frame of `x` is `age` cycles old, and its stop bit is not over. -/
def OnLine (x : BitVec 8) (age : Nat) (r : Regs) : Prop :=
  age < 15200 ∧ ∃ q c, age = q * (1519 + 1) + c ∧ Sending 1519 x q c r

/-- Between two frames: the transmitter is idle and the line is high. -/
structure Resting (r : Regs) : Prop where
  state : r.txr.state = .idle
  tx : r.txr.tx = true

/-- The transmitter has a byte to send or is sending one. -/
def Busy (r : Regs) : Prop := r.txr.state ≠ .idle ∨ r.txr.count ≠ 0#4

theorem busy_of_onLine (h : OnLine x age r) : Busy r := by
  rcases h with ⟨hage, q, c, hsum, hsend⟩
  refine Or.inl ?_
  rw [hsend.state, ne_eq, txSlotState_idle_iff]
  omega

/-- A frame on the line, one cycle on: it is older, or its stop bit is over. -/
theorem onLine_next (hc : Configured 1519 r) (hreset : softResetReq p = false) (h : OnLine x age r) :
    txPop r = false ∧ r.txr.tx = lineAt 1520 x age ∧
      (OnLine x (age + 1) (next r p) ∨
        (age = 15199 ∧ Resting (next r p) ∧ (next r p).line.baudCnt.toNat = 0)) := by
  rcases h with ⟨hage, q, c, hsum, hsend⟩
  have hq : q ≤ 9 := by omega
  rcases @sending_step 1519 r p x q c hc hreset hsend (Or.inl hq) with ⟨hpop, q', c', hnext, hsend'⟩
  have hline := line_of_sending hsend
  rw [← hsum] at hline
  refine ⟨hpop, hline, ?_⟩
  rcases Nat.lt_or_ge (age + 1) 15200 with hlt | hge
  · exact Or.inl ⟨hlt, q', c', by omega, hsend'⟩
  · -- the transmitter enters its tenth slot
    have hphase := hsend'.phase
    have hq' : q' = 10 := by omega
    have hc' : c' = 0 := by omega
    subst hq' hc'
    exact Or.inr ⟨by omega, ⟨hsend'.state, hsend'.level⟩, hsend'.count⟩

/-- A transmitter without a byte rests, whatever is configured and even through a soft reset. -/
theorem resting_of_not_pop (h : Resting r) (hpop : txPop r = false) : Resting (next r p) := by
  have hstep : nextTxState r = (.idle, r.txr.bitIdx, true) := by simp [nextTxState, h.state, hpop]
  constructor
  · cases hreset : softResetReq p <;> simp [next, nextTx, hreset, hstep]
  · cases hreset : softResetReq p <;> simp [next, nextTx, hreset, hstep]

theorem onLine_of_pop (hc : Configured 1519 r) (hreset : softResetReq p = false) (h : Resting r)
    (hpop : txPop r = true) : OnLine (next r p).txr.shift 0 (next r p) :=
  ⟨by decide, 0, 0, rfl, sending_of_pop hc hreset h.state hpop⟩

/-- A resting transmitter with a byte to send and a counter below the divisor goes on counting. -/
theorem resting_count (hc : Configured 1519 r) (hreset : softResetReq p = false) (h : Resting r)
    (hcount : r.txr.count ≠ 0#4) (hpop : txPop r = false) :
    r.line.baudCnt.toNat < 1519 ∧ (next r p).line.baudCnt.toNat = r.line.baudCnt.toNat + 1 := by
  have hlt : r.line.baudCnt.toNat < 1519 := by
    rw [txPop, hc.en, txTick_eq hc, h.state, bne_iff_ne.mpr hcount] at hpop
    simpa using hpop
  have hnext := @next_baudCnt 1519 r p hc hreset
  rw [if_neg (Nat.not_le_of_lt hlt)] at hnext
  exact ⟨hlt, hnext⟩

/-! ## Transmitter and decoder -/

/-- The bytes taken by the transmitter and the bytes written by the decoder: equal, or one apart while
a byte is on the line and not written yet.  `n` bounds the cycles to the next byte written. -/
inductive Heard (r : Regs) (d : UartDecoder) (sent out : List (BitVec 8)) (n : Nat) : Prop
  | resting (hrest : Resting r) (hd : d.state = .idle) (hsame : sent = out)
      (hn : n = 14442 + (1519 - r.line.baudCnt.toNat))
  | pending (x : BitVec 8) (age : Nat) (hline : OnLine x age r) (hd : Catching x age d)
      (hsame : sent = out ++ [x]) (hn : n + age = 14441)
  | written (x : BitVec 8) (age : Nat) (hline : OnLine x age r) (hage : 14441 ≤ age)
      (hd : d.state = .idle) (hsame : sent = out) (hn : n + age = 31162)

variable {d : UartDecoder} {sent out : List (BitVec 8)} {n : Nat}

theorem Heard.rank_lt (h : Heard r d sent out n) : n < 20000 := by
  cases h with
  | resting _ _ _ hn => omega
  | pending _ _ _ _ _ hn => omega
  | written _ _ _ hage _ _ hn => omega

/-- What the decoder has written is a beginning of what the transmitter has taken. -/
theorem Heard.begins (h : Heard r d sent out n) : out <+: sent := by
  cases h with
  | resting _ _ hsame _ => exact ⟨[], by rw [List.append_nil, hsame]⟩
  | pending x _ _ _ hsame _ => exact ⟨[x], hsame.symm⟩
  | written _ _ _ _ _ hsame _ => exact ⟨[], by rw [List.append_nil, hsame]⟩

/-- From the second half of the stop bit on the line is high. -/
theorem line_high (hage : 14441 ≤ age) : lineAt 1520 x age = true := by
  rw [← lineBefore_zero]
  exact lineBefore_stop x (by decide) (by omega)

/-- One cycle: the decoder takes the level without an error, and it writes a byte, comes nearer to
the next one, or has written everything. -/
theorem heard_next (hmode : Busy r → Configured 1519 r ∧ softResetReq p = false)
    (h : Heard r d sent out n) :
    ∃ a n', d.sample r.txr.tx = .ok a ∧
      Heard (next r p) a.decoder (sent ++ taken r p) (out ++ a.put.toList) n' ∧
      (a.put ≠ none ∨ n' < n ∨ (r.txr.count = 0#4 ∧ sent = out)) := by
  cases h with
  | resting hrest hd hsame hn =>
      rw [hrest.tx]
      refine ⟨⟨d, none, false⟩, ?_⟩
      cases hpop : txPop r with
      | true =>
          -- a new frame starts
          have hcount : r.txr.count ≠ 0#4 := by
            intro hzero
            simp [txPop, hzero] at hpop
          rcases hmode (Or.inr hcount) with ⟨hc, hreset⟩
          refine ⟨14441, sample_high hd, ?_, Or.inr (Or.inl (by omega))⟩
          exact .pending _ 0 (onLine_of_pop hc hreset hrest hpop) (Or.inl ⟨rfl, hd⟩)
            (by simp [taken, hpop, hsame]) rfl
      | false =>
          have hrest' := @resting_of_not_pop r p hrest hpop
          refine ⟨_, sample_high hd, .resting hrest' hd (by simp [taken, hpop, hsame]) rfl, Or.inr ?_⟩
          by_cases hcount : r.txr.count = 0#4
          · exact Or.inr ⟨hcount, hsame⟩
          · rcases hmode (Or.inr hcount) with ⟨hc, hreset⟩
            rcases @resting_count r p hc hreset hrest hcount hpop with ⟨hlt, hnext⟩
            exact Or.inl (by omega)
  | pending x age hline hd hsame hn =>
      rcases hmode (busy_of_onLine hline) with ⟨hc, hreset⟩
      rcases @onLine_next r p x age hc hreset hline with ⟨hpop, htx, hnext⟩
      have hnone : taken r p = [] := by simp [taken, hpop]
      rw [htx, hnone, List.append_nil]
      rcases catching_next hd with ⟨a, hsample, ⟨hput, hd'⟩ | ⟨hage, hput, hidle⟩⟩
      · have hle := hd'.age_le
        have hline' : OnLine x (age + 1) (next r p) := hnext.resolve_right (by omega)
        refine ⟨a, n - 1, hsample, .pending x (age + 1) hline' hd' ?_ (by omega), ?_⟩
        · simp [hput, hsame]
        · exact Or.inr (Or.inl (by omega))
      · have hline' : OnLine x (age + 1) (next r p) := hnext.resolve_right (by omega)
        refine ⟨a, 31162 - (age + 1), hsample, ?_, Or.inl (by simp [hput])⟩
        exact .written x (age + 1) hline' (by omega) hidle (by simp [hput, hsame]) (by omega)
  | written x age hline hage hd hsame hn =>
      rcases hmode (busy_of_onLine hline) with ⟨hc, hreset⟩
      rcases @onLine_next r p x age hc hreset hline with ⟨hpop, htx, hnext⟩
      have hnone : taken r p = [] := by simp [taken, hpop]
      rw [htx, hnone, List.append_nil, line_high hage]
      rcases hnext with hline' | ⟨hage', hrest, hcount⟩
      · refine ⟨_, n - 1, sample_high hd, ?_, Or.inr (Or.inl ?_)⟩
        · have hlt := hline'.1
          exact .written x (age + 1) hline' (by omega) hd (by simp [hsame]) (by omega)
        · have hlt := hline.1
          omega
      · refine ⟨_, 15961, sample_high hd, ?_, Or.inr (Or.inl (by omega))⟩
        exact .resting hrest hd (by simp [hsame]) (by omega)

end Uart

end RiscvCpu
