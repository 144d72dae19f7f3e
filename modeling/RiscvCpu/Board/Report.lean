import RiscvCpu.Board.Command

/-!
# Report — the board answers the host

A report that is asked for is kept in the status buffer until its last byte is with the transmitter.  The
controller offers a byte when the transmitter is free, and takes the next one when the offer is a cycle
old; the transmitter takes the byte in the first cycle of the offer and is busy in the second.  So every
byte is taken once, and the time to the end of the report is known in every state.
-/

namespace RiscvCpu
namespace Board

open Serial

namespace Uart

variable {div : Word} {B : Nat} {o : Option (Frame 8)} {r : Tx} {d : BitVec 8} {start : Bool}

/-- The cycles for which the transmitter is busy from now on, if it takes nothing. -/
def busyFor (B : Nat) (r : Tx) : Nat :=
  if r.txState = 1#4 then (9 - r.txBitCnt.toNat) * B + (B - r.txCnt.toNat) + 1
  else if r.txBusy then 1 else 0

theorem busyFor_sending {x : BitVec 8} {q c : Nat} (h : Sending B x q c r) :
    busyFor B r = (9 - q) * B + (B - c) + 1 := by
  rw [busyFor, if_pos h.state, h.bit, h.count]

theorem busyFor_taking (hdiv : Divides div B) (h : r.txState = 0#4) :
    busyFor B (nextTx div r d true) = 10 * B + 1 := by
  rw [busyFor_sending (sending_take hdiv h).1]
  omega

/-- A transmitter that is not busy can take a byte. -/
theorem free_of_not_busy (h : Emits B o r) (hbusy : r.txBusy = false) : r.txState = 0#4 := by
  cases h with
  | rest hstate _ _ => exact hstate
  | wait hsend _ _ =>
      rw [hsend.busy] at hbusy
      cases hbusy
  | frame hsend _ =>
      rw [hsend.busy] at hbusy
      cases hbusy

theorem busyFor_next_sending {x : BitVec 8} {q c : Nat} (hdiv : Divides div B) (h : Sending B x q c r) :
    busyFor B (nextTx div r d start) + 1 = busyFor B r := by
  have hphase := h.phase
  have hslot := h.slot
  rw [busyFor_sending h]
  rcases Nat.lt_or_ge (c + 1) B with hlt | hge
  · rw [busyFor_sending (sending_count hdiv h hlt)]
    omega
  · have hc : c + 1 = B := by omega
    rcases Nat.lt_or_ge q 9 with hq | hq
    · rw [busyFor_sending (sending_last hdiv h hc hq), show 9 - q = 9 - (q + 1) + 1 by omega,
        Nat.succ_mul]
      omega
    · have hq9 : q = 9 := by omega
      subst hq9
      rw [nextTx_last hdiv h hc]
      simp [busyFor, h.busy]
      omega

theorem taking_of_busy (h : r.txState = 1#4) : taking r d start = [] := by simp [taking, h]

/-- Without a new byte the time goes by. -/
theorem busyFor_next (hdiv : Divides div B) (h : Emits B o r) (hnone : taking r d start = []) :
    busyFor B (nextTx div r d start) = busyFor B r - 1 := by
  cases h with
  | rest hstate _ _ =>
      have hstart : start = false := by
        rw [taking, hstate] at hnone
        cases start with
        | false => rfl
        | true => cases hnone
      rw [hstart, nextTx_rest hstate]
      simp only [busyFor, hstate, show (0#4 = 1#4) = False by decide, if_false, Bool.false_eq_true]
      split <;> rfl
  | wait hsend _ _ =>
      have hnext := @busyFor_next_sending div B r d start _ _ _ hdiv hsend
      omega
  | frame hsend _ =>
      have hnext := @busyFor_next_sending div B r d start _ _ _ hdiv hsend
      omega

theorem busyFor_le (h : Emits B o r) : busyFor B r ≤ 10 * B + 1 := by
  have hsending : ∀ (x : BitVec 8) (q c : Nat), Sending B x q c r → busyFor B r ≤ 10 * B + 1 := by
    intro x q c hsend
    have hmul : (9 - q) * B ≤ 9 * B := Nat.mul_le_mul_right B (Nat.sub_le 9 q)
    rw [busyFor_sending hsend]
    omega
  cases h with
  | rest hstate _ _ =>
      simp only [busyFor, hstate, show (0#4 = 1#4) = False by decide, if_false]
      split
      · omega
      · omega
  | wait hsend _ _ => exact hsending _ _ _ hsend
  | frame hsend _ => exact hsending _ _ _ hsend

end Uart

namespace TwinController

open Uart (Tx Divides Emits nextTx taking busyFor)

variable {div : Word} {B : Nat} {o : Option (Frame 8)} {r : Regs} {p : In} {u : Tx}

/-- The cycles from one byte of a report to the next. -/
def period (B : Nat) : Nat := 10 * B + 3

/-- The bytes of the report that the transmitter has not taken, and the cycles until it has. -/
inductive Owes (B : Nat) (r : Regs) (u : Tx) : List (BitVec 8) → Nat → Prop
  | quiet (hstate : r.currentState = .idle) (hstart : r.txStart = false) : Owes B r u [] 0
  | last (hstate : r.currentState = .idle) (hstart : r.txStart = true) (hfree : u.txState = 0#4) :
      Owes B r u [r.txData] 1
  | waits {k : Nat} (hk : k ≤ 17) (hstate : r.currentState = .send) (hstart : r.txStart = false)
      (hcnt : r.sendCnt.toNat = k) :
      Owes B r u (r.statusBuffer.toList.drop k) (busyFor B u + 2 + (17 - k) * period B)
  | offered {k : Nat} (hk : k < 17) (hstate : r.currentState = .send) (hstart : r.txStart = true)
      (hold : r.txStartD = false) (hcnt : r.sendCnt.toNat = k) (hdata : r.txData = statusByte r)
      (hfree : u.txState = 0#4) (hbusy : u.txBusy = false) :
      Owes B r u (r.statusBuffer.toList.drop k) (1 + (17 - k) * period B)
  | accepted {k : Nat} (hk : k ≤ 17) (hstate : r.currentState = .send) (hstart : r.txStart = true)
      (hold : r.txStartD = true) (hcnt : r.sendCnt.toNat = k) (hsends : u.txState = 1#4)
      (hbusy : u.txBusy = true) :
      Owes B r u (r.statusBuffer.toList.drop k) (busyFor B u + 2 + (17 - k) * period B)

variable {rest : List (BitVec 8)} {n : Nat}

theorem Owes.length_le (h : Owes B r u rest n) : rest.length ≤ 18 := by
  have hdrop : ∀ k, (r.statusBuffer.toList.drop k).length ≤ 18 := by
    intro k
    rw [List.length_drop, Vector.length_toList]
    exact Nat.sub_le 18 k
  cases h with
  | quiet => exact Nat.zero_le 18
  | last => exact Nat.le_add_left 1 17
  | waits => exact hdrop _
  | offered => exact hdrop _
  | accepted => exact hdrop _

/-- In the last cycle of a report, or between two reports. -/
theorem Owes.le_one (h : Owes B r u rest n) (hstate : r.currentState = .idle) : n ≤ 1 := by
  cases h with
  | quiet => exact Nat.zero_le 1
  | last => exact Nat.le_refl 1
  | waits _ hsend => rw [hstate] at hsend; cases hsend
  | offered _ hsend => rw [hstate] at hsend; cases hsend
  | accepted _ hsend => rw [hstate] at hsend; cases hsend

theorem Owes.le (h : Owes B r u rest n) (he : Emits B o u) : n ≤ 18 * period B := by
  have hbusy := Uart.busyFor_le he
  have hmul : ∀ k, (17 - k) * period B ≤ 17 * period B := fun k =>
    Nat.mul_le_mul_right _ (Nat.sub_le 17 k)
  have hperiod : period B = 10 * B + 3 := rfl
  cases h with
  | quiet => exact Nat.zero_le _
  | last => omega
  | @waits k =>
      have hle := hmul k
      omega
  | @offered k =>
      have hle := hmul k
      omega
  | @accepted k =>
      have hle := hmul k
      omega

/-- The report that is asked for in this cycle. -/
def asking (r : Regs) (p : In) : List (BitVec 8) :=
  if asks r p then (status p.seg r.key r.sw p.led).toList else []

theorem statusByte_eq {k : Nat} (hk : k ≤ 17) (hcnt : r.sendCnt.toNat = k) :
    r.statusBuffer.toList.drop k = statusByte r :: r.statusBuffer.toList.drop (k + 1) := by
  have hlt : k < r.statusBuffer.toList.length := by
    rw [Vector.length_toList]
    omega
  rw [List.drop_eq_getElem_cons hlt, statusByte, hcnt, List.getD_eq_getElem?_getD,
    List.getElem?_eq_getElem hlt, Option.getD_some]

theorem asking_of_send (hstate : r.currentState = .send) : asks r p = false ∧ asking r p = [] := by
  have hasks : asks r p = false := by simp [asks, hstate]
  simp [asking, hasks]

/-- What a cycle does to what is owed. -/
structure Pays (B : Nat) (r' : Regs) (u' : Tx) (asked taken : List (BitVec 8)) (asks : Bool)
    (rest : List (BitVec 8)) (n : Nat) (rest' : List (BitVec 8)) (n' : Nat) : Prop where
  owes : Owes B r' u' rest' n'
  bytes : rest ++ asked = taken ++ rest'
  goes : asks = false → n' = n - 1
  asked : asks = true → n ≤ 1 ∧ taken = rest ∧ 17 * period B + 2 ≤ n'

/-- An idle controller pays what it owes, and may be asked for more. -/
theorem pays_idle (hstate : r.currentState = .idle) (hn : n ≤ 1)
    (htaken : taking u r.txData r.txStart = rest) :
    ∃ rest' n', Pays B (next r p) (nextTx div u r.txData r.txStart) (asking r p)
      (taking u r.txData r.txStart) (asks r p) rest n rest' n' := by
  have hstart : (next r p).txStart = false := by
    show offers r p = false
    rw [offers, hstate]
    rfl
  cases hasks : asks r p with
  | false =>
      have hnext : (next r p).currentState = .idle := by
        show nextState r p = .idle
        rw [asks, hstate, beq_self_eq_true, Bool.true_and] at hasks
        rw [nextState, hstate, hasks]
        rfl
      refine ⟨[], 0, .quiet hnext hstart, ?_, fun _ => by omega, fun h => by cases h⟩
      simp [asking, hasks, htaken]
  | true =>
      have hnext : (next r p).currentState = .send := by
        show nextState r p = .send
        rw [asks, hstate, beq_self_eq_true, Bool.true_and] at hasks
        rw [nextState, hstate, hasks]
        rfl
      have hcnt : (next r p).sendCnt.toNat = 0 := by
        show (if r.currentState == .idle then 0#5 else _).toNat = 0
        rw [hstate]
        rfl
      have hbuffer : (next r p).statusBuffer = status p.seg r.key r.sw p.led := if_pos hasks
      have howes := Owes.waits (B := B) (u := nextTx div u r.txData r.txStart) (Nat.zero_le 17) hnext
        hstart hcnt
      refine ⟨_, _, howes, ?_, (fun h => by cases h), fun _ => ⟨hn, htaken, ?_⟩⟩
      · rw [hbuffer, List.drop_zero, htaken, asking, if_pos hasks]
      · rw [Nat.sub_zero]
        omega

/-- One cycle. -/
theorem pays_next (hdiv : Divides div B) (he : Emits B o u) (hp : p.txBusy = u.txBusy)
    (h : Owes B r u rest n) :
    ∃ rest' n', Pays B (next r p) (nextTx div u r.txData r.txStart) (asking r p)
      (taking u r.txData r.txStart) (asks r p) rest n rest' n' := by
  cases h with
  | quiet hstate hstart => exact pays_idle hstate (Nat.zero_le 1) (by simp [taking, hstart])
  | last hstate hstart hfree => exact pays_idle hstate (Nat.le_refl 1) (by simp [taking, hstart, hfree])
  | @waits k hk hstate hstart hcnt =>
      rcases @asking_of_send r p hstate with ⟨hasks, hasking⟩
      have htaken : taking u r.txData r.txStart = [] := by simp [taking, hstart]
      have hcnt' : (next r p).sendCnt.toNat = k := by
        show (if r.currentState == .idle then 0#5
          else if r.txStart && !r.txStartD then r.sendCnt + 1#5 else r.sendCnt).toNat = k
        rw [hstate, hstart]
        exact hcnt
      have hbuffer : (next r p).statusBuffer = r.statusBuffer := if_neg (by rw [hasks]; decide)
      have hleft := @Uart.busyFor_next div B o u r.txData r.txStart hdiv he htaken
      have hseventeen : (r.sendCnt == 17#5) = decide (k = 17) := by
        rw [Bool.eq_iff_iff, beq_iff_eq, decide_eq_true_iff, ← BitVec.toNat_inj, hcnt]
        rfl
      rw [htaken, hasks, hasking]
      cases hbusy : u.txBusy with
      | true =>
          -- the transmitter is busy with the byte before
          have hnext : (next r p).currentState = .send := by
            show nextState r p = .send
            rw [nextState, hstate, hp, hbusy]
            rfl
          have hstart' : (next r p).txStart = false := by
            show offers r p = false
            rw [offers, hp, hbusy]
            exact Bool.and_false _
          have hpos : 0 < busyFor B u := by
            rw [busyFor, hbusy]
            split
            · exact Nat.succ_pos _
            · exact Nat.one_pos
          have howes := Owes.waits (B := B) (u := nextTx div u r.txData r.txStart) hk hnext hstart' hcnt'
          rw [hbuffer] at howes
          exact ⟨_, _, howes, List.append_nil _, fun _ => by omega, fun h => by cases h⟩
      | false =>
          have hfree := Uart.free_of_not_busy he hbusy
          have hzero : busyFor B u = 0 := by
            rw [busyFor, hfree, hbusy]
            rfl
          have hoffers : offers r p = true := by
            rw [offers, hstate, hp, hbusy]
            rfl
          have hstart' : (next r p).txStart = true := hoffers
          have hdata : (next r p).txData = statusByte r := if_pos hoffers
          have hfree' : (nextTx div u r.txData r.txStart).txState = 0#4 := by
            rw [hstart, Uart.nextTx_rest hfree]
            exact hfree
          have hbusy' : (nextTx div u r.txData r.txStart).txBusy = false := by
            rw [hstart, Uart.nextTx_rest hfree]
          have hnext : (next r p).currentState = if k = 17 then .idle else .send := by
            show nextState r p = _
            rw [nextState, hstate, hp, hbusy, hseventeen]
            by_cases hk17 : k = 17 <;> simp [hk17]
          rcases Nat.lt_or_ge k 17 with hlt | hge
          · rw [if_neg hlt.ne] at hnext
            have hbyte : (next r p).txData = statusByte (next r p) := by
              rw [hdata, statusByte, statusByte, hbuffer, hcnt', hcnt]
            have howes := Owes.offered (B := B) hlt hnext hstart' hstart hcnt' hbyte hfree' hbusy'
            rw [hbuffer] at howes
            exact ⟨_, _, howes, List.append_nil _, fun _ => by omega, fun h => by cases h⟩
          · -- the last byte
            have hk17 : k = 17 := by omega
            subst hk17
            rw [if_pos rfl] at hnext
            have howes := Owes.last (B := B) hnext hstart' hfree'
            refine ⟨_, _, howes, ?_, fun _ => by omega, fun h => by cases h⟩
            rw [List.append_nil, hdata, statusByte_eq hk hcnt, List.drop_eq_nil_of_le (by simp)]
            rfl
  | @offered k hk hstate hstart hold hcnt hdata hfree hbusy =>
      rcases @asking_of_send r p hstate with ⟨hasks, hasking⟩
      have htaken : taking u r.txData r.txStart = [statusByte r] := by
        simp [taking, hstart, hfree, hdata]
      have hbuffer : (next r p).statusBuffer = r.statusBuffer := if_neg (by rw [hasks]; decide)
      have hcnt' : (next r p).sendCnt.toNat = k + 1 := by
        show (if r.currentState == .idle then 0#5
          else if r.txStart && !r.txStartD then r.sendCnt + 1#5 else r.sendCnt).toNat = k + 1
        rw [hstate, hstart, hold]
        show (r.sendCnt + 1#5).toNat = k + 1
        rw [BitVec.toNat_add, hcnt, BitVec.toNat_ofNat]
        omega
      have hnext : (next r p).currentState = .send := by
        have hseventeen : (r.sendCnt == 17#5) = false := by
          rw [beq_eq_false_iff_ne, ne_eq, ← BitVec.toNat_inj, hcnt]
          exact hk.ne
        show nextState r p = .send
        rw [nextState, hstate, hseventeen, Bool.and_false]
        rfl
      have hstart' : (next r p).txStart = true := by
        show offers r p = true
        rw [offers, hstate, hp, hbusy]
        rfl
      have hsend := (@Uart.sending_take div B u r.txData hdiv hfree).1
      have hleft := @Uart.busyFor_taking div B u r.txData hdiv hfree
      rw [← hstart] at hsend hleft
      have howes := Owes.accepted (B := B) (k := k + 1) hk hnext hstart' hstart hcnt' hsend.state hsend.busy
      rw [hbuffer] at howes
      refine ⟨_, _, howes, ?_, fun _ => ?_, fun h => by rw [hasks] at h; cases h⟩
      · rw [htaken, hasking, List.append_nil, statusByte_eq hk.le hcnt]
        rfl
      · have hperiod : period B = 10 * B + 3 := rfl
        rw [show 17 - k = 17 - (k + 1) + 1 by omega, Nat.succ_mul]
        omega
  | @accepted k hk hstate hstart hold hcnt hsends hbusy =>
      rcases @asking_of_send r p hstate with ⟨hasks, hasking⟩
      have htaken : taking u r.txData r.txStart = [] := Uart.taking_of_busy hsends
      have hbuffer : (next r p).statusBuffer = r.statusBuffer := if_neg (by rw [hasks]; decide)
      have hcnt' : (next r p).sendCnt.toNat = k := by
        show (if r.currentState == .idle then 0#5
          else if r.txStart && !r.txStartD then r.sendCnt + 1#5 else r.sendCnt).toNat = k
        rw [hstate, hstart, hold]
        exact hcnt
      have hnext : (next r p).currentState = .send := by
        show nextState r p = .send
        rw [nextState, hstate, hp, hbusy]
        rfl
      have hstart' : (next r p).txStart = false := by
        show offers r p = false
        rw [offers, hp, hbusy]
        exact Bool.and_false _
      have hleft := @Uart.busyFor_next div B o u r.txData r.txStart hdiv he htaken
      have hpos : 0 < busyFor B u := by
        rw [busyFor, if_pos hsends]
        exact Nat.succ_pos _
      have howes := Owes.waits (B := B) (u := nextTx div u r.txData r.txStart) hk hnext hstart' hcnt'
      rw [hbuffer] at howes
      rw [htaken, hasks, hasking]
      exact ⟨_, _, howes, List.append_nil _, fun _ => by omega, fun h => by cases h⟩

theorem Owes.eq_nil (h : Owes B r u rest 0) : rest = [] := by
  generalize hn : 0 = n at h
  cases h with
  | quiet => rfl
  | last => cases hn
  | waits => omega
  | offered => omega
  | accepted => omega

end TwinController

namespace Panel

open TwinController (Owes Pays asking asks period pays_next)
open Uart (Divides Tuned Emits heard hearing taken takingAt done)

variable {div : Word} {inp : Nat → In} {B : Nat}

/-- The bytes of the reports that have been asked for before cycle `t`. -/
def asked (div : Word) (inp : Nat → In) : Nat → List (BitVec 8) :=
  upTo fun k => asking (run div inp k).twin (twinInAt div inp k)

theorem asked_succ (t : Nat) :
    asked div inp (t + 1) = asked div inp t ++ asking (run div inp t).twin (twinInAt div inp t) := rfl

theorem taken_succ (t : Nat) :
    taken div (uartInAt div inp) (t + 1) =
      taken div (uartInAt div inp) t ++ takingAt div (uartInAt div inp) t := rfl

theorem emits_panel (hdiv : Divides div B) (t : Nat) :
    Emits B (Uart.line div (uartInAt div inp) t) (run div inp t).uart.tx := by
  rw [← run_uart]
  exact Uart.emits_run hdiv t

theorem pays_panel (hdiv : Divides div B) {t : Nat} {rest : List (BitVec 8)} {n : Nat}
    (h : Owes B (run div inp t).twin (run div inp t).uart.tx rest n) :
    ∃ rest' n', Pays B (run div inp (t + 1)).twin (run div inp (t + 1)).uart.tx
      (asking (run div inp t).twin (twinInAt div inp t)) (takingAt div (uartInAt div inp) t)
      (asks (run div inp t).twin (twinInAt div inp t)) rest n rest' n' := by
  rw [takingAt, run_uart]
  exact pays_next hdiv (emits_panel hdiv t) rfl h

/-- What has been asked for is with the transmitter or owed. -/
theorem owes_run (hdiv : Divides div B) (t : Nat) :
    ∃ rest n, Owes B (run div inp t).twin (run div inp t).uart.tx rest n ∧
      asked div inp t = taken div (uartInAt div inp) t ++ rest := by
  induction t with
  | zero => exact ⟨[], 0, .quiet rfl rfl, rfl⟩
  | succ t ih =>
      rcases ih with ⟨rest, n, howes, hasked⟩
      rcases pays_panel hdiv howes with ⟨rest', n', hpays⟩
      refine ⟨rest', n', hpays.owes, ?_⟩
      rw [asked_succ, taken_succ, hasked, List.append_assoc, hpays.bytes, List.append_assoc]

/-- What is owed is with the transmitter when the time is over. -/
theorem asked_taken (hdiv : Divides div B) {n : Nat} {t : Nat} {rest : List (BitVec 8)}
    (howes : Owes B (run div inp t).twin (run div inp t).uart.tx rest n)
    (hasked : asked div inp t = taken div (uartInAt div inp) t ++ rest) :
    asked div inp t <+: taken div (uartInAt div inp) (t + n) := by
  induction n generalizing t rest with
  | zero =>
      rw [hasked, howes.eq_nil, List.append_nil]
      exact List.prefix_refl _
  | succ n ih =>
      rcases pays_panel hdiv howes with ⟨rest', n', hpays⟩
      rw [show t + (n + 1) = t + 1 + n by omega]
      cases hasks : asks (run div inp t).twin (twinInAt div inp t) with
      | false =>
          have hn : n' = n := hpays.goes hasks
          have hnone : asking (run div inp t).twin (twinInAt div inp t) = [] := by
            rw [asking, hasks]
            rfl
          have hnext : asked div inp (t + 1) = asked div inp t := by
            rw [asked_succ, hnone, List.append_nil]
          rw [← hnext]
          rw [hn] at hpays
          apply ih hpays.owes
          rw [asked_succ, taken_succ, hasked, List.append_assoc, hpays.bytes, List.append_assoc]
      | true =>
          -- the last byte is taken in the cycle of the next request
          have htaken := (hpays.asked hasks).2.1
          rw [hasked, ← htaken]
          exact upTo_mono _ (Nat.le_add_right (t + 1) n)

/-- A host at the other end of the line hears the reports that it has asked for, one after another, all
their bytes and nothing else.  When a byte has come down the line, which takes the transmitter's bit and
the reception of a frame, it misses at most 18 bytes of what was asked for before, and the time of 18 bytes
later none. -/
theorem reports_reach_host (div : Word) (B : Nat) (hdiv : Divides div B) (div' : Word) (B' : Nat)
    (hdiv' : Divides div' B') (htuned : Tuned B' B (10 * B + 1)) (inp : Nat → In)
    (host : Nat → Uart.In) (hwire : ∀ t, (host t).rx = (run div inp t).uart.tx.tx) (t : Nat) :
    (∃ rest, asked div inp t = heard div' host (t + (B + 1) + (done B' + 3)) ++ rest ∧
        rest.length ≤ 18) ∧
      asked div inp t <+: heard div' host (t + 18 * period B + (B + 1) + (done B' + 3)) := by
  have hrx : ∀ t, (host t).rx = (Uart.run div (uartInAt div inp) t).tx.tx := by
    intro t
    rw [hwire, run_uart]
  have hheard : ∀ t, heard div' host (t + (B + 1) + (done B' + 3)) = taken div (uartInAt div inp) t := by
    intro t
    rw [Uart.heard_line hdiv hdiv' htuned hrx, Uart.begun_line hdiv]
  rcases owes_run hdiv t with ⟨rest, n, howes, hasked⟩
  rw [hheard, hheard]
  refine ⟨⟨rest, hasked, howes.length_le⟩, ?_⟩
  have hle := howes.le (emits_panel hdiv t)
  exact (asked_taken hdiv howes hasked).trans (upTo_mono _ (Nat.add_le_add_left hle t))

/-- A host that only listens. -/
def hostHears (div : Word) (inp : Nat → In) (t : Nat) : Uart.In :=
  { rx := (run div inp t).uart.tx.tx, txData := 0#8, txStart := false }

/-- The host asks once, and hears the answer with a divider of 5000. -/
theorem reports_reach_host_once :
    (∃ rest, asked (Uart.BAUD_DIV 50000000#32 9600#32) (hostSends 0x80#8) 60000 =
          heard 5000#32 (hostHears (Uart.BAUD_DIV 50000000#32 9600#32) (hostSends 0x80#8))
            (60000 + (5208 + 1) + (done 5000 + 3)) ++ rest ∧
        rest.length ≤ 18) ∧
      asked (Uart.BAUD_DIV 50000000#32 9600#32) (hostSends 0x80#8) 60000 <+:
        heard 5000#32 (hostHears (Uart.BAUD_DIV 50000000#32 9600#32) (hostSends 0x80#8))
          (60000 + 18 * period 5208 + (5208 + 1) + (done 5000 + 3)) :=
  reports_reach_host (Uart.BAUD_DIV 50000000#32 9600#32) 5208
    { toNat := by decide, pos := by decide, le := by decide } 5000#32 5000
    { toNat := by decide, pos := by decide, le := by decide }
    { early := by decide, late := by decide, stop := by decide, rest := by decide }
    (hostSends 0x80#8) (hostHears (Uart.BAUD_DIV 50000000#32 9600#32) (hostSends 0x80#8))
    (fun _ => rfl) 60000

/-! ## One report for one request -/

/-- The request. -/
def request : BitVec 8 := 0x80#8

/-- Bytes asked for and requests heard.  While a byte 0x80 is shown, either it has not been answered yet,
or the report is longer than it is shown. -/
structure Answers (div : Word) (inp : Nat → In) (B t : Nat) : Prop where
  owes : ∃ rest n, Owes B (run div inp t).twin (run div inp t).uart.tx rest n ∧
    ((run div inp t).uart.ready.rxReady = true → (run div inp t).uart.rx.rxData = request →
      (asked div inp t).length + 18 ≤ 18 * (heard div (uartInAt div inp) t).count request ∨
        B + 1 ≤ n + (run div inp t).uart.ready.rxReadyCnt.toNat)
  length : (asked div inp t).length ≤ 18 * (heard div (uartInAt div inp) t).count request

theorem length_asking (r : TwinController.Regs) (p : TwinController.In) :
    (asking r p).length = if asks r p then 18 else 0 := by
  rw [asking]
  split
  · rw [Vector.length_toList]
  · rfl

/-- In the cycle of a request, the byte that asks has not been answered. -/
theorem length_asked_succ {t : Nat} (h : Answers div inp B t)
    (hcnt : (run div inp t).uart.ready.rxReadyCnt.toNat < B) :
    (asked div inp (t + 1)).length ≤ 18 * (heard div (uartInAt div inp) t).count request := by
  rw [asked_succ, List.length_append, length_asking]
  split
  next hasks =>
    rcases h.owes with ⟨rest, n, howes, hopen⟩
    simp only [asks, Bool.and_eq_true, beq_iff_eq] at hasks
    have hn := howes.le_one hasks.1.1
    rcases hopen hasks.1.2 hasks.2 with hless | hlong
    · exact hless
    · omega
  next => exact h.length

variable {P gap : Nat} {line : Nat → Option (Frame 8)}

theorem rxReadyCnt_lt (hdiv : Divides div B) (htuned : Tuned B P gap) (hline : Spaced gap line)
    (hrx : ∀ t, (inp t).rx = level P (line t)) (t : Nat) :
    (run div inp t).uart.ready.rxReadyCnt.toNat < B := by
  rw [← run_uart]
  exact (Uart.stretched_run hdiv htuned hline hrx t).count

theorem answers_run (hdiv : Divides div B) (htuned : Tuned B P gap) (hline : Spaced gap line)
    (hrx : ∀ t, (inp t).rx = level P (line t)) (t : Nat) : Answers div inp B t := by
  induction t with
  | zero => exact { owes := ⟨[], 0, .quiet rfl rfl, fun h => by cases h⟩, length := Nat.zero_le _ }
  | succ t ih =>
      have hcnt := rxReadyCnt_lt hdiv htuned hline hrx t
      have hlength := length_asked_succ ih hcnt
      have hcount : (heard div (uartInAt div inp) (t + 1)).count request =
          (heard div (uartInAt div inp) t).count request +
            (hearing div (uartInAt div inp) t).count request := by
        rw [Uart.heard_succ, List.count_append]
      have hshows := shows_panel hdiv htuned hline hrx t
      rcases ih.owes with ⟨rest, n, howes, hopen⟩
      rcases pays_panel hdiv howes with ⟨rest', n', hpays⟩
      refine { owes := ⟨rest', n', hpays.owes, ?_⟩, length := by omega }
      intro hready hdata
      rw [← run_uart] at hready hdata
      rcases hshows.fresh with hnone | ⟨-, hbyte⟩
      · -- the same byte is shown for one cycle more
        rcases Uart.shown_before hnone hready with ⟨hbefore, hlt, hsucc⟩
        have hdata' := (hshows.same hready).symm.trans hdata
        rw [run_uart] at hbefore hlt hdata'
        rw [run_uart, run_uart] at hsucc
        rw [Uart.readyCnt_lt hdiv] at hlt
        rw [hcount, hnone, List.count_nil, hsucc, Uart.readyCnt_succ hdiv hlt]
        cases hasks : asks (run div inp t).twin (twinInAt div inp t) with
        | true =>
            have hlong := (hpays.asked hasks).2.2
            have hperiod : period B = 10 * B + 3 := rfl
            omega
        | false =>
            have hgoes := hpays.goes hasks
            have hsame : (asked div inp (t + 1)).length = (asked div inp t).length := by
              rw [asked_succ, List.length_append, length_asking, hasks]
              rfl
            have hopen' := hopen hbefore hdata'
            omega
      · rw [hcount, hbyte, hdata, List.count_singleton_self]
        omega

/-- For a host within tolerance, a report is sent for no byte but 0x80, and for one such byte no more than
one, although it is shown to the controller for many cycles.  A request that finds the controller idle is
answered; if all do, all are answered. -/
theorem reports_answer_requests (div : Word) (B P gap : Nat) (hdiv : Divides div B)
    (htuned : Tuned B P gap) (line : Nat → Option (Frame 8)) (hline : Spaced gap line)
    (inp : Nat → In) (hrx : ∀ t, (inp t).rx = level P (line t)) (t : Nat) :
    (asked div inp (t + (done B + 3) + 1)).length ≤ 18 * (begun line t).count request ∧
      ((∀ k, k < t + (done B + 3) → hearing div (uartInAt div inp) k = [request] →
          (run div inp (k + 1)).twin.currentState = .idle) →
        (asked div inp (t + (done B + 3) + 1)).length = 18 * (begun line t).count request) := by
  have hbound : ∀ u, (asked div inp (u + 1)).length ≤
      18 * (heard div (uartInAt div inp) u).count request := fun u =>
    length_asked_succ (answers_run hdiv htuned hline hrx u) (rxReadyCnt_lt hdiv htuned hline hrx u)
  rw [← @Uart.heard_of_begun div B P gap line (uartInAt div inp) hdiv htuned hline hrx t]
  refine ⟨hbound _, ?_⟩
  generalize t + (done B + 3) = u
  intro hidle
  induction u with
  | zero =>
      have hzero := hbound 0
      exact Nat.le_antisymm hzero (Nat.zero_le _)
  | succ u ih =>
      have hprev := ih fun k hk => hidle k (Nat.lt_succ_of_lt hk)
      have hnext := hbound (u + 1)
      rw [Uart.heard_succ, List.count_append] at hnext ⊢
      rw [asked_succ, List.length_append, length_asking] at hnext ⊢
      rcases (shows_panel hdiv htuned hline hrx u).fresh with hnone | ⟨hready, hbyte⟩
      · -- no new request, so no new report
        rw [hnone, List.count_nil] at hnext ⊢
        split at hnext
        next => omega
        next hnot =>
          rw [if_neg hnot]
          omega
      · by_cases hrequest : (run div inp (u + 1)).uart.rx.rxData = request
        · rw [run_uart] at hready hbyte
          rw [hrequest] at hbyte
          have hasks : asks (run div inp (u + 1)).twin (twinInAt div inp (u + 1)) = true := by
            have hstate := hidle u (Nat.lt_succ_self u) hbyte
            simp only [asks, Bool.and_eq_true, beq_iff_eq]
            exact ⟨⟨hstate, hready⟩, hrequest⟩
          rw [hbyte, List.count_singleton_self, if_pos hasks]
          omega
        · have hcount : (hearing div (uartInAt div inp) u).count request = 0 := by
            rw [hbyte, run_uart, List.count_singleton]
            simpa using hrequest
          rw [hcount] at hnext ⊢
          split at hnext
          next => omega
          next hnot =>
            rw [if_neg hnot]
            omega

theorem reports_answer_requests_once :
    (asked (Uart.BAUD_DIV 50000000#32 9600#32) (hostSends 0x80#8) (2 + (done 5208 + 3) + 1)).length ≤
        18 * (begun (Uart.single 0x80#8) 2).count request ∧
      ((∀ k, k < 2 + (done 5208 + 3) →
          hearing (Uart.BAUD_DIV 50000000#32 9600#32)
            (uartInAt (Uart.BAUD_DIV 50000000#32 9600#32) (hostSends 0x80#8)) k = [request] →
          (run (Uart.BAUD_DIV 50000000#32 9600#32) (hostSends 0x80#8) (k + 1)).twin.currentState =
            .idle) →
        (asked (Uart.BAUD_DIV 50000000#32 9600#32) (hostSends 0x80#8)
          (2 + (done 5208 + 3) + 1)).length = 18 * (begun (Uart.single 0x80#8) 2).count request) :=
  reports_answer_requests (Uart.BAUD_DIV 50000000#32 9600#32) 5208 5208 52080
    { toNat := by decide, pos := by decide, le := by decide }
    { early := by decide, late := by decide, stop := by decide, rest := by decide }
    (Uart.single 0x80#8) (Uart.spaced_single 52080 0x80#8) (hostSends 0x80#8) (fun _ => rfl) 2

end Panel
end Board
end RiscvCpu
