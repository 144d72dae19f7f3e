import RiscvCpu.Lib.Clocked
import RiscvCpu.Lib.Matcher
import RiscvCpu.Sim.Hearing

/-!
# Capture — what the harness reads of a run

The decoder never meets a framing error, the bytes it writes are the bytes the port has accepted, and
it reports the end of the benchmark at the line feed behind the completion marker.  The letter `C`
comes back nowhere in the marker, so its matcher misses no occurrence.
-/

namespace RiscvCpu

open UartDecoder

/-! ## The completion marker -/

theorem marker_firstOnce : Matcher.FirstOnce kCompletionMarker := by
  have hall : ∀ k, k < 28 → 0 < k → kCompletionMarker[k]? ≠ kCompletionMarker[0]? := by decide
  intro k hpos hlt
  exact hall k hlt hpos

namespace UartDecoder

variable {d : UartDecoder} {text : List (BitVec 8)} {a : Sampled} {tx : Bool}

/-- The marker has been looked for in the bytes `text`. -/
def Searched (text : List (BitVec 8)) (d : UartDecoder) : Prop :=
  Matcher.Scanned kCompletionMarker text d.markerPos d.markerSeen

theorem searched_emit (h : Searched text d) (v : BitVec 8) :
    Searched (text ++ [v]) (d.emit v).1 ∧
      ((d.emit v).2 = true ↔ v = newline ∧ kCompletionMarker <:+: text) := by
  unfold Searched at h ⊢
  unfold emit
  cases hseen : d.markerSeen with
  | true =>
      rw [hseen] at h
      have hoccurs := h.seen_iff.mp rfl
      refine ⟨?_, ?_⟩
      · simp only [Bool.not_true, Bool.false_eq_true, if_false, hseen]
        exact Matcher.scanned_of_seen h
      · simp [hoccurs]
  | false =>
      rw [hseen] at h
      have hnot : ¬ kCompletionMarker <:+: text := fun hoccurs =>
        Bool.noConfusion (h.seen_iff.mpr hoccurs)
      refine ⟨?_, ?_⟩
      · simp only [Bool.not_false, if_true]
        exact Matcher.scanned_step marker_firstOnce h
      · simp [hnot]

/-- A sample writes no byte and leaves the marker alone, or it emits one. -/
theorem sample_cases (h : d.sample tx = .ok a) :
    (a.put = none ∧ a.complete = false ∧ a.decoder.markerPos = d.markerPos ∧
        a.decoder.markerSeen = d.markerSeen) ∨
      ∃ (d' : UartDecoder) (v : BitVec 8), a.put = some v ∧ d'.emit v = (a.decoder, a.complete) ∧
        d'.markerPos = d.markerPos ∧ d'.markerSeen = d.markerSeen := by
  unfold sample at h
  cases hst : d.state with
  | idle =>
      rw [hst] at h
      cases tx <;> cases h <;> exact Or.inl ⟨rfl, rfl, rfl, rfl⟩
  | start =>
      rw [hst] at h
      cases hzero : d.countdown == 0#32 <;> rw [hzero] at h <;> cases tx <;> cases h <;>
        exact Or.inl ⟨rfl, rfl, rfl, rfl⟩
  | data =>
      rw [hst] at h
      cases hzero : d.countdown == 0#32 <;> rw [hzero] at h <;>
        cases hlast : d.bit == 7#32 <;> rw [hlast] at h <;> cases h <;>
        exact Or.inl ⟨rfl, rfl, rfl, rfl⟩
  | stop =>
      rw [hst] at h
      cases hzero : d.countdown == 0#32 with
      | false =>
          rw [hzero] at h
          cases h
          exact Or.inl ⟨rfl, rfl, rfl, rfl⟩
      | true =>
          rw [hzero] at h
          cases tx with
          | false => cases h
          | true =>
              cases h
              exact Or.inr ⟨_, _, rfl, rfl, rfl, rfl⟩

theorem searched_sample (h : Searched text d) (hsample : d.sample tx = .ok a) :
    Searched (text ++ a.put.toList) a.decoder ∧
      (a.complete = true ↔ a.put = some newline ∧ kCompletionMarker <:+: text) := by
  rcases sample_cases hsample with ⟨hput, hcomplete, hpos, hseen⟩ | ⟨d', v, hput, hemit, hpos, hseen⟩
  · refine ⟨?_, by simp [hput, hcomplete]⟩
    unfold Searched
    rw [hput, hpos, hseen, Option.toList_none, List.append_nil]
    exact h
  · have h' : Searched text d' := by
      unfold Searched
      rw [hpos, hseen]
      exact h
    have hnext := searched_emit h' v
    rw [hemit] at hnext
    rw [hput, Option.toList_some, Option.some.injEq]
    exact hnext

end UartDecoder

/-! ## Runs of the decoder -/

/-- `sample` returns `v` in cycle `t`. -/
def Returns (tx : Nat → Bool) (t : Nat) (v : Bool) : Prop :=
  ∃ s a, decode tx t = .ok s ∧ s.decoder.sample (tx t) = .ok a ∧ a.complete = v

/-- `sample` returns true in cycle `t` for the first time. -/
def FirstTrue (tx : Nat → Bool) (t : Nat) : Prop :=
  Returns tx t true ∧ ∀ k, k < t → Returns tx k false

/-- The byte at position `i` of the output is written in cycle `t`. -/
def Emits (tx : Nat → Bool) (t i : Nat) : Prop :=
  ∃ s s', decode tx t = .ok s ∧ decode tx (t + 1) = .ok s' ∧ s.out.length = i ∧
    s'.out.length = i + 1

/-- The states of a decoder and its samples in a run without an error. -/
structure Decodes (tx : Nat → Bool) (st : Nat → DecoderRun) (act : Nat → Sampled) : Prop where
  runs : ∀ t, decode tx t = .ok (st t)
  samples : ∀ t, (st t).decoder.sample (tx t) = .ok (act t)

section
variable {tx : Nat → Bool} {st : Nat → DecoderRun} {act : Nat → Sampled} {s : DecoderRun}
  {a : Sampled} {t i : Nat} {bs : List (BitVec 8)}

theorem decode_succ (hs : decode tx t = .ok s) (ha : s.decoder.sample (tx t) = .ok a) :
    decode tx (t + 1) = .ok ⟨a.decoder, s.out ++ a.put.toList⟩ := by
  show (decode tx t >>= _) = _
  rw [hs]
  show (s.decoder.sample (tx t) >>= _) = _
  rw [ha]
  rfl

theorem exists_decodes (h : ∀ t, ∃ s, decode tx t = .ok s) : ∃ st act, Decodes tx st act := by
  choose st hst using h
  have hsample : ∀ t, ∃ a, (st t).decoder.sample (tx t) = .ok a := by
    intro t
    cases ha : (st t).decoder.sample (tx t) with
    | ok a => exact ⟨a, rfl⟩
    | error e =>
        -- an error would be the result of the next cycle
        have herror : decode tx (t + 1) = .error e := by
          show (decode tx t >>= _) = _
          rw [hst t]
          show ((st t).decoder.sample (tx t) >>= _) = _
          rw [ha]
          rfl
        rw [hst (t + 1)] at herror
        cases herror
  choose act hact using hsample
  exact ⟨st, act, hst, hact⟩

theorem Decodes.eq_state (h : Decodes tx st act) (hs : decode tx t = .ok s) : s = st t :=
  Except.ok.inj (hs.symm.trans (h.runs t))

theorem state_succ (h : Decodes tx st act) (t : Nat) :
    st (t + 1) = ⟨(act t).decoder, (st t).out ++ (act t).put.toList⟩ :=
  (h.eq_state (decode_succ (h.runs t) (h.samples t))).symm

theorem state_zero (h : Decodes tx st act) : st 0 = ⟨UartDecoder.init, []⟩ := (h.eq_state rfl).symm

theorem out_succ (h : Decodes tx st act) (t : Nat) :
    (st (t + 1)).out = (st t).out ++ (act t).put.toList := congrArg DecoderRun.out (state_succ h t)

theorem out_mono (h : Decodes tx st act) {u : Nat} (htu : t ≤ u) : (st t).out <+: (st u).out := by
  induction htu with
  | refl => exact List.prefix_refl _
  | step _ ih =>
      rw [Nat.succ_eq_add_one, out_succ h]
      exact ih.trans (List.prefix_append _ _)

theorem searched_run (h : Decodes tx st act) (t : Nat) : Searched (st t).out (st t).decoder := by
  induction t with
  | zero =>
      rw [state_zero h]
      exact Matcher.scanned_nil (by decide)
  | succ t ih =>
      rw [state_succ h]
      exact (searched_sample ih (h.samples t)).1

theorem emits_iff (h : Decodes tx st act) :
    Emits tx t i ↔ (st t).out.length = i ∧ (st (t + 1)).out.length = i + 1 := by
  constructor
  · rintro ⟨s, s', hs, hs', hlen⟩
    rwa [h.eq_state hs, h.eq_state hs'] at hlen
  · rintro ⟨hlen, hlen'⟩
    exact ⟨_, _, h.runs t, h.runs (t + 1), hlen, hlen'⟩

/-- Every byte of the output has been written in some cycle. -/
theorem exists_emits (h : Decodes tx st act) (hi : i < (st t).out.length) :
    ∃ m, m < t ∧ Emits tx m i := by
  have hzero : (st 0).out.length = 0 := by
    rw [state_zero h]
    rfl
  have hstep : ∀ t, (st (t + 1)).out.length ≤ (st t).out.length + 1 := by
    intro t
    rw [out_succ h, List.length_append]
    cases (act t).put <;> simp
  rcases Clocked.exists_count (f := fun t => (st t).out.length) hzero hstep hi with ⟨m, hm, hmi⟩
  exact ⟨m, hm, (emits_iff h).mpr hmi⟩

/-- `sample` returns true on a line feed with the marker somewhere before it. -/
theorem complete_iff (h : Decodes tx st act) (hbs : (st (t + 1)).out <+: bs) :
    (act t).complete = true ↔
      ∃ i, Emits tx t i ∧ bs[i]? = some newline ∧ kCompletionMarker <:+: bs.take i := by
  have hsample := (searched_sample (searched_run h t) (h.samples t)).2
  rw [out_succ h] at hbs
  have hpre : (st t).out <+: bs := (List.prefix_append _ _).trans hbs
  have htake : bs.take (st t).out.length = (st t).out := (List.prefix_iff_eq_take.mp hpre).symm
  rw [hsample]
  constructor
  · rintro ⟨hput, hoccurs⟩
    refine ⟨(st t).out.length, (emits_iff h).mpr ⟨rfl, ?_⟩, ?_, ?_⟩
    · simp [out_succ h, hput]
    · rcases hbs with ⟨rest, rfl⟩
      simp [hput]
    · rwa [htake]
  · rintro ⟨i, hemits, hnewline, hoccurs⟩
    rcases (emits_iff h).mp hemits with ⟨rfl, hlen⟩
    rw [htake] at hoccurs
    refine ⟨?_, hoccurs⟩
    -- the byte at that position is the one written now
    rw [out_succ h, List.length_append] at hlen
    cases hput : (act t).put with
    | none => simp [hput] at hlen
    | some v =>
        rcases hbs with ⟨rest, rfl⟩
        simp [hput] at hnewline
        rw [hnewline]

theorem firstTrue_iff (h : Decodes tx st act) (hbs : (st (t + 1)).out <+: bs) :
    FirstTrue tx t ↔
      ∃ i, Matcher.FirstAfter kCompletionMarker bs newline i ∧ Emits tx t i := by
  have hreturns : ∀ k v, Returns tx k v ↔ (act k).complete = v := by
    intro k v
    constructor
    · rintro ⟨s, a, hs, ha, hv⟩
      rw [h.eq_state hs, h.samples] at ha
      rwa [← Except.ok.inj ha] at hv
    · intro hv
      exact ⟨_, _, h.runs k, h.samples k, hv⟩
  have hbefore : ∀ k, k ≤ t → (st (k + 1)).out <+: bs := fun k hk =>
    (out_mono h (Nat.succ_le_succ hk)).trans hbs
  unfold FirstTrue
  simp only [hreturns]
  constructor
  · rintro ⟨htrue, hfalse⟩
    rcases (complete_iff h hbs).mp htrue with ⟨i, hemits, hnewline, hoccurs⟩
    refine ⟨i, Matcher.firstAfter_iff.mpr ⟨hnewline, hoccurs, fun k hk hsame hearly => ?_⟩, hemits⟩
    -- an earlier such line feed would have been reported when it was written
    rw [← ((emits_iff h).mp hemits).1] at hk
    rcases exists_emits h hk with ⟨m, hm, hemits'⟩
    have htrue' := (complete_iff h (hbefore m (Nat.le_of_lt hm))).mpr ⟨k, hemits', hsame, hearly⟩
    rw [hfalse m hm] at htrue'
    cases htrue'
  · rintro ⟨i, hfirst, hemits⟩
    rcases Matcher.firstAfter_iff.mp hfirst with ⟨hnewline, hoccurs, hearlier⟩
    refine ⟨(complete_iff h hbs).mpr ⟨i, hemits, hnewline, hoccurs⟩, fun k hk => ?_⟩
    by_contra hcomplete
    rw [Bool.not_eq_false] at hcomplete
    rcases (complete_iff h (hbefore k (Nat.le_of_lt hk))).mp hcomplete with ⟨i', hemits', hsame, hin⟩
    have hlen := (out_mono h (Nat.succ_le_of_lt hk)).length_le
    rw [((emits_iff h).mp hemits').2, ((emits_iff h).mp hemits).1] at hlen
    exact hearlier i' hlen hsame hin

end

/-! ## Runs of the port -/

namespace Uart

/-- All bytes of the events `ev`. -/
def log (r₀ : Regs) (inp : Nat → In) (ev : Regs → In → List (BitVec 8)) : Nat → List (BitVec 8)
  | 0 => []
  | t + 1 => log r₀ inp ev t ++ ev (run r₀ inp t) (inp t)

/-- The level of `uart_tx` in cycle `t`. -/
def txLine (r₀ : Regs) (inp : Nat → In) (t : Nat) : Bool := (run r₀ inp t).txr.tx

/-- While the port has a byte to send or is sending one, it is enabled in boundary mode with divisor
1519 and sees no soft reset.  In between nothing is asked of it. -/
def InBoundaryMode (r₀ : Regs) (inp : Nat → In) : Prop :=
  ∀ t, Busy (run r₀ inp t) → Configured 1519 (run r₀ inp t) ∧ softResetReq (inp t) = false

variable {r₀ : Regs} {inp : Nat → In}

theorem log_mono (ev : Regs → In → List (BitVec 8)) {t u : Nat} (htu : t ≤ u) :
    log r₀ inp ev t <+: log r₀ inp ev u := by
  induction htu with
  | refl => exact List.prefix_refl _
  | step _ ih => exact ih.trans (List.prefix_append _ _)

/-- A soft reset meets an empty FIFO and accepts nothing. -/
theorem nothing_of_softReset {r : Regs} {p : In} (hreset : softResetReq p = true)
    (hempty : r.txr.count = 0#4) : taken r p = [] ∧ accepted r p = [] ∧ txQueue r = [] := by
  have hctrl : writeDataReq p = false := by
    simp only [softResetReq, writeCtrlReq, Bool.and_eq_true, beq_iff_eq] at hreset
    simp [writeDataReq, hreset, Map.UART_RT_DATA, Map.UART_RT_CTRL]
  refine ⟨?_, ?_, txQueue_of_empty hempty⟩
  · simp [taken, txPop, hempty]
  · simp [accepted, txPush, hctrl]

/-- The bytes taken and the bytes still in the FIFO are the bytes accepted since reset. -/
theorem log_account (h : InBoundaryMode r₀ inp) (t : Nat) :
    log r₀ inp taken t ++ txQueue (run r₀ inp t) = log r₀ inp accepted t := by
  induction t with
  | zero => rfl
  | succ t ih =>
      rw [run_succ_eq, log, log]
      cases hreset : softResetReq (inp t) with
      | true =>
          have hempty : (run r₀ inp t).txr.count = 0#4 := by
            by_contra hcount
            rw [(h t (Or.inr hcount)).2] at hreset
            cases hreset
          rcases nothing_of_softReset hreset hempty with ⟨htaken, haccepted, hqueue⟩
          rw [htaken, haccepted, (queues_of_softReset hreset).1, ← ih, hqueue]
      | false =>
          calc
            log r₀ inp taken t ++ taken (run r₀ inp t) (inp t) ++
                txQueue (next (run r₀ inp t) (inp t))
              = log r₀ inp taken t ++ (txQueue (run r₀ inp t) ++ accepted (run r₀ inp t) (inp t)) := by
                rw [List.append_assoc, txQueue_next (counted_run r₀ inp t) hreset]
            _ = log r₀ inp accepted t ++ accepted (run r₀ inp t) (inp t) := by
                rw [← List.append_assoc, ih]

/-- Transmitter and decoder in cycle `t`. -/
theorem heard_run (h : InBoundaryMode r₀ inp) (t : Nat) :
    ∃ s n, decode (txLine r₀ inp) t = .ok s ∧
      Heard (run r₀ inp t) s.decoder (log r₀ inp taken t) s.out n := by
  induction t with
  | zero => exact ⟨_, _, rfl, .resting ⟨rfl, rfl⟩ rfl rfl rfl⟩
  | succ t ih =>
      rcases ih with ⟨s, n, hs, hheard⟩
      rcases heard_next (h t) hheard with ⟨a, n', hsample, hnext, -⟩
      exact ⟨_, n', decode_succ hs hsample, hnext⟩

/-- What the decoder has written is a beginning of what the port has accepted. -/
theorem out_begins (h : InBoundaryMode r₀ inp) {t n : Nat} {s : DecoderRun}
    (hheard : Heard (run r₀ inp t) s.decoder (log r₀ inp taken t) s.out n) :
    s.out <+: log r₀ inp accepted t := by
  rw [← log_account h]
  exact hheard.begins.trans (List.prefix_append _ _)

/-- The cycles to go in cycle `u` until `L` bytes are written, at most 20000 for each of them. -/
def ToGo (r₀ : Regs) (inp : Nat → In) (L u m : Nat) : Prop :=
  ∃ s n, decode (txLine r₀ inp) u = .ok s ∧
    Heard (run r₀ inp u) s.decoder (log r₀ inp taken u) s.out n ∧
    m = (L - s.out.length) * 20000 + n

/-- Of the bytes accepted by cycle `t`, the decoder has written all, or it comes nearer to that. -/
theorem toGo_next (h : InBoundaryMode r₀ inp) {t u m : Nat} (htu : t ≤ u)
    (htogo : ToGo r₀ inp (log r₀ inp accepted t).length u m) :
    (∃ s, decode (txLine r₀ inp) u = .ok s ∧ log r₀ inp accepted t <+: s.out) ∨
      ∃ m', m' < m ∧ ToGo r₀ inp (log r₀ inp accepted t).length (u + 1) m' := by
  rcases htogo with ⟨s, n, hs, hheard, hm⟩
  have hlog : log r₀ inp accepted t <+: log r₀ inp accepted u := log_mono accepted htu
  rcases Nat.lt_or_ge s.out.length (log r₀ inp accepted t).length with hlt | hge
  · rcases heard_next (h u) hheard with ⟨a, n', hsample, hnext, hprogress⟩
    have hrank := hnext.rank_lt
    refine Or.inr ⟨_, ?_, _, n', decode_succ hs hsample, hnext, rfl⟩
    rw [List.length_append]
    rcases hprogress with hput | hless | ⟨hempty, hsame⟩
    · have hone : a.put.toList.length = 1 := by
        cases hv : a.put with
        | none => exact absurd hv hput
        | some v => rfl
      omega
    · omega
    · -- with nothing left in the port, everything accepted has been written
      have hall := log_account h u
      rw [txQueue_of_empty hempty, List.append_nil, hsame] at hall
      have hle := hlog.length_le
      rw [← hall] at hle
      omega
  · exact Or.inl ⟨s, hs, List.prefix_of_prefix_length_le hlog (out_begins h hheard) hge⟩

/-- The bytes accepted up to some cycle are all written at last. -/
theorem eventually_written (h : InBoundaryMode r₀ inp) (t : Nat) :
    ∃ u s, decode (txLine r₀ inp) u = .ok s ∧ log r₀ inp accepted t <+: s.out := by
  rcases heard_run h t with ⟨s, n, hs, hheard⟩
  have hstart : ToGo r₀ inp (log r₀ inp accepted t).length t _ := ⟨s, n, hs, hheard, rfl⟩
  exact Clocked.eventually_of_rank hstart fun u m htu htogo => toGo_next h htu htogo

/-- The decoder never throws; it writes the accepted bytes in order, all of them at last; and it first
returns true when it writes the first line feed behind the first completion marker. -/
theorem decoder_exact (r₀ : Regs) (inp : Nat → In) (h : InBoundaryMode r₀ inp) :
    (∀ t, ∃ s, decode (txLine r₀ inp) t = .ok s ∧ s.out <+: log r₀ inp accepted t) ∧
    (∀ t, ∃ u s, decode (txLine r₀ inp) u = .ok s ∧ log r₀ inp accepted t <+: s.out) ∧
    (∀ t u, t < u → (FirstTrue (txLine r₀ inp) t ↔
      ∃ i, Matcher.FirstAfter kCompletionMarker (log r₀ inp accepted u) newline i ∧
        Emits (txLine r₀ inp) t i)) ∧
    ((∃ t, FirstTrue (txLine r₀ inp) t) ↔
      ∃ u i, Matcher.FirstAfter kCompletionMarker (log r₀ inp accepted u) newline i) := by
  have hwritten : ∀ t, ∃ s, decode (txLine r₀ inp) t = .ok s ∧ s.out <+: log r₀ inp accepted t := by
    intro t
    rcases heard_run h t with ⟨s, n, hs, hheard⟩
    exact ⟨s, hs, out_begins h hheard⟩
  rcases exists_decodes (fun t => (hwritten t).imp fun s hs => hs.1) with ⟨st, act, hd⟩
  have hout : ∀ t, (st t).out <+: log r₀ inp accepted t := by
    intro t
    rcases hwritten t with ⟨s, hs, hpre⟩
    rwa [hd.eq_state hs] at hpre
  have hfirst : ∀ t u, t < u → (FirstTrue (txLine r₀ inp) t ↔
      ∃ i, Matcher.FirstAfter kCompletionMarker (log r₀ inp accepted u) newline i ∧
        Emits (txLine r₀ inp) t i) := fun t u htu =>
    firstTrue_iff hd ((hout (t + 1)).trans (log_mono accepted htu))
  refine ⟨hwritten, eventually_written h, hfirst, ?_⟩
  constructor
  · rintro ⟨t, htrue⟩
    rcases (hfirst t (t + 1) (Nat.lt_succ_self t)).mp htrue with ⟨i, hi, -⟩
    exact ⟨t + 1, i, hi⟩
  · rintro ⟨u, i, hi⟩
    -- the byte at position `i` is written at last
    rcases eventually_written h u with ⟨w, s, hs, hpre⟩
    rw [hd.eq_state hs] at hpre
    have hlt : i < (st w).out.length :=
      Nat.lt_of_lt_of_le (List.getElem?_eq_some_iff.mp hi.symbol).1 hpre.length_le
    rcases exists_emits hd hlt with ⟨t, -, hemits⟩
    have hlater := hi.mono (log_mono accepted (Nat.le_max_left u (t + 1)))
    exact ⟨t, (hfirst t _ (Nat.le_max_right u (t + 1))).mpr ⟨i, hlater, hemits⟩⟩

/-! ### A line that breaks off the marker -/

/-- `Cor!` and a line feed: the matcher is three bytes into the marker when the `!` comes. -/
def brokenOff : List (BitVec 8) := [0x43#8, 0x6f#8, 0x72#8, 0x21#8, newline]

/-- Divisor 1519, then boundary mode, then a byte of the line in every cycle; after that the port is
left alone. -/
def sendLine : Nat → In
  | 0 => ⟨⟨Map.UART_RT_BAUD, 1519#32, true, false⟩, false, true⟩
  | 1 => ⟨⟨Map.UART_RT_CTRL, 0b10100#32, true, false⟩, false, true⟩
  | t + 2 =>
      match brokenOff[t]? with
      | some v => ⟨⟨Map.UART_RT_DATA, v.setWidth 32, true, false⟩, false, true⟩
      | none => ⟨⟨Map.UART_RT_DATA, 0#32, false, false⟩, false, true⟩

/-- A port whose control and divisor are not written keeps them. -/
theorem configured_next {b : Nat} {r : Regs} {p : In} (hc : Configured b r)
    (hctrl : writeCtrlReq p = false) (hbaud : writeBaudReq p = false) : Configured b (next r p) := by
  have hkeep : (next r p).uartCtrl = r.uartCtrl ∧ (next r p).uartBaud = r.uartBaud := by
    simp [next, hctrl, hbaud]
  exact
    { en := by
        rw [uartEn, hkeep.1]
        exact hc.en
      boundary := by
        rw [boundaryOn, hkeep.1]
        exact hc.boundary
      baud := by
        rw [hkeep.2]
        exact hc.baud }

theorem sendLine_after (t : Nat) :
    writeCtrlReq (sendLine (t + 2)) = false ∧ writeBaudReq (sendLine (t + 2)) = false := by
  cases hbyte : brokenOff[t]? with
  | none => simp [sendLine, hbyte, writeCtrlReq, writeBaudReq]
  | some v =>
      rw [sendLine, hbyte]
      exact ⟨rfl, rfl⟩

theorem configured_sendLine (t : Nat) : Configured 1519 (run powerUp sendLine (t + 2)) := by
  induction t with
  | zero => exact ⟨by decide +kernel, by decide +kernel, by decide +kernel⟩
  | succ t ih =>
      have hnone := sendLine_after t
      exact configured_next ih hnone.1 hnone.2

theorem inBoundaryMode_sendLine : InBoundaryMode powerUp sendLine := by
  -- nothing is sent before the port is configured
  have hidle : ∀ t, t < 2 → (run powerUp sendLine t).txr.state = .idle ∧
      (run powerUp sendLine t).txr.count = 0#4 := by decide +kernel
  intro t hbusy
  rcases Nat.lt_or_ge t 2 with hlt | hge
  · rcases hbusy with hstate | hcount
    · exact absurd (hidle t hlt).1 hstate
    · exact absurd (hidle t hlt).2 hcount
  · rcases Nat.exists_eq_add_of_le' hge with ⟨t, rfl⟩
    refine ⟨configured_sendLine t, ?_⟩
    rw [softResetReq, (sendLine_after t).1, Bool.false_and]

/-- All five bytes are accepted, and no other. -/
theorem log_sendLine (t : Nat) : log powerUp sendLine accepted (t + 7) = brokenOff := by
  induction t with
  | zero => decide +kernel
  | succ t ih =>
      have hend : brokenOff[t + 5]? = none := List.getElem?_eq_none (Nat.le_add_left 5 t)
      have hquiet : writeDataReq (sendLine (t + 7)) = false := by
        rw [show t + 7 = t + 5 + 2 from rfl, sendLine, hend]
        rfl
      calc
        log powerUp sendLine accepted (t + 1 + 7)
          = log powerUp sendLine accepted (t + 7) ++
              accepted (run powerUp sendLine (t + 7)) (sendLine (t + 7)) := by
            rw [Nat.add_right_comm, log]
        _ = brokenOff := by
            rw [ih, accepted, txPush, hquiet, Bool.and_false, Bool.false_and,
              if_neg Bool.false_ne_true, List.append_nil]

/-- The five bytes are written, and the harness is not told that the benchmark has ended. -/
theorem decoder_exact_sendLine :
    (∀ t, ∃ s, decode (txLine powerUp sendLine) t = .ok s ∧ s.out <+: brokenOff) ∧
      (∃ u s, decode (txLine powerUp sendLine) u = .ok s ∧ s.out = brokenOff) ∧
      ¬ ∃ t, FirstTrue (txLine powerUp sendLine) t := by
  have hexact := decoder_exact powerUp sendLine inBoundaryMode_sendLine
  have hlog : ∀ u, log powerUp sendLine accepted u <+: brokenOff := fun u => by
    rw [← log_sendLine u]
    exact log_mono accepted (Nat.le_add_right u 7)
  have hwritten : ∀ t, ∃ s, decode (txLine powerUp sendLine) t = .ok s ∧ s.out <+: brokenOff :=
    fun t => (hexact.1 t).imp fun s hs => ⟨hs.1, hs.2.trans (hlog t)⟩
  refine ⟨hwritten, ?_, ?_⟩
  · rcases hexact.2.1 7 with ⟨u, s, hs, hall⟩
    rcases hwritten u with ⟨s', hs', hpre⟩
    rw [hs] at hs'
    obtain rfl : s = s' := Except.ok.inj hs'
    rw [log_sendLine 0] at hall
    exact ⟨u, s, hs, hpre.eq_of_length_le hall.length_le⟩
  · intro htrue
    rcases hexact.2.2.2.mp htrue with ⟨u, i, hfirst⟩
    -- five bytes do not hold the marker
    have hoccurs := (Matcher.firstAfter_iff.mp hfirst).2.1
    have hshort := (hoccurs.trans ((List.take_prefix i _).trans (hlog u)).isInfix).length_le
    exact absurd hshort (by decide)

end Uart

end RiscvCpu
