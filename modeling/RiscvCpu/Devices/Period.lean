import RiscvCpu.Lib.Clocked
import RiscvCpu.Soc.Timer

/-!
# Period — the distance between two expiries of the periodic timer

The prescaler counts in every cycle, but the countdown shares a priority chain with the bus write: a
write that meets a step of the countdown suppresses it.  Between two expiries the timer therefore
makes `N` steps and loses one for each such write, and each of them takes `P + 1` cycles.
-/

namespace RiscvCpu
namespace Timer

/-- The state in cycle `t` of the run from reset. -/
def run (inp : Nat → DevIn) (t : Nat) : Regs := Clocked.run next reset inp t

theorem run_succ_eq (inp : Nat → DevIn) (t : Nat) : run inp (t + 1) = next (run inp t) (inp t) := rfl

/-- Cycle `s` starts the timer in periodic mode; after it only reads and interrupt
acknowledgements reach it. -/
structure Periodic (inp : Nat → DevIn) (s : Nat) : Prop where
  we : (inp s).we = true
  addr : (inp s).addr = Map.TIMER_CTRL
  enable : (inp s).wdata.getLsbD 0 = true
  intEnable : (inp s).wdata.getLsbD 1 = true
  mode : (inp s).wdata.getLsbD 2 = true
  reload : (inp s).wdata.getLsbD 3 = true
  after : ∀ t, s < t → (inp t).we = true → (inp t).addr = Map.TIMER_INTCLR

/-- `N`: the value of `TIMER_LOAD`. -/
def load (r : Regs) : Nat := r.timerLoad.toNat

/-- `P`: the value of `TIMER_PRESCALER`, 0 when the prescaler is off. -/
def prescale (r : Regs) : Nat := if timerPrescalerEnable r then r.timerPrescaler.toNat else 0

variable (inp : Nat → DevIn) (t : Nat)

/-- The countdown steps from 1 back to the load value. -/
def Expires : Prop :=
  (inp t).we = false ∧ timerStep (run inp t) = true ∧ (run inp t).timerValue = 1#32

/-- A write meets a step of the countdown. -/
def StepLost : Prop := (inp t).we = true ∧ timerStep (run inp t) = true

/-- An acknowledgement with bit 0 set. -/
def Acknowledges : Prop :=
  (inp t).we = true ∧ (inp t).addr = Map.TIMER_INTCLR ∧ (inp t).wdata.getLsbD 0 = true

instance : Decidable (Expires inp t) := by
  unfold Expires
  infer_instance

instance : Decidable (StepLost inp t) := by
  unfold StepLost
  infer_instance

/-- Two expiries after the start with none between them. -/
structure Consecutive (inp : Nat → DevIn) (s a b : Nat) : Prop where
  started : s < a
  order : a < b
  first : Expires inp a
  second : Expires inp b
  between : ∀ t, a < t → t < b → ¬ Expires inp t

/-- The steps lost in the `n` cycles after cycle `a`. -/
def stepsLost (inp : Nat → DevIn) (a : Nat) : Nat → Nat
  | 0 => 0
  | n + 1 => stepsLost inp a n + if StepLost inp (a + 1 + n) then 1 else 0

theorem stepsLost_eq_zero (a n : Nat) :
    stepsLost inp a n = 0 ↔ ∀ t, a < t → t < a + 1 + n → ¬ StepLost inp t := by
  induction n with
  | zero =>
      constructor
      · intro _ t h1 h2
        omega
      · intro _
        rfl
  | succ n ih =>
      simp only [stepsLost, Nat.add_eq_zero_iff, ih]
      constructor
      · intro h t hat htn
        rcases Nat.lt_or_ge t (a + 1 + n) with hlt | hge
        · exact h.1 t hat hlt
        · have ht : t = a + 1 + n := by omega
          intro hlost
          rw [← ht, if_pos hlost] at h
          cases h.2
      · intro h
        constructor
        · intro t hat htn
          exact h t hat (by omega)
        · rw [if_neg (h _ (by omega) (by omega))]

variable {inp} {s : Nat}

/-! ## A running timer -/

/-- What stays as it was when the timer was started. -/
structure Running (r₀ r : Regs) : Prop where
  enable : timerEnable r = true
  intEnable : timerIntEnable r = true
  mode : timerMode r = true
  reload : timerReload r = true
  load : load r = load r₀
  prescalerEnable : timerPrescalerEnable r = timerPrescalerEnable r₀
  prescaler : r.timerPrescaler = r₀.timerPrescaler
  count : r.prescalerCount.toNat ≤ prescale r₀

theorem running_start (h : Periodic inp s) : Running (run inp (s + 1)) (run inp (s + 1)) := by
  have hctrl : (run inp (s + 1)).timerCtrl = (inp s).wdata := by
    simp [run_succ_eq, next, write, h.we, h.addr, Map.TIMER_CTRL, Map.TIMER_LOAD]
  have hcount : (run inp (s + 1)).prescalerCount = 0#32 := by
    simp [run_succ_eq, next, nextPrescalerCount, h.we, h.addr]
  exact
    { enable := by rw [timerEnable, hctrl]; exact h.enable
      intEnable := by rw [timerIntEnable, hctrl]; exact h.intEnable
      mode := by rw [timerMode, hctrl]; exact h.mode
      reload := by rw [timerReload, hctrl]; exact h.reload
      load := rfl
      prescalerEnable := rfl
      prescaler := rfl
      count := by rw [hcount]; exact Nat.zero_le _ }

section
variable {r₀ r : Regs} {p : DevIn}

/-- A running timer steps when the prescaler has reached its threshold. -/
theorem timerStep_iff (h : Running r₀ r) :
    timerStep r = true ↔ r.prescalerCount.toNat = prescale r₀ := by
  have hcount := h.count
  rw [timerStep, prescalerPulse, h.enable, h.prescalerEnable, h.prescaler]
  unfold prescale at hcount ⊢
  cases hen : timerPrescalerEnable r₀ with
  | false =>
      rw [hen] at hcount
      simpa using hcount
  | true =>
      rw [hen] at hcount
      simp only [if_true, Bool.not_true, Bool.false_or, Bool.true_and, decide_eq_true_eq,
        BitVec.le_def] at hcount ⊢
      omega

/-- An acknowledgement touches nothing but the interrupt. -/
theorem write_intclr (h : p.addr = Map.TIMER_INTCLR) :
    write r p = { r with timerInt := !p.wdata.getLsbD 0 && r.timerInt } := by
  have hload : (p.addr == Map.TIMER_LOAD) = false := by rw [h]; rfl
  have hctrl : (p.addr == Map.TIMER_CTRL) = false := by rw [h]; rfl
  have hclr : (p.addr == Map.TIMER_INTCLR) = true := by rw [h]; rfl
  rw [write, hload, hctrl, hclr]
  cases p.wdata.getLsbD 0 <;> rfl

/-- Only an expiry with its interrupt enabled raises the interrupt. -/
theorem expires_of_rise (hlow : r.timerInt = false) (hhigh : (next r p).timerInt = true) :
    p.we = false ∧ timerStep r = true ∧ r.timerValue = 1#32 ∧ timerIntEnable r = true := by
  -- a bus write never sets the flag, and neither does a cycle without a step
  cases hwe : p.we with
  | true =>
      have hwrite : (write r p).timerInt = false := by
        unfold write
        repeat' split
        all_goals simp [hlow]
      simp only [next, hwe, if_true, hwrite] at hhigh
      cases hhigh
  | false =>
      cases hstep : timerStep r with
      | false =>
          simp only [next, hwe, hstep, Bool.false_eq_true, if_false, hlow] at hhigh
      | true =>
          simp only [next, hwe, hstep, Bool.false_eq_true, if_false, if_true, countdown] at hhigh
          by_cases hgt : 1#32 < r.timerValue
          · simp [hgt, hlow] at hhigh
          · by_cases hone : r.timerValue = 1#32
            · cases hen : timerIntEnable r with
              | true => exact ⟨rfl, rfl, hone, rfl⟩
              | false => simp [hone, hen, hlow] at hhigh
            · simp [hgt, hone, hlow] at hhigh

/-- A step of the countdown leaves the configuration alone. -/
theorem countdown_config (r : Regs) :
    (countdown r).timerCtrl = r.timerCtrl ∧ (countdown r).timerLoad = r.timerLoad ∧
      (countdown r).timerPrescaler = r.timerPrescaler := by
  unfold countdown
  split
  next => exact ⟨rfl, rfl, rfl⟩
  next => split <;> exact ⟨rfl, rfl, rfl⟩

/-- The prescaler counts from 0 to its threshold, whatever the bus does. -/
theorem next_count (h : Running r₀ r) (hp : p.we = true → p.addr = Map.TIMER_INTCLR) :
    (next r p).prescalerCount.toNat =
      if timerStep r then 0 else r.prescalerCount.toNat + 1 := by
  have hstep := timerStep_iff h
  have hcount := h.count
  -- an acknowledgement does not restart the prescaler
  have hkeep : (p.we && (p.addr == Map.TIMER_CTRL || p.addr == Map.TIMER_PRESCALER)) = false := by
    cases hwe : p.we with
    | false => rfl
    | true =>
        rw [hp hwe]
        rfl
  show (nextPrescalerCount r p).toNat = _
  rw [nextPrescalerCount, h.enable, hkeep]
  cases hen : timerPrescalerEnable r with
  | false =>
      have hpulse : timerStep r = true := by simp [timerStep, prescalerPulse, h.enable, hen]
      simp [hpulse]
  | true =>
      have hpulse : timerStep r = decide (r.timerPrescaler ≤ r.prescalerCount) := by
        simp [timerStep, prescalerPulse, h.enable, hen]
      by_cases hle : r.timerPrescaler ≤ r.prescalerCount
      · simp [hpulse, hle]
      · have hlt : r.prescalerCount.toNat < r.timerPrescaler.toNat := by
          simpa [BitVec.le_def] using hle
        have hword := r.timerPrescaler.isLt
        simp only [hpulse, hle, decide_false, Bool.not_true, Bool.or_self, Bool.false_eq_true,
          if_false, BitVec.toNat_add, BitVec.toNat_ofNat]
        omega

/-- The countdown: a write holds it, a step takes 1 off or reloads. -/
theorem next_value (h : Running r₀ r) (hp : p.we = true → p.addr = Map.TIMER_INTCLR) :
    (next r p).timerValue =
      if p.we = true ∨ timerStep r = false then r.timerValue
      else if r.timerValue = 1#32 then r₀.timerLoad
      else if 1#32 < r.timerValue then r.timerValue - 1#32
      else r.timerValue := by
  have hload : r.timerLoad = r₀.timerLoad := BitVec.toNat_inj.mp h.load
  cases hwe : p.we with
  | true =>
      simp [next, hwe, write_intclr (hp hwe)]
  | false =>
      cases hst : timerStep r with
      | false => simp [next, hwe, hst]
      | true =>
          simp only [next, hwe, hst, countdown, h.mode, h.reload]
          by_cases hone : r.timerValue = 1#32
          · simp [hone, hload]
          · by_cases hgt : 1#32 < r.timerValue <;> simp [hone, hgt]

/-- A write holds the countdown, and so does a cycle without a step. -/
theorem next_value_kept (h : Running r₀ r) (hp : p.we = true → p.addr = Map.TIMER_INTCLR)
    (hno : p.we = true ∨ timerStep r = false) : (next r p).timerValue = r.timerValue := by
  rw [next_value h hp, if_pos hno]

/-- A step that neither meets a write nor expires takes 1 off. -/
theorem next_value_down (h : Running r₀ r) (hp : p.we = true → p.addr = Map.TIMER_INTCLR)
    (hwe : p.we = false) (hstep : timerStep r = true) (hpos : 0 < r.timerValue.toNat)
    (hne : r.timerValue ≠ 1#32) :
    (next r p).timerValue.toNat + 1 = r.timerValue.toNat ∧ 0 < (next r p).timerValue.toNat := by
  have hne' : r.timerValue.toNat ≠ 1 := fun hone => hne (BitVec.toNat_inj.mp hone)
  have hgt : 1#32 < r.timerValue := by
    rw [BitVec.lt_def]
    simp only [BitVec.toNat_ofNat]
    omega
  have hword := r.timerValue.isLt
  simp only [next_value h hp, hwe, hstep, hne, hgt, Bool.false_eq_true, Bool.true_eq_false,
    or_self, if_false, if_true, BitVec.toNat_sub, BitVec.toNat_ofNat]
  omega

theorem running_next (h : Running r₀ r) (hp : p.we = true → p.addr = Map.TIMER_INTCLR) :
    Running r₀ (next r p) := by
  have hcount := next_count h hp
  have hstep := timerStep_iff h
  have hle := h.count
  -- neither an acknowledgement nor a step touches the configuration
  have hkeep : (next r p).timerCtrl = r.timerCtrl ∧ (next r p).timerLoad = r.timerLoad ∧
      (next r p).timerPrescaler = r.timerPrescaler := by
    cases hwe : p.we with
    | true =>
        simp [next, hwe, write_intclr (hp hwe)]
    | false =>
        have hdown := countdown_config r
        simp only [next, hwe, Bool.false_eq_true, if_false]
        split
        next => exact hdown
        next => exact ⟨rfl, rfl, rfl⟩
  rcases hkeep with ⟨hctrl, hload, hprescaler⟩
  exact
    { enable := by rw [timerEnable, hctrl]; exact h.enable
      intEnable := by rw [timerIntEnable, hctrl]; exact h.intEnable
      mode := by rw [timerMode, hctrl]; exact h.mode
      reload := by rw [timerReload, hctrl]; exact h.reload
      load := by rw [Timer.load, hload]; exact h.load
      prescalerEnable := by rw [timerPrescalerEnable, hctrl]; exact h.prescalerEnable
      prescaler := hprescaler.trans h.prescaler
      count := by
        rw [hcount]
        split
        next => exact Nat.zero_le _
        next hno =>
          have hne : r.prescalerCount.toNat ≠ prescale r₀ := fun he => hno (hstep.mpr he)
          omega }

end

/-! ## Between two expiries -/

theorem running_run (h : Periodic inp s) {t : Nat} (hst : s < t) :
    Running (run inp (s + 1)) (run inp t) := by
  refine @Clocked.run_invariant_from _ _ next reset inp (fun _ r => Running (run inp (s + 1)) r)
    (s + 1) (running_start h) ?_ t hst
  intro n hn hrun
  exact running_next hrun (h.after n hn)

/-- An expiry reloads the countdown and restarts the prescaler. -/
theorem after_expiry (h : Periodic inp s) {a : Nat} (hsa : s < a) (hexp : Expires inp a) :
    (run inp (a + 1)).timerValue = (run inp (s + 1)).timerLoad ∧
      (run inp (a + 1)).prescalerCount.toNat = 0 := by
  rcases hexp with ⟨hwe, hstep, hvalue⟩
  have hrun := running_run h hsa
  constructor
  · rw [run_succ_eq, next_value hrun (h.after a hsa)]
    simp [hwe, hstep, hvalue]
  · rw [run_succ_eq, next_count hrun (h.after a hsa), if_pos hstep]

/-- In `n` cycles after an expiry in which the timer does not expire, each `P + 1` cycles make a
step, and each step that is not lost takes 1 off the load value. -/
theorem steps_since (h : Periodic inp s) {a : Nat} (hsa : s < a) (hexp : Expires inp a)
    (hload : 0 < load (run inp (s + 1))) (n : Nat)
    (hnone : ∀ t, a < t → t < a + 1 + n → ¬ Expires inp t) :
    ∃ k, (run inp (a + 1 + n)).timerValue.toNat + k =
        load (run inp (s + 1)) + stepsLost inp a n ∧
      0 < (run inp (a + 1 + n)).timerValue.toNat ∧
      n = k * (prescale (run inp (s + 1)) + 1) + (run inp (a + 1 + n)).prescalerCount.toNat := by
  induction n with
  | zero =>
      rcases after_expiry h hsa hexp with ⟨hvalue, hcount⟩
      refine ⟨0, ?_, ?_, ?_⟩
      · rw [Nat.add_zero, hvalue]
        rfl
      · rw [Nat.add_zero, hvalue]
        exact hload
      · rw [Nat.add_zero, hcount]
        omega
  | succ n ih =>
      rcases ih (fun t hat htn => hnone t hat (by omega)) with ⟨k, hvalue, hpos, hn⟩
      have hsn : s < a + 1 + n := by omega
      have hrun := running_run h hsn
      have hcount := next_count hrun (h.after _ hsn)
      rw [← run_succ_eq] at hcount
      rw [← Nat.add_assoc]
      cases hstep : timerStep (run inp (a + 1 + n)) with
      | false =>
          -- the prescaler advances
          have hkept := next_value_kept hrun (h.after _ hsn) (Or.inr hstep)
          rw [← run_succ_eq] at hkept
          refine ⟨k, ?_, ?_, ?_⟩
          · simp [hkept, hstep, stepsLost, StepLost, hvalue]
          · rw [hkept]
            exact hpos
          · rw [hcount, hstep]
            simp only [Bool.false_eq_true, if_false]
            omega
      | true =>
          rw [hstep, if_pos rfl] at hcount
          have hthreshold := (timerStep_iff hrun).mp hstep
          have hcycles : n + 1 = (k + 1) * (prescale (run inp (s + 1)) + 1) := by
            rw [Nat.succ_mul]
            omega
          cases hwe : (inp (a + 1 + n)).we with
          | true =>
              -- the write holds the countdown: this step is lost
              have hkept := next_value_kept hrun (h.after _ hsn) (Or.inl hwe)
              rw [← run_succ_eq] at hkept
              have hlost : StepLost inp (a + 1 + n) := ⟨hwe, hstep⟩
              refine ⟨k + 1, ?_, ?_, ?_⟩
              · simp only [hkept, stepsLost, hlost, if_true]
                omega
              · rw [hkept]
                exact hpos
              · rw [hcount]
                exact hcycles
          | false =>
              have hkept : ¬ StepLost inp (a + 1 + n) := fun hl => by
                rw [hl.1] at hwe
                cases hwe
              have hne : (run inp (a + 1 + n)).timerValue ≠ 1#32 := fun hone =>
                hnone (a + 1 + n) (by omega) (by omega) ⟨hwe, hstep, hone⟩
              rcases next_value_down hrun (h.after _ hsn) hwe hstep hpos hne with ⟨hdown, hpos'⟩
              rw [← run_succ_eq] at hdown hpos'
              refine ⟨k + 1, ?_, hpos', ?_⟩
              · simp only [stepsLost, hkept, if_false]
                omega
              · rw [hcount]
                exact hcycles

/-- Two consecutive expiries are as many steps apart as the load value says and steps were lost. -/
theorem spacing (h : Periodic inp s) (hload : 0 < load (run inp (s + 1))) {a b : Nat}
    (hab : Consecutive inp s a b) :
    b = a + (load (run inp (s + 1)) + stepsLost inp a (b - (a + 1))) *
      (prescale (run inp (s + 1)) + 1) := by
  have hlast : a + 1 + (b - (a + 1)) = b := by
    have := hab.order
    omega
  rcases steps_since h hab.started hab.first hload (b - (a + 1))
    (fun t hat htb => hab.between t hat (hlast ▸ htb)) with ⟨k, hvalue, -, hn⟩
  rcases hab.second with ⟨-, hstep, hone⟩
  rw [hlast] at hvalue hn
  have hcount := (timerStep_iff (running_run h (Nat.lt_trans hab.started hab.order))).mp hstep
  rw [hone] at hvalue
  have hk : k + 1 = load (run inp (s + 1)) + stepsLost inp a (b - (a + 1)) := by
    simpa [Nat.add_comm] using hvalue
  rw [hcount] at hn
  rw [← hk, Nat.succ_mul]
  omega

/-! ## The interrupt -/

/-- The interrupt of an expiry stays high until it is acknowledged. -/
theorem timerInt_of_expiry (h : Periodic inp s) {a : Nat} (hsa : s < a) (hexp : Expires inp a)
    {u : Nat} (hau : a < u) (hno : ∀ t, a < t → t < u → ¬ Acknowledges inp t) :
    (run inp u).timerInt = true := by
  -- by induction on the distance from the expiry
  induction hau with
  | refl =>
      rcases hexp with ⟨hwe, hstep, hvalue⟩
      have hrun := running_run h hsa
      simp [run_succ_eq, next, hwe, hstep, countdown, hvalue, hrun.intEnable]
  | @step u hau ih =>
      have hau' : a < u := hau
      have hint := ih (fun t hat htu => hno t hat (Nat.lt_succ_of_lt htu))
      have hsu : s < u := Nat.lt_trans hsa hau'
      rw [run_succ_eq]
      cases hwe : (inp u).we with
      | true =>
          have haddr := h.after u hsu hwe
          have hbit : (inp u).wdata.getLsbD 0 = false := by
            by_contra hne
            exact hno u hau' (Nat.lt_succ_self u) ⟨hwe, haddr, by simpa using hne⟩
          simp only [next, hwe, if_true, write_intclr haddr, hbit, hint, Bool.not_false, Bool.and_self]
      | false =>
          simp only [next, hwe, Bool.false_eq_true, if_false, countdown]
          repeat' split
          all_goals simp [hint]

/-! ## The period -/

/-- The period law: expiries come every `N * (P + 1)` cycles, and the interrupt of each stays high
until it is acknowledged. -/
structure KeepsPeriod (inp : Nat → DevIn) (s : Nat) : Prop where
  period : ∀ a b, Consecutive inp s a b →
    b = a + load (run inp (s + 1)) * (prescale (run inp (s + 1)) + 1)
  interrupt : ∀ a u, s < a → Expires inp a → a < u →
    (∀ t, a < t → t < u → ¬ Acknowledges inp t) → (run inp u).timerInt = true

theorem keeps_period_iff (h : Periodic inp s) (hload : 0 < load (run inp (s + 1))) :
    KeepsPeriod inp s ↔
      ∀ a b, Consecutive inp s a b → ∀ t, a < t → t < b → ¬ StepLost inp t := by
  -- the period of one pair is right exactly when no step was lost between the two
  have hpair : ∀ a b, Consecutive inp s a b →
      (b = a + load (run inp (s + 1)) * (prescale (run inp (s + 1)) + 1) ↔
        ∀ t, a < t → t < b → ¬ StepLost inp t) := by
    intro a b hab
    have hspace := spacing h hload hab
    have hlast : a + 1 + (b - (a + 1)) = b := by
      have := hab.order
      omega
    have hzero := stepsLost_eq_zero inp a (b - (a + 1))
    rw [hlast] at hzero
    rw [← hzero]
    constructor
    · intro hb
      have heq := Nat.add_left_cancel (hspace.symm.trans hb)
      have := Nat.eq_of_mul_eq_mul_right (Nat.succ_pos _) heq
      omega
    · intro hz
      rw [hz, Nat.add_zero] at hspace
      exact hspace
  constructor
  · intro hk a b hab
    exact (hpair a b hab).mp (hk.period a b hab)
  · intro hno
    refine ⟨fun a b hab => (hpair a b hab).mpr (hno a b hab), ?_⟩
    intro a u hsa hexp hau hack
    exact timerInt_of_expiry h hsa hexp hau hack

/-! ### Acknowledgements of a step and between two steps -/

def idle : DevIn := ⟨0#16, 0#32, false, false⟩

def busWrite (addr : BitVec 16) (data : Word) : DevIn := ⟨addr, data, true, false⟩

/-- `N = 3` without prescaler: the expiry of cycle 4 is acknowledged in cycle 5. -/
def acknowledgedAtStep : Nat → DevIn
  | 0 => busWrite Map.TIMER_LOAD 3#32
  | 1 => busWrite Map.TIMER_CTRL 0b01111#32
  | 5 => busWrite Map.TIMER_INTCLR 1#32
  | _ => idle

/-- `N = 2` and `P = 1`: the expiry of cycle 6 is acknowledged in cycle 7. -/
def acknowledgedBetween : Nat → DevIn
  | 0 => busWrite Map.TIMER_LOAD 2#32
  | 1 => busWrite Map.TIMER_PRESCALER 1#32
  | 2 => busWrite Map.TIMER_CTRL 0b11111#32
  | 7 => busWrite Map.TIMER_INTCLR 1#32
  | _ => idle

/-- A run whose only write after its start is an acknowledgement. -/
theorem periodic_of_one {inp : Nat → DevIn} {s k : Nat} {data : Word}
    (hs : inp s = busWrite Map.TIMER_CTRL data)
    (hbits : data.getLsbD 0 = true ∧ data.getLsbD 1 = true ∧ data.getLsbD 2 = true ∧
      data.getLsbD 3 = true)
    (hk : inp k = busWrite Map.TIMER_INTCLR 1#32)
    (hidle : ∀ t, s < t → t ≠ k → inp t = idle) : Periodic inp s := by
  refine ⟨by rw [hs]; rfl, by rw [hs]; rfl, ?_, ?_, ?_, ?_, ?_⟩
  · rw [hs]; exact hbits.1
  · rw [hs]; exact hbits.2.1
  · rw [hs]; exact hbits.2.2.1
  · rw [hs]; exact hbits.2.2.2
  · intro t hst hwe
    by_cases htk : t = k
    · rw [htk, hk]
      rfl
    · rw [hidle t hst htk] at hwe
      cases hwe

theorem periodic_acknowledgedAtStep : Periodic acknowledgedAtStep 1 := by
  refine periodic_of_one (k := 5) rfl (by decide) rfl ?_
  intro t ht hne
  unfold acknowledgedAtStep
  split
  next => cases ht
  next => omega
  next => exact absurd rfl hne
  next => rfl

theorem periodic_acknowledgedBetween : Periodic acknowledgedBetween 2 := by
  refine periodic_of_one (k := 7) rfl (by decide) rfl ?_
  intro t ht hne
  unfold acknowledgedBetween
  split
  next => cases ht
  next => omega
  next => omega
  next => exact absurd rfl hne
  next => rfl

/-- The expiries of cycles 4 and 8 are four cycles apart, not three. -/
theorem period_not_kept :
    Periodic acknowledgedAtStep 1 ∧ load (run acknowledgedAtStep 2) = 3 ∧
      prescale (run acknowledgedAtStep 2) = 0 ∧ Consecutive acknowledgedAtStep 1 4 8 ∧
      ¬ KeepsPeriod acknowledgedAtStep 1 := by
  have hload : load (run acknowledgedAtStep 2) = 3 := by decide +kernel
  have hpre : prescale (run acknowledgedAtStep 2) = 0 := by decide +kernel
  have hab : Consecutive acknowledgedAtStep 1 4 8 := by
    refine ⟨by decide, by decide, by decide +kernel, by decide +kernel, ?_⟩
    intro t h4 h8
    have ht : t = 5 ∨ t = 6 ∨ t = 7 := by omega
    rcases ht with rfl | rfl | rfl <;> decide +kernel
  refine ⟨periodic_acknowledgedAtStep, hload, hpre, hab, ?_⟩
  intro h
  have := h.period 4 8 hab
  rw [hload, hpre] at this
  cases this

theorem keeps_period_iff_between :
    load (run acknowledgedBetween 3) = 2 ∧ prescale (run acknowledgedBetween 3) = 1 ∧
      Expires acknowledgedBetween 6 ∧ KeepsPeriod acknowledgedBetween 2 := by
  refine ⟨by decide +kernel, by decide +kernel, by decide +kernel, ?_⟩
  refine (keeps_period_iff periodic_acknowledgedBetween (by decide +kernel)).mpr ?_
  intro a b hab t hat htb hlost
  have h2t : 2 < t := Nat.lt_trans hab.started hat
  by_cases h7 : t = 7
  · subst h7
    exact absurd hlost (by decide +kernel)
  · have hwe := hlost.1
    unfold acknowledgedBetween at hwe
    split at hwe
    next => cases h2t
    next => omega
    next => omega
    next => exact h7 rfl
    next => cases hwe

end Timer
end RiscvCpu
