import RiscvCpu.Lib.Serial

/-!
# Frames — one frame after another on a line

What is on a line is the last frame that has begun, and its age.  A frame grows older until the next one
begins, `gap` cycles after it or later; before the first frame the line is high.
-/

namespace RiscvCpu
namespace Serial

variable {n : Nat}

/-- A frame and its age in cycles. -/
structure Frame (n : Nat) where
  byte : BitVec n
  age : Nat

/-- The level of a line with bits of `P` cycles. -/
def level (P : Nat) : Option (Frame n) → Bool
  | none => true
  | some f => lineAt P f.byte f.age

/-- What can be on the line in the next cycle. -/
inductive Goes (gap : Nat) : Option (Frame n) → Option (Frame n) → Prop
  | silent : Goes gap none none
  | first (x : BitVec n) : Goes gap none (some ⟨x, 0⟩)
  | older (f : Frame n) : Goes gap (some f) (some ⟨f.byte, f.age + 1⟩)
  | again (f : Frame n) (x : BitVec n) (h : gap ≤ f.age + 1) : Goes gap (some f) (some ⟨x, 0⟩)

/-- A line on which frames begin `gap` cycles apart or more. -/
structure Spaced (gap : Nat) (line : Nat → Option (Frame n)) : Prop where
  silent : line 0 = none
  goes : ∀ t, Goes gap (line t) (line (t + 1))

variable {gap : Nat} {line : Nat → Option (Frame n)}

/-! ## Delay -/

/-- The line as it is seen `k` cycles late. -/
def delay (k : Nat) (line : Nat → Option (Frame n)) (t : Nat) : Option (Frame n) :=
  if t < k then none else line (t - k)

@[simp] theorem delay_zero (t : Nat) : delay 0 line t = line t := rfl

theorem delay_succ (k t : Nat) : delay (k + 1) line (t + 1) = delay k line t := by
  simp only [delay, Nat.add_lt_add_iff_right, Nat.add_sub_add_right]

theorem delay_start (k : Nat) : delay (k + 1) line 0 = none := if_pos (Nat.succ_pos k)

theorem delay_add (k t : Nat) : delay k line (t + k) = line t := by
  rw [delay, if_neg (by omega), Nat.add_sub_cancel]

theorem spaced_delay (h : Spaced gap line) (k : Nat) : Spaced gap (delay k line) := by
  induction k with
  | zero => exact h
  | succ k ih =>
      refine { silent := delay_start k, goes := ?_ }
      intro t
      rcases t with - | t
      · rw [delay_start, delay_succ, ih.silent]
        exact .silent
      · rw [delay_succ, delay_succ]
        exact ih.goes t

/-! ## Age -/

/-- A frame has begun as many cycles before as it is old. -/
theorem begins (h : Spaced gap line) {t : Nat} {f : Frame n} (hf : line t = some f) :
    ∃ s, t = s + f.age ∧ line s = some ⟨f.byte, 0⟩ := by
  induction t generalizing f with
  | zero =>
      rw [h.silent] at hf
      cases hf
  | succ t ih =>
      have hgoes := h.goes t
      rw [hf] at hgoes
      generalize hg : line t = o at hgoes
      cases hgoes with
      | first x => exact ⟨t + 1, rfl, hf⟩
      | older g =>
          rcases ih hg with ⟨s, hs, hbegin⟩
          exact ⟨s, congrArg (· + 1) hs, hbegin⟩
      | again g x hage => exact ⟨t + 1, rfl, hf⟩

/-- In the last data bit and behind it the line does not fall. -/
theorem lineAt_rise {P : Nat} (x : BitVec n) {age : Nat} (hage : n * P ≤ age)
    (h : lineAt P x age = true) : lineAt P x (age + 1) = true := by
  rcases Nat.eq_zero_or_pos P with rfl | hP
  · rw [lineAt, Nat.div_zero] at h
    cases h
  · have hslot : n ≤ age / P := (Nat.le_div_iff_mul_le hP).mpr hage
    rw [lineAt] at h ⊢
    rcases Nat.lt_or_ge n ((age + 1) / P) with hlt | hge
    · exact frameBit_stop x hlt
    · -- still the same bit
      have hmono : age / P ≤ (age + 1) / P := Nat.div_le_div_right (Nat.le_succ age)
      rw [show (age + 1) / P = age / P by omega]
      exact h

/-- Behind the stop bit the line is high. -/
theorem level_stop {P : Nat} {f : Frame n} (hP : 0 < P) (h : (n + 1) * P ≤ f.age) :
    level P (some f) = true := by
  have hslot : n < f.age / P := (Nat.le_div_iff_mul_le hP).mpr h
  exact frameBit_stop f.byte hslot

/-- A new frame finds the line high, and pulls it low. -/
theorem level_fall {P : Nat} (hP : 0 < P) (hgap : (n + 1) * P < gap) {o : Option (Frame n)}
    {x : BitVec n} (h : Goes gap o (some ⟨x, 0⟩)) :
    level P o = true ∧ level P (some (⟨x, 0⟩ : Frame n)) = false := by
  have hlow : level P (some (⟨x, 0⟩ : Frame n)) = false := by
    rw [level, lineAt, Nat.zero_div]
    rfl
  refine ⟨?_, hlow⟩
  cases h with
  | first => rfl
  | again f _ hage => exact level_stop hP (by omega)

/-! ## Bytes -/

/-- What comes before cycle `t`, in order. -/
def upTo {α : Type} (out : Nat → List α) : Nat → List α
  | 0 => []
  | t + 1 => upTo out t ++ out t

theorem upTo_mono {α : Type} (out : Nat → List α) {t u : Nat} (h : t ≤ u) :
    upTo out t <+: upTo out u := by
  induction h with
  | refl => exact List.prefix_refl _
  | step _ ih => exact ih.trans (List.prefix_append _ _)

/-- The byte of a frame that is `d` cycles old. -/
def aged (d : Nat) : Option (Frame n) → List (BitVec n)
  | none => []
  | some f => if f.age = d then [f.byte] else []

/-- The bytes whose frames have come to the age of `d` cycles before cycle `t`. -/
def passed (d : Nat) (line : Nat → Option (Frame n)) : Nat → List (BitVec n) :=
  upTo fun k => aged d (line k)

/-- The bytes whose frames have begun before cycle `t`. -/
def begun (line : Nat → Option (Frame n)) : Nat → List (BitVec n) := passed 0 line

theorem passed_delay (d k t : Nat) : passed d (delay k line) (t + k) = passed d line t := by
  have hnone : ∀ u, u ≤ k → passed d (delay k line) u = [] := by
    intro u
    induction u with
    | zero => intro _; rfl
    | succ u ih =>
        intro hu
        have hlate : delay k line u = none := if_pos hu
        show passed d (delay k line) u ++ aged d (delay k line u) = []
        rw [ih (Nat.le_of_succ_le hu), hlate]
        rfl
  induction t with
  | zero =>
      rw [Nat.zero_add]
      exact hnone k (Nat.le_refl k)
  | succ t ih =>
      rw [Nat.succ_add]
      show passed d (delay k line) (t + k) ++ aged d (delay k line (t + k)) =
        passed d line t ++ aged d (line t)
      rw [ih, delay_add]

/-- A frame that comes to the age of `d` cycles has begun `d` cycles before. -/
theorem passed_add {d : Nat} (h : Spaced gap line) (hd : d < gap) (t : Nat) :
    passed d line (t + d) = begun line t := by
  have haged : ∀ d, d + 1 < gap → ∀ t, aged (d + 1) (line (t + 1)) = aged d (line t) := by
    intro d hd t
    have hgoes := h.goes t
    generalize line t = o, line (t + 1) = o' at hgoes ⊢
    cases hgoes with
    | silent => rfl
    | first x => simp [aged]
    | older f => simp [aged]
    | again f x hage =>
        have hne : f.age ≠ d := by omega
        simp [aged, hne]
  have hpassed : ∀ d, d + 1 < gap → ∀ t, passed (d + 1) line (t + 1) = passed d line t := by
    intro d hd t
    induction t with
    | zero =>
        show [] ++ aged (d + 1) (line 0) = []
        rw [h.silent]
        rfl
    | succ t ih =>
        show passed (d + 1) line (t + 1) ++ aged (d + 1) (line (t + 1)) =
          passed d line t ++ aged d (line t)
        rw [ih, haged d hd t]
  induction d with
  | zero => rfl
  | succ d ih => rw [← Nat.add_assoc, hpassed d hd, ih (Nat.lt_of_succ_lt hd)]

end Serial
end RiscvCpu
