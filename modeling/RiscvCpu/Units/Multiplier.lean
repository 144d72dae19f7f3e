import RiscvCpu.Lib.Clocked
import RiscvCpu.Refine.MulDiv

/-!
# Multiplier — every product of the multiplier pipeline

The multiplier takes one operation at a time and may be killed, started again or held back in every
cycle.  `InUnit` says which operation it works on, from the history of its inputs alone; `Phase` ties
the registers to that operation and its age.
-/

namespace RiscvCpu
namespace MulPipeline

/-! ## The exact product -/

/-- An operand as a number, signed or unsigned by its own flag. -/
def operandValue (signed : Bool) (x : Word) : Int := if signed then x.toInt else x.toNat

/-- The exact product, as a 64-bit word. -/
def exactProduct (p : Ports) : BitVec 64 :=
  BitVec.ofInt 64 (operandValue p.src1Signed p.src1 * operandValue p.src2Signed p.src2)

/-- The word of the exact product that the operation asks for. -/
def productWord (p : Ports) : Word :=
  if p.highResult then (exactProduct p).extractLsb' 32 32 else (exactProduct p).extractLsb' 0 32

/-- The multiplication on the ports, as a packet of the decoder. -/
def packet (p : Ports) : MulPacket :=
  ⟨⟨!p.highResult, p.highResult, false, false⟩, p.src1Signed, p.src2Signed⟩

theorem extend_eq_ofInt (signed : Bool) (x : Word) :
    extend signed x = BitVec.ofInt 64 (operandValue signed x) := by
  cases signed with
  | true => rfl
  | false =>
      apply BitVec.eq_of_toNat_eq
      have hx := x.isLt
      simp [extend, operandValue]

theorem exactProduct_eq (p : Ports) :
    exactProduct p = extend p.src1Signed p.src1 * extend p.src2Signed p.src2 := by
  calc exactProduct p
      = BitVec.ofInt 64 (operandValue p.src1Signed p.src1) *
          BitVec.ofInt 64 (operandValue p.src2Signed p.src2) := BitVec.ofInt_mul ..
    _ = extend p.src1Signed p.src1 * extend p.src2Signed p.src2 := by
          rw [extend_eq_ofInt, extend_eq_ofInt]

/-- The low word does not depend on the signs. -/
theorem extend_low (signed : Bool) (x : Word) : (extend signed x).setWidth 32 = x := by
  cases signed with
  | true =>
      apply BitVec.eq_of_getLsbD_eq
      intro n hn
      have hn' : n < 64 := by omega
      simp [extend, BitVec.getElem_signExtend, hn, hn']
  | false => simp [extend]

theorem productWord_eq (p : Ports) : productWord p = (packet p).value p.src1 p.src2 := by
  rw [productWord, exactProduct_eq]
  cases hhigh : p.highResult with
  | true => simp [packet, MulPacket.value, Isa.mulHigh, hhigh]
  | false =>
      have hlow : (extend p.src1Signed p.src1 * extend p.src2Signed p.src2).extractLsb' 0 32 =
          p.src1 * p.src2 :=
        calc (extend p.src1Signed p.src1 * extend p.src2Signed p.src2).extractLsb' 0 32
            = (extend p.src1Signed p.src1 * extend p.src2Signed p.src2).setWidth 32 :=
                (BitVec.setWidth_eq_extractLsb' (by decide)).symm
          _ = (extend p.src1Signed p.src1).setWidth 32 * (extend p.src2Signed p.src2).setWidth 32 :=
                BitVec.setWidth_mul _ _ (by decide)
          _ = p.src1 * p.src2 := by rw [extend_low, extend_low]
      rw [if_neg Bool.false_ne_true, hlow]
      simp [packet, MulPacket.value, hhigh]

/-! ## The operation in the unit -/

/-- The state in cycle `t`, for a high word ready after `stages` cycles. -/
def pipeRun (stages : Nat) (r₀ : Regs) (p : Nat → Ports) (t : Nat) : Regs :=
  Clocked.run (next stages) (clear r₀) p t

theorem pipeRun_succ (stages : Nat) (r₀ : Regs) (p : Nat → Ports) (t : Nat) :
    pipeRun stages r₀ p (t + 1) = next stages (pipeRun stages r₀ p t) (p t) := rfl

/-- The cycles from the acceptance of an operation to its result. -/
def latency (stages : Nat) (p : Ports) : Nat := if p.highResult then stages else 2

section
variable (stages : Nat) (r₀ : Regs) (p : Nat → Ports)

/-- A start is accepted in cycle `c`. -/
def Accepted (c : Nat) : Prop :=
  startAccept (pipeRun stages r₀ p c) (p c) = true ∧ (p c).kill = false

/-- The operation accepted in cycle `c` is in the unit in cycle `n`: it has not been killed, and its
result, once there, has not been taken. -/
structure InUnit (c n : Nat) : Prop where
  accepted : Accepted stages r₀ p c
  started : c < n
  alive : ∀ k, c < k → k < n → (p k).kill = false
  untaken : ∀ k, c + latency stages (p c) ≤ k → k < n → (p k).resultReady = false

/-- The operation of cycle `c` has loaded the registers of the first stage. -/
def LoadedFrom (c n : Nat) : Prop :=
  Loaded (pipeRun stages r₀ p n) (packet (p c)) (p c).src1 (p c).src2

/-- The registers in cycle `n` and the operation in the unit. -/
inductive Phase (n : Nat) : Prop
  | idle
      (active : (pipeRun stages r₀ p n).active = false)
      (done : (pipeRun stages r₀ p n).done = false)
      (stage1 : (pipeRun stages r₀ p n).stage1Valid = false)
      (stage2 : (pipeRun stages r₀ p n).stage2Valid = false)
      (none : ∀ c, ¬ InUnit stages r₀ p c n)
  | stage1 (c : Nat) (age : n = c + 1)
      (active : (pipeRun stages r₀ p n).active = true)
      (done : (pipeRun stages r₀ p n).done = false)
      (stage1 : (pipeRun stages r₀ p n).stage1Valid = true)
      (stage2 : (pipeRun stages r₀ p n).stage2Valid = false)
      (loaded : LoadedFrom stages r₀ p c n)
      (one : ∀ c', InUnit stages r₀ p c' n ↔ c' = c)
  | stage2 (c : Nat) (age : n = c + 2) (deep : latency stages (p c) = 3)
      (active : (pipeRun stages r₀ p n).active = true)
      (done : (pipeRun stages r₀ p n).done = false)
      (stage1 : (pipeRun stages r₀ p n).stage1Valid = false)
      (stage2 : (pipeRun stages r₀ p n).stage2Valid = true)
      (loaded : LoadedFrom stages r₀ p c n)
      (middle : (pipeRun stages r₀ p n).middleHighR =
        (middleSum (pipeRun stages r₀ p n)).extractLsb' 16 17)
      (top : (pipeRun stages r₀ p n).partialHhR = (pipeRun stages r₀ p n).partialHh)
      (one : ∀ c', InUnit stages r₀ p c' n ↔ c' = c)
  | product (c : Nat) (age : c + latency stages (p c) ≤ n)
      (active : (pipeRun stages r₀ p n).active = true)
      (done : (pipeRun stages r₀ p n).done = true)
      (stage1 : (pipeRun stages r₀ p n).stage1Valid = false)
      (complete : highComplete stages (pipeRun stages r₀ p n) = false)
      (result : (pipeRun stages r₀ p n).result = productWord (p c))
      (one : ∀ c', InUnit stages r₀ p c' n ↔ c' = c)

end

variable {stages : Nat} {r₀ : Regs} {p : Nat → Ports} {n : Nat}

theorem two_le_latency (hstages : stages = 2 ∨ stages = 3) (q : Ports) :
    2 ≤ latency stages q := by
  unfold latency
  split <;> omega

theorem inUnit_succ (hstages : stages = 2 ∨ stages = 3) (c : Nat) :
    InUnit stages r₀ p c (n + 1) ↔
      (c = n ∧ Accepted stages r₀ p n) ∨
        (InUnit stages r₀ p c n ∧ (p n).kill = false ∧
          (c + latency stages (p c) ≤ n → (p n).resultReady = false)) := by
  constructor
  · intro h
    rcases Nat.lt_succ_iff_lt_or_eq.mp h.started with hlt | rfl
    · refine Or.inr ⟨⟨h.accepted, hlt, ?_, ?_⟩, h.alive n hlt (Nat.lt_succ_self n), ?_⟩
      · intro k hk hkn
        exact h.alive k hk (Nat.lt_succ_of_lt hkn)
      · intro k hk hkn
        exact h.untaken k hk (Nat.lt_succ_of_lt hkn)
      · intro hage
        exact h.untaken n hage (Nat.lt_succ_self n)
    · exact Or.inl ⟨rfl, h.accepted⟩
  · rintro (⟨rfl, hacc⟩ | ⟨h, hkill, hready⟩)
    · refine ⟨hacc, Nat.lt_succ_self c, ?_, ?_⟩
      · intro k hk hkn
        omega
      · intro k hk hkn
        have hlat := two_le_latency hstages (p c)
        omega
    · refine ⟨h.accepted, Nat.lt_succ_of_lt h.started, ?_, ?_⟩
      · intro k hk hkn
        rcases Nat.lt_succ_iff_lt_or_eq.mp hkn with hlt | rfl
        · exact h.alive k hk hlt
        · exact hkill
      · intro k hk hkn
        rcases Nat.lt_succ_iff_lt_or_eq.mp hkn with hlt | rfl
        · exact h.untaken k hk hlt
        · exact hready hk

theorem InUnit.earlier {c k : Nat} (h : InUnit stages r₀ p c n) (hck : c < k) (hkn : k ≤ n) :
    InUnit stages r₀ p c k :=
  { accepted := h.accepted
    started := hck
    alive := fun j hj hjk => h.alive j hj (Nat.lt_of_lt_of_le hjk hkn)
    untaken := fun j hj hjk => h.untaken j hj (Nat.lt_of_lt_of_le hjk hkn) }

/-! ## One edge -/

/-- A kill empties the unit. -/
theorem phase_of_kill (hstages : stages = 2 ∨ stages = 3) (hkill : (p n).kill = true) :
    Phase stages r₀ p (n + 1) := by
  refine .idle ?_ ?_ ?_ ?_ ?_
  case refine_5 =>
    intro c h
    rcases (inUnit_succ hstages c).mp h with ⟨-, -, hno⟩ | ⟨-, hno, -⟩
    · rw [hkill] at hno
      cases hno
    · rw [hkill] at hno
      cases hno
  all_goals simp [pipeRun_succ, next, hkill, clear]

/-- An operation that is not killed, and whose result is not taken, stays the one in the unit. -/
theorem one_succ (hstages : stages = 2 ∨ stages = 3) {c : Nat}
    (hactive : (pipeRun stages r₀ p n).active = true)
    (one : ∀ c', InUnit stages r₀ p c' n ↔ c' = c) (hkill : (p n).kill = false)
    (hready : c + latency stages (p c) ≤ n → (p n).resultReady = false) (c' : Nat) :
    InUnit stages r₀ p c' (n + 1) ↔ c' = c := by
  rw [inUnit_succ hstages, one]
  constructor
  · rintro (⟨-, hacc, -⟩ | ⟨heq, -, -⟩)
    · simp [startAccept, hactive] at hacc
    · exact heq
  · rintro rfl
    exact Or.inr ⟨rfl, hkill, hready⟩

theorem phase_of_idle (hstages : stages = 2 ∨ stages = 3)
    (active : (pipeRun stages r₀ p n).active = false)
    (done : (pipeRun stages r₀ p n).done = false)
    (stage1 : (pipeRun stages r₀ p n).stage1Valid = false)
    (stage2 : (pipeRun stages r₀ p n).stage2Valid = false)
    (none : ∀ c, ¬ InUnit stages r₀ p c n) (hkill : (p n).kill = false) :
    Phase stages r₀ p (n + 1) := by
  have hlow : lowComplete (pipeRun stages r₀ p n) = false := by simp [lowComplete, stage1]
  have hhigh : highComplete stages (pipeRun stages r₀ p n) = false := by
    simp [highComplete, stage1, stage2]
  cases hstart : (p n).start with
  | true =>
      have hacc : startAccept (pipeRun stages r₀ p n) (p n) = true := by
        simp [startAccept, hstart, active]
      refine .stage1 n rfl ?_ ?_ ?_ ?_ ?_ ?_
      case refine_5 =>
        constructor <;> simp [pipeRun_succ, next, hkill, hacc, packet]
      case refine_6 =>
        intro c
        rw [inUnit_succ hstages]
        constructor
        · rintro (⟨rfl, -⟩ | ⟨hin, -, -⟩)
          · rfl
          · exact absurd hin (none c)
        · rintro rfl
          exact Or.inl ⟨rfl, hacc, hkill⟩
      all_goals simp [pipeRun_succ, next, hkill, hacc, hlow, hhigh, stage1, done]
  | false =>
      have hacc : startAccept (pipeRun stages r₀ p n) (p n) = false := by
        simp [startAccept, hstart]
      refine .idle ?_ ?_ ?_ ?_ ?_
      case refine_5 =>
        intro c h
        rcases (inUnit_succ hstages c).mp h with ⟨-, hno, -⟩ | ⟨hin, -, -⟩
        · rw [hacc] at hno
          cases hno
        · exact none c hin
      all_goals simp [pipeRun_succ, next, hkill, hacc, hlow, hhigh, stage1, done, active]

/-- While an operation is in the unit its operands stay where they are. -/
theorem loaded_succ {c : Nat} (hactive : (pipeRun stages r₀ p n).active = true)
    (loaded : LoadedFrom stages r₀ p c n) (hkill : (p n).kill = false) :
    LoadedFrom stages r₀ p c (n + 1) := by
  have hacc : startAccept (pipeRun stages r₀ p n) (p n) = false := by simp [startAccept, hactive]
  constructor <;>
    simp [pipeRun_succ, next, hkill, hacc, loaded.src1, loaded.src2, loaded.negative1,
      loaded.negative2, loaded.high, loaded.partialLl, loaded.partialLh, loaded.partialHl,
      loaded.partialHh]

theorem phase_of_stage1 (hstages : stages = 2 ∨ stages = 3) {c : Nat} (age : n = c + 1)
    (active : (pipeRun stages r₀ p n).active = true)
    (done : (pipeRun stages r₀ p n).done = false)
    (stage1 : (pipeRun stages r₀ p n).stage1Valid = true)
    (stage2 : (pipeRun stages r₀ p n).stage2Valid = false)
    (loaded : LoadedFrom stages r₀ p c n) (one : ∀ c', InUnit stages r₀ p c' n ↔ c' = c)
    (hkill : (p n).kill = false) : Phase stages r₀ p (n + 1) := by
  have hacc : startAccept (pipeRun stages r₀ p n) (p n) = false := by simp [startAccept, active]
  have hlat := two_le_latency hstages (p c)
  have hone := one_succ hstages active one hkill (by omega)
  have hhigh : (pipeRun stages r₀ p n).highResultR = (p c).highResult := loaded.high
  cases hres : (p c).highResult with
  | false =>
      -- the low word is complete
      have hlow : lowComplete (pipeRun stages r₀ p n) = true := by
        simp [lowComplete, hhigh, hres, stage1]
      refine .product c ?_ ?_ ?_ ?_ ?_ ?_ hone
      · simp [latency, hres, age]
      · simp [pipeRun_succ, next, hkill, hlow, hacc, active]
      · simp [pipeRun_succ, next, hkill, hlow]
      · simp [pipeRun_succ, next, hkill, hacc]
      · simp [pipeRun_succ, next, hkill, hacc, highComplete, hhigh, hres]
      · rw [productWord_eq, pipeRun_succ]
        simp [next, hkill, hlow, lowResult_eq loaded, packet, MulPacket.value, hres]
  | true =>
      have hlow : lowComplete (pipeRun stages r₀ p n) = false := by simp [lowComplete, hhigh, hres]
      rcases hstages with rfl | rfl
      · -- at two stages the high word is complete as well
        have hdone : highComplete 2 (pipeRun 2 r₀ p n) = true := by
          simp [highComplete, hhigh, hres, stage1]
        refine .product c ?_ ?_ ?_ ?_ ?_ ?_ hone
        · simp [latency, hres, age]
        · simp [pipeRun_succ, next, hkill, hdone, hacc, active]
        · simp [pipeRun_succ, next, hkill, hdone]
        · simp [pipeRun_succ, next, hkill, hacc]
        · simp [pipeRun_succ, next, hkill, hacc, highComplete]
        · rw [productWord_eq, pipeRun_succ]
          simp [next, hkill, hlow, hdone, correctedHigh_eq loaded, packet, MulPacket.value, hres]
      · have hdone : highComplete 3 (pipeRun 3 r₀ p n) = false := by
          simp [highComplete, stage2]
        refine .stage2 c (by omega) (by simp [latency, hres]) ?_ ?_ ?_ ?_
          (loaded_succ active loaded hkill) ?_ ?_ hone
        · simp [pipeRun_succ, next, hkill, hlow, hdone, hacc, done, active]
        · simp [pipeRun_succ, next, hkill, hlow, hdone, done]
        · simp [pipeRun_succ, next, hkill, hacc]
        · simp [pipeRun_succ, next, hkill, stage1]
        · simp [pipeRun_succ, next, hkill, stage1, hacc, middleSum]
        · simp [pipeRun_succ, next, hkill, stage1, hacc]

theorem phase_of_stage2 (hstages : stages = 2 ∨ stages = 3) {c : Nat} (age : n = c + 2)
    (deep : latency stages (p c) = 3)
    (active : (pipeRun stages r₀ p n).active = true)
    (stage1 : (pipeRun stages r₀ p n).stage1Valid = false)
    (stage2 : (pipeRun stages r₀ p n).stage2Valid = true)
    (loaded : LoadedFrom stages r₀ p c n)
    (middle : (pipeRun stages r₀ p n).middleHighR =
      (middleSum (pipeRun stages r₀ p n)).extractLsb' 16 17)
    (top : (pipeRun stages r₀ p n).partialHhR = (pipeRun stages r₀ p n).partialHh)
    (one : ∀ c', InUnit stages r₀ p c' n ↔ c' = c) (hkill : (p n).kill = false) :
    Phase stages r₀ p (n + 1) := by
  have hacc : startAccept (pipeRun stages r₀ p n) (p n) = false := by simp [startAccept, active]
  have hone := one_succ hstages active one hkill (by omega)
  have hhigh : (pipeRun stages r₀ p n).highResultR = (p c).highResult := loaded.high
  have hres : (p c).highResult = true ∧ stages = 3 := by
    unfold latency at deep
    split at deep
    next h => exact ⟨h, deep⟩
    next => omega
  rcases hres with ⟨hres, rfl⟩
  have hlow : lowComplete (pipeRun 3 r₀ p n) = false := by simp [lowComplete, stage1]
  have hdone : highComplete 3 (pipeRun 3 r₀ p n) = true := by
    simp [highComplete, hhigh, hres, stage2]
  refine .product c (by omega) ?_ ?_ ?_ ?_ ?_ hone
  · simp [pipeRun_succ, next, hkill, hdone, hacc, active]
  · simp [pipeRun_succ, next, hkill, hdone]
  · simp [pipeRun_succ, next, hkill, hacc]
  · simp [pipeRun_succ, next, hkill, highComplete, stage1]
  · rw [productWord_eq, pipeRun_succ]
    simp [next, hkill, hlow, hdone, threeStageHigh_eq loaded top middle, packet, MulPacket.value,
      hres]

theorem phase_of_product (hstages : stages = 2 ∨ stages = 3) {c : Nat}
    (age : c + latency stages (p c) ≤ n)
    (active : (pipeRun stages r₀ p n).active = true)
    (done : (pipeRun stages r₀ p n).done = true)
    (stage1 : (pipeRun stages r₀ p n).stage1Valid = false)
    (complete : highComplete stages (pipeRun stages r₀ p n) = false)
    (result : (pipeRun stages r₀ p n).result = productWord (p c))
    (one : ∀ c', InUnit stages r₀ p c' n ↔ c' = c) (hkill : (p n).kill = false) :
    Phase stages r₀ p (n + 1) := by
  have hacc : startAccept (pipeRun stages r₀ p n) (p n) = false := by simp [startAccept, active]
  have hlow : lowComplete (pipeRun stages r₀ p n) = false := by simp [lowComplete, stage1]
  cases hready : (p n).resultReady with
  | true =>
      -- the result is taken
      refine .idle ?_ ?_ ?_ ?_ ?_
      case refine_5 =>
        intro c' h
        rcases (inUnit_succ hstages c').mp h with ⟨-, hno, -⟩ | ⟨hin, -, hno⟩
        · rw [hacc] at hno
          cases hno
        · rw [(one c').mp hin] at hno
          have := hno age
          rw [hready] at this
          cases this
      all_goals simp [pipeRun_succ, next, hkill, hacc, hlow, complete, done, hready, stage1]
  | false =>
      refine .product c (Nat.le_succ_of_le age) ?_ ?_ ?_ ?_ ?_
        (one_succ hstages active one hkill fun _ => hready)
      · simp [pipeRun_succ, next, hkill, hacc, hlow, complete, hready, active]
      · simp [pipeRun_succ, next, hkill, hlow, complete, hready, done]
      · simp [pipeRun_succ, next, hkill, hacc]
      · simp [pipeRun_succ, next, hkill, hacc, highComplete, stage1]
      · simp [pipeRun_succ, next, hkill, hlow, complete, result]

theorem phase_next (hstages : stages = 2 ∨ stages = 3) (h : Phase stages r₀ p n) :
    Phase stages r₀ p (n + 1) := by
  cases hkill : (p n).kill with
  | true => exact phase_of_kill hstages hkill
  | false =>
      cases h with
      | idle active done stage1 stage2 none =>
          exact phase_of_idle hstages active done stage1 stage2 none hkill
      | stage1 c age active done stage1 stage2 loaded one =>
          exact phase_of_stage1 hstages age active done stage1 stage2 loaded one hkill
      | stage2 c age deep active done stage1 stage2 loaded middle top one =>
          exact phase_of_stage2 hstages age deep active stage1 stage2 loaded middle top one hkill
      | product c age active done stage1 complete result one =>
          exact phase_of_product hstages age active done stage1 complete result one hkill

theorem phase_run (hstages : stages = 2 ∨ stages = 3) (n : Nat) : Phase stages r₀ p n := by
  induction n with
  | zero =>
      refine .idle rfl rfl rfl rfl ?_
      intro c h
      exact absurd h.started (Nat.not_lt_zero c)
  | succ n ih => exact phase_next hstages ih

/-! ## Results -/

/-- The operation in the unit is done once its latency is over, and shows its own product. -/
theorem done_of_inUnit (hstages : stages = 2 ∨ stages = 3) {c : Nat}
    (h : InUnit stages r₀ p c n) :
    (pipeRun stages r₀ p n).done = decide (c + latency stages (p c) ≤ n) ∧
      (c + latency stages (p c) ≤ n → (pipeRun stages r₀ p n).result = productWord (p c)) := by
  have hlat := two_le_latency hstages (p c)
  have hphase : Phase stages r₀ p n := phase_run hstages n
  cases hphase with
  | idle active done stage1 stage2 none => exact absurd h (none c)
  | stage1 c' age active done stage1 stage2 loaded one =>
      have heq := (one c).mp h
      subst heq
      have hnot : ¬ c + latency stages (p c) ≤ n := by omega
      exact ⟨by simp [done, hnot], fun hle => absurd hle hnot⟩
  | stage2 c' age deep active done stage1 stage2 loaded middle top one =>
      have heq := (one c).mp h
      subst heq
      have hnot : ¬ c + latency stages (p c) ≤ n := by omega
      exact ⟨by simp [done, hnot], fun hle => absurd hle hnot⟩
  | product c' age active done stage1 complete result one =>
      have heq := (one c).mp h
      subst heq
      exact ⟨by simp [done, age], fun _ => result⟩

/-- A result on the wires is that of the operation in the unit. -/
theorem inUnit_of_done (hstages : stages = 2 ∨ stages = 3)
    (hdone : (pipeRun stages r₀ p n).done = true) :
    ∃ c, InUnit stages r₀ p c n ∧ c + latency stages (p c) ≤ n ∧
      (pipeRun stages r₀ p n).result = productWord (p c) := by
  have hphase : Phase stages r₀ p n := phase_run hstages n
  cases hphase with
  | idle active done => rw [done] at hdone; cases hdone
  | stage1 c age active done => rw [done] at hdone; cases hdone
  | stage2 c age deep active done => rw [done] at hdone; cases hdone
  | product c age active done stage1 complete result one =>
      exact ⟨c, (one c).mpr rfl, age, result⟩

/-- While a start is accepted the unit shows no result. -/
theorem not_done_of_accepted (hstages : stages = 2 ∨ stages = 3) {c : Nat}
    (h : Accepted stages r₀ p c) : (pipeRun stages r₀ p c).done = false := by
  have hidle : (pipeRun stages r₀ p c).active = false := by
    have hacc := h.1
    simp only [startAccept, Bool.and_eq_true, Bool.not_eq_true'] at hacc
    exact hacc.2
  have hphase : Phase stages r₀ p c := phase_run hstages c
  cases hphase with
  | idle active done => exact done
  | stage1 c' age active => rw [active] at hidle; cases hidle
  | stage2 c' age deep active => rw [active] at hidle; cases hidle
  | product c' age active => rw [active] at hidle; cases hidle

/-- The edge on which a result is taken frees the unit. -/
theorem free_of_taken (hstages : stages = 2 ∨ stages = 3)
    (hdone : (pipeRun stages r₀ p n).done = true) (hready : (p n).resultReady = true) :
    (pipeRun stages r₀ p (n + 1)).done = false ∧
      (pipeRun stages r₀ p (n + 1)).active = false := by
  have hnone : ∀ c, ¬ InUnit stages r₀ p c (n + 1) := by
    intro c h
    rcases (inUnit_succ hstages c).mp h with ⟨rfl, hacc⟩ | ⟨hin, -, hno⟩
    · rw [not_done_of_accepted hstages hacc] at hdone
      cases hdone
    · have hage := (done_of_inUnit hstages hin).1
      rw [hdone] at hage
      rw [hready] at hno
      cases hno (of_decide_eq_true hage.symm)
  have hphase : Phase stages r₀ p (n + 1) := phase_run hstages (n + 1)
  cases hphase with
  | idle active done => exact ⟨done, active⟩
  | stage1 c age active done stage1 stage2 loaded one => exact absurd ((one c).mpr rfl) (hnone c)
  | stage2 c age deep active done stage1 stage2 loaded middle top one =>
      exact absurd ((one c).mpr rfl) (hnone c)
  | product c age active done stage1 complete result one =>
      exact absurd ((one c).mpr rfl) (hnone c)

/-- For every sequence of inputs: an accepted multiplication that is not killed is done after its
latency and not before, with its word of the exact product of its own operands, and keeps both up to
the edge on which the result is taken; whatever is done is such an operation, so one that is killed
never is. -/
theorem multiplier_exact_isolated (stages : Nat) (hstages : stages = 2 ∨ stages = 3) (r₀ : Regs)
    (p : Nat → Ports) :
    (∀ c, Accepted stages r₀ p c →
      (∀ k, c < k → k < c + latency stages (p c) → (p k).kill = false) →
      (∀ k, c ≤ k → k < c + latency stages (p c) → (pipeRun stages r₀ p k).done = false) ∧
      (∀ n, c + latency stages (p c) ≤ n → (∀ k, c < k → k < n → (p k).kill = false) →
        (∀ k, c + latency stages (p c) ≤ k → k < n → (p k).resultReady = false) →
        (pipeRun stages r₀ p n).done = true ∧
        (pipeRun stages r₀ p n).result = productWord (p c) ∧
        ((p n).resultReady = true → (pipeRun stages r₀ p (n + 1)).done = false))) ∧
    (∀ n, (pipeRun stages r₀ p n).done = true →
      ∃ c, InUnit stages r₀ p c n ∧ c + latency stages (p c) ≤ n ∧
        (pipeRun stages r₀ p n).result = productWord (p c)) ∧
    (∀ c k, InUnit stages r₀ p c k → (p k).kill = true → ∀ n, k < n →
      (pipeRun stages r₀ p n).done = true → ∃ c', k < c' ∧ InUnit stages r₀ p c' n) := by
  refine ⟨?accepted, ?owner, ?killed⟩
  case accepted =>
    intro c hacc hquiet
    constructor
    · intro k hck hkl
      rcases Nat.lt_or_eq_of_le hck with hlt | rfl
      · have hin : InUnit stages r₀ p c k :=
          { accepted := hacc
            started := hlt
            alive := fun j hj hjk => hquiet j hj (by omega)
            untaken := fun j hj hjk => by omega }
        rw [(done_of_inUnit hstages hin).1]
        simp [hkl]
      · exact not_done_of_accepted hstages hacc
    · intro n hn halive hready
      have hlat := two_le_latency hstages (p c)
      have hin : InUnit stages r₀ p c n := ⟨hacc, by omega, halive, hready⟩
      have hdone : (pipeRun stages r₀ p n).done = true := by
        rw [(done_of_inUnit hstages hin).1]
        simp [hn]
      exact ⟨hdone, (done_of_inUnit hstages hin).2 hn,
        fun htaken => (free_of_taken hstages hdone htaken).1⟩
  case owner =>
    intro n hdone
    exact inUnit_of_done hstages hdone
  case killed =>
    intro c k hin hkill n hkn hdone
    rcases inUnit_of_done hstages hdone with ⟨c', hin', -, -⟩
    refine ⟨c', ?_, hin'⟩
    rcases Nat.lt_trichotomy c' k with hlt | rfl | hgt
    · have := hin'.alive k hlt hkn
      rw [hkill] at this
      cases this
    · have := hin'.accepted.2
      rw [hkill] at this
      cases this
    · exact hgt

/-! ### A product under back-pressure -/

/-- `-3 * 7`, high word, signed, started in cycle 0; other operands after it, and nobody to take the
result before cycle 5. -/
def minusThreeTimesSeven (t : Nat) : Ports :=
  { start := true
    resultReady := t == 5
    kill := false
    src1 := if t == 0 then 0xffff_fffd#32 else 5#32
    src2 := 7#32
    src1Signed := true
    src2Signed := true
    highResult := true }

def pipePowerUp : Regs :=
  ⟨false, false, false, false, 0, 0, 0, false, false, false, 0, 0, 0, 0, 0, 0⟩

theorem multiplier_exact_isolated_minusThree :
    (pipeRun 3 pipePowerUp minusThreeTimesSeven 5).done = true ∧
      (pipeRun 3 pipePowerUp minusThreeTimesSeven 5).result = 0xffff_ffff#32 := by
  have h := ((multiplier_exact_isolated 3 (Or.inr rfl) pipePowerUp minusThreeTimesSeven).1 0
    ⟨rfl, rfl⟩ (fun _ _ _ => rfl)).2 5 (by decide) (fun _ _ _ => rfl) (by
      intro k _ hk
      have hne : k ≠ 5 := by omega
      simpa [minusThreeTimesSeven] using hne)
  exact ⟨h.1, h.2.1.trans (by decide)⟩

end MulPipeline
end RiscvCpu
