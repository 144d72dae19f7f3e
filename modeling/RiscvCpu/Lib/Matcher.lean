import Mathlib.Data.List.Infix

/-!
# Matcher — a string matcher without a failure table

A matcher keeps how many symbols of its pattern it has matched.  On a symbol that does not go on with
the pattern it starts over, and the symbol may only be the first of the pattern.  When the first
symbol of the pattern comes back nowhere in it, nothing is missed by that: the count is the length of
the longest prefix of the pattern that the text ends with.  The last section is about the first symbol
of a kind behind the first occurrence of the pattern.
-/

namespace RiscvCpu
namespace Matcher

universe u

variable {α : Type u} {pat text : List α} {pos : Nat} {v : α}

/-- The count after one more symbol. -/
def step [DecidableEq α] (pat : List α) (pos : Nat) (v : α) : Nat :=
  if pat[pos]? = some v then pos + 1 else if pat[0]? = some v then 1 else 0

/-- The first symbol of the pattern comes back nowhere in it. -/
def FirstOnce (pat : List α) : Prop := ∀ k, 0 < k → k < pat.length → pat[k]? ≠ pat[0]?

/-- The longest prefix of the pattern that the text ends with has `pos` symbols. -/
structure Longest (pat text : List α) (pos : Nat) : Prop where
  le : pos ≤ pat.length
  ends : pat.take pos <:+ text
  greatest : ∀ k, k ≤ pat.length → pat.take k <:+ text → k ≤ pos

theorem longest_nil (pat : List α) : Longest pat [] 0 := by
  refine ⟨Nat.zero_le _, List.nil_suffix, fun k hk hends => ?_⟩
  have hlen := hends.length_le
  rw [List.length_take_of_le hk] at hlen
  exact hlen

/-- A longer prefix ends the text with its last symbol behind a shorter one. -/
theorem take_succ_suffix {k : Nat} (hk : k < pat.length) :
    pat.take (k + 1) <:+ text ++ [v] ↔ pat.take k <:+ text ∧ pat[k]? = some v := by
  rw [List.take_succ_eq_append_getElem hk, List.getElem?_eq_getElem hk, List.suffix_concat_iff]
  constructor
  · rintro (hnil | ⟨t, ht, hsuffix⟩)
    · exact absurd hnil (List.concat_ne_nil _ _)
    · rcases List.append_inj' ht rfl with ⟨htake, hlast⟩
      rw [List.singleton_inj] at hlast
      exact ⟨htake ▸ hsuffix, congrArg some hlast⟩
  · rintro ⟨hsuffix, hlast⟩
    rw [Option.some.injEq] at hlast
    exact Or.inr ⟨_, by rw [hlast], hsuffix⟩

/-- Of two prefixes that end the text, the shorter one starts inside the longer one. -/
theorem getElem?_of_overlap {k : Nat} (hpos : pos ≤ pat.length) (hlong : pat.take pos <:+ text)
    (hshort : pat.take k <:+ text) (hk : 0 < k) (hlt : k < pos) : pat[pos - k]? = pat[0]? := by
  have hlong' : (pat.take pos).length = pos := List.length_take_of_le hpos
  have hshort' : (pat.take k).length = k := List.length_take_of_le (by omega)
  have hsuffix : pat.take k <:+ pat.take pos :=
    List.suffix_of_suffix_length_le hshort hlong (by omega)
  rcases hsuffix with ⟨front, hfront⟩
  have hlen : front.length = pos - k := by
    have := congrArg List.length hfront
    rw [List.length_append, hlong', hshort'] at this
    omega
  calc pat[pos - k]?
      = (pat.take pos)[pos - k]? := (List.getElem?_take_of_lt (by omega)).symm
    _ = (front ++ pat.take k)[pos - k]? := by rw [hfront]
    _ = (pat.take k)[0]? := by
          rw [List.getElem?_append_right (by omega), hlen, Nat.sub_self]
    _ = pat[0]? := List.getElem?_take_of_lt hk

/-- One more symbol. -/
theorem longest_step [DecidableEq α] (hfirst : FirstOnce pat) (hlt : pos < pat.length)
    (h : Longest pat text pos) : Longest pat (text ++ [v]) (step pat pos v) := by
  unfold step
  split
  next hmatch =>
    refine ⟨hlt, (take_succ_suffix hlt).mpr ⟨h.ends, hmatch⟩, fun k hk hends => ?_⟩
    rcases k with - | k
    · exact Nat.zero_le _
    · exact Nat.succ_le_succ (h.greatest k (by omega) ((take_succ_suffix (by omega)).mp hends).1)
  next hmiss =>
    -- a shorter prefix would start inside the one that is given up
    have hshort : ∀ k, k + 1 ≤ pat.length → pat.take (k + 1) <:+ text ++ [v] →
        k = 0 ∧ pat[0]? = some v := by
      intro k hk hends
      rcases (take_succ_suffix (by omega)).mp hends with ⟨hsuffix, hnext⟩
      rcases Nat.eq_zero_or_pos k with rfl | hpos
      · exact ⟨rfl, hnext⟩
      · have hle := h.greatest k (by omega) hsuffix
        rcases Nat.lt_or_eq_of_le hle with hlt' | rfl
        · exact absurd (getElem?_of_overlap h.le h.ends hsuffix hpos hlt')
            (hfirst (pos - k) (by omega) (by omega))
        · exact absurd hnext hmiss
    split
    next hstart =>
      refine ⟨by omega, (take_succ_suffix (by omega)).mpr ⟨List.nil_suffix, hstart⟩, ?_⟩
      intro k hk hends
      rcases k with - | k
      · exact Nat.zero_le _
      · rw [(hshort k hk hends).1]
    next hother =>
      refine ⟨Nat.zero_le _, List.nil_suffix, fun k hk hends => ?_⟩
      rcases k with - | k
      · exact Nat.le_refl _
      · exact absurd (hshort k hk hends).2 hother

/-- The pattern has been matched when the text ends with it. -/
theorem Longest.complete_iff (h : Longest pat text pos) : pos = pat.length ↔ pat <:+ text := by
  constructor
  · rintro rfl
    have hends := h.ends
    rwa [List.take_length] at hends
  · intro hends
    refine Nat.le_antisymm h.le (h.greatest _ (Nat.le_refl _) ?_)
    rwa [List.take_length]

/-! ## A matcher that stops at the first match -/

/-- The matcher is still counting, or has seen the pattern. -/
structure Scanned (pat text : List α) (pos : Nat) (seen : Bool) : Prop where
  seen_iff : seen = true ↔ pat <:+: text
  counting : seen = false → pos < pat.length ∧ Longest pat text pos

theorem scanned_nil (h : 0 < pat.length) : Scanned pat [] 0 false := by
  refine ⟨⟨fun h => Bool.noConfusion h, fun hoccurs => ?_⟩, fun _ => ⟨h, longest_nil pat⟩⟩
  rw [List.infix_nil] at hoccurs
  rw [hoccurs] at h
  cases h

theorem scanned_of_seen (h : Scanned pat text pos true) : Scanned pat (text ++ [v]) pos true := by
  refine ⟨⟨fun _ => ?_, fun _ => rfl⟩, fun hfalse => Bool.noConfusion hfalse⟩
  exact List.infix_concat_iff.mpr (Or.inr (h.seen_iff.mp rfl))

theorem scanned_step [DecidableEq α] (hfirst : FirstOnce pat) (h : Scanned pat text pos false) :
    Scanned pat (text ++ [v]) (step pat pos v) (decide (step pat pos v = pat.length)) := by
  rcases h.counting rfl with ⟨hlt, hlongest⟩
  have hnext := longest_step (v := v) hfirst hlt hlongest
  have hnot : ¬ pat <:+: text := fun hoccurs => Bool.noConfusion (h.seen_iff.mpr hoccurs)
  constructor
  · rw [decide_eq_true_eq, hnext.complete_iff, List.infix_concat_iff]
    exact ⟨Or.inl, fun hin => hin.resolve_right hnot⟩
  · intro hseen
    rw [decide_eq_false_iff_not] at hseen
    exact ⟨Nat.lt_of_le_of_ne hnext.le hseen, hnext⟩

/-! ## The first symbol behind the first match -/

/-- The first occurrence of the pattern ends after `e` symbols. -/
def FirstEnd (pat text : List α) (e : Nat) : Prop :=
  pat <:+ text.take e ∧ ∀ k, k < e → ¬ pat <:+ text.take k

/-- Position `i` holds the first `v` behind the first occurrence of the pattern. -/
structure FirstAfter (pat text : List α) (v : α) (i : Nat) : Prop where
  symbol : text[i]? = some v
  behind : ∃ e, FirstEnd pat text e ∧ e ≤ i ∧ ∀ k, e ≤ k → k < i → text[k]? ≠ some v

theorem infix_take_iff {i : Nat} : pat <:+: text.take i ↔ ∃ e, e ≤ i ∧ pat <:+ text.take e := by
  constructor
  · intro hoccurs
    rcases List.infix_iff_suffix_prefix.mp hoccurs with ⟨front, hsuffix, hfront⟩
    have htake := List.prefix_iff_eq_take.mp hfront
    rw [List.take_take] at htake
    exact ⟨min front.length i, Nat.min_le_right _ _, htake ▸ hsuffix⟩
  · rintro ⟨e, hle, hsuffix⟩
    exact hsuffix.isInfix.trans (List.take_prefix_take_left hle).isInfix

theorem exists_firstEnd {e : Nat} (h : pat <:+ text.take e) : ∃ e', e' ≤ e ∧ FirstEnd pat text e' := by
  induction e using Nat.strongRecOn with
  | ind e ih =>
      by_cases hearlier : ∃ k, k < e ∧ pat <:+ text.take k
      · rcases hearlier with ⟨k, hlt, hk⟩
        rcases ih k hlt hk with ⟨e', hle, hfirst⟩
        exact ⟨e', by omega, hfirst⟩
      · exact ⟨e, Nat.le_refl e, h, fun k hlt hk => hearlier ⟨k, hlt, hk⟩⟩

/-- It is the first `v` with the pattern somewhere before it. -/
theorem firstAfter_iff {i : Nat} : FirstAfter pat text v i ↔
    text[i]? = some v ∧ pat <:+: text.take i ∧
      ∀ k, k < i → text[k]? = some v → ¬ pat <:+: text.take k := by
  constructor
  · rintro ⟨hsymbol, e, hfirst, hle, hnone⟩
    refine ⟨hsymbol, infix_take_iff.mpr ⟨e, hle, hfirst.1⟩, fun k hlt hk hoccurs => ?_⟩
    rcases infix_take_iff.mp hoccurs with ⟨e', hle', hsuffix⟩
    rcases Nat.lt_or_ge e' e with hearly | hlate
    · exact hfirst.2 e' hearly hsuffix
    · exact hnone k (by omega) hlt hk
  · rintro ⟨hsymbol, hoccurs, hbefore⟩
    rcases infix_take_iff.mp hoccurs with ⟨e, hle, hsuffix⟩
    rcases exists_firstEnd hsuffix with ⟨e', hle', hfirst⟩
    refine ⟨hsymbol, e', hfirst, by omega, fun k hek hlt hk => ?_⟩
    exact hbefore k hlt hk (infix_take_iff.mpr ⟨e', hek, hfirst.1⟩)

/-- More symbols behind it change nothing. -/
theorem FirstAfter.mono {text' : List α} {i : Nat} (h : FirstAfter pat text v i)
    (hmore : text <+: text') : FirstAfter pat text' v i := by
  rcases firstAfter_iff.mp h with ⟨hsymbol, hoccurs, hbefore⟩
  have hi : i < text.length := (List.getElem?_eq_some_iff.mp hsymbol).1
  have htake : ∀ k, k ≤ i → text'.take k = text.take k := by
    intro k hk
    rcases hmore with ⟨rest, rfl⟩
    exact List.take_append_of_le_length (by omega)
  have hget : ∀ k, k ≤ i → text'[k]? = text[k]? := by
    intro k hk
    rcases hmore with ⟨rest, rfl⟩
    exact List.getElem?_append_left (by omega)
  refine firstAfter_iff.mpr ⟨(hget i (Nat.le_refl i)).trans hsymbol, ?_, fun k hk hsame => ?_⟩
  · rwa [htake i (Nat.le_refl i)]
  · rw [hget k (Nat.le_of_lt hk)] at hsame
    rw [htake k (Nat.le_of_lt hk)]
    exact hbefore k hk hsame

end Matcher
end RiscvCpu
