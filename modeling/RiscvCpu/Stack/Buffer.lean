import RiscvCpu.Rtl.StackValueBuffer
import RiscvCpu.Lib.Clocked
import RiscvCpu.Lib.Memory

/-!
# Buffer — the stack value buffer mirrors a flat memory

The buffer drops the high bits of an address and keeps a tag and an index.  Inside one window of
256 KiB nothing is lost by that, so a buffer whose entries agree with a memory keeps agreeing with it
as long as every store to the window is shown to both.
-/

namespace RiscvCpu
namespace StackValueBuffer

/-- The 256 KiB window of an address. -/
def window (addr : Word) : BitVec 14 := addr.extractLsb' 18 14

variable {n : Nat}

/-- Every entry that matches an address of the window holds the memory's word there. -/
def Coherent (w : BitVec 14) (r : Regs n) (m : DMem) : Prop :=
  ∀ a, window a = w → tagHit r a = true → queryData r a = m (wordAddr a)

theorem coherent_reset (w : BitVec 14) (r : Regs n) (m : DMem) : Coherent w (reset r) m := by
  intro a _ hhit
  simp [tagHit, reset] at hhit

/-! ## Addresses -/

/-- Window, tag and index determine the word address. -/
theorem wordAddr_eq {a b : Word} (hn : n ≤ 16) (hw : window a = window b)
    (htag : tag n a = tag n b) (hidx : index n a = index n b) : wordAddr a = wordAddr b := by
  apply BitVec.eq_of_getLsbD_eq
  intro i hi
  simp only [wordAddr, BitVec.getLsbD_extractLsb', hi, decide_true, Bool.true_and]
  by_cases hlow : i < n
  · have h := congrArg (fun x => x.getLsbD i) hidx
    simpa [index, hlow] using h
  · by_cases hmid : i < 16
    · have h := congrArg (fun x => x.getLsbD (i - n)) htag
      have hlt : i - n < 16 - n := by omega
      have hpos : n + 2 + (i - n) = 2 + i := by omega
      simpa [tag, hlt, hpos] using h
    · have h := congrArg (fun x => x.getLsbD (i - 16)) hw
      have hlt : i - 16 < 14 := by omega
      have hpos : 18 + (i - 16) = 2 + i := by omega
      simpa [window, hlt, hpos] using h

theorem window_of_wordAddr {a b : Word} (h : wordAddr a = wordAddr b) : window a = window b := by
  apply BitVec.eq_of_getLsbD_eq
  intro i hi
  have hbit := congrArg (fun x => x.getLsbD (16 + i)) h
  have hlt : 16 + i < 30 := by omega
  have hpos : 2 + (16 + i) = 18 + i := by omega
  simpa [wordAddr, window, hlt, hi, hpos] using hbit

theorem index_of_wordAddr {a b : Word} (hn : n ≤ 16) (h : wordAddr a = wordAddr b) :
    index n a = index n b := by
  apply BitVec.eq_of_getLsbD_eq
  intro i hi
  have hbit := congrArg (fun x => x.getLsbD i) h
  have hlt : i < 30 := by omega
  simpa [wordAddr, index, hlt, hi] using hbit

theorem tag_of_wordAddr {a b : Word} (h : wordAddr a = wordAddr b) : tag n a = tag n b := by
  apply BitVec.eq_of_getLsbD_eq
  intro i hi
  have hbit := congrArg (fun x => x.getLsbD (n + i)) h
  have hlt : n + i < 30 := by omega
  have hpos : 2 + (n + i) = n + 2 + i := by omega
  simpa [wordAddr, tag, hlt, hi, hpos] using hbit

/-! ## One edge -/

variable {r : Regs n} {p : Ports} {a : Word}

theorem tagHit_congr {b : Word} (hidx : index n a = index n b) (htag : tag n a = tag n b) :
    tagHit r a = tagHit r b := by
  simp [tagHit, hidx, htag]

/-- Nothing changes while no store is shown. -/
theorem next_of_not_storeValid (h : p.storeValid = false) :
    tagHit (next r p) a = tagHit r a ∧ queryData (next r p) a = queryData r a := by
  simp [tagHit, queryData, next, storeWrite, storeInvalidate, h]

/-- Another entry is left alone. -/
theorem next_other (hidx : index n a ≠ index n p.storeAddr) :
    tagHit (next r p) a = tagHit r a ∧ queryData (next r p) a = queryData r a := by
  simp only [tagHit, queryData, next]
  constructor
  · split
    · simp [Function.update_of_ne hidx]
    · split <;> simp [Function.update_of_ne hidx]
  · split <;> simp [Function.update_of_ne hidx]

/-- A store that does not write its entry writes no entry. -/
theorem next_of_not_storeWrite (h : storeWrite r p = false) :
    queryData (next r p) a = queryData r a ∧
      (tagHit (next r p) a = true → tagHit r a = true) := by
  simp only [tagHit, queryData, next, h, Bool.false_eq_true, if_false]
  refine ⟨trivial, ?_⟩
  split
  · by_cases hidx : index n a = index n p.storeAddr
    · simp [hidx]
    · simp [Function.update_of_ne hidx]
  · exact id

/-- The entry a store writes. -/
theorem next_of_storeWrite (h : storeWrite r p = true)
    (hidx : index n a = index n p.storeAddr) :
    tagHit (next r p) a = (tag n p.storeAddr == tag n a) ∧
      queryData (next r p) a = p.storeWdata := by
  simp [tagHit, queryData, next, h, hidx]

/-- The entry a partial store matches is dropped. -/
theorem next_of_storeInvalidate (hw : storeWrite r p = false) (h : storeInvalidate r p = true)
    (hidx : index n a = index n p.storeAddr) : tagHit (next r p) a = false := by
  simp [tagHit, next, hw, h, hidx]

/-! ## Coherence -/

/-- A store to the window, shown to the buffer and performed by the memory. -/
theorem coherent_store {w : BitVec 14} {m : DMem} (hn : n ≤ 16) (hc : Coherent w r m)
    (hvalid : p.storeValid = true) (hwin : window p.storeAddr = w) :
    Coherent w (next r p) (m.write p.storeAddr p.storeWstrb p.storeWdata) := by
  intro a hwa hhit
  by_cases hidx : index n a = index n p.storeAddr
  · cases hwrite : storeWrite r p with
    | true =>
        -- the entry is the one just written, with all four strobes
        rcases next_of_storeWrite hwrite hidx with ⟨htag, hdata⟩
        rw [htag, beq_iff_eq] at hhit
        have haddr := wordAddr_eq hn (hwa.trans hwin.symm) hhit.symm hidx
        have hfull : p.storeWstrb = 0b1111#4 := by
          simp only [storeWrite, Bool.and_eq_true, beq_iff_eq] at hwrite
          exact hwrite.1.2
        rw [hdata, haddr, DMem.write_same, hfull, strobeWord_full]
    | false =>
        rcases next_of_not_storeWrite (a := a) hwrite with ⟨hdata, hold⟩
        have hne : wordAddr a ≠ wordAddr p.storeAddr := by
          intro haddr
          -- the store hits the entry, so it would have been written or dropped
          have htag : tag n a = tag n p.storeAddr := tag_of_wordAddr haddr
          have hmatch : tagHit r p.storeAddr = true := by
            rw [← tagHit_congr hidx htag]; exact hold hhit
          have hpart : p.storeWstrb ≠ 0b1111#4 := by
            intro hfull
            simp [storeWrite, hvalid, hmatch, hfull] at hwrite
          have hinv : storeInvalidate r p = true := by
            simp [storeInvalidate, hvalid, hmatch, hpart]
          rw [next_of_storeInvalidate hwrite hinv hidx] at hhit
          cases hhit
        rw [hdata, DMem.write_other hne]
        exact hc a hwa (hold hhit)
  · rcases next_other hidx with ⟨hsame, hdata⟩
    have hne : wordAddr a ≠ wordAddr p.storeAddr := fun h => hidx (index_of_wordAddr hn h)
    rw [hdata, DMem.write_other hne]
    exact hc a hwa (hsame ▸ hhit)

/-- A store outside the window. -/
theorem coherent_elsewhere {w : BitVec 14} {m : DMem} (hc : Coherent w r m)
    {addr wdata : Word} {wen : BitVec 4} (hwin : window addr ≠ w) :
    Coherent w r (m.write addr wen wdata) := by
  intro a hwa hhit
  have hne : wordAddr a ≠ wordAddr addr := fun h => hwin ((window_of_wordAddr h).symm.trans hwa)
  rw [DMem.write_other hne]
  exact hc a hwa hhit

/-- An edge that writes no entry. -/
theorem coherent_of_not_storeWrite {w : BitVec 14} {m : DMem} (hc : Coherent w r m)
    (h : storeWrite r p = false) : Coherent w (next r p) m := by
  intro a hwa hhit
  rcases next_of_not_storeWrite (a := a) h with ⟨hdata, hold⟩
  rw [hdata]
  exact hc a hwa (hold hhit)

/-! ## The buffer alone -/

/-- The address that an entry stands for: its window, its tag and its index. -/
def entryAddr (w : BitVec 14) (t : BitVec (16 - n)) (i : BitVec n) : Word :=
  w.setWidth 32 <<< 18 ||| t.setWidth 32 <<< (n + 2) ||| i.setWidth 32 <<< 2

theorem window_entryAddr (hn : n ≤ 16) (w : BitVec 14) (t : BitVec (16 - n)) (i : BitVec n) :
    window (entryAddr w t i) = w := by
  apply BitVec.eq_of_getLsbD_eq
  intro k hk
  have ht : t.getLsbD (18 + k - (n + 2)) = false := BitVec.getLsbD_of_ge _ _ (by omega)
  have hi : i.getLsbD (18 + k - 2) = false := BitVec.getLsbD_of_ge _ _ (by omega)
  have hlt : 18 + k < 32 := by omega
  simp [window, entryAddr, hk, hlt, ht, hi]

theorem tag_entryAddr (hn : n ≤ 16) (w : BitVec 14) (t : BitVec (16 - n)) (i : BitVec n) :
    tag n (entryAddr w t i) = t := by
  apply BitVec.eq_of_getLsbD_eq
  intro k hk
  have hi : i.getLsbD (n + 2 + k - 2) = false := BitVec.getLsbD_of_ge _ _ (by omega)
  have hlt : n + 2 + k < 32 := by omega
  have hwin : n + 2 + k < 18 := by omega
  simp [tag, entryAddr, hk, hlt, hwin, hi]

theorem index_entryAddr (hn : n ≤ 16) (w : BitVec 14) (t : BitVec (16 - n)) (i : BitVec n) :
    index n (entryAddr w t i) = i := by
  apply BitVec.eq_of_getLsbD_eq
  intro k hk
  have hlt : 2 + k < 32 := by omega
  have hwin : 2 + k < 18 := by omega
  have htag : 2 + k < n + 2 := by omega
  have hsub : ¬ 2 + k < 2 := by omega
  have hbit : 2 + k - 2 = k := by omega
  simp only [index, entryAddr, BitVec.getLsbD_extractLsb', BitVec.getLsbD_or,
    BitVec.getLsbD_shiftLeft, BitVec.getLsbD_setWidth, hk, hlt, hwin, htag, hsub, hbit, decide_true,
    decide_false, Bool.not_true, Bool.not_false, Bool.and_false, Bool.false_and, Bool.false_or,
    Bool.true_and]
  rw [decide_eq_true (by omega : k < 32), Bool.true_and]

/-- What the lookups read. -/
def entries (r : Regs n) : (BitVec n → Bool) × (BitVec n → BitVec (16 - n)) × (BitVec n → Word) :=
  (r.validArray, r.tagArray, r.dataArray)

/-- The state in cycle `t` after reset from the power-up state `r₀`. -/
def run (r₀ : Regs n) (p : Nat → Ports) (t : Nat) : Regs n := Clocked.run next (reset r₀) p t

/-- A flat memory after the stores of the cycles before `t`. -/
def storedTo (m₀ : DMem) (p : Nat → Ports) : Nat → DMem
  | 0 => m₀
  | t + 1 =>
      if (p t).storeValid then
        (storedTo m₀ p t).write (p t).storeAddr (p t).storeWstrb (p t).storeWdata
      else storedTo m₀ p t

theorem entries_of_not_storeValid (h : p.storeValid = false) : entries (next r p) = entries r := by
  simp [entries, next, storeWrite, storeInvalidate, h]

theorem coherent_run {w : BitVec 14} (hn : n ≤ 16) (r₀ : Regs n) (m₀ : DMem) {p : Nat → Ports}
    (hwin : ∀ t, (p t).storeValid = true → window (p t).storeAddr = w) (t : Nat) :
    Coherent w (run r₀ p t) (storedTo m₀ p t) := by
  induction t with
  | zero => exact coherent_reset w r₀ m₀
  | succ t ih =>
      rw [storedTo]
      cases hvalid : (p t).storeValid with
      | true => exact coherent_store hn ih hvalid (hwin t hvalid)
      | false =>
          have hnone : storeWrite (run r₀ p t) (p t) = false := by simp [storeWrite, hvalid]
          exact coherent_of_not_storeWrite ih hnone

/-- The entries of a buffer of any size mirror the stores of its window, the lookups read what the
memory holds, and nothing but a store changes an entry. -/
theorem entries_mirror_stores (hn : n ≤ 16) (w : BitVec 14) (r₀ : Regs n) (m₀ : DMem)
    (p : Nat → Ports) (hwin : ∀ t, (p t).storeValid = true → window (p t).storeAddr = w) :
    (∀ t i, (run r₀ p t).validArray i = true →
      (run r₀ p t).dataArray i =
        storedTo m₀ p t (wordAddr (entryAddr w ((run r₀ p t).tagArray i) i))) ∧
    (∀ t queryValid a, window a = w → queryHit (run r₀ p t) queryValid a = true →
      queryData (run r₀ p t) a = storedTo m₀ p t (wordAddr a)) ∧
    (∀ t captureEn captureAddr captureFlush,
      entries (next (run r₀ p t)
        { p t with
          captureEn := captureEn, captureAddr := captureAddr, captureFlush := captureFlush }) =
        entries (run r₀ p (t + 1))) ∧
    ∀ t, (p t).storeValid = false → entries (run r₀ p (t + 1)) = entries (run r₀ p t) := by
  refine ⟨?entry, ?lookup, fun _ _ _ _ => rfl, fun t h => entries_of_not_storeValid h⟩
  case entry =>
    intro t i hv
    have hidx := index_entryAddr hn w ((run r₀ p t).tagArray i) i
    have hhit : tagHit (run r₀ p t) (entryAddr w ((run r₀ p t).tagArray i) i) = true := by
      rw [tagHit, hidx, tag_entryAddr hn, hv, beq_self_eq_true, Bool.and_self]
    calc (run r₀ p t).dataArray i
        = queryData (run r₀ p t) (entryAddr w ((run r₀ p t).tagArray i) i) := by
            rw [queryData, hidx]
      _ = storedTo m₀ p t (wordAddr (entryAddr w ((run r₀ p t).tagArray i) i)) :=
            coherent_run hn r₀ m₀ hwin t _ (window_entryAddr hn _ _ _) hhit
  case lookup =>
    intro t queryValid a ha hhit
    rw [queryHit, Bool.and_eq_true] at hhit
    exact coherent_run hn r₀ m₀ hwin t a ha hhit.2

/-- A store of 7 to `0x8010_0044` that allocates, then nothing. -/
def storeOnce (t : Nat) : Ports :=
  { captureEn := false
    captureAddr := 0#32
    captureFlush := false
    storeValid := t == 0
    storeAllocate := t == 0
    storeAddr := 0x8010_0044#32
    storeWstrb := 0b1111#4
    storeWdata := 7#32 }

/-- A buffer of sixteen entries at power-up. -/
def powerUp : Regs 4 := ⟨fun _ => false, fun _ => 0#12, fun _ => 0#32, false, 0#32⟩

theorem entries_mirror_stores_sixteen :
    (run powerUp storeOnce 1).validArray 1#4 = true ∧
      (run powerUp storeOnce 1).dataArray 1#4 =
        storedTo (fun _ => 0#32) storeOnce 1
          (wordAddr (entryAddr 0b10000000000100#14 ((run powerUp storeOnce 1).tagArray 1#4) 1#4)) := by
  have hwin : window 0x8010_0044#32 = 0b10000000000100#14 := by decide
  have hrun := entries_mirror_stores (by decide) 0b10000000000100#14 powerUp (fun _ => 0#32)
    storeOnce (fun _ _ => hwin)
  exact ⟨rfl, hrun.1 1 1#4 rfl⟩

end StackValueBuffer
end RiscvCpu
