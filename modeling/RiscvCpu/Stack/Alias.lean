import RiscvCpu.Bus.Load
import RiscvCpu.Pipeline.Trap
import RiscvCpu.Soc.System
import RiscvCpu.Stack.Forward

/-!
# Alias — the stack value buffer and the windows of the data memory

The bridge shows one memory of 65536 words in three windows, and the buffer is shown the stores of
one of them.  A store through one of the other two that changes a word the buffer holds leaves the
entry stale.  Nothing else does.
-/

namespace RiscvCpu

open StackValueBuffer (window tagHit queryData Coherent)

namespace DataRam

/-! ## The memory behind its windows -/

theorem extract_extract {w len' start start' len : Nat} (x : BitVec w) (h : start + len ≤ len') :
    (x.extractLsb' start' len').extractLsb' start len = x.extractLsb' (start' + start) len := by
  apply BitVec.eq_of_getLsbD_eq
  intro i hi
  have hlt : start + i < len' := by omega
  simp [hi, hlt, Nat.add_assoc]

/-- The memory as one window of word addresses shows it. -/
def flat (m : Mem) : DMem := fun a => m (a.extractLsb' 0 16)

theorem flat_wordAddr (m : Mem) (addr : Word) : flat m (wordAddr addr) = m (index addr) :=
  congrArg m (extract_extract addr (by omega))

/-- Inside a window the index determines the word. -/
theorem wordAddr_eq_of_index {a b : Word} (hw : window a = window b) (hidx : index a = index b) :
    wordAddr a = wordAddr b :=
  StackValueBuffer.wordAddr_eq (Nat.le_refl 16) hw (@Subsingleton.elim (BitVec 0) _ _ _) hidx

theorem index_of_wordAddr {a b : Word} (h : wordAddr a = wordAddr b) : index a = index b :=
  StackValueBuffer.index_of_wordAddr (Nat.le_refl 16) h

/-- The buffer tells apart no addresses that the memory takes for one. -/
theorem tagHit_of_index {n : Nat} (hn : n ≤ 16) {r : StackValueBuffer.Regs n} {a b : Word}
    (h : index a = index b) : tagHit r a = tagHit r b := by
  apply StackValueBuffer.tagHit_congr
  · have hidx := congrArg (BitVec.extractLsb' 0 n) h
    have hle : 0 + n ≤ 16 := by omega
    simp only [index, extract_extract _ hle] at hidx
    exact hidx
  · have htag := congrArg (BitVec.extractLsb' n (16 - n)) h
    have hle : n + (16 - n) ≤ 16 := by omega
    simp only [index, extract_extract _ hle, Nat.add_comm 2 n] at htag
    exact htag

/-- A request shows the memory what it shows the word it addresses. -/
theorem next_index (m : Mem) (q : DmemReq) :
    next m (Bridge.ramSel q) q.addr (Bridge.ramWen q) q.wdata =
      if Bridge.ramSel q then
        Function.update m (index q.addr) (strobeWord q.wen (m (index q.addr)) q.wdata)
      else m := by
  cases hsel : Bridge.ramSel q with
  | false => simp [next]
  | true =>
      have hen : q.en = true := by
        rw [Bridge.ramSel, Bool.and_eq_true] at hsel
        exact hsel.1
      have hwen : Bridge.ramWen q = q.wen := by
        rw [Bridge.ramWen, Bridge.cpuWrite, hsel, hen]
        by_cases hnone : q.wen = 0#4 <;> simp [hnone]
      simp only [next, hwen, if_true]

end DataRam

namespace MyCpu

variable {cfg : Config} {mem : InstRam.Mem} {s : MyCpu} {p : Pins}

/-! ## One edge -/

/-- Every entry that matches an address of the stack window holds the word of the data memory
there. -/
def Mirrors (s : MyCpu) : Prop :=
  ∀ a, window a = Cpu.stackWindow → tagHit s.cpu.stack a = true →
    queryData s.cpu.stack a = s.soc.ram (DataRam.index a)

theorem mirrors_iff_coherent :
    Mirrors s ↔ Coherent Cpu.stackWindow s.cpu.stack (DataRam.flat s.soc.ram) := by
  simp only [Mirrors, Coherent, DataRam.flat_wordAddr]

/-- The store in execute goes through one of the windows that the buffer is not shown, to a word that
the buffer holds, and changes it. -/
def storesBehindEntry (cfg : Config) (s : MyCpu) : Bool :=
  let q := dmemReq cfg s
  let word := s.soc.ram (DataRam.index q.addr)
  q.en && (Bridge.ramBootSel q || Bridge.ramCoremarkSel q) && tagHit s.cpu.stack q.addr &&
    strobeWord q.wen word q.wdata != word

/-- The window that the buffer is shown is none of the other two. -/
theorem window_ne_of_alias {q : DmemReq}
    (h : Bridge.ramBootSel q = true ∨ Bridge.ramCoremarkSel q = true) :
    window q.addr ≠ Cpu.stackWindow := by
  intro hwin
  rcases h with h | h
  · rw [Bridge.ramBootSel, beq_iff_eq] at h
    have htop : (window q.addr).extractLsb' 10 4 = 0x6#4 :=
      (DataRam.extract_extract q.addr (by omega)).trans h
    rw [hwin] at htop
    exact absurd htop (by decide)
  · rw [Bridge.ramCoremarkSel, Map.page, beq_iff_eq] at h
    have hpage := congrArg (BitVec.extractLsb' 2 14) h
    rw [DataRam.extract_extract q.addr (by omega)] at hpage
    exact absurd (hwin.symm.trans hpage) (by decide)

theorem ramSel_eq (q : DmemReq) :
    Bridge.ramSel q =
      (q.en && (Bridge.ramBootSel q || Bridge.ramCoremarkSel q ||
        window q.addr == Cpu.stackWindow)) :=
  rfl

/-- The buffer is not shown what is stored outside its window. -/
theorem storeValid_of_window (h : window (dmemReq cfg s).addr ≠ Cpu.stackWindow) :
    (Cpu.stackPorts cfg s.cpu s.cpuIn).storeValid = false := by
  have hdram : ExeStage.stackDramAddr s.cpu.es = false := beq_eq_false_iff_ne.mpr h
  simp [Cpu.stackPorts, ExeStage.stackStoreValid, hdram]

theorem next_ram : (next cfg s p mem).soc.ram =
    if Bridge.ramSel (dmemReq cfg s) then
      Function.update s.soc.ram (DataRam.index (dmemReq cfg s).addr)
        (strobeWord (dmemReq cfg s).wen (s.soc.ram (DataRam.index (dmemReq cfg s).addr))
          (dmemReq cfg s).wdata)
    else s.soc.ram :=
  DataRam.next_index s.soc.ram (dmemReq cfg s)

/-- In the window of the buffer, the data memory is the flat memory that the core takes it for, as
long as the core stores there. -/
theorem next_ram_inside (hwin : window (dmemReq cfg s).addr = Cpu.stackWindow) {a : Word}
    (ha : window a = Cpu.stackWindow) :
    Cpu.nextDMem cfg s.cpu s.cpuIn (DataRam.flat s.soc.ram) (wordAddr a) =
      (next cfg s p mem).soc.ram (DataRam.index a) := by
  have hsel : Bridge.ramSel (dmemReq cfg s) = Cpu.dmemEn cfg s.cpu s.cpuIn := by
    rw [ramSel_eq, hwin, beq_self_eq_true, Bool.or_true, Bool.and_true]
    rfl
  rw [next_ram, hsel, Cpu.nextDMem]
  split
  · by_cases hidx : DataRam.index a = DataRam.index (dmemReq cfg s).addr
    · have haddr : wordAddr a = wordAddr (Cpu.dmemAddr s.cpu) :=
        DataRam.wordAddr_eq_of_index (ha.trans hwin.symm) hidx
      rw [hidx, Function.update_self, haddr, DMem.write_same, DataRam.flat_wordAddr]
      rfl
    · have haddr : wordAddr a ≠ wordAddr (Cpu.dmemAddr s.cpu) :=
        fun h => hidx (DataRam.index_of_wordAddr h)
      rw [Function.update_of_ne hidx, DMem.write_other haddr, DataRam.flat_wordAddr]
  · exact DataRam.flat_wordAddr _ _

/-- An edge that stores nothing behind an entry keeps the mirror. -/
theorem mirrors_next (hc : Cpu.Control s.cpu) (h : Mirrors s)
    (hok : storesBehindEntry cfg s = false) : Mirrors (next cfg s p mem) := by
  intro a ha hhit
  by_cases hwin : window (dmemReq cfg s).addr = Cpu.stackWindow
  · have hcoh : Coherent Cpu.stackWindow (next cfg s p mem).cpu.stack
        (Cpu.nextDMem cfg s.cpu s.cpuIn (DataRam.flat s.soc.ram)) :=
      Cpu.coherent_next hc (mirrors_iff_coherent.mp h)
    exact (hcoh a ha hhit).trans (next_ram_inside hwin ha)
  · -- the buffer stays as it is, so only the memory has to be looked at
    rcases StackValueBuffer.next_of_not_storeValid (storeValid_of_window hwin) with ⟨htag, hdata⟩
    have hhit' : tagHit s.cpu.stack a = true := htag.symm.trans hhit
    have hsame : (next cfg s p mem).soc.ram (DataRam.index a) = s.soc.ram (DataRam.index a) := by
      rw [next_ram]
      split
      next hsel =>
        by_cases hidx : DataRam.index a = DataRam.index (dmemReq cfg s).addr
        · have hentry : tagHit s.cpu.stack (dmemReq cfg s).addr = true :=
            (DataRam.tagHit_of_index (by decide) hidx).symm.trans hhit'
          rw [ramSel_eq, beq_eq_false_iff_ne.mpr hwin, Bool.or_false] at hsel
          simp only [storesBehindEntry, hsel, hentry, Bool.true_and, bne_eq_false_iff_eq] at hok
          rw [hidx, Function.update_self, hok]
        · exact Function.update_of_ne hidx ..
      next => rfl
    calc queryData (next cfg s p mem).cpu.stack a
        = queryData s.cpu.stack a := hdata
      _ = s.soc.ram (DataRam.index a) := h a ha hhit'
      _ = (next cfg s p mem).soc.ram (DataRam.index a) := hsame.symm

/-- The address in the window of the buffer that the data memory takes for `addr`. -/
def inWindow (addr : Word) : Word := Cpu.stackWindow ++ addr.extractLsb' 0 18

theorem window_inWindow (addr : Word) : window (inWindow addr) = Cpu.stackWindow :=
  BitVec.extractLsb'_append_eq_left

theorem index_inWindow (addr : Word) : DataRam.index (inWindow addr) = DataRam.index addr := by
  rw [DataRam.index, inWindow, BitVec.extractLsb'_append_eq_of_add_le (by omega),
    DataRam.extract_extract addr (by omega)]
  rfl

/-- A store behind an entry leaves the entry stale. -/
theorem not_mirrors_next (h : Mirrors s) (hbehind : storesBehindEntry cfg s = true) :
    ¬ Mirrors (next cfg s p mem) := by
  intro hnext
  simp only [storesBehindEntry, Bool.and_eq_true, Bool.or_eq_true, bne_iff_ne, ne_eq] at hbehind
  rcases hbehind with ⟨⟨⟨hen, halias⟩, hentry⟩, hchange⟩
  rcases StackValueBuffer.next_of_not_storeValid
    (storeValid_of_window (window_ne_of_alias halias)) with ⟨htag, hdata⟩
  have hsel : Bridge.ramSel (dmemReq cfg s) = true := by
    rcases halias with h | h <;> simp [Bridge.ramSel, hen, h]
  have hidx := index_inWindow (dmemReq cfg s).addr
  have hhit : tagHit s.cpu.stack (inWindow (dmemReq cfg s).addr) = true :=
    (DataRam.tagHit_of_index (by decide) hidx).trans hentry
  have hold := h _ (window_inWindow _) hhit
  have hnew := hnext _ (window_inWindow _) (htag.trans hhit)
  rw [next_ram, if_pos hsel, hidx, Function.update_self] at hnew
  apply hchange
  calc strobeWord (dmemReq cfg s).wen (s.soc.ram (DataRam.index (dmemReq cfg s).addr))
        (dmemReq cfg s).wdata
      = queryData (next cfg s p mem).cpu.stack (inWindow (dmemReq cfg s).addr) := hnew.symm
    _ = queryData s.cpu.stack (inWindow (dmemReq cfg s).addr) := hdata
    _ = s.soc.ram (DataRam.index (inWindow (dmemReq cfg s).addr)) := hold
    _ = s.soc.ram (DataRam.index (dmemReq cfg s).addr) := by rw [hidx]

/-! ## Runs -/

section Run

variable (cfg : Config) (mem : InstRam.Mem) (s₀ : MyCpu) (pins : Nat → Pins)

theorem mirrors_reset : Mirrors (reset s₀) := by
  rw [mirrors_iff_coherent]
  exact StackValueBuffer.coherent_reset _ _ _

theorem control_run (t : Nat) : Cpu.Control (run cfg mem s₀ pins t).cpu := by
  rw [run_cpu]
  exact Cpu.control_run ..

theorem mirrors_run {t : Nat}
    (hok : ∀ k, k < t → storesBehindEntry cfg (run cfg mem s₀ pins k) = false) :
    Mirrors (run cfg mem s₀ pins t) := by
  induction t with
  | zero => exact mirrors_reset s₀
  | succ t ih =>
      have hbefore : Mirrors (run cfg mem s₀ pins t) :=
        ih fun k hk => hok k (Nat.lt_succ_of_lt hk)
      rw [run_next]
      exact mirrors_next (control_run cfg mem s₀ pins t) hbefore (hok t (Nat.lt_succ_self t))

/-- Whatever windows the data memory is written through, the entries of the buffer hold its words up
to a cycle if and only if no store before that cycle changed one of them behind the buffer. -/
theorem entries_mirror_ram_iff (T : Nat) :
    (∀ t, t ≤ T → Mirrors (run cfg mem s₀ pins t)) ↔
      ∀ t, t < T → storesBehindEntry cfg (run cfg mem s₀ pins t) = false := by
  constructor
  · intro hall t ht
    cases hbehind : storesBehindEntry cfg (run cfg mem s₀ pins t) with
    | false => rfl
    | true =>
        have hnext : Mirrors (next cfg (run cfg mem s₀ pins t) (pins t) mem) := hall (t + 1) ht
        exact absurd hnext (not_mirrors_next (hall t (Nat.le_of_lt ht)) hbehind)
  · intro hok t ht
    exact mirrors_run cfg mem s₀ pins fun k hk => hok k (Nat.lt_of_lt_of_le hk ht)

end Run

/-! ## A store through `0x8000_0000` -/

/-- A stage from fetch to execute holds a store. -/
def storeInFlight (s : MyCpu) : Bool :=
  let ds := s.cpu.ds.buf
  let es := s.cpu.es.buf
  Decode.isStoreInst s.imemRdata ||
    (ds.valid && Decode.isStoreInst ds.main.bus.inst) ||
    (ds.skidValid && Decode.isStoreInst ds.skid.bus.inst) ||
    (es.valid && es.main.bus.mem.isStore) || (es.skidValid && es.skid.bus.mem.isStore)

/-- `lui x2, 0x80100; sw x0, 0(x2); lui x3, 0x80000; sw x3, 0(x3)`, and `nop` from then on. -/
def storeThroughAlias (a : BitVec 12) : Word :=
  if a = 0#12 then 0x80100137#32
  else if a = 1#12 then 0x00012023#32
  else if a = 2#12 then 0x800001b7#32
  else if a = 3#12 then 0x0031a023#32
  else 0x00000013#32

def zero : MyCpu := { cpu := Cpu.zero, imemRdata := 0#32, soc := Soc.zero }

def quietPins (_ : Nat) : Pins := { clkUart := false, uartRx := true, externalInterrupts := 0#32 }

/-- The entry of `0x8010_0000` still holds 0 when both stores are done. -/
theorem alias_not_mirrored :
    (∀ a, Decode.usesF (storeThroughAlias a) = false) ∧
      storeInFlight (run Cpu.plainBuild storeThroughAlias zero quietPins 12) = false ∧
      ¬ Mirrors (run Cpu.plainBuild storeThroughAlias zero quietPins 12) := by
  refine ⟨?_, by decide +kernel, ?_⟩
  · intro a
    unfold storeThroughAlias
    split_ifs <;> decide
  · intro h
    have hword := h 0x80100000#32 (by decide) (by decide +kernel)
    revert hword
    decide +kernel

end MyCpu
end RiscvCpu
