import RiscvCpu.Board.Adapter
import RiscvCpu.Pipeline.Stale
import RiscvCpu.Refine.Sequential
import RiscvCpu.Stack.Alias
import RiscvCpu.Stack.Lookup

/-!
# Program — programs on the board

The board is one of the environments of `Sequential`.  Its data memory has one window, which is that of
the stack value buffer, so no store escapes the buffer.  A program that does not read the counter runs as
the sequential machine in front of the memory, the switches, the keys, the LEDs and the display, as long as
no entry of the buffer is replaced under a lookup.
-/

namespace RiscvCpu
namespace Board

open StackValueBuffer (window tagHit queryData Coherent)

/-- What a program can leave on the board. -/
structure Device where
  dram : DramDriver.Mem
  led : Word
  segWdata : Word
  cntEnableCfg : Bool

namespace Device

open PeripBridge

/-- What a load returns, with the switches and keys as they are set. -/
def answer (sw : BitVec 64) (key : BitVec 8) (d : Device) (addr : Word) : Word :=
  if dramRegionSel addr then d.dram (DramDriver.addra addr)
  else if addr == SW0_ADDR then sw.extractLsb' 0 32
  else if addr == SW1_ADDR then sw.extractLsb' 32 32
  else if addr == KEY_ADDR then key.setWidth 32
  else if addr == SEG_ADDR then d.segWdata
  else 0#32

/-- What a store leaves. -/
def store (d : Device) (q : Isa.Request) : Device :=
  { dram :=
      if dramRegionSel q.addr then
        Function.update d.dram (DramDriver.addra q.addr)
          (strobeWord q.strobes (d.dram (DramDriver.addra q.addr)) q.lanes)
      else d.dram
    led := if q.addr == LED_ADDR then q.lanes else d.led
    segWdata := if q.addr == SEG_ADDR then q.lanes else d.segWdata
    cntEnableCfg :=
      if q.addr == CNT_ADDR then
        if q.lanes == CNT_START_CMD then true
        else if q.lanes == CNT_STOP_CMD then false
        else d.cntEnableCfg
      else d.cntEnableCfg }

/-- The board as a memory for the sequential machine. -/
def memory (sw : BitVec 64) (key : BitVec 8) : Isa.Memory Device :=
  { answer := fun d q => answer sw key d q.addr
    perform := fun d q => if q.strobes = 0#4 then d else store d q }

/-- The request does not read the counter, and stores full words outside the data memory. -/
def serves (q : Isa.Request) : Bool :=
  dramRegionSel q.addr ||
    if q.strobes = 0#4 then q.addr != CNT_ADDR else q.strobes == 0b1111#4

end Device

namespace PeripBridge

/-- What the program has left. -/
def device (r : Regs) : Device :=
  { dram := r.dram.mem, led := r.led, segWdata := r.segWdata, cntEnableCfg := r.cntEnableCfg }

variable {r : Regs} {p : In}

theorem not_dramRegionSel_mmio :
    dramRegionSel SW0_ADDR = false ∧ dramRegionSel SW1_ADDR = false ∧
      dramRegionSel KEY_ADDR = false ∧ dramRegionSel SEG_ADDR = false ∧
      dramRegionSel CNT_ADDR = false ∧ dramRegionSel LED_ADDR = false := by
  decide

/-- A load is answered in the next cycle with what it has addressed, whatever the counter shows by then. -/
theorem peripRdata_next (hren : p.peripRen = true)
    (hcnt : p.peripAddr ≠ CNT_ADDR) (cntRdata : Word) :
    peripRdata (next r p) cntRdata =
      Device.answer p.virtualSwInput p.virtualKeyInput (device r) p.peripAddr := by
  have hcnt' : (p.peripAddr == CNT_ADDR) = false := by simpa using hcnt
  rcases not_dramRegionSel_mmio with ⟨hsw0, hsw1, hkey, hseg, -, -⟩
  simp only [peripRdata, next, hren, if_true, Device.answer, device, mmioNext, hcnt', masked,
    DramDriver.next]
  by_cases h0 : p.peripAddr = SW0_ADDR
  · rw [h0, hsw0]
    simp [SW0_ADDR, SW1_ADDR, KEY_ADDR, SEG_ADDR]
  · by_cases h1 : p.peripAddr = SW1_ADDR
    · rw [h1, hsw1]
      simp [SW0_ADDR, SW1_ADDR, KEY_ADDR, SEG_ADDR]
    · by_cases h2 : p.peripAddr = KEY_ADDR
      · rw [h2, hkey]
        simp [SW0_ADDR, SW1_ADDR, KEY_ADDR, SEG_ADDR]
      · by_cases h3 : p.peripAddr = SEG_ADDR
        · rw [h3, hseg]
          simp [SW0_ADDR, SW1_ADDR, KEY_ADDR, SEG_ADDR]
        · simp [h0, h1, h2, h3]

theorem device_next_idle (h : p.peripWen = false) : device (next r p) = device r := by
  simp [device, next, h, DramDriver.next, DramDriver.dramWe, strobeWord_none]

theorem device_next_store {q : Isa.Request} (haddr : p.peripAddr = q.addr)
    (hmask : p.peripMask = q.strobes) (hwen : p.peripWen = true)
    (hlanes : strobeWord q.strobes 0#32 p.peripWdata = q.lanes) (hstore : q.strobes ≠ 0#4)
    (hserves : Device.serves q = true) : device (next r p) = Device.store (device r) q := by
  rcases not_dramRegionSel_mmio with ⟨-, -, -, hseg, hcnt, hled⟩
  rw [Device.serves, if_neg hstore] at hserves
  cases hsel : dramRegionSel q.addr with
  | true =>
      -- none of the registers lies in the window of the memory
      have hne : ∀ a, dramRegionSel a = false → (q.addr == a) = false := by
        intro a ha
        apply beq_eq_false_iff_ne.mpr
        intro heq
        rw [← heq, hsel] at ha
        cases ha
      simp only [device, next, Device.store, haddr, hmask, hwen, hsel, Bool.true_and,
        hne _ hled, hne _ hseg, hne _ hcnt, Bool.false_eq_true, if_false, if_true,
        DramDriver.next, DramDriver.dramWe, ← hlanes, strobeWord_lanes]
  | false =>
      -- a full word
      rw [hsel, Bool.false_or, beq_iff_eq] at hserves
      have hwdata : p.peripWdata = q.lanes := by
        rw [← hlanes, hserves, strobeWord_full]
      simp only [device, next, Device.store, haddr, hwen, hwdata, hsel, Bool.true_and,
        Bool.and_false, Bool.false_eq_true, if_false, DramDriver.next, DramDriver.dramWe,
        strobeWord_none, Function.update_eq_self, cntEnableNext]

end PeripBridge

namespace Adapter

variable {cfg : Config} {mem : InstRam.Mem} {s₀ : Adapter} {pins : Nat → Pins}

/-- The instruction memory, repeated over the address space. -/
def imem (mem : InstRam.Mem) (a : Word) : Word := mem (InstRam.index a)

/-- No entry of the stack value buffer is replaced under a lookup in the first `T` cycles. -/
def Undisturbed (cfg : Config) (mem : InstRam.Mem) (s₀ : Adapter) (pins : Nat → Pins) (T : Nat) :
    Prop :=
  ∀ k, k < T → Cpu.replacedUnderLookup cfg (run cfg mem s₀ pins k).cpu
    (cpuIn (run cfg mem s₀ pins k) (pins k)) = false

theorem control_run (t : Nat) : Cpu.Control (run cfg mem s₀ pins t).cpu := by
  rw [← run_cpu]
  exact Cpu.control_run ..

/-! ## What the bridge sees -/

theorem imemRdata_noF (hdec : ∀ a, (Isa.decode (mem a)).isSome = true)
    (hfirst : Decode.usesF s₀.imemRdata = false) (t : Nat) :
    Decode.usesF (run cfg mem s₀ pins t).imemRdata = false := by
  induction t with
  | zero => exact hfirst
  | succ t ih =>
      show Decode.usesF (InstRam.next mem (run cfg mem s₀ pins t).imemRdata _ _) = false
      rw [InstRam.next]
      split
      · exact (Datapath.usesF_of_isaOpcode
          (@Cpu.isa_of_decodes (fun a => mem (InstRam.index a)) (fun a => hdec _) _)).1
      · exact ih

/-- A strobe comes with a request. -/
theorem dmemEn_of_strobe (hdec : ∀ a, (Isa.decode (mem a)).isSome = true)
    (hfirst : Decode.usesF s₀.imemRdata = false) {t : Nat}
    (hwen : Cpu.dmemWen cfg (run cfg mem s₀ pins t).cpu (coreIn cfg mem s₀ pins t) ≠ 0#4) :
    Cpu.dmemEn cfg (run cfg mem s₀ pins t).cpu (coreIn cfg mem s₀ pins t) = true := by
  rw [← run_cpu] at hwen ⊢
  exact Cpu.dmemEn_of_strobe cfg s₀.cpu (coreIn cfg mem s₀ pins)
    (fun n => imemRdata_noF hdec hfirst n) hwen

/-- The request of the core, as the bridge sees it. -/
theorem bridgeIn_of_request {s : Adapter} {p : Pins} {q : Isa.Request}
    (h : Cpu.request cfg s.cpu (cpuIn s p) = some q) :
    (bridgeIn cfg s p).peripRen = true ∧ (bridgeIn cfg s p).peripAddr = q.addr ∧
      (bridgeIn cfg s p).peripMask = q.strobes ∧
      strobeWord q.strobes 0#32 (bridgeIn cfg s p).peripWdata = q.lanes ∧
      (bridgeIn cfg s p).peripWen = (q.strobes != 0#4) := by
  rw [Cpu.request] at h
  split at h
  next hen =>
    cases h
    exact ⟨hen, rfl, rfl, rfl, rfl⟩
  next => cases h

/-! ## The stack value buffer -/

/-- In the window of the buffer, the data memory is the flat memory that the core takes it for. -/
theorem dram_next {s : Adapter} {p : Pins}
    (hstrobe : Cpu.dmemWen cfg s.cpu (cpuIn s p) ≠ 0#4 → Cpu.dmemEn cfg s.cpu (cpuIn s p) = true)
    {a : Word} (ha : window a = Cpu.stackWindow) :
    Cpu.nextDMem cfg s.cpu (cpuIn s p) (DataRam.flat s.bridge.dram.mem) (wordAddr a) =
      (next cfg s p mem).bridge.dram.mem (DataRam.index a) := by
  have hnext : (next cfg s p mem).bridge.dram.mem =
      Function.update s.bridge.dram.mem (DataRam.index (Cpu.dmemAddr s.cpu))
        (strobeWord
          (DramDriver.dramWe (Cpu.dmemWen cfg s.cpu (cpuIn s p))
            (Cpu.dmemWen cfg s.cpu (cpuIn s p) != 0#4 &&
              PeripBridge.dramRegionSel (Cpu.dmemAddr s.cpu)))
          (s.bridge.dram.mem (DataRam.index (Cpu.dmemAddr s.cpu))) (Cpu.dmemWdata s.cpu)) := rfl
  rw [hnext, Cpu.nextDMem]
  by_cases hwin : window (Cpu.dmemAddr s.cpu) = Cpu.stackWindow
  · have hsel : PeripBridge.dramRegionSel (Cpu.dmemAddr s.cpu) = true := beq_iff_eq.mpr hwin
    have hwe : DramDriver.dramWe (Cpu.dmemWen cfg s.cpu (cpuIn s p))
        (Cpu.dmemWen cfg s.cpu (cpuIn s p) != 0#4 &&
          PeripBridge.dramRegionSel (Cpu.dmemAddr s.cpu)) =
        Cpu.dmemWen cfg s.cpu (cpuIn s p) := by
      rw [hsel, Bool.and_true, DramDriver.dramWe]
      by_cases hzero : Cpu.dmemWen cfg s.cpu (cpuIn s p) = 0#4 <;> simp [hzero]
    rw [hwe]
    split
    next =>
      by_cases hidx : DataRam.index a = DataRam.index (Cpu.dmemAddr s.cpu)
      · have haddr : wordAddr a = wordAddr (Cpu.dmemAddr s.cpu) :=
          DataRam.wordAddr_eq_of_index (ha.trans hwin.symm) hidx
        rw [hidx, Function.update_self, haddr, DMem.write_same, DataRam.flat_wordAddr]
      · have haddr : wordAddr a ≠ wordAddr (Cpu.dmemAddr s.cpu) := fun h =>
          hidx (DataRam.index_of_wordAddr h)
        rw [Function.update_of_ne hidx, DMem.write_other haddr, DataRam.flat_wordAddr]
    next hen =>
      have hzero : Cpu.dmemWen cfg s.cpu (cpuIn s p) = 0#4 := by
        by_contra hne
        exact hen (hstrobe hne)
      rw [hzero, strobeWord_none, Function.update_eq_self, DataRam.flat_wordAddr]
  · -- outside, neither changes
    have hsel : PeripBridge.dramRegionSel (Cpu.dmemAddr s.cpu) = false :=
      beq_eq_false_iff_ne.mpr hwin
    have haddr : wordAddr a ≠ wordAddr (Cpu.dmemAddr s.cpu) := fun h =>
      hwin ((StackValueBuffer.window_of_wordAddr h).symm.trans ha)
    rw [hsel, Bool.and_false, DramDriver.dramWe, if_neg Bool.false_ne_true, strobeWord_none,
      Function.update_eq_self]
    split
    next => rw [DMem.write_other haddr, DataRam.flat_wordAddr]
    next => exact DataRam.flat_wordAddr _ _

/-- The buffer mirrors the data memory in every cycle. -/
theorem coherent_run (hdec : ∀ a, (Isa.decode (mem a)).isSome = true)
    (hfirst : Decode.usesF s₀.imemRdata = false) (t : Nat) :
    Coherent Cpu.stackWindow (run cfg mem s₀ pins t).cpu.stack
      (DataRam.flat (run cfg mem s₀ pins t).bridge.dram.mem) := by
  induction t with
  | zero => exact StackValueBuffer.coherent_reset _ _ _
  | succ t ih =>
      intro a ha hhit
      have hcoh : Coherent Cpu.stackWindow (run cfg mem s₀ pins (t + 1)).cpu.stack
          (Cpu.nextDMem cfg (run cfg mem s₀ pins t).cpu (coreIn cfg mem s₀ pins t)
            (DataRam.flat (run cfg mem s₀ pins t).bridge.dram.mem)) :=
        Cpu.coherent_next (control_run t) ih
      have hdram := @dram_next cfg mem (run cfg mem s₀ pins t) (pins t)
        (dmemEn_of_strobe hdec hfirst) a ha
      rw [DataRam.flat_wordAddr]
      exact (hcoh a ha hhit).trans hdram

/-! ## The environment -/

theorem answered_of_request {s : Adapter} {p p' : Pins} {q : Isa.Request}
    (h : Cpu.request cfg s.cpu (cpuIn s p) = some q) (hcnt : q.addr ≠ PeripBridge.CNT_ADDR) :
    (cpuIn (next cfg s p mem) p').dmemRdata =
      Device.answer p.sw p.key (PeripBridge.device s.bridge) q.addr := by
  rcases bridgeIn_of_request h with ⟨hren, haddr, -, -, -⟩
  rw [← haddr] at hcnt ⊢
  exact PeripBridge.peripRdata_next hren hcnt p'.cntRdata

theorem envBefore_core (hdec : ∀ a, (Isa.decode (mem a)).isSome = true)
    (hfirst : Decode.usesF s₀.imemRdata = false) {T : Nat}
    (hok : Undisturbed cfg mem s₀ pins T) :
    Cpu.EnvBefore cfg (imem mem) s₀.cpu (coreIn cfg mem s₀ pins) T := by
  intro k hk
  have hlook : Cpu.Looked (run cfg mem s₀ pins k).cpu := by
    rw [← run_cpu]
    apply Cpu.looked_run
    intro j hj
    rw [run_cpu]
    exact hok j (Nat.lt_trans hj hk)
  rw [run_cpu]
  refine { fetch := rfl, capture := ?_ }
  intro hcap
  rcases Cpu.hit_of_capture (control_run k) hlook hcap with ⟨hen, -, hwin, htag⟩
  have hreq : Cpu.request cfg (run cfg mem s₀ pins k).cpu (coreIn cfg mem s₀ pins k) =
      some ⟨Cpu.dmemAddr (run cfg mem s₀ pins k).cpu, _, _⟩ := if_pos hen
  have hsel : PeripBridge.dramRegionSel (Cpu.dmemAddr (run cfg mem s₀ pins k).cpu) = true :=
    beq_iff_eq.mpr hwin
  have hcnt : Cpu.dmemAddr (run cfg mem s₀ pins k).cpu ≠ PeripBridge.CNT_ADDR := by
    intro heq
    rw [heq] at hsel
    cases hsel
  have hanswer := @answered_of_request cfg mem _ (pins k) (pins (k + 1)) _ hreq hcnt
  rw [Device.answer, if_pos hsel] at hanswer
  have hword := coherent_run hdec hfirst k _ hwin htag
  rw [DataRam.flat_wordAddr] at hword
  exact hword.trans hanswer.symm

/-- The board serves every request but a read of the counter and a narrow store to a register. -/
theorem servedBefore_core (hdec : ∀ a, (Isa.decode (mem a)).isSome = true)
    (hfirst : Decode.usesF s₀.imemRdata = false) {sw : BitVec 64} {key : BitVec 8}
    (hpins : ∀ k, (pins k).sw = sw ∧ (pins k).key = key) (T : Nat) :
    Cpu.ServedBefore (Device.memory sw key) (fun q => Device.serves q = true) cfg s₀.cpu
      (coreIn cfg mem s₀ pins) (fun k => PeripBridge.device (run cfg mem s₀ pins k).bridge) T := by
  have hreq : ∀ k, Cpu.request cfg (Cpu.run cfg s₀.cpu (coreIn cfg mem s₀ pins) k)
      (coreIn cfg mem s₀ pins k) =
        Cpu.request cfg (run cfg mem s₀ pins k).cpu (cpuIn (run cfg mem s₀ pins k) (pins k)) := by
    intro k
    rw [run_cpu]
    rfl
  refine { answered := ?_, performed := ?_, idle := ?_ }
  · intro k _ q hq hserves hload
    rw [hreq] at hq
    have hcnt : q.addr ≠ PeripBridge.CNT_ADDR := by
      intro heq
      rw [Device.serves, heq, if_pos hload, bne_self_eq_false,
        PeripBridge.not_dramRegionSel_mmio.2.2.2.2.1] at hserves
      cases hserves
    have hanswer := @answered_of_request cfg mem _ (pins k) (pins (k + 1)) q hq hcnt
    rw [(hpins k).1, (hpins k).2] at hanswer
    exact hanswer
  · intro k _ q hq hserves
    rw [hreq] at hq
    rcases bridgeIn_of_request hq with ⟨-, haddr, hmask, hlanes, hwen⟩
    show PeripBridge.device (PeripBridge.next (run cfg mem s₀ pins k).bridge
      (bridgeIn cfg (run cfg mem s₀ pins k) (pins k))) = if q.strobes = 0#4 then _ else _
    by_cases hload : q.strobes = 0#4
    · rw [if_pos hload]
      apply PeripBridge.device_next_idle
      rw [hwen, hload]
      rfl
    · rw [if_neg hload]
      apply PeripBridge.device_next_store haddr hmask _ hlanes hload hserves
      rw [hwen]
      simpa using hload
  · intro k _ hq
    rw [hreq, Cpu.request] at hq
    split at hq
    next => cases hq
    next hen =>
      -- no strobe without a request
      apply PeripBridge.device_next_idle
      show (Cpu.dmemWen cfg (run cfg mem s₀ pins k).cpu (coreIn cfg mem s₀ pins k) != 0#4) = false
      rw [bne_eq_false_iff_eq]
      by_contra hwen
      exact hen (dmemEn_of_strobe hdec hfirst hwen)

/-! ## Every program -/

/-- A program that runs aligned and leaves the counter alone runs on the board as the sequential machine in
front of the memory, the switches, the keys, the LEDs and the display, while switches and keys stay and no
entry of the stack value buffer is replaced under a lookup: up to every cycle, requests, memory, LEDs and
display are those of the instructions run so far, at least one for every 33 cycles, and so are the register
writes two cycles later. -/
theorem runs_on_board (cfg : Config) (mem : InstRam.Mem) (s₀ : Adapter) (pins : Nat → Pins)
    (sw : BitVec 64) (key : BitVec 8) (hpins : ∀ k, (pins k).sw = sw ∧ (pins k).key = key)
    (hdec : ∀ a, (Isa.decode (mem a)).isSome = true)
    (hfirst : Decode.usesF s₀.imemRdata = false) (t : Nat) (hok : Undisturbed cfg mem s₀ pins t)
    (hal : ∀ n, n < t → ((Device.memory sw key).run (imem mem) cfg.pcStart
      (PeripBridge.device (PeripBridge.reset s₀.bridge)) n).1.state.Aligned (imem mem))
    (hserves : ∀ n, n < t → (((Device.memory sw key).run (imem mem) cfg.pcStart
      (PeripBridge.device (PeripBridge.reset s₀.bridge)) n).1.state.request? (imem mem)).all
        Device.serves = true) :
    ∃ n, t / 33 ≤ n ∧
      Cpu.requestsUpTo cfg s₀.cpu (coreIn cfg mem s₀ pins) t =
        ((Device.memory sw key).run (imem mem) cfg.pcStart
          (PeripBridge.device (PeripBridge.reset s₀.bridge)) n).1.requests ∧
      Cpu.writesUpTo cfg s₀.cpu (coreIn cfg mem s₀ pins) (t + 2) =
        ((Device.memory sw key).run (imem mem) cfg.pcStart
          (PeripBridge.device (PeripBridge.reset s₀.bridge)) n).1.writes ∧
      PeripBridge.device (run cfg mem s₀ pins t).bridge =
        ((Device.memory sw key).run (imem mem) cfg.pcStart
          (PeripBridge.device (PeripBridge.reset s₀.bridge)) n).2 := by
  have h := Cpu.runs_on_memory (Device.memory sw key) (fun q => Device.serves q = true) cfg (imem mem)
    s₀.cpu (coreIn cfg mem s₀ pins) (fun k => PeripBridge.device (run cfg mem s₀ pins k).bridge)
    (fun a => hdec _) t (envBefore_core hdec hfirst hok) (servedBefore_core hdec hfirst hpins t) hal
    fun n hn => (Option.all_eq_true _ _).mp (hserves n hn)
  exact ⟨_, Cpu.answers_rate t, h⟩

/-- `lui x2, 0x80100; lui x1, 0x80200; lw x5, 0(x1); sw x5, 64(x1); sw x5, 0(x2); lw x7, 0(x2)`: the
switches are shown on the LEDs, and kept in the data memory. -/
def showSwitches (a : BitVec 12) : Word :=
  if a = 0#12 then 0x80100137#32
  else if a = 1#12 then 0x802000b7#32
  else if a = 2#12 then 0x0000a283#32
  else if a = 3#12 then 0x0450a023#32
  else if a = 4#12 then 0x00512023#32
  else if a = 5#12 then 0x00012383#32
  else 0x00000013#32

theorem showSwitches_decodes (a : BitVec 12) : (Isa.decode (showSwitches a)).isSome = true := by
  unfold showSwitches
  split_ifs
  all_goals rfl

/-- The board at power-up. -/
def zero : Adapter :=
  { cpu := Cpu.zero
    imemRdata := 0#32
    bridge :=
      { led := 0#32, segWdata := 0#32, cntEnableCfg := false, readAddrD := 0#32, readValidD := false,
        mmioRdata := 0#32, dram := { mem := fun _ => 0#32, douta := 0#32 } } }

instance (T : Nat) : Decidable (Undisturbed cfg mem s₀ pins T) := by
  unfold Undisturbed
  infer_instance

/-- The counter shows the number of the cycle. -/
def sw7Pins (t : Nat) : Pins := { sw := 7#64, key := 0#8, cntRdata := BitVec.ofNat 32 t }

theorem runs_on_board_showSwitches :
    ∃ n, 16 / 33 ≤ n ∧
      Cpu.requestsUpTo Cpu.plainBuild Cpu.zero
          (coreIn Cpu.plainBuild showSwitches zero sw7Pins) 16 =
        ((Device.memory 7#64 0#8).run (imem showSwitches) 0x8000_0000#32
          (PeripBridge.device (PeripBridge.reset zero.bridge)) n).1.requests ∧
      Cpu.writesUpTo Cpu.plainBuild Cpu.zero
          (coreIn Cpu.plainBuild showSwitches zero sw7Pins) 18 =
        ((Device.memory 7#64 0#8).run (imem showSwitches) 0x8000_0000#32
          (PeripBridge.device (PeripBridge.reset zero.bridge)) n).1.writes ∧
      PeripBridge.device (run Cpu.plainBuild showSwitches zero sw7Pins 16).bridge =
        ((Device.memory 7#64 0#8).run (imem showSwitches) 0x8000_0000#32
          (PeripBridge.device (PeripBridge.reset zero.bridge)) n).2 :=
  runs_on_board Cpu.plainBuild showSwitches zero sw7Pins 7#64 0#8 (fun _ => ⟨rfl, rfl⟩)
    showSwitches_decodes rfl 16 (by decide +kernel) (by decide +kernel) (by decide +kernel)

end Adapter
end Board
end RiscvCpu
