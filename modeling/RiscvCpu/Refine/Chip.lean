import RiscvCpu.Refine.Sequential
import RiscvCpu.Stack.Alias
import RiscvCpu.Stack.Lookup

/-!
# Chip — programs on the whole of `my_cpu.sv`

The core wired to its instruction memory, the bridge, the data memory, the peripherals and the interrupt
controller is one of the environments of `Sequential`, as long as no store changes a word behind its entry
in the stack value buffer and no entry is replaced under a lookup.  What the bus is asked for is then what
the sequential machine asks for, in its order, and a program that stays in the data memory runs as on that
memory alone, whatever the pins of the chip do.  The programs here are the interpreter's: they have no
system instruction, so no interrupt is ever enabled.
-/

namespace RiscvCpu

namespace DataRam

/-- `soc_data_ram` as a memory for the sequential machine. -/
def memory : Isa.Memory Mem :=
  { answer := fun m q => m (index q.addr)
    perform := fun m q => next m true q.addr q.strobes q.lanes }

/-- The request goes to one of the windows of the memory. -/
def serves (q : Isa.Request) : Bool :=
  Bridge.ramSel { en := true, addr := q.addr, wen := q.strobes, wdata := q.lanes }

end DataRam

namespace MyCpu

variable {cfg : Config} {mem : InstRam.Mem} {s₀ : MyCpu} {pins : Nat → Pins}

/-- The instruction memory, repeated over the address space. -/
def imem (mem : InstRam.Mem) (a : Word) : Word := mem (InstRam.index a)

/-- The inputs of the core. -/
def coreIn (cfg : Config) (mem : InstRam.Mem) (s₀ : MyCpu) (pins : Nat → Pins) (k : Nat) : CpuIn :=
  (run cfg mem s₀ pins k).cpuIn

/-- In the first `T` cycles no store changes a word behind its entry in the stack value buffer, and no
entry is replaced under a lookup. -/
def Undisturbed (cfg : Config) (mem : InstRam.Mem) (s₀ : MyCpu) (pins : Nat → Pins) (T : Nat) : Prop :=
  ∀ k, k < T → storesBehindEntry cfg (run cfg mem s₀ pins k) = false ∧
    Cpu.replacedUnderLookup cfg (run cfg mem s₀ pins k).cpu (run cfg mem s₀ pins k).cpuIn = false

theorem run_core (k : Nat) :
    Cpu.run cfg s₀.cpu (coreIn cfg mem s₀ pins) k = (run cfg mem s₀ pins k).cpu :=
  (run_cpu cfg mem s₀ pins k).symm

/-! ## The bus -/

/-- The request of the core, as the bus carries it. -/
theorem dmemReq_of_request {s : MyCpu} {q : Isa.Request}
    (h : Cpu.request cfg s.cpu s.cpuIn = some q) :
    (dmemReq cfg s).en = true ∧ (dmemReq cfg s).addr = q.addr ∧ (dmemReq cfg s).wen = q.strobes ∧
      strobeWord (dmemReq cfg s).wen 0#32 (dmemReq cfg s).wdata = q.lanes ∧
      Bridge.ramSel (dmemReq cfg s) = DataRam.serves q := by
  rw [Cpu.request] at h
  split at h
  next hen =>
    cases h
    refine ⟨hen, rfl, rfl, rfl, ?_⟩
    have hen' : (dmemReq cfg s).en = true := hen
    rw [DataRam.serves, Bridge.ramSel, Bridge.ramSel, hen']
    rfl
  next => cases h

/-- A load from the data memory returns the word of the memory. -/
theorem loaded_of_ram {s : MyCpu} {p : Pins} (hload : Bridge.cpuRead (dmemReq cfg s) = true)
    (hram : Bridge.ramSel (dmemReq cfg s) = true) :
    (next cfg s p mem).cpuIn.dmemRdata = s.soc.ram (DataRam.index (dmemReq cfg s).addr) := by
  have hnext := Soc.next_cpuDmemRdata s.soc (socIn cfg s p) hload (Or.inl hram)
  have hram' : Bridge.ramSel (socIn cfg s p).req = true := hram
  rw [if_pos hram', Soc.addressed, if_pos hram'] at hnext
  exact hnext

theorem captured_of_mirrors {s : MyCpu} {p : Pins} (hc : Cpu.Control s.cpu) (hlook : Cpu.Looked s.cpu)
    (hm : Mirrors s)
    (hcap : ExeStage.exeStackLwHit s.cpu.es (Cpu.exePorts cfg s.cpu s.cpuIn) = true) :
    StackValueBuffer.queryData s.cpu.stack (Cpu.dmemAddr s.cpu) =
      (next cfg s p mem).cpuIn.dmemRdata := by
  rcases Cpu.hit_of_capture hc hlook hcap with ⟨hen, hwen, hwin, htag⟩
  have hload : Bridge.cpuRead (dmemReq cfg s) = true := by
    simp [Bridge.cpuRead, dmemReq, hen, hwen]
  have hram : Bridge.ramSel (dmemReq cfg s) = true := by
    have haddr : StackValueBuffer.window (dmemReq cfg s).addr = Cpu.stackWindow := hwin
    rw [ramSel_eq, haddr]
    simp [dmemReq, hen]
  rw [loaded_of_ram hload hram]
  exact hm _ hwin htag

theorem envBefore_core {T : Nat} (hok : Undisturbed cfg mem s₀ pins T) :
    Cpu.EnvBefore cfg (imem mem) s₀.cpu (coreIn cfg mem s₀ pins) T := by
  intro k hk
  have hlook : Cpu.Looked (run cfg mem s₀ pins k).cpu := by
    rw [← run_core]
    apply Cpu.looked_run
    intro j hj
    rw [run_core]
    exact (hok j (Nat.lt_trans hj hk)).2
  rw [run_core]
  refine { fetch := rfl, capture := ?_ }
  intro hcap
  exact captured_of_mirrors (control_run cfg mem s₀ pins k) hlook
    (mirrors_run cfg mem s₀ pins fun j hj => (hok j (Nat.lt_trans hj hk)).1) hcap

/-- The data memory serves the requests that go to it. -/
theorem servedBefore_core (T : Nat) :
    Cpu.ServedBefore DataRam.memory (fun q => DataRam.serves q = true) cfg s₀.cpu
      (coreIn cfg mem s₀ pins) (fun k => (run cfg mem s₀ pins k).soc.ram) T := by
  have hreq : ∀ k, Cpu.request cfg (Cpu.run cfg s₀.cpu (coreIn cfg mem s₀ pins) k)
      (coreIn cfg mem s₀ pins k) =
        Cpu.request cfg (run cfg mem s₀ pins k).cpu (run cfg mem s₀ pins k).cpuIn := by
    intro k
    rw [run_core]
    rfl
  refine { answered := ?_, performed := ?_, idle := ?_ }
  · intro k _ q hq hserves hload
    rw [hreq] at hq
    rcases dmemReq_of_request hq with ⟨hen, haddr, hwen, -, hsel⟩
    have hread : Bridge.cpuRead (dmemReq cfg (run cfg mem s₀ pins k)) = true := by
      rw [Bridge.cpuRead, hen, hwen, hload]
      rfl
    rw [hserves] at hsel
    show (next cfg (run cfg mem s₀ pins k) (pins k) mem).cpuIn.dmemRdata = _
    rw [loaded_of_ram hread hsel, haddr]
    rfl
  · intro k _ q hq hserves
    rw [hreq] at hq
    rcases dmemReq_of_request hq with ⟨-, haddr, hwen, hlanes, hsel⟩
    rw [hserves] at hsel
    show (next cfg (run cfg mem s₀ pins k) (pins k) mem).soc.ram = _
    rw [next_ram, if_pos hsel, haddr]
    show _ = DataRam.next _ true q.addr q.strobes q.lanes
    rw [DataRam.next, if_pos rfl, ← hlanes, hwen, strobeWord_lanes]
  · intro k _ hq
    rw [hreq, Cpu.request] at hq
    split at hq
    next => cases hq
    next hen =>
      show (next cfg (run cfg mem s₀ pins k) (pins k) mem).soc.ram = _
      rw [next_ram]
      simp [Bridge.ramSel, dmemReq, hen]

/-! ## Every program -/

instance (T : Nat) : Decidable (Undisturbed cfg mem s₀ pins T) := by
  unfold Undisturbed
  infer_instance

/-- `lui x2, 0x80100; addi x5, x0, 1; sw x5, 0(x2); lw x7, 0(x2); addi x8, x7, 0; lui x1, 0x80020`, then
`poll`, and `nop` from then on. -/
def storeLoadThen (poll : Word) (a : BitVec 12) : Word :=
  if a = 0#12 then 0x80100137#32
  else if a = 1#12 then 0x00100293#32
  else if a = 2#12 then 0x00512023#32
  else if a = 3#12 then 0x00012383#32
  else if a = 4#12 then 0x00038413#32
  else if a = 5#12 then 0x800200b7#32
  else if a = 6#12 then poll
  else 0x00000013#32

theorem storeLoadThen_decodes {poll : Word} (h : (Isa.decode poll).isSome = true) (a : BitVec 12) :
    (Isa.decode (storeLoadThen poll a)).isSome = true := by
  unfold storeLoadThen
  split_ifs
  all_goals first | rfl | exact h

/-- Whatever the peripherals answer and the pins do, the bus is asked for what the sequential machine asks
for that is given the same answers, in the same order, and nothing else; write-back is two cycles behind.
The program runs aligned, and the stack value buffer is undisturbed. -/
theorem runs_sequentially_on_bus (cfg : Config) (mem : InstRam.Mem) (s₀ : MyCpu) (pins : Nat → Pins)
    (hdec : ∀ a, (Isa.decode (mem a)).isSome = true) (t : Nat)
    (hok : Undisturbed cfg mem s₀ pins t)
    (hal : Cpu.AlignedBefore cfg (imem mem) s₀.cpu (coreIn cfg mem s₀ pins) t) :
    let τ := Cpu.sequential cfg (imem mem) s₀.cpu (coreIn cfg mem s₀ pins) t
    Cpu.requestsUpTo cfg s₀.cpu (coreIn cfg mem s₀ pins) t = τ.requests ∧
      Cpu.writesUpTo cfg s₀.cpu (coreIn cfg mem s₀ pins) (t + 2) = τ.writes ∧
      t / 33 ≤ (Cpu.answersUpTo cfg s₀.cpu (coreIn cfg mem s₀ pins) t).length := by
  have h := @Cpu.follows_run cfg (imem mem) s₀.cpu (coreIn cfg mem s₀ pins) (fun a => hdec _) t
    (envBefore_core hok) hal
  exact ⟨h.tracks.requests, Cpu.writesUpTo_two h.tracks, Cpu.answers_rate t⟩

/-- `lw x3, 4(x1)` reads the timer. -/
theorem runs_sequentially_on_bus_timer :
    let τ := Cpu.sequential Cpu.plainBuild (imem (storeLoadThen 0x0040a183#32)) Cpu.zero
      (coreIn Cpu.plainBuild (storeLoadThen 0x0040a183#32) zero quietPins) 14
    Cpu.requestsUpTo Cpu.plainBuild Cpu.zero
          (coreIn Cpu.plainBuild (storeLoadThen 0x0040a183#32) zero quietPins) 14 = τ.requests ∧
      Cpu.writesUpTo Cpu.plainBuild Cpu.zero
          (coreIn Cpu.plainBuild (storeLoadThen 0x0040a183#32) zero quietPins) 16 = τ.writes ∧
      14 / 33 ≤ (Cpu.answersUpTo Cpu.plainBuild Cpu.zero
          (coreIn Cpu.plainBuild (storeLoadThen 0x0040a183#32) zero quietPins) 14).length :=
  runs_sequentially_on_bus Cpu.plainBuild (storeLoadThen 0x0040a183#32) zero quietPins
    (storeLoadThen_decodes rfl) 14 (by decide +kernel) (by decide +kernel)

/-- A program that runs aligned and stays in the data memory runs as on that memory alone, as long as the
stack value buffer is undisturbed: no pin, interrupt or peripheral shows in its requests, its register
writes two cycles later or the memory that it leaves. -/
theorem runs_on_data_ram (cfg : Config) (mem : InstRam.Mem) (s₀ : MyCpu) (pins : Nat → Pins)
    (hdec : ∀ a, (Isa.decode (mem a)).isSome = true) (t : Nat)
    (hok : Undisturbed cfg mem s₀ pins t)
    (hal : ∀ n, n < t →
      (DataRam.memory.run (imem mem) cfg.pcStart s₀.soc.ram n).1.state.Aligned (imem mem))
    (hram : ∀ n, n < t → ((DataRam.memory.run (imem mem) cfg.pcStart s₀.soc.ram n).1.state.request?
      (imem mem)).all DataRam.serves = true) :
    ∃ n, t / 33 ≤ n ∧
      Cpu.requestsUpTo cfg s₀.cpu (coreIn cfg mem s₀ pins) t =
        (DataRam.memory.run (imem mem) cfg.pcStart s₀.soc.ram n).1.requests ∧
      Cpu.writesUpTo cfg s₀.cpu (coreIn cfg mem s₀ pins) (t + 2) =
        (DataRam.memory.run (imem mem) cfg.pcStart s₀.soc.ram n).1.writes ∧
      (run cfg mem s₀ pins t).soc.ram =
        (DataRam.memory.run (imem mem) cfg.pcStart s₀.soc.ram n).2 := by
  have h := Cpu.runs_on_memory DataRam.memory (fun q => DataRam.serves q = true) cfg (imem mem) s₀.cpu
    (coreIn cfg mem s₀ pins) (fun k => (run cfg mem s₀ pins k).soc.ram) (fun a => hdec _) t
    (envBefore_core hok) (servedBefore_core t) hal fun n hn => (Option.all_eq_true _ _).mp (hram n hn)
  exact ⟨_, Cpu.answers_rate t, h⟩

theorem runs_on_data_ram_stack_load :
    ∃ n, 14 / 33 ≤ n ∧
      Cpu.requestsUpTo Cpu.plainBuild Cpu.zero
          (coreIn Cpu.plainBuild (storeLoadThen 0x00000013#32) zero quietPins) 14 =
        (DataRam.memory.run (imem (storeLoadThen 0x00000013#32)) 0x8000_0000#32
          (fun _ => 0#32) n).1.requests ∧
      Cpu.writesUpTo Cpu.plainBuild Cpu.zero
          (coreIn Cpu.plainBuild (storeLoadThen 0x00000013#32) zero quietPins) 16 =
        (DataRam.memory.run (imem (storeLoadThen 0x00000013#32)) 0x8000_0000#32
          (fun _ => 0#32) n).1.writes ∧
      (run Cpu.plainBuild (storeLoadThen 0x00000013#32) zero quietPins 14).soc.ram =
        (DataRam.memory.run (imem (storeLoadThen 0x00000013#32)) 0x8000_0000#32
          (fun _ => 0#32) n).2 :=
  runs_on_data_ram Cpu.plainBuild (storeLoadThen 0x00000013#32) zero quietPins
    (storeLoadThen_decodes rfl) 14 (by decide +kernel) (by decide +kernel) (by decide +kernel)

end MyCpu
end RiscvCpu
