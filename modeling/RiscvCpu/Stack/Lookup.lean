import RiscvCpu.Stack.Operand

/-!
# Lookup — loads that have hit the buffer, in any run of the core

What `Operand` keeps of the core between its memories, kept of the core under any inputs: a load that
has hit the buffer still hits it in execute, as long as no entry is replaced under a lookup.  So a load
that captures an entry captures the one of its own address, inside the stack window.
-/

namespace RiscvCpu

open StackValueBuffer

namespace Cpu

/-- The loads in execute have been looked up. -/
structure Looked (s : Cpu) : Prop where
  main : s.es.buf.valid = true → LookedUp s.stack s.es.buf.main.bus
  skid : s.es.buf.skidValid = true → LookedUp s.stack s.es.buf.skid.bus

theorem looked_reset (s₀ : Cpu) : Looked s₀.reset := by
  constructor
  · intro h
    cases h
  · intro h
    cases h

variable {cfg : Config} {s : Cpu} {i : CpuIn}

theorem looked_next (hc : Control s) (h : Looked s) (hok : replacedUnderLookup cfg s i = false) :
    Looked (next cfg s i) := by
  have hbuf : (next cfg s i).es.buf =
      SkidBuffer.next s.es.buf (esWires cfg s i) (esPayload cfg s i) := next_es_buf
  cases hcore : SkidBuffer.coreAllowin s.es.buf (esWires cfg s i) with
  | false =>
      -- no store is accepted while execute stands still
      have hidle := storeValid_of_stalled hc hcore
      rw [SkidBuffer.next_of_stalled hcore] at hbuf
      constructor
      · intro _
        rw [hbuf]
        exact lookedUp_idle hidle (h.main (SkidBuffer.valid_of_stalled hcore))
      · intro hv
        rw [hbuf] at hv ⊢
        cases hskid : s.es.buf.skidValid with
        | true =>
            simp only [Bool.not_true, Bool.and_false, Bool.false_eq_true, if_false]
            exact lookedUp_idle hidle (h.skid hskid)
        | false =>
            have hfire : SkidBuffer.inFire s.es.buf (esWires cfg s i) = true := by
              simp only [hskid, Bool.false_or, Bool.and_eq_true] at hv
              exact hv.2
            simp only [hfire, Bool.not_false, Bool.and_true, if_true]
            exact lookedUp_accepted hfire hok
  | true =>
      rw [SkidBuffer.next_of_moved hcore] at hbuf
      constructor
      · intro hv
        rw [hbuf] at hv ⊢
        cases hskid : s.es.buf.skidValid with
        | true =>
            simp only [if_true]
            exact lookedUp_idle (storeValid_of_esSkid hc hskid) (h.skid hskid)
        | false =>
            have hfire : SkidBuffer.inFire s.es.buf (esWires cfg s i) = true := by
              simpa [hskid] using hv
            simp only [hfire, Bool.false_eq_true, if_true, if_false]
            exact lookedUp_accepted hfire hok
      · intro hv
        rw [hbuf] at hv
        cases hv

theorem looked_run (cfg : Config) (s₀ : Cpu) (inp : Nat → CpuIn) {t : Nat}
    (hok : ∀ k, k < t → replacedUnderLookup cfg (run cfg s₀ inp k) (inp k) = false) :
    Looked (run cfg s₀ inp t) := by
  induction t with
  | zero => exact looked_reset s₀
  | succ t ih =>
      have h := ih fun k hk => hok k (Nat.lt_succ_of_lt hk)
      exact looked_next (control_run cfg s₀ inp t) h (hok t (Nat.lt_succ_self t))

/-- The entry that a load captures is that of its own address, which it requests. -/
theorem hit_of_capture (hc : Control s) (h : Looked s)
    (hcap : ExeStage.exeStackLwHit s.es (exePorts cfg s i) = true) :
    dmemEn cfg s i = true ∧ dmemWen cfg s i = 0#4 ∧ window (dmemAddr s) = stackWindow ∧
      tagHit s.stack (dmemAddr s) = true := by
  have hen := (next_of_capture hc hcap).2.1
  rcases load_of_capture hc hcap with ⟨x, hx, hlw, hhit⟩
  rcases h.main (dmemEn_parts hen).1 hhit with ⟨hfwd, hwin, htag⟩
  have haddr : dmemAddr s = s.es.buf.main.bus.src.regSrc1 + s.es.buf.main.bus.mem.memImm := by
    simp [dmemAddr, ExeStage.dmemAddr, ExeStage.src1Base, ExeStage.srcBase, ExeStage.bus, hfwd]
  refine ⟨hen, ?_, ?_, ?_⟩
  · by_contra hwen
    have hstore := (store_of_dmemWen hwen).2.1
    have hop := (Decode.class_of_instLw hlw).1
    rw [hx.decoded.isStore] at hstore
    simp [Decode.isStoreInst, Decode.isStore, Decode.instFsw, Decode.instFlw, Decode.isFload,
      Decode.isFstore, hop] at hstore
  · rw [haddr]
    exact hwin
  · rw [haddr]
    exact htag

end Cpu
end RiscvCpu
