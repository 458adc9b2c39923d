import TrapMonitor.Proofs.Core.Barrier
import TrapMonitor.Proofs.Hart.Accesses

/-! # The core is a hart

With its barrier the core obeys the contract, as long as the trap came from below machine mode and
the privilege of accesses was not changed before. The saved registers lie in the machine's RAM: what
stores to their slots, changes them, unless a test bench keeps that RAM in a bank of its own.
-/
namespace TrapMonitor.Core

open Barrier

theorem readCsr_eq (r : Csr) (c : Core) : Hart.readCsr r c = c.csr r.system :=
  readSystem_of_not_isPmp _ c (by cases r <;> rfl)

theorem writeCsr_eq (r : Csr) (v : Word) (c : Core) :
    Hart.writeCsr r v c = c.setCsr r.system v :=
  writeSystem_of_not_isPmp _ v c (by cases r <;> rfl)

theorem system_eq_iff {r x : Csr} : x.system = r.system ↔ x = r := by
  constructor
  · cases r <;> cases x <;> simp [Csr.system]
  · rintro rfl
    rfl

theorem setSystem_of_not_isPmp (s : SystemCsr) (mask : Word) (c : Core) (h : s.isPmp = false) :
    c.setSystem s mask = c.setCsr s (c.csr s ||| mask) := by
  cases s with
  | pmpcfg0 | pmpaddr0 => cases h
  | _ => rfl

theorem clearSystem_of_not_isPmp (s : SystemCsr) (mask : Word) (c : Core) (h : s.isPmp = false) :
    c.clearSystem s mask = c.setCsr s (c.csr s &&& ~~~mask) := by
  cases s with
  | pmpcfg0 | pmpaddr0 => cases h
  | _ => rfl

theorem setCsr_eq (r : Csr) (mask : Word) (c : Core) :
    Hart.setCsr r mask c = c.setCsr r.system (c.csr r.system ||| mask) := by
  have hp : r.system.isPmp = false := by cases r <;> rfl
  change setBits r mask c = _
  unfold setBits
  split
  · exact setSystem_of_not_isPmp _ mask c hp
  · rw [writeSystem_of_not_isPmp _ _ c hp, readSystem_of_not_isPmp _ c hp]

theorem clearCsr_eq (r : Csr) (mask : Word) (c : Core) :
    Hart.clearCsr r mask c = c.setCsr r.system (c.csr r.system &&& ~~~mask) := by
  have hp : r.system.isPmp = false := by cases r <;> rfl
  change clearBits r mask c = _
  unfold clearBits
  split
  · exact clearSystem_of_not_isPmp _ mask c hp
  · rw [writeSystem_of_not_isPmp _ _ c hp, readSystem_of_not_isPmp _ c hp]

section Keeps

variable {I : Core → Prop} (hm : ∀ c, I c → Status.has (c.csr .mstatus) Status.mprv = false)

include hm

/-- A load changes the trap vector and the record, whatever it reaches. -/
theorem keeps_load (hI : ∀ c trace, I c → I { c.setCsr .mtvec label with trace := trace })
    (w : Width) (a : Word) : Keeps I (Hart.load w a : HartAccess Core Word) := by
  change Keeps I (tryLoad w a)
  refine .of_ends fun c hi => ⟨behind c ((armed [(address, a)] c).load w a).2, ?_, ?_⟩
  · rw [load_snd]
    exact hI c _ hi
  · rw [tryLoad_eq (hm c hi)]
    cases (armed [(address, a)] c).load w a with
    | mk r d => cases r <;> simp

end Keeps

/-- A bank of a test bench is not part of the memory that accesses reach. If there is one, the trapped
code must not have the privilege that reaches it. -/
instance : HartView Core where
  memory c := c.memory.bytes
  trace c := c.trace.map (·.toAccess)
  ready c := Status.has (c.csr .mstatus) Status.mprv = false ∧
    (c.bank = none ∨ Status.previousMode (c.csr .mstatus) ≠ Mode.machine)

section Slots

variable (f : FrameAddress) (r : Reg)

/-- The slot of a register lies where the frame says. -/
theorem inSlot_slotAt {i : Nat} (hi : i < 4) :
    InSlot Core f r (f.slotAt r + BitVec.ofNat 32 i) := by
  refine ⟨⟨fun _ => 0, fun _ => 0, 0, Mode.machine, true, ⟨Memory.zero, ⟨[], [], [], []⟩⟩, none, []⟩,
    0xffffffff, ?_⟩
  change (Memory.zero.setWord (f.slotAt r) 0xffffffff).byte _ ≠ 0
  have hown : (f.slotAt r + BitVec.ofNat 32 i - f.slotAt r).toNat = i := by
    rw [BitVec.add_comm, BitVec.add_sub_cancel, BitVec.toNat_ofNat, Nat.mod_eq_of_lt (by omega)]
  have hones : ∀ i < 4, (0xffffffff : Word).extractLsb' (8 * i) 8 ≠ 0 := by decide
  rw [Memory.setWord_eq_storeLow, Memory.byte_storeLow, hown, if_pos hi]
  exact hones i hi

theorem exists_of_inSlot {a : Word} (h : InSlot Core f r a) :
    ∃ i < 4, a = f.slotAt r + BitVec.ofNat 32 i := by
  obtain ⟨c, v, hne⟩ := h
  refine Classical.byContradiction fun hout => hne ?_
  cases hb : c.bank with
  | some m => simp [FrameStore.setSlot, HartView.memory, setRam, hb]
  | none =>
    have hmem : HartView.memory (FrameStore.setSlot r v f c).2 =
        (HartView.memory c).setWord (f.slotAt r) v := by
      simp [FrameStore.setSlot, HartView.memory, setRam, ram, hb]
    rw [hmem]
    refine Memory.byte_poke_of_outside _ _ _ _ fun i hi he => hout ⟨i, ?_, he⟩
    simpa using hi

end Slots

section Accesses

variable {w : Width} {a : Word} {c : Core}

/-- The accesses of a barrier have the privilege of the trapped code. -/
theorem privilege_armed (inputs : List (Reg × Word)) (c : Core) :
    (armed inputs c).privilege = Status.previousMode (c.csr .mstatus) := by
  have hs : (armed inputs c).csr .mstatus = c.csr .mstatus ||| Status.mprv := csr_armed inputs c _
  rw [privilege, hs, Status.has_or_mprv, if_pos rfl, Status.previousMode_or_mprv]

/-- On a machine, the accesses of a barrier are checked and recorded like those of other code, even
when machine mode is to lend them its own privilege. -/
theorem reachesRam_armed_of_bank (hb : c.bank = none) (inputs : List (Reg × Word)) (w : Width)
    (a : Word) : (armed inputs c).reachesRam w a = false := by
  have hs : (armed inputs c).csr .mstatus = c.csr .mstatus ||| Status.mprv := csr_armed inputs c _
  have hbank : (armed inputs c).bank = none := (bank_armed inputs c).trans hb
  have howns : (armed inputs c).ownsAccess = false := by
    rw [ownsAccess, hs, Status.has_or_mprv, hbank]
    simp
  simp [reachesRam, howns]

theorem reachesRam_armed (hr : HartView.ready c) (inputs : List (Reg × Word)) (w : Width)
    (a : Word) : (armed inputs c).reachesRam w a = false := by
  rcases hr.2 with hb | hp
  · exact reachesRam_armed_of_bank hb inputs w a
  · have hprivilege : ((armed inputs c).privilege == Mode.machine) = false := by
      rw [privilege_armed]
      exact beq_eq_false_iff_ne.mpr hp
    simp [reachesRam, ownsAccess, hprivilege]

theorem accessed_behind {d : Core} {x : Access} {p : Mode} (hr : HartView.ready c)
    (hbank : d.bank = c.bank) (hmem : d.memory.bytes = Access.apply c.memory.bytes x)
    (htrace : d.trace = c.trace ++ [⟨x, p⟩]) : Accessed FrameAddress c [x] (behind c d) where
  csr r hne := by
    rw [readCsr_eq, readCsr_eq]
    exact if_neg fun h => hne (system_eq_iff.mp h)
  trapVector := rfl
  slot f r hs := by
    change (d.bank.getD d.memory.bytes).word _ = (c.bank.getD c.memory.bytes).word _
    rw [hbank, hmem]
    cases c.bank with
    | some m => rfl
    | none =>
      refine Memory.word_congr fun i hi => Access.byte_apply _ fun hkind j hj he => ?_
      refine hs x (by simp) hkind j hj ?_
      rw [he]
      exact inSlot_slotAt f r hi
  trace := by
    change d.trace.map _ = c.trace.map _ ++ [x]
    rw [htrace, List.map_append]
    rfl
  memory := hmem
  ready := ⟨hr.1, hr.2.imp_left hbank.trans⟩

/-- An access of a barrier that does not go to the machine's RAM. -/
theorem load_armed {inputs : List (Reg × Word)} (hout : (armed inputs c).reachesRam w a = false)
    (hm : (armed inputs c).memory = c.memory) :
    (armed inputs c).load w a =
      (c.memory.load w a, (armed inputs c).note (c.memory.loadRecord w a)) := by
  rw [load, if_neg (by rw [hout]; simp), hm]

theorem storeTo_armed {inputs : List (Reg × Word)}
    (hout : (armed inputs c).reachesRam w a = false) (hm : (armed inputs c).memory = c.memory)
    (v : Word) : (armed inputs c).storeTo w a v =
      let d := (armed inputs c).note (c.memory.storeRecord w a v)
      match c.memory.store w a v with
      | .ok memory => (.ok (), { d with memory := memory })
      | .error cause => (.error cause, d) := by
  have hs : ((armed inputs c).note (c.memory.storeRecord w a v)).memory.store w a v =
      c.memory.store w a v := congrArg (ProtectedMemory.store · w a v) hm
  rw [storeTo, if_neg (by rw [hout]; simp), hm]
  cases h : c.memory.store w a v with
  | ok memory =>
    rw [h] at hs
    simp only [hs]
  | error cause =>
    rw [h] at hs
    simp only [hs]

/-- A store changes memory as well, but no access rights. -/
theorem keeps_store {I : Core → Prop} (hr : ∀ c, I c → HartView.ready c)
    (hI : ∀ c bytes trace, I c → I { c.setCsr .mtvec label with
      memory := { c.memory with bytes := bytes }, trace := trace })
    (w : Width) (a v : Word) : Keeps I (Hart.store w a v : HartAccess Core Unit) := by
  change Keeps I (tryStore w a v)
  refine .of_ends fun c hi => ?_
  rw [tryStore_eq (hr c hi).1, storeTo_armed (reachesRam_armed (hr c hi) _ w a) rfl]
  cases hc : c.memory.protection.check .store w a with
  | none =>
    simp only [ProtectedMemory.store, hc]
    exact ⟨_, hI c (ProtectedMemory.update c.memory.bytes a v w) _ hi, .inl ⟨(), rfl⟩⟩
  | some cause =>
    simp only [ProtectedMemory.store, hc]
    exact ⟨_, hI c c.memory.bytes _ hi, .inr ⟨_, rfl⟩⟩

theorem load_ok {v : Word} {c' : Core} (hr : HartView.ready c) (hl : tryLoad w a c = .ok v c') :
    v = ProtectedMemory.contents c.memory.bytes a w ∧
      Accessed FrameAddress c [.loaded w a v] c' := by
  rw [tryLoad_eq hr.1, load_armed (reachesRam_armed hr _ w a) rfl] at hl
  cases hc : c.memory.protection.check .load w a with
  | some cause => simp [ProtectedMemory.load, hc] at hl
  | none =>
    simp [ProtectedMemory.load, ProtectedMemory.loadRecord, hc] at hl
    obtain ⟨rfl, rfl⟩ := hl
    exact ⟨rfl, accessed_behind hr rfl rfl rfl⟩

theorem load_error {f : AccessFault} {c' : Core} (hr : HartView.ready c)
    (hl : tryLoad w a c = .error f c') :
    f.address = a ∧ Accessed FrameAddress c [.refusedLoad w a f.cause] c' := by
  rw [tryLoad_eq hr.1, load_armed (reachesRam_armed hr _ w a) rfl] at hl
  cases hc : c.memory.protection.check .load w a with
  | none => simp [ProtectedMemory.load, hc] at hl
  | some cause =>
    simp [ProtectedMemory.load, ProtectedMemory.loadRecord, hc] at hl
    obtain ⟨rfl, rfl⟩ := hl
    exact ⟨rfl, accessed_behind hr rfl rfl rfl⟩

theorem store_ok {v : Word} {c' : Core} (hr : HartView.ready c)
    (hs : tryStore w a v c = .ok () c') : Accessed FrameAddress c [.stored w a v] c' := by
  rw [tryStore_eq hr.1, storeTo_armed (reachesRam_armed hr _ w a) rfl] at hs
  cases hc : c.memory.protection.check .store w a with
  | some cause => simp [ProtectedMemory.store, hc] at hs
  | none =>
    simp [ProtectedMemory.store, ProtectedMemory.storeRecord, hc] at hs
    subst hs
    exact accessed_behind hr rfl (Access.apply_stored _ w a v).symm rfl

theorem store_error {v : Word} {f : AccessFault} {c' : Core} (hr : HartView.ready c)
    (hs : tryStore w a v c = .error f c') :
    f.address = a ∧ Accessed FrameAddress c [.refusedStore w a v f.cause] c' := by
  rw [tryStore_eq hr.1, storeTo_armed (reachesRam_armed hr _ w a) rfl] at hs
  cases hc : c.memory.protection.check .store w a with
  | none => simp [ProtectedMemory.store, hc] at hs
  | some cause =>
    simp [ProtectedMemory.store, ProtectedMemory.storeRecord, hc] at hs
    obtain ⟨rfl, rfl⟩ := hs
    exact ⟨rfl, accessed_behind hr rfl rfl rfl⟩

end Accesses

instance : FaithfulHart Core FrameAddress where
  readCsr_writeCsr r x v c := by
    rw [readCsr_eq, writeCsr_eq, readCsr_eq, csr_setCsr]
    simp only [system_eq_iff]
  setCsr_eq r mask c := by rw [setCsr_eq, writeCsr_eq, readCsr_eq]
  clearCsr_eq r mask c := by rw [clearCsr_eq, writeCsr_eq, readCsr_eq]
  trapVector_writeCsr _ _ _ := rfl
  memory_writeCsr r v c := by
    rw [writeCsr_eq]
    rfl
  trace_writeCsr r v c := by
    rw [writeCsr_eq]
    rfl
  slot_writeCsr f x r v c := by
    rw [writeCsr_eq]
    rfl
  readCsr_setSlot f x v r c := by
    rw [readCsr_eq, readCsr_eq]
    rfl
  trapVector_setSlot _ _ _ _ := rfl
  trace_setSlot _ _ _ _ := rfl
  load_ok := load_ok
  load_error := load_error
  store_ok := store_ok
  store_error := store_error

instance : SteadyHart Core FrameAddress where
  ready_mscratch v c hr := by
    rw [writeCsr_eq]
    exact hr
  ready_setSlot _ _ _ _ hr := ⟨hr.1, hr.2.imp_left (congrArg (Option.map _))⟩

end TrapMonitor.Core
