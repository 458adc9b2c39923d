import TrapMonitor.Proofs.Machine.Phases

/-! # Machines that handle traps alike

Two machines of different kinds handle a trap in the same way if their harts answer alike and stay
related, and whatever their platforms are used for, the answers are the same. This is checked once for
each thing that a hart or a platform does, and from there on for accesses, operations and traps.
-/
namespace TrapMonitor

open Hart

/-! ## Computations -/

section Computations

variable {ε σ τ α β : Type}

/-- Results that agree: the same value or the same error, in related states. -/
inductive Agree (R : σ → τ → Prop) : EStateM.Result ε σ α → EStateM.Result ε τ α → Prop
  | ok (a : α) {s : σ} {t : τ} : R s t → Agree R (.ok a s) (.ok a t)
  | error (e : ε) {s : σ} {t : τ} : R s t → Agree R (.error e s) (.error e t)

/-- From related states, `x` and `y` come to results that agree. -/
def Simulates (R : σ → τ → Prop) (x : EStateM ε σ α) (y : EStateM ε τ α) : Prop :=
  ∀ ⦃s t⦄, R s t → Agree R (x s) (y t)

namespace Simulates

variable {R : σ → τ → Prop}

theorem pure (a : α) : Simulates (ε := ε) R (pure a) (pure a) := fun _ _ h => .ok a h

theorem bind {x : EStateM ε σ α} {y : EStateM ε τ α} {f : α → EStateM ε σ β}
    {g : α → EStateM ε τ β} (hx : Simulates R x y) (hf : ∀ a, Simulates R (f a) (g a)) :
    Simulates R (x >>= f) (y >>= g) := by
  intro s t h
  rw [bind_apply, bind_apply]
  have hxy := hx h
  generalize x s = r at hxy ⊢
  generalize y t = r' at hxy ⊢
  cases hxy with
  | ok a h => exact hf a h
  | error e h => exact .error e h

theorem self {R : σ → σ → Prop} (hR : ∀ {s t}, R s t → t = s ∧ ∀ u, R u u) (x : EStateM ε σ α) :
    Simulates R x x := by
  intro s t h
  obtain ⟨rfl, hself⟩ := hR h
  cases x t with
  | ok a u => exact .ok a (hself u)
  | error e u => exact .error e (hself u)

end Simulates

end Computations

/-! ## Accesses -/

namespace Simulates

variable {H K : Type} [Hart H] [Hart K] {R : H → K → Prop}

section Loads

variable (hload : ∀ w a, Simulates R (load w a : HartAccess H Word) (load w a : HartAccess K Word))

include hload

theorem readBytes (a : Word) (n : Nat) : Simulates R (Hart.readBytes a n : HartAccess H (List Byte))
    (Hart.readBytes a n : HartAccess K (List Byte)) := by
  induction n generalizing a with
  | zero => exact .pure _
  | succ n ih => exact (hload .byte a).bind fun b => (ih (a + 1)).bind fun rest => .pure _

theorem readUnaligned (a : Word) (n : Nat) :
    Simulates R (Hart.readUnaligned a n : HartAccess H Word)
      (Hart.readUnaligned a n : HartAccess K Word) :=
  (readBytes hload a n).bind fun _ => .pure _

theorem fetch (pc : Word) : Simulates R (Hart.fetch pc : HartAccess H Word)
    (Hart.fetch pc : HartAccess K Word) := by
  unfold Hart.fetch
  split
  · exact hload .word pc
  · refine (hload .word (pc - 2)).bind fun first => ?_
    dsimp only
    split
    · exact .pure _
    · exact (hload .word (pc + 2)).bind fun next => .pure _

theorem instructionWord (s : TrapState) (e : Exception) :
    Simulates R (s.instructionWord e : HartAccess H Word)
      (s.instructionWord e : HartAccess K Word) := by
  cases e with
  | loadAddressMisaligned | storeAddressMisaligned => exact fetch hload s.mepc
  | illegalInstruction =>
    unfold TrapState.instructionWord
    dsimp only
    split
    · exact .pure _
    · exact fetch hload s.mepc
  | _ => exact .pure _

end Loads

theorem writeBytes (hstore : ∀ w a v, Simulates R (store w a v : HartAccess H Unit)
      (store w a v : HartAccess K Unit)) (a : Word) (bs : List Byte) :
    Simulates R (Hart.writeBytes a bs : HartAccess H Unit)
      (Hart.writeBytes a bs : HartAccess K Unit) := by
  induction bs generalizing a with
  | nil => exact .pure _
  | cons b rest ih => exact (hstore .byte a _).bind fun _ => ih (a + 1)

end Simulates

/-! ## Harts and frames -/

variable {H K F G P Q : Type} [Hart H] [Hart K] [FrameStore H F] [FrameStore K G]
  [Platform P] [Platform Q]

/-- A relation between harts with their trap frames that lasts, and in which the answers are the
same. The slots of `x0` and `x2` do not count, and the status word changes by delegation only. -/
structure HartSimulation (S : F → H → G → K → Prop) : Prop where
  readCsr : ∀ {f h g k}, S f h g k → ∀ c, readCsr c k = readCsr c h
  trapVector : ∀ {f h g k}, S f h g k → trapVector k = trapVector h
  slot : ∀ {f h g k}, S f h g k → ∀ r, r ≠ Reg.zero → r ≠ Reg.sp →
    FrameStore.slot g k r = FrameStore.slot f h r
  writeCsr : ∀ {f h g k}, S f h g k → ∀ c v, c ≠ .mstatus → S f (writeCsr c v h) g (writeCsr c v k)
  setCsr : ∀ {f h g k}, S f h g k → ∀ c v, c ≠ .mstatus → S f (setCsr c v h) g (setCsr c v k)
  clearCsr : ∀ {f h g k}, S f h g k → ∀ c v, c ≠ .mstatus → S f (clearCsr c v h) g (clearCsr c v k)
  delegated : ∀ {f₀ h₀ g₀ k₀ f h g k}, S f₀ h₀ g₀ k₀ → S f h g k →
    S f (Hart.writeCsr .mstatus (Status.delegated (Hart.readCsr .mstatus h₀)) h) g
      (Hart.writeCsr .mstatus (Status.delegated (Hart.readCsr .mstatus h₀)) k)
  setSlot : ∀ {f h g k}, S f h g k → ∀ r v, r ≠ Reg.zero → r ≠ Reg.sp →
    S (FrameStore.setSlot r v f h).1 (FrameStore.setSlot r v f h).2
      (FrameStore.setSlot r v g k).1 (FrameStore.setSlot r v g k).2
  load : ∀ f g w a, Simulates (fun h k => S f h g k) (load w a : HartAccess H Word)
    (load w a : HartAccess K Word)
  store : ∀ f g w a v, Simulates (fun h k => S f h g k) (store w a v : HartAccess H Unit)
    (store w a v : HartAccess K Unit)

/-- The same hart and the same frame. -/
def SameHart (f : F) (h : H) (g : F) (k : H) : Prop := g = f ∧ k = h

theorem hartSimulation_sameHart : HartSimulation (SameHart (F := F) (H := H)) where
  readCsr := by rintro f h - - ⟨rfl, rfl⟩ c; rfl
  trapVector := by rintro f h - - ⟨rfl, rfl⟩; rfl
  slot := by rintro f h - - ⟨rfl, rfl⟩ r - -; rfl
  writeCsr := by rintro f h - - ⟨rfl, rfl⟩ c v -; exact ⟨rfl, rfl⟩
  setCsr := by rintro f h - - ⟨rfl, rfl⟩ c v -; exact ⟨rfl, rfl⟩
  clearCsr := by rintro f h - - ⟨rfl, rfl⟩ c v -; exact ⟨rfl, rfl⟩
  delegated := by rintro - - - - f h - - - ⟨rfl, rfl⟩; exact ⟨rfl, rfl⟩
  setSlot := by rintro f h - - ⟨rfl, rfl⟩ r v - -; exact ⟨rfl, rfl⟩
  load f g w a := .self (fun h => ⟨h.2, fun _ => ⟨h.1, rfl⟩⟩) _
  store f g w a v := .self (fun h => ⟨h.2, fun _ => ⟨h.1, rfl⟩⟩) _

/-- Whatever one thing `p` and `q` are used for, they answer the same and are in the relation `E`
afterwards. -/
structure UsedAlike (E : P → Q → Prop) (p : P) (q : Q) : Prop where
  unused : E p q
  received : (Platform.tryRead q).1 = (Platform.tryRead p).1
  tryRead : E (Platform.tryRead p).2 (Platform.tryRead q).2
  write : ∀ b, E (Platform.write b p) (Platform.write b q)
  low : (Platform.readLow q).1 = (Platform.readLow p).1
  readLow : E (Platform.readLow p).2 (Platform.readLow q).2
  high : (Platform.readHigh q).1 = (Platform.readHigh p).1
  readHigh : E (Platform.readHigh p).2 (Platform.readHigh q).2
  writeCompare : ∀ low high,
    E (Platform.writeCompare low high p) (Platform.writeCompare low high q)

theorem HartSimulation.delegate {S : F → H → G → K → Prop} (hS : HartSimulation S) {f₀ f : F} {g₀ g : G}
    {h₀ h : H} {k₀ k : K} (hcaptured : S f₀ h₀ g₀ k₀) (hhk : S f h g k) :
    S f ((TrapState.capture h₀).delegate h) g ((TrapState.capture h₀).delegate k) := by
  unfold TrapState.delegate restoreTrapVector
  dsimp only
  rw [hS.trapVector hhk]
  have hvector := hS.writeCsr hhk .mtvec (Hart.trapVector h) (by decide)
  have hbad := hS.writeCsr hvector .sbadaddr (TrapState.capture h₀).mbadaddr (by decide)
  have hcause := hS.writeCsr hbad .scause (TrapState.capture h₀).mcause (by decide)
  have hwritten := hS.writeCsr hcause .sepc (TrapState.capture h₀).mepc (by decide)
  rw [hS.readCsr hwritten]
  exact hS.delegated hcaptured (hS.writeCsr hwritten .mepc _ (by decide))

namespace Machine

/-- Machines with harts, frames and platforms that are related, and the same log. -/
structure Related (S : F → H → G → K → Prop) (E : P → Q → Prop) (m : Machine H P F)
    (n : Machine K Q G) : Prop where
  hart : S m.frame m.hart n.frame n.hart
  platform : E m.platform n.platform
  log : n.log = m.log

variable {S : F → H → G → K → Prop} {E : P → Q → Prop} {m : Machine H P F} {n : Machine K Q G}
  {h : H} {k : K}

namespace Related

variable (hr : Related S E m n)

include hr

omit [Hart H] [Hart K] [FrameStore H F] [FrameStore K G] [Platform P] [Platform Q] in
theorem record (level : Level) (target message : String) :
    Related S E (m.record level target message) (n.record level target message) :=
  ⟨hr.hart, hr.platform, congrArg (fun log => log ++ [Record.mk level target message]) hr.log⟩

omit [Hart H] [Hart K] [FrameStore H F] [FrameStore K G] [Platform P] [Platform Q] in
theorem withHart (hh : S m.frame h n.frame k) :
    Related S E { m with hart := h } { n with hart := k } := ⟨hh, hr.platform, hr.log⟩

variable (hS : HartSimulation S)

include hS

omit [Platform P] [Platform Q] in
theorem setRegister (r : Reg) (v : Word) :
    Related S E (m.setRegister r v) (n.setRegister r v) := by
  unfold Machine.setRegister
  by_cases hzero : r = Reg.zero
  · rw [if_pos hzero, if_pos hzero]
    exact hr
  rw [if_neg hzero, if_neg hzero]
  by_cases hsp : r = Reg.sp
  · rw [if_pos hsp, if_pos hsp]
    exact hr.withHart (hS.writeCsr hr.hart .mscratch v (by decide))
  · rw [if_neg hsp, if_neg hsp]
    exact ⟨hS.setSlot hr.hart r v hzero hsp, hr.platform, hr.log⟩

end Related

variable (hS : HartSimulation S)

include hS

omit [Platform P] [Platform Q] in
theorem register_of_simulation (hh : S m.frame m.hart n.frame n.hart) (r : Reg) :
    n.register r = m.register r := by
  unfold register
  by_cases hzero : r = Reg.zero
  · rw [if_pos hzero, if_pos hzero]
  rw [if_neg hzero, if_neg hzero]
  by_cases hsp : r = Reg.sp
  · rw [if_pos hsp, if_pos hsp, hS.readCsr hh]
  · rw [if_neg hsp, if_neg hsp, hS.slot hh r hzero hsp]

/-! ## One trap -/

section Operations

variable (hh : S m.frame m.hart n.frame n.hart)

include hh

omit [Platform P] [Platform Q] in
theorem simulates_operand (op : Operation) :
    Simulates (fun h k => S m.frame h n.frame k) (m.operand op) (n.operand op) := by
  have hregister := register_of_simulation hS hh
  have hload := hS.load m.frame n.frame
  have hstore := hS.store m.frame n.frame
  cases op with
  | unalignedLoad kind rd a => exact .readUnaligned hload a kind.size
  | unalignedStore kind src a =>
    simp only [operand, writeUnaligned, hregister]
    exact (Simulates.writeBytes hstore a _).bind fun _ => .pure _
  | atomic op rd addr src =>
    simp only [operand, hregister]
    refine (hload .word _).bind fun old => ?_
    cases op.apply (m.register src) old with
    | none => exact .pure _
    | some new => exact (hstore .word _ new).bind fun _ => .pure _
  | counterRead half rd => exact .pure _
  | sbi c => exact .pure _

variable (hp : UsedAlike E m.platform n.platform) (hlog : n.log = m.log)

include hp hlog

theorem related_call (c : SbiCall) : Related S E (call c m) (call c n) := by
  have hregister := register_of_simulation hS hh
  have hlogged (r : Record) : (keep r n).log = (keep r m).log :=
    congrArg (fun log => log ++ [r]) hlog
  cases c with
  | setTimer =>
    unfold call callNoting setTimer
    simp only [hregister]
    have hhart := hS.clearCsr (hS.setCsr hh .mie InterruptBits.machineTimer (by decide)) .sip
      InterruptBits.supervisorTimer (by decide)
    exact ⟨hhart, hp.writeCompare _ _, hlogged _⟩
  | consolePutchar =>
    unfold call callNoting consolePutchar
    simp only [hregister]
    exact ⟨hh, hp.write _, hlogged _⟩
  | consoleGetchar =>
    have hr : Related S E { m with platform := (Platform.tryRead m.platform).2 }
        { n with platform := (Platform.tryRead n.platform).2 } := ⟨hh, hp.tryRead, hlog⟩
    unfold call callNoting consoleGetchar
    simp only [hp.received]
    exact (hr.record ..).setRegister hS .a0 _

theorem related_complete (hhk : S m.frame h n.frame k) (op : Operation) (v : Word) :
    Related S E (m.complete op v h) (n.complete op v k) := by
  have hregister := register_of_simulation hS hh
  have hr : Related S E { m with hart := h } { n with hart := k } := ⟨hhk, hp.unused, hlog⟩
  cases op with
  | unalignedLoad kind rd a => exact (hr.record ..).setRegister hS rd _
  | unalignedStore kind src a => exact hr.record ..
  | atomic op rd addr src =>
    simp only [complete, hregister]
    split
    · exact (hr.setRegister hS rd v).record ..
    · exact hr.record ..
  | counterRead half rd =>
    have hr : Related S E ⟨h, (readCounter half m.platform).2, m.frame, m.log⟩
        ⟨k, (readCounter half n.platform).2, n.frame, n.log⟩ := by
      cases half with
      | low => exact ⟨hhk, hp.readLow, hlog⟩
      | high => exact ⟨hhk, hp.readHigh, hlog⟩
    have hvalue : (readCounter half n.platform).1 = (readCounter half m.platform).1 := by
      cases half with
      | low => exact hp.low
      | high => exact hp.high
    simp only [complete, hvalue]
    exact (hr.record ..).setRegister hS rd _
  | sbi c =>
    exact related_call (m := ⟨h, m.platform, m.frame, m.log⟩)
      (n := ⟨k, n.platform, n.frame, n.log⟩) hS hhk hp hlog c

theorem agree_execute (op : Operation) : Agree (Related S E) (execute op m) (execute op n) := by
  rw [execute_eq, execute_eq]
  have hoperand := simulates_operand hS hh op hh
  generalize m.operand op m.hart = r at hoperand ⊢
  generalize n.operand op n.hart = r' at hoperand ⊢
  cases hoperand with
  | ok v hhk => exact .ok () (related_complete hS hh hp hlog hhk op v)
  | error f hhk => exact .error _ ⟨hhk, hp.unused, hlog⟩

theorem agree_emulate (e : Exception) (s : TrapState) :
    Agree (Related S E) (emulate e s m) (emulate e s n) := by
  rw [emulate_eq, emulate_eq, register_of_simulation hS hh]
  have hword := Simulates.instructionWord (hS.load m.frame n.frame) s e hh
  generalize s.instructionWord e m.hart = r at hword ⊢
  generalize s.instructionWord e n.hart = r' at hword ⊢
  cases hword with
  | error f hhk => exact .error _ ⟨hhk, hp.unused, hlog⟩
  | @ok w h k hhk =>
    dsimp only
    cases s.decode e (m.register .a7) w with
    | error u => exact .error _ ⟨hhk, hp.unused, hlog⟩
    | ok op =>
      exact agree_execute (m := ⟨h, m.platform, m.frame, m.log⟩)
        (n := ⟨k, n.platform, n.frame, n.log⟩) hS hhk hp hlog op

/-- The machines are related again, and nothing but their harts and platforms can tell them apart. -/
theorem handleTrap_related : (handleTrap n).1 = (handleTrap m).1 ∧
    Related S E (handleTrap m).2 (handleTrap n).2 := by
  have hcapture : TrapState.capture n.hart = TrapState.capture m.hart := by
    simp only [TrapState.capture, hS.readCsr hh]
  have hr : Related S E m n := ⟨hh, hp.unused, hlog⟩
  have hrestore {m : Machine H P F} {n : Machine K Q G} (hr : Related S E m n) :
      Related S E { m with hart := restoreTrapVector m.hart }
        { n with hart := restoreTrapVector n.hart } := by
    refine hr.withHart ?_
    rw [restoreTrapVector, restoreTrapVector, hS.trapVector hr.hart]
    exact hS.writeCsr hr.hart .mtvec _ (by decide)
  unfold handleTrap
  rw [hcapture]
  dsimp only
  cases Cause.ofWord (TrapState.capture m.hart).mcause with
  | interrupt i =>
    cases i with
    | machineTimer =>
      have hhart := hS.clearCsr (hS.setCsr hh .sip InterruptBits.supervisorTimer (by decide)) .mie
        InterruptBits.machineTimer (by decide)
      exact ⟨rfl, hrestore (hr.withHart hhart)⟩
    | _ => exact ⟨rfl, hr⟩
  | exception e =>
    have hemulate := agree_emulate hS hh hp hlog e (TrapState.capture m.hart)
    dsimp only
    unfold handleException
    generalize emulate e (TrapState.capture m.hart) m = r at hemulate ⊢
    generalize emulate e (TrapState.capture m.hart) n = r' at hemulate ⊢
    cases hemulate with
    | ok u hr => exact ⟨rfl, hrestore (hr.withHart (hS.writeCsr hr.hart .mepc _ (by decide)))⟩
    | error x hr =>
      cases x with
      | unsupported u => exact ⟨rfl, hr⟩
      | fault f => exact ⟨rfl, (hr.record ..).withHart (hS.delegate hh hr.hart)⟩

end Operations

end Machine

end TrapMonitor
