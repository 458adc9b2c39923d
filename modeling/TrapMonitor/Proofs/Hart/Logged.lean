import TrapMonitor.Proofs.Trap.Invariant
import TrapMonitor.Proofs.Trap.Simulation

/-! # A hart that keeps a log

What the handler of a trap does to its hart, one thing after another, cannot be read off the result.
A logged hart notes each thing together with the hart that it was done to. It is as good a hart as
the one inside, and the handler cannot tell that there is a log.
-/
namespace TrapMonitor

/-- What is done to a hart. Reading registers changes nothing and is not an event. -/
inductive HartEvent where
  | register (c : Csr)
  | slot (r : Reg)
  | load (w : Width) (a : Word)
  | store (w : Width) (a v : Word)
  deriving DecidableEq

/-- A hart with everything that was done to it, oldest first. -/
structure Logged (H : Type) where
  hart : H
  log : List (H × HartEvent)

namespace Logged

variable {H F α : Type}

/-- The event turns the hart inside into `h`. -/
def note (e : HartEvent) (h : H) (l : Logged H) : Logged H := ⟨h, l.log ++ [(l.hart, e)]⟩

def access (e : HartEvent) (x : HartAccess H α) : HartAccess (Logged H) α := fun l =>
  match x l.hart with
  | .ok v h => .ok v (l.note e h)
  | .error f h => .error f (l.note e h)

theorem access_eq_ok {e : HartEvent} {x : HartAccess H α} {v : α} {l l' : Logged H} :
    access e x l = .ok v l' ↔ ∃ h, x l.hart = .ok v h ∧ l' = l.note e h := by
  unfold access
  cases x l.hart <;> simp [eq_comm, and_assoc]

theorem access_eq_error {e : HartEvent} {x : HartAccess H α} {f : AccessFault} {l l' : Logged H} :
    access e x l = .error f l' ↔ ∃ h, x l.hart = .error f h ∧ l' = l.note e h := by
  unfold access
  cases x l.hart <;> simp [eq_comm, and_assoc]

instance [Hart H] : Hart (Logged H) where
  readCsr c l := Hart.readCsr c l.hart
  writeCsr c v l := l.note (.register c) (Hart.writeCsr c v l.hart)
  setCsr c mask l := l.note (.register c) (Hart.setCsr c mask l.hart)
  clearCsr c mask l := l.note (.register c) (Hart.clearCsr c mask l.hart)
  trapVector l := Hart.trapVector l.hart
  load w a := access (.load w a) (Hart.load w a)
  store w a v := access (.store w a v) (Hart.store w a v)

instance [FrameStore H F] : FrameStore (Logged H) F where
  slot f l := FrameStore.slot f l.hart
  setSlot r v f l :=
    ((FrameStore.setSlot r v f l.hart).1, l.note (.slot r) (FrameStore.setSlot r v f l.hart).2)
  slot_setSlot_self r v f l := FrameStore.slot_setSlot_self r v f l.hart
  slot_setSlot_of_ne r x v f l hx := FrameStore.slot_setSlot_of_ne r x v f l.hart hx

/-! ## The accesses in a log -/

variable [Hart H]

/-- The access that an event is. -/
def accessOf : H × HartEvent → Option Access
  | (h, .load w a) =>
    match Hart.load w a h with
    | .ok v _ => some (.loaded w a v)
    | .error f _ => some (.refusedLoad w a f.cause)
  | (h, .store w a v) =>
    match Hart.store w a v h with
    | .ok _ _ => some (.stored w a v)
    | .error f _ => some (.refusedStore w a v f.cause)
  | _ => none

theorem accessOf_load (h : H) (w : Width) (a : Word) : ∃ x, accessOf (h, .load w a) = some x ∧
    x.kind = .load ∧ x.width = w ∧ x.address = a := by
  simp only [accessOf]
  cases Hart.load w a h with
  | ok v h' => exact ⟨_, rfl, rfl, rfl, rfl⟩
  | error f h' => exact ⟨_, rfl, rfl, rfl, rfl⟩

theorem accessOf_store (h : H) (w : Width) (a v : Word) :
    ∃ x, accessOf (h, .store w a v) = some x ∧ x.kind = .store ∧ x.width = w ∧ x.address = a := by
  simp only [accessOf]
  cases Hart.store w a v h with
  | ok u h' => exact ⟨_, rfl, rfl, rfl, rfl⟩
  | error f h' => exact ⟨_, rfl, rfl, rfl, rfl⟩

def trace (l : Logged H) : List Access := l.log.filterMap accessOf

theorem trace_note (e : HartEvent) (h : H) (l : Logged H) :
    (l.note e h).trace = l.trace ++ (accessOf (l.hart, e)).toList := by
  unfold trace note
  rw [List.filterMap_append]
  cases h : accessOf (l.hart, e) <;> simp [h]

theorem trace_note_register (c : Csr) (h : H) (l : Logged H) :
    (l.note (.register c) h).trace = l.trace := by
  rw [trace_note]
  exact List.append_nil _

variable [HartView H] [FrameStore H F]

instance : HartView (Logged H) where
  memory l := HartView.memory l.hart
  trace := trace
  ready l := HartView.ready l.hart

theorem inSlot_logged {f : F} {r : Reg} {a : Word} (h : InSlot H f r a) :
    InSlot (Logged H) f r a := by
  obtain ⟨h, v, hne⟩ := h
  exact ⟨⟨h, []⟩, v, hne⟩

theorem accessed_note {e : HartEvent} {h : H} {l : Logged H} {x : Access}
    (acc : Accessed F l.hart [x] h) (hx : accessOf (l.hart, e) = some x) :
    Accessed F l [x] (l.note e h) where
  csr := acc.csr
  trapVector := acc.trapVector
  slot f r hs := acc.slot f r fun y hy hstore i hi hin => hs y hy hstore i hi (inSlot_logged hin)
  trace := by
    change (l.note e h).trace = l.trace ++ [x]
    rw [trace_note, hx]
    rfl
  memory := acc.memory
  ready := acc.ready

instance [FaithfulHart H F] : FaithfulHart (Logged H) F where
  readCsr_writeCsr c x v l := FaithfulHart.readCsr_writeCsr c x v l.hart
  setCsr_eq c mask l := congrArg (l.note (.register c)) (FaithfulHart.setCsr_eq c mask l.hart)
  clearCsr_eq c mask l := congrArg (l.note (.register c)) (FaithfulHart.clearCsr_eq c mask l.hart)
  trapVector_writeCsr c v l := FaithfulHart.trapVector_writeCsr c v l.hart
  memory_writeCsr c v l := FaithfulHart.memory_writeCsr c v l.hart
  trace_writeCsr c v l := l.trace_note_register c _
  slot_writeCsr f r c v l := FaithfulHart.slot_writeCsr f r c v l.hart
  readCsr_setSlot f r v c l := FaithfulHart.readCsr_setSlot f r v c l.hart
  trapVector_setSlot f r v l := FaithfulHart.trapVector_setSlot f r v l.hart
  trace_setSlot f r v l := (l.trace_note (.slot r) _).trans (List.append_nil _)
  load_ok {_ _ _ l _} hr hx := by
    obtain ⟨h, hload, rfl⟩ := access_eq_ok.mp hx
    obtain ⟨hv, acc⟩ := FaithfulHart.load_ok (h := l.hart) hr hload
    exact ⟨hv, accessed_note acc (by simp only [accessOf, hload])⟩
  load_error {_ _ _ l _} hr hx := by
    obtain ⟨h, hload, rfl⟩ := access_eq_error.mp hx
    obtain ⟨ha, acc⟩ := FaithfulHart.load_error (h := l.hart) hr hload
    exact ⟨ha, accessed_note acc (by simp only [accessOf, hload])⟩
  store_ok {_ _ _ l _} hr hx := by
    obtain ⟨h, hstore, rfl⟩ := access_eq_ok.mp hx
    have acc := FaithfulHart.store_ok (h := l.hart) hr hstore
    exact accessed_note acc (by simp only [accessOf, hstore])
  store_error {_ _ _ _ l _} hr hx := by
    obtain ⟨h, hstore, rfl⟩ := access_eq_error.mp hx
    obtain ⟨ha, acc⟩ := FaithfulHart.store_error (h := l.hart) hr hstore
    exact ⟨ha, accessed_note acc (by simp only [accessOf, hstore])⟩

instance [LawfulHart H F] : LawfulHart (Logged H) F where
  memory_setSlot f r v l := LawfulHart.memory_setSlot f r v l.hart

end Logged

/-! ## Handling a trap with a log -/

section Erasure

variable {H P F : Type} [Hart H] [FrameStore H F]

/-- The hart inside, in the same frame. -/
def Inside (f : F) (h : H) (g : F) (l : Logged H) : Prop := g = f ∧ l.hart = h

omit [Hart H] [FrameStore H F] in
theorem Logged.simulates_access {α : Type} (f g : F) (e : HartEvent) (x : HartAccess H α) :
    Simulates (fun h l => Inside f h g l) x (access e x) := by
  rintro h l ⟨rfl, rfl⟩
  unfold access
  cases x l.hart with
  | ok v h => exact .ok v ⟨rfl, rfl⟩
  | error fault h => exact .error fault ⟨rfl, rfl⟩

theorem hartSimulation_inside : HartSimulation (Inside (F := F) (H := H)) where
  readCsr := by rintro f h - l ⟨rfl, rfl⟩ c; rfl
  trapVector := by rintro f h - l ⟨rfl, rfl⟩; rfl
  slot := by rintro f h - l ⟨rfl, rfl⟩ r - -; rfl
  writeCsr := by rintro f h - l ⟨rfl, rfl⟩ c v -; exact ⟨rfl, rfl⟩
  setCsr := by rintro f h - l ⟨rfl, rfl⟩ c v -; exact ⟨rfl, rfl⟩
  clearCsr := by rintro f h - l ⟨rfl, rfl⟩ c v -; exact ⟨rfl, rfl⟩
  delegated := by rintro - - - - f h - l - ⟨rfl, rfl⟩; exact ⟨rfl, rfl⟩
  setSlot := by rintro f h - l ⟨rfl, rfl⟩ r v - -; exact ⟨rfl, rfl⟩
  load f g w a := Logged.simulates_access f g (.load w a) (Hart.load w a)
  store f g w a v := Logged.simulates_access f g (.store w a v) (Hart.store w a v)

variable [Platform P]

theorem usedAlike_self (p : P) : UsedAlike (· = ·) p p where
  unused := rfl
  received := rfl
  tryRead := rfl
  write _ := rfl
  low := rfl
  readLow := rfl
  high := rfl
  readHigh := rfl
  writeCompare _ _ := rfl

namespace Machine

/-- The machine with a log that starts here. -/
def logged (m : Machine H P F) : Machine (Logged H) P F := ⟨⟨m.hart, []⟩, m.platform, m.frame, m.log⟩

/-- The machine without its log. -/
def erased (m : Machine (Logged H) P F) : Machine H P F := ⟨m.hart.hart, m.platform, m.frame, m.log⟩

/-- The trap is handled in the same way, whether or not it is logged. -/
theorem handleTrap_logged (m : Machine H P F) :
    (handleTrap m.logged).1 = (handleTrap m).1 ∧ (handleTrap m.logged).2.erased = (handleTrap m).2 := by
  obtain ⟨houtcome, hr⟩ := handleTrap_related (m := m) (n := m.logged) hartSimulation_inside
    ⟨rfl, rfl⟩ (usedAlike_self m.platform) rfl
  refine ⟨houtcome, ?_⟩
  rw [erased, hr.hart.1, hr.hart.2, ← hr.platform, hr.log]

end Machine

/-- What holds of each thing that is done to a hart, next to what holds of the hart. -/
theorem Phases.logged {I J : F → H → Prop} (hI : Phases I J) {Q : H × HartEvent → Prop}
    (hload : ∀ {f h} w a, I f h → Q (h, .load w a))
    (hstore : ∀ {f h} w a v, I f h → Q (h, .store w a v))
    (hslot : ∀ {f h} r, J f h → Q (h, .slot r))
    (hregister : ∀ {f h} c, J f h → Q (h, .register c)) :
    Phases (fun f (l : Logged H) => I f l.hart ∧ ∀ x ∈ l.log, Q x)
      (fun f l => J f l.hart ∧ ∀ x ∈ l.log, Q x) := by
  have hnote {l : Logged H} {e : HartEvent} (h : H) (hl : ∀ x ∈ l.log, Q x) (he : Q (l.hart, e)) :
      ∀ x ∈ (l.note e h).log, Q x := by
    intro x hx
    rcases List.mem_append.mp hx with hx | hx
    · exact hl x hx
    · obtain rfl := List.mem_singleton.mp hx
      exact he
  have haccess {α : Type} {f : F} {e : HartEvent} {x : HartAccess H α} (hx : Keeps (I f) x)
      (he : ∀ {h}, I f h → Q (h, e)) :
      Keeps (fun l : Logged H => I f l.hart ∧ ∀ y ∈ l.log, Q y) (Logged.access e x) := by
    constructor
    · intro l l' v hl hok
      obtain ⟨h, hinside, rfl⟩ := Logged.access_eq_ok.mp hok
      exact ⟨hx.ok hl.1 hinside, hnote h hl.2 (he hl.1)⟩
    · intro l l' fault hl herror
      obtain ⟨h, hinside, rfl⟩ := Logged.access_eq_error.mp herror
      exact ⟨hx.error hl.1 hinside, hnote h hl.2 (he hl.1)⟩
  exact {
    load := fun f w a => haccess (hI.load f w a) (hload w a)
    store := fun f w a v => haccess (hI.store f w a v) (hstore w a v)
    moved := fun h => ⟨hI.moved h.1, h.2⟩
    setSlot := fun v _ _ h0 h2 h => ⟨hI.setSlot v h0 h2 h.1, hnote _ h.2 (hslot _ h.1)⟩
    writeCsr := fun v _ _ hstatus hmie h =>
      ⟨hI.writeCsr v hstatus hmie h.1, hnote _ h.2 (hregister _ h.1)⟩
    enableTimer := fun h => ⟨hI.enableTimer h.1, hnote _ h.2 (hregister _ h.1)⟩
    disableTimer := fun h => ⟨hI.disableTimer h.1, hnote _ h.2 (hregister _ h.1)⟩
    delegated := fun h₀ h => ⟨hI.delegated h₀.1 h.1, hnote _ h.2 (hregister _ h.1)⟩ }

end Erasure

end TrapMonitor
