import TrapMonitor.Hart.Flat
import TrapMonitor.Machine

/-! # What a hart promises

A hart obeys its contract if its registers are cells and each access is exactly one access: it
returns what memory holds or stores what it was given, or it is refused and changes no memory. Which
accesses are refused is up to the hart. No access changes a register other than the trap vector.
Where the saved registers of the trapped code lie in memory, they change with it; on a lawful hart
they lie elsewhere, and no access reaches them.

The contract speaks of two things that the monitor cannot see: the memory behind the accesses,
and the record of all that were made.
-/
namespace TrapMonitor

open Hart

namespace Access

def loaded (w : Width) (a v : Word) : Access := ⟨.load, w, a, some v, none⟩

def refusedLoad (w : Width) (a cause : Word) : Access := ⟨.load, w, a, none, some cause⟩

def stored (w : Width) (a v : Word) : Access :=
  ⟨.store, w, a, some (ProtectedMemory.stored v w), none⟩

def refusedStore (w : Width) (a v cause : Word) : Access :=
  ⟨.store, w, a, some (ProtectedMemory.stored v w), some cause⟩

/-- The fault that a refused access reports. -/
def fault (x : Access) : Option AccessFault := x.cause.map fun cause => ⟨x.address, cause⟩

/-- What an access makes of memory: only a store that is not refused changes it. -/
def apply (m : Memory) (x : Access) : Memory :=
  match x.kind, x.value, x.cause with
  | .store, some v, none => ProtectedMemory.update m x.address v x.width
  | _, _, _ => m

@[simp] theorem apply_loaded (m : Memory) (w : Width) (a v : Word) : apply m (loaded w a v) = m :=
  rfl

@[simp] theorem apply_stored (m : Memory) (w : Width) (a v : Word) :
    apply m (stored w a v) = ProtectedMemory.update m a v w := by
  cases w with
  | byte =>
    have hb : ((v.setWidth 8).setWidth 32).setWidth 8 = v.setWidth 8 := by simp
    simp only [apply, stored, ProtectedMemory.stored, ProtectedMemory.update, hb]
  | word => rfl

/-- A byte keeps its value unless it is stored to. -/
theorem byte_apply (m : Memory) {x : Access} {b : Word}
    (hb : x.kind = .store → ∀ i < x.width.size, x.address + BitVec.ofNat 32 i ≠ b) :
    (apply m x).byte b = m.byte b := by
  unfold apply
  split
  · next v hkind _ _ =>
    have hout := hb hkind
    cases hw : x.width with
    | byte =>
      rw [hw] at hout
      exact m.byte_setByte_of_ne _ fun he => hout 0 (by decide) (by simp [he])
    | word =>
      rw [hw] at hout
      refine m.byte_poke_of_outside _ b _ fun i hi he => hout i ?_ he.symm
      simpa [Width.size] using hi
  · rfl

end Access

/-- The sides of a hart that the monitor cannot see. -/
class HartView (H : Type) where
  memory : H → Memory
  /-- The accesses made so far, oldest first. -/
  trace : H → List Access
  /-- The states in which accesses keep the contract. -/
  ready : H → Prop

/-- The accesses made from one state of a hart to a later one. -/
def made {H : Type} [HartView H] (h h' : H) : List Access :=
  (HartView.trace h').drop (HartView.trace h).length

section Places

variable {F : Type}

/-- A byte of memory lies in the slot of a register if writing the slot may change it. -/
def InSlot (H : Type) [HartView H] [FrameStore H F] (f : F) (r : Reg) (a : Word) : Prop :=
  ∃ (h : H) (v : Word),
    (HartView.memory (FrameStore.setSlot r v f h).2).byte a ≠ (HartView.memory h).byte a

/-- The access stores to no byte of the slot. -/
def Access.Spares (H : Type) [HartView H] [FrameStore H F] (f : F) (r : Reg) (x : Access) : Prop :=
  x.kind = .store → ∀ i < x.width.size, ¬ InSlot H f r (x.address + BitVec.ofNat 32 i)

theorem Access.spares_of_load (H : Type) [HartView H] [FrameStore H F] {x : Access}
    (hx : x.kind = .load) (f : F) (r : Reg) : x.Spares H f r := by
  intro hs
  cases hx.symm.trans hs

/-- The memories are the same outside of the slots of a frame that registers are written to. -/
def AgreeOutside (H : Type) [HartView H] [FrameStore H F] (f : F) (m m' : Memory) : Prop :=
  ∀ a, (∀ r, r ≠ Reg.zero → r ≠ Reg.sp → ¬ InSlot H f r a) → m.byte a = m'.byte a

end Places

section Accessed

variable {H F : Type} [Hart H] [HartView H] [FrameStore H F]

/-- The hart `h` became `h'` by making some accesses, and by nothing else. -/
structure Accessed (F : Type) [FrameStore H F] (h : H) (made : List Access) (h' : H) : Prop where
  csr : ∀ c, c ≠ .mtvec → readCsr c h' = readCsr c h
  trapVector : trapVector h' = trapVector h
  slot : ∀ (f : F) r, (∀ x ∈ made, x.Spares H f r) → FrameStore.slot f h' r = FrameStore.slot f h r
  trace : HartView.trace h' = HartView.trace h ++ made
  memory : HartView.memory h' = made.foldl Access.apply (HartView.memory h)
  ready : HartView.ready h'

theorem Accessed.refl (h : H) (hr : HartView.ready h) : Accessed F h [] h where
  csr _ _ := rfl
  trapVector := rfl
  slot _ _ _ := rfl
  trace := (List.append_nil _).symm
  memory := rfl
  ready := hr

theorem Accessed.trans {h h₁ h₂ : H} {made more : List Access} (first : Accessed F h made h₁)
    (second : Accessed F h₁ more h₂) : Accessed F h (made ++ more) h₂ where
  csr c hc := (second.csr c hc).trans (first.csr c hc)
  trapVector := second.trapVector.trans first.trapVector
  slot f r hs := by
    have hsecond := second.slot f r fun x hx => hs x (List.mem_append_right made hx)
    exact hsecond.trans (first.slot f r fun x hx => hs x (List.mem_append_left more hx))
  trace := by rw [second.trace, first.trace, List.append_assoc]
  memory := by rw [second.memory, first.memory, List.foldl_append]
  ready := second.ready

omit [Hart H] [FrameStore H F] in
theorem made_eq_nil {h h' : H} (ht : HartView.trace h' = HartView.trace h) : made h h' = [] := by
  rw [made, ht, List.drop_length]

theorem Accessed.made_eq {h h₁ h' : H} {l : List Access} (acc : Accessed F h l h₁)
    (ht : HartView.trace h' = HartView.trace h₁) : made h h' = l := by
  rw [made, ht, acc.trace, List.drop_left]

end Accessed

/-- The contract of a hart, whose saved registers are kept in an `F` and may lie in its memory. -/
class FaithfulHart (H : Type) (F : outParam Type) [Hart H] [HartView H] [FrameStore H F] :
    Prop where
  readCsr_writeCsr : ∀ (c x : Csr) (v : Word) (h : H),
    readCsr x (writeCsr c v h) = if x = c then v else readCsr x h
  setCsr_eq : ∀ (c : Csr) (mask : Word) (h : H),
    setCsr c mask h = writeCsr c (readCsr c h ||| mask) h
  clearCsr_eq : ∀ (c : Csr) (mask : Word) (h : H),
    clearCsr c mask h = writeCsr c (readCsr c h &&& ~~~mask) h
  trapVector_writeCsr : ∀ (c : Csr) (v : Word) (h : H), trapVector (writeCsr c v h) = trapVector h
  memory_writeCsr : ∀ (c : Csr) (v : Word) (h : H),
    HartView.memory (writeCsr c v h) = HartView.memory h
  trace_writeCsr : ∀ (c : Csr) (v : Word) (h : H),
    HartView.trace (writeCsr c v h) = HartView.trace h
  slot_writeCsr : ∀ (f : F) (r : Reg) (c : Csr) (v : Word) (h : H),
    FrameStore.slot f (writeCsr c v h) r = FrameStore.slot f h r
  readCsr_setSlot : ∀ (f : F) (r : Reg) (v : Word) (c : Csr) (h : H),
    readCsr c (FrameStore.setSlot r v f h).2 = readCsr c h
  trapVector_setSlot : ∀ (f : F) (r : Reg) (v : Word) (h : H),
    trapVector (FrameStore.setSlot r v f h).2 = trapVector h
  trace_setSlot : ∀ (f : F) (r : Reg) (v : Word) (h : H),
    HartView.trace (FrameStore.setSlot r v f h).2 = HartView.trace h
  load_ok : ∀ {w : Width} {a v : Word} {h h' : H}, HartView.ready h → load w a h = .ok v h' →
    v = ProtectedMemory.contents (HartView.memory h) a w ∧ Accessed F h [.loaded w a v] h'
  load_error : ∀ {w : Width} {a : Word} {f : AccessFault} {h h' : H}, HartView.ready h →
    load w a h = .error f h' →
    f.address = a ∧ Accessed F h [.refusedLoad w a f.cause] h'
  store_ok : ∀ {w : Width} {a v : Word} {h h' : H}, HartView.ready h →
    store w a v h = .ok () h' → Accessed F h [.stored w a v] h'
  store_error : ∀ {w : Width} {a v : Word} {f : AccessFault} {h h' : H}, HartView.ready h →
    store w a v h = .error f h' →
    f.address = a ∧ Accessed F h [.refusedStore w a v f.cause] h'

/-- The contract of a hart whose saved registers do not lie in its memory. -/
class LawfulHart (H : Type) (F : outParam Type) [Hart H] [HartView H] [FrameStore H F] : Prop
    extends FaithfulHart H F where
  memory_setSlot : ∀ (f : F) (r : Reg) (v : Word) (h : H),
    HartView.memory (FrameStore.setSlot r v f h).2 = HartView.memory h

section Apart

variable {H F : Type} [Hart H] [HartView H] [FrameStore H F] [LawfulHart H F]

theorem not_inSlot (f : F) (r : Reg) (a : Word) : ¬ InSlot H f r a := by
  rintro ⟨h, v, hne⟩
  exact hne (by rw [LawfulHart.memory_setSlot])

theorem AgreeOutside.eq {f : F} {m m' : Memory} (h : AgreeOutside H f m m') : m = m' := by
  have hbyte : m.byte = m'.byte := funext fun a => h a fun r _ _ => not_inSlot f r a
  cases m
  cases m'
  cases hbyte
  rfl

/-- No access reaches the saved registers. -/
theorem Accessed.slot_eq {h h' : H} {made : List Access} (acc : Accessed F h made h') (f : F)
    (r : Reg) : FrameStore.slot f h' r = FrameStore.slot f h r :=
  acc.slot f r fun _ _ _ _ _ => not_inSlot f r _

end Apart

/-- A hart on which the contract stays in force while registers of the trapped code are written. -/
class SteadyHart (H : Type) (F : outParam Type) [Hart H] [HartView H] [FrameStore H F] : Prop where
  ready_mscratch : ∀ (v : Word) (h : H), HartView.ready h → HartView.ready (writeCsr .mscratch v h)
  ready_setSlot : ∀ (r : Reg) (v : Word) (f : F) (h : H), HartView.ready h →
    HartView.ready (FrameStore.setSlot r v f h).2

/-! ## Changes of registers -/

section KeepsBut

variable {H F : Type} [Hart H] [HartView H] [FrameStore H F] [FaithfulHart H F]

/-- Nothing changed from `h` to `h'` but these registers, and what is saved of others. -/
structure KeepsBut (cs : List Csr) (h h' : H) : Prop where
  csr : ∀ c, c ∉ cs → readCsr c h' = readCsr c h
  trapVector : trapVector h' = trapVector h
  trace : HartView.trace h' = HartView.trace h

namespace KeepsBut

variable {cs : List Csr} {h h₁ h₂ : H}

theorem refl (cs : List Csr) (h : H) : KeepsBut cs h h := ⟨fun _ _ => rfl, rfl, rfl⟩

theorem trans (first : KeepsBut cs h h₁) (second : KeepsBut cs h₁ h₂) : KeepsBut cs h h₂ where
  csr c hc := (second.csr c hc).trans (first.csr c hc)
  trapVector := second.trapVector.trans first.trapVector
  trace := second.trace.trans first.trace

theorem mono {ds : List Csr} (hk : KeepsBut cs h h₁) (hs : cs ⊆ ds) : KeepsBut ds h h₁ where
  csr c hc := hk.csr c fun hm => hc (hs hm)
  trapVector := hk.trapVector
  trace := hk.trace

theorem setSlot (r : Reg) (v : Word) (f : F) (h : H) :
    KeepsBut [] h (FrameStore.setSlot r v f h).2 where
  csr c _ := FaithfulHart.readCsr_setSlot f r v c h
  trapVector := FaithfulHart.trapVector_setSlot f r v h
  trace := FaithfulHart.trace_setSlot f r v h

include F

theorem writeCsr (c : Csr) (v : Word) (h : H) : KeepsBut [c] h (Hart.writeCsr c v h) where
  csr x hx := by
    rw [FaithfulHart.readCsr_writeCsr, if_neg (by simpa using hx)]
  trapVector := FaithfulHart.trapVector_writeCsr c v h
  trace := FaithfulHart.trace_writeCsr c v h

theorem setCsr (c : Csr) (mask : Word) (h : H) : KeepsBut [c] h (Hart.setCsr c mask h) := by
  rw [FaithfulHart.setCsr_eq]
  exact writeCsr c _ h

theorem clearCsr (c : Csr) (mask : Word) (h : H) : KeepsBut [c] h (Hart.clearCsr c mask h) := by
  rw [FaithfulHart.clearCsr_eq]
  exact writeCsr c _ h

end KeepsBut

end KeepsBut

/-! ## The hart of plain cells -/

namespace FlatHart

/-- Accesses that overwrite the trap registers are outside of the contract. -/
instance : HartView FlatHart where
  memory h := h.memory.bytes
  trace h := h.trace
  ready h := h.clobber = false

@[simp] theorem memory_note_arm (h : FlatHart) (a : Word) (x : Access) :
    ((h.arm a).note x).memory = h.memory := by
  unfold arm
  dsimp only
  split <;> rfl

theorem arm_of_ready {h : FlatHart} (hr : HartView.ready h) (a : Word) :
    h.arm a = { h with
      count := h.count + 1, csr := fun x => if x = .mtvec then barrierVector else h.csr x } := by
  have hc : h.clobber = false := hr
  simp only [arm, setCsr, hc]
  rfl

/-- An access that is recorded and leaves `memory` behind. -/
theorem accessed_arm {h : FlatHart} (hr : HartView.ready h) (a : Word) (x : Access)
    (memory : ProtectedMemory) (hm : memory.bytes = Access.apply h.memory.bytes x) :
    Accessed Frame h [x] { (h.arm a).note x with memory := memory } where
  csr c hc := by
    rw [arm_of_ready hr]
    exact if_neg hc
  trapVector := rfl
  slot _ _ _ := rfl
  trace := by
    rw [arm_of_ready hr]
    rfl
  memory := hm
  ready := by
    rw [arm_of_ready hr]
    exact hr

theorem accessed_unchanged {h : FlatHart} (hr : HartView.ready h) (a : Word) (x : Access)
    (hm : h.memory.bytes = Access.apply h.memory.bytes x) :
    Accessed Frame h [x] ((h.arm a).note x) := by
  have acc := accessed_arm hr a x h.memory hm
  rw [← memory_note_arm h a x] at acc
  exact acc

theorem load_ok {w : Width} {a v : Word} {h h' : FlatHart} (hr : HartView.ready h)
    (hl : loadWidth w a h = .ok v h') :
    v = ProtectedMemory.contents h.memory.bytes a w ∧ Accessed Frame h [.loaded w a v] h' := by
  unfold loadWidth at hl
  cases hc : h.memory.protection.check .load w a with
  | some cause => simp [ProtectedMemory.load, hc] at hl
  | none =>
    simp [ProtectedMemory.load, ProtectedMemory.loadRecord, hc] at hl
    obtain ⟨rfl, rfl⟩ := hl
    exact ⟨rfl, accessed_unchanged hr a _ rfl⟩

theorem load_error {w : Width} {a : Word} {f : AccessFault} {h h' : FlatHart}
    (hr : HartView.ready h) (hl : loadWidth w a h = .error f h') :
    f.address = a ∧ Accessed Frame h [.refusedLoad w a f.cause] h' := by
  unfold loadWidth at hl
  cases hc : h.memory.protection.check .load w a with
  | none => simp [ProtectedMemory.load, hc] at hl
  | some cause =>
    simp [ProtectedMemory.load, ProtectedMemory.loadRecord, hc] at hl
    obtain ⟨rfl, rfl⟩ := hl
    exact ⟨rfl, accessed_unchanged hr a _ rfl⟩

theorem store_ok {w : Width} {a v : Word} {h h' : FlatHart} (hr : HartView.ready h)
    (hs : storeWidth w a v h = .ok () h') : Accessed Frame h [.stored w a v] h' := by
  unfold storeWidth at hs
  cases hc : h.memory.protection.check .store w a with
  | some cause => simp [ProtectedMemory.store, hc] at hs
  | none =>
    simp [ProtectedMemory.store, ProtectedMemory.storeRecord, hc] at hs
    subst hs
    exact accessed_arm hr a _ _ (Access.apply_stored _ w a v).symm

theorem store_error {w : Width} {a v : Word} {f : AccessFault} {h h' : FlatHart}
    (hr : HartView.ready h) (hs : storeWidth w a v h = .error f h') :
    f.address = a ∧ Accessed Frame h [.refusedStore w a v f.cause] h' := by
  unfold storeWidth at hs
  cases hc : h.memory.protection.check .store w a with
  | none => simp [ProtectedMemory.store, hc] at hs
  | some cause =>
    simp [ProtectedMemory.store, ProtectedMemory.storeRecord, hc] at hs
    obtain ⟨rfl, rfl⟩ := hs
    exact ⟨rfl, accessed_unchanged hr a _ rfl⟩

instance : LawfulHart FlatHart Frame where
  readCsr_writeCsr _ _ _ _ := rfl
  setCsr_eq _ _ _ := rfl
  clearCsr_eq _ _ _ := rfl
  trapVector_writeCsr _ _ _ := rfl
  memory_writeCsr _ _ _ := rfl
  trace_writeCsr _ _ _ := rfl
  slot_writeCsr _ _ _ _ _ := rfl
  readCsr_setSlot _ _ _ _ _ := rfl
  trapVector_setSlot _ _ _ _ := rfl
  memory_setSlot _ _ _ _ := rfl
  trace_setSlot _ _ _ _ := rfl
  load_ok := load_ok
  load_error := load_error
  store_ok := store_ok
  store_error := store_error

instance : SteadyHart FlatHart Frame where
  ready_mscratch _ _ hr := hr
  ready_setSlot _ _ _ _ hr := hr

end FlatHart

end TrapMonitor
