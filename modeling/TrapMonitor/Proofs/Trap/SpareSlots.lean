import TrapMonitor.Proofs.Hart.Logged
import TrapMonitor.Proofs.Machine.Registers

/-! # Slots that nobody looks at

The slots of `x0` and `x2` in a trap frame are never filled, so they hold what happened to be in
memory before. Of machines that differ there, and nowhere else, traps make machines that differ there
and nowhere else, whatever the hart and the platform do. What the registers show depends on the other
slots and on `mscratch`, and is a register file of its own.
-/
namespace TrapMonitor

open Hart

/-- The registers whose slots are spare: `x0` is zero, and `x2` waits in `mscratch`. -/
def Reg.Spare (r : Reg) : Prop := r = zero ∨ r = sp

instance (r : Reg) : Decidable r.Spare := inferInstanceAs (Decidable (r = Reg.zero ∨ r = Reg.sp))

namespace Frame

/-- The frames agree in all slots that are not spare. -/
def SameUsed (f g : Frame) : Prop := ∀ r : Reg, ¬r.Spare → g.slot r = f.slot r

/-- The frames agree in the spare slots. -/
def SameSpare (f g : Frame) : Prop := ∀ r : Reg, r.Spare → g.slot r = f.slot r

variable {f g : Frame} {r : Reg}

theorem SameUsed.set (h : f.SameUsed g) (r : Reg) (v : Word) :
    (f.set r v).SameUsed (g.set r v) := by
  intro x hx
  rw [slot_set, slot_set, h x hx]

theorem SameSpare.set (h : f.SameSpare g) (hr : ¬r.Spare) (v : Word) : f.SameSpare (g.set r v) := by
  intro x hx
  have hne : x ≠ r := fun he => hr (he ▸ hx)
  rw [g.slot_set_of_ne v hne, h x hx]

end Frame

variable {H P : Type} [Hart H]

/-- The same hart, with frames that differ in spare slots at most, which are still those of `f₀` and
`g₀`. -/
structure SpareKept (f₀ g₀ : Frame) (f : Frame) (h : H) (g : Frame) (k : H) : Prop where
  hart : k = h
  used : f.SameUsed g
  left : f₀.SameSpare f
  right : g₀.SameSpare g

namespace SpareKept

variable {f₀ g₀ f g : Frame} {h k : H}

omit [Hart H] in
theorem map (hs : SpareKept f₀ g₀ f h g k) (F : H → H) : SpareKept f₀ g₀ f (F h) g (F k) :=
  ⟨congrArg F hs.hart, hs.used, hs.left, hs.right⟩

omit [Hart H] in
theorem simulates {α : Type} (f g : Frame) (x : HartAccess H α) :
    Simulates (fun h k => SpareKept f₀ g₀ f h g k) x x :=
  .self (fun hs => ⟨hs.hart, fun _ => ⟨rfl, hs.used, hs.left, hs.right⟩⟩) x

theorem hartSimulation (f₀ g₀ : Frame) : HartSimulation (SpareKept (H := H) f₀ g₀) where
  readCsr hs c := congrArg (readCsr c) hs.hart
  trapVector hs := congrArg trapVector hs.hart
  slot hs r h0 h2 := hs.used r (not_or.mpr ⟨h0, h2⟩)
  writeCsr hs c v _ := hs.map (writeCsr c v)
  setCsr hs c v _ := hs.map (setCsr c v)
  clearCsr hs c v _ := hs.map (clearCsr c v)
  delegated _ hs := hs.map _
  setSlot hs r v h0 h2 := by
    have hr : ¬r.Spare := not_or.mpr ⟨h0, h2⟩
    exact ⟨hs.hart, hs.used.set r v, hs.left.set hr v, hs.right.set hr v⟩
  load f g w a := simulates f g _
  store f g w a v := simulates f g _

end SpareKept

namespace Machine

variable {m n : Machine H P Frame}

/-- The machines differ in spare slots at most. -/
structure SameButSpare (m n : Machine H P Frame) : Prop where
  hart : n.hart = m.hart
  platform : n.platform = m.platform
  log : n.log = m.log
  used : m.frame.SameUsed n.frame

omit [Hart H] in
theorem SameButSpare.kept (h : SameButSpare m n) :
    SpareKept m.frame n.frame m.frame m.hart n.frame n.hart :=
  ⟨h.hart, h.used, fun _ _ => rfl, fun _ _ => rfl⟩

theorem register_sameButSpare (h : SameButSpare m n) : n.register = m.register :=
  funext fun r => register_of_simulation (SpareKept.hartSimulation m.frame n.frame) h.kept r

/-- A trap of either machine goes like that of the other, and leaves the spare slots of each as they
were. -/
structure SpareUnused [Platform P] (m n : Machine H P Frame) : Prop where
  outcome : (handleTrap n).1 = (handleTrap m).1
  same : SameButSpare (handleTrap m).2 (handleTrap n).2
  left : m.frame.SameSpare (handleTrap m).2.frame
  right : n.frame.SameSpare (handleTrap n).2.frame
  registers : n.register = m.register

/-- A trap can neither read nor write the spare slots. -/
theorem SameButSpare.unused [Platform P] (h : SameButSpare m n) : SpareUnused m n := by
  have hplatform : UsedAlike (· = ·) m.platform n.platform := by
    rw [h.platform]
    exact usedAlike_self m.platform
  obtain ⟨houtcome, hr⟩ := handleTrap_related (SpareKept.hartSimulation m.frame n.frame) h.kept
    hplatform h.log
  exact {
    outcome := houtcome
    same := ⟨hr.hart.hart, hr.platform.symm, hr.log, hr.hart.used⟩
    left := hr.hart.left
    right := hr.hart.right
    registers := register_sameButSpare h }

/-- The registers of the trapped code are 32 cells, of which one is always zero and one is in
`mscratch`. -/
structure RegisterFile {F : Type} [FrameStore H F] (m : Machine H P F) : Prop where
  zero : m.register Reg.zero = 0
  stack : m.register Reg.sp = readCsr .mscratch m.hart
  write : ∀ r v x, (m.setRegister r v).register x =
    if x = r ∧ r ≠ Reg.zero then v else m.register x

/-- With a frame of its own, all that this takes is that `mscratch` is a cell. -/
theorem registerFile (hcell : ∀ v, readCsr .mscratch (writeCsr .mscratch v m.hart) = v) :
    RegisterFile m where
  zero := rfl
  stack := rfl
  write r v x := m.register_setRegister_of_cell hcell (fun _ _ => rfl) (fun _ _ => rfl) r x v

/-- The spare slots are dead. On every hart and platform, traps of machines that differ there end
alike and leave the machines as different as they were, and the registers are a register file without
them. -/
theorem spare_slots_dead :
    (∀ {H P : Type} [Hart H] [Platform P] {m n : Machine H P Frame},
      SameButSpare m n → SpareUnused m n) ∧
    (∀ {H P : Type} [Hart H] {m : Machine H P Frame},
      (∀ v, readCsr .mscratch (writeCsr .mscratch v m.hart) = v) → RegisterFile m) :=
  ⟨fun h => h.unused, fun hcell => registerFile hcell⟩

/-- An `amoadd.w sp, zero, (sp)` with something stale in the slots of both registers. -/
theorem spare_slots_dead_stack :
    let trapped (stale : Word) : Machine FlatHart ScriptedPlatform Frame :=
      let m := trappedOn 0x0001212f 2 0x0001212f (fun r => if r.Spare then stale else 7) 0
      { m with hart := writeCsr .mscratch 0x80000100 m.hart }
    let n := (handleTrap (trapped 0xdeadbeef)).2
    (handleTrap (trapped 0xdeadbeef)).1 = .resumed ∧ RegisterFile (trapped 0xdeadbeef) ∧
      n.register Reg.sp = 0x0001212f ∧ n.frame.slot Reg.zero = 0xdeadbeef ∧
      n.frame.slot Reg.sp = 0xdeadbeef := by
  intro trapped n
  obtain ⟨hdead, hfile⟩ := spare_slots_dead
  have hused : (trapped 0).frame.SameUsed (trapped 0xdeadbeef).frame := fun r hr =>
    (if_neg hr).trans (if_neg hr).symm
  have hunused := hdead (m := trapped 0) (n := trapped 0xdeadbeef) ⟨rfl, rfl, rfl, hused⟩
  have hresumed : (handleTrap (trapped 0)).1 = .resumed := by decide +kernel
  have hsp : (handleTrap (trapped 0)).2.register Reg.sp = 0x0001212f := by decide +kernel
  refine ⟨hunused.outcome.trans hresumed, hfile fun v => rfl, ?_, hunused.right Reg.zero (.inl rfl),
    hunused.right Reg.sp (.inr rfl)⟩
  exact (congrFun hunused.same.unused.registers Reg.sp).trans hsp

end Machine

end TrapMonitor
