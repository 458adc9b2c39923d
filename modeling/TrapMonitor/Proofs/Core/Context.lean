import TrapMonitor.Proofs.Core.Handling
import TrapMonitor.Proofs.Trap.Meaning

/-! # The interrupted context

Whatever code a trap interrupts, it finds its registers again when the trap is over, except for the
one that an emulated instruction writes. The trap entry and its end are inverse to each other; in
between, the handler may change saved registers, each of which it finds where the entry put it.
Memory changes in the slots of the frame, below the frame, and where the instruction stores.

The frame and the stack lie in the memory that the instruction stores to, with the privilege of the
interrupted code. An instruction that stores to the machine's RAM may overwrite saved registers, so
nothing is said about such an instruction.
-/
namespace TrapMonitor

namespace Core

/-! ## The slots of a frame -/

theorem mem_savedRegs {r : Reg} : r ∈ savedRegs ↔ r ≠ Reg.zero ∧ r ≠ Reg.sp := by
  revert r
  decide

namespace FrameAddress

/-- The bytes of the slots that are used. -/
def Covers (f : FrameAddress) (a : Word) : Prop :=
  ∃ r ∈ savedRegs, (a - f.slotAt r).toNat < 4

variable {f : FrameAddress}

theorem byte_setWord_of_not_covers {a : Word} (ha : ¬ f.Covers a) {r : Reg} (hr : r ∈ savedRegs)
    (m : Memory) (v : Word) : (m.setWord (f.slotAt r) v).byte a = m.byte a := by
  rw [Memory.setWord_eq_storeLow, Memory.byte_storeLow, if_neg]
  exact fun h => ha ⟨r, hr, h⟩

/-- Saving registers keeps all other bytes. -/
theorem byte_foldl_setWord {a : Word} (ha : ¬ f.Covers a) (v : Reg → Word) {rs : List Reg}
    (hrs : rs ⊆ savedRegs) (m : Memory) :
    (rs.foldl (fun m r => m.setWord (f.slotAt r) (v r)) m).byte a = m.byte a := by
  induction rs generalizing m with
  | nil => rfl
  | cons r rs ih =>
    rw [List.cons_subset] at hrs
    rw [List.foldl_cons, ih hrs.2, byte_setWord_of_not_covers ha hrs.1]

/-- Each register that was saved is found in its slot. -/
theorem word_foldl_setWord (f : FrameAddress) (v : Reg → Word) (rs : List Reg) (m : Memory)
    (y : Reg) : (rs.foldl (fun m r => m.setWord (f.slotAt r) (v r)) m).word (f.slotAt y) =
      if y ∈ rs then v y else m.word (f.slotAt y) := by
  induction rs generalizing m with
  | nil => rfl
  | cons r rs ih =>
    rw [List.foldl_cons, ih]
    by_cases hy : y ∈ rs
    · simp [hy]
    · by_cases hr : y = r
      · subst hr
        simp [hy]
      · have hkept := m.word_setWord_of_disjoint (f.slotAt r) (f.slotAt y) (v r)
          fun j hj i hi => f.slotAt_disjoint hr i j hj hi
        simp [hy, hr, hkept]

end FrameAddress

section Registers

variable {P : Type}

/-- The handler finds the interrupted registers. -/
theorem register_entered (c : Core) (platform : P) (log : List Record) (r : Reg) :
    (Machine.mk c.entered platform (FrameAddress.mk (c.csr .mscratch)) log).register r =
      c.reg r := by
  unfold Machine.register
  by_cases h0 : r = Reg.zero
  · rw [if_pos h0, reg, if_pos h0]
  · by_cases h2 : r = Reg.sp
    · rw [if_neg h0, if_pos h2, readCsr_eq, h2]
      rfl
    · rw [if_neg h0, if_neg h2]
      have hslot := FrameAddress.word_foldl_setWord ⟨c.csr .mscratch⟩ c.reg savedRegs c.ram r
      rw [if_pos (mem_savedRegs.mpr ⟨h0, h2⟩)] at hslot
      have hram : c.entered.ram = savedRegs.foldl
          (fun m r => m.setWord ((FrameAddress.mk (c.csr .mscratch)).slotAt r) (c.reg r)) c.ram :=
        ram_setRam _ _
      rw [← hram] at hslot
      exact hslot

/-- The registers behind the trap are those that the handler left in the frame and in `mscratch`. -/
theorem reg_left (c : Core) (platform : P) (log : List Record) (r : Reg) :
    c.left.reg r = (Machine.mk c platform (FrameAddress.mk (c.reg .sp)) log).register r := by
  have hleft : c.left.reg r = c.reloaded.exchanged.reg r := rfl
  rw [hleft]
  unfold Machine.register
  by_cases h0 : r = Reg.zero
  · rw [if_pos h0, reg, if_pos h0]
  · by_cases h2 : r = Reg.sp
    · rw [if_neg h0, if_pos h2, readCsr_eq, h2]
      rfl
    · rw [if_neg h0, if_neg h2, reg_exchanged _ h2, reg, if_neg h0]
      exact if_pos (mem_savedRegs.mpr ⟨h0, h2⟩)

end Registers

/-! ## Back from the handler -/

/-- A byte of the machine's stack, which begins below the frame. -/
def FrameAddress.Below (f : FrameAddress) (a : Word) : Prop :=
  ramStart.toNat ≤ a.toNat ∧ a.toNat < f.address.toNat

/-- A compiled handler was called on `c`, with the frame above its stack, and follows the calling
convention: it comes back to its caller with the stack pointer it had. Its effect turned `c` into
`h`; besides, it may leave anything in other registers and on the stack. -/
structure ComesBack (frame : FrameAddress) (c h d : Core) : Prop where
  pc : d.pc = c.reg .ra
  mode : d.mode = c.mode
  stack : d.reg .sp = c.reg .sp
  csr : d.csr = h.csr
  bank : d.bank.isSome = h.bank.isSome
  protection : d.memory.protection = h.memory.protection
  ram : ∀ a, ¬ frame.Below a → d.ram.byte a = h.ram.byte a

theorem ram_of_bank {c : Core} (h : c.bank = none) : c.ram = c.memory.bytes := by
  rw [ram, h, Option.getD_none]

namespace FrameFits

variable {f : FrameAddress} (hf : FrameFits f.address) (r : Reg) {i : Nat} (hi : i < 4)

include hf hi

/-- A slot lies above the stack, in the machine's RAM. -/
theorem slotAt_bounds : f.address.toNat ≤ (f.slotAt r + BitVec.ofNat 32 i).toNat ∧
    (f.slotAt r + BitVec.ofNat 32 i).toNat < ramEnd.toNat := by
  have h4 : (4 : Word).toNat = 4 := rfl
  have hend : ramEnd.toNat = 0x20010000 := rfl
  have hr := r.isLt
  have hbelow := hf.below
  simp only [FrameAddress.slotAt, slotOffset, BitVec.toNat_add, BitVec.toNat_mul,
    BitVec.toNat_setWidth, BitVec.toNat_ofNat, h4]
  omega

theorem not_below_slotAt : ¬ f.Below (f.slotAt r + BitVec.ofNat 32 i) := fun h =>
  absurd h.2 (Nat.not_lt.mpr (hf.slotAt_bounds r hi).1)

theorem inRam_slotAt : InRam (f.slotAt r + BitVec.ofNat 32 i) :=
  ⟨Nat.le_trans hf.above (hf.slotAt_bounds r hi).1, (hf.slotAt_bounds r hi).2⟩

end FrameFits

theorem ComesBack.slot {f : FrameAddress} {c h d : Core} (hd : ComesBack f c h d)
    (hf : FrameFits f.address) (r : Reg) : FrameStore.slot f d r = FrameStore.slot f h r :=
  Memory.word_congr fun _ hi => hd.ram _ (hf.not_below_slotAt r hi)

/-- An operation that stores nothing in the machine's RAM spares the frame. -/
theorem sparesFrame_of_notInRam {P : Type} {m : Machine Core P FrameAddress} {op : Operation}
    (hf : FrameFits m.frame.address) (hs : ∀ a, m.Stores op a → ¬ InRam a) : m.SparesFrame op := by
  intro a r ha hslot
  obtain ⟨i, hi, rfl⟩ := exists_of_inSlot m.frame r hslot
  exact hs _ ha (hf.inRam_slotAt r hi)

theorem not_inSlot_of_not_covers {f : FrameAddress} {a : Word} (ha : ¬ f.Covers a) {r : Reg}
    (h0 : r ≠ Reg.zero) (h2 : r ≠ Reg.sp) : ¬ InSlot Core f r a := by
  intro hslot
  obtain ⟨i, hi, rfl⟩ := exists_of_inSlot f r hslot
  refine ha ⟨r, mem_savedRegs.mpr ⟨h0, h2⟩, ?_⟩
  rw [BitVec.add_comm, BitVec.add_sub_cancel, BitVec.toNat_ofNat, Nat.mod_eq_of_lt (by omega)]
  exact hi

/-- What the trap of `m`, which interrupted `c`, leaves behind when it ends with `o` and `m'`. -/
structure Preserved {P : Type} [Platform P] (c : Core) (m m' : Machine Core P FrameAddress)
    (o : Outcome) (e : Core) : Prop where
  kept : ∀ r, (o = .resumed → ∀ op, m.asked = some op → op.destination ≠ some r) →
    e.reg r = c.reg r
  written : o = .resumed → ∀ op r, m.asked = some op → op.destination = some r → r ≠ Reg.zero →
    e.reg r = m.produced (m.loaded op) op
  scratch : e.csr .mscratch = c.csr .mscratch
  pc : e.pc = m'.hart.csr .mepc
  mode : e.mode = Status.previousMode (m'.hart.csr .mstatus)
  memory : ∀ a, ¬ m.frame.Covers a → ¬ m.frame.Below a →
    (∀ op, m.asked = some op → ¬ m.Stores op a) →
    e.memory.bytes.byte a = c.memory.bytes.byte a
  protection : e.memory.protection = c.memory.protection
  bank : e.bank = none

end Core

namespace Board

variable {U T D : Type} [Bus U] [Bus T] [Bus D] {b : Board U T D} {cause tval : Word}

omit [Bus U] [Bus T] [Bus D] in
theorem register_trapped (cause tval : Word) (b : Board U T D) :
    (b.trapped cause tval).register = b.core.reg :=
  funext fun r => Core.register_entered (b.core.trap cause tval) b.platform b.log r

omit [Bus U] [Bus T] [Bus D] in
/-- With one memory, the handler sees the saved registers in it. -/
theorem byte_trapped {a : Word} (hb : b.core.bank = none)
    (ha : ¬ (b.trapped cause tval).frame.Covers a) :
    (HartView.memory (b.trapped cause tval).hart).byte a = b.core.memory.bytes.byte a := by
  have hbank : (b.trapped cause tval).hart.bank = none := congrArg (Option.map _) hb
  have hram : (b.trapped cause tval).hart.ram = _ := Core.ram_setRam _ _
  have hkept := Core.FrameAddress.byte_foldl_setWord ha (b.core.trap cause tval).reg
    (List.Subset.refl _) b.core.ram
  change (b.trapped cause tval).hart.memory.bytes.byte a = _
  rw [← Core.ram_of_bank hbank, ← Core.ram_of_bank hb, hram]
  exact hkept

section Handled

variable {m' : Machine Core (SocPlatform U T D) Core.FrameAddress} {o : Outcome}
  (hm : Status.has (b.core.csr .mstatus) Status.mprv = false)
  (hf : Core.FrameFits (b.core.csr .mscratch))
  (hmode : b.core.bank = none ∨ b.core.mode.BelowMachine)
  (hb : b.core.bank = none) (hres : (b.trapped cause tval).handleTrap = (o, m'))

include hm hmode hres

/-- From the handler on, the code runs to its return. -/
theorem run_of_comesBack (hf : Core.FrameFits (b.core.csr .mscratch)) {d : Core}
    (hd : Core.ComesBack (b.trapped cause tval).frame (b.trapped cause tval).hart m'.hart d) :
    Core.entryCode.run d = (.returned, d.left) := by
  have hs := serves_of_handled hm hmode hres
  have hmprv : Status.has (d.csr .mstatus) Status.mprv = false := by
    rw [hd.csr]
    exact hs.ready.1
  have hsp : Core.FrameFits (d.reg .sp) := by
    rw [hd.stack]
    exact hf
  exact Core.run_of_handled hd.pc (Core.ownsAccess_of_machine hmprv hd.mode) hsp

/-- The handler on the board is such a compiled handler. -/
theorem comesBack_scramble (leftovers : Reg → Word) :
    Core.ComesBack (b.trapped cause tval).frame (b.trapped cause tval).hart m'.hart
      (m'.hart.scramble leftovers) := by
  have hs := serves_of_handled hm hmode hres
  exact {
    pc := hs.pc
    mode := hs.mode
    stack := congrFun hs.x Reg.sp
    csr := rfl
    bank := rfl
    protection := rfl
    ram := fun _ _ => rfl }

include hf

/-- The interrupted code goes on with the registers that the handler left. -/
theorem reg_left_of_comesBack {d : Core}
    (hd : Core.ComesBack (b.trapped cause tval).frame (b.trapped cause tval).hart m'.hart d) :
    d.left.reg = m'.register := by
  have hs := serves_of_handled hm hmode hres
  have hframe : Core.FrameAddress.mk (d.reg .sp) = m'.frame := by
    rw [hd.stack, hs.place]
    rfl
  have hscratch : Hart.readCsr .mscratch d = Hart.readCsr .mscratch m'.hart := by
    rw [Core.readCsr_eq, Core.readCsr_eq, hd.csr]
  funext r
  rw [Core.reg_left d m'.platform m'.log r]
  refine Machine.register_congr m' _ hframe hscratch (fun r => ?_) r
  rw [hs.place]
  exact hd.slot hf r

include hb

omit hmode in
theorem preserved_of_comesBack (ho : ∀ u, o ≠ .halted u)
    (hout : ∀ op, (b.trapped cause tval).asked = some op →
      ∀ a, (b.trapped cause tval).Stores op a → ¬ Core.InRam a) {d : Core}
    (hd : Core.ComesBack (b.trapped cause tval).frame (b.trapped cause tval).hart m'.hart d) :
    Core.Preserved b.core (b.trapped cause tval) m' o d.left := by
  have hs := serves_of_handled hm (.inl hb) hres
  have hr := ready_trapped hm (.inl hb) cause tval
  have hreg := reg_left_of_comesBack hm hf (.inl hb) hres hd
  have hbank : (b.trapped cause tval).hart.bank = none := congrArg (Option.map _) hb
  have hbank₁ : m'.hart.bank = none := by simpa [hbank] using hs.bank
  have hbank₂ : d.bank = none := by simpa [hbank₁] using hd.bank
  have hspares : ∀ op, (b.trapped cause tval).asked = some op →
      (b.trapped cause tval).SparesFrame op :=
    fun op hop => Core.sparesFrame_of_notInRam hf (hout op hop)
  exact {
    kept := fun r hkept => by
      rw [hreg, Machine.register_of_kept hr hspares hres ho hkept, register_trapped]
    written := fun hresumed op r hop hdest h0 => by
      rw [hreg, Machine.register_of_written hr hspares hres hresumed hop hdest h0]
    scratch := hd.stack
    pc := congrFun hd.csr .mepc
    mode := congrArg Status.previousMode (congrFun hd.csr .mstatus)
    memory := fun a hcovers hbelow hkept => by
      rw [Core.memory_left, ← Core.ram_of_bank hbank₂, hd.ram a hbelow, Core.ram_of_bank hbank₁,
        ← byte_trapped hb hcovers]
      exact Machine.byte_of_kept hr hspares hres ho
        (fun r h0 h2 => Core.not_inSlot_of_not_covers hcovers h0 h2) hkept
    protection := by
      rw [Core.memory_left, hd.protection]
      exact hs.protection
    bank := hbank₂ }

end Handled

/-- Traps preserve the interrupted context on a machine with one memory: whatever a trap interrupts, the
trap entry calls the handler with the interrupted registers, and if the handler resumes or delegates,
any code that it is compiled to by the calling convention returns to what was interrupted. An
instruction that is emulated must not store to the machine's RAM; and the handler on the board does not
come back if it writes a byte that the console never takes. -/
theorem raise_preserves (leftovers : Reg → Word) (cause tval : Word)
    (hb : b.core.bank = none) (hvec : b.core.csr .mtvec = Core.trapEntry)
    (hm : Status.has (b.core.csr .mstatus) Status.mprv = false)
    (hf : Core.FrameFits (b.core.csr .mscratch)) :
    let m := b.trapped cause tval
    Core.entryCode.run (b.core.trap cause tval) = (.called .trapHandler, m.hart) ∧
      m.hart.reg .a0 = b.core.csr .mscratch ∧ m.register = b.core.reg ∧
      ∀ o m', m.handleTrap = (o, m') → (∀ u, o ≠ .halted u) →
        (∀ op, m.asked = some op → ∀ a, m.Stores op a → ¬ Core.InRam a) →
        (∀ d, Core.ComesBack m.frame m.hart m'.hart d →
          Core.entryCode.run d = (.returned, d.left) ∧ Core.Preserved b.core m m' o d.left) ∧
        (Platform.waits m'.platform = false →
          ∃ d, Core.ComesBack m.frame m.hart m'.hart d ∧
            raise leftovers cause tval b = (.returned, ⟨d.left, m'.platform, m'.log⟩)) := by
  intro m
  refine ⟨run_entryCode hvec hm hf cause tval, rfl, register_trapped cause tval b, ?_⟩
  intro o m' hres ho hout
  refine ⟨fun d hd => ⟨run_of_comesBack hm (.inl hb) hres hf hd,
    preserved_of_comesBack hm hf hb hres ho hout hd⟩, fun hwaits => ?_⟩
  refine ⟨m'.hart.scramble leftovers, comesBack_scramble hm (.inl hb) hres leftovers, ?_⟩
  rw [raise_eq_handler hvec hm hf (.inl hb), handler_of_ne_halted hres ho, hwaits]
  rfl

/-- A misaligned load into the stack pointer, which a user program runs. -/
theorem raise_preserves_load :
    let b : Board Block Block Block := {
      core := {
        x := fun _ => 0x80000200
        csr := fun s => match s with
          | .mtvec => Core.trapEntry
          | .mscratch => 0x2000ff80
          | _ => 0
        pc := 0x80000100
        mode := Mode.user
        pmp := true
        memory := ⟨(Memory.zero.setWord 0x80000100 0x00152103).setWord 0x80000200 0x44332211,
          ⟨[⟨0x80000000, 0x1000⟩], [], [], []⟩⟩
        bank := none
        trace := [] }
      platform := ⟨⟨[]⟩, ⟨[]⟩, ⟨[]⟩, false⟩
      log := [] }
    ∃ e p l, raise (fun _ => 7) 4 0x80000201 b = (.returned, ⟨e, p, l⟩) ∧
      e.reg .sp = 0x00443322 ∧ e.reg .a0 = 0x80000200 ∧ e.pc = 0x80000104 ∧
      e.mode = Mode.user ∧ e.csr .mscratch = 0x2000ff80 := by
  intro b
  let m := b.trapped 4 0x80000201
  have hasked : m.asked = some (.unalignedLoad .word .sp 0x80000201) := by decide +kernel
  have hresumed : m.handleTrap.1 = .resumed := by decide +kernel
  obtain ⟨-, -, -, hall⟩ := raise_preserves (b := b) (fun _ => 7) 4 0x80000201 rfl rfl (by decide)
    ⟨by decide, by decide, by decide⟩
  obtain ⟨hend, hreturn⟩ := hall .resumed m.handleTrap.2 (Prod.ext hresumed rfl) (by simp)
    fun op hop a ha => by
      cases hasked.symm.trans hop
      cases ha
  obtain ⟨d, hback, hraise⟩ := hreturn (by decide +kernel)
  have hp := (hend d hback).2
  refine ⟨d.left, _, _, hraise, ?_, ?_, ?_, ?_, hp.scratch⟩
  · rw [hp.written rfl _ _ hasked rfl (by decide)]
    decide +kernel
  · refine hp.kept .a0 fun _ op hop => ?_
    cases hasked.symm.trans hop
    decide
  · rw [hp.pc]
    decide +kernel
  · rw [hp.mode]
    decide +kernel

/-- An instruction that stores to the machine's RAM may overwrite a saved register. Code in machine mode
swaps `x7` with the slot of `x1`: besides the destination `x5`, `x1` comes back changed. -/
theorem raise_overwrites_slot :
    let b : Board Block Block Block := {
      core := {
        x := fun r => if r = 1 then 1 else if r = 6 then 0x2000ff84 else if r = 7 then 2 else 0
        csr := fun s => match s with
          | .mtvec => Core.trapEntry
          | .mscratch => 0x2000ff80
          | _ => 0
        pc := 0x80000100
        mode := Mode.machine
        pmp := true
        memory := ⟨Memory.zero, ⟨[⟨0x20000000, 0x10000⟩], [], [], []⟩⟩
        bank := none
        trace := [] }
      platform := ⟨⟨[]⟩, ⟨[]⟩, ⟨[]⟩, false⟩
      log := [] }
    let m := b.trapped 2 0x087322af
    let after := raise (fun _ => 7) 2 0x087322af b
    m.handleTrap.1 = .resumed ∧ m.asked = some (.atomic .swap 5 6 7) ∧
      after.1 = .returned ∧ b.core.reg 1 = 1 ∧ after.2.core.reg 1 = 2 := by
  decide +kernel

/-- A user program does the same where nothing keeps it from that RAM, with a store of `a0` into the
frame: `x5` comes back changed, though no instruction wrote it. -/
example :
    let b : Board Block Block Block := {
      core := {
        x := fun _ => 0x2000ff95
        csr := fun s => match s with
          | .mtvec => Core.trapEntry
          | .mscratch => 0x2000ff80
          | _ => 0
        pc := 0x80000100
        mode := Mode.user
        pmp := true
        memory := ⟨Memory.zero.setWord 0x80000100 0x00a52023, ⟨[⟨0, 0x100000000⟩], [], [], []⟩⟩
        bank := none
        trace := [] }
      platform := ⟨⟨[]⟩, ⟨[]⟩, ⟨[]⟩, false⟩
      log := [] }
    let after := raise (fun _ => 7) 6 0x2000ff95 b
    after.1 = .returned ∧ after.2.core.reg 5 = 0x00ff9595 := by
  decide +kernel

end Board

end TrapMonitor
