import TrapMonitor.Proofs.Core.Context
import TrapMonitor.Proofs.Core.Privilege
import TrapMonitor.Proofs.Core.Reachable
import TrapMonitor.Proofs.Hart.Logged
import TrapMonitor.Proofs.Trap.Footprint

/-! # No confused deputy

The handler goes to addresses that the trapped code chose. It does so in barriers only, each of which
makes one access with the privilege of the trapped code, and only where the trapped instruction lies
or would have gone itself. At every other load and store of the trap the privilege is the machine's
own. No trap leaves anything behind that could lend it to a later one.
-/
namespace TrapMonitor

namespace Core

/-! ## In the handler -/

/-- The core while a trap from below machine mode is handled. -/
structure Handling (c : Core) : Prop extends Unarmed c where
  previous : (Status.previousMode (c.csr .mstatus)).BelowMachine

theorem Handling.ready {c : Core} (h : Handling c) : HartView.ready c := by
  refine ⟨h.mprv, .inr fun he => ?_⟩
  rcases h.previous with hp | hp <;> exact absurd (he.symm.trans hp) (by decide)

theorem Handling.congr {c d : Core} (h : Handling c) (hmode : d.mode = c.mode)
    (hstatus : d.csr .mstatus = c.csr .mstatus) : Handling d :=
  ⟨h.toUnarmed.congr hmode hstatus, hstatus ▸ h.previous⟩

theorem Handling.setDelegated {c : Core} {m : Word} (hm : Status.has m Status.mprv = false)
    (h : Handling c) : Handling (c.setCsr .mstatus (Status.delegated m)) := by
  have hstatus : (c.setCsr .mstatus (Status.delegated m)).csr .mstatus = Status.delegated m := rfl
  refine ⟨⟨h.mode, ?_⟩, .inr ?_⟩
  · rw [hstatus, Status.has_mprv_delegated, hm]
  · rw [hstatus, Status.previousMode_delegated]

/-- All accesses are made before the status word changes. -/
theorem phases_handling (status : Word) :
    Phases (fun (_ : FrameAddress) c => Handling c ∧ c.csr .mstatus = status)
      (fun _ c => Handling c) where
  load _ := by
    refine keeps_load (fun c h => h.1.mprv) fun c trace h => ?_
    exact ⟨h.1.congr rfl rfl, h.2⟩
  store _ := by
    refine keeps_store (fun c h => h.1.ready) fun c bytes trace h => ?_
    exact ⟨h.1.congr rfl rfl, h.2⟩
  moved h := h.1
  setSlot _ _ _ _ _ h := h.congr rfl rfl
  writeCsr {r} v f c hstatus _ h := by
    have hne : Csr.mstatus.system ≠ r.system := fun he => hstatus (system_eq_iff.mp he).symm
    rw [writeCsr_eq]
    exact h.congr rfl (if_neg hne)
  enableTimer h := by
    rw [setCsr_eq]
    exact h.congr rfl rfl
  disableTimer h := by
    rw [clearCsr_eq]
    exact h.congr rfl rfl
  delegated h₀ h := by
    rw [writeCsr_eq, readCsr_eq]
    exact h.setDelegated h₀.1.mprv

/-- One thing that is done to the core for a trap from mode `p`. It starts with the privilege of the
machine, and only the block of a load or store borrows that of `p`. -/
structure Confined (p : Mode) (x : Core × HartEvent) : Prop where
  unarmed : x.1.Unarmed
  load : ∀ w a, x.2 = .load w a → Barrier.Guards p x.1 w .load a 0
  store : ∀ w a v, x.2 = .store w a v → Barrier.Guards p x.1 w .store a v
  register : ∀ r, x.2 = .register r → ∀ i ∈ registerInstrs r, ∀ inputs,
    Code.accesses ((block [i]).history (x.1.enterBlock inputs)) = []

theorem phases_confined (status : Word) :
    Phases
      (fun (_ : FrameAddress) (l : Logged Core) => (Handling l.hart ∧ l.hart.csr .mstatus = status) ∧
        ∀ x ∈ l.log, Confined (Status.previousMode status) x)
      (fun _ l => Handling l.hart ∧ ∀ x ∈ l.log, Confined (Status.previousMode status) x) := by
  refine (phases_handling status).logged ?_ ?_ ?_ ?_
  · rintro - c w a ⟨h, rfl⟩
    exact ⟨h.toUnarmed, by rintro _ _ ⟨⟩; exact Barrier.guards_of_unarmed h.toUnarmed w .load a 0,
      nofun, nofun⟩
  · rintro - c w a v ⟨h, rfl⟩
    exact ⟨h.toUnarmed, nofun,
      by rintro _ _ _ ⟨⟩; exact Barrier.guards_of_unarmed h.toUnarmed w .store a v, nofun⟩
  · intro _ c r h
    exact ⟨h.toUnarmed, nofun, nofun, nofun⟩
  · intro _ c r h
    refine ⟨h.toUnarmed, nofun, nofun, ?_⟩
    rintro _ ⟨⟩ i hi inputs
    exact accesses_of_registerInstrs hi inputs c

/-! ## Between traps -/

/-- Code below machine mode runs, and the core is prepared for a trap. -/
structure Prepared (c : Core) : Prop where
  mode : c.mode.BelowMachine
  trapVector : c.csr .mtvec = trapEntry
  mprv : Status.has (c.csr .mstatus) Status.mprv = false
  frame : FrameFits (c.csr .mscratch)

theorem Prepared.handling {c : Core} (hp : Prepared c) (cause tval : Word) :
    Handling (c.trap cause tval).entered where
  toUnarmed := (unarmed_trap hp.mprv cause tval).congr rfl rfl
  previous := by
    have hstatus : (c.trap cause tval).entered.csr .mstatus =
        Status.enterMachine c.mode (c.csr .mstatus) := rfl
    rw [hstatus, Status.previousMode_enterMachine]
    exact hp.mode

theorem Settled.prepared {plan : BootPlan} {frame : Word} {c : Core} (hs : Settled plan frame c)
    (hf : FrameFits frame) : Prepared c := ⟨hs.mode, hs.trapVector, hs.mprv, hs.scratch ▸ hf⟩

theorem keepsStatus_entryCode : ∀ i ∈ entryCode.body, i.keepsStatus = true := by decide

end Core

namespace Board

open Machine

variable {U T D : Type} [Bus U] [Bus T] [Bus D] {b b' : Board U T D} {cause tval : Word}
  {leftovers : Reg → Word}

/-! ## One trap -/

/-- How the trap of a board is handled, from the trap entry to its return. Saved registers and devices
are accessed with the privilege of the machine, which the core has whenever the next thing is done to
it; what is done to it in a barrier stays in the footprint of the trap. -/
structure Confines (cause tval : Word) (b : Board U T D) : Prop where
  enters : Core.entryCode.run (b.core.trap cause tval) =
    (.called .trapHandler, (b.trapped cause tval).hart)
  entering : ∀ x ∈ Core.entryCode.history (b.core.trap cause tval), x.1.Unarmed
  /-- The log that is spoken of is that of the handler. -/
  logged : (handleTrap (b.trapped cause tval).logged).1 = (handleTrap (b.trapped cause tval)).1 ∧
    (handleTrap (b.trapped cause tval).logged).2.erased = (handleTrap (b.trapped cause tval)).2
  confined : ∀ x ∈ (handleTrap (b.trapped cause tval).logged).2.hart.log,
    Core.Confined b.core.mode x
  loads : ∀ c w a, (c, .load w a) ∈ (handleTrap (b.trapped cause tval).logged).2.hart.log →
    (b.trapped cause tval).Footprint .load w a
  stores : ∀ c w a v, (c, .store w a v) ∈ (handleTrap (b.trapped cause tval).logged).2.hart.log →
    (b.trapped cause tval).Footprint .store w a
  handled : (handleTrap (b.trapped cause tval)).2.hart.Unarmed
  /-- Whatever the handler is compiled to, the registers are loaded again and the trap is left. -/
  leaving : ∀ o m', handleTrap (b.trapped cause tval) = (o, m') → (∀ u, o ≠ .halted u) →
    ∀ d, Core.ComesBack (b.trapped cause tval).frame (b.trapped cause tval).hart m'.hart d →
      Core.entryCode.run d = (.returned, d.left) ∧
        (∀ x ∈ Core.entryCode.history d, x.1.Unarmed) ∧
        ∃ x ∈ Core.entryCode.history d, x.2 = .mret

/-- Only a return from a trap ends a run in that way. -/
theorem eq_mret_of_step {c d : Core} {i : Instr} (h : c.step i = .returned d) : i = .mret := by
  cases i with
  | mret => rfl
  | _ => cases h

omit [Bus U] [Bus T] [Bus D] in
/-- The log is not part of what a footprint is read from. -/
theorem footprint_of_logged {m : Machine Core (SocPlatform U T D) Core.FrameAddress}
    {k : AccessKind} {w : Width} {a : Word} (h : m.logged.Footprint k w a) : m.Footprint k w a := by
  cases h with
  | instruction hread hholds => exact .instruction hread hholds
  | loaded hop hi => exact .loaded hop hi
  | stored hop hi => exact .stored hop hi
  | atomicLoaded hop => exact .atomicLoaded hop
  | atomicStored hop hstores => exact .atomicStored hop hstores

section Trap

variable {m' : Machine Core (SocPlatform U T D) Core.FrameAddress} {o : Outcome}
  (hp : b.core.Prepared)

include hp

theorem footprint_of_mem_log {x : Core × HartEvent} {y : Access}
    (hx : x ∈ (handleTrap (b.trapped cause tval).logged).2.hart.log)
    (hy : Logged.accessOf x = some y) :
    (b.trapped cause tval).Footprint y.kind y.width y.address := by
  have hr : HartView.ready (b.trapped cause tval).logged.hart := (hp.handling cause tval).ready
  have hmade : made (b.trapped cause tval).logged.hart
      (handleTrap (b.trapped cause tval).logged).2.hart =
      (handleTrap (b.trapped cause tval).logged).2.hart.trace := rfl
  have hmem := List.mem_filterMap.mpr ⟨x, hx, hy⟩
  exact footprint_of_logged (footprint_of_made hr y (hmade ▸ hmem))

theorem handling_of_handleTrap (hres : (b.trapped cause tval).handleTrap = (o, m')) :
    Core.Handling m'.hart := by
  have hkept := (Core.phases_handling ((b.trapped cause tval).hart.csr .mstatus)).handleTrap
    (m := b.trapped cause tval) ⟨hp.handling cause tval, rfl⟩
  rw [hres] at hkept
  exact hkept

theorem unarmed_of_comesBack (hres : (b.trapped cause tval).handleTrap = (o, m')) {d : Core}
    (hd : Core.ComesBack (b.trapped cause tval).frame (b.trapped cause tval).hart m'.hart d) :
    d.Unarmed where
  mode := hd.mode
  mprv := by
    rw [hd.csr]
    exact (handling_of_handleTrap hp hres).mprv

theorem confines_of_prepared (cause tval : Word) : Confines cause tval b := by
  have hstart := hp.handling cause tval
  have hstatus : (b.trapped cause tval).hart.csr .mstatus =
      Status.enterMachine b.core.mode (b.core.csr .mstatus) := rfl
  have hprevious : Status.previousMode ((b.trapped cause tval).hart.csr .mstatus) = b.core.mode := by
    rw [hstatus, Status.previousMode_enterMachine]
  have hkept := (Core.phases_confined ((b.trapped cause tval).hart.csr .mstatus)).handleTrap
    (m := (b.trapped cause tval).logged) ⟨⟨hstart, rfl⟩, nofun⟩
  rw [hprevious] at hkept
  exact {
    enters := run_entryCode hp.trapVector hp.mprv hp.frame cause tval
    entering := (Core.unarmed_trap hp.mprv cause tval).history Core.keepsStatus_entryCode
    logged := handleTrap_logged _
    confined := hkept.2
    loads := fun c w a hx => by
      obtain ⟨y, hy, hk, hw, ha⟩ := Logged.accessOf_load c w a
      have hfootprint := footprint_of_mem_log hp hx hy
      rwa [hk, hw, ha] at hfootprint
    stores := fun c w a v hx => by
      obtain ⟨y, hy, hk, hw, ha⟩ := Logged.accessOf_store c w a v
      have hfootprint := footprint_of_mem_log hp hx hy
      rwa [hk, hw, ha] at hfootprint
    handled := (handling_of_handleTrap hp rfl).toUnarmed
    leaving := fun o m' hres ho d hd => by
      have hrun := run_of_comesBack hp.mprv (.inr hp.mode) hres hp.frame hd
      obtain ⟨x, hx, hstep⟩ := Code.exists_mem_historyFor hrun
      refine ⟨hrun, ?_, x, hx, eq_mret_of_step hstep⟩
      exact (unarmed_of_comesBack hp hres hd).history Core.keepsStatus_entryCode }

/-! ## The next trap -/

/-- However the trap ended, the core is prepared for the next one. -/
theorem prepared_left (hres : (b.trapped cause tval).handleTrap = (o, m'))
    (ho : ∀ u, o ≠ .halted u) {d : Core}
    (hd : Core.ComesBack (b.trapped cause tval).frame (b.trapped cause tval).hart m'.hart d) :
    d.left.Prepared where
  mode := by
    have hprevious := (handling_of_handleTrap hp hres).previous
    rwa [← hd.csr] at hprevious
  trapVector := by
    have hvec := Machine.trapVector_of_handleTrap hres ho
    rw [Core.readCsr_eq] at hvec
    exact (congrFun hd.csr .mtvec).trans hvec
  mprv := by
    have hstatus : d.left.csr .mstatus = Status.leaveMachine (d.csr .mstatus) := rfl
    rw [hstatus, Status.has_mprv_leaveMachine]
    exact (unarmed_of_comesBack hp hres hd).mprv
  frame := by
    -- the last exchange puts back the address that the first one took out
    have hscratch : d.left.csr .mscratch = d.reg .sp := rfl
    rw [hscratch, hd.stack]
    exact hp.frame

theorem prepared_of_raise {e : TrapEnd} (hraise : raise leftovers cause tval b = (e, b'))
    (hhalted : e ≠ .halted) (hwaiting : e ≠ .waiting) : b'.core.Prepared := by
  rw [raise_eq_handler hp.trapVector hp.mprv hp.frame (.inr hp.mode)] at hraise
  have hend := end_of_handler leftovers (b.called cause tval)
  cases hh : handler leftovers (b.called cause tval) with
  | mk e' b₁ =>
  rw [hh] at hraise hend
  rcases hend with rfl | ⟨rfl, -⟩ | rfl
  · cases hraise
    exact absurd rfl hhalted
  · cases hraise
    exact absurd rfl hwaiting
  · cases hraise
    obtain ⟨o, m', hres, ho, -, rfl⟩ := handleTrap_of_returned hh
    exact prepared_left hp hres ho (comesBack_scramble hp.mprv (.inr hp.mode) hres leftovers)

end Trap

omit [Bus U] [Bus T] [Bus D] in
theorem RunsBelow.prepared (h : RunsBelow b b') (hp : b.core.Prepared) : b'.core.Prepared where
  mode := h.mode
  trapVector := (h.csr .mtvec (by decide)).trans hp.trapVector
  mprv := by
    rw [Status.has_mprv, Status.getLsbD_of_supervisor h.status (by decide) (by decide),
      ← Status.has_mprv, hp.mprv]
  frame := by
    rw [h.csr .mscratch (by decide)]
    exact hp.frame

/-- The boards on which code below machine mode runs, from `b₀` on. -/
inductive Runs (b₀ : Board U T D) : Board U T D → Prop
  | start : Runs b₀ b₀
  | runs {b b' : Board U T D} : Runs b₀ b → RunsBelow b b' → Runs b₀ b'
  | trap {b b' : Board U T D} {e : TrapEnd} (leftovers : Reg → Word) (cause tval : Word) :
    Runs b₀ b → raise leftovers cause tval b = (e, b') → e ≠ .halted → e ≠ .waiting → Runs b₀ b'

theorem Runs.prepared {b₀ : Board U T D} (h : Runs b₀ b) (h₀ : b₀.core.Prepared) :
    b.core.Prepared := by
  induction h with
  | start => exact h₀
  | runs _ hbelow ih => exact hbelow.prepared ih
  | trap leftovers cause tval _ hraise hhalted hwaiting ih =>
    exact prepared_of_raise ih hraise hhalted hwaiting

/-- From booting on, the machine handles every trap in this way. -/
theorem Reachable.confines {stackTop image : Word}
    (hf : Core.FrameFits (stackTop - BootPlan.frameSize)) (h : Reachable stackTop image b)
    (cause tval : Word) : Confines cause tval b := by
  have hp : b.core.Prepared := by
    induction h with
    | boot deviceTree hplan => exact (Core.settled_booted hplan deviceTree _).prepared hf
    | runs _ hbelow ih => exact hbelow.prepared ih
    | trap leftovers cause tval _ hraise hhalted hwaiting ih =>
      exact prepared_of_raise ih hraise hhalted hwaiting
  exact confines_of_prepared hp cause tval

/-- The handler is no confused deputy: however often code below machine mode has trapped, and however
these traps ended, the privilege of that code is used for what the next trap asks for, where it asks
for it, and for nothing else. -/
theorem runs_confines {b₀ : Board U T D} (h₀ : b₀.core.Prepared) (h : Runs b₀ b)
    (cause tval : Word) : Confines cause tval b := confines_of_prepared (h.prepared h₀) cause tval

/-- A user program runs where nothing can be read, and its trap is delegated after a fault of the
handler. Then it runs a misaligned load, for which the handler makes five accesses. -/
theorem runs_confines_delegated :
    let b₀ : Board Block Block Block := {
      core := {
        x := fun _ => 0x80000200
        csr := fun s => match s with
          | .mtvec => Core.trapEntry
          | .mscratch => 0x2000ff80
          | _ => 0
        pc := 0x90000000
        mode := Mode.user
        pmp := true
        memory := ⟨(Memory.zero.setWord 0x80000100 0x00152103).setWord 0x80000200 0x44332211,
          ⟨[⟨0x80000000, 0x1000⟩], [], [], []⟩⟩
        bank := none
        trace := [] }
      platform := ⟨⟨[]⟩, ⟨[]⟩, ⟨[]⟩, false⟩
      log := [] }
    let b₁ := (raise (fun _ => 7) 4 0x80000201 b₀).2
    let b₂ := { b₁ with core := { b₁.core with pc := 0x80000100, mode := Mode.user } }
    b₀.core.Prepared ∧ (handleTrap (b₀.trapped 4 0x80000201)).1 = .delegated ⟨0x90000000, 5⟩ ∧
      Runs b₀ b₂ ∧ Confines 4 0x80000201 b₂ ∧
      ((handleTrap (b₂.trapped 4 0x80000201).logged).2.hart.log.map Prod.snd).take 5 =
        [.load .word 0x80000100, .load .byte 0x80000201, .load .byte 0x80000202,
          .load .byte 0x80000203, .load .byte 0x80000204] := by
  intro b₀ b₁ b₂
  have h₀ : b₀.core.Prepared := ⟨.inl rfl, rfl, by decide, by decide, by decide, by decide⟩
  have hend : (raise (fun _ => 7) 4 0x80000201 b₀).1 = .returned := by decide +kernel
  have htrap : Runs b₀ b₁ := .trap (e := .returned) (fun _ => 7) 4 0x80000201 .start
    (Prod.ext hend rfl) (by decide) (by decide)
  have hruns : Runs b₀ b₂ :=
    .runs htrap ⟨.inl rfl, rfl, fun _ _ => rfl, rfl, rfl, fun _ _ => rfl⟩
  refine ⟨h₀, by decide +kernel, hruns, runs_confines h₀ hruns 4 0x80000201, by decide +kernel⟩

end Board

end TrapMonitor
