import TrapMonitor.Platform.Soc
import TrapMonitor.Proofs.Bus.Words
import TrapMonitor.Proofs.Trap.Delegation

/-! # Waiting for a console that never has room

The driver of the serial device polls one flag until there is room. In words that nothing else changes
the flag stays what it is, so either the first poll finds room or none ever does
(`Uart.never_ready_iff`). A trap polls when it puts a character, and at no other time; whether it comes
back is thus known beforehand (`Machine.waits_handleTrap_iff`).
-/
namespace TrapMonitor

open Hart

namespace Uart

variable {D : Type} [Bus D] [PlainWords D]

/-- Whether the transmitter has room. -/
def hasRoom (d : D) : Bool := flagClear (BitVec.ofNat 64 (txFull.held d))

/-- Without room, the polling has no end. -/
theorem never_ready_iff (d : D) :
    (∀ polls, (txFull.poll flagClear polls d).1 = false) ↔ hasRoom d = false := by
  constructor
  · intro h
    have hone := h 1
    rw [SplitRegister.poll_eq] at hone
    exact hone
  · intro h polls
    cases polls with
    | zero => rfl
    | succ n =>
      rw [SplitRegister.poll_eq]
      exact h

theorem writeByte_eq (b : Byte) (d : D) : writeByte b d =
    (hasRoom d,
      if hasRoom d && b != carriageReturn then (rxtx.write (b.setWidth 64) d).2 else d) := by
  rw [writeByte_eq_await, SplitRegister.await_eq]
  rfl

end Uart

namespace TrapState

theorem decode_eq_call_iff {s : TrapState} {e : Exception} {number w : Word} {c : SbiCall} :
    s.decode e number w = .ok (.sbi c) ↔ e = .supervisorCall ∧ number = c.number := by
  constructor
  · intro hd
    cases decoded_of_decode hd
    refine ⟨rfl, ?_⟩
    cases hc : SbiCall.ofNumber number with
    | error u => simp [decode, hc, Except.map] at hd
    | ok c' =>
      simp only [decode, hc, Except.map, Except.ok.injEq, Operation.sbi.injEq] at hd
      rw [← hd]
      exact (SbiCall.number_of_ofNumber hc).symm
  · rintro ⟨rfl, rfl⟩
    rw [decode, SbiCall.ofNumber_number]
    rfl

end TrapState

namespace Machine

variable {H P F : Type} [Hart H] [Platform P] [FrameStore H F]

omit [Platform P] in
/-- The trap is a call of the supervisor that puts a character on the console. -/
def PutsCharacter (m : Machine H P F) : Prop :=
  readCsr .mcause m.hart = 9 ∧ m.register .a7 = 1

/-- Such a call resumes, and writes the character on its way. -/
theorem platform_of_putsCharacter {m : Machine H P F} (h : m.PutsCharacter) :
    (handleTrap m).2.platform = Platform.write ((m.register .a0).setWidth 8) m.platform := by
  have hc : Cause.ofWord (readCsr .mcause m.hart) = .exception .supervisorCall := by
    rw [h.1]
    rfl
  have hd : (TrapState.capture m.hart).decode .supervisorCall (m.register .a7) 0 =
      .ok (.sbi .consolePutchar) := TrapState.decode_eq_call_iff.mpr ⟨rfl, h.2⟩
  have hres : handleTrap m = (.resumed, resume (.capture m.hart)
      (m.complete (.sbi .consolePutchar) 0 m.hart)) :=
    handleTrap_eq_resumed.mpr (.inr ⟨_, _, _, hc, .intro rfl hd rfl, rfl⟩)
  rw [hres]
  rfl

variable {U T B : Type} [Bus U] [Bus T] [Bus B]

/-- All other operations leave the console without waiting for it. -/
theorem waits_complete (m : Machine H (SocPlatform U T B) F) {op : Operation}
    (hop : op ≠ .sbi .consolePutchar) (v : Word) (h : H) :
    Platform.waits (m.complete op v h).platform = Platform.waits m.platform := by
  cases op with
  | unalignedLoad kind rd a =>
    exact congrArg Platform.waits (platform_setRegister (record _ _ _ { m with hart := h }) rd _)
  | unalignedStore kind src a => rfl
  | atomic amo rd addr src =>
    unfold complete
    dsimp only
    split
    · exact congrArg Platform.waits (platform_setRegister { m with hart := h } rd v)
    · rfl
  | counterRead half rd =>
    refine (congrArg Platform.waits (platform_setRegister (record _ _ _
      { m with hart := h, platform := (readCounter half m.platform).2 }) rd _)).trans ?_
    cases half <;> rfl
  | sbi c =>
    cases c with
    | consolePutchar => exact absurd rfl hop
    | setTimer => rfl
    | consoleGetchar =>
      exact (congrArg Platform.waits (platform_setRegister (record _ _ _
        { m with hart := h, platform := (Platform.tryRead m.platform).2 }) .a0 _)).trans rfl

theorem waits_of_not_putsCharacter {m : Machine H (SocPlatform U T B) F} (h : ¬ m.PutsCharacter) :
    Platform.waits (handleTrap m).2.platform = Platform.waits m.platform := by
  cases hres : handleTrap m with
  | mk o m' =>
  cases o with
  | resumed =>
    rcases handleTrap_eq_resumed.mp hres with ⟨-, rfl⟩ | ⟨e, op, m₁, hc, ⟨-, hd, -⟩, rfl⟩
    · rfl
    · refine waits_complete _ (fun hop => h ?_) _ _
      rw [hop] at hd
      obtain ⟨rfl, hnumber⟩ := TrapState.decode_eq_call_iff.mp hd
      have hcode := (Cause.ofWord_eq_exception_iff.mp hc).2.symm
      exact ⟨(Exception.ofCode_eq_iff (by decide)).mp hcode, hnumber⟩
  | delegated f =>
    obtain ⟨e, h₁, -, -, rfl⟩ := handleTrap_eq_delegated.mp hres
    rfl
  | halted u =>
    rcases handleTrap_eq_halted.mp hres with ⟨i, -, -, -, rfl⟩ | ⟨e, h₁, -, -, rfl⟩ <;> rfl

/-- A trap waits for ever if it puts a character for which there never is room, and only then. -/
theorem waits_handleTrap_iff [PlainWords U] (m : Machine H (SocPlatform U T B) F) :
    Platform.waits (handleTrap m).2.platform = true ↔ Platform.waits m.platform = true ∨
      m.PutsCharacter ∧ ∀ polls, (Uart.txFull.poll Uart.flagClear polls m.platform.uart).1 = false := by
  rw [Uart.never_ready_iff]
  by_cases h : m.PutsCharacter
  · have hwrite (b : Byte) : Platform.waits (Platform.write b m.platform) =
        (Platform.waits m.platform || !Uart.hasRoom m.platform.uart) := by
      change (m.platform.waits || !(Uart.writeByte b m.platform.uart).1) = _
      rw [Uart.writeByte_eq]
      rfl
    rw [platform_of_putsCharacter h, hwrite]
    simp [h]
  · rw [waits_of_not_putsCharacter h]
    simp [h]

end Machine

end TrapMonitor
