import TrapMonitor.Proofs.Isa.Decoding
import TrapMonitor.Proofs.Trap.Halt

/-! # What a misaligned access is taken for

The trap says whether a load or a store was misaligned, and the instruction that is fetched for it
says the width and the register. Nothing else of the instruction counts: any long instruction with
the width field of a load passes for that load, whatever its opcode is (`handleTrap_misaligned`).
-/
namespace TrapMonitor.Machine

open Hart

section Answers

variable {H P F : Type} [Hart H] [Platform P] [FrameStore H F]

/-- An exception is answered by performing `op` on the machine that reading the instruction left
behind: the trapped code goes on behind it, or the fault of one of its accesses is delegated. -/
structure AnsweredBy (e : Exception) (m : Machine H P F) (h : H) (op : Operation) : Prop where
  resumed : ∀ m', handleTrap m = (.resumed, m') ↔
    ∃ m₁, execute op { m with hart := h } = .ok () m₁ ∧ m' = resume (.capture m.hart) m₁
  delegated : ∀ f m', handleTrap m = (.delegated f, m') ↔
    ∃ m₁, execute op { m with hart := h } = .error (.fault f) m₁ ∧
      m' = { m₁.record .debug "emulator::trap" (delegationMessage e (.capture m.hart) f) with
        hart := (TrapState.capture m.hart).delegate m₁.hart }
  not_halted : ∀ u m', handleTrap m ≠ (.halted u, m')

variable {e : Exception} {m : Machine H P F} {w : Word} {h : H} {op : Operation} {u : Unsupported}

theorem answeredBy_of_decode (hc : Cause.ofWord (readCsr .mcause m.hart) = .exception e)
    (hw : (TrapState.capture m.hart).instructionWord e m.hart = .ok w h)
    (hd : (TrapState.capture m.hart).decode e (m.register .a7) w = .ok op) :
    AnsweredBy e m h op := by
  have he : emulate e (.capture m.hart) m = execute op { m with hart := h } := by
    rw [emulate_eq, hw]
    simp only [hd]
  have hh : handleTrap m = finishTrap (handleException e (.capture m.hart) m) :=
    handleTrap_exception hc
  rw [handleException, he] at hh
  cases hx : execute op { m with hart := h } with
  | ok v m₁ =>
    simp only [hx, finishTrap] at hh
    constructor <;> simp [hh, hx, resume, eq_comm]
  | error err m₁ =>
    cases err with
    | unsupported u => exact absurd hx execute_ne_unsupported
    | fault f =>
      simp only [hx, finishTrap] at hh
      refine ⟨by simp [hh, hx], fun f' m' => ?_, by simp [hh]⟩
      rw [hh, hx]
      constructor
      · rintro ⟨⟩
        exact ⟨m₁, rfl, rfl⟩
      · rintro ⟨_, ⟨⟩, rfl⟩
        rfl

theorem handleTrap_of_decode_eq_error
    (hc : Cause.ofWord (readCsr .mcause m.hart) = .exception e)
    (hw : (TrapState.capture m.hart).instructionWord e m.hart = .ok w h)
    (hd : (TrapState.capture m.hart).decode e (m.register .a7) w = .error u) :
    handleTrap m = (.halted u, { m with hart := h }) :=
  handleTrap_eq_halted.mpr (.inr ⟨e, h, hc, .intro hw hd, rfl⟩)

end Answers

variable {H P F : Type} [Hart H] [HartView H] [Platform P] [FrameStore H F] [LawfulHart H F]

/-- The trap is refused before anything is done for it. -/
structure Rejected (m : Machine H P F) (h : H) (u : Unsupported) : Prop where
  halted : handleTrap m = (.halted u, { m with hart := h })
  untouched : Untouched m { m with hart := h }

variable {e : Exception} {m : Machine H P F} {w : Word} {h : H} {u : Unsupported}

theorem rejected_of_decode (hr : HartView.ready m.hart)
    (hc : Cause.ofWord (readCsr .mcause m.hart) = .exception e)
    (hw : (TrapState.capture m.hart).instructionWord e m.hart = .ok w h)
    (hd : (TrapState.capture m.hart).decode e (m.register .a7) w = .error u) :
    Rejected m h u := by
  have hh := handleTrap_of_decode_eq_error hc hw hd
  obtain ⟨h', halts, heq⟩ := handleTrap_eq_halted_iff.mp hh
  have hart : h = h' := congrArg Machine.hart heq
  exact ⟨hh, hart ▸ halts.untouched hr⟩

/-- A misaligned access trap on the instruction `w`: it is taken for the load or store that the
width field names, and refused where that names none or the instruction is a short one. The
opcode does not occur. -/
theorem handleTrap_misaligned (hr : HartView.ready m.hart)
    (hw : fetch (readCsr .mepc m.hart) m.hart = .ok w h) :
    (readCsr .mcause m.hart = 4 → w &&& 3 = 3 →
      (∀ kind : LoadKind, w >>> 12 &&& 7 = kind.funct3 →
        AnsweredBy .loadAddressMisaligned m h
          (.unalignedLoad kind (w.extractLsb' 7 5) (readCsr .mbadaddr m.hart))) ∧
      (w >>> 12 &&& 7 ∉ ([1, 2, 5] : List Word) → Rejected m h (.loadWidth (w >>> 12 &&& 7)))) ∧
    (readCsr .mcause m.hart = 6 → w &&& 3 = 3 →
      (∀ kind : StoreKind, w >>> 12 &&& 7 = kind.funct3 →
        AnsweredBy .storeAddressMisaligned m h
          (.unalignedStore kind (w.extractLsb' 20 5) (readCsr .mbadaddr m.hart))) ∧
      (w >>> 12 &&& 7 ∉ ([1, 2] : List Word) → Rejected m h (.storeWidth (w >>> 12 &&& 7)))) ∧
    (readCsr .mcause m.hart = 4 ∨ readCsr .mcause m.hart = 6 → w &&& 3 ≠ 3 →
      Rejected m h (.compressedInstruction (w &&& 0xffff))) := by
  have hload (hc : readCsr .mcause m.hart = 4) :
      Cause.ofWord (readCsr .mcause m.hart) = .exception .loadAddressMisaligned := by
    rw [hc]
    rfl
  have hstore (hc : readCsr .mcause m.hart = 6) :
      Cause.ofWord (readCsr .mcause m.hart) = .exception .storeAddressMisaligned := by
    rw [hc]
    rfl
  refine ⟨fun hc hlong => ⟨fun kind hk => ?_, fun hn => ?_⟩,
    fun hc hlong => ⟨fun kind hk => ?_, fun hn => ?_⟩, fun hc hshort => ?_⟩
  · exact answeredBy_of_decode (hload hc) hw (Operation.ofLoad_of_funct3 hlong hk _)
  · have hne : ∀ kind : LoadKind, kind.funct3 ≠ w >>> 12 &&& 7 := by
      intro kind hk
      rw [← hk] at hn
      exact hn (by cases kind <;> decide)
    exact rejected_of_decode hr (hload hc) hw (Operation.ofLoad_of_ne hlong hne _)
  · exact answeredBy_of_decode (hstore hc) hw (Operation.ofStore_of_funct3 hlong hk _)
  · have hne : ∀ kind : StoreKind, kind.funct3 ≠ w >>> 12 &&& 7 := by
      intro kind hk
      rw [← hk] at hn
      exact hn (by cases kind <;> decide)
    exact rejected_of_decode hr (hstore hc) hw (Operation.ofStore_of_ne hlong hne _)
  · rcases hc with hc | hc
    · exact rejected_of_decode hr (hload hc) hw (Operation.ofLoad_of_compressed hshort _)
    · exact rejected_of_decode hr (hstore hc) hw (Operation.ofStore_of_compressed hshort _)

/-- A machine that trapped on `lr.w x5, (x10)` because the address in `x10` is odd. -/
def trappedOnReservation : Machine FlatHart ScriptedPlatform Frame :=
  trappedOn 0x100522af 4 0x80000201 (fun _ => 7) 0

/-- A machine that trapped on `amoadd.w x5, x6, (x10)` because the address in `x10` is odd. -/
def trappedOnAddition : Machine FlatHart ScriptedPlatform Frame :=
  trappedOn 0x006522af 6 0x80000201 (fun _ => 7) 0

/-- Both pass for plain accesses of a word: the width field of an atomic memory operation is that
of `lw` and of `sw`. -/
theorem answeredBy_trappedOn_atomic :
    (∃ h, AnsweredBy .loadAddressMisaligned trappedOnReservation h
      (.unalignedLoad .word 5 0x80000201)) ∧
    ∃ h, AnsweredBy .storeAddressMisaligned trappedOnAddition h
      (.unalignedStore .word 6 0x80000201) := by
  constructor
  · obtain ⟨load, -⟩ := handleTrap_misaligned (m := trappedOnReservation) rfl rfl
    exact ⟨_, (load rfl rfl).1 .word rfl⟩
  · obtain ⟨-, store, -⟩ := handleTrap_misaligned (m := trappedOnAddition) rfl rfl
    exact ⟨_, (store rfl rfl).1 .word rfl⟩

/-- Neither instruction is a load or a store, and neither is refused: the first one changes a
register, the second one changes memory, adds nothing, and leaves `x5` as it was. -/
theorem handleTrap_atomic_resumed :
    ((0x100522af : Word) &&& 0x7f = 0x2f ∧ (handleTrap trappedOnReservation).1 = .resumed ∧
      trappedOnReservation.register 5 = 7 ∧
      (handleTrap trappedOnReservation).2.register 5 ≠ 7) ∧
    ((0x006522af : Word) &&& 0x7f = 0x2f ∧ (handleTrap trappedOnAddition).1 = .resumed ∧
      (HartView.memory trappedOnAddition.hart).byte 0x80000201 = 0 ∧
      (HartView.memory (handleTrap trappedOnAddition).2.hart).byte 0x80000201 = 7 ∧
      (handleTrap trappedOnAddition).2.register 5 = 7) := by
  decide +kernel

end TrapMonitor.Machine
