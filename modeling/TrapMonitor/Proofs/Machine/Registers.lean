import TrapMonitor.Proofs.Hart.Contract

/-! # The registers of the trapped code

The registers lie in two places, the stack pointer in `mscratch` and the others in the frame, and
still behave as one register file. Writing one of them touches nothing else, and accesses change
none of them unless they store to where the frame is.
-/
namespace TrapMonitor.Machine

open Hart

variable {H P F : Type} [Hart H] [HartView H] [FrameStore H F] [FaithfulHart H F]

omit [HartView H] [FaithfulHart H F] in
/-- A register is read from the hart and the frame alone. -/
theorem register_congr (m m' : Machine H P F) (hf : m'.frame = m.frame)
    (hc : readCsr .mscratch m'.hart = readCsr .mscratch m.hart)
    (hs : ∀ r, FrameStore.slot m.frame m'.hart r = FrameStore.slot m.frame m.hart r) (r : Reg) :
    m'.register r = m.register r := by
  simp only [register, hf, hc, hs]

omit [FaithfulHart H F] in
theorem register_of_spared {m : Machine H P F} {made : List Access} {h : H}
    (acc : Accessed F m.hart made h) (hs : ∀ r, ∀ x ∈ made, x.Spares H m.frame r) :
    { m with hart := h }.register = m.register := by
  funext r
  have hc : readCsr .mscratch h = readCsr .mscratch m.hart := acc.csr .mscratch (by decide)
  exact register_congr m { m with hart := h } rfl hc (fun r => acc.slot m.frame r (hs r)) r

omit [FaithfulHart H F] in
theorem register_of_loads {m : Machine H P F} {made : List Access} {h : H}
    (acc : Accessed F m.hart made h) (hl : ∀ y ∈ made, y.kind = .load) :
    { m with hart := h }.register = m.register :=
  register_of_spared acc fun r y hy => y.spares_of_load H (hl y hy) m.frame r

theorem register_writeCsr (m : Machine H P F) {c : Csr} (hc : c ≠ .mscratch) (v : Word) :
    { m with hart := writeCsr c v m.hart }.register = m.register := by
  funext r
  have hs : readCsr .mscratch (writeCsr c v m.hart) = readCsr .mscratch m.hart := by
    rw [FaithfulHart.readCsr_writeCsr, if_neg (Ne.symm hc)]
  exact register_congr m { m with hart := writeCsr c v m.hart } rfl hs
    (fun r => FaithfulHart.slot_writeCsr m.frame r c v m.hart) r

theorem register_setCsr (m : Machine H P F) {c : Csr} (hc : c ≠ .mscratch) (mask : Word) :
    { m with hart := setCsr c mask m.hart }.register = m.register := by
  rw [FaithfulHart.setCsr_eq]
  exact m.register_writeCsr hc _

theorem register_clearCsr (m : Machine H P F) {c : Csr} (hc : c ≠ .mscratch) (mask : Word) :
    { m with hart := clearCsr c mask m.hart }.register = m.register := by
  rw [FaithfulHart.clearCsr_eq]
  exact m.register_writeCsr hc _

omit [HartView H] [FaithfulHart H F] in
/-- All that the registers need of the hart is that `mscratch` holds what is written to it, apart from
the frame. -/
theorem register_setRegister_of_cell (m : Machine H P F)
    (hcell : ∀ v, readCsr .mscratch (writeCsr .mscratch v m.hart) = v)
    (hslot : ∀ v x, FrameStore.slot m.frame (writeCsr .mscratch v m.hart) x =
      FrameStore.slot m.frame m.hart x)
    (hscratch : ∀ r v, readCsr .mscratch (FrameStore.setSlot r v m.frame m.hart).2 =
      readCsr .mscratch m.hart)
    (r x : Reg) (v : Word) :
    (m.setRegister r v).register x = if x = r ∧ r ≠ Reg.zero then v else m.register x := by
  by_cases hr : r = Reg.zero
  · simp [setRegister, hr]
  · by_cases hsp : r = Reg.sp
    · have hsp0 : Reg.sp ≠ Reg.zero := by decide
      by_cases hx : x = Reg.sp
      · simp [setRegister, register, hcell, hsp, hx, hsp0]
      · simp [setRegister, register, hslot, hsp, hx, hsp0]
    · by_cases hx : x = r
      · simp [setRegister, register, hx, hr, hsp, FrameStore.slot_setSlot_self]
      · simp [setRegister, register, hr, hsp, hx, hscratch,
          FrameStore.slot_setSlot_of_ne r x v m.frame m.hart hx]

/-- What is written to a register is read from it, unless it is `x0`, and no other changes. -/
theorem register_setRegister (m : Machine H P F) (r x : Reg) (v : Word) :
    (m.setRegister r v).register x = if x = r ∧ r ≠ Reg.zero then v else m.register x := by
  refine m.register_setRegister_of_cell (fun v => ?_)
    (fun v x => FaithfulHart.slot_writeCsr m.frame x .mscratch v m.hart)
    (fun r v => FaithfulHart.readCsr_setSlot m.frame r v .mscratch m.hart) r x v
  rw [FaithfulHart.readCsr_writeCsr, if_pos rfl]

omit [HartView H] [FaithfulHart H F] in
theorem platform_setRegister (m : Machine H P F) (r : Reg) (v : Word) :
    (m.setRegister r v).platform = m.platform := by
  unfold setRegister
  split
  · rfl
  · split <;> rfl

/-- The stack pointer is the one register that is kept in a register of the hart. -/
theorem keepsBut_setRegister (m : Machine H P F) (r : Reg) (v : Word) :
    KeepsBut [.mscratch] m.hart (m.setRegister r v).hart := by
  unfold setRegister
  split
  · exact KeepsBut.refl _ _
  · split
    · exact KeepsBut.writeCsr _ _ _
    · exact (KeepsBut.setSlot r v m.frame m.hart).mono (by simp)

theorem agreeOutside_setRegister (m : Machine H P F) (r : Reg) (v : Word) :
    AgreeOutside H m.frame (HartView.memory (m.setRegister r v).hart) (HartView.memory m.hart) := by
  intro a ha
  unfold setRegister
  split
  · rfl
  · next h0 =>
    split
    · rw [FaithfulHart.memory_writeCsr]
    · next h2 => exact Classical.byContradiction fun hne => ha r h0 h2 ⟨m.hart, v, hne⟩

omit [FaithfulHart H F] in
theorem ready_setRegister [SteadyHart H F] (m : Machine H P F) (r : Reg) (v : Word)
    (hr : HartView.ready m.hart) : HartView.ready (m.setRegister r v).hart := by
  unfold setRegister
  split
  · exact hr
  · split
    · exact SteadyHart.ready_mscratch v m.hart hr
    · exact SteadyHart.ready_setSlot r v m.frame m.hart hr

end TrapMonitor.Machine
