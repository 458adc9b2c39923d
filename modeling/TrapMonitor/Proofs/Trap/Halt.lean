import TrapMonitor.Proofs.Core.Handling

/-! # Traps that halt the machine

Whether a trap is refused is known before anything is done for it. All that can have happened until
then is that the instruction was read, and on the core that leaves the registers which describe the
trap as they were.
-/
namespace TrapMonitor

open Hart Access

theorem Unsupported.orElse_eq_error_iff {α : Type} {u v : Unsupported} {x : Option α} :
    u.orElse x = .error v ↔ x = none ∧ v = u := by
  cases x <;> simp [orElse, eq_comm]

theorem SbiCall.ofNumber_eq_error_iff {n : Word} {u : Unsupported} :
    ofNumber n = .error u ↔ n ∉ all.map number ∧ u = .sbiCall n := by
  rw [ofNumber, Unsupported.orElse_eq_error_iff, select_eq_none]
  simp

namespace Exception

/-- The exceptions that something is done for. -/
def emulated : List Exception :=
  [illegalInstruction, loadAddressMisaligned, storeAddressMisaligned, supervisorCall]

theorem ofCode_mem_emulated_iff {c : Word} : ofCode c ∈ emulated ↔ c ∈ emulated.map code := by
  constructor
  · intro h
    exact List.mem_map.mpr ⟨_, h, code_ofCode c⟩
  · intro h
    obtain ⟨e, he, rfl⟩ := List.mem_map.mp h
    have hnamed : e ∈ named := by
      revert e
      decide
    rw [(ofCode_eq_iff hnamed).mpr rfl]
    exact he

end Exception

namespace Machine

section Reasons

variable {H P F : Type} [Hart H] [Platform P] [FrameStore H F]

/-- The machine halts for the reason `u`, with its hart left as `h`. -/
inductive Halts (m : Machine H P F) : Unsupported → H → Prop
  | interrupt {cause : Word} : readCsr .mcause m.hart = cause → cause.msb = true →
    cause &&& 0xff ≠ 7 → Halts m (.interrupt (cause &&& 0xff)) m.hart
  | exception {cause : Word} : readCsr .mcause m.hart = cause → cause.msb = false →
    cause ∉ [2, 4, 6, 9] → Halts m (.exception cause) m.hart
  | call {number : Word} : readCsr .mcause m.hart = 9 → m.register .a7 = number →
    number ∉ [0, 1, 2] → Halts m (.sbiCall number) m.hart
  | illegal {u : Unsupported} : readCsr .mcause m.hart = 2 → readCsr .mbadaddr m.hart ≠ 0 →
    Operation.ofIllegal ⟨readCsr .mbadaddr m.hart⟩ = .error u → Halts m u m.hart
  | fetched {w : Word} {u : Unsupported} {h : H} : readCsr .mcause m.hart = 2 →
    readCsr .mbadaddr m.hart = 0 → fetch (readCsr .mepc m.hart) m.hart = .ok w h →
    Operation.ofIllegal ⟨w⟩ = .error u → Halts m u h
  | load {w : Word} {u : Unsupported} {h : H} : readCsr .mcause m.hart = 4 →
    fetch (readCsr .mepc m.hart) m.hart = .ok w h →
    Operation.ofLoad ⟨w⟩ (readCsr .mbadaddr m.hart) = .error u → Halts m u h
  | store {w : Word} {u : Unsupported} {h : H} : readCsr .mcause m.hart = 6 →
    fetch (readCsr .mepc m.hart) m.hart = .ok w h →
    Operation.ofStore ⟨w⟩ (readCsr .mbadaddr m.hart) = .error u → Halts m u h

variable {e : Exception} {u : Unsupported} {m m' : Machine H P F} {h : H}

omit [Platform P] in
theorem refuses_of_notMem_emulated (s : TrapState) (he : e ∉ Exception.emulated) :
    Refuses e s m (.exception e.code) m.hart := by
  cases e with
  | illegalInstruction | loadAddressMisaligned | storeAddressMisaligned | supervisorCall =>
    exact absurd (by decide) he
  | _ => exact .intro rfl rfl

theorem decode_call_eq_error {s : TrapState} {n w : Word} :
    s.decode .supervisorCall n w = .error u ↔ n ∉ [0, 1, 2] ∧ u = .sbiCall n := by
  have hn : n ∉ [0, 1, 2] ↔ n ∉ SbiCall.all.map SbiCall.number := Iff.rfl
  rw [hn, ← SbiCall.ofNumber_eq_error_iff, TrapState.decode]
  cases SbiCall.ofNumber n <;> simp [Except.map]

omit [Platform P] in
theorem Refuses.halts (hc : Cause.ofWord (readCsr .mcause m.hart) = .exception e)
    (hu : Refuses e (.capture m.hart) m u h) : Halts m u h := by
  obtain ⟨hmsb, he⟩ := Cause.ofWord_eq_exception_iff.mp hc
  obtain ⟨hw, hd⟩ := hu
  have hcode : readCsr .mcause m.hart = e.code := by rw [he, Exception.code_ofCode]
  cases e with
  | loadAddressMisaligned => exact .load hcode hw hd
  | storeAddressMisaligned => exact .store hcode hw hd
  | illegalInstruction =>
    by_cases hz : readCsr .mbadaddr m.hart = 0
    · rw [TrapState.instructionWord_of_eq_zero hz] at hw
      exact .fetched hcode hz hw hd
    · rw [TrapState.instructionWord_of_ne_zero hz] at hw
      obtain ⟨rfl, rfl⟩ := pure_eq_ok.mp hw
      exact .illegal hcode hz hd
  | supervisorCall =>
    -- no word is obtained for a call, only the register that names it counts
    obtain ⟨rfl, rfl⟩ := pure_eq_ok.mp hw
    obtain ⟨hn, rfl⟩ := decode_call_eq_error.mp hd
    exact .call hcode rfl hn
  | _ =>
    obtain ⟨rfl, rfl⟩ := pure_eq_ok.mp hw
    have hcodes : readCsr .mcause m.hart ∉ [2, 4, 6, 9] := by
      intro hmem
      have hnone := Exception.ofCode_mem_emulated_iff.mpr hmem
      rw [← he] at hnone
      simp [Exception.emulated] at hnone
    cases hd
    rw [← hcode]
    exact .exception rfl hmsb hcodes

/-- Halts come from the interrupts that are not expected and from what is refused. -/
theorem handleTrap_eq_halted_iff :
    handleTrap m = (.halted u, m') ↔ ∃ h, Halts m u h ∧ m' = { m with hart := h } := by
  rw [handleTrap_eq_halted]
  constructor
  · rintro (⟨i, hc, hi, rfl, rfl⟩ | ⟨e, h, hc, hu, rfl⟩)
    · obtain ⟨hmsb, rfl⟩ := Cause.ofWord_eq_interrupt_iff.mp hc
      rw [Interrupt.code_ofCode]
      rw [Ne, Interrupt.ofCode_eq_machineTimer_iff] at hi
      exact ⟨_, .interrupt rfl hmsb hi, rfl⟩
    · exact ⟨h, hu.halts hc, rfl⟩
  · rintro ⟨h, hh, rfl⟩
    cases hh with
    | interrupt hc hmsb hi =>
      subst hc
      refine .inl ⟨_, Cause.ofWord_eq_interrupt_iff.mpr ⟨hmsb, rfl⟩, ?_, ?_, rfl⟩
      · rwa [Ne, Interrupt.ofCode_eq_machineTimer_iff]
      · rw [Interrupt.code_ofCode]
    | exception hc hmsb hn =>
      subst hc
      have he := mt Exception.ofCode_mem_emulated_iff.mp hn
      have hu := refuses_of_notMem_emulated (m := m) (.capture m.hart) he
      rw [Exception.code_ofCode] at hu
      exact .inr ⟨_, _, Cause.ofWord_eq_exception_iff.mpr ⟨hmsb, rfl⟩, hu, rfl⟩
    | call hc hn hs =>
      refine .inr ⟨.supervisorCall, _, by rw [hc]; rfl, ?_, rfl⟩
      exact .intro rfl (decode_call_eq_error.mpr ⟨hn ▸ hs, by rw [hn]⟩)
    | illegal hc hz hd =>
      refine .inr ⟨.illegalInstruction, _, by rw [hc]; rfl, ?_, rfl⟩
      refine .intro ?_ hd
      exact congrFun (TrapState.instructionWord_of_ne_zero hz) m.hart
    | fetched hc hz hw hd =>
      refine .inr ⟨.illegalInstruction, _, by rw [hc]; rfl, ?_, rfl⟩
      refine .intro ?_ hd
      exact (congrFun (TrapState.instructionWord_of_eq_zero hz) m.hart).trans hw
    | load hc hw hd => exact .inr ⟨.loadAddressMisaligned, _, by rw [hc]; rfl, .intro hw hd, rfl⟩
    | store hc hw hd => exact .inr ⟨.storeAddressMisaligned, _, by rw [hc]; rfl, .intro hw hd, rfl⟩

end Reasons

/-! ## No side effects -/

section Effects

variable {H P F : Type} [Hart H] [HartView H] [Platform P] [FrameStore H F] [FaithfulHart H F]
  {u : Unsupported} {m : Machine H P F} {h : H}

/-- Whether the instruction has to be read to know what the trap is about. -/
def ReadsInstruction (m : Machine H P F) : Prop :=
  readCsr .mcause m.hart = 4 ∨ readCsr .mcause m.hart = 6 ∨
    readCsr .mcause m.hart = 2 ∧ readCsr .mbadaddr m.hart = 0

/-- From `m` to `m'` nothing happened, except that an instruction may have been read. -/
structure Untouched (m m' : Machine H P F) : Prop where
  frame : m'.frame = m.frame
  slot : ∀ r, FrameStore.slot m'.frame m'.hart r = FrameStore.slot m.frame m.hart r
  memory : HartView.memory m'.hart = HartView.memory m.hart
  platform : m'.platform = m.platform
  log : m'.log = m.log
  csr : ∀ c, c ≠ .mtvec → readCsr c m'.hart = readCsr c m.hart
  accesses : ∀ y ∈ made m.hart m'.hart, y.kind = .load ∧ y.cause = none
  unread : ¬ ReadsInstruction m → m' = m ∧ made m.hart m'.hart = []
  read : ReadsInstruction m → made m.hart m'.hart ≠ []

omit [Platform P] [FaithfulHart H F] in
theorem untouched_self (hm : ¬ ReadsInstruction m) : Untouched m m where
  frame := rfl
  slot _ := rfl
  memory := rfl
  platform := rfl
  log := rfl
  csr _ _ := rfl
  accesses := by simp [made_eq_nil]
  unread _ := ⟨rfl, made_eq_nil rfl⟩
  read hread := absurd hread hm

omit [Platform P] in
theorem untouched_of_fetch {pc w : Word} (hr : HartView.ready m.hart) (hm : ReadsInstruction m)
    (hw : fetch pc m.hart = .ok w h) : Untouched m { m with hart := h } := by
  obtain ⟨loads, acc, hs, hk⟩ := (probes_fetch pc).ok hr hw
  have hmade := acc.made_eq rfl
  exact {
    frame := rfl
    slot := fun r => acc.slot m.frame r fun y hy => y.spares_of_load H (hk y hy) m.frame r
    memory := acc.memory_of_loads hk
    platform := rfl
    log := rfl
    csr := acc.csr
    accesses := fun y hy => ⟨hk y (hmade ▸ hy), hs y (hmade ▸ hy)⟩
    unread := fun hunread => absurd hm hunread
    read := fun _ => made_of_fetch_ne_nil hr hw }

omit [Platform P] in
theorem Halts.untouched (hh : Halts m u h) (hr : HartView.ready m.hart) :
    Untouched m { m with hart := h } := by
  cases hh with
  | interrupt hc hmsb hi =>
    refine untouched_self fun hread => ?_
    subst hc
    rcases hread with h4 | h6 | ⟨h2, -⟩
    · rw [h4] at hmsb
      cases hmsb
    · rw [h6] at hmsb
      cases hmsb
    · rw [h2] at hmsb
      cases hmsb
  | exception hc hmsb hn =>
    refine untouched_self fun hread => hn ?_
    subst hc
    rcases hread with h4 | h6 | ⟨h2, -⟩
    · simp [h4]
    · simp [h6]
    · simp [h2]
  | call hc hn hs => exact untouched_self (by simp [ReadsInstruction, hc])
  | illegal hc hz hd => exact untouched_self (by simpa [ReadsInstruction, hc] using hz)
  | fetched hc hz hw hd => exact untouched_of_fetch hr (.inr (.inr ⟨hc, hz⟩)) hw
  | load hc hw hd => exact untouched_of_fetch hr (.inl hc) hw
  | store hc hw hd => exact untouched_of_fetch hr (.inr (.inl hc)) hw

end Effects

end Machine

/-! ## The last words on the core -/

namespace Core

/-- From `c` to `d` instructions may have been read: the trap vector was moved to behind a barrier, and
the record of accesses continued. -/
def Loaded (c d : Core) : Prop :=
  ∃ v trace, (v = c.csr .mtvec ∨ v = Barrier.label) ∧ d = { c.setCsr .mtvec v with trace := trace }

theorem Loaded.refl (c : Core) : Loaded c c :=
  ⟨c.csr .mtvec, c.trace, .inl rfl, by rw [setCsr_self]⟩

theorem Loaded.load {c d : Core} (h : Loaded c d) (trace : List PrivilegedAccess) :
    Loaded c { d.setCsr .mtvec Barrier.label with trace := trace } := by
  obtain ⟨v, trace', -, rfl⟩ := h
  refine ⟨Barrier.label, trace, .inr rfl, ?_⟩
  rw [← setCsr_setCsr c .mtvec v Barrier.label]
  rfl

theorem Loaded.csr {c d : Core} (h : Loaded c d) {s : SystemCsr} (hs : s ≠ .mtvec) :
    d.csr s = c.csr s := by
  obtain ⟨v, trace, -, rfl⟩ := h
  exact if_neg hs

/-- An instruction is fetched with loads only. -/
theorem loaded_of_fetch {pc w : Word} {c c' : Core}
    (hm : Status.has (c.csr .mstatus) Status.mprv = false) (hw : fetch pc c = .ok w c') :
    Loaded c c' := by
  have hmprv : ∀ d, Loaded c d → Status.has (d.csr .mstatus) Status.mprv = false := by
    intro d hd
    rw [hd.csr (by decide)]
    exact hm
  have hload := keeps_load hmprv fun d trace hd => hd.load trace
  exact (Keeps.sequential.fetch hload pc).ok (.refl c) hw

end Core

namespace Machine

/-- A core is changed by the reading of an instruction, and not otherwise. -/
theorem Halts.loaded {P : Type} {m : Machine Core P Core.FrameAddress} {u : Unsupported}
    {h : Core} (hh : Halts m u h)
    (hm : Status.has (m.hart.csr .mstatus) Status.mprv = false) :
    h = m.hart ∨ ReadsInstruction m ∧ Core.Loaded m.hart h := by
  cases hh with
  | interrupt | exception | call | illegal => exact .inl rfl
  | fetched hc hz hw _ => exact .inr ⟨.inr (.inr ⟨hc, hz⟩), Core.loaded_of_fetch hm hw⟩
  | load hc hw _ => exact .inr ⟨.inl hc, Core.loaded_of_fetch hm hw⟩
  | store hc hw _ => exact .inr ⟨.inr (.inl hc), Core.loaded_of_fetch hm hw⟩

end Machine

namespace Board

variable {U T D : Type} [Bus U] [Bus T] [Bus D]

/-- What is logged when the machine halts. -/
def lastWords (u : Unsupported) (t : TrapInfo) : List Record :=
  [⟨.error, "emulator::arch::entry", "halting the machine: " ++ u.message⟩,
    ⟨.error, "emulator::arch::entry", t.report.block⟩]

/-- The board `b'` is `b` after the handler was called and halted the machine because of `u`. What was
logged last is the reason, and the trap that the registers of `b` describe. -/
structure Halted (b : Board U T D) (u : Unsupported) (b' : Board U T D) : Prop where
  halts : Machine.Halts (b.machine (b.core.reg .a0)) u b'.core
  core : b'.core = b.core ∨
    Machine.ReadsInstruction (b.machine (b.core.reg .a0)) ∧ Core.Loaded b.core b'.core
  platform : b'.platform = Platform.halt b.platform
  log : b'.log = b.log ++ lastWords u {
    epc := b.core.csr .mepc
    cause := .ofWord (b.core.csr .mcause)
    badAddress := b.core.csr .mtval
    status := b.core.csr .mstatus }

theorem halted_of_handler {b : Board U T D} {leftovers : Reg → Word}
    (hm : Status.has (b.core.csr .mstatus) Status.mprv = false)
    (hh : (handler leftovers b).1 = .halted) : ∃ u, Halted b u (handler leftovers b).2 := by
  obtain ⟨u, m', ho⟩ := handleTrap_of_halted hh
  obtain ⟨h, halts, rfl⟩ := Machine.handleTrap_eq_halted_iff.mp ho
  have hcore := halts.loaded hm
  -- reading an instruction leaves the registers that describe the trap
  have hcsr {s : SystemCsr} (hs : s ≠ .mtvec) : h.csr s = b.core.csr s := by
    rcases hcore with rfl | ⟨-, hl⟩
    · rfl
    · exact hl.csr hs
  have hinfo : TrapInfo.current h = {
      epc := b.core.csr .mepc
      cause := .ofWord (b.core.csr .mcause)
      badAddress := b.core.csr .mtval
      status := b.core.csr .mstatus } := by
    rw [← hcsr (s := .mepc) (by decide), ← hcsr (s := .mcause) (by decide),
      ← hcsr (s := .mtval) (by decide), ← hcsr (s := .mstatus) (by decide)]
    simp only [TrapInfo.current, TrapInfo.ofWords, Core.readCsr_eq]
    rfl
  rw [handler_of_halted ho]
  refine ⟨u, halts, hcore, rfl, ?_⟩
  rw [← hinfo]
  simp only [halt, Machine.record, List.append_assoc]
  rfl

/-- What the machine says last is the trap as the core took it. -/
theorem log_of_raise_halted {b : Board U T D} {leftovers : Reg → Word} {cause tval : Word}
    (hvec : b.core.csr .mtvec = Core.trapEntry)
    (hm : Status.has (b.core.csr .mstatus) Status.mprv = false)
    (hf : Core.FrameFits (b.core.csr .mscratch))
    (hmode : b.core.bank = none ∨ b.core.mode.BelowMachine)
    (hh : (raise leftovers cause tval b).1 = .halted) :
    ∃ u, Machine.Halts (b.trapped cause tval) u (raise leftovers cause tval b).2.core ∧
      (raise leftovers cause tval b).2.log = b.log ++ lastWords u {
        epc := b.core.pc
        cause := .ofWord cause
        badAddress := tval
        status := Status.enterMachine b.core.mode (b.core.csr .mstatus) } := by
  rw [raise_eq_handler hvec hm hf hmode] at hh ⊢
  cases ho : handler leftovers (b.called cause tval) with
  | mk e b' =>
  rw [ho] at hh
  cases e with
  | halted =>
    have hend : (handler leftovers (b.called cause tval)).1 = .halted := by rw [ho]
    obtain ⟨u, hb⟩ := halted_of_handler (ready_trapped hm hmode cause tval).1 hend
    rw [ho] at hb
    exact ⟨u, hb.halts, hb.log⟩
  | _ => cases hh

omit [Bus U] [Bus T] [Bus D] in
/-- A board with nothing in its memory, in machine mode after a trap with this cause. -/
def blank (cause : Word) : Board Block Block Block where
  core :=
    { x := fun _ => 0
      csr := fun s => match s with
        | .mcause => cause
        | .mepc => 0x80000100
        | .mtval => 0x80000201
        | _ => 0
      pc := 0
      mode := Mode.machine
      pmp := true
      memory := ⟨Memory.zero, ⟨[], [], [], []⟩⟩
      bank := none
      trace := [] }
  platform := ⟨⟨[]⟩, ⟨[]⟩, ⟨[]⟩, false⟩
  log := []

end Board

namespace Machine

variable {H P F : Type} [Hart H] [HartView H] [Platform P] [FrameStore H F] [FaithfulHart H F]

/-- Halts are exact, and without side effects: the reasons are those of `Halts`, nothing is refused
once it is begun, and on the core the last words describe the trap that was taken, in the registers
that the handler was called with and as the core took it. -/
theorem handleTrap_halted (m : Machine H P F) :
    (∀ u m', handleTrap m = (.halted u, m') ↔ ∃ h, Halts m u h ∧ m' = { m with hart := h }) ∧
      (HartView.ready m.hart → ∀ u m', handleTrap m = (.halted u, m') → Untouched m m') ∧
      (∀ op u m₁ m₂, execute op m₁ ≠ (.error (.unsupported u) m₂ :
        EStateM.Result EmulationError (Machine H P F) Unit)) ∧
      ∀ (U T D : Type) [Bus U] [Bus T] [Bus D] (leftovers : Reg → Word) (b : Board U T D),
        Status.has (b.core.csr .mstatus) Status.mprv = false →
        ((Board.handler leftovers b).1 = .halted →
          ∃ u, Board.Halted b u (Board.handler leftovers b).2) ∧
        ∀ cause tval, b.core.csr .mtvec = Core.trapEntry →
          Core.FrameFits (b.core.csr .mscratch) →
          (b.core.bank = none ∨ b.core.mode.BelowMachine) →
          (Board.raise leftovers cause tval b).1 = .halted →
          ∃ u, Halts (b.trapped cause tval) u (Board.raise leftovers cause tval b).2.core ∧
            (Board.raise leftovers cause tval b).2.log = b.log ++ Board.lastWords u {
              epc := b.core.pc
              cause := .ofWord cause
              badAddress := tval
              status := Status.enterMachine b.core.mode (b.core.csr .mstatus) } := by
  refine ⟨fun u m' => handleTrap_eq_halted_iff, ?_, ?_, ?_⟩
  · intro hr u m' hm'
    obtain ⟨h, hh, rfl⟩ := handleTrap_eq_halted_iff.mp hm'
    exact hh.untouched hr
  · intro op u m₁ m₂
    exact execute_ne_unsupported
  · intro U T D _ _ _ leftovers b hm
    refine ⟨Board.halted_of_handler hm, fun cause tval hvec hf hmode => ?_⟩
    exact Board.log_of_raise_halted hvec hm hf hmode

/-- A misaligned load whose instruction turns out to be compressed, and calls on a core, one from
machine mode and one from a user program. -/
theorem handleTrap_halted_compressed :
    let m := trappedOn 0x00004501 4 0x80000201 (fun _ => 0) 0
    let b := Board.blank 11
    let c := { b with core := { (b.core.setCsr .mtvec Core.trapEntry).setCsr .mscratch 0x2000ff80 with
      pc := 0x80000300, mode := Mode.user } }
    (∃ h, Halts m (.compressedInstruction 0x4501) h) ∧ Untouched m (handleTrap m).2 ∧
      (∃ u, (Board.handler (fun _ => 0) b).2.log =
        Board.lastWords u ⟨0x80000100, .exception .machineCall, 0x80000201, 0⟩) ∧
      ∃ u, (Board.raise (fun _ => 0) 8 5 c).2.log =
        Board.lastWords u ⟨0x80000300, .exception .userCall, 5, 0⟩ := by
  intro m b c
  obtain ⟨halts, untouched, -, words⟩ := handleTrap_halted m
  have hres : (handleTrap m).1 = .halted (.compressedInstruction 0x4501) := by decide +kernel
  have hpair : handleTrap m = (.halted (.compressedInstruction 0x4501), (handleTrap m).2) :=
    Prod.ext hres rfl
  obtain ⟨h, hh, -⟩ := (halts _ _).mp hpair
  have hstop : (Board.handler (fun _ => 0) b).1 = .halted := by decide +kernel
  have hraise : (Board.raise (fun _ => 0) 8 5 c).1 = .halted := by decide +kernel
  obtain ⟨u, hb⟩ := (words Block Block Block (fun _ => 0) b (by decide)).1 hstop
  obtain ⟨v, -, hc⟩ := (words Block Block Block (fun _ => 0) c (by decide)).2 8 5 rfl
    ⟨by decide, by decide, by decide⟩ (.inl rfl) hraise
  have hmachine : Cause.ofWord (b.core.csr .mcause) = .exception .machineCall := by decide
  have huser : Cause.ofWord 8 = .exception .userCall := by decide
  have hstatus : Status.enterMachine c.core.mode (c.core.csr .mstatus) = 0 := by decide
  refine ⟨⟨h, hh⟩, untouched rfl _ _ hpair, ⟨u, ?_⟩, v, ?_⟩
  · rw [hb.log, hmachine]
    rfl
  · rw [hc, huser, hstatus]
    rfl

end Machine

end TrapMonitor
