import TrapMonitor.Proofs.Isa.Encoding
import TrapMonitor.Proofs.Trap.Meaning

/-! # Emulation is transparent

To the trapped code an emulated instruction is one step of the architecture: the registers, the
memory and the program counter are what the instruction would have made of them. An emulation does
what its operation says, so it is enough to compare that with the step.
-/
namespace TrapMonitor

open Hart Access

namespace Platform

/-- The time that a platform shows, read in two halves. -/
def time {P : Type} [Platform P] (p : P) : DoubleWord := .ofHalves (readLow p).1 (readHigh p).1

end Platform

/-! ## Operations and their meaning -/

namespace Rv32

/-- The exception with which the core leaves the instruction to the monitor. -/
def Emulated.exception : Emulated → Exception
  | .load .. => .loadAddressMisaligned
  | .store .. => .storeAddressMisaligned
  | .amo .. | .counter .. => .illegalInstruction

/-- The operation that the instruction is decoded to; loads and stores take the address from the
trap. -/
def Emulated.operation (address : Word) : Emulated → Operation
  | .load op rd _ _ => .unalignedLoad op.kind rd address
  | .store op rs2 _ _ => .unalignedStore op.kind rs2 address
  | .amo op _ _ rd rs1 rs2 => .atomic op.op rd rs1 rs2
  | .counter _ c rd => .counterRead c.half rd

theorem wordAt_eq_word (m : Memory) (a : Word) : wordAt m a = m.word a :=
  (m.word_eq_append a).symm

/-- The bytes of a load, put together and extended, are the value of the load. -/
theorem extend_ofBytes_peek (op : Load) (m : Memory) (a : Word) :
    op.kind.extend (.ofBytes (m.peek a op.kind.size)) = op.value m a := by
  have hhalf : ((m.half a).setWidth 32).setWidth 16 = m.half a := by simp
  cases op with
  | lh =>
    simp only [Load.kind, LoadKind.size, LoadKind.extend, Memory.ofBytes_peek_two, hhalf]
    rfl
  | lhu =>
    simp only [Load.kind, LoadKind.size, LoadKind.extend, Memory.ofBytes_peek_two, hhalf]
    rfl
  | lw => exact (wordAt_eq_word m a).symm

theorem apply_op (op : Amo) (src old : Word) : op.op.apply src old = some (op.result src old) := by
  cases op with
  | swap => rfl
  | add => exact congrArg some (BitVec.add_comm old src)
  | xor => exact congrArg some (BitVec.xor_comm old src)
  | and => exact congrArg some (BitVec.and_comm old src)
  | or => exact congrArg some (BitVec.or_comm old src)
  | min =>
    simp only [Amo.op, AmoOp.apply, Amo.result, BitVec.slt_iff_toInt_lt, Option.some.injEq]
    split
    · next h => rw [Int.min_eq_right (Int.le_of_lt h), BitVec.ofInt_toInt]
    · next h => rw [Int.min_eq_left (Int.not_lt.mp h), BitVec.ofInt_toInt]
  | max =>
    simp only [Amo.op, AmoOp.apply, Amo.result, BitVec.slt_iff_toInt_lt, Option.some.injEq]
    split
    · next h => rw [Int.max_eq_left (Int.le_of_lt h), BitVec.ofInt_toInt]
    · next h => rw [Int.max_eq_right (Int.not_lt.mp h), BitVec.ofInt_toInt]
  | minu =>
    simp only [Amo.op, AmoOp.apply, Amo.result, BitVec.ult_iff_toNat_lt, Option.some.injEq]
    split
    · next h => simp [Nat.min_eq_right (Nat.le_of_lt h)]
    · next h => simp [Nat.min_eq_left (Nat.le_of_not_lt h)]
  | maxu =>
    simp only [Amo.op, AmoOp.apply, Amo.result, BitVec.ult_iff_toNat_lt, Option.some.injEq]
    split
    · next h => simp [Nat.max_eq_left (Nat.le_of_lt h)]
    · next h => simp [Nat.max_eq_right (Nat.le_of_not_lt h)]

/-- All counters show the platform's time. -/
theorem read_time (c : Counter) {P : Type} [Platform P] (p : P) :
    c.read (Platform.time p) = (Machine.readCounter c.half p).1 := by
  have hlow : (Platform.time p).extractLsb' 0 32 = (Platform.readLow p).1 := by
    rw [Platform.time, ← BitVec.setWidth_eq_extractLsb' (by decide)]
    exact DoubleWord.low_ofHalves _ _
  have hhigh : (Platform.time p).extractLsb' 32 32 = (Platform.readHigh p).1 := by
    refine Eq.trans ?_ (DoubleWord.high_ofHalves (Platform.readLow p).1 _)
    apply BitVec.eq_of_getLsbD_eq
    intro i hi
    simp [DoubleWord.high, Platform.time, hi]
  cases c with
  | cycle | time | instret => exact hlow
  | cycleh | timeh | instreth => exact hhigh

end Rv32

/-! ## One instruction -/

namespace Machine

open Rv32

variable {H P F : Type} [Hart H] [HartView H] [Platform P] [FrameStore H F] [LawfulHart H F]

/-- What the trapped code sees of the machine. -/
def trapped (m : Machine H P F) : Rv32.State where
  reg := m.register
  pc := readCsr .mepc m.hart
  memory := HartView.memory m.hart

omit [Platform P] [LawfulHart H F] in
/-- Fetching is not seen by the trapped code. -/
theorem trapped_of_loads {m : Machine H P F} {made : List Access} {h : H}
    (acc : Accessed F m.hart made h) (hl : ∀ y ∈ made, y.kind = .load) :
    { m with hart := h }.trapped = m.trapped := by
  have hpc : readCsr .mepc h = readCsr .mepc m.hart := acc.csr .mepc (by decide)
  simp only [trapped, register_of_loads acc hl, hpc, acc.memory_of_loads hl]

omit [Platform P] in
/-- A raised instruction is the one that is obtained. -/
theorem instructionWord_eq_encode {i : Emulated} {m : Machine H P F} {w : Word} {h : H}
    (hr : HartView.ready m.hart)
    (hi : Raises i m.trapped (readCsr .mcause m.hart) (readCsr .mbadaddr m.hart))
    (hw : (TrapState.capture m.hart).instructionWord i.exception m.hart = .ok w h) :
    w = encode i := by
  have hfetch {w : Word} (hm : wordAt (HartView.memory m.hart) (readCsr .mepc m.hart) = encode i)
      (hx : fetch (readCsr .mepc m.hart) m.hart = .ok w h) : w = encode i := by
    rw [wordAt_eq_word] at hm
    rw [fetch_eq_ok hr hx, Memory.fetched, hm, if_pos (.inr (encode_and_three i))]
  have hillegal (hv : readCsr .mbadaddr m.hart = encode i ∨ readCsr .mbadaddr m.hart = 0 ∧
      wordAt (HartView.memory m.hart) (readCsr .mepc m.hart) = encode i)
      (hx : (TrapState.capture m.hart).instructionWord .illegalInstruction m.hart = .ok w h) :
      w = encode i := by
    rcases hv with hv | ⟨hv, hm⟩
    · have hne : readCsr .mbadaddr m.hart ≠ 0 := hv ▸ encode_ne_zero i
      rw [TrapState.instructionWord_of_ne_zero hne] at hx
      exact (pure_eq_ok.mp hx).1.symm.trans hv
    · rw [TrapState.instructionWord_of_eq_zero hv] at hx
      exact hfetch hm hx
  cases i with
  | load op rd rs1 offset => exact hfetch hi.2.2 hw
  | store op rs2 rs1 offset => exact hfetch hi.2.2 hw
  | amo op aq rl rd rs1 rs2 => exact hillegal hi.2 hw
  | counter form c rd => exact hillegal hi.2 hw

omit [HartView H] [Platform P] [FrameStore H F] [LawfulHart H F] in
theorem decode_encode (i : Emulated) (s : TrapState) (number : Word) :
    s.decode i.exception number (encode i) = .ok (i.operation s.mbadaddr) := by
  cases i with
  | load op rd rs1 offset => exact ofLoad_encode op rd rs1 offset _
  | store op rs2 rs1 offset => exact ofStore_encode op rs2 rs1 offset _
  | amo op aq rl rd rs1 rs2 => exact ofIllegal_encode_amo op aq rl rd rs1 rs2
  | counter form c rd => exact ofIllegal_encode_counter form c rd

/-- The machine has the registers and the memory of `s`. -/
structure Agrees (m : Machine H P F) (s : Rv32.State) : Prop where
  register : m.register = s.reg
  memory : HartView.memory m.hart = s.memory

variable {m : Machine H P F} {op : Operation} {v : Word} {h : H}

omit [LawfulHart H F] in
theorem registerAfter_eq_write {rd : Reg} (hd : op.destination = some rd)
    (hv : m.produced (m.loaded op) op = v) : m.registerAfter op = (m.trapped.write rd v).reg := by
  funext x
  rw [registerAfter, hd, hv, State.write, trapped]
  by_cases hx : x = rd
  · subst hx
    simp only [true_and]
    rfl
  · simp [hx, Ne.symm hx]

theorem isReservation_op (op : Amo) : op.op.isReservation = false := by
  cases op <;> rfl

omit [LawfulHart H F] in
/-- What the operation says is what the instruction does. -/
theorem step_eq_after {i : Emulated} {cause address : Word} (hi : Raises i m.trapped cause address) :
    (Rv32.step (Platform.time m.platform) i m.trapped).reg =
        m.registerAfter (i.operation address) ∧
      (Rv32.step (Platform.time m.platform) i m.trapped).memory =
        m.memoryAfter (i.operation address) := by
  cases i with
  | load op rd rs1 offset =>
    obtain ⟨-, rfl, -⟩ := hi
    let a := m.trapped.reg rs1 + offset.signExtend 32
    have hvalue : m.produced (m.loaded (.unalignedLoad op.kind rd a))
        (.unalignedLoad op.kind rd a) = op.value m.trapped.memory a := extend_ofBytes_peek op _ a
    exact ⟨(registerAfter_eq_write rfl hvalue).symm, rfl⟩
  | store op rs2 rs1 offset =>
    obtain ⟨-, rfl, -⟩ := hi
    refine ⟨(funext fun r => if_neg (by simp [Emulated.operation, Operation.destination])).symm, ?_⟩
    cases op <;> rfl
  | amo op aq rl rd rs1 rs2 =>
    have hold := wordAt_eq_word m.trapped.memory (m.trapped.reg rs1)
    have hd : (Operation.atomic op.op rd rs1 rs2).destination = some rd := by
      rw [Operation.destination, isReservation_op]
      rfl
    refine ⟨(registerAfter_eq_write hd hold.symm).symm, ?_⟩
    simp only [Emulated.operation, memoryAfter, apply_op]
    simp only [Rv32.step, hold]
    rfl
  | counter form c rd =>
    have hvalue : m.produced (m.loaded (.counterRead c.half rd)) (.counterRead c.half rd) =
        c.read (Platform.time m.platform) := (read_time c m.platform).symm
    exact ⟨(registerAfter_eq_write rfl hvalue).symm, rfl⟩

/-- An operation whose accesses are all made does to registers and memory what the instruction
does. -/
theorem agrees_step {i : Emulated} {cause address : Word} (hr : HartView.ready m.hart)
    (hi : Raises i m.trapped cause address)
    (hv : m.operand (i.operation address) m.hart = .ok v h) :
    Agrees (m.complete (i.operation address) v h)
      (Rv32.step (Platform.time m.platform) i m.trapped) := by
  obtain ⟨hreg, hmem⟩ := step_eq_after hi
  obtain ⟨hregister, hmemory⟩ := effect_of_operand hr (m.sparesFrame _) hv
  exact ⟨hregister.trans hreg.symm, hmemory.eq.trans hmem.symm⟩

/-! ## The whole trap -/

omit [Platform P] in
/-- The return goes behind the instruction, as the step does. -/
theorem trapped_resume {s : TrapState} {s' : Rv32.State} (ha : Agrees m s')
    (hpc : s'.pc = s.mepc + 4) : (resume s m).trapped = s' := by
  have hepc : readCsr .mepc (resume s m).hart = s'.pc := by
    simp only [resume, restoreTrapVector, FaithfulHart.readCsr_writeCsr, hpc]
    rfl
  simp only [trapped, hepc, register_resume, memory_resume, ha.register, ha.memory]

omit [Platform P] in
theorem ofWord_of_raises {i : Emulated} {s : Rv32.State} {cause value : Word}
    (hi : Raises i s cause value) : Cause.ofWord cause = .exception i.exception := by
  cases i with
  | _ =>
    obtain ⟨rfl, -⟩ := hi
    rfl

/-- Emulation is transparent: the trap that an emulated instruction raises is resumed unless an
access is refused, and whenever it is resumed, the trapped code sees one step of the
instruction. -/
theorem handleTrap_transparent (i : Emulated) (m : Machine H P F) (hr : HartView.ready m.hart)
    (hi : Raises i m.trapped (readCsr .mcause m.hart) (readCsr .mbadaddr m.hart)) :
    (AllSucceed (made m.hart (handleTrap m).2.hart) → (handleTrap m).1 = .resumed) ∧
      ((handleTrap m).1 = .resumed →
        (handleTrap m).2.trapped = Rv32.step (Platform.time m.platform) i m.trapped) := by
  have hc := ofWord_of_raises hi
  have hword {w : Word} {h : H}
      (hw : (TrapState.capture m.hart).instructionWord i.exception m.hart = .ok w h) :
      (TrapState.capture m.hart).decode i.exception (m.register .a7) w =
        .ok (i.operation (readCsr .mbadaddr m.hart)) := by
    rw [instructionWord_eq_encode hr hi hw]
    exact decode_encode i (.capture m.hart) _
  constructor
  · intro hs
    cases ho : handleTrap m with
    | mk o m' =>
    rw [ho] at hs
    cases o with
    | resumed => rfl
    | delegated f =>
      obtain ⟨e, h, -, hf, rfl⟩ := handleTrap_eq_delegated.mp ho
      -- a delegation stops at a refused access, but there is none
      obtain ⟨made, acc, hstop⟩ := hf.accessed hr
      rw [acc.made_eq ((TrapState.capture m.hart).keepsBut_delegate h).trace] at hs
      exact absurd hs (not_allSucceed_of_stopsWith hstop)
    | halted u =>
      -- the instruction that was raised is never refused
      rcases handleTrap_eq_halted.mp ho with ⟨j, hj, -⟩ | ⟨e, h, he, ⟨hw, hd⟩, -⟩
      · rw [hc] at hj
        cases hj
      · rw [hc] at he
        cases he
        rw [hword hw] at hd
        cases hd
  · intro hres
    cases ho : handleTrap m with
    | mk o m' =>
    rw [ho] at hres
    obtain rfl := hres
    rcases handleTrap_eq_resumed.mp ho with ⟨hj, -⟩ | ⟨e, op, m₁, he, ⟨hw, hd, hv⟩, rfl⟩
    · rw [hc] at hj
      cases hj
    · rw [hc] at he
      cases he
      rw [hword hw] at hd
      cases hd
      obtain ⟨fetches, acc, -, hl⟩ := (TrapState.probes_instructionWord _ _).ok hr hw
      have ht := trapped_of_loads acc hl
      rw [← ht] at hi ⊢
      refine trapped_resume (agrees_step acc.ready hi hv) ?_
      rw [ht]
      cases i <;> rfl

/-- A load of a misaligned word into the register that holds its address. -/
theorem handleTrap_transparent_load :
    let i : Emulated := .load .lw 10 10 1
    let m := trappedOn (encode i) 4 0x80000201 (fun _ => 0x80000200) 0
    (handleTrap m).1 = .resumed ∧
      (handleTrap m).2.trapped = Rv32.step (Platform.time m.platform) i m.trapped := by
  intro i m
  have hi : Raises i m.trapped (readCsr .mcause m.hart) (readCsr .mbadaddr m.hart) :=
    ⟨rfl, by decide, by decide⟩
  have htrap := handleTrap_transparent i m rfl hi
  have hres : (handleTrap m).1 = .resumed := by decide +kernel
  exact ⟨hres, htrap.2 hres⟩

end Machine

end TrapMonitor
