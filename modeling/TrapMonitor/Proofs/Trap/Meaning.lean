import TrapMonitor.Proofs.Hart.Within
import TrapMonitor.Proofs.Trap.Delegation

/-! # What a trap asks for

A trap asks for an operation, and the operation says which register is to hold which value and what
memory is to become. A trap that resumes has done just that to the registers and to memory; one that
is delegated has changed no register, and of memory at most the first bytes that a store asks for.
Where the frame lies in memory this takes an operation that does not store to it.
-/
namespace TrapMonitor

open Hart Access

/-! ## Operations -/

/-- The two operations that come in pairs, which are skipped. -/
def AmoOp.isReservation : AmoOp → Bool
  | loadReserved => true
  | storeConditional => true
  | _ => false

theorem AmoOp.isReservation_of_apply_eq_none {op : AmoOp} {src old : Word}
    (h : op.apply src old = none) : op.isReservation = true := by
  cases op <;> simp [apply] at h <;> rfl

theorem AmoOp.isReservation_of_apply_eq_some {op : AmoOp} {src old new : Word}
    (h : op.apply src old = some new) : op.isReservation = false := by
  cases op <;> simp [apply] at h <;> rfl

/-- The register that an operation writes. -/
def Operation.destination : Operation → Option Reg
  | unalignedLoad _ rd _ => some rd
  | unalignedStore _ _ _ => none
  | atomic op rd _ _ => if op.isReservation then none else some rd
  | counterRead _ rd => some rd
  | sbi .consoleGetchar => some .a0
  | sbi _ => none

namespace Memory

theorem fetched_congr {m m' : Memory} {pc : Word} (h : m'.word pc = m.word pc) :
    m'.fetched pc = m.fetched pc := by
  rw [fetched, fetched, h]

end Memory

variable {H P F : Type} [Hart H] [HartView H] [Platform P] [FrameStore H F]

namespace TrapState

/-- The word that is decoded. -/
def word (s : TrapState) (e : Exception) (memory : Memory) : Word :=
  match e with
  | .loadAddressMisaligned | .storeAddressMisaligned => memory.fetched s.mepc
  | .illegalInstruction => if s.mbadaddr ≠ 0 then s.mbadaddr else memory.fetched s.mepc
  | _ => 0

theorem word_congr {s s' : TrapState} {m m' : Memory} (hepc : s'.mepc = s.mepc)
    (hbad : s'.mbadaddr = s.mbadaddr) (h : m'.word s.mepc = m.word s.mepc) (e : Exception) :
    s'.word e m' = s.word e m := by
  have hfetched : m'.fetched s'.mepc = m.fetched s.mepc := by
    rw [hepc]
    exact Memory.fetched_congr h
  cases e with
  | loadAddressMisaligned | storeAddressMisaligned => exact hfetched
  | illegalInstruction => rw [word, word, hbad, hfetched]
  | _ => rfl

theorem decode_congr {s s' : TrapState} (hbad : s'.mbadaddr = s.mbadaddr) (e : Exception)
    (number w : Word) : s'.decode e number w = s.decode e number w := by
  cases e with
  | loadAddressMisaligned | storeAddressMisaligned => rw [decode, decode, hbad]
  | _ => rfl

theorem instructionWord_eq_ok [FaithfulHart H F] {s : TrapState} {e : Exception} {w : Word}
    {h h' : H} (hr : HartView.ready h) (hw : s.instructionWord e h = .ok w h') :
    w = s.word e (HartView.memory h) := by
  cases e with
  | loadAddressMisaligned | storeAddressMisaligned => exact fetch_eq_ok hr hw
  | illegalInstruction =>
    by_cases hz : s.mbadaddr = 0
    · rw [instructionWord_of_eq_zero hz] at hw
      rw [word, if_neg fun hne => hne hz]
      exact fetch_eq_ok hr hw
    · rw [instructionWord_of_ne_zero hz] at hw
      rw [word, if_pos hz]
      exact (pure_eq_ok.mp hw).1.symm
  | _ => exact (pure_eq_ok.mp hw).1.symm

end TrapState

namespace Machine

/-- What the trap of a machine asks for. -/
def asked (m : Machine H P F) : Option Operation :=
  match Cause.ofWord (readCsr .mcause m.hart) with
  | .interrupt _ => none
  | .exception e =>
    let s := TrapState.capture m.hart
    (s.decode e (m.register .a7) (s.word e (HartView.memory m.hart))).toOption

/-- What an operation loads. -/
def loaded (m : Machine H P F) : Operation → Word
  | .unalignedLoad kind _ a => .ofBytes ((HartView.memory m.hart).peek a kind.size)
  | .atomic _ _ addr _ => (HartView.memory m.hart).word (m.register addr)
  | _ => 0

/-- The value that an operation has for its destination, when `v` was loaded. -/
def produced (m : Machine H P F) (v : Word) : Operation → Word
  | .unalignedLoad kind _ _ => kind.extend v
  | .counterRead half _ => (readCounter half m.platform).1
  | .sbi _ => getcharResult (Platform.tryRead m.platform).1
  | _ => v

/-- What a register is to hold after an operation. -/
def registerAfter (m : Machine H P F) (op : Operation) (r : Reg) : Word :=
  if op.destination = some r ∧ r ≠ Reg.zero then m.produced (m.loaded op) op else m.register r

/-- What memory is to hold after an operation. -/
def memoryAfter (m : Machine H P F) (op : Operation) : Memory :=
  match op with
  | .unalignedStore kind src a =>
    (HartView.memory m.hart).storeLow a kind.size (m.register src)
  | .atomic amo _ addr src =>
    match amo.apply (m.register src) (m.loaded op) with
    | some new => (HartView.memory m.hart).storeLow (m.register addr) 4 new
    | none => HartView.memory m.hart
  | _ => HartView.memory m.hart

/-- The bytes that an operation stores to. -/
def Stores (m : Machine H P F) (op : Operation) (x : Word) : Prop :=
  match op with
  | .unalignedStore kind _ a => (x - a).toNat < kind.size
  | .atomic amo _ addr _ => amo.isReservation = false ∧ (x - m.register addr).toNat < 4
  | _ => False

/-- The operation stores to no byte of the frame. -/
def SparesFrame (m : Machine H P F) (op : Operation) : Prop :=
  ∀ a r, m.Stores op a → ¬ InSlot H m.frame r a

omit [Platform P] in
theorem sparesFrame [LawfulHart H F] (m : Machine H P F) (op : Operation) : m.SparesFrame op :=
  fun a r _ => not_inSlot m.frame r a

omit [Platform P] in
theorem byte_memoryAfter {m : Machine H P F} {op : Operation} {x : Word} (hx : ¬ m.Stores op x) :
    (m.memoryAfter op).byte x = (HartView.memory m.hart).byte x := by
  cases op with
  | unalignedStore kind src a => exact if_neg hx
  | atomic amo rd addr src =>
    rw [memoryAfter]
    split
    · next new hnew =>
      exact if_neg fun h => hx ⟨AmoOp.isReservation_of_apply_eq_some hnew, h⟩
    · rfl
  | _ => rfl

omit [Platform P] in
/-- A trap is known by the trap registers, the number of a call and the instruction in memory. -/
theorem asked_congr {m m' : Machine H P F}
    (hcsr : ∀ c ∈ [Csr.mepc, .mcause, .mbadaddr], readCsr c m'.hart = readCsr c m.hart)
    (hreg : m'.register = m.register)
    (hword : (HartView.memory m'.hart).word (readCsr .mepc m.hart) =
      (HartView.memory m.hart).word (readCsr .mepc m.hart)) : m'.asked = m.asked := by
  have hepc := hcsr .mepc (by simp)
  have hcause := hcsr .mcause (by simp)
  have hbad := hcsr .mbadaddr (by simp)
  unfold asked
  rw [hcause, hreg]
  split
  · rfl
  · next e he =>
    dsimp only
    rw [TrapState.decode_congr (s := .capture m.hart) hbad,
      TrapState.word_congr (s := .capture m.hart) hepc hbad hword]

omit [Platform P] in
theorem exception_of_asked {m : Machine H P F} {op : Operation} (hop : m.asked = some op) :
    ∃ e, Cause.ofWord (readCsr .mcause m.hart) = .exception e ∧
      (TrapState.capture m.hart).decode e (m.register .a7)
        ((TrapState.capture m.hart).word e (HartView.memory m.hart)) = .ok op := by
  unfold asked at hop
  split at hop
  · cases hop
  · next e hc =>
    refine ⟨e, hc, ?_⟩
    dsimp only at hop
    cases hd : (TrapState.capture m.hart).decode e (m.register .a7)
        ((TrapState.capture m.hart).word e (HartView.memory m.hart)) with
    | error u => simp [hd, Except.toOption] at hop
    | ok op' =>
      simp only [hd, Except.toOption, Option.some.injEq] at hop
      rw [hop]

/-! ## What an emulation does -/

variable [FaithfulHart H F] {m m' : Machine H P F} {e : Exception} {op : Operation} {h : H}

omit [Platform P] in
/-- The accesses of an operation load what it loads and make of memory what it is to become. -/
theorem operand_eq_ok {v : Word} (hr : HartView.ready m.hart)
    (hv : m.operand op m.hart = .ok v h) :
    v = m.loaded op ∧ HartView.memory h = m.memoryAfter op := by
  cases op with
  | unalignedLoad kind rd a =>
    obtain ⟨made, acc, -, hl⟩ := (probes_readUnaligned a kind.size).ok hr hv
    exact ⟨readUnaligned_eq_ok hr hv, acc.memory_of_loads hl⟩
  | unalignedStore kind src a =>
    obtain ⟨⟨⟩, h₁, hstore, hv⟩ := bind_eq_ok.mp hv
    obtain ⟨rfl, rfl⟩ := pure_eq_ok.mp hv
    exact ⟨rfl, writeUnaligned_eq_ok (by cases kind <;> decide) hr hstore⟩
  | atomic amo rd addr src =>
    obtain ⟨old, h₁, hload, hv⟩ := bind_eq_ok.mp hv
    obtain ⟨rfl, acc⟩ := FaithfulHart.load_ok hr hload
    have hmem : HartView.memory h₁ = HartView.memory m.hart := acc.memory
    rw [memoryAfter]
    cases hnew : amo.apply (m.register src) (m.loaded (.atomic amo rd addr src)) with
    | none =>
      have hskip : amo.apply (m.register src)
          (ProtectedMemory.contents (HartView.memory m.hart) (m.register addr) .word) = none := hnew
      simp only [hskip] at hv
      obtain ⟨rfl, rfl⟩ := pure_eq_ok.mp hv
      exact ⟨rfl, hmem⟩
    | some new =>
      have hwrite : amo.apply (m.register src)
          (ProtectedMemory.contents (HartView.memory m.hart) (m.register addr) .word) =
            some new := hnew
      simp only [hwrite] at hv
      obtain ⟨⟨⟩, h₂, hstore, hv⟩ := bind_eq_ok.mp hv
      obtain ⟨rfl, rfl⟩ := pure_eq_ok.mp hv
      have hstored := (FaithfulHart.store_ok acc.ready hstore).memory
      refine ⟨rfl, ?_⟩
      rw [hstored, hmem]
      exact Memory.setWord_eq_storeLow _ _ new
  | counterRead half rd =>
    obtain ⟨rfl, rfl⟩ := pure_eq_ok.mp hv
    exact ⟨rfl, rfl⟩
  | sbi c =>
    obtain ⟨rfl, rfl⟩ := pure_eq_ok.mp hv
    exact ⟨rfl, rfl⟩

omit [Platform P] in
theorem register_setRegister_of_eq (m₁ : Machine H P F) (hreg : m₁.register = m.register)
    (rd r : Reg) (v : Word) :
    (m₁.setRegister rd v).register r =
      if some rd = some r ∧ r ≠ Reg.zero then v else m.register r := by
  rw [register_setRegister, hreg]
  by_cases hx : r = rd
  · subst hx
    simp
  · simp [hx, Ne.symm hx]

/-- The last phase writes the destination and no other register. -/
theorem register_complete (hreg : { m with hart := h }.register = m.register) (v : Word) (r : Reg) :
    (m.complete op v h).register r =
      if op.destination = some r ∧ r ≠ Reg.zero then m.produced v op else m.register r := by
  cases op with
  | unalignedLoad kind rd a =>
    exact register_setRegister_of_eq (record _ _ _ { m with hart := h }) hreg rd r _
  | unalignedStore kind src a => exact congrFun hreg r
  | atomic amo rd addr src =>
    rw [complete, Operation.destination]
    cases hnew : amo.apply (m.register src) v with
    | none =>
      simp only [AmoOp.isReservation_of_apply_eq_none hnew, reduceCtorEq, false_and, if_true,
        if_false]
      exact congrFun hreg r
    | some new =>
      simp only [AmoOp.isReservation_of_apply_eq_some hnew, Bool.false_eq_true, if_false]
      exact register_setRegister_of_eq { m with hart := h } hreg rd r v
  | counterRead half rd =>
    exact register_setRegister_of_eq (record _ _ _ { m with hart := h, platform := _ }) hreg
      rd r _
  | sbi c =>
    cases c with
    | setTimer =>
      let armed : Machine H P F :=
        { m with hart := setCsr .mie InterruptBits.machineTimer h }
      have hcleared := armed.register_clearCsr (c := .sip) (by decide)
        InterruptBits.supervisorTimer
      have harmed := register_setCsr { m with hart := h } (c := .mie) (by decide)
        InterruptBits.machineTimer
      exact congrFun ((hcleared.trans harmed).trans hreg) r
    | consolePutchar => exact congrFun hreg r
    | consoleGetchar =>
      exact register_setRegister_of_eq (record _ _ _ { m with hart := h, platform := _ }) hreg
        .a0 r _

omit [Platform P] in
/-- An operation stores to its own bytes only. -/
theorem operand_within_stores (m : Machine H P F) (op : Operation) (hr : HartView.ready m.hart) :
    Within F (fun kind w a => kind = .store → ∀ i < w.size, m.Stores op (a + BitVec.ofNat 32 i))
      (m.operand op) m.hart := by
  have hown (a : Word) (n : Nat) (hn : n < 2 ^ 32) : (a + BitVec.ofNat 32 n - a).toNat = n := by
    rw [BitVec.add_comm, BitVec.add_sub_cancel, BitVec.toNat_ofNat, Nat.mod_eq_of_lt hn]
  cases op with
  | unalignedLoad kind rd a => exact .readUnaligned hr fun i _ hs => by cases hs
  | unalignedStore kind src a =>
    refine .bind (.writeUnaligned hr (fun i hi _ j hj => ?_) _) fun _ acc => .pure acc.ready _
    obtain rfl : j = 0 := by simpa [Width.size] using hj
    have hsize : kind.size ≤ 4 := by cases kind <;> decide
    rw [BitVec.add_zero, Stores, hown a i (by omega)]
    exact hi
  | atomic amo rd addr src =>
    refine .bind (.load hr fun hs => by cases hs) fun _ acc => ?_
    split
    · next new hnew =>
      refine .bind (.store acc.ready (fun _ i hi => ?_) _) fun _ acc => .pure acc.ready _
      have hi : i < 4 := hi
      rw [Stores, hown _ i (by omega)]
      exact ⟨AmoOp.isReservation_of_apply_eq_some hnew, hi⟩
    · exact .pure acc.ready _
  | counterRead half rd => exact .pure hr _
  | sbi c => exact .pure hr _

omit [Platform P] [FaithfulHart H F] in
theorem SparesFrame.congr (hs : m.SparesFrame op) {n : Machine H P F} (hframe : n.frame = m.frame)
    (hreg : n.register = m.register) : n.SparesFrame op := by
  have hstores (a : Word) : n.Stores op a = m.Stores op a := by
    cases op <;> simp only [Stores, hreg]
  intro a r ha
  rw [hframe]
  exact hs a r (hstores a ▸ ha)

omit [Platform P] [FaithfulHart H F] in
theorem spares_of_stores (hs : m.SparesFrame op) {made : List Access}
    (hm : ∀ y ∈ made, y.kind = .store →
      ∀ i < y.width.size, m.Stores op (y.address + BitVec.ofNat 32 i)) :
    ∀ r, ∀ y ∈ made, y.Spares H m.frame r :=
  fun r y hy hstore i hi => hs _ r (hm y hy hstore i hi)

/-- An operation whose accesses are all made does to registers and memory what it says. -/
theorem effect_of_operand {v : Word} (hr : HartView.ready m.hart) (hs : m.SparesFrame op)
    (hv : m.operand op m.hart = .ok v h) :
    (m.complete op v h).register = m.registerAfter op ∧
      AgreeOutside H m.frame (HartView.memory (m.complete op v h).hart) (m.memoryAfter op) := by
  obtain ⟨made, acc, hown⟩ := (m.operand_within_stores op hr).ok hv
  have hreg : { m with hart := h }.register = m.register :=
    register_of_spared acc (spares_of_stores hs hown)
  obtain ⟨rfl, hmem⟩ := operand_eq_ok hr hv
  constructor
  · funext r
    exact register_complete hreg _ r
  · rw [← hmem]
    exact agreeOutside_complete m op _ h

section Congr

variable {n : Machine H P F} (hreg : n.register = m.register)
  (hmem : HartView.memory n.hart = HartView.memory m.hart)

include hreg hmem

omit [Platform P] [FaithfulHart H F] in
theorem loaded_congr (op : Operation) : n.loaded op = m.loaded op := by
  cases op <;> simp only [loaded, hreg, hmem]

omit [Platform P] [FaithfulHart H F] in
theorem memoryAfter_congr (op : Operation) : n.memoryAfter op = m.memoryAfter op := by
  cases op <;> simp only [memoryAfter, loaded_congr hreg hmem, hreg, hmem]

omit [FaithfulHart H F] in
theorem registerAfter_congr (hplatform : n.platform = m.platform) (op : Operation) :
    n.registerAfter op = m.registerAfter op := by
  funext r
  have hproduced (v : Word) : n.produced v op = m.produced v op := by
    cases op <;> simp only [produced, hplatform]
  rw [registerAfter, registerAfter, loaded_congr hreg hmem, hproduced, hreg]

end Congr

/-- An emulation does to registers and memory what its operation says. -/
theorem Emulates.effect {s : TrapState} (he : Emulates e s m op m') (hr : HartView.ready m.hart)
    (hs : m.SparesFrame op) : m'.register = m.registerAfter op ∧
      AgreeOutside H m.frame (HartView.memory m'.hart) (m.memoryAfter op) := by
  obtain ⟨hw, hd, hv⟩ := he
  rename_i w v h₁ h₂
  obtain ⟨fetches, acc, -, hl⟩ := (s.probes_instructionWord e).ok hr hw
  have hmem : HartView.memory h₁ = HartView.memory m.hart := acc.memory_of_loads hl
  have hreg : { m with hart := h₁ }.register = m.register := register_of_loads acc hl
  obtain ⟨hregister, hmemory⟩ := effect_of_operand (m := { m with hart := h₁ }) acc.ready
    (hs.congr rfl hreg) hv
  rw [memoryAfter_congr hreg hmem op] at hmemory
  exact ⟨hregister.trans (registerAfter_congr hreg hmem rfl op), hmemory⟩

omit [Platform P] in
theorem asked_of_decode {w : Word} {h₁ : H} (hr : HartView.ready m.hart)
    (hc : Cause.ofWord (readCsr .mcause m.hart) = .exception e)
    (hw : (TrapState.capture m.hart).instructionWord e m.hart = .ok w h₁)
    (hd : (TrapState.capture m.hart).decode e (m.register .a7) w = .ok op) :
    m.asked = some op := by
  rw [asked, hc]
  dsimp only
  rw [← TrapState.instructionWord_eq_ok hr hw, hd]
  rfl

omit [Platform P] in
/-- In front of the refused access, only a store can have changed memory. -/
theorem Faults.memory_eq {f : AccessFault} (hf : Faults e (.capture m.hart) m f h)
    (hr : HartView.ready m.hart) (hc : Cause.ofWord (readCsr .mcause m.hart) = .exception e) :
    HartView.memory h = HartView.memory m.hart ∨
      ∃ kind src a i, m.asked = some (.unalignedStore kind src a) ∧ i < kind.size ∧
        HartView.memory h = (HartView.memory m.hart).storeLow a i (m.register src) := by
  cases hf with
  | instruction hw =>
    obtain ⟨made, acc, -, hl⟩ := (TrapState.probes_instructionWord _ e).error hr hw
    exact .inl (acc.memory_of_loads hl)
  | @operand w h₁ _ op hw hd hv =>
    obtain ⟨fetches, acc, -, hl⟩ := (TrapState.probes_instructionWord _ e).ok hr hw
    have hmem := acc.memory_of_loads hl
    have hreg : { m with hart := h₁ }.register = m.register := register_of_loads acc hl
    by_cases hstore : ∃ kind src a, op = .unalignedStore kind src a
    · obtain ⟨kind, src, a, rfl⟩ := hstore
      rcases bind_eq_error.mp hv with hv | ⟨⟨⟩, h₂, -, hv⟩
      · obtain ⟨i, hi, -, hpart⟩ :=
          writeUnaligned_eq_error (by cases kind <;> decide) acc.ready hv
        rw [hmem, hreg] at hpart
        exact .inr ⟨kind, src, a, i, asked_of_decode hr hc hw hd, hi, hpart⟩
      · exact absurd hv pure_ne_error
    · have hop : ∀ kind src a, op ≠ .unalignedStore kind src a :=
        fun kind src a he => hstore ⟨kind, src, a, he⟩
      exact .inl ((memory_of_operand_error acc.ready hop hv).trans hmem)

omit [Platform P] in
/-- In front of the refused access, no register is written, and none is reached by a store. -/
theorem Faults.register_eq {f : AccessFault} (hf : Faults e (.capture m.hart) m f h)
    (hr : HartView.ready m.hart) (hc : Cause.ofWord (readCsr .mcause m.hart) = .exception e)
    (hs : ∀ op, m.asked = some op → m.SparesFrame op) :
    { m with hart := h }.register = m.register := by
  cases hf with
  | instruction hw =>
    obtain ⟨made, acc, -, hl⟩ := (TrapState.probes_instructionWord _ e).error hr hw
    exact register_of_loads acc hl
  | @operand w h₁ _ op hw hd hv =>
    obtain ⟨fetches, acc, -, hl⟩ := (TrapState.probes_instructionWord _ e).ok hr hw
    have hreg : { m with hart := h₁ }.register = m.register := register_of_loads acc hl
    obtain ⟨moves, acc', hown⟩ := (operand_within_stores { m with hart := h₁ } op acc.ready).error hv
    have hspares : { m with hart := h₁ }.SparesFrame op :=
      (hs op (asked_of_decode hr hc hw hd)).congr rfl hreg
    exact (register_of_spared (m := { m with hart := h₁ }) acc'
      (spares_of_stores hspares hown)).trans hreg

/-! ## What a trap does -/

/-- What decodes to an operation is not refused. -/
theorem ne_halted_of_asked {o : Outcome} (hr : HartView.ready m.hart) (hop : m.asked = some op)
    (hres : handleTrap m = (o, m')) (u : Unsupported) : o ≠ .halted u := by
  rintro rfl
  obtain ⟨e, hc, hd⟩ := exception_of_asked hop
  rcases handleTrap_eq_halted.mp hres with ⟨i, hi, -⟩ | ⟨e', h, hc', ⟨hw, hrefused⟩, -⟩
  · cases hc.symm.trans hi
  · cases hc.symm.trans hc'
    rw [TrapState.instructionWord_eq_ok hr hw] at hrefused
    cases hd.symm.trans hrefused

section Effect

variable (hr : HartView.ready m.hart) (hs : ∀ op, m.asked = some op → m.SparesFrame op)

include hr hs

/-- A trap that resumes did what it asked for; a timer interrupt asks for nothing. -/
theorem effect_of_resumed (hres : handleTrap m = (.resumed, m')) :
    (Cause.ofWord (readCsr .mcause m.hart) = .interrupt .machineTimer ∧
        m'.register = m.register ∧ HartView.memory m'.hart = HartView.memory m.hart) ∨
      ∃ op, m.asked = some op ∧ m'.register = m.registerAfter op ∧
        AgreeOutside H m.frame (HartView.memory m'.hart) (m.memoryAfter op) := by
  rcases handleTrap_eq_resumed.mp hres with ⟨hc, rfl⟩ | ⟨e, op, m₁, hc, he, rfl⟩
  · exact .inl ⟨hc, register_timerTick m, memory_timerTick m⟩
  · have hop : m.asked = some op := by
      obtain ⟨hw, hd, -⟩ := he
      exact asked_of_decode hr hc hw hd
    obtain ⟨hreg, hmem⟩ := he.effect hr (hs op hop)
    refine .inr ⟨op, hop, (register_resume _ m₁).trans hreg, ?_⟩
    rw [memory_resume]
    exact hmem

/-- A trap that asked for something and resumes did that. -/
theorem effect_of_asked (hop : m.asked = some op) (hres : handleTrap m = (.resumed, m')) :
    m'.register = m.registerAfter op ∧
      AgreeOutside H m.frame (HartView.memory m'.hart) (m.memoryAfter op) := by
  obtain ⟨e, he, -⟩ := exception_of_asked hop
  rcases effect_of_resumed hr hs hres with ⟨htimer, -⟩ | ⟨op', hasked, heffect⟩
  · cases he.symm.trans htimer
  · obtain rfl : op' = op := Option.some.inj (hasked.symm.trans hop)
    exact heffect

/-- A trap that is delegated changed no register, and of memory at most the first bytes of what a
store asked for. -/
theorem effect_of_delegated {f : AccessFault} (hres : handleTrap m = (.delegated f, m')) :
    m'.register = m.register ∧
      (HartView.memory m'.hart = HartView.memory m.hart ∨
        ∃ kind src a i, m.asked = some (.unalignedStore kind src a) ∧ i < kind.size ∧
          HartView.memory m'.hart = (HartView.memory m.hart).storeLow a i (m.register src)) := by
  obtain ⟨e, h, hc, hf, rfl⟩ := handleTrap_eq_delegated.mp hres
  constructor
  · have hslot := TrapState.slot_delegate (.capture m.hart) h m.frame
    have hsp := TrapState.readCsr_delegate (.capture m.hart) h .mscratch
    have hdelegated : { m with hart := (TrapState.capture m.hart).delegate h }.register =
        { m with hart := h }.register :=
      funext (register_congr { m with hart := h }
        { m with hart := (TrapState.capture m.hart).delegate h } rfl hsp hslot)
    exact hdelegated.trans (hf.register_eq hr hc hs)
  · rw [TrapState.memory_delegate]
    exact hf.memory_eq hr hc

variable {o : Outcome} (hres : handleTrap m = (o, m'))

include hres

/-- A trap that resumes leaves in the destination what was asked for. -/
theorem register_of_written (ho : o = .resumed) (hop : m.asked = some op) {r : Reg}
    (hd : op.destination = some r) (h0 : r ≠ Reg.zero) :
    m'.register r = m.produced (m.loaded op) op := by
  subst ho
  rw [(effect_of_asked hr hs hop hres).1, registerAfter, if_pos ⟨hd, h0⟩]

/-- Other registers keep their values, and all do when the trap is delegated. -/
theorem register_of_kept (ho : ∀ u, o ≠ .halted u) {r : Reg}
    (hd : o = .resumed → ∀ op, m.asked = some op → op.destination ≠ some r) :
    m'.register r = m.register r := by
  cases o with
  | resumed =>
    rcases effect_of_resumed hr hs hres with ⟨-, hreg, -⟩ | ⟨op, hasked, hreg, -⟩
    · rw [hreg]
    · rw [hreg, registerAfter, if_neg fun h => hd rfl op hasked h.1]
  | delegated f => rw [(effect_of_delegated hr hs hres).1]
  | halted u => exact absurd rfl (ho u)

/-- Bytes that no operation stores to keep their values, outside of the slots that are written to. -/
theorem byte_of_kept (ho : ∀ u, o ≠ .halted u) {x : Word}
    (hout : ∀ r, r ≠ Reg.zero → r ≠ Reg.sp → ¬ InSlot H m.frame r x)
    (hx : ∀ op, m.asked = some op → ¬ m.Stores op x) :
    (HartView.memory m'.hart).byte x = (HartView.memory m.hart).byte x := by
  cases o with
  | resumed =>
    rcases effect_of_resumed hr hs hres with ⟨-, -, hmem⟩ | ⟨op, hasked, -, hmem⟩
    · rw [hmem]
    · rw [hmem x hout, byte_memoryAfter (hx op hasked)]
  | delegated f =>
    rcases (effect_of_delegated hr hs hres).2 with hmem | ⟨kind, src, a, i, hasked, hi, hmem⟩
    · rw [hmem]
    · have hout : ¬ (x - a).toNat < kind.size := hx _ hasked
      rw [hmem, Memory.byte_storeLow, if_neg (by omega)]
  | halted u => exact absurd rfl (ho u)

end Effect

end Machine

end TrapMonitor
