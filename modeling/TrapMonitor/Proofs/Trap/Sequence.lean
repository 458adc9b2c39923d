import TrapMonitor.Proofs.Memory.History
import TrapMonitor.Proofs.Trap.Retry

/-! # Sequences of memory operations

Performed one after another, loads, stores and atomic operations behave as on one byte memory: what
each of them loads is what the most recent writes before it left (`execute_sequence`), however their
addresses overlap. Between two operations the trapped code may do anything that is not a store.
-/
namespace TrapMonitor

open Hart

namespace LoadKind

/-- The bytes from `a` on, the first one lowest, extended as the load does it. -/
def value (m : Memory) (a : Word) : LoadKind → Word
  | half => (m.byte (a + 1) ++ m.byte a).signExtend 32
  | word => m.byte (a + 3) ++ m.byte (a + 2) ++ m.byte (a + 1) ++ m.byte a
  | halfUnsigned => (m.byte (a + 1) ++ m.byte a).setWidth 32

theorem extend_peek (kind : LoadKind) (m : Memory) (a : Word) :
    kind.extend (.ofBytes (m.peek a kind.size)) = kind.value m a := by
  have hlow (x : Half) : (x.setWidth 32).setWidth 16 = x := by simp
  cases kind with
  | word => exact m.word_eq_append a
  | half | halfUnsigned =>
    rw [extend, size, Memory.ofBytes_peek_two, hlow]
    rfl

/-- Just stored bytes are loaded as the part of the value that they are. -/
theorem value_storeLow (kind : LoadKind) (m : Memory) (a v : Word) :
    kind.value (m.storeLow a kind.size v) a = kind.extend v := by
  have hpeek : (m.storeLow a kind.size v).peek a kind.size = Word.bytes kind.size v := by
    have hsize : kind.size ≤ 0x100000000 := by cases kind <;> decide
    have hp := m.peek_poke a (Word.bytes kind.size v) (by rwa [Word.length_bytes])
    rwa [Word.length_bytes, Memory.poke_bytes _ _ _ hsize] at hp
  rw [← extend_peek, hpeek]
  cases kind with
  | word => exact Word.ofBytes_bytes v
  | half | halfUnsigned =>
    have hlow : (Word.ofBytes (Word.bytes 2 v)).setWidth 16 = v.setWidth 16 := by
      apply BitVec.eq_of_getLsbD_eq
      intro i hi
      rw [BitVec.getLsbD_setWidth, Word.getLsbD_ofBytes_bytes 2 i v (by omega),
        BitVec.getLsbD_setWidth]
      simp [hi]
    simp only [extend, size, hlow]

end LoadKind

namespace Operation

/-- What an operation writes when it finds these registers and this memory. -/
def writes (register : Reg → Word) (m : Memory) : Operation → List Write
  | unalignedStore kind src a => [⟨a, kind.size, register src⟩]
  | atomic op _ addr src =>
    match op.apply (register src) (LoadKind.word.value m (register addr)) with
    | some new => [⟨register addr, 4, new⟩]
    | none => []
  | _ => []

/-- The value that an operation has for its destination when it finds these registers and this
memory. -/
def reads (register : Reg → Word) (m : Memory) : Operation → Word
  | unalignedLoad kind _ a => kind.value m a
  | atomic _ _ addr _ => LoadKind.word.value m (register addr)
  | _ => 0

end Operation

namespace Machine

section Effect

variable {H P F : Type} [Hart H] [HartView H] [Platform P] [FrameStore H F] {m : Machine H P F}
  {op : Operation}

omit [Platform P] in
theorem memoryAfter_eq_replay (m : Machine H P F) (op : Operation) :
    m.memoryAfter op = (HartView.memory m.hart).replay
      (op.writes m.register (HartView.memory m.hart)) := by
  cases op with
  | unalignedStore kind src a => exact (Memory.replay_cons _ ⟨a, kind.size, m.register src⟩ []).symm
  | atomic amo rd addr src =>
    have hword : m.loaded (.atomic amo rd addr src) =
        LoadKind.word.value (HartView.memory m.hart) (m.register addr) :=
      Memory.word_eq_append _ _
    rw [memoryAfter, Operation.writes, hword]
    cases amo.apply (m.register src)
      (LoadKind.word.value (HartView.memory m.hart) (m.register addr)) with
    | some new => exact (Memory.replay_cons _ ⟨m.register addr, 4, new⟩ []).symm
    | none => rfl
  | _ => rfl

theorem produced_eq_reads (m : Machine H P F) (hop : op.accessesMemory = true) :
    m.produced (m.loaded op) op = op.reads m.register (HartView.memory m.hart) := by
  cases op with
  | unalignedLoad kind rd a => exact kind.extend_peek _ a
  | unalignedStore kind src a => rfl
  | atomic amo rd addr src => exact Memory.word_eq_append _ _
  | counterRead half rd => cases hop
  | sbi c => cases hop

end Effect

variable {H P F : Type} [Hart H] [HartView H] [Platform P] [FrameStore H F]
  {m₀ m m' : Machine H P F} {op : Operation} {past : List Write}

/-- A run of operations on memory from `m₀`, and what was written so far, the latest first. -/
inductive Sequence (m₀ : Machine H P F) : List Write → Machine H P F → Prop
  | start : Sequence m₀ [] m₀
  /-- The trapped code goes on and changes registers, but not memory. -/
  | elsewhere {past : List Write} {m m' : Machine H P F} : Sequence m₀ past m →
    HartView.memory m'.hart = HartView.memory m.hart → HartView.ready m'.hart →
    Sequence m₀ past m'
  | performed {past : List Write} {m m' : Machine H P F} {op : Operation} : Sequence m₀ past m →
    op.accessesMemory = true → execute op m = .ok () m' →
    Sequence m₀ (op.writes m.register ((HartView.memory m₀.hart).replay past) ++ past) m'

section Run

variable [LawfulHart H F] [SteadyHart H F]

/-- One operation reads and writes memory as it says, and no other registers. -/
theorem effect_of_execute (hr : HartView.ready m.hart) (hop : op.accessesMemory = true)
    (hx : execute op m = .ok () m') :
    HartView.ready m'.hart ∧
    HartView.memory m'.hart = (HartView.memory m.hart).replay
      (op.writes m.register (HartView.memory m.hart)) ∧
    ∀ r, m'.register r = if op.destination = some r ∧ r ≠ Reg.zero then
      op.reads m.register (HartView.memory m.hart) else m.register r := by
  obtain ⟨v, h, hv, rfl⟩ := execute_eq_ok.mp hx
  obtain ⟨hregister, hmemory⟩ := effect_of_operand hr (m.sparesFrame op) hv
  obtain ⟨made, acc, -⟩ := (probes_operand m op).ok hr hv
  refine ⟨?_, hmemory.eq.trans (m.memoryAfter_eq_replay op), fun r => ?_⟩
  · cases op with
    | unalignedLoad kind rd a =>
      exact ready_setRegister (record _ _ _ { m with hart := h }) rd _ acc.ready
    | unalignedStore kind src a => exact acc.ready
    | atomic amo rd addr src =>
      rw [complete]
      split
      · exact ready_setRegister { m with hart := h } rd v acc.ready
      · exact acc.ready
    | counterRead half rd => cases hop
    | sbi c => cases hop
  · rw [hregister, registerAfter, m.produced_eq_reads hop]

/-- Memory is what the writes so far made of the initial one. -/
theorem Sequence.memory_eq (hr : HartView.ready m₀.hart) (h : Sequence m₀ past m) :
    HartView.ready m.hart ∧
      HartView.memory m.hart = (HartView.memory m₀.hart).replay past := by
  induction h with
  | start => exact ⟨hr, rfl⟩
  | elsewhere _ hmem hready ih => exact ⟨hready, hmem.trans ih.2⟩
  | performed _ hop hx ih =>
    obtain ⟨hready, hmem, -⟩ := effect_of_execute ih.1 hop hx
    refine ⟨hready, ?_⟩
    rw [hmem, ih.2, Memory.replay_append]

/-- The reservation pair is no access: it finds its word and leaves everything alone. -/
theorem execute_reservation (hr : HartView.ready m.hart) {amo : AmoOp} {rd addr src : Reg}
    (hamo : amo.isReservation = true) (hx : execute (.atomic amo rd addr src) m = .ok () m') :
    m'.register = m.register ∧ HartView.memory m'.hart = HartView.memory m.hart := by
  obtain ⟨-, hmem, hreg⟩ := effect_of_execute hr rfl hx
  constructor
  · funext r
    rw [hreg, if_neg]
    simp [Operation.destination, hamo]
  · rw [hmem]
    cases amo with
    | loadReserved | storeConditional => rfl
    | _ => cases hamo

theorem execute_store_load (hr : HartView.ready m.hart) {store : StoreKind} {load : LoadKind}
    (hsize : load.size = store.size) {src rd : Reg} {a : Word} {m₁ m₂ : Machine H P F}
    (hrd : rd ≠ Reg.zero) (hs : execute (.unalignedStore store src a) m = .ok () m₁)
    (hl : execute (.unalignedLoad load rd a) m₁ = .ok () m₂) :
    m₂.register rd = load.extend (m.register src) := by
  obtain ⟨hr₁, hmem, -⟩ := effect_of_execute hr rfl hs
  obtain ⟨-, -, hreg⟩ := effect_of_execute hr₁ rfl hl
  rw [hreg, if_pos ⟨rfl, hrd⟩, Operation.reads, hmem, Operation.writes, Memory.replay_cons,
    Memory.replay_nil, ← hsize]
  exact load.value_storeLow _ a _

/-- Memory under a sequence of operations: each byte is that of the most recent write that covers
it, the initial one if none does, and the next operation reads those bytes. -/
theorem execute_sequence (hr : HartView.ready m₀.hart) (h : Sequence m₀ past m) :
    (∀ later w earlier x, past = later ++ w :: earlier → w.covers x = true →
      (∀ l ∈ later, l.covers x = false) → (HartView.memory m.hart).byte x = w.byte x) ∧
    (∀ x, (∀ w ∈ past, w.covers x = false) →
      (HartView.memory m.hart).byte x = (HartView.memory m₀.hart).byte x) ∧
    (∀ op m', op.accessesMemory = true → execute op m = .ok () m' → ∀ r,
      m'.register r = if op.destination = some r ∧ r ≠ Reg.zero then
        op.reads m.register ((HartView.memory m₀.hart).replay past) else m.register r) ∧
    (∀ amo rd addr src m', amo.isReservation = true →
      execute (.atomic amo rd addr src) m = .ok () m' →
      m'.register = m.register ∧ HartView.memory m'.hart = HartView.memory m.hart) ∧
    ∀ (store : StoreKind) (load : LoadKind) src rd a m₁ m₂, load.size = store.size →
      rd ≠ Reg.zero → execute (.unalignedStore store src a) m = .ok () m₁ →
      execute (.unalignedLoad load rd a) m₁ = .ok () m₂ →
      m₂.register rd = load.extend (m.register src) := by
  obtain ⟨hready, hmem⟩ := h.memory_eq hr
  refine ⟨?_, ?_, ?_, ?_, ?_⟩
  · rintro later w earlier x rfl hw hlater
    rw [hmem]
    exact Memory.byte_replay_of_covers _ later w earlier hw hlater
  · intro x hx
    rw [hmem]
    exact Memory.byte_replay_of_uncovered _ past hx
  · intro op m' hop hx r
    rw [← hmem]
    exact (effect_of_execute hready hop hx).2.2 r
  · intro amo rd addr src m' hamo hx
    exact execute_reservation hready hamo hx
  · intro store load src rd a m₁ m₂ hsize hrd hs hl
    exact execute_store_load hready hsize hrd hs hl

/-- Whether an operation makes all its accesses. -/
def succeeds (op : Operation) (m : Machine H P F) : Bool :=
  match execute op m with
  | .ok _ _ => true
  | .error _ _ => false

/-- The machine that an operation leaves behind. -/
def after (op : Operation) (m : Machine H P F) : Machine H P F :=
  match execute op m with
  | .ok _ m' => m'
  | .error _ m' => m'

omit [HartView H] [LawfulHart H F] [SteadyHart H F] in
theorem execute_of_succeeds (h : succeeds op m = true) : execute op m = .ok () (after op m) := by
  unfold succeeds at h
  unfold after
  cases hx : execute op m with
  | ok v m' => rfl
  | error e m' => simp [hx] at h

/-- A word, a half over its upper part, and an addition to a word that both of them reach into; then
a half is loaded from the middle of it. -/
theorem execute_sequence_overlapping :
    let m₀ := trappedOn 0 0 0 (fun r => if r = 10 then 0x80000200 else 0x11228384) 0
    let m₁ := after (.unalignedStore .word 6 0x80000201) m₀
    let m₂ := after (.unalignedStore .half 6 0x80000203) m₁
    let m₃ := after (.atomic .add 5 10 6) m₂
    let m₄ := after (.unalignedLoad .half 7 0x80000202) m₃
    let addition : Write := ⟨0x80000200, 4, 0x95a60784⟩
    let half : Write := ⟨0x80000203, 2, 0x11228384⟩
    let word : Write := ⟨0x80000201, 4, 0x11228384⟩
    Sequence m₀ [addition, half, word] m₃ ∧
      (HartView.memory m₃.hart).byte 0x80000204 = half.byte 0x80000204 ∧
      (HartView.memory m₃.hart).byte 0x80000205 = (HartView.memory m₀.hart).byte 0x80000205 ∧
      m₄.register 7 = 0xffff95a6 := by
  intro m₀ m₁ m₂ m₃ m₄ addition half word
  have h₁ : execute (.unalignedStore .word 6 0x80000201) m₀ = .ok () m₁ :=
    execute_of_succeeds (by decide +kernel)
  have h₂ : execute (.unalignedStore .half 6 0x80000203) m₁ = .ok () m₂ :=
    execute_of_succeeds (by decide +kernel)
  have h₃ : execute (.atomic .add 5 10 6) m₂ = .ok () m₃ :=
    execute_of_succeeds (by decide +kernel)
  have h₄ : execute (.unalignedLoad .half 7 0x80000202) m₃ = .ok () m₄ :=
    execute_of_succeeds (by decide +kernel)
  obtain ⟨past, hrun, rfl⟩ : ∃ past, Sequence m₀ past m₃ ∧ past = [addition, half, word] := by
    refine ⟨_, ((Sequence.start.performed rfl h₁).performed rfl h₂).performed rfl h₃, ?_⟩
    decide +kernel
  obtain ⟨covered, uncovered, next, -⟩ := execute_sequence rfl hrun
  refine ⟨hrun, ?_, ?_, ?_⟩
  · exact covered [addition] half [word] _ rfl (by decide) (by decide)
  · exact uncovered _ (by decide)
  · rw [next _ _ rfl h₄]
    decide +kernel

end Run

end Machine

end TrapMonitor
