import TrapMonitor.Proofs.Trap.Meaning

/-! # Trying again after a delegation

When an access of an emulation is refused, the supervisor can repair the cause and run the trapped
instruction again. However often that happens, and whichever accesses are refused each time, the
attempt that resumes leaves what a single attempt without a refusal would have left: no attempt
writes a register before its last access, and a store that was cut short is only continued.
-/
namespace TrapMonitor

open Hart Access

/-- Loads, stores and atomic operations, but not counters and calls. -/
def Operation.accessesMemory : Operation → Bool
  | unalignedLoad _ _ _ => true
  | unalignedStore _ _ _ => true
  | atomic _ _ _ _ => true
  | counterRead _ _ => false
  | sbi _ => false

namespace Machine

variable {H P F : Type} [Hart H] [HartView H] [Platform P] [FrameStore H F] [LawfulHart H F]
  {m m₁ m₂ m₃ m' : Machine H P F} {op : Operation} {f : AccessFault}

/-- The operand of a store shares no byte with the instruction at `pc`. -/
def StoresOutside (pc : Word) : Operation → Prop
  | .unalignedStore kind _ a =>
    ∀ i < kind.size, ∀ j < 4, a + BitVec.ofNat 32 i ≠ pc + BitVec.ofNat 32 j
  | _ => True

/-- The trap of `m` is raised again by code that found the registers and the memory of `m₁`. Which
accesses are refused may be different now. -/
structure Reraised (m m₁ m₂ : Machine H P F) : Prop where
  ready : HartView.ready m₂.hart
  csr : ∀ c ∈ [Csr.mepc, .mcause, .mbadaddr], readCsr c m₂.hart = readCsr c m.hart
  register : m₂.register = m₁.register
  memory : HartView.memory m₂.hart = HartView.memory m₁.hart

/-- The machine before an attempt, with the number of attempts that were delegated before it. -/
inductive Attempts (m : Machine H P F) : Nat → Machine H P F → Prop
  | first : Attempts m 0 m
  | again {k : Nat} {m₁ m₂ m₃ : Machine H P F} {f : AccessFault} : Attempts m k m₁ →
    handleTrap m₁ = (.delegated f, m₂) → Reraised m m₂ m₃ → Attempts m (k + 1) m₃

/-- What attempts at an operation that were cut short make of memory. -/
def Begun (m : Machine H P F) (op : Operation) (memory : Memory) : Prop :=
  memory = HartView.memory m.hart ∨
    ∃ kind src a i, op = .unalignedStore kind src a ∧ i ≤ kind.size ∧
      memory = (HartView.memory m.hart).storeLow a i (m.register src)

/-- The machine before an attempt at the operation that `m` asked for. -/
structure Retries (m : Machine H P F) (op : Operation) (m₁ : Machine H P F) : Prop where
  ready : HartView.ready m₁.hart
  csr : ∀ c ∈ [Csr.mepc, .mcause, .mbadaddr], readCsr c m₁.hart = readCsr c m.hart
  register : m₁.register = m.register
  asked : m₁.asked = some op
  memory : Begun m op (HartView.memory m₁.hart)

omit [Platform P] [LawfulHart H F] in
theorem word_of_begun {memory : Memory} (hout : StoresOutside (readCsr .mepc m.hart) op)
    (hb : Begun m op memory) :
    memory.word (readCsr .mepc m.hart) =
      (HartView.memory m.hart).word (readCsr .mepc m.hart) := by
  rcases hb with rfl | ⟨kind, src, a, i, rfl, hi, rfl⟩
  · rfl
  · have hsize : kind.size ≤ 4 := by cases kind <;> decide
    refine Memory.word_storeLow_of_disjoint _ _ (by omega) fun n hn j hj => ?_
    exact hout n (by omega) j hj

/-- An attempt that is delegated takes a store further, or leaves everything as it was. -/
theorem Retries.begun (hs : Retries m op m₁) (hres : handleTrap m₁ = (.delegated f, m₂)) :
    Begun m op (HartView.memory m₂.hart) := by
  obtain ⟨-, hsame | ⟨kind, src, a, j, hasked, hj, hpart⟩⟩ := effect_of_delegated hs.ready
    (fun op _ => m₁.sparesFrame op) hres
  · rw [hsame]
    exact hs.memory
  · obtain rfl : .unalignedStore kind src a = op :=
      Option.some.inj (hasked.symm.trans hs.asked)
    rw [hs.register] at hpart
    rcases hs.memory with hnone | ⟨_, _, _, i, hop, hi, hbefore⟩
    · rw [hnone] at hpart
      exact .inr ⟨kind, src, a, j, rfl, Nat.le_of_lt hj, hpart⟩
    · cases hop
      rw [hbefore, Memory.storeLow_storeLow] at hpart
      exact .inr ⟨kind, src, a, max i j, rfl, by omega, hpart⟩

omit [Platform P] [LawfulHart H F] in
theorem Retries.of_reraised (hout : StoresOutside (readCsr .mepc m.hart) op)
    (hop : m.asked = some op) (hreg : m₂.register = m.register)
    (hb : Begun m op (HartView.memory m₂.hart)) (hagain : Reraised m m₂ m₃) : Retries m op m₃ := by
  have hreg' : m₃.register = m.register := hagain.register.trans hreg
  have hb' : Begun m op (HartView.memory m₃.hart) := hagain.memory ▸ hb
  exact {
    ready := hagain.ready
    csr := hagain.csr
    register := hreg'
    asked := (asked_congr hagain.csr hreg' (word_of_begun hout hb')).trans hop
    memory := hb' }

/-- All attempts are at the same operation. -/
theorem Attempts.retries (hr : HartView.ready m.hart) (hop : m.asked = some op)
    (hout : StoresOutside (readCsr .mepc m.hart) op) {k : Nat} (h : Attempts m k m₁) :
    Retries m op m₁ := by
  induction h with
  | first => exact ⟨hr, fun c hc => rfl, rfl, hop, .inl rfl⟩
  | again _ hres hagain ih =>
    have hreg := (effect_of_delegated ih.ready (fun op _ => sparesFrame _ op) hres).1.trans
      ih.register
    exact .of_reraised hout hop hreg (ih.begun hres) hagain

omit [Platform P] [LawfulHart H F] in
theorem Begun.memory_eq {memory : Memory} (hb : Begun m op memory)
    (hop : ∀ kind src a, op ≠ .unalignedStore kind src a) : memory = HartView.memory m.hart := by
  rcases hb with hsame | ⟨kind, src, a, i, rfl, -, -⟩
  · exact hsame
  · exact absurd rfl (hop kind src a)

omit [LawfulHart H F] in
/-- The operation means the same before each attempt. -/
theorem Retries.registerAfter_eq (hs : Retries m op m₁) (hmem : op.accessesMemory = true) :
    m₁.registerAfter op = m.registerAfter op := by
  funext r
  cases op with
  | unalignedStore kind src a =>
    simp only [registerAfter, Operation.destination, reduceCtorEq, false_and, if_false, hs.register]
  | unalignedLoad kind rd a =>
    have hloaded := loaded_congr hs.register (hs.memory.memory_eq (by simp))
    simp only [registerAfter, produced, hloaded, hs.register]
  | atomic amo rd addr src =>
    have hloaded := loaded_congr hs.register (hs.memory.memory_eq (by simp))
    simp only [registerAfter, produced, hloaded, hs.register]
  | counterRead half rd => cases hmem
  | sbi c => cases hmem

omit [Platform P] [LawfulHart H F] in
theorem Retries.memoryAfter_eq (hs : Retries m op m₁) : m₁.memoryAfter op = m.memoryAfter op := by
  rcases hs.memory with hsame | ⟨kind, src, a, i, rfl, hi, hpart⟩
  · exact memoryAfter_congr hs.register hsame op
  · -- the bytes that were stored before are stored again
    rw [memoryAfter, memoryAfter, hpart, hs.register, Memory.storeLow_storeLow,
      Nat.max_eq_right hi]

/-- An attempt that resumes completes the operation as the first one would have. -/
theorem Retries.resumed (hs : Retries m op m₁) (hmem : op.accessesMemory = true)
    (hres : handleTrap m₁ = (.resumed, m')) :
    m'.register = m.registerAfter op ∧ HartView.memory m'.hart = m.memoryAfter op := by
  obtain ⟨hreg, hmemory⟩ :=
    effect_of_asked hs.ready (fun op _ => m₁.sparesFrame op) hs.asked hres
  exact ⟨hreg.trans (hs.registerAfter_eq hmem), hmemory.eq.trans hs.memoryAfter_eq⟩

/-- What is asked for is done, unless an access is refused. -/
theorem resumed_of_allSucceed (hr : HartView.ready m.hart) (hop : m.asked = some op)
    (hs : AllSucceed (made m.hart (handleTrap m).2.hart)) : (handleTrap m).1 = .resumed := by
  have hfault := firstFault_made m hr
  rw [firstFault_eq_none_iff.mpr hs] at hfault
  cases ho : handleTrap m with
  | mk o m' =>
  rw [ho] at hfault
  cases o with
  | resumed => rfl
  | delegated f => cases hfault
  | halted u => exact absurd rfl (ne_halted_of_asked hr hop ho u)

/-- Delegated attempts can be repeated. If the attempts at a load, a store or an atomic operation are
delegated any number of times, each for any refused access, and then one resumes, it leaves the
registers and the memory of a single attempt at which no access is refused. -/
theorem attempts_resumed {k : Nat} (hr : HartView.ready m.hart) (hop : m.asked = some op)
    (hmem : op.accessesMemory = true) (hout : StoresOutside (readCsr .mepc m.hart) op)
    (hk : Attempts m k m₁) (hres : handleTrap m₁ = (.resumed, m')) :
    (m'.register = m.registerAfter op ∧ HartView.memory m'.hart = m.memoryAfter op) ∧
      ∀ n, Reraised m m n → AllSucceed (made n.hart (handleTrap n).2.hart) →
        (handleTrap n).1 = .resumed ∧ (handleTrap n).2.register = m'.register ∧
          HartView.memory (handleTrap n).2.hart = HartView.memory m'.hart := by
  obtain ⟨hreg, hmemory⟩ := (hk.retries hr hop hout).resumed hmem hres
  refine ⟨⟨hreg, hmemory⟩, fun n hn hs => ?_⟩
  have hfirst : Retries m op n := .of_reraised hout hop rfl (.inl rfl) hn
  have hresumed := resumed_of_allSucceed hn.ready hfirst.asked hs
  obtain ⟨hreg', hmemory'⟩ := hfirst.resumed hmem (Prod.ext hresumed rfl)
  exact ⟨hresumed, hreg'.trans hreg.symm, hmemory'.trans hmemory.symm⟩

/-- A machine of plain cells that meets its trap again, when memory holds `memory` and no address is
marked as faulting any more. -/
def repaired (m : Machine FlatHart P Frame) (memory : Memory) : Machine FlatHart P Frame :=
  { m with hart := { m.hart with memory := ⟨memory, m.hart.memory.protection.clearFaults⟩ } }

omit [Platform P] in
theorem reraised_repaired {m m₁ : Machine FlatHart P Frame} (hr : HartView.ready m.hart)
    (hreg : m₁.register = m.register) :
    Reraised m m₁ (m.repaired (HartView.memory m₁.hart)) where
  ready := hr
  csr _ _ := rfl
  register := by
    rw [hreg]
    rfl
  memory := rfl

/-- A store that is cut short behind its first byte and tried again when all bytes can be written. -/
theorem attempts_resumed_store :
    let m := trappedOn 0x00652023 6 0x80000201 (fun _ => 0x04030201) 0x80000202
    let op := Operation.unalignedStore .word 6 0x80000201
    let again := m.repaired (HartView.memory (handleTrap m).2.hart)
    (handleTrap m).1 = .delegated ⟨0x80000202, 15⟩ ∧ (handleTrap again).1 = .resumed ∧
      (handleTrap again).2.register = m.registerAfter op ∧
      HartView.memory (handleTrap again).2.hart = m.memoryAfter op := by
  intro m op again
  have hr : HartView.ready m.hart := rfl
  have hop : m.asked = some op := by decide +kernel
  have hout : ∀ i < 4, ∀ j < 4,
      (0x80000201 : Word) + BitVec.ofNat 32 i ≠ 0x80000100 + BitVec.ofNat 32 j := by decide
  have hfirst : (handleTrap m).1 = .delegated ⟨0x80000202, 15⟩ := by decide +kernel
  have hsecond : (handleTrap again).1 = .resumed := by decide +kernel
  have hreg :=
    (effect_of_delegated hr (fun op _ => m.sparesFrame op) (Prod.ext hfirst rfl)).1
  have hk : Attempts m 1 again := .again .first (Prod.ext hfirst rfl) (reraised_repaired hr hreg)
  exact ⟨hfirst, hsecond, (attempts_resumed hr hop rfl hout hk (Prod.ext hsecond rfl)).1⟩

end Machine

end TrapMonitor
