import TrapMonitor.Proofs.Core.Refinement
import TrapMonitor.Proofs.Trap.Footprint

/-! # What is fetched, and through which words

An instruction is read through the aligned words that hold its bytes, in order, up to the first that is
refused. Its length decides which words these are, and the parcel at `pc` decides its length. A long
instruction is returned the same from every place. Of a short one the parcel alone is returned from
the upper half of a word, but from the lower half it comes with the parcel behind it.
-/
namespace TrapMonitor

open Hart

/-! ## Rights that loads do not change -/

/-- A hart on which a load that succeeds does not change which loads are refused. -/
class FixedRights (H : Type) [Hart H] [HartView H] : Prop where
  refusedWith_load : ∀ {h h' : H} {w : Width} {a v : Word}, HartView.ready h →
    load w a h = .ok v h' → ∀ (w' : Width) (a' : Word),
      refusedWith (load w' a' h') = refusedWith (load w' a' h)

/-- Rights are fixed that belong to a memory which loads ask and keep. -/
theorem FixedRights.of_memory {H F : Type} [Hart H] [HartView H] [FrameStore H F] [FaithfulHart H F]
    (memory : H → ProtectedMemory)
    (hload : ∀ {h : H}, HartView.ready h → ∀ w a, ∃ d, memory d = memory h ∧
      load w a h = match (memory h).load w a with
        | .ok v => .ok v d
        | .error cause => .error ⟨a, cause⟩ d) : FixedRights H where
  refusedWith_load {h h' w a v} hr hl w' a' := by
    have hmemory : memory h' = memory h := by
      obtain ⟨d, hd, heq⟩ := hload hr w a
      rw [hl] at heq
      cases hc : (memory h).load w a with
      | ok v => simp only [hc, EStateM.Result.ok.injEq] at heq; rw [heq.2, hd]
      | error cause => simp only [hc, reduceCtorEq] at heq
    obtain ⟨d, -, hfirst⟩ := hload hr w' a'
    obtain ⟨d', -, hsecond⟩ := hload (FaithfulHart.load_ok hr hl).2.ready w' a'
    rw [hfirst, hsecond, hmemory]
    cases (memory h).load w' a' <;> rfl

instance : FixedRights FlatHart :=
  .of_memory FlatHart.memory fun {h} _ w a => by
    refine ⟨(h.arm a).note (h.memory.loadRecord w a), h.memory_note_arm a _, ?_⟩
    change FlatHart.loadWidth w a h = _
    cases hc : h.memory.load w a <;> simp only [FlatHart.loadWidth, FlatHart.memory_note_arm, hc]

instance : FixedRights Core :=
  .of_memory Core.memory fun {c} hr w a => by
    refine ⟨Core.behind c ((Core.Barrier.armed [(Core.Barrier.address, a)] c).note
      (c.memory.loadRecord w a)), rfl, ?_⟩
    change Core.tryLoad w a c = _
    rw [Core.tryLoad_eq hr.1, Core.load_armed (Core.reachesRam_armed hr _ w a) rfl]
    cases c.memory.load w a <;> rfl

/-! ## Loads of words -/

section Reads

variable {H F α : Type} [Hart H] [HartView H]

/-- The fault that a load of the word at `a` is refused with, if it is. -/
def refusal (h : H) (a : Word) : Option AccessFault := refusedWith (load .word a h)

/-- The record of loads of words, up to the first that is refused. -/
def loads (h : H) : List Word → List Access
  | [] => []
  | a :: rest =>
    match refusal h a with
    | none => .loaded .word a ((HartView.memory h).word a) :: loads h rest
    | some f => [.refusedLoad .word a f.cause]

variable [FrameStore H F]

/-- The computation loads these words, up to the first that is refused, and does nothing else. -/
structure Reads (F : Type) [FrameStore H F] (x : HartAccess H α) (h : H) (words : List Word) :
    Prop where
  accessed : Accessed F h (loads h words) (stateAfter (x h))
  refused : refusedWith (x h) = words.findSome? (refusal h)

namespace Reads

variable {h : H}

theorem pure (hr : HartView.ready h) (v : α) : Reads F (Pure.pure v : HartAccess H α) h [] where
  accessed := .refl h hr
  refused := rfl

variable [FaithfulHart H F] [FixedRights H]

theorem load_bind (hr : HartView.ready h) {a : Word} {f : Word → HartAccess H α} {words : List Word}
    (hf : ∀ {h'}, Accessed F h [.loaded .word a ((HartView.memory h).word a)] h' →
      Reads F (f ((HartView.memory h).word a)) h' words) :
    Reads F (load .word a >>= f) h (a :: words) := by
  cases hl : load .word a h with
  | ok v h' =>
    obtain ⟨hv, acc⟩ := FaithfulHart.load_ok hr hl
    have hv : v = (HartView.memory h).word a := hv
    subst hv
    have hpass : refusal h a = none := congrArg refusedWith hl
    have hrefusal : refusal h' = refusal h := funext fun b =>
      FixedRights.refusedWith_load hr hl .word b
    have hmemory : HartView.memory h' = HartView.memory h := acc.memory
    have hloads (l : List Word) : loads h' l = loads h l := by
      induction l with
      | nil => rfl
      | cons b l ih => simp only [loads, hrefusal, hmemory, ih]
    obtain ⟨accessed, refused⟩ := hf acc
    constructor
    · rw [bind_apply, hl, loads, hpass, ← hloads]
      exact acc.trans accessed
    · rw [bind_apply, hl, List.findSome?_cons, hpass, ← hrefusal]
      exact refused
  | error f h' =>
    have hrefused : refusal h a = some f := congrArg refusedWith hl
    constructor
    · rw [bind_apply, hl, loads, hrefused]
      exact (FaithfulHart.load_error hr hl).2
    · rw [bind_apply, hl, List.findSome?_cons, hrefused]
      rfl

theorem load (hr : HartView.ready h) (a : Word) :
    Reads F (Hart.load .word a : HartAccess H Word) h [a] := by
  rw [← bind_pure (Hart.load .word a : HartAccess H Word)]
  exact load_bind hr fun acc => .pure acc.ready _

omit [FaithfulHart H F] [FixedRights H] in
/-- How the computation ends, if it returns `v` whenever it returns anything. -/
theorem result {x : HartAccess H α} {words : List Word} {v : α} (hx : Reads F x h words)
    (hv : ∀ {w h'}, x h = .ok w h' → w = v) :
    ∃ h', Accessed F h (loads h words) h' ∧ x h =
      match words.findSome? (refusal h) with
      | none => .ok v h'
      | some f => .error f h' := by
  refine ⟨stateAfter (x h), hx.accessed, ?_⟩
  rw [← hx.refused]
  cases h' : x h with
  | ok w h' => rw [hv h']; rfl
  | error f h' => rfl

end Reads

end Reads

/-! ## The words that hold an instruction -/

/-- The address of the aligned word that holds the byte at `a`. -/
def Word.container (a : Word) : Word := BitVec.ofNat 32 (a.toNat / 4 * 4)

theorem Word.container_eq {a b : Word} (hb : b.toNat % 4 = 0) (h : (a - b).toNat < 4) :
    a.container = b := by
  rw [container, ← BitVec.toNat_inj, BitVec.toNat_ofNat]
  bv_omega

namespace Memory

variable {m : Memory} {pc : Word}

/-- The aligned words that hold bytes of the instruction at `pc`. -/
def instructionWords (m : Memory) (pc : Word) : List Word :=
  ((List.range (m.instructionSize pc)).map fun i => (pc + BitVec.ofNat 32 i).container).eraseDups

/-- The parcel at `pc` tells how long the instruction is. -/
theorem word_and_three_eq_iff : m.word pc &&& 3 = 3 ↔ m.half pc &&& 3 = 3 := by
  have hwide : (m.half pc).setWidth 32 &&& 3 = (m.half pc &&& 3).setWidth 32 := by
    rw [BitVec.setWidth_and]
    rfl
  rw [← half_and_three, hwide]
  bv_omega

/-- An instruction that ends in the word that it starts in. -/
theorem instructionWords_within {b : Word} (hb : b.toNat % 4 = 0)
    (h : (pc - b).toNat + m.instructionSize pc ≤ 4) : m.instructionWords pc = [b] := by
  have hall : ∀ i ∈ List.range (m.instructionSize pc), (pc + BitVec.ofNat 32 i).container = b := by
    intro i hi
    have hlt := List.mem_range.mp hi
    exact Word.container_eq hb (by bv_omega)
  rw [instructionWords, List.map_congr_left hall, instructionSize]
  split <;> simp [List.range_succ, List.eraseDups_cons]

theorem instructionSize_le (m : Memory) (pc : Word) : m.instructionSize pc ≤ 4 := by
  unfold instructionSize
  split <;> decide

theorem instructionWords_aligned (hpc : pc.toNat % 4 = 0) : m.instructionWords pc = [pc] := by
  refine instructionWords_within hpc ?_
  rw [BitVec.sub_self]
  simpa using m.instructionSize_le pc

theorem instructionWords_short (hpc : pc.toNat % 4 = 2) (h : m.half pc &&& 3 ≠ 3) :
    m.instructionWords pc = [pc - 2] := by
  refine instructionWords_within (by bv_omega) ?_
  rw [instructionSize, if_neg (mt word_and_three_eq_iff.mp h)]
  bv_omega

theorem instructionWords_long (hpc : pc.toNat % 4 = 2) (h : m.half pc &&& 3 = 3) :
    m.instructionWords pc = [pc - 2, pc + 2] := by
  have hfront : (pc - 2).toNat % 4 = 0 := by bv_omega
  have hback : (pc + 2).toNat % 4 = 0 := by bv_omega
  have h₀ : (pc + BitVec.ofNat 32 0).container = pc - 2 := Word.container_eq hfront (by bv_omega)
  have h₁ : (pc + BitVec.ofNat 32 1).container = pc - 2 := Word.container_eq hfront (by bv_omega)
  have h₂ : (pc + BitVec.ofNat 32 2).container = pc + 2 := Word.container_eq hback (by bv_omega)
  have h₃ : (pc + BitVec.ofNat 32 3).container = pc + 2 := Word.container_eq hback (by bv_omega)
  have hpair {a b : Word} (hne : b ≠ a) : [a, a, b, b].eraseDups = [a, b] := by
    simp [List.eraseDups_cons, hne]
  have hrange : List.range 4 = [0, 1, 2, 3] := rfl
  rw [instructionWords, instructionSize, if_pos (word_and_three_eq_iff.mpr h), hrange]
  simp only [List.map_cons, List.map_nil, h₀, h₁, h₂, h₃]
  exact hpair (by bv_omega)

/-! ## What is returned for it -/

theorem fetched_of_long (h : m.half pc &&& 3 = 3) :
    m.fetched pc = m.byte (pc + 3) ++ m.byte (pc + 2) ++ m.byte (pc + 1) ++ m.byte pc := by
  rw [fetched, if_pos (.inr (word_and_three_eq_iff.mpr h)), word_eq_append]

theorem fetched_of_short (hpc : pc.toNat % 4 = 2) (h : m.half pc &&& 3 ≠ 3) :
    m.fetched pc = (m.half pc).setWidth 32 := by
  have hupper : ¬ pc &&& 2 = 0 := mt and_two_eq_zero_iff.mp (by omega)
  rw [fetched, if_neg (not_or_intro hupper (mt word_and_three_eq_iff.mp h)), word_and_half]

theorem fetched_of_aligned (hpc : pc.toNat % 4 = 0) :
    m.fetched pc = m.half (pc + 2) ++ m.half pc := by
  rw [fetched, if_pos (.inl (and_two_eq_zero_iff.mpr (by omega))), word_eq_halves]

end Memory

section Fetch

variable {H F : Type} [Hart H] [HartView H] [FrameStore H F] [FaithfulHart H F] [FixedRights H]
  {h : H} {pc : Word}

/-- An instruction is read through the words that hold it. -/
theorem reads_fetch (hr : HartView.ready h) (heven : pc.toNat % 2 = 0) :
    Reads F (fetch pc : HartAccess H Word) h ((HartView.memory h).instructionWords pc) := by
  unfold fetch
  split
  · next hlow =>
    have hpc : pc.toNat % 4 = 0 := by
      have := Memory.and_two_eq_zero_iff.mp hlow
      omega
    rw [Memory.instructionWords_aligned hpc]
    exact .load hr pc
  · next hhigh =>
    have hpc : pc.toNat % 4 = 2 := by
      have := mt Memory.and_two_eq_zero_iff.mpr hhigh
      omega
    -- the upper half of the word in front is the parcel at `pc`
    have hparcel : (HartView.memory h).word (pc - 2) >>> 16 &&& 3 = 3 ↔
        (HartView.memory h).half pc &&& 3 = 3 := by
      rw [Memory.word_ushiftRight_sixteen, BitVec.sub_add_cancel, Memory.half_and_three,
        Memory.word_and_three_eq_iff]
    by_cases h : (HartView.memory h).half pc &&& 3 = 3
    · rw [Memory.instructionWords_long hpc h]
      refine .load_bind hr fun acc => ?_
      rw [if_neg (not_not_intro (hparcel.mpr h))]
      exact .load_bind acc.ready fun acc => .pure acc.ready _
    · rw [Memory.instructionWords_short hpc h]
      refine .load_bind hr fun acc => ?_
      rw [if_pos (mt hparcel.mp h)]
      exact .pure acc.ready _

/-- A fetch loads the words that hold the instruction, in order. It is refused as the first of them is
that is refused, and otherwise returns a long instruction, or a short one. If a short one starts a
word, what is behind it in that word is returned with it. -/
theorem fetch_exact {m : Memory} (hm : HartView.memory h = m) (hr : HartView.ready h)
    (heven : pc.toNat % 2 = 0) :
    (∃ h', Accessed F h (loads h (m.instructionWords pc)) h' ∧ fetch pc h =
      match (m.instructionWords pc).findSome? (refusal h) with
      | none => .ok (m.fetched pc) h'
      | some f => .error f h') ∧
    (m.half pc &&& 3 = 3 →
      m.instructionWords pc = (if pc.toNat % 4 = 0 then [pc] else [pc - 2, pc + 2]) ∧
      m.fetched pc = m.byte (pc + 3) ++ m.byte (pc + 2) ++ m.byte (pc + 1) ++ m.byte pc) ∧
    (m.half pc &&& 3 ≠ 3 →
      m.instructionWords pc = (if pc.toNat % 4 = 0 then [pc] else [pc - 2]) ∧
      m.fetched pc = if pc.toNat % 4 = 0 then m.half (pc + 2) ++ m.half pc
        else (m.half pc).setWidth 32) := by
  subst hm
  refine ⟨(reads_fetch hr heven).result (fetch_eq_ok hr), fun hlong => ?_, fun hshort => ?_⟩
  · refine ⟨?_, Memory.fetched_of_long hlong⟩
    split
    · next hpc => exact Memory.instructionWords_aligned hpc
    · next hpc => exact Memory.instructionWords_long (by omega) hlong
  · split
    · next hpc => exact ⟨Memory.instructionWords_aligned hpc, Memory.fetched_of_aligned hpc⟩
    · next hpc =>
      have hpc : pc.toNat % 4 = 2 := by omega
      exact ⟨Memory.instructionWords_short hpc hshort, Memory.fetched_of_short hpc hshort⟩

end Fetch

/-- A hart on which nothing has happened yet. -/
def FlatHart.fresh (memory : ProtectedMemory) : FlatHart := ⟨fun _ => 0, memory, false, 0, []⟩

/-- A long instruction reaches around the address space, and the word at zero may not be loaded. -/
def FlatHart.wrapping : FlatHart :=
  .fresh ⟨Memory.zero.setWord 0xfffffffc 0xa2830001, ⟨[⟨0, 0x100000000⟩], [], [0], []⟩⟩

/-- The fault at the end of the instruction is reported, after the word at its start was loaded. -/
theorem fetch_exact_wrapping :
    ∃ h', Accessed Frame FlatHart.wrapping
        [.loaded .word 0xfffffffc 0xa2830001, .refusedLoad .word 0 13] h' ∧
      fetch 0xfffffffe FlatHart.wrapping = .error ⟨0, 13⟩ h' := by
  obtain ⟨⟨h', acc, hresult⟩, hlong, -⟩ :=
    fetch_exact (F := Frame) (h := FlatHart.wrapping) rfl rfl
      (show (0xfffffffe : Word).toNat % 2 = 0 by decide)
  obtain ⟨hwords, -⟩ := hlong (by decide)
  rw [hwords] at acc hresult
  exact ⟨h', acc, hresult⟩

/-- Two short instructions in one word. -/
def FlatHart.paired : FlatHart :=
  .fresh ⟨Memory.zero.setWord 0x80000000 0x12344398, ⟨[⟨0x80000000, 4⟩], [], [], []⟩⟩

/-- The first of two short instructions is not returned alone. -/
theorem fetch_paired :
    FlatHart.paired.memory.bytes.half 0x80000000 = 0x4398 ∧ (0x4398 : Half) &&& 3 ≠ 3 ∧
    (∃ h', fetch 0x80000000 FlatHart.paired = .ok 0x12344398 h') ∧
    (0x12344398 : Word) ≠ (0x4398 : Half).setWidth 32 :=
  ⟨by decide, by decide, ⟨_, rfl⟩, by decide⟩

end TrapMonitor
