import TrapMonitor.Proofs.Computation
import TrapMonitor.Proofs.Hart.Contract
import TrapMonitor.Proofs.Memory.Bytes

/-! # Runs of accesses

Fetching an instruction and moving an operand byte by byte are runs of single accesses. What
holds of the accesses and passes from parts to the whole holds of the runs (`Sequential`). One such
property is that a run ends at the first access that is refused (`Probes`). What a run returns,
and what it leaves in memory when it ends early, is stated for each of the runs.
-/
namespace TrapMonitor

open Hart

/-! ## Properties of runs -/

section Sequential

variable {H : Type} {P : (α : Type) → HartAccess H α → Prop}

/-- A property of computations that one computation after another inherits. -/
structure Sequential (P : (α : Type) → HartAccess H α → Prop) : Prop where
  pure : ∀ {α : Type} (v : α), P α (Pure.pure v)
  bind : ∀ {α β : Type} {x : HartAccess H α} {f : α → HartAccess H β}, P α x →
    (∀ v, P β (f v)) → P β (x >>= f)

namespace Sequential

variable [Hart H] (hP : Sequential P)

include hP

section Loads

variable (hload : ∀ w a, P Word (load w a))

include hload

theorem fetch (pc : Word) : P Word (Hart.fetch pc) := by
  unfold Hart.fetch
  split
  · exact hload .word pc
  · refine hP.bind (hload .word _) fun first => ?_
    dsimp only
    split
    · exact hP.pure _
    · exact hP.bind (hload .word _) fun next => hP.pure _

theorem readBytes (a : Word) (n : Nat) : P (List Byte) (Hart.readBytes a n) := by
  induction n generalizing a with
  | zero => exact hP.pure _
  | succ n ih =>
    exact hP.bind (hload .byte a) fun b => hP.bind (ih (a + 1)) fun rest => hP.pure _

theorem readUnaligned (a : Word) (n : Nat) : P Word (Hart.readUnaligned a n) :=
  hP.bind (hP.readBytes hload a n) fun _ => hP.pure _

end Loads

variable (hstore : ∀ w a v, P Unit (store w a v))

include hstore

theorem writeBytes (a : Word) (bs : List Byte) : P Unit (Hart.writeBytes a bs) := by
  induction bs generalizing a with
  | nil => exact hP.pure _
  | cons b rest ih => exact hP.bind (hstore .byte a _) fun _ => ih (a + 1)

theorem writeUnaligned (a : Word) (n : Nat) (v : Word) : P Unit (Hart.writeUnaligned a n v) :=
  hP.writeBytes hstore a _

end Sequential

end Sequential

/-! ## Invariants of runs -/

section Keeps

variable {H α β : Type} {I : H → Prop}

/-- A computation preserves `I`, whether or not it fails. -/
structure Keeps (I : H → Prop) (x : HartAccess H α) : Prop where
  ok : ∀ {h h' v}, I h → x h = .ok v h' → I h'
  error : ∀ {h h' f}, I h → x h = .error f h' → I h'

namespace Keeps

theorem pure (v : α) : Keeps I (Pure.pure v : HartAccess H α) where
  ok hi hx := by
    obtain ⟨-, rfl⟩ := pure_eq_ok.mp hx
    exact hi
  error _ hx := absurd hx pure_ne_error

theorem bind {x : HartAccess H α} {f : α → HartAccess H β} (first : Keeps I x)
    (second : ∀ v, Keeps I (f v)) : Keeps I (x >>= f) where
  ok hi hx := by
    obtain ⟨v, u, h₁, h₂⟩ := bind_eq_ok.mp hx
    exact (second v).ok (first.ok hi h₁) h₂
  error hi hx := by
    rcases bind_eq_error.mp hx with h₁ | ⟨v, u, h₁, h₂⟩
    · exact first.error hi h₁
    · exact (second v).error (first.ok hi h₁) h₂

theorem sequential : Sequential fun α (x : HartAccess H α) => Keeps I x := ⟨pure, bind⟩

theorem of_ends {x : HartAccess H α}
    (hx : ∀ h, I h → ∃ h', I h' ∧ ((∃ v, x h = .ok v h') ∨ ∃ f, x h = .error f h')) :
    Keeps I x where
  ok {h h' v} hi hok := by
    obtain ⟨u, hu, ⟨w, hw⟩ | ⟨f, hf⟩⟩ := hx h hi
    · cases hw.symm.trans hok
      exact hu
    · cases hf.symm.trans hok
  error {h h' f} hi herr := by
    obtain ⟨u, hu, ⟨w, hw⟩ | ⟨f, hf⟩⟩ := hx h hi
    · cases hw.symm.trans herr
    · cases hf.symm.trans herr
      exact hu

end Keeps

end Keeps

/-! ## Records of accesses -/

namespace Access

def AllSucceed (made : List Access) : Prop := ∀ x ∈ made, x.cause = none

/-- The last access was refused, with this fault, and no other. -/
def StopsWith (made : List Access) (f : AccessFault) : Prop :=
  ∃ before last, made = before ++ [last] ∧ AllSucceed before ∧ last.fault = some f

/-- The fault of the first access that was refused. -/
def firstFault (made : List Access) : Option AccessFault := made.findSome? fault

theorem allSucceed_nil : AllSucceed [] := by simp [AllSucceed]

theorem AllSucceed.append {made more : List Access} (first : AllSucceed made)
    (second : AllSucceed more) : AllSucceed (made ++ more) := by
  intro x hx
  rcases List.mem_append.mp hx with h | h
  · exact first x h
  · exact second x h

theorem StopsWith.append {made more : List Access} {f : AccessFault} (first : AllSucceed made)
    (second : StopsWith more f) : StopsWith (made ++ more) f := by
  obtain ⟨before, last, rfl, hb, hl⟩ := second
  exact ⟨made ++ before, last, by rw [List.append_assoc], first.append hb, hl⟩

theorem firstFault_eq_none_iff {made : List Access} :
    firstFault made = none ↔ AllSucceed made := by
  simp [firstFault, AllSucceed, fault]

theorem StopsWith.firstFault {made : List Access} {f : AccessFault} (h : StopsWith made f) :
    Access.firstFault made = some f := by
  obtain ⟨before, last, rfl, hb, hl⟩ := h
  have hnone := firstFault_eq_none_iff.mpr hb
  unfold Access.firstFault at hnone ⊢
  rw [List.findSome?_append, hnone]
  simp [hl]

theorem not_allSucceed_of_stopsWith {made : List Access} {f : AccessFault}
    (h : StopsWith made f) : ¬ AllSucceed made := by
  intro hs
  have hsome := h.firstFault
  rw [firstFault_eq_none_iff.mpr hs] at hsome
  cases hsome

theorem foldl_apply_of_loads {made : List Access} (h : ∀ x ∈ made, x.kind = .load) (m : Memory) :
    made.foldl apply m = m := by
  induction made with
  | nil => rfl
  | cons x rest ih =>
    have hx : apply m x = m := by simp [apply, h x]
    rw [List.foldl_cons, hx, ih fun y hy => h y (List.mem_cons_of_mem x hy)]

end Access

open Access

/-! ## Runs up to the first refusal -/

variable {H F : Type} [Hart H] [HartView H] [FrameStore H F] [FaithfulHart H F] {α β : Type}

omit [FaithfulHart H F] in
/-- Loads leave memory alone, whether or not they are refused. -/
theorem Accessed.memory_of_loads {h h' : H} {made : List Access} (acc : Accessed F h made h')
    (hl : ∀ y ∈ made, y.kind = .load) : HartView.memory h' = HartView.memory h := by
  rw [acc.memory, foldl_apply_of_loads hl]

/-- A computation that only makes accesses, all of them in `P`, and fails with the fault of the
first that is refused, which is also the last that it makes. -/
structure Probes (F : Type) [FrameStore H F] (P : Access → Prop) (x : HartAccess H α) : Prop where
  ok : ∀ {h h' v}, HartView.ready h → x h = .ok v h' →
    ∃ made, Accessed F h made h' ∧ AllSucceed made ∧ ∀ y ∈ made, P y
  error : ∀ {h h' f}, HartView.ready h → x h = .error f h' →
    ∃ made, Accessed F h made h' ∧ StopsWith made f ∧ ∀ y ∈ made, P y

namespace Probes

variable {P : Access → Prop}

omit [FaithfulHart H F] in
theorem pure (v : α) : Probes F P (Pure.pure v : HartAccess H α) where
  ok hr hx := by
    obtain ⟨-, rfl⟩ := pure_eq_ok.mp hx
    exact ⟨[], Accessed.refl _ hr, allSucceed_nil, by simp⟩
  error _ hx := absurd hx pure_ne_error

omit [FaithfulHart H F] in
theorem bind {x : HartAccess H α} {f : α → HartAccess H β} (first : Probes F P x)
    (second : ∀ v, Probes F P (f v)) : Probes F P (x >>= f) where
  ok hr hx := by
    obtain ⟨v, u, h₁, h₂⟩ := bind_eq_ok.mp hx
    obtain ⟨made, acc, hs, hp⟩ := first.ok hr h₁
    obtain ⟨more, acc', hs', hp'⟩ := (second v).ok acc.ready h₂
    refine ⟨made ++ more, acc.trans acc', hs.append hs', fun y hy => ?_⟩
    exact (List.mem_append.mp hy).elim (hp y) (hp' y)
  error hr hx := by
    rcases bind_eq_error.mp hx with h₁ | ⟨v, u, h₁, h₂⟩
    · exact first.error hr h₁
    · obtain ⟨made, acc, hs, hp⟩ := first.ok hr h₁
      obtain ⟨more, acc', hf, hp'⟩ := (second v).error acc.ready h₂
      refine ⟨made ++ more, acc.trans acc', hf.append hs, fun y hy => ?_⟩
      exact (List.mem_append.mp hy).elim (hp y) (hp' y)

omit [FaithfulHart H F] in
theorem sequential : Sequential fun α (x : HartAccess H α) => Probes F P x := ⟨pure, bind⟩

omit [FaithfulHart H F] in
theorem mono {Q : Access → Prop} {x : HartAccess H α} (hx : Probes F P x) (h : ∀ y, P y → Q y) :
    Probes F Q x where
  ok hr hok := by
    obtain ⟨made, acc, hs, hp⟩ := hx.ok hr hok
    exact ⟨made, acc, hs, fun y hy => h y (hp y hy)⟩
  error hr herr := by
    obtain ⟨made, acc, hf, hp⟩ := hx.error hr herr
    exact ⟨made, acc, hf, fun y hy => h y (hp y hy)⟩

theorem load (w : Width) (a : Word) :
    Probes F (fun y => y.kind = .load) (Hart.load w a : HartAccess H Word) where
  ok hr hx := ⟨_, (FaithfulHart.load_ok hr hx).2, by simp [AllSucceed, loaded], by simp [loaded]⟩
  error {h h' f} hr hx := by
    obtain ⟨ha, acc⟩ := FaithfulHart.load_error hr hx
    refine ⟨_, acc, ⟨[], _, rfl, allSucceed_nil, ?_⟩, by simp [refusedLoad]⟩
    rw [← ha]
    rfl

theorem store (w : Width) (a v : Word) :
    Probes F (fun y => y.kind = .store) (Hart.store w a v : HartAccess H Unit) where
  ok hr hx := ⟨_, FaithfulHart.store_ok hr hx, by simp [AllSucceed, stored], by simp [stored]⟩
  error {h h' f} hr hx := by
    obtain ⟨ha, acc⟩ := FaithfulHart.store_error hr hx
    refine ⟨_, acc, ⟨[], _, rfl, allSucceed_nil, ?_⟩, by simp [refusedStore]⟩
    rw [← ha]
    rfl

end Probes

/-! ## The instruction -/

namespace Memory

/-- What is fetched at `pc`: the word there, of which only the lower half counts when that alone was
read. -/
def fetched (m : Memory) (pc : Word) : Word :=
  if pc &&& 2 = 0 ∨ m.word pc &&& 3 = 3 then m.word pc else m.word pc &&& 0xffff

end Memory

include F

theorem probes_fetch (pc : Word) :
    Probes F (fun y => y.kind = .load) (fetch pc : HartAccess H Word) :=
  Probes.sequential.fetch Probes.load pc

/-- No instruction is fetched without an access. -/
theorem made_of_fetch_ne_nil {pc w : Word} {h h' : H} (hr : HartView.ready h)
    (hx : fetch pc h = .ok w h') : made h h' ≠ [] := by
  unfold fetch at hx
  split at hx
  · have acc := (FaithfulHart.load_ok hr hx).2
    rw [acc.made_eq rfl]
    simp
  · obtain ⟨first, h₁, hfirst, hx⟩ := bind_eq_ok.mp hx
    have acc := (FaithfulHart.load_ok hr hfirst).2
    have hrest : Probes F (fun y => y.kind = .load) (if first >>> 16 &&& 3 ≠ 3 then
        pure (first >>> 16) else do
          let next ← readWord (pc + 2)
          return first >>> 16 ||| next <<< 16 : HartAccess H Word) := by
      split
      · exact Probes.pure _
      · exact (Probes.load _ _).bind fun _ => Probes.pure _
    obtain ⟨more, acc', -⟩ := hrest.ok acc.ready hx
    rw [(acc.trans acc').made_eq rfl]
    simp

theorem fetch_eq_ok {pc w : Word} {h h' : H} (hr : HartView.ready h)
    (hx : fetch pc h = .ok w h') : w = (HartView.memory h).fetched pc := by
  unfold fetch at hx
  unfold Memory.fetched
  split at hx
  · next haligned => simp only [haligned, true_or, if_true, (FaithfulHart.load_ok hr hx).1]; rfl
  · next haligned =>
    obtain ⟨first, h₁, hfirst, hx⟩ := bind_eq_ok.mp hx
    obtain ⟨hv, acc⟩ := FaithfulHart.load_ok hr hfirst
    -- the upper half of the word in front is the half at `pc`
    have hlow : first >>> 16 = ((HartView.memory h).half pc).setWidth 32 := by
      rw [hv, ProtectedMemory.contents, Memory.word_ushiftRight_sixteen, BitVec.sub_add_cancel]
    have hmem : HartView.memory h₁ = HartView.memory h := acc.memory
    simp only [hlow, Memory.half_and_three] at hx
    split at hx
    · next hshort =>
      obtain ⟨rfl, -⟩ := pure_eq_ok.mp hx
      simp only [haligned, hshort, or_self, if_false, Memory.word_and_half]
    · next hlong =>
      obtain ⟨next, h₂, hnext, hx⟩ := bind_eq_ok.mp hx
      obtain ⟨rfl, -⟩ := pure_eq_ok.mp hx
      obtain ⟨rfl, -⟩ := FaithfulHart.load_ok acc.ready hnext
      rw [hmem, ProtectedMemory.contents, Memory.half_or_word_shiftLeft,
        if_pos (.inr (Classical.not_not.mp hlong))]

/-! ## Operands -/

theorem readBytes_eq_ok {a : Word} {n : Nat} {bs : List Byte} {h h' : H} (hr : HartView.ready h)
    (hx : readBytes a n h = .ok bs h') : bs = (HartView.memory h).peek a n := by
  induction n generalizing a bs h with
  | zero => exact (pure_eq_ok.mp hx).1.symm
  | succ n ih =>
    obtain ⟨b, h₁, hb, hx⟩ := bind_eq_ok.mp hx
    obtain ⟨rest, h₂, hrest, hx⟩ := bind_eq_ok.mp hx
    obtain ⟨rfl, rfl⟩ := pure_eq_ok.mp hx
    obtain ⟨rfl, acc⟩ := FaithfulHart.load_ok hr hb
    have hmem : HartView.memory h₁ = HartView.memory h := acc.memory
    rw [ih acc.ready hrest, hmem, Memory.peek]
    simp [ProtectedMemory.contents]

theorem probes_readUnaligned (a : Word) (n : Nat) :
    Probes F (fun y => y.kind = .load) (readUnaligned a n : HartAccess H Word) :=
  Probes.sequential.readUnaligned Probes.load a n

theorem readUnaligned_eq_ok {a v : Word} {n : Nat} {h h' : H} (hr : HartView.ready h)
    (hx : readUnaligned a n h = .ok v h') : v = .ofBytes ((HartView.memory h).peek a n) := by
  obtain ⟨bs, h₁, hbs, hx⟩ := bind_eq_ok.mp hx
  obtain ⟨rfl, -⟩ := pure_eq_ok.mp hx
  rw [readBytes_eq_ok hr hbs]

omit [FaithfulHart H F] in
/-- The store of one byte. -/
theorem memory_of_stored_byte {a : Word} {b : Byte} {h h' : H}
    (acc : Accessed F h [.stored .byte a (b.setWidth 32)] h') :
    HartView.memory h' = (HartView.memory h).setByte a b := by
  have hb : (b.setWidth 32).setWidth 8 = b := by simp
  simp only [acc.memory, List.foldl_cons, List.foldl_nil, apply_stored, ProtectedMemory.update, hb]

theorem writeBytes_eq_ok {a : Word} {bs : List Byte} {h h' : H} (hr : HartView.ready h)
    (hx : writeBytes a bs h = .ok () h') :
    HartView.memory h' = (HartView.memory h).poke a bs := by
  induction bs generalizing a h with
  | nil =>
    obtain ⟨-, rfl⟩ := pure_eq_ok.mp hx
    rfl
  | cons b rest ih =>
    obtain ⟨⟨⟩, h₁, hb, hx⟩ := bind_eq_ok.mp hx
    have acc := FaithfulHart.store_ok hr hb
    rw [ih acc.ready hx, memory_of_stored_byte acc, Memory.poke]

/-- The bytes in front of the one that was refused are written, and no others. -/
theorem writeBytes_eq_error {a : Word} {bs : List Byte} {f : AccessFault} {h h' : H}
    (hr : HartView.ready h) (hx : writeBytes a bs h = .error f h') :
    ∃ i < bs.length, f.address = a + BitVec.ofNat 32 i ∧
      HartView.memory h' = (HartView.memory h).poke a (bs.take i) := by
  induction bs generalizing a h with
  | nil => exact absurd hx pure_ne_error
  | cons b rest ih =>
    rcases bind_eq_error.mp hx with hb | ⟨⟨⟩, h₁, hb, hx⟩
    · obtain ⟨ha, acc⟩ := FaithfulHart.store_error hr hb
      exact ⟨0, by simp, by simp [ha], acc.memory⟩
    · have acc := FaithfulHart.store_ok hr hb
      obtain ⟨i, hi, ha, hmem⟩ := ih acc.ready hx
      refine ⟨i + 1, by simpa using hi, ?_, ?_⟩
      · rw [ha, BitVec.add_assoc, BitVec.ofNat_add, BitVec.add_comm 1]
        rfl
      · rw [hmem, memory_of_stored_byte acc, List.take_succ_cons, Memory.poke]

theorem probes_writeUnaligned (a : Word) (n : Nat) (v : Word) :
    Probes F (fun y => y.kind = .store) (writeUnaligned a n v : HartAccess H Unit) :=
  Probes.sequential.writeUnaligned Probes.store a n v

theorem writeUnaligned_eq_ok {a v : Word} {n : Nat} {h h' : H} (hn : n ≤ 0x100000000)
    (hr : HartView.ready h) (hx : writeUnaligned a n v h = .ok () h') :
    HartView.memory h' = (HartView.memory h).storeLow a n v := by
  rw [writeBytes_eq_ok hr hx, Memory.poke_bytes _ _ _ hn]

theorem writeUnaligned_eq_error {a v : Word} {n : Nat} {f : AccessFault} {h h' : H}
    (hn : n ≤ 0x100000000) (hr : HartView.ready h) (hx : writeUnaligned a n v h = .error f h') :
    ∃ i < n, f.address = a + BitVec.ofNat 32 i ∧
      HartView.memory h' = (HartView.memory h).storeLow a i v := by
  obtain ⟨i, hi, ha, hmem⟩ := writeBytes_eq_error hr hx
  rw [Word.length_bytes] at hi
  refine ⟨i, hi, ha, ?_⟩
  rw [hmem, Word.take_bytes (by omega), Memory.poke_bytes _ _ _ (by omega)]

end TrapMonitor
