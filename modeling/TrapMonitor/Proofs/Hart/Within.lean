import TrapMonitor.Proofs.Hart.Accesses

/-! # Accesses at known places

Where a computation makes its accesses is a property of the state that it is run from: the later
addresses can depend on what the first accesses returned, but on nothing else.
-/
namespace TrapMonitor

open Hart

theorem Word.add_one_add_ofNat (a : Word) (i : Nat) :
    a + 1 + BitVec.ofNat 32 i = a + BitVec.ofNat 32 (i + 1) := by
  rw [BitVec.add_assoc, BitVec.ofNat_add, BitVec.add_comm 1]
  rfl

variable {H F : Type} [Hart H] [HartView H] [FrameStore H F] {α β : Type} {h : H}
  {G : AccessKind → Width → Word → Prop}

/-- Run from `h`, the computation makes accesses in `G` and does nothing else. -/
structure Within (F : Type) [FrameStore H F] (G : AccessKind → Width → Word → Prop)
    (x : HartAccess H α) (h : H) : Prop where
  ok : ∀ {v h'}, x h = .ok v h' →
    ∃ made, Accessed F h made h' ∧ ∀ y ∈ made, G y.kind y.width y.address
  error : ∀ {f h'}, x h = .error f h' →
    ∃ made, Accessed F h made h' ∧ ∀ y ∈ made, G y.kind y.width y.address

namespace Within

theorem pure (hr : HartView.ready h) (v : α) : Within F G (Pure.pure v : HartAccess H α) h where
  ok hx := by
    obtain ⟨-, rfl⟩ := pure_eq_ok.mp hx
    exact ⟨[], .refl h hr, by simp⟩
  error hx := absurd hx pure_ne_error

/-- What comes second may depend on what the first accesses returned. -/
theorem bind {x : HartAccess H α} {f : α → HartAccess H β} (first : Within F G x h)
    (second : ∀ {v h' made}, x h = .ok v h' → Accessed F h made h' → Within F G (f v) h') :
    Within F G (x >>= f) h where
  ok hx := by
    obtain ⟨v, u, h₁, h₂⟩ := bind_eq_ok.mp hx
    obtain ⟨made, acc, hp⟩ := first.ok h₁
    obtain ⟨more, acc', hp'⟩ := (second h₁ acc).ok h₂
    exact ⟨made ++ more, acc.trans acc', fun y hy => (List.mem_append.mp hy).elim (hp y) (hp' y)⟩
  error hx := by
    rcases bind_eq_error.mp hx with h₁ | ⟨v, u, h₁, h₂⟩
    · exact first.error h₁
    · obtain ⟨made, acc, hp⟩ := first.ok h₁
      obtain ⟨more, acc', hp'⟩ := (second h₁ acc).error h₂
      exact ⟨made ++ more, acc.trans acc', fun y hy => (List.mem_append.mp hy).elim (hp y) (hp' y)⟩

variable [FaithfulHart H F]

theorem load (hr : HartView.ready h) {w : Width} {a : Word} (ha : G .load w a) :
    Within F G (Hart.load w a : HartAccess H Word) h where
  ok hx := ⟨_, (FaithfulHart.load_ok hr hx).2, by simpa [Access.loaded] using ha⟩
  error hx := ⟨_, (FaithfulHart.load_error hr hx).2, by simpa [Access.refusedLoad] using ha⟩

theorem store (hr : HartView.ready h) {w : Width} {a : Word} (ha : G .store w a) (v : Word) :
    Within F G (Hart.store w a v : HartAccess H Unit) h where
  ok hx := ⟨_, FaithfulHart.store_ok hr hx, by simpa [Access.stored] using ha⟩
  error hx := ⟨_, (FaithfulHart.store_error hr hx).2, by simpa [Access.refusedStore] using ha⟩

theorem readBytes (hr : HartView.ready h) {a : Word} {n : Nat}
    (ha : ∀ i < n, G .load .byte (a + BitVec.ofNat 32 i)) :
    Within F G (Hart.readBytes a n : HartAccess H (List Byte)) h := by
  induction n generalizing a h with
  | zero => exact pure hr _
  | succ n ih =>
    refine bind (load hr (by simpa using ha 0 (Nat.succ_pos n))) fun _ acc => ?_
    refine bind (ih acc.ready fun i hi => ?_) fun _ acc => pure acc.ready _
    rw [Word.add_one_add_ofNat]
    exact ha (i + 1) (Nat.succ_lt_succ hi)

theorem writeBytes (hr : HartView.ready h) {a : Word} {bs : List Byte}
    (ha : ∀ i < bs.length, G .store .byte (a + BitVec.ofNat 32 i)) :
    Within F G (Hart.writeBytes a bs : HartAccess H Unit) h := by
  induction bs generalizing a h with
  | nil => exact pure hr _
  | cons b rest ih =>
    refine bind (store hr (by simpa using ha 0 (by simp)) _) fun _ acc => ih acc.ready fun i hi => ?_
    rw [Word.add_one_add_ofNat]
    exact ha (i + 1) (by simpa using hi)

theorem readUnaligned (hr : HartView.ready h) {a : Word} {n : Nat}
    (ha : ∀ i < n, G .load .byte (a + BitVec.ofNat 32 i)) :
    Within F G (Hart.readUnaligned a n : HartAccess H Word) h :=
  bind (readBytes hr ha) fun _ acc => pure acc.ready _

theorem writeUnaligned (hr : HartView.ready h) {a : Word} {n : Nat}
    (ha : ∀ i < n, G .store .byte (a + BitVec.ofNat 32 i)) (v : Word) :
    Within F G (Hart.writeUnaligned a n v : HartAccess H Unit) h :=
  writeBytes hr (by rwa [Word.length_bytes])

end Within

end TrapMonitor
