import TrapMonitor.Memory

/-! # Memory byte by byte

The runs of bytes that `Memory` reads and writes by recursion are spelled out here: a half and
a word as their bytes side by side, and a store as one condition on the address. All addresses
wrap around.
-/
namespace TrapMonitor

namespace Word

/-- A mask of the lowest bits. -/
theorem getLsbD_and_lowMask (w : Word) (n : Nat) {i : Nat} (hi : i < 32) :
    (w &&& (BitVec.allOnes n).setWidth 32).getLsbD i = (w.getLsbD i && decide (i < n)) := by
  rw [BitVec.getLsbD_and, BitVec.getLsbD_setWidth, BitVec.getLsbD_allOnes]
  simp [hi]

/-- The first byte of a list is the lowest byte of the number it spells. -/
theorem getLsbD_ofBytes_cons (b : Byte) (rest : List Byte) {i : Nat} (hi : i < 32) :
    (ofBytes (b :: rest)).getLsbD i =
      if i < 8 then b.getLsbD i else (ofBytes rest).getLsbD (i - 8) := by
  simp only [ofBytes, BitVec.getLsbD_or, BitVec.getLsbD_setWidth, BitVec.getLsbD_shiftLeft, hi]
  by_cases h : i < 8
  · simp [h]
  · simp [h, BitVec.getLsbD_of_ge b i (by omega)]

theorem ofBytes_two (b₀ b₁ : Byte) : ofBytes [b₀, b₁] = (b₁ ++ b₀).setWidth 32 := by
  apply BitVec.eq_of_getLsbD_eq
  intro i hi
  simp (disch := omega) only [getLsbD_ofBytes_cons, BitVec.getLsbD_setWidth, hi,
    BitVec.getLsbD_append]
  by_cases h : i - 8 < 8
  · simp [h]
  · simp [h, ofBytes, BitVec.getLsbD_of_ge b₁ (i - 8) (by omega)]

theorem ofBytes_four (b₀ b₁ b₂ b₃ : Byte) :
    ofBytes [b₀, b₁, b₂, b₃] = b₃ ++ b₂ ++ b₁ ++ b₀ := by
  apply BitVec.eq_of_getLsbD_eq
  intro i hi
  simp (disch := omega) only [getLsbD_ofBytes_cons, BitVec.getLsbD_append]
  simp only [show i - 8 - 8 - 8 < 8 by omega, if_true]

theorem take_bytes {i n : Nat} (h : i ≤ n) (w : Word) : (bytes n w).take i = bytes i w := by
  induction n generalizing i w with
  | zero => simp [Nat.le_zero.mp h, bytes]
  | succ n ih =>
    cases i with
    | zero => rfl
    | succ i => simp [bytes, ih (Nat.le_of_succ_le_succ h)]

end Word

namespace Memory

/-- The half at any address. -/
def half (m : Memory) (a : Word) : Half := m.byte (a + 1) ++ m.byte a

theorem ofBytes_peek_two (m : Memory) (a : Word) :
    Word.ofBytes (m.peek a 2) = (m.half a).setWidth 32 := by
  simp only [peek, Word.ofBytes_two, half]

theorem word_eq_append (m : Memory) (a : Word) :
    m.word a = m.byte (a + 3) ++ m.byte (a + 2) ++ m.byte (a + 1) ++ m.byte a := by
  have h₂ : a + 1 + 1 = a + 2 := by rw [BitVec.add_assoc]; rfl
  have h₃ : a + 2 + 1 = a + 3 := by rw [BitVec.add_assoc]; rfl
  simp only [word, peek, Word.ofBytes_four, h₂, h₃]

theorem word_congr {m m' : Memory} {a : Word}
    (h : ∀ i < 4, m'.byte (a + BitVec.ofNat 32 i) = m.byte (a + BitVec.ofNat 32 i)) :
    m'.word a = m.word a := by
  have h₀ : m'.byte a = m.byte a := by simpa using h 0 (by decide)
  have h₁ : m'.byte (a + 1) = m.byte (a + 1) := h 1 (by decide)
  have h₂ : m'.byte (a + 2) = m.byte (a + 2) := h 2 (by decide)
  have h₃ : m'.byte (a + 3) = m.byte (a + 3) := h 3 (by decide)
  rw [word_eq_append, word_eq_append, h₀, h₁, h₂, h₃]

theorem word_eq_halves (m : Memory) (a : Word) : m.word a = m.half (a + 2) ++ m.half a := by
  have h₃ : a + 2 + 1 = a + 3 := by rw [BitVec.add_assoc]; rfl
  rw [word_eq_append, half, half, h₃]
  exact BitVec.append_assoc

theorem word_ushiftRight_sixteen (m : Memory) (a : Word) :
    m.word a >>> 16 = (m.half (a + 2)).setWidth 32 := by
  apply BitVec.eq_of_getLsbD_eq
  intro i hi
  rw [word_eq_halves, BitVec.getLsbD_ushiftRight, BitVec.getLsbD_append]
  simp [hi]

theorem word_and_half (m : Memory) (a : Word) : m.word a &&& 0xffff = (m.half a).setWidth 32 := by
  apply BitVec.eq_of_getLsbD_eq
  intro i hi
  have hmask : (0xffff : Word) = (BitVec.allOnes 16).setWidth 32 := rfl
  rw [hmask, Word.getLsbD_and_lowMask _ _ hi, word_eq_halves, BitVec.getLsbD_append,
    BitVec.getLsbD_setWidth]
  by_cases h : i < 16
  · simp [h, hi]
  · simp [h, BitVec.getLsbD_of_ge (m.half a) i (by omega)]

/-- The lowest bits of a word are those of its lower half. -/
theorem half_and_three (m : Memory) (a : Word) :
    (m.half a).setWidth 32 &&& 3 = m.word a &&& 3 := by
  have hmask : (0xffff : Word) &&& 3 = 3 := rfl
  rw [← word_and_half, BitVec.and_assoc, hmask]

theorem half_or_word_shiftLeft (m : Memory) (a : Word) :
    (m.half a).setWidth 32 ||| m.word (a + 2) <<< 16 = m.word a := by
  apply BitVec.eq_of_getLsbD_eq
  intro i hi
  rw [word_eq_halves m a, word_eq_halves m (a + 2), BitVec.getLsbD_append, BitVec.getLsbD_or,
    BitVec.getLsbD_setWidth, BitVec.getLsbD_shiftLeft, BitVec.getLsbD_append]
  by_cases h : i < 16
  · simp [h, hi]
  · simp [h, hi, show i - 16 < 16 by omega, BitVec.getLsbD_of_ge (m.half a) i (by omega)]

/-- The memory after the lowest `n` bytes of `v` were stored at `a` and behind it. -/
def storeLow (m : Memory) (a : Word) (n : Nat) (v : Word) : Memory :=
  ⟨fun x => if (x - a).toNat < n then v.extractLsb' (8 * (x - a).toNat) 8 else m.byte x⟩

/-- Storing one byte more puts the next byte of the value behind the others. -/
theorem storeLow_setByte (m : Memory) (a v : Word) {n : Nat} (h : n < 0x100000000) :
    (m.setByte a (v.setWidth 8)).storeLow (a + 1) n (v >>> 8) = m.storeLow a (n + 1) v := by
  have key (x : Word) (hx : x ≠ a) : (x - (a + 1)).toNat + 1 = (x - a).toNat := by
    have hd : (x - a).toNat ≠ 0 := fun he =>
      hx (by simpa using BitVec.sub_eq_iff_eq_add.mp (BitVec.eq_of_toNat_eq (y := 0#32) he))
    have h1 : (1 : Word).toNat = 1 := rfl
    have hx' := x.isLt
    have ha' := a.isLt
    simp only [BitVec.toNat_sub, BitVec.toNat_add, h1] at hd ⊢
    omega
  refine congrArg Memory.mk (funext fun x => ?_)
  by_cases hx : x = a
  · subst hx
    have hlast : ¬ (x - (x + 1)).toNat < n := by
      have hx := x.isLt
      have h1 : (1 : Word).toNat = 1 := rfl
      simp only [BitVec.toNat_sub, BitVec.toNat_add, h1]
      omega
    simp only [hlast, if_false, byte_setByte_self, BitVec.sub_self, BitVec.toNat_zero,
      Nat.zero_lt_succ, if_true]
    exact BitVec.setWidth_eq_extractLsb' (by decide)
  · rw [← key x hx, byte_setByte_of_ne m _ hx]
    by_cases hn : (x - (a + 1)).toNat < n
    · simp only [hn, if_true, Nat.add_lt_add_iff_right]
      apply BitVec.eq_of_getLsbD_eq
      intro i hi
      simp only [BitVec.getLsbD_extractLsb', BitVec.getLsbD_ushiftRight]
      congr 2
      omega
    · simp only [hn, if_false, Nat.add_lt_add_iff_right]

theorem poke_bytes (m : Memory) (a v : Word) {n : Nat} (h : n ≤ 0x100000000) :
    m.poke a (Word.bytes n v) = m.storeLow a n v := by
  induction n generalizing m a v with
  | zero => rfl
  | succ n ih =>
    rw [Word.bytes, poke, ih _ _ _ (by omega), storeLow_setByte m a v (by omega)]

theorem byte_storeLow (m : Memory) (a x v : Word) (n : Nat) :
    (m.storeLow a n v).byte x =
      if (x - a).toNat < n then v.extractLsb' (8 * (x - a).toNat) 8 else m.byte x := rfl

/-- Storing the same bytes again, and perhaps more or fewer of them. -/
theorem storeLow_storeLow (m : Memory) (a v : Word) (i j : Nat) :
    (m.storeLow a i v).storeLow a j v = m.storeLow a (max i j) v := by
  have hbyte (x : Word) :
      ((m.storeLow a i v).storeLow a j v).byte x = (m.storeLow a (max i j) v).byte x := by
    have hmax : (x - a).toNat < max i j ↔ (x - a).toNat < j ∨ (x - a).toNat < i := by omega
    simp only [byte_storeLow, hmax]
    by_cases hj : (x - a).toNat < j
    · simp only [hj, true_or, if_true]
    · simp only [hj, false_or, if_false]
  exact congrArg Memory.mk (funext hbyte)

theorem word_storeLow_of_disjoint (m : Memory) {a b : Word} (v : Word) {n : Nat}
    (hn : n ≤ 0x100000000)
    (h : ∀ i < n, ∀ j < 4, a + BitVec.ofNat 32 i ≠ b + BitVec.ofNat 32 j) :
    (m.storeLow a n v).word b = m.word b := by
  rw [← poke_bytes _ _ _ hn, word, peek_poke_of_disjoint, word]
  rw [Word.length_bytes]
  intro j hj i hi
  exact (h i hi j hj).symm

theorem setWord_eq_storeLow (m : Memory) (a w : Word) : m.setWord a w = m.storeLow a 4 w :=
  poke_bytes m a w (by decide)

end Memory

end TrapMonitor
