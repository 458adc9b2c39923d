import TrapMonitor.Word

/-! # Byte memory

A memory holds a byte at each of the 2^32 addresses, and addresses wrap around. Longer
accesses are runs of bytes in ascending order. `byte_setByte` says what a write does; the
runs are described through it by `byte_poke_of_outside` and `peek_poke`, and words by
`word_setWord_self` and `word_setWord_of_disjoint`.
-/
namespace TrapMonitor

structure Memory where
  byte : Word → Byte

namespace Memory

def zero : Memory := ⟨fun _ => 0⟩

def setByte (m : Memory) (a : Word) (b : Byte) : Memory :=
  ⟨fun x => if x = a then b else m.byte x⟩

/-- The `n` bytes from address `a` on. -/
def peek (m : Memory) (a : Word) : Nat → List Byte
  | 0 => []
  | n + 1 => m.byte a :: peek m (a + 1) n

/-- Puts a list of bytes at address `a` and behind it. -/
def poke (m : Memory) (a : Word) : List Byte → Memory
  | [] => m
  | b :: rest => poke (m.setByte a b) (a + 1) rest

def word (m : Memory) (a : Word) : Word := .ofBytes (m.peek a 4)

def setWord (m : Memory) (a w : Word) : Memory := m.poke a (Word.bytes 4 w)

/-- Puts a list of words at address `a` and behind it. -/
def pokeWords (m : Memory) (a : Word) : List Word → Memory
  | [] => m
  | w :: rest => pokeWords (m.setWord a w) (a + 4) rest

/-- The `n` words from address `a` on. -/
def peekWords (m : Memory) (a : Word) : Nat → List Word
  | 0 => []
  | n + 1 => m.word a :: peekWords m (a + 4) n

theorem byte_setByte (m : Memory) (a x : Word) (b : Byte) :
    (m.setByte a b).byte x = if x = a then b else m.byte x := rfl

@[simp] theorem byte_setByte_self (m : Memory) (a : Word) (b : Byte) :
    (m.setByte a b).byte a = b := by simp [byte_setByte]

theorem byte_setByte_of_ne (m : Memory) {a x : Word} (b : Byte) (h : x ≠ a) :
    (m.setByte a b).byte x = m.byte x := by simp [byte_setByte, h]

@[simp] theorem length_peek (m : Memory) (a : Word) (n : Nat) : (m.peek a n).length = n := by
  induction n generalizing a with
  | zero => rfl
  | succ n ih => simp [peek, ih]

/-- A byte that is none of the written ones keeps its value. -/
theorem byte_poke_of_outside (m : Memory) (a x : Word) (bs : List Byte)
    (h : ∀ i < bs.length, x ≠ a + BitVec.ofNat 32 i) : (m.poke a bs).byte x = m.byte x := by
  induction bs generalizing m a with
  | nil => rfl
  | cons b rest ih =>
    have h0 : x ≠ a := by simpa using h 0 (by simp)
    rw [poke, ih, byte_setByte_of_ne m b h0]
    intro i hi he
    refine h (i + 1) (by simpa using hi) ?_
    rw [he, BitVec.add_assoc, BitVec.ofNat_add, BitVec.add_comm 1]
    rfl

/-- Reading a run back gives what was put there, if it does not reach around the address space. -/
theorem peek_poke (m : Memory) (a : Word) (bs : List Byte) (h : bs.length ≤ 0x100000000) :
    (m.poke a bs).peek a bs.length = bs := by
  induction bs generalizing m a with
  | nil => rfl
  | cons b rest ih =>
    have hlen : rest.length + 1 ≤ 0x100000000 := by simpa using h
    have hout : ((m.setByte a b).poke (a + 1) rest).byte a = b := by
      rw [byte_poke_of_outside, byte_setByte_self]
      intro i hi he
      have hn := congrArg BitVec.toNat he
      have ha := a.isLt
      have h1 : (1 : Word).toNat = 1 := rfl
      simp only [BitVec.toNat_add, BitVec.toNat_ofNat, h1] at hn
      omega
    simp only [poke, List.length_cons, peek, hout]
    rw [ih _ _ (by omega)]

/-- A run that shares no byte with the written one keeps its contents. -/
theorem peek_poke_of_disjoint (m : Memory) (a b : Word) (bs : List Byte) (n : Nat)
    (h : ∀ j < n, ∀ i < bs.length, b + BitVec.ofNat 32 j ≠ a + BitVec.ofNat 32 i) :
    (m.poke a bs).peek b n = m.peek b n := by
  induction n generalizing b with
  | zero => rfl
  | succ n ih =>
    have h0 : (m.poke a bs).byte b = m.byte b :=
      byte_poke_of_outside m a b bs fun i hi => by simpa using h 0 (by omega) i hi
    simp only [peek, h0]
    rw [ih]
    intro j hj i hi he
    refine h (j + 1) (by omega) i hi ?_
    rw [← he, BitVec.add_assoc, BitVec.ofNat_add, BitVec.add_comm 1]
    rfl

@[simp] theorem word_setWord_self (m : Memory) (a w : Word) : (m.setWord a w).word a = w := by
  have h := peek_poke m a (Word.bytes 4 w) (by simp)
  rw [Word.length_bytes] at h
  rw [word, setWord, h, Word.ofBytes_bytes]

theorem word_setWord_of_disjoint (m : Memory) (a b w : Word)
    (h : ∀ j < 4, ∀ i < 4, b + BitVec.ofNat 32 j ≠ a + BitVec.ofNat 32 i) :
    (m.setWord a w).word b = m.word b := by
  rw [word, setWord, peek_poke_of_disjoint, word]
  simpa using h

end Memory

end TrapMonitor
