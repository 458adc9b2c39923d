import Mathlib.Algebra.Group.Nat.Defs
import TrapMonitor.Bus.SplitRegister

/-! # Registers in plain words

The words of a device are plain if each keeps what is written to it and nothing else changes them.
A register that is split over plain words is then a number: reading gives it, writing replaces it,
and the upper bits of the words never count.
-/
namespace TrapMonitor

/-! ## Plain words -/

/-- A device whose words are plain, whatever else it keeps. -/
class PlainWords (D : Type) [Bus D] where
  words : D → Block
  read_eq : ∀ (i : Nat) (d : D), Bus.read i d = ((words d).get i, d)
  words_write : ∀ (i : Nat) (v : Word) (d : D), words (Bus.write i v d).2 = (words d).set i v

instance : PlainWords Block where
  words b := b
  read_eq _ _ := rfl
  words_write _ _ _ := rfl

/-- A device together with all that was written to it, oldest first. -/
structure Recorder (D : Type) where
  device : D
  writes : List (Nat × Word)

namespace Recorder

variable {D : Type} [Bus D]

instance : Bus (Recorder D) where
  read i := fun r => ((Bus.read i r.device).1, { r with device := (Bus.read i r.device).2 })
  write i v := fun r => ((), ⟨(Bus.write i v r.device).2, r.writes ++ [(i, v)]⟩)
  patience r := Bus.patience r.device

instance [PlainWords D] : PlainWords (Recorder D) where
  words r := PlainWords.words r.device
  read_eq i r := by
    change ((Bus.read i r.device).1, { r with device := (Bus.read i r.device).2 }) = _
    rw [PlainWords.read_eq]
  words_write i v r := PlainWords.words_write i v r.device

/-- The bytes that went out through a word. -/
def sent {D : Type} (port : Nat) (r : Recorder D) : List Byte :=
  (r.writes.filter fun x => x.1 = port).map fun x => x.2.setWidth 8

theorem sent_write_self (port : Nat) (v : Word) (r : Recorder D) :
    (Bus.write port v r).2.sent port = r.sent port ++ [v.setWidth 8] := by
  change Recorder.sent port ⟨_, r.writes ++ [(port, v)]⟩ = _
  simp [sent]

theorem sent_write_of_ne {port i : Nat} (h : i ≠ port) (v : Word) (r : Recorder D) :
    (Bus.write i v r).2.sent port = r.sent port := by
  change Recorder.sent port ⟨_, r.writes ++ [(i, v)]⟩ = _
  simp [sent, h]

end Recorder

namespace Block

theorem length_set (b : Block) (i : Nat) (v : Word) :
    (b.set i v).words.length = b.words.length := List.length_set

theorem get_of_length_le (b : Block) {i : Nat} (h : b.words.length ≤ i) : b.get i = 0 := by
  simp [get, h]

/-- Behind the last word there is nothing to write. -/
theorem set_of_length_le (b : Block) {i : Nat} (v : Word) (h : b.words.length ≤ i) :
    b.set i v = b := by rw [set, List.set_eq_of_length_le h]

end Block

namespace SplitRegister

/-! ## The number in a register -/

/-- The number that the low bytes of `n` words spell, the first of them the most significant. -/
def value (get : Nat → Word) (first : Nat) : Nat → Nat
  | 0 => 0
  | n + 1 => (get first).toNat % 256 * 256 ^ n + value get (first + 1) n

theorem value_congr {get get' : Nat → Word} {first n : Nat}
    (h : ∀ i, first ≤ i → i < first + n → (get' i).toNat % 256 = (get i).toNat % 256) :
    value get' first n = value get first n := by
  induction n generalizing first with
  | zero => rfl
  | succ n ih =>
    rw [value, value, h first (Nat.le_refl _) (by omega), ih fun i hi hn => h i (by omega) (by omega)]

theorem shiftIn_ofNat (a : Nat) (w : Word) :
    shiftIn (BitVec.ofNat 64 a) w = BitVec.ofNat 64 (a * 256 + w.toNat % 256) := by
  have hbyte : ((w &&& 0xff).setWidth 64).toNat = w.toNat % 256 := by
    have hmask : (0xff : Word).toNat = 2 ^ 8 - 1 := rfl
    rw [BitVec.toNat_setWidth, BitVec.toNat_and, hmask, Nat.and_two_pow_sub_one_eq_mod]
    omega
  have hdisjoint : BitVec.ofNat 64 a <<< 8 &&& (w &&& 0xff).setWidth 64 = 0 := by
    apply BitVec.eq_of_getLsbD_eq
    intro i hi
    rw [BitVec.getLsbD_and, BitVec.getLsbD_shiftLeft]
    by_cases h8 : i < 8
    · simp [h8]
    · have hlt : w.toNat % 256 < 2 ^ i :=
        Nat.lt_of_lt_of_le (Nat.mod_lt _ (by decide)) (Nat.pow_le_pow_right (n := 2) (by decide)
          (by omega : 8 ≤ i))
      have hhigh : ((w &&& 0xff).setWidth 64).getLsbD i = false := by
        rw [BitVec.getLsbD, hbyte, Nat.testBit_lt_two_pow hlt]
      rw [hhigh, Bool.and_false]
      exact BitVec.getLsbD_zero.symm
  rw [shiftIn, ← BitVec.add_eq_or_of_and_eq_zero _ _ hdisjoint]
  apply BitVec.eq_of_toNat_eq
  simp only [BitVec.toNat_add, BitVec.toNat_shiftLeft, BitVec.toNat_ofNat, hbyte]
  omega

/-- Of the first word that is read, the low byte counts. -/
theorem toNat_shiftIn_zero (w : Word) : (shiftIn 0 w).toNat = w.toNat % 256 := by
  have h : shiftIn 0 w = BitVec.ofNat 64 (0 * 256 + w.toNat % 256) := shiftIn_ofNat 0 w
  rw [h, BitVec.toNat_ofNat]
  omega

theorem setWidth_shiftIn_zero (w : Word) : (shiftIn 0 w).setWidth 8 = w.setWidth 8 := by
  apply BitVec.eq_of_toNat_eq
  rw [BitVec.toNat_setWidth, toNat_shiftIn_zero, BitVec.toNat_setWidth]
  omega

/-! ## One word at a time -/

section Words

variable {D : Type} [Bus D] (first n : Nat) (d : D)

theorem readFrom_succ (acc : DoubleWord) : readFrom first (n + 1) acc d =
    readFrom (first + 1) n (shiftIn acc (Bus.read first d).1) (Bus.read first d).2 := rfl

theorem writeFrom_succ (v : DoubleWord) : writeFrom first (n + 1) v d =
    writeFrom (first + 1) n v (Bus.write first (byteWord v n) d).2 := rfl

theorem read_of_count_one {r : SplitRegister} (hr : r.count = 1) :
    r.read d = (shiftIn 0 (Bus.read r.first d).1, (Bus.read r.first d).2) := by
  rw [read, hr]
  rfl

theorem poll_succ (r : SplitRegister) (ready : DoubleWord → Bool) : r.poll ready (n + 1) d =
    (if ready (r.read d).1 then pure true else r.poll ready n : StateM D Bool) (r.read d).2 := rfl

end Words

/-! ## Reading a register -/

section Plain

variable {D : Type} [Bus D] [PlainWords D]

theorem readFrom_eq (first n a : Nat) (d : D) : readFrom first n (BitVec.ofNat 64 a) d =
    (BitVec.ofNat 64 (a * 256 ^ n + value (PlainWords.words d).get first n), d) := by
  induction n generalizing first a with
  | zero =>
    rw [value, Nat.pow_zero, Nat.mul_one, Nat.add_zero]
    rfl
  | succ n ih =>
    rw [readFrom_succ, PlainWords.read_eq, shiftIn_ofNat, ih, value, Nat.add_mul, Nat.mul_assoc,
      ← Nat.pow_succ', Nat.add_assoc]

/-- The number that a register of a device holds. -/
def held (r : SplitRegister) (d : D) : Nat := value (PlainWords.words d).get r.first r.count

theorem read_eq (r : SplitRegister) (d : D) : r.read d = (BitVec.ofNat 64 (r.held d), d) := by
  rw [read, held]
  have h := readFrom_eq r.first r.count 0 d
  rw [Nat.zero_mul, Nat.zero_add] at h
  exact h

/-- A status word that does not change is read again as it was. -/
theorem poll_eq (r : SplitRegister) (ready : DoubleWord → Bool) (n : Nat) (d : D) :
    r.poll ready (n + 1) d = (ready (BitVec.ofNat 64 (r.held d)), d) := by
  induction n with
  | zero =>
    rw [poll_succ, r.read_eq]
    cases ready (BitVec.ofNat 64 (r.held d)) <;> rfl
  | succ n ih =>
    rw [poll_succ, r.read_eq]
    cases h : ready (BitVec.ofNat 64 (r.held d)) with
    | true => rfl
    | false => exact ih.trans (by rw [h])

theorem await_eq (r : SplitRegister) (ready : DoubleWord → Bool) (d : D) :
    r.await ready d = (ready (BitVec.ofNat 64 (r.held d)), d) := r.poll_eq ready _ d

/-! ## Writing a register -/

theorem toNat_byteWord (v : DoubleWord) (n : Nat) :
    (byteWord v n).toNat = v.toNat / 256 ^ n % 256 := by
  have hmask : (0xff : DoubleWord).toNat = 2 ^ 8 - 1 := rfl
  rw [byteWord, BitVec.toNat_setWidth, BitVec.toNat_and, hmask, Nat.and_two_pow_sub_one_eq_mod,
    BitVec.toNat_ushiftRight, Nat.shiftRight_eq_div_pow, Nat.pow_mul]
  exact Nat.mod_eq_of_lt (Nat.lt_of_lt_of_le (Nat.mod_lt _ (by decide)) (by decide))

/-- A register whose words are the digits of a number holds it, as far as it has room. -/
theorem value_eq_of_digits {word : Nat → Word} {first n : Nat} {v : DoubleWord}
    (h : ∀ i < n, word (first + i) = byteWord v (n - 1 - i)) :
    value word first n = v.toNat % 256 ^ n := by
  induction n generalizing first with
  | zero => rw [value, Nat.pow_zero, Nat.mod_one]
  | succ n ih =>
    have hfirst : word first = byteWord v n := h 0 (Nat.succ_pos n)
    have hrest : ∀ i < n, word (first + 1 + i) = byteWord v (n - 1 - i) := fun i hi => by
      have hword : first + 1 + i = first + (i + 1) := by omega
      have hplace : n - 1 - i = n + 1 - 1 - (i + 1) := by omega
      rw [hword, hplace]
      exact h (i + 1) (by omega)
    rw [value, hfirst, toNat_byteWord, ih hrest, Nat.mod_mod, Nat.pow_succ, Nat.mod_mul,
      Nat.add_comm, Nat.mul_comm (256 ^ n)]

/-- A byte goes through a register of one word unchanged. -/
theorem setWidth_byteWord (b : Byte) : (byteWord (b.setWidth 64) 0).setWidth 8 = b := by
  apply BitVec.eq_of_toNat_eq
  have hlt := b.isLt
  rw [BitVec.toNat_setWidth, toNat_byteWord, BitVec.toNat_setWidth]
  omega

variable {first n : Nat}

theorem length_writeFrom (v : DoubleWord) (d : D) :
    (PlainWords.words (writeFrom first n v d).2).words.length =
      (PlainWords.words d).words.length := by
  induction n generalizing first d with
  | zero => rfl
  | succ n ih => rw [writeFrom_succ, ih, PlainWords.words_write, Block.length_set]

/-- Words outside of the register stay as they are. -/
theorem get_writeFrom_of_outside {i : Nat} (hi : i < first ∨ first + n ≤ i) (v : DoubleWord)
    (d : D) : (PlainWords.words (writeFrom first n v d).2).get i = (PlainWords.words d).get i := by
  induction n generalizing first d with
  | zero => rfl
  | succ n ih =>
    rw [writeFrom_succ, ih (by omega), PlainWords.words_write, Block.get_set_of_ne _ _ (by omega)]

/-- Writing lays down the digits. -/
theorem get_writeFrom {i : Nat} (v : DoubleWord) (d : D) (hi : i < n)
    (hfits : first + n ≤ (PlainWords.words d).words.length) :
    (PlainWords.words (writeFrom first n v d).2).get (first + i) = byteWord v (n - 1 - i) := by
  induction n generalizing first i d with
  | zero => omega
  | succ n ih =>
    cases i with
    | zero =>
      rw [writeFrom_succ, get_writeFrom_of_outside (by omega), PlainWords.words_write]
      exact Block.get_set_self _ _ (by omega)
    | succ i =>
      have hlength : (PlainWords.words (Bus.write first (byteWord v n) d).2).words.length =
          (PlainWords.words d).words.length := by
        rw [PlainWords.words_write, Block.length_set]
      have hword : first + (i + 1) = first + 1 + i := by omega
      have hplace : n + 1 - 1 - (i + 1) = n - 1 - i := by omega
      rw [writeFrom_succ, hword, hplace]
      exact ih _ (by omega) (by omega)

/-- The register holds what was written to it, as far as it has room. -/
theorem value_writeFrom (v : DoubleWord) (d : D)
    (hfits : first + n ≤ (PlainWords.words d).words.length) :
    value (PlainWords.words (writeFrom first n v d).2).get first n = v.toNat % 256 ^ n :=
  value_eq_of_digits fun _ hi => get_writeFrom v d hi hfits

section Registers

variable (r s : SplitRegister) (v : DoubleWord) (d : D)

@[simp] theorem length_write : (PlainWords.words (r.write v d).2).words.length =
    (PlainWords.words d).words.length := length_writeFrom v d

theorem held_write_self (hfits : r.first + r.count ≤ (PlainWords.words d).words.length) :
    r.held (r.write v d).2 = v.toNat % 256 ^ r.count := value_writeFrom v d hfits

/-- Registers that share no word do not disturb each other. -/
theorem held_write_of_disjoint (h : s.first + s.count ≤ r.first ∨ r.first + r.count ≤ s.first) :
    s.held (r.write v d).2 = s.held d := by
  refine value_congr fun i hi hn => ?_
  rw [write, get_writeFrom_of_outside (by omega)]

end Registers

end Plain

/-! ## Registers that are written alike -/

/-- A relation between devices that lasts through the writing of words lasts through the writing of
registers. -/
theorem write_related {D D' : Type} [Bus D] [Bus D'] {R : D → D' → Prop}
    (hR : ∀ i v d d', R d d' → R (Bus.write i v d).2 (Bus.write i v d').2) (r : SplitRegister)
    (v : DoubleWord) {d : D} {d' : D'} (h : R d d') : R (r.write v d).2 (r.write v d').2 := by
  have hfrom (first n : Nat) {d : D} {d' : D'} (h : R d d') :
      R (writeFrom first n v d).2 (writeFrom first n v d').2 := by
    induction n generalizing first d d' with
    | zero => exact h
    | succ n ih => exact ih (first + 1) (hR first (byteWord v n) d d' h)
  exact hfrom r.first r.count h

end SplitRegister

/-- Devices whose words have the same low bytes. -/
structure SameBytes {D : Type} [Bus D] [PlainWords D] (d d' : D) : Prop where
  length : (PlainWords.words d').words.length = (PlainWords.words d).words.length
  byte : ∀ i, ((PlainWords.words d').get i).toNat % 256 = ((PlainWords.words d).get i).toNat % 256

namespace SameBytes

variable {D : Type} [Bus D] [PlainWords D] {d d' : D} (h : SameBytes d d')

include h

theorem busWrite (i : Nat) (v : Word) : SameBytes (Bus.write i v d).2 (Bus.write i v d').2 where
  length := by
    rw [PlainWords.words_write, PlainWords.words_write, Block.length_set, Block.length_set, h.length]
  byte j := by
    rw [PlainWords.words_write, PlainWords.words_write]
    by_cases hj : i = j
    · subst hj
      by_cases hi : i < (PlainWords.words d).words.length
      · rw [Block.get_set_self _ _ hi, Block.get_set_self _ _ (h.length ▸ hi)]
      · have hi' := h.length ▸ hi
        rw [Block.set_of_length_le _ _ (Nat.not_lt.mp hi),
          Block.set_of_length_le _ _ (Nat.not_lt.mp hi'), h.byte]
    · rw [Block.get_set_of_ne _ _ hj, Block.get_set_of_ne _ _ hj, h.byte]

theorem write (r : SplitRegister) (v : DoubleWord) : SameBytes (r.write v d).2 (r.write v d').2 :=
  r.write_related (fun i v _ _ h => h.busWrite i v) v h

/-- The upper bits of the words do not count. -/
theorem held (r : SplitRegister) : r.held d' = r.held d :=
  SplitRegister.value_congr fun i _ _ => h.byte i

end SameBytes

end TrapMonitor
