import Mathlib.Algebra.BigOperators.Intervals
import TrapMonitor.Proofs.Bus.Words

/-! # Splitting a number over words and assembling it again

A register over plain words is a numeral of as many digits as it has words, the most significant
first. Reading is the value of the numeral, writing lays down the digits of a number
(`toNat_byteWord`), and each undoes the other as far as there are words. A register of more than
eight words is not written at all, since the first shift is refused before the first word.
-/
namespace TrapMonitor

theorem Block.ext_get {b b' : Block} (hlength : b'.words.length = b.words.length)
    (h : ∀ i, b'.get i = b.get i) : b' = b := by
  have hwords : b'.words = b.words := by
    refine List.ext_getElem hlength fun i hi hi' => ?_
    have hget := h i
    simpa only [get, List.getD_eq_getElem?_getD, List.getElem?_eq_getElem hi,
      List.getElem?_eq_getElem hi', Option.getD_some] using hget
  cases b
  cases b'
  exact congrArg Block.mk hwords

namespace SplitRegister

/-! ## The digits of a register -/

section Digits

variable (get : Nat → Word) (first n : Nat)

theorem value_eq_sum : value get first n =
    ∑ i ∈ Finset.range n, (get (first + i)).toNat % 256 * 256 ^ (n - 1 - i) := by
  induction n generalizing first with
  | zero => rfl
  | succ n ih =>
    rw [value, ih, Finset.sum_range_succ', Nat.add_comm]
    refine congrArg (· + _) (Finset.sum_congr rfl fun i _ => ?_)
    have hword : first + 1 + i = first + (i + 1) := by omega
    have hplace : n - 1 - i = n + 1 - 1 - (i + 1) := by omega
    rw [hword, hplace]

theorem value_lt : value get first n < 256 ^ n := by
  induction n generalizing first with
  | zero => exact Nat.one_pos
  | succ n ih =>
    have hdigit : (get first).toNat % 256 ≤ 255 := Nat.le_of_lt_succ (Nat.mod_lt _ (by decide))
    calc value get first (n + 1)
        = (get first).toNat % 256 * 256 ^ n + value get (first + 1) n := rfl
      _ < 255 * 256 ^ n + 256 ^ n :=
        Nat.add_lt_add_of_le_of_lt (Nat.mul_le_mul_right _ hdigit) (ih (first + 1))
      _ = 256 ^ (n + 1) := by rw [Nat.pow_succ]; omega

variable {n} {i : Nat}

theorem value_div_mod (hi : i < n) :
    value get first n / 256 ^ (n - 1 - i) % 256 = (get (first + i)).toNat % 256 := by
  induction n generalizing first i with
  | zero => omega
  | succ n ih =>
    cases i with
    | zero =>
      have hrest : value get (first + 1) n / 256 ^ n = 0 := Nat.div_eq_of_lt (value_lt get _ n)
      rw [value, Nat.add_sub_cancel, Nat.sub_zero, Nat.mul_comm,
        Nat.mul_add_div (Nat.pow_pos (by decide)), hrest, Nat.add_zero, Nat.mod_mod, Nat.add_zero]
    | succ i =>
      -- the first digit is worth a multiple of the place that is looked at, and of the next one
      have hplace : 256 ^ n = 256 ^ (n - 1 - i) * (256 * 256 ^ i) := by
        rw [← Nat.pow_succ', ← Nat.pow_add]
        congr 1
        omega
      have hexponent : n + 1 - 1 - (i + 1) = n - 1 - i := by omega
      have hword : first + (i + 1) = first + 1 + i := by omega
      rw [value, hplace, hexponent, hword, ← ih (first + 1) (by omega), Nat.mul_left_comm,
        Nat.mul_add_div (Nat.pow_pos (by decide)), Nat.mul_left_comm, Nat.mul_add_mod]

theorem mod_div_mod (x : Nat) (hi : i < n) : x % 256 ^ n / 256 ^ i % 256 = x / 256 ^ i % 256 := by
  have hsplit : 256 ^ n = 256 ^ i * 256 ^ (n - i) := by
    rw [← Nat.pow_add]
    congr 1
    omega
  have hdvd : 256 ∣ 256 ^ (n - i) := dvd_pow_self 256 (by omega)
  rw [hsplit, Nat.mod_mul_right_div_self, Nat.mod_mod_of_dvd _ hdvd]

end Digits

theorem byteWord_eq_ofNat (v : DoubleWord) (n : Nat) :
    byteWord v n = BitVec.ofNat 32 (v.toNat / 256 ^ n % 256) := by
  rw [← toNat_byteWord, BitVec.ofNat_toNat, BitVec.setWidth_eq]

theorem byteWord_zero (n : Nat) : byteWord 0 n = 0 := by
  have hzero : (0 : DoubleWord).toNat = 0 := rfl
  rw [byteWord_eq_ofNat, hzero, Nat.zero_div]
  rfl

/-- Numbers with the same last digits have the same words. -/
theorem byteWord_congr {v v' : DoubleWord} {n i : Nat}
    (h : v'.toNat % 256 ^ n = v.toNat % 256 ^ n) (hi : i < n) : byteWord v' i = byteWord v i := by
  rw [byteWord_eq_ofNat, byteWord_eq_ofNat, ← mod_div_mod v'.toNat hi, h, mod_div_mod v.toNat hi]

/-! ## Words one by one -/

section Plain

variable {D : Type} [Bus D] [PlainWords D] {first n i : Nat} (v : DoubleWord)

omit [PlainWords D] in
theorem writeFrom_congr {v' : DoubleWord} (h : v'.toNat % 256 ^ n = v.toNat % 256 ^ n) (d : D) :
    writeFrom first n v' d = writeFrom first n v d := by
  induction n generalizing first d with
  | zero => rfl
  | succ n ih =>
    have hdvd : 256 ^ n ∣ 256 ^ (n + 1) := pow_dvd_pow 256 (Nat.le_succ n)
    have hrest : v'.toNat % 256 ^ n = v.toNat % 256 ^ n := by
      rw [← Nat.mod_mod_of_dvd _ hdvd, h, Nat.mod_mod_of_dvd _ hdvd]
    rw [writeFrom_succ, writeFrom_succ, byteWord_congr h (Nat.lt_succ_self n), ih hrest]

theorem toNat_read (r : SplitRegister) (d : D) (hcount : r.count ≤ 8) :
    (r.read d).1.toNat = r.held d := by
  have hheld : r.held d < 2 ^ 64 :=
    calc r.held d < 256 ^ r.count := value_lt _ _ _
      _ ≤ 256 ^ 8 := Nat.pow_le_pow_right (by decide) hcount
      _ = 2 ^ 64 := by decide
  rw [read_eq, BitVec.toNat_ofNat, Nat.mod_eq_of_lt hheld]

/-- Every digit in its place: what is written back is what was there. -/
theorem words_write_read (r : SplitRegister) (d : D) (hcount : r.count ≤ 8)
    (hfits : r.first + r.count ≤ (PlainWords.words d).words.length)
    (hcanonical : ∀ i < r.count, ((PlainWords.words d).get (r.first + i)).toNat < 256) :
    PlainWords.words (r.write (r.read d).1 d).2 = PlainWords.words d := by
  refine Block.ext_get (length_write r _ d) fun j => ?_
  by_cases hj : j < r.first ∨ r.first + r.count ≤ j
  · exact get_writeFrom_of_outside hj _ d
  · obtain ⟨i, rfl⟩ := Nat.exists_eq_add_of_le (show r.first ≤ j by omega)
    have hi : i < r.count := by omega
    rw [write, get_writeFrom _ _ hi hfits]
    apply BitVec.eq_of_toNat_eq
    rw [toNat_byteWord, toNat_read r d hcount, held, value_div_mod _ _ hi,
      Nat.mod_eq_of_lt (hcanonical i hi)]

end Plain

/-! ## What is written, in order -/

/-- The words that are written for a number, each once. -/
def busWrites (r : SplitRegister) (v : DoubleWord) : List (Nat × Word) :=
  (List.range r.count).map fun i => (r.first + i, byteWord v (r.count - 1 - i))

theorem busWrites_succ (first n : Nat) (v : DoubleWord) :
    busWrites ⟨first, n + 1⟩ v = (first, byteWord v n) :: busWrites ⟨first + 1, n⟩ v := by
  rw [busWrites, List.range_succ_eq_map, List.map_cons, List.map_map]
  refine congrArg ((first, byteWord v n) :: ·) (List.map_congr_left fun i _ => ?_)
  have hword : first + (i + 1) = first + 1 + i := by omega
  have hplace : n + 1 - 1 - (i + 1) = n - 1 - i := by omega
  simp only [Function.comp_apply, Nat.succ_eq_add_one, hword, hplace]

theorem mem_busWrites {r : SplitRegister} {v : DoubleWord} {w : Nat × Word} :
    w ∈ r.busWrites v ↔ ∃ i < r.count, (r.first + i, byteWord v (r.count - 1 - i)) = w := by
  simp only [busWrites, List.mem_map, List.mem_range]

theorem writes_write {D : Type} [Bus D] (r : SplitRegister) (v : DoubleWord) (d : Recorder D) :
    (r.write v d).2.writes = d.writes ++ r.busWrites v := by
  have hfrom (first n : Nat) (d : Recorder D) :
      (writeFrom first n v d).2.writes = d.writes ++ busWrites ⟨first, n⟩ v := by
    induction n generalizing first d with
    | zero => exact (List.append_nil _).symm
    | succ n ih =>
      rw [busWrites_succ, ← List.singleton_append, ← List.append_assoc]
      exact ih (first + 1) (Bus.write first (byteWord v n) d).2
  exact hfrom r.first r.count d

/-! ## Registers of any size -/

section Checked

variable {D : Type} [Bus D] (r : SplitRegister) (v : DoubleWord) (d : D)

theorem checkedByteWord_of_lt {n : Nat} (hn : n < 8) : checkedByteWord v n = .ok (byteWord v n) :=
  if_pos (by omega)

theorem checkedByteWord_of_le {n : Nat} (hn : 8 ≤ n) :
    checkedByteWord v n = .error .shiftOverflow := if_neg (by omega)

theorem checkedWrite_of_le (hcount : r.count ≤ 8) : r.checkedWrite v d = .ok () (r.write v d).2 := by
  have hfrom (first n : Nat) (hn : n ≤ 8) (d : D) :
      checkedWriteFrom first n v d = .ok () (writeFrom first n v d).2 := by
    induction n generalizing first d with
    | zero => rfl
    | succ n ih =>
      rw [checkedWriteFrom, checkedByteWord_of_lt v hn]
      exact ih (first + 1) (by omega) (Bus.write first (byteWord v n) d).2
  exact hfrom r.first r.count hcount d

/-- The shift for the first word is the widest, so it is the one that is refused. -/
theorem checkedWrite_of_lt (hcount : 8 < r.count) :
    r.checkedWrite v d = .error .shiftOverflow d := by
  obtain ⟨first, count⟩ := r
  obtain ⟨n, rfl⟩ := Nat.exists_eq_add_of_lt hcount
  rw [checkedWrite, checkedWriteFrom, checkedByteWord_of_le v (by omega)]

end Checked

/-- A register of any size is read as the sum of its digits, modulo 64 bits. One of up to eight words
is written digit by digit, each word once: it then reads as the number modulo its size, numbers that
agree modulo its size leave the same words, and writing back what was read leaves words that are
digits as they were. A larger one is never written, not even in part. -/
theorem splits_and_assembles {D : Type} [Bus D] [PlainWords D] (r : SplitRegister) (d : Recorder D)
    (hfits : r.first + r.count ≤ (PlainWords.words d).words.length) :
    r.read d = (BitVec.ofNat 64 (∑ i ∈ Finset.range r.count,
      ((PlainWords.words d).get (r.first + i)).toNat % 256 * 256 ^ (r.count - 1 - i)), d) ∧
    (r.count ≤ 8 → ∀ v, ∃ d', r.checkedWrite v d = .ok () d' ∧
      (∀ i < r.count, (PlainWords.words d').get (r.first + i) =
        BitVec.ofNat 32 (v.toNat / 256 ^ (r.count - 1 - i) % 256)) ∧
      (∀ j, j < r.first ∨ r.first + r.count ≤ j →
        (PlainWords.words d').get j = (PlainWords.words d).get j) ∧
      d'.writes = d.writes ++ (List.range r.count).map (fun i =>
        (r.first + i, (PlainWords.words d').get (r.first + i))) ∧
      (r.read d').1.toNat = v.toNat % 2 ^ (8 * r.count) ∧
      ∀ v', v'.toNat % 2 ^ (8 * r.count) = v.toNat % 2 ^ (8 * r.count) →
        r.checkedWrite v' d = .ok () d') ∧
    (r.count ≤ 8 → (∀ i < r.count, ((PlainWords.words d).get (r.first + i)).toNat < 256) →
      ∃ d', r.checkedWrite (r.read d).1 d = .ok () d' ∧
        PlainWords.words d' = PlainWords.words d) ∧
    (9 ≤ r.count → ∀ v, r.checkedWrite v d = .error .shiftOverflow d) := by
  refine ⟨?_, fun hcount v => ⟨_, r.checkedWrite_of_le v d hcount, fun i hi => ?_, fun j hj => ?_,
    ?_, ?_, fun v' hv' => ?_⟩, fun hcount hcanonical => ?_, fun hcount v => ?_⟩
  · rw [← value_eq_sum]
    exact r.read_eq d
  · rw [← byteWord_eq_ofNat]
    exact get_writeFrom v d hi hfits
  · exact get_writeFrom_of_outside hj v d
  · rw [writes_write, busWrites]
    refine congrArg (d.writes ++ ·) (List.map_congr_left fun i hi => ?_)
    exact congrArg (r.first + i, ·) (get_writeFrom v d (List.mem_range.mp hi) hfits).symm
  · rw [toNat_read _ _ hcount, held_write_self _ _ _ hfits, Nat.pow_mul]
  · rw [Nat.pow_mul] at hv'
    rw [checkedWrite_of_le _ _ _ hcount]
    have hsame : r.write v' d = r.write v d := writeFrom_congr v hv' d
    rw [hsame]
  · exact ⟨_, r.checkedWrite_of_le _ d hcount, r.words_write_read d hcount hfits hcanonical⟩
  · exact r.checkedWrite_of_lt v d hcount

/-- Three words inside a larger block, of which one has upper bits. -/
theorem splits_and_assembles_three :
    let d : Recorder Block := ⟨⟨[7, 0x412, 0x34, 0x56, 9]⟩, []⟩
    let r : SplitRegister := ⟨1, 3⟩
    (r.read d).1 = 0x123456 ∧
      (∃ d', r.checkedWrite 0xffabcdef d = .ok () d' ∧ (r.read d').1.toNat = 0xabcdef ∧
        d'.writes = (List.range 3).map fun i => (1 + i, d'.device.get (1 + i))) := by
  intro d r
  obtain ⟨hread, hwrite, -⟩ := r.splits_and_assembles d (by decide)
  obtain ⟨d', hd', -, -, hwrites, hback, -⟩ := hwrite (by decide) 0xffabcdef
  exact ⟨(congrArg Prod.fst hread).trans (by decide), d', hd', hback.trans (by decide), hwrites⟩

end SplitRegister

end TrapMonitor
