import TrapMonitor.Proofs.Bus.Splitting

/-! # Devices that go on by themselves

A device need not stand still between two accesses: time passes, and an access to one word may change
others. What a program relies on is then less than plain words. Some words change only by being
written (`KeepsWords`), which is enough for a register over them to hold what was written to it, and what
happens in the middle of a program is seen on a device that is watched, which keeps every access
together with the device just after it.
-/
namespace TrapMonitor

inductive BusAccess where
  | read (i : Nat)
  | write (i : Nat) (v : Word)
  deriving DecidableEq

/-- An access, and the device just after it. -/
structure Moment (D : Type) where
  access : BusAccess
  device : D

/-- A device together with all moments since it is watched, oldest first. -/
structure Watched (D : Type) where
  device : D
  moments : List (Moment D)

namespace Watched

variable {D : Type} [Bus D]

omit [Bus D] in
def note (w : Watched D) (a : BusAccess) (d : D) : Watched D := ⟨d, w.moments ++ [⟨a, d⟩]⟩

instance : Bus (Watched D) where
  read i := fun w => ((Bus.read i w.device).1, w.note (.read i) (Bus.read i w.device).2)
  write i v := fun w => ((), w.note (.write i v) (Bus.write i v w.device).2)
  patience w := Bus.patience w.device

end Watched

/-- Some words of a device change only by being written. -/
structure KeepsWords {D : Type} [Bus D] (word : D → Nat → Word) (plain : Nat → Prop) : Prop where
  read : ∀ i j d, plain j → word (Bus.read i d).2 j = word d j
  write_self : ∀ j v d, plain j → word (Bus.write j v d).2 j = v
  write_of_ne : ∀ i j v d, plain j → i ≠ j → word (Bus.write i v d).2 j = word d j

namespace SplitRegister

/-- The words of a register. -/
def Covers (r : SplitRegister) (i : Nat) : Prop := r.first ≤ i ∧ i < r.first + r.count

instance (r : SplitRegister) (i : Nat) : Decidable (r.Covers i) :=
  inferInstanceAs (Decidable (_ ∧ _))

/-- The number that the words of a register spell. -/
def spelled (r : SplitRegister) (word : Nat → Word) : DoubleWord :=
  BitVec.ofNat 64 (value word r.first r.count)

theorem spelled_eq_of_digits {r : SplitRegister} {word : Nat → Word} {v : DoubleWord}
    (hcount : r.count = 8) (h : ∀ i < r.count, word (r.first + i) = byteWord v (r.count - 1 - i)) :
    r.spelled word = v := by
  have hv : v.toNat % 256 ^ r.count = v.toNat := by
    rw [hcount]
    exact Nat.mod_eq_of_lt v.isLt
  rw [spelled, value_eq_of_digits h, hv, BitVec.ofNat_toNat, BitVec.setWidth_eq]

/-- A number that has room in a register is what the register spells. -/
theorem setWidth_spelled {r : SplitRegister} {word : Nat → Word} {k : Nat} {v : BitVec k}
    (hk : k ≤ 64) (hroom : 2 ^ k ≤ 256 ^ r.count)
    (h : value word r.first r.count = (v.setWidth 64).toNat % 256 ^ r.count) :
    (r.spelled word).setWidth k = v := by
  have hlt : v.toNat < 2 ^ 64 := Nat.lt_of_lt_of_le v.isLt (Nat.pow_le_pow_right (by decide) hk)
  apply BitVec.eq_of_toNat_eq
  rw [spelled, h, BitVec.toNat_setWidth, BitVec.toNat_setWidth, BitVec.toNat_ofNat,
    Nat.mod_eq_of_lt hlt, Nat.mod_eq_of_lt (Nat.lt_of_lt_of_le v.isLt hroom), Nat.mod_eq_of_lt hlt,
    Nat.mod_eq_of_lt v.isLt]

theorem spelled_congr {r : SplitRegister} {word word' : Nat → Word}
    (h : ∀ i, r.Covers i → word' i = word i) : r.spelled word' = r.spelled word := by
  rw [spelled, value_congr fun i hi hn => by rw [h i ⟨hi, hn⟩], spelled]

/-! ## Registers of a device -/

section Live

variable {D : Type} [Bus D] {word : D → Nat → Word}

/-- A register is read as its words spell it, if reading does not change them. -/
theorem fst_read (r : SplitRegister) (hread : ∀ i d, r.Covers i → (Bus.read i d).1 = word d i)
    (hkept : ∀ i j d, r.Covers j → word (Bus.read i d).2 j = word d j) (d : D) :
    (r.read d).1 = r.spelled (word d) := by
  have hfrom (n : Nat) : ∀ first a d, r.first ≤ first → first + n ≤ r.first + r.count →
      (readFrom first n (BitVec.ofNat 64 a) d).1 =
        BitVec.ofNat 64 (a * 256 ^ n + value (word d) first n) := by
    induction n with
    | zero =>
      intro first a d _ _
      rw [value, Nat.pow_zero, Nat.mul_one, Nat.add_zero]
      rfl
    | succ n ih =>
      intro first a d hfirst hlast
      have hrest : value (word (Bus.read first d).2) (first + 1) n = value (word d) (first + 1) n :=
        value_congr fun i hi hn => by rw [hkept first i d ⟨by omega, by omega⟩]
      rw [readFrom_succ, shiftIn_ofNat, ih _ _ _ (by omega) (by omega), hrest,
        hread first d ⟨hfirst, by omega⟩, value, Nat.add_mul, Nat.mul_assoc, ← Nat.pow_succ',
        Nat.add_assoc]
  have h := hfrom r.count r.first 0 d (Nat.le_refl _) (Nat.le_refl _)
  rwa [Nat.zero_mul, Nat.zero_add] at h

variable {plain : Nat → Prop} (hkeeps : KeepsWords word plain)

include hkeeps

theorem word_writeFrom_of_outside {first n j : Nat} (hj : plain j) (hout : j < first ∨ first + n ≤ j)
    (v : DoubleWord) (d : D) : word (writeFrom first n v d).2 j = word d j := by
  induction n generalizing first d with
  | zero => rfl
  | succ n ih =>
    rw [writeFrom_succ, ih (by omega), hkeeps.write_of_ne _ _ _ _ hj (by omega)]

theorem word_writeFrom {first n i : Nat} (hplain : ∀ j, first ≤ j → j < first + n → plain j)
    (hi : i < n) (v : DoubleWord) (d : D) :
    word (writeFrom first n v d).2 (first + i) = byteWord v (n - 1 - i) := by
  induction n generalizing first i d with
  | zero => omega
  | succ n ih =>
    have hfirst : plain first := hplain first (Nat.le_refl _) (by omega)
    rw [writeFrom_succ]
    cases i with
    | zero =>
      have hlaid := hkeeps.write_self first (byteWord v n) d hfirst
      exact (word_writeFrom_of_outside hkeeps hfirst (by omega) v _).trans hlaid
    | succ i =>
      have hword : first + (i + 1) = first + 1 + i := by omega
      have hplace : n + 1 - 1 - (i + 1) = n - 1 - i := by omega
      rw [hword, hplace]
      exact ih (fun j hj hn => hplain j (by omega) (by omega)) (by omega) _

theorem value_write (r : SplitRegister) (hplain : ∀ i, r.Covers i → plain i) (v : DoubleWord) (d : D) :
    value (word (r.write v d).2) r.first r.count = v.toNat % 256 ^ r.count :=
  value_eq_of_digits fun _ hi => word_writeFrom hkeeps (fun j hj hn => hplain j ⟨hj, hn⟩) hi v d

/-- Writing a register leaves the number in another one, if both are plain and share no word. -/
theorem value_write_of_disjoint (r s : SplitRegister) (hplain : ∀ i, s.Covers i → plain i)
    (h : s.first + s.count ≤ r.first ∨ r.first + r.count ≤ s.first) (v : DoubleWord) (d : D) :
    value (word (r.write v d).2) s.first s.count = value (word d) s.first s.count :=
  value_congr fun i hi hn => by
    rw [write, word_writeFrom_of_outside hkeeps (hplain i ⟨hi, hn⟩) (by omega)]

end Live

/-! ## Registers of a watched device -/

section Watching

variable {D : Type} [Bus D] (kept : D → Prop)

/-- Watching a register being read changes nothing, and what each read keeps holds at every
moment. -/
theorem read_watched (r : SplitRegister) (hkept : ∀ i d, kept d → kept (Bus.read i d).2)
    (w : Watched D) (hw : kept w.device) :
    ∃ moments, r.read w = ((r.read w.device).1, ⟨(r.read w.device).2, w.moments ++ moments⟩) ∧
      kept (r.read w.device).2 ∧ ∀ m ∈ moments, kept m.device ∧ ∃ i, m.access = .read i := by
  have hfrom (n : Nat) : ∀ (first : Nat) (acc : DoubleWord) (w : Watched D), kept w.device →
      ∃ moments, readFrom first n acc w = ((readFrom first n acc w.device).1,
          ⟨(readFrom first n acc w.device).2, w.moments ++ moments⟩) ∧
        kept (readFrom first n acc w.device).2 ∧
        ∀ m ∈ moments, kept m.device ∧ ∃ i, m.access = .read i := by
    induction n with
    | zero =>
      intro first acc w hw
      exact ⟨[], by rw [List.append_nil]; rfl, hw, nofun⟩
    | succ n ih =>
      intro first acc w hw
      have hnext := hkept first w.device hw
      obtain ⟨moments, hrun, hlast, hmoments⟩ :=
        ih (first + 1) (shiftIn acc (Bus.read first w.device).1)
        (w.note (.read first) (Bus.read first w.device).2) hnext
      refine ⟨⟨.read first, (Bus.read first w.device).2⟩ :: moments, ?_, hlast, fun m hm => ?_⟩
      · rw [← List.singleton_append, ← List.append_assoc]
        exact hrun
      · rcases List.mem_cons.mp hm with rfl | hm
        · exact ⟨hnext, first, rfl⟩
        · exact hmoments m hm
  exact hfrom r.count r.first 0 w hw

/-- Watching a register being written changes nothing, and what each write keeps holds at every
moment. -/
theorem write_watched (r : SplitRegister) (v : DoubleWord)
    (hkept : ∀ i x d, r.Covers i → kept d → kept (Bus.write i x d).2) (w : Watched D)
    (hw : kept w.device) :
    ∃ moments, (r.write v w).2 = ⟨(r.write v w.device).2, w.moments ++ moments⟩ ∧
      kept (r.write v w.device).2 ∧
      ∀ m ∈ moments, kept m.device ∧ ∃ i x, r.Covers i ∧ m.access = .write i x := by
  have hfrom (n : Nat) : ∀ (first : Nat) (w : Watched D), r.first ≤ first →
      first + n ≤ r.first + r.count → kept w.device →
      ∃ moments, (writeFrom first n v w).2 =
          ⟨(writeFrom first n v w.device).2, w.moments ++ moments⟩ ∧
        kept (writeFrom first n v w.device).2 ∧
        ∀ m ∈ moments, kept m.device ∧ ∃ i x, r.Covers i ∧ m.access = .write i x := by
    induction n with
    | zero =>
      intro first w _ _ hw
      exact ⟨[], by rw [List.append_nil]; rfl, hw, nofun⟩
    | succ n ih =>
      intro first w hfirst hlast hw
      have hcovers : r.Covers first := ⟨hfirst, by omega⟩
      have hnext := hkept first (byteWord v n) w.device hcovers hw
      obtain ⟨moments, hrun, hend, hmoments⟩ := ih (first + 1)
        (w.note (.write first (byteWord v n)) (Bus.write first (byteWord v n) w.device).2)
        (by omega) (by omega) hnext
      refine ⟨⟨.write first (byteWord v n), (Bus.write first (byteWord v n) w.device).2⟩ :: moments,
        ?_, hend, fun m hm => ?_⟩
      · rw [← List.singleton_append, ← List.append_assoc]
        exact hrun
      · rcases List.mem_cons.mp hm with rfl | hm
        · exact ⟨hnext, first, byteWord v n, hcovers, rfl⟩
        · exact hmoments m hm
  exact hfrom r.count r.first w (Nat.le_refl _) (Nat.le_refl _) hw

end Watching

end SplitRegister

end TrapMonitor
