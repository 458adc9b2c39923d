import TrapMonitor.Boot.DeviceTree
import TrapMonitor.Proofs.Memory.Bytes

/-! # The verdict on a device tree

What is relied on of a library is that it checks four things of a header in a fixed order
(`ChecksHeader`). With any such library every content of memory gets one verdict. There is no verdict
exactly for a header that is marked as a device tree and claims to be shorter than the words of it that
are looked at: the check of the claimed size is the one that is missing.
-/
namespace TrapMonitor

namespace DeviceTree

/-- The word that four bytes spell, most significant byte first. -/
def spelled (m : Memory) (a : Word) : Word :=
  m.byte a ++ m.byte (a + 1) ++ m.byte (a + 2) ++ m.byte (a + 3)

theorem bigEndian_eq : bigEndian = spelled := by
  funext m a
  have h₂ : a + 1 + 1 = a + 2 := by rw [BitVec.add_assoc]; rfl
  have h₃ : a + 2 + 1 = a + 3 := by rw [BitVec.add_assoc]; rfl
  simp only [bigEndian, Memory.peek, h₂, h₃]
  exact Word.ofBytes_four _ _ _ _

/-! ## Headers -/

section Headers

variable (m : Memory) (base : Word)

/-- The size that the header gives for the whole tree. -/
def claimedSize : Word := spelled m (base + 4)

/-- Whether the header gives an aligned offset in the word at `place`, if that word lies in the size
that the header claims. -/
def alignment (place : Nat) : Option Bool :=
  if place + 4 ≤ (claimedSize m base).toNat then
    some ((spelled m (base + BitVec.ofNat 32 place)).toNat % 4 = 0)
  else none

/-- What is found at an aligned address begins like a device tree. -/
structure Marked : Prop where
  aligned : base.toNat % 4 = 0
  magic : spelled m base = 0xd00dfeed

/-- The header claims to end in front of the last of its words that is looked at. -/
structure Truncated : Prop extends Marked m base where
  short : (claimedSize m base).toNat < 20

/-- The header is that of a device tree. -/
structure Valid : Prop extends Marked m base where
  long : 20 ≤ (claimedSize m base).toNat
  reservations : (spelled m (base + 16)).toNat % 4 = 0
  structs : (spelled m (base + 8)).toNat % 4 = 0

variable {m base}

theorem alignment_of_le {place : Nat} (h : place + 4 ≤ (claimedSize m base).toNat) :
    alignment m base place =
      some (decide ((spelled m (base + BitVec.ofNat 32 place)).toNat % 4 = 0)) := if_pos h

theorem alignment_of_lt {place : Nat} (h : (claimedSize m base).toNat < place + 4) :
    alignment m base place = none := if_neg (Nat.not_le.mpr h)

theorem Truncated.not_valid (h : Truncated m base) : ¬Valid m base := fun hv =>
  absurd hv.long (Nat.not_le.mpr h.short)

end Headers

end DeviceTree

/-! ## Libraries -/

variable {Tree Fault : Type}

open DeviceTree in
/-- What is relied on of a library. It checks the alignment of the address, the magic number, and the
alignment of two offsets, in this order, and nothing else. An offset that does not lie in the claimed
size is not refused: it stops the run. -/
structure TreeLibrary.ChecksHeader (library : TreeLibrary Tree Fault) : Prop where
  unaligned : ∀ {m base}, base.toNat % 4 ≠ 0 → ∃ e, library.fromPointer m base = .ok (.error e)
  badMagic : ∀ {m base}, base.toNat % 4 = 0 → spelled m base ≠ 0xd00dfeed →
    ∃ e, library.fromPointer m base = .ok (.error e)
  noReservations : ∀ {m base}, Marked m base → alignment m base 16 = none →
    library.fromPointer m base = .error .truncatedTree
  badReservations : ∀ {m base}, Marked m base → alignment m base 16 = some false →
    ∃ e, library.fromPointer m base = .ok (.error e)
  noStructs : ∀ {m base}, Marked m base → alignment m base 16 = some true →
    alignment m base 8 = none → library.fromPointer m base = .error .truncatedTree
  badStructs : ∀ {m base}, Marked m base → alignment m base 16 = some true →
    alignment m base 8 = some false → ∃ e, library.fromPointer m base = .ok (.error e)
  accepts : ∀ {m base}, Marked m base → alignment m base 16 = some true →
    alignment m base 8 = some true →
    ∃ tree, library.fromPointer m base = .ok (.ok tree) ∧ library.totalSize tree = claimedSize m base

namespace DeviceTree

variable {library : TreeLibrary Tree Fault} {m : Memory} {base : Word}

theorem size_of_error {why : Abort} (h : library.fromPointer m base = .error why) :
    size library m base = .error why := by
  rw [size, h]
  rfl

theorem size_of_refused (h : ∃ e, library.fromPointer m base = .ok (.error e)) :
    ∃ e, size library m base = .ok (.error e) := by
  obtain ⟨e, he⟩ := h
  refine ⟨e, ?_⟩
  rw [size, he]
  rfl

theorem size_of_accepted {n : Word}
    (h : ∃ tree, library.fromPointer m base = .ok (.ok tree) ∧ library.totalSize tree = n) :
    size library m base = .ok (.ok n) := by
  obtain ⟨tree, htree, hsize⟩ := h
  rw [size, htree, ← hsize]
  rfl

section Verdict

variable (hlibrary : library.ChecksHeader)

include hlibrary

/-- The offset that is looked at first lies further behind than the other one. -/
theorem size_of_truncated (h : Truncated m base) : size library m base = .error .truncatedTree :=
  size_of_error (hlibrary.noReservations h.toMarked (alignment_of_lt h.short))

theorem size_of_valid (h : Valid m base) : size library m base = .ok (.ok (claimedSize m base)) := by
  have hlong := h.long
  have hreservations : alignment m base 16 = some true :=
    (alignment_of_le (by omega)).trans (congrArg some (decide_eq_true h.reservations))
  have hstructs : alignment m base 8 = some true :=
    (alignment_of_le (by omega)).trans (congrArg some (decide_eq_true h.structs))
  exact size_of_accepted (hlibrary.accepts h.toMarked hreservations hstructs)

theorem size_of_marked (h : Marked m base) (ht : ¬Truncated m base) (hv : ¬Valid m base) :
    ∃ e, size library m base = .ok (.error e) := by
  have hlong : 20 ≤ (claimedSize m base).toNat := Nat.not_lt.mp fun hshort => ht ⟨h, hshort⟩
  by_cases hr : (spelled m (base + 16)).toNat % 4 = 0
  · have hs : (spelled m (base + 8)).toNat % 4 ≠ 0 := fun hs => hv ⟨h, hlong, hr, hs⟩
    have hreservations : alignment m base 16 = some true :=
      (alignment_of_le (by omega)).trans (congrArg some (decide_eq_true hr))
    have hstructs : alignment m base 8 = some false :=
      (alignment_of_le (by omega)).trans (congrArg some (decide_eq_false hs))
    exact size_of_refused (hlibrary.badStructs h hreservations hstructs)
  · have hreservations : alignment m base 16 = some false :=
      (alignment_of_le (by omega)).trans (congrArg some (decide_eq_false hr))
    exact size_of_refused (hlibrary.badReservations h hreservations)

/-- The verdict on every content of memory, at every address. -/
theorem size_cases (m : Memory) (base : Word) :
    Truncated m base ∧ size library m base = .error .truncatedTree ∨
    Valid m base ∧ size library m base = .ok (.ok (claimedSize m base)) ∨
    ¬Truncated m base ∧ ¬Valid m base ∧ ∃ e, size library m base = .ok (.error e) := by
  by_cases ht : Truncated m base
  · exact .inl ⟨ht, size_of_truncated hlibrary ht⟩
  by_cases hv : Valid m base
  · exact .inr (.inl ⟨hv, size_of_valid hlibrary hv⟩)
  refine .inr (.inr ⟨ht, hv, ?_⟩)
  by_cases ha : base.toNat % 4 = 0
  · by_cases hm : spelled m base = 0xd00dfeed
    · exact size_of_marked hlibrary ⟨ha, hm⟩ ht hv
    · exact size_of_refused (hlibrary.badMagic ha hm)
  · exact size_of_refused (hlibrary.unaligned ha)

theorem size_eq_error_iff {why : Abort} :
    size library m base = .error why ↔ Truncated m base ∧ why = .truncatedTree := by
  rcases size_cases hlibrary m base with ⟨ht, hsize⟩ | ⟨hv, hsize⟩ | ⟨ht, -, e, hsize⟩
  · simp [hsize, ht, eq_comm]
  · have ht : ¬Truncated m base := fun ht => ht.not_valid hv
    simp [hsize, ht]
  · simp [hsize, ht]

theorem size_eq_ok_iff {n : Word} :
    size library m base = .ok (.ok n) ↔ Valid m base ∧ n = claimedSize m base := by
  rcases size_cases hlibrary m base with ⟨ht, hsize⟩ | ⟨hv, hsize⟩ | ⟨-, hv, e, hsize⟩
  · simp [hsize, ht.not_valid]
  · simp [hsize, hv, eq_comm]
  · simp [hsize, hv]

end Verdict

/-! ## The linked library -/

theorem offsetAligned_eq (m : Memory) (base : Word) (place : Nat) :
    offsetAligned m base (claimedSize m base).toNat place =
      match alignment m base place with
      | some aligned => .ok aligned
      | none => .error .truncatedTree := by
  rw [offsetAligned, headerWord, alignment, bigEndian_eq]
  split <;> rfl

theorem fromPointer_of_marked (h : Marked m base) : fromPointer m base = (do
    if !(← offsetAligned m base (claimedSize m base).toNat 16) then return .error .badOffset
    if !(← offsetAligned m base (claimedSize m base).toNat 8) then return .error .badOffset
    return .ok (claimedSize m base)) := by
  have hmagic : ¬spelled m base ≠ magic := not_not_intro h.magic
  rw [fromPointer, bigEndian_eq, if_neg (not_not_intro h.aligned), if_neg hmagic]
  rfl

theorem checksHeader_fdt : TreeLibrary.fdt.ChecksHeader where
  unaligned ha := ⟨.unaligned, if_pos ha⟩
  badMagic {m base} ha hm := by
    have hmagic : spelled m base ≠ magic := hm
    refine ⟨.badMagic, ?_⟩
    change fromPointer m base = _
    rw [fromPointer, bigEndian_eq, if_neg (not_not_intro ha), if_pos hmagic]
  noReservations h hr := by
    refine (fromPointer_of_marked h).trans ?_
    rw [offsetAligned_eq, hr]
    rfl
  badReservations h hr := by
    refine ⟨.badOffset, (fromPointer_of_marked h).trans ?_⟩
    rw [offsetAligned_eq, hr]
    rfl
  noStructs h hr hs := by
    refine (fromPointer_of_marked h).trans ?_
    rw [offsetAligned_eq, offsetAligned_eq, hr, hs]
    rfl
  badStructs h hr hs := by
    refine ⟨.badOffset, (fromPointer_of_marked h).trans ?_⟩
    rw [offsetAligned_eq, offsetAligned_eq, hr, hs]
    rfl
  accepts {m base} h hr hs := by
    refine ⟨claimedSize m base, (fromPointer_of_marked h).trans ?_, rfl⟩
    rw [offsetAligned_eq, offsetAligned_eq, hr, hs]
    rfl

end DeviceTree

end TrapMonitor
