import TrapMonitor.Abort
import TrapMonitor.Word

/-! # Checked arithmetic on words

A sum, difference or product that does not fit into a word is refused, and so is a division
by zero. Whatever is not refused is the result in the natural numbers (`toNat_of_add`,
`toNat_of_sub`, `toNat_of_mul`, `toNat_of_div`).
-/
namespace TrapMonitor

namespace Checked

def add (a b : Word) : Except Abort Word :=
  if a.toNat + b.toNat < 0x100000000 then .ok (a + b) else .error .addOverflow

def sub (a b : Word) : Except Abort Word :=
  if b.toNat ≤ a.toNat then .ok (a - b) else .error .subOverflow

def mul (a b : Word) : Except Abort Word :=
  if a.toNat * b.toNat < 0x100000000 then .ok (a * b) else .error .mulOverflow

def div (a b : Word) : Except Abort Word :=
  if b = 0 then .error .divisionByZero else .ok (a / b)

theorem toNat_of_add {a b c : Word} (h : add a b = .ok c) : c.toNat = a.toNat + b.toNat := by
  unfold add at h
  split at h <;> simp_all
  subst h
  rw [BitVec.toNat_add]
  exact Nat.mod_eq_of_lt (by omega)

theorem toNat_of_sub {a b c : Word} (h : sub a b = .ok c) : c.toNat = a.toNat - b.toNat := by
  unfold sub at h
  split at h <;> simp_all
  subst h
  exact BitVec.toNat_sub_of_le (by simpa [BitVec.le_def])

theorem toNat_of_mul {a b c : Word} (h : mul a b = .ok c) : c.toNat = a.toNat * b.toNat := by
  unfold mul at h
  split at h <;> simp_all
  subst h
  rw [BitVec.toNat_mul]
  exact Nat.mod_eq_of_lt (by omega)

theorem toNat_of_div {a b c : Word} (h : div a b = .ok c) : c.toNat = a.toNat / b.toNat := by
  unfold div at h
  split at h <;> simp_all
  subst h
  exact BitVec.toNat_udiv

end Checked

end TrapMonitor
