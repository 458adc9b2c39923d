import Mathlib.Algebra.Group.Nat.Defs
import TrapMonitor.Checked

/-! # Computations that may stop

Of two computations with a state, one after the other, the second runs if the first has not stopped.
Checked arithmetic stops at the first number that does not fit into a word. As long as the numbers on
the way are no larger than the last one, it stops exactly if that one does not fit
(`Checked.Computes.bind`).
-/
namespace TrapMonitor

/-! ## Computations with an error, and with a state -/

section Computations

variable {ε σ α β : Type}

theorem except_bind_eq_ok {x : Except ε α} {f : α → Except ε β} {b : β} :
    (x >>= f) = .ok b ↔ ∃ a, x = .ok a ∧ f a = .ok b := by
  cases x <;> simp [bind, Except.bind]

theorem bind_apply (x : EStateM ε σ α) (f : α → EStateM ε σ β) (s : σ) :
    (x >>= f) s = match x s with
      | .ok a t => f a t
      | .error e t => .error e t := rfl

theorem pure_apply (a : α) (s : σ) : (pure a : EStateM ε σ α) s = .ok a s := rfl

theorem bind_eq_ok {x : EStateM ε σ α} {f : α → EStateM ε σ β} {s t : σ} {b : β} :
    (x >>= f) s = .ok b t ↔ ∃ a u, x s = .ok a u ∧ f a u = .ok b t := by
  rw [bind_apply]
  cases x s <;> simp [and_assoc]

theorem bind_eq_error {x : EStateM ε σ α} {f : α → EStateM ε σ β} {s t : σ} {e : ε} :
    (x >>= f) s = .error e t ↔
      x s = .error e t ∨ ∃ a u, x s = .ok a u ∧ f a u = .error e t := by
  rw [bind_apply]
  cases x s <;> simp [and_assoc]

theorem pure_eq_ok {a b : α} {s t : σ} :
    (pure a : EStateM ε σ α) s = .ok b t ↔ a = b ∧ s = t := by
  simp [pure_apply]

theorem pure_ne_error {a : α} {e : ε} {s t : σ} : (pure a : EStateM ε σ α) s ≠ .error e t := by
  simp [pure_apply]

end Computations

/-! ## Checked arithmetic -/

namespace Checked

/-- The computation returns the number `n`, and stops if it does not fit. -/
def Computes (x : Except Abort Word) (n : Nat) : Prop := ∀ v, x = .ok v ↔ v.toNat = n

theorem toNat_ofNat_of_lt {n : Nat} (h : n < 2 ^ 32) : (BitVec.ofNat 32 n).toNat = n := by
  rw [BitVec.toNat_ofNat, Nat.mod_eq_of_lt h]

theorem exists_word {n : Nat} (h : n < 2 ^ 32) : ∃ v : Word, v.toNat = n :=
  ⟨_, toNat_ofNat_of_lt h⟩

theorem computes_ok (a : Word) : Computes (.ok a) a.toNat := fun v => by
  rw [Except.ok.injEq, eq_comm, BitVec.toNat_inj]

theorem computes_add (a b : Word) : Computes (add a b) (a.toNat + b.toNat) := fun v => by
  refine ⟨toNat_of_add, fun h => ?_⟩
  have hfits : a.toNat + b.toNat < 0x100000000 := h ▸ v.isLt
  rw [add, if_pos hfits]
  refine congrArg Except.ok (BitVec.eq_of_toNat_eq ?_)
  rw [BitVec.toNat_add, Nat.mod_eq_of_lt hfits, h]

theorem computes_mul (a b : Word) : Computes (mul a b) (a.toNat * b.toNat) := fun v => by
  refine ⟨toNat_of_mul, fun h => ?_⟩
  have hfits : a.toNat * b.toNat < 0x100000000 := h ▸ v.isLt
  rw [mul, if_pos hfits]
  refine congrArg Except.ok (BitVec.eq_of_toNat_eq ?_)
  rw [BitVec.toNat_mul, Nat.mod_eq_of_lt hfits, h]

theorem div_eq_ok_iff {a b v : Word} : div a b = .ok v ↔ b ≠ 0 ∧ a / b = v := by
  rw [div]
  split <;> simp_all

namespace Computes

variable {x : Except Abort Word} {n : Nat} (h : Computes x n)

include h

theorem eq_ok (hn : n < 2 ^ 32) : x = .ok (BitVec.ofNat 32 n) :=
  (h _).mpr (toNat_ofNat_of_lt hn)

theorem fits_or_stops :
    n < 2 ^ 32 ∧ x = .ok (BitVec.ofNat 32 n) ∨ 2 ^ 32 ≤ n ∧ ∃ e, x = .error e := by
  by_cases hn : n < 2 ^ 32
  · exact .inl ⟨hn, h.eq_ok hn⟩
  · refine .inr ⟨Nat.not_lt.mp hn, ?_⟩
    cases hx : x with
    | error e => exact ⟨e, rfl⟩
    | ok v => exact absurd ((h v).mp hx ▸ v.isLt) hn

/-- A number on the way that does not fit is no larger than the last one, so that does not fit either. -/
theorem bind {k : Word → Except Abort Word} {m : Nat} (hk : ∀ a, a.toNat = n → Computes (k a) m)
    (hle : n ≤ m) : Computes (x >>= k) m := fun v => by
  rw [except_bind_eq_ok]
  constructor
  · rintro ⟨a, hx, ha⟩
    exact (hk a ((h a).mp hx) v).mp ha
  · intro hv
    have hn : n < 2 ^ 32 := Nat.lt_of_le_of_lt hle (hv ▸ v.isLt)
    have ha : (BitVec.ofNat 32 n).toNat = n := toNat_ofNat_of_lt hn
    exact ⟨_, h.eq_ok hn, (hk _ ha v).mpr hv⟩

end Computes

end Checked

end TrapMonitor
