import TrapMonitor.Word

/-! # Variants selected by a number

A field of an instruction, a call number or a cause selects one of several variants. Each
variant has its number, and the variant for a number is looked up among all of them: what is
found has that number (`number_of_select`), and if no two variants share a number, each is
found under its own (`select_number`).
-/
namespace TrapMonitor

variable {α : Type}

/-- The first of the variants that has the number `n`. -/
def select (number : α → Word) (variants : List α) (n : Word) : Option α :=
  variants.find? fun v => number v == n

theorem number_of_select {number : α → Word} {variants : List α} {n : Word} {v : α}
    (h : select number variants n = some v) : number v = n := by
  simpa using List.find?_some h

theorem mem_of_select {number : α → Word} {variants : List α} {n : Word} {v : α}
    (h : select number variants n = some v) : v ∈ variants := List.mem_of_find?_eq_some h

theorem select_eq_none {number : α → Word} {variants : List α} {n : Word} :
    select number variants n = none ↔ ∀ v ∈ variants, number v ≠ n := by
  simp [select]

theorem select_number {number : α → Word} {variants : List α} {v : α} (hv : v ∈ variants)
    (h : ∀ w ∈ variants, number w = number v → w = v) :
    select number variants (number v) = some v := by
  cases hs : select number variants (number v) with
  | none => exact absurd rfl (select_eq_none.mp hs v hv)
  | some w => rw [h w (mem_of_select hs) (number_of_select hs)]

end TrapMonitor
