import TrapMonitor.Proofs.Memory.Bytes

/-! # Memory after a history of writes

Memory needs no other description than what was written to it: the byte at an address is that of the
most recent write that covers the address (`byte_replay_of_covers`), and the initial byte if there
is none (`byte_replay_of_uncovered`). Writes may overlap and may wrap around.
-/
namespace TrapMonitor

/-- The lowest `size` bytes of `value` were put at `address` and behind it. -/
structure Write where
  address : Word
  size : Nat
  value : Word
  deriving DecidableEq

namespace Write

def covers (w : Write) (x : Word) : Bool := (x - w.address).toNat < w.size

/-- The byte that a write puts at an address it covers, least significant first. -/
def byte (w : Write) (x : Word) : Byte := w.value.extractLsb' (8 * (x - w.address).toNat) 8

end Write

namespace Memory

/-- The memory `m` after a history of writes, the latest of which comes first. -/
def replay (m : Memory) (past : List Write) : Memory :=
  ⟨fun x => match past.find? (·.covers x) with
    | some w => w.byte x
    | none => m.byte x⟩

@[simp] theorem replay_nil (m : Memory) : m.replay [] = m := rfl

/-- One more write stores its bytes over what was there. -/
theorem replay_cons (m : Memory) (w : Write) (past : List Write) :
    m.replay (w :: past) = (m.replay past).storeLow w.address w.size w.value := by
  apply congrArg Memory.mk
  funext x
  by_cases h : (x - w.address).toNat < w.size
  · have hw : w.covers x = true := decide_eq_true h
    simp only [List.find?_cons, hw, h, if_true]
    rfl
  · have hw : w.covers x = false := decide_eq_false h
    simp only [List.find?_cons, hw, h, if_false]
    rfl

theorem replay_append (m : Memory) (later earlier : List Write) :
    m.replay (later ++ earlier) = (m.replay earlier).replay later := by
  induction later with
  | nil => rfl
  | cons w later ih => rw [List.cons_append, replay_cons, ih, replay_cons]

theorem byte_replay_of_covers (m : Memory) (later : List Write) (w : Write) (earlier : List Write)
    {x : Word} (hw : w.covers x = true) (hlater : ∀ l ∈ later, l.covers x = false) :
    (m.replay (later ++ w :: earlier)).byte x = w.byte x := by
  have hfind : (later ++ w :: earlier).find? (·.covers x) = some w := by
    rw [List.find?_append, List.find?_eq_none.mpr fun l hl => by simp [hlater l hl]]
    simp [hw]
  simp only [replay, hfind]

theorem byte_replay_of_uncovered (m : Memory) (past : List Write) {x : Word}
    (h : ∀ w ∈ past, w.covers x = false) : (m.replay past).byte x = m.byte x := by
  have hfind : past.find? (·.covers x) = none := List.find?_eq_none.mpr fun w hw => by simp [h w hw]
  simp only [replay, hfind]

end Memory

end TrapMonitor
