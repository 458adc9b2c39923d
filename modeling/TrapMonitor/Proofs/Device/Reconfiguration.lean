import TrapMonitor.Proofs.Bus.Watched
import TrapMonitor.Video.Framebuffer

/-! # The port through which a clock manager is programmed

The port takes an address and data when it is strobed, and is busy with them for a while. The driver
puts both in place before it strobes, and waits afterwards, so the port takes exactly what it is given,
in that order (`Framebuffer.taken_writeManager`).
-/
namespace TrapMonitor

open Framebuffer

/-- The sides of a port that its words show in part. -/
class PortView (M : Type) where
  word : M → Nat → Word
  /-- The addresses and data that were taken, oldest first. -/
  taken : M → List (Byte × Half)

open PortView

/-- Polled from `p` on, the port is ready after at most `n` busy answers. -/
inductive ReadyWithin {M : Type} [Bus M] : Nat → M → Prop
  | now {n : Nat} {p : M} : (Bus.read Manager.ready.first p).1.toNat % 256 ≠ 0 → ReadyWithin n p
  | later {n : Nat} {p : M} :
    ReadyWithin n (Bus.read Manager.ready.first p).2 → ReadyWithin (n + 1) p

/-- What the words of a port mean. Each strobe takes what the address and data words hold at that
moment, and is followed by readiness sooner or later. -/
class LawfulPort (M : Type) [Bus M] [PortView M] : Prop where
  keeps : KeepsWords (word (M := M)) fun i => Manager.address.Covers i ∨ Manager.data.Covers i
  taken_read : ∀ (i : Nat) (p : M), taken (Bus.read i p).2 = taken p
  taken_write : ∀ (i : Nat) (v : Word) (p : M), i ≠ Manager.strobe.first →
    taken (Bus.write i v p).2 = taken p
  taken_strobe : ∀ (v : Word) (p : M), v.getLsbD 0 = true →
    taken (Bus.write Manager.strobe.first v p).2 = taken p ++
      [((Manager.address.spelled (word p)).setWidth 8, (Manager.data.spelled (word p)).setWidth 16)]
  ready : ∀ (v : Word) (p : M), v.getLsbD 0 = true →
    ReadyWithin (Bus.patience (Bus.write Manager.strobe.first v p).2)
      (Bus.write Manager.strobe.first v p).2

namespace Framebuffer

section Port

variable {M : Type} [Bus M] [PortView M] [LawfulPort M]

/-- Polling ends with readiness and takes nothing. -/
theorem poll_ready {n fuel : Nat} {p : M} (h : ReadyWithin n p) (hfuel : n < fuel) :
    (Manager.ready.poll (· != 0) fuel p).1 = true ∧
      taken (Manager.ready.poll (· != 0) fuel p).2 = taken p := by
  induction fuel generalizing n p with
  | zero => omega
  | succ fuel ih =>
    have hkept := LawfulPort.taken_read Manager.ready.first p
    have hanswer : (SplitRegister.shiftIn 0 (Bus.read Manager.ready.first p).1 != 0) =
        decide ((Bus.read Manager.ready.first p).1.toNat % 256 ≠ 0) := by
      rw [← SplitRegister.toNat_shiftIn_zero]
      exact Bool.eq_iff_iff.mpr (by simp [BitVec.toNat_eq])
    rw [SplitRegister.poll_succ, SplitRegister.read_of_count_one p rfl, hanswer]
    by_cases hready : (Bus.read Manager.ready.first p).1.toNat % 256 ≠ 0
    · rw [if_pos (decide_eq_true hready)]
      exact ⟨rfl, hkept⟩
    · rw [if_neg (by simpa using hready)]
      cases h with
      | now hnow => exact absurd hnow hready
      | later hlater =>
        obtain ⟨hdone, hrest⟩ := ih hlater (by omega)
        exact ⟨hdone, hrest.trans hkept⟩

/-- Registers without the strobe are written without anything being taken. -/
theorem taken_write_register (r : SplitRegister) (v : DoubleWord)
    (hr : ¬r.Covers Manager.strobe.first) (p : M) : taken (r.write v p).2 = taken p := by
  obtain ⟨-, -, hkept, -⟩ := r.write_watched (fun q => taken q = taken p) v
    (fun i x q hi hq => (LawfulPort.taken_write i x q fun h => hr (h ▸ hi)).trans hq) ⟨p, []⟩ rfl
  exact hkept

/-- A word is taken as it was given, and the port has become ready again. -/
theorem taken_writeManager (w : Byte × Half) (p : M) :
    (writeManager w p).1 = true ∧ taken (writeManager w p).2 = taken p ++ [w] := by
  let addressed := (Manager.address.write (w.1.setWidth 64) p).2
  let placed := (Manager.data.write (w.2.setWidth 64) addressed).2
  let strobed := (Bus.write Manager.strobe.first 1 placed).2
  have hkeeps := LawfulPort.keeps (M := M)
  have haddress : (Manager.address.spelled (word placed)).setWidth 8 = w.1 := by
    refine SplitRegister.setWidth_spelled (by decide) (by decide) ?_
    rw [SplitRegister.value_write_of_disjoint hkeeps Manager.data Manager.address (fun _ => .inl)
      (by decide), SplitRegister.value_write hkeeps Manager.address fun _ => .inl]
  have hdata : (Manager.data.spelled (word placed)).setWidth 16 = w.2 :=
    SplitRegister.setWidth_spelled (by decide) (by decide)
      (SplitRegister.value_write hkeeps Manager.data (fun _ => .inr) _ addressed)
  have hplaced : taken placed = taken p :=
    (taken_write_register _ _ (by decide) addressed).trans (taken_write_register _ _ (by decide) p)
  have hstrobed : taken strobed = taken p ++ [w] := by
    rw [LawfulPort.taken_strobe 1 placed (by decide), haddress, hdata, hplaced]
  obtain ⟨hready, hkept⟩ := poll_ready (LawfulPort.ready 1 placed (by decide)) (Nat.lt_succ_self _)
  exact ⟨hready, hkept.trans hstrobed⟩

end Port

end Framebuffer

/-! ## A port that is slow -/

/-- A port that is busy for some polls after each strobe. -/
structure SlowPort where
  word : Nat → Word
  taken : List (Byte × Half)
  /-- How often it still answers that it is busy. -/
  busy : Nat
  /-- How often it does so after taking its `n`-th word, counted from zero. -/
  delay : Nat → Nat

namespace SlowPort

def readWord (p : SlowPort) (i : Nat) : Word × SlowPort :=
  if i = Manager.ready.first then (if p.busy = 0 then 1 else 0, { p with busy := p.busy - 1 })
  else (p.word i, p)

def writeWord (p : SlowPort) (i : Nat) (v : Word) : SlowPort :=
  if i = Manager.strobe.first then
    if v.getLsbD 0 then
      { p with
        taken := p.taken ++ [((Manager.address.spelled p.word).setWidth 8,
          (Manager.data.spelled p.word).setWidth 16)]
        busy := p.delay p.taken.length }
    else p
  else { p with word := Function.update p.word i v }

instance : Bus SlowPort where
  read i := fun p => p.readWord i
  write i v := fun p => ((), p.writeWord i v)
  patience p := p.busy

instance : PortView SlowPort where
  word p := p.word
  taken p := p.taken

theorem readWord_snd (p : SlowPort) (i : Nat) :
    (p.readWord i).2.word = p.word ∧ (p.readWord i).2.taken = p.taken := by
  unfold readWord
  split <;> exact ⟨rfl, rfl⟩

theorem word_writeWord_strobe (p : SlowPort) (v : Word) :
    (p.writeWord Manager.strobe.first v).word = p.word := by
  rw [writeWord, if_pos rfl]
  split <;> rfl

theorem writeWord_of_ne {i : Nat} (p : SlowPort) (v : Word) (h : i ≠ Manager.strobe.first) :
    p.writeWord i v = { p with word := Function.update p.word i v } := if_neg h

theorem readyWithin (n : Nat) (p : SlowPort) (h : p.busy = n) : ReadyWithin n p := by
  induction n generalizing p with
  | zero =>
    refine .now ?_
    have hanswer : (p.readWord Manager.ready.first).1 = 1 := by
      rw [readWord, if_pos rfl]
      exact if_pos h
    change (p.readWord Manager.ready.first).1.toNat % 256 ≠ 0
    rw [hanswer]
    decide
  | succ n ih => exact .later (ih _ (congrArg (· - 1) h))

instance : LawfulPort SlowPort where
  keeps := {
    read := fun i j p _ => congrFun (p.readWord_snd i).1 j
    write_self := fun j v p hj => by
      have hne : j ≠ Manager.strobe.first := by
        rcases hj with ⟨hj, -⟩ | ⟨hj, -⟩ <;> exact Nat.ne_of_gt (Nat.lt_of_lt_of_le (by decide) hj)
      change (p.writeWord j v).word j = v
      rw [writeWord_of_ne p v hne]
      exact Function.update_self j v p.word
    write_of_ne := fun i j v p _ hij => by
      change (p.writeWord i v).word j = p.word j
      by_cases hi : i = Manager.strobe.first
      · rw [hi, word_writeWord_strobe]
      · rw [writeWord_of_ne p v hi]
        exact Function.update_of_ne hij.symm v p.word }
  taken_read i p := (p.readWord_snd i).2
  taken_write i v p hi := by
    change (p.writeWord i v).taken = p.taken
    rw [writeWord_of_ne p v hi]
  taken_strobe v p hv := by
    change (p.writeWord Manager.strobe.first v).taken = _
    rw [writeWord, if_pos rfl, if_pos hv]
    rfl
  ready v p _ := readyWithin _ _ rfl

end SlowPort

end TrapMonitor
