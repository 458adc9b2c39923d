/-! # Words, bytes and register numbers

Registers hold words, memory holds bytes. A word is spelled by its bytes, least significant
byte first: `Word.bytes` and `Word.ofBytes` go back and forth, and `Word.ofBytes_bytes` says
that four bytes lose nothing.
-/
namespace TrapMonitor

abbrev Byte := BitVec 8
abbrev Half := BitVec 16
abbrev Word := BitVec 32
abbrev DoubleWord := BitVec 64

namespace Word

/-- The lowest `n` bytes of a word, least significant first. -/
def bytes : Nat → Word → List Byte
  | 0, _ => []
  | n + 1, w => w.setWidth 8 :: bytes n (w >>> 8)

/-- The word that a list of bytes spells, least significant first. -/
def ofBytes : List Byte → Word
  | [] => 0
  | b :: rest => b.setWidth 32 ||| ofBytes rest <<< 8

@[simp] theorem length_bytes (n : Nat) (w : Word) : (bytes n w).length = n := by
  induction n generalizing w with
  | zero => rfl
  | succ n ih => simp [bytes, ih]

theorem getLsbD_ofBytes_bytes (n i : Nat) (w : Word) (hi : i < 32) :
    (ofBytes (bytes n w)).getLsbD i = (decide (i < 8 * n) && w.getLsbD i) := by
  induction n generalizing w i with
  | zero => simp [bytes, ofBytes]
  | succ n ih =>
    simp only [bytes, ofBytes, BitVec.getLsbD_or, BitVec.getLsbD_setWidth,
      BitVec.getLsbD_shiftLeft, hi, decide_true, Bool.true_and]
    by_cases h : i < 8
    · simp [h, show i < 8 * (n + 1) by omega]
    · have hw : i - 8 + 8 = i := by omega
      rw [ih (i - 8) (w >>> 8) (by omega)]
      simp [h, BitVec.getLsbD_ushiftRight, Nat.add_comm 8 (i - 8), hw,
        show (i - 8 < 8 * n) ↔ (i < 8 * (n + 1)) by omega]

theorem ofBytes_bytes (w : Word) : ofBytes (bytes 4 w) = w := by
  refine BitVec.eq_of_getLsbD_eq fun i hi => ?_
  rw [getLsbD_ofBytes_bytes 4 i w hi]
  simp [hi]

end Word

namespace DoubleWord

/-- The pair of words `high:low` as one number. -/
def ofHalves (low high : Word) : DoubleWord := high.setWidth 64 <<< 32 ||| low.setWidth 64

def low (v : DoubleWord) : Word := v.setWidth 32

def high (v : DoubleWord) : Word := (v >>> 32).setWidth 32

@[simp] theorem low_ofHalves (l h : Word) : low (ofHalves l h) = l := by
  refine BitVec.eq_of_getLsbD_eq fun i hi => ?_
  simp [low, ofHalves, hi]

@[simp] theorem high_ofHalves (l h : Word) : high (ofHalves l h) = h := by
  refine BitVec.eq_of_getLsbD_eq fun i hi => ?_
  simp [high, ofHalves, hi, show 32 + i < 64 by omega, show i < 64 by omega]

end DoubleWord

/-- The number of a general purpose register. -/
abbrev Reg := BitVec 5

namespace Reg

def zero : Reg := 0
def ra : Reg := 1
def sp : Reg := 2
def a0 : Reg := 10
def a1 : Reg := 11
def a2 : Reg := 12
def a3 : Reg := 13
def a7 : Reg := 17

/-- A register field is the lowest five bits of the shifted instruction. -/
def ofField (bits : Word) : Reg := bits.setWidth 5

end Reg

end TrapMonitor
