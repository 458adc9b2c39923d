import TrapMonitor.Platform.Scripted
import TrapMonitor.Platform.Simulator
import TrapMonitor.Platform.Soc
import TrapMonitor.Proofs.Bus.Words

/-! # What a timer promises

The timer of a platform keeps its deadline whatever else the platform is used for, and its time never
goes back. A new deadline is the pair of words that was passed, however the platform spreads it over
its registers.
-/
namespace TrapMonitor

/-- The timer behind a platform. -/
class TimerView (P : Type) where
  time : P → DoubleWord
  deadline : P → DoubleWord
  /-- The registers of the timer are all there. -/
  sound : P → Prop

/-- From `p` to `p'` time may have passed, but the deadline is the same. -/
structure DeadlineKept {P : Type} [TimerView P] (p p' : P) : Prop where
  sound : TimerView.sound p'
  deadline : TimerView.deadline p' = TimerView.deadline p
  time : TimerView.time p ≤ TimerView.time p'

/-- From `p` to `p'` the timer stood still. -/
structure TimerKept {P : Type} [TimerView P] (p p' : P) : Prop where
  sound : TimerView.sound p'
  deadline : TimerView.deadline p' = TimerView.deadline p
  time : TimerView.time p' = TimerView.time p

theorem TimerKept.refl {P : Type} [TimerView P] {p : P} (h : TimerView.sound p) : TimerKept p p :=
  ⟨h, rfl, rfl⟩

theorem TimerKept.deadlineKept {P : Type} [TimerView P] {p p' : P} (h : TimerKept p p') :
    DeadlineKept p p' := ⟨h.sound, h.deadline, h.time ▸ BitVec.le_refl _⟩

theorem DeadlineKept.refl {P : Type} [TimerView P] {p : P} (h : TimerView.sound p) :
    DeadlineKept p p := (TimerKept.refl h).deadlineKept

class LawfulTimer (P : Type) [Platform P] [TimerView P] : Prop where
  tryRead : ∀ p : P, TimerView.sound p → DeadlineKept p (Platform.tryRead p).2
  write : ∀ (b : Byte) (p : P), TimerView.sound p → DeadlineKept p (Platform.write b p)
  readLow : ∀ p : P, TimerView.sound p → DeadlineKept p (Platform.readLow p).2
  readHigh : ∀ p : P, TimerView.sound p → DeadlineKept p (Platform.readHigh p).2
  writeCompare : ∀ (low high : Word) (p : P), TimerView.sound p →
    TimerView.sound (Platform.writeCompare low high p) ∧
      TimerView.deadline (Platform.writeCompare low high p) = .ofHalves low high ∧
      TimerView.time p ≤ TimerView.time (Platform.writeCompare low high p)

/-! ## The scripted timer -/

namespace ScriptedPlatform

/-- As long as no deadline is set, it is at the end of time. -/
instance : TimerView ScriptedPlatform where
  time p := p.time
  deadline p := p.compare.getD (BitVec.allOnes 64)
  sound _ := True

instance : LawfulTimer ScriptedPlatform where
  tryRead p _ := by
    change DeadlineKept p p.tryRead.2
    unfold tryRead
    split
    · exact .refl trivial
    · exact ⟨trivial, rfl, BitVec.le_refl _⟩
  write _ _ _ := ⟨trivial, rfl, BitVec.le_refl _⟩
  readLow _ _ := .refl trivial
  readHigh _ _ := .refl trivial
  writeCompare _ _ _ _ := ⟨trivial, rfl, BitVec.le_refl _⟩

end ScriptedPlatform

/-! ## The latched timer -/

namespace Timer

variable {D : Type} [Bus D] [PlainWords D]

/-- The counter that the registers encode. -/
def counter (d : D) : DoubleWord := BitVec.ofNat 64 (time.held d)

/-- The deadline that the registers encode. -/
def deadline (d : D) : DoubleWord := BitVec.ofNat 64 (timeCompare.held d)

theorem counter_latch (d : D) : counter (latch.write 1 d).2 = counter d := by
  rw [counter, SplitRegister.held_write_of_disjoint _ _ _ _ (by decide), counter]

theorem deadline_latch (d : D) : deadline (latch.write 1 d).2 = deadline d := by
  rw [deadline, SplitRegister.held_write_of_disjoint _ _ _ _ (by decide), deadline]

theorem readTime_eq (d : D) : readTime d = (counter d, (latch.write 1 d).2) := by
  have h : readTime d = time.read (latch.write 1 d).2 := rfl
  rw [h, SplitRegister.read_eq, ← counter, counter_latch]

theorem readLow_eq (d : D) : readLow d = ((counter d).low, (latch.write 1 d).2) := by
  have h : readLow d = ((readTime d).1.low, (readTime d).2) := rfl
  rw [h, readTime_eq]

theorem readHigh_eq (d : D) : readHigh d = ((counter d).high, (latch.write 1 d).2) := by
  have h : readHigh d = ((readTime d).1.high, (readTime d).2) := rfl
  rw [h, readTime_eq]

variable (v : DoubleWord) (d : D)

omit [PlainWords D] in
theorem snd_writeCompare :
    (writeCompare v d).2 = (latch.write 1 (timeCompare.write v d).2).2 := rfl

theorem length_writeCompare : (PlainWords.words (writeCompare v d).2).words.length =
    (PlainWords.words d).words.length := by
  rw [snd_writeCompare, SplitRegister.length_write, SplitRegister.length_write]

theorem counter_writeCompare : counter (writeCompare v d).2 = counter d := by
  rw [snd_writeCompare, counter_latch, counter,
    SplitRegister.held_write_of_disjoint _ _ _ _ (by decide), counter]

theorem deadline_writeCompare (hsize : (PlainWords.words d).words.length = size) :
    deadline (writeCompare v d).2 = v := by
  rw [snd_writeCompare, deadline_latch, deadline,
    SplitRegister.held_write_self _ _ _ (by rw [hsize]; decide)]
  have hv : v.toNat % 256 ^ timeCompare.count = v.toNat := Nat.mod_eq_of_lt v.isLt
  rw [hv, BitVec.ofNat_toNat, BitVec.setWidth_eq]

end Timer

namespace SocPlatform

variable {U T F : Type} [Bus U] [Bus T] [Bus F] [PlainWords T]

instance : TimerView (SocPlatform U T F) where
  time p := Timer.counter p.timer
  deadline p := Timer.deadline p.timer
  sound p := (PlainWords.words p.timer).words.length = Timer.size

omit [Bus U] [Bus F] in
theorem timerKept_latch {p p' : SocPlatform U T F} (h : TimerView.sound p)
    (hp : p'.timer = (Timer.latch.write 1 p.timer).2) : TimerKept p p' where
  sound := by
    change (PlainWords.words p'.timer).words.length = Timer.size
    rw [hp, SplitRegister.length_write]
    exact h
  deadline := by
    change Timer.deadline p'.timer = Timer.deadline p.timer
    rw [hp, Timer.deadline_latch]
  time := by
    change Timer.counter p'.timer = Timer.counter p.timer
    rw [hp, Timer.counter_latch]

theorem timerKept_readLow {p : SocPlatform U T F} (h : TimerView.sound p) :
    TimerKept p (Platform.readLow p).2 :=
  timerKept_latch h (congrArg Prod.snd (Timer.readLow_eq p.timer))

theorem timerKept_readHigh {p : SocPlatform U T F} (h : TimerView.sound p) :
    TimerKept p (Platform.readHigh p).2 :=
  timerKept_latch h (congrArg Prod.snd (Timer.readHigh_eq p.timer))

theorem time_writeCompare (low high : Word) (p : SocPlatform U T F) :
    TimerView.time (Platform.writeCompare low high p) = TimerView.time p :=
  Timer.counter_writeCompare _ p.timer

instance : LawfulTimer (SocPlatform U T F) where
  tryRead _ h := ⟨h, rfl, BitVec.le_refl _⟩
  write _ _ h := ⟨h, rfl, BitVec.le_refl _⟩
  readLow _ h := (timerKept_readLow h).deadlineKept
  readHigh _ h := (timerKept_readHigh h).deadlineKept
  writeCompare low high p h := by
    refine ⟨(Timer.length_writeCompare _ p.timer).trans h,
      Timer.deadline_writeCompare _ p.timer h, ?_⟩
    rw [time_writeCompare]
    exact BitVec.le_refl _

end SocPlatform

/-! ## The simulator's timer -/

namespace SimulatorPlatform

variable {D : Type} [Bus D] [PlainWords D]

def word (p : SimulatorPlatform D) (i : Nat) : Word := (PlainWords.words p.words).get i

/-- The counter that the words encode. -/
def counter (p : SimulatorPlatform D) : DoubleWord := .ofHalves (p.word timeLow) (p.word timeHigh)

/-- The deadline that the words encode. -/
def deadline (p : SimulatorPlatform D) : DoubleWord :=
  .ofHalves (p.word compareLow) (p.word compareHigh)

instance : TimerView (SimulatorPlatform D) where
  time := counter
  deadline := deadline
  sound p := (PlainWords.words p.words).words.length = size

/-- Writing other words than the timer's. -/
theorem timerKept_of_word {p p' : SimulatorPlatform D} (h : TimerView.sound p)
    (hlength : (PlainWords.words p'.words).words.length = (PlainWords.words p.words).words.length)
    (hp : ∀ i < 4, p'.word i = p.word i) : TimerKept p p' where
  sound := hlength.trans h
  deadline := by
    change deadline p' = deadline p
    rw [deadline, deadline, hp compareLow (by decide), hp compareHigh (by decide)]
  time := by
    change counter p' = counter p
    rw [counter, counter, hp timeLow (by decide), hp timeHigh (by decide)]

theorem read_eq (i : Nat) (p : SimulatorPlatform D) :
    onWords (Bus.read i) p = (p.word i, p) := by
  rw [onWords, PlainWords.read_eq]
  rfl

theorem tryRead_eq (p : SimulatorPlatform D) :
    Platform.tryRead p = (received (p.word console), p) := by
  have h : Platform.tryRead p = (received (onWords (Bus.read console) p).1,
      (onWords (Bus.read console) p).2) := rfl
  rw [h, read_eq]

theorem word_write_of_ne {i j : Nat} (h : i ≠ j) (v : Word) (p : SimulatorPlatform D) :
    (onWords (Bus.write i v) p).2.word j = p.word j := by
  change (PlainWords.words (Bus.write i v p.words).2).get j = _
  rw [PlainWords.words_write, Block.get_set_of_ne _ _ h]
  rfl

theorem length_write (i : Nat) (v : Word) (p : SimulatorPlatform D) :
    (PlainWords.words (onWords (Bus.write i v) p).2.words).words.length =
      (PlainWords.words p.words).words.length := by
  change (PlainWords.words (Bus.write i v p.words).2).words.length = _
  rw [PlainWords.words_write, Block.length_set]

theorem word_write_self {i : Nat} (v : Word) (p : SimulatorPlatform D)
    (h : i < (PlainWords.words p.words).words.length) :
    (onWords (Bus.write i v) p).2.word i = v := by
  change (PlainWords.words (Bus.write i v p.words).2).get i = _
  rw [PlainWords.words_write, Block.get_set_self _ _ h]

omit [PlainWords D] in
/-- The three words that are written for a deadline. -/
theorem writeCompare_eq (low high : Word) (p : SimulatorPlatform D) :
    Platform.writeCompare low high p =
      (onWords (Bus.write compareHigh high) (onWords (Bus.write compareLow low)
        (onWords (Bus.write compareHigh 0xffffffff) p).2).2).2 := rfl

theorem readLow_eq (p : SimulatorPlatform D) : Platform.readLow p = (p.counter.low, p) := by
  rw [counter, DoubleWord.low_ofHalves]
  exact read_eq timeLow p

theorem readHigh_eq (p : SimulatorPlatform D) : Platform.readHigh p = (p.counter.high, p) := by
  rw [counter, DoubleWord.high_ofHalves]
  exact read_eq timeHigh p

theorem timerKept_write (b : Byte) {p : SimulatorPlatform D} (h : TimerView.sound p) :
    TimerKept p (Platform.write b p) := by
  refine timerKept_of_word h (length_write console (b.setWidth 32) p) fun i hi => ?_
  exact word_write_of_ne (by unfold console; omega) (b.setWidth 32) p

theorem time_writeCompare (low high : Word) (p : SimulatorPlatform D) :
    TimerView.time (Platform.writeCompare low high p) = TimerView.time p := by
  rw [writeCompare_eq]
  change counter _ = counter p
  rw [counter, counter, word_write_of_ne (by decide), word_write_of_ne (by decide),
    word_write_of_ne (by decide), word_write_of_ne (by decide), word_write_of_ne (by decide),
    word_write_of_ne (by decide)]

instance : LawfulTimer (SimulatorPlatform D) where
  tryRead p h := by
    rw [tryRead_eq]
    exact .refl h
  write b _ h := (timerKept_write b h).deadlineKept
  readLow p h := by
    rw [readLow_eq]
    exact .refl h
  readHigh p h := by
    rw [readHigh_eq]
    exact .refl h
  writeCompare low high p h := by
    have hsize : (PlainWords.words p.words).words.length = 8 := h
    refine ⟨?_, ?_, ?_⟩
    · exact ((length_write _ _ _).trans (length_write _ _ _)).trans ((length_write _ _ _).trans h)
    · rw [writeCompare_eq]
      change deadline _ = _
      rw [deadline, word_write_of_ne (by decide), word_write_self _ _ (by
        rw [length_write, hsize]; decide), word_write_self _ _ (by
        rw [length_write, length_write, hsize]; decide)]
    · rw [time_writeCompare]
      exact BitVec.le_refl _

end SimulatorPlatform

end TrapMonitor
