import TrapMonitor.Machine.Sbi
import TrapMonitor.Platform.Simulator
import TrapMonitor.Proofs.Bus.Watched
import TrapMonitor.Proofs.Trap.Outcome

/-! # Reprogramming a deadline that is held in two words

The deadline of the simulator can only be changed one half at a time, and it is compared with the time
all the while. Between the old deadline and the new one the two words therefore hold values that are
neither: the first of them is not before the old deadline, and the second not before the new one, so
none is reached before one of the two deadlines is (`Machine.never_early`).
-/
namespace TrapMonitor

namespace DoubleWord

theorem toNat_ofHalves (low high : Word) :
    (ofHalves low high).toNat = high.toNat * 2 ^ 32 + low.toNat := by
  have hlow := low.isLt
  have hhigh := high.isLt
  rw [ofHalves, BitVec.toNat_or, BitVec.toNat_shiftLeft, BitVec.toNat_setWidth, BitVec.toNat_setWidth,
    Nat.mod_eq_of_lt (show high.toNat < 2 ^ 64 by omega),
    Nat.mod_eq_of_lt (show low.toNat < 2 ^ 64 by omega), Nat.shiftLeft_eq,
    Nat.mod_eq_of_lt (show high.toNat * 2 ^ 32 < 2 ^ 64 by omega), ← Nat.shiftLeft_eq,
    ← Nat.shiftLeft_add_eq_or_of_lt hlow, Nat.shiftLeft_eq]

/-- With the high half at the end of time, no value with the same low half is later. -/
theorem ofHalves_le_parked (low high : Word) : ofHalves low high ≤ ofHalves low 0xffffffff := by
  have hhigh : high.toNat ≤ (0xffffffff : Word).toNat := Nat.le_of_lt_succ high.isLt
  rw [BitVec.le_def, toNat_ofHalves, toNat_ofHalves]
  exact Nat.add_le_add_right (Nat.mul_le_mul_right _ hhigh) _

end DoubleWord

namespace SimulatorPlatform

/-- The two words of the deadline. -/
def IsCompare (i : Nat) : Prop := i = compareLow ∨ i = compareHigh

variable {D : Type} [Bus D] {word : D → Nat → Word}

/-- The value that is compared with the time. -/
def held (word : D → Nat → Word) (d : D) : DoubleWord :=
  .ofHalves (word d compareLow) (word d compareHigh)

/-- The moments at which a deadline is written, and the values that are held there. -/
def Writes (word : D → Nat → Word) (previous deadline : DoubleWord) (moments : List (Moment D)) :
    Prop :=
  ∃ first second third : D,
    moments = [⟨.write compareHigh 0xffffffff, first⟩, ⟨.write compareLow deadline.low, second⟩,
      ⟨.write compareHigh deadline.high, third⟩] ∧
    previous ≤ held word first ∧ deadline ≤ held word second ∧ held word third = deadline

/-- From `d` to `d'` the deadline is written, after a while in which it is left alone. -/
def Sets (word : D → Nat → Word) (d : D) (deadline : DoubleWord) (moments : List (Moment D)) (d' : D) :
    Prop :=
  ∃ quiet written, moments = quiet ++ written ∧
    (∀ x ∈ quiet, held word x.device = held word d) ∧
    Writes word (held word d) deadline written ∧ held word d' = deadline

omit [Bus D] in
/-- What is held while a deadline is written is reached no earlier than one of the two. -/
theorem reached_of_writes {previous deadline : DoubleWord} {moments : List (Moment D)}
    (h : Writes word previous deadline moments) {x : Moment D} (hx : x ∈ moments) {time : DoubleWord}
    (htime : held word x.device ≤ time) : previous ≤ time ∨ deadline ≤ time := by
  obtain ⟨first, second, third, rfl, hfirst, hsecond, hthird⟩ := h
  rcases List.mem_cons.mp hx with rfl | hx
  · exact .inl (BitVec.le_trans hfirst htime)
  rcases List.mem_cons.mp hx with rfl | hx
  · exact .inr (BitVec.le_trans hsecond htime)
  rcases List.mem_singleton.mp hx with rfl
  · exact .inr (BitVec.le_trans (BitVec.le_of_eq hthird.symm) htime)

omit [Bus D] in
theorem Sets.reached {d d' : D} {deadline : DoubleWord} {moments : List (Moment D)}
    (h : Sets word d deadline moments d') {x : Moment D} (hx : x ∈ moments) {time : DoubleWord}
    (htime : held word x.device ≤ time) : held word d ≤ time ∨ deadline ≤ time := by
  obtain ⟨quiet, written, rfl, hquiet, hwrites, -⟩ := h
  rcases List.mem_append.mp hx with hx | hx
  · exact .inl (BitVec.le_trans (BitVec.le_of_eq (hquiet x hx).symm) htime)
  · exact reached_of_writes hwrites hx htime

variable (hkeeps : KeepsWords word IsCompare)

include hkeeps

theorem held_write_of_ne {i : Nat} (hi : ¬IsCompare i) (v : Word) (d : D) :
    held word (Bus.write i v d).2 = held word d := by
  rw [held, held, hkeeps.write_of_ne i _ v d (.inl rfl) fun h => hi (.inl h),
    hkeeps.write_of_ne i _ v d (.inr rfl) fun h => hi (.inr h)]

theorem held_writeHigh (v : Word) (d : D) :
    held word (Bus.write compareHigh v d).2 = .ofHalves (word d compareLow) v := by
  rw [held, hkeeps.write_self _ v d (.inr rfl),
    hkeeps.write_of_ne compareHigh _ v d (.inl rfl) (by decide)]

theorem held_writeLow (v : Word) (d : D) :
    held word (Bus.write compareLow v d).2 = .ofHalves v (word d compareHigh) := by
  rw [held, hkeeps.write_self _ v d (.inl rfl),
    hkeeps.write_of_ne compareLow _ v d (.inr rfl) (by decide)]

theorem writes_writeCompare (low high : Word) (p : SimulatorPlatform (Watched D)) :
    ∃ moments, (Platform.writeCompare low high p).words.moments = p.words.moments ++ moments ∧
      Writes word (held word p.words.device) (.ofHalves low high) moments ∧
      held word (Platform.writeCompare low high p).words.device = .ofHalves low high := by
  let first := (Bus.write compareHigh 0xffffffff p.words.device).2
  let second := (Bus.write compareLow low first).2
  let third := (Bus.write compareHigh high second).2
  have hlow : word second compareLow = low := hkeeps.write_self _ _ _ (.inl rfl)
  have hhigh : word first compareHigh = 0xffffffff := hkeeps.write_self _ _ _ (.inr rfl)
  have hthird : held word third = .ofHalves low high := by
    rw [held_writeHigh hkeeps, hlow]
  refine ⟨_, ?_, ⟨first, second, third, rfl, ?_, ?_, hthird⟩, hthird⟩
  · rw [DoubleWord.low_ofHalves, DoubleWord.high_ofHalves]
    change (p.words.moments ++ [_] ++ [_]) ++ [_] = _
    rw [List.append_assoc, List.append_assoc]
    rfl
  · rw [held_writeHigh hkeeps]
    exact DoubleWord.ofHalves_le_parked _ _
  · rw [held_writeLow hkeeps, hhigh]
    exact DoubleWord.ofHalves_le_parked _ _

/-- What else is written to the platform does not touch the deadline. -/
theorem held_writes (bytes : List Byte) (p : SimulatorPlatform (Watched D)) :
    ∃ moments, (bytes.foldl (fun p b => Platform.write b p) p).words.moments =
        p.words.moments ++ moments ∧
      (∀ x ∈ moments, held word x.device = held word p.words.device) ∧
      held word (bytes.foldl (fun p b => Platform.write b p) p).words.device =
        held word p.words.device := by
  induction bytes generalizing p with
  | nil => exact ⟨[], (List.append_nil _).symm, nofun, rfl⟩
  | cons b bytes ih =>
    have hother : ¬IsCompare console := by
      rintro (h | h) <;> exact absurd h (by decide)
    have hwrite := held_write_of_ne hkeeps hother (b.setWidth 32) p.words.device
    obtain ⟨moments, hmoments, hheld, hlast⟩ := ih (Platform.write b p)
    refine ⟨⟨.write console (b.setWidth 32), (Bus.write console (b.setWidth 32) p.words.device).2⟩ ::
      moments, ?_, fun x hx => ?_, hlast.trans hwrite⟩
    · rw [List.append_cons]
      exact hmoments
    · rcases List.mem_cons.mp hx with rfl | hx
      · exact hwrite
      · exact (hheld x hx).trans hwrite

end SimulatorPlatform

/-! ## Any number of calls -/

/-- A call that sets a deadline: the deadline that it asked for, the device when it began, and all
that was seen of the device until it ended. -/
structure Reprogramming (D : Type) where
  deadline : DoubleWord
  started : D
  moments : List (Moment D)

namespace Machine

open SimulatorPlatform

section Calls

variable {H D F : Type} [Hart H] [FrameStore H F] [Bus D] {word : D → Nat → Word} {l : Logger}
  {m₀ m : Machine H (SimulatorPlatform (Watched D)) F} {calls : List (Reprogramming D)}

/-- The ways to set a deadline: on the platform, and through the call of the operating system, which
leaves a record first. -/
inductive Request where
  | writeCompare (low high : Word)
  | setTimer

namespace Request

def deadline (m : Machine H (SimulatorPlatform (Watched D)) F) : Request → DoubleWord
  | writeCompare low high => .ofHalves low high
  | setTimer => .ofHalves (m.register .a0) (m.register .a1)

def serve (l : Logger) (m : Machine H (SimulatorPlatform (Watched D)) F) :
    Request → Machine H (SimulatorPlatform (Watched D)) F
  | writeCompare low high => { m with platform := Platform.writeCompare low high m.platform }
  | setTimer => callNoting (say l) .setTimer m

end Request

/-- The deadline of the latest call, or the initial one. -/
def deadlineAfter {D : Type} (initial : DoubleWord) (calls : List (Reprogramming D)) : DoubleWord :=
  (calls.head?.map Reprogramming.deadline).getD initial

/-- From `m₀` on, these calls set a deadline, the latest of them first. Records go out on the same
platform. -/
inductive Reprograms (word : D → Nat → Word) (l : Logger)
    (m₀ : Machine H (SimulatorPlatform (Watched D)) F) :
    List (Reprogramming D) → Machine H (SimulatorPlatform (Watched D)) F → Prop
  | start : Reprograms word l m₀ [] m₀
  /-- Anything else happens, but the deadline is not written. -/
  | elsewhere {calls : List (Reprogramming D)} {m m' : Machine H (SimulatorPlatform (Watched D)) F} :
    Reprograms word l m₀ calls m →
    held word m'.platform.words.device = held word m.platform.words.device →
    Reprograms word l m₀ calls m'
  | call {calls : List (Reprogramming D)} {m : Machine H (SimulatorPlatform (Watched D)) F}
    {moments : List (Moment D)} (q : Request) :
    Reprograms word l m₀ calls m →
    (q.serve l m).platform.words.moments = m.platform.words.moments ++ moments →
    Reprograms word l m₀ (⟨q.deadline m, m.platform.words.device, moments⟩ :: calls) (q.serve l m)

variable (hkeeps : KeepsWords word IsCompare)

include hkeeps

/-- One call: its record goes out if it leaves one, and then the deadline is written. -/
theorem sets_serve (l : Logger) (m : Machine H (SimulatorPlatform (Watched D)) F) (q : Request)
    {moments : List (Moment D)}
    (hmoments : (q.serve l m).platform.words.moments = m.platform.words.moments ++ moments) :
    Sets word m.platform.words.device (q.deadline m) moments (q.serve l m).platform.words.device := by
  cases q with
  | writeCompare low high =>
    obtain ⟨written, hwritten, hwrites, hlast⟩ := writes_writeCompare hkeeps low high m.platform
    have heq : moments = written := List.append_cancel_left (hmoments.symm.trans hwritten)
    exact ⟨[], written, heq, nofun, hwrites, hlast⟩
  | setTimer =>
    let noted := say l (setTimerRecord (m.register .a0) (m.register .a1)) m
    obtain ⟨quiet, hquiet, hheld, hnoted⟩ := held_writes hkeeps
      (utf8 (l.text (setTimerRecord (m.register .a0) (m.register .a1)))) m.platform
    obtain ⟨written, hwritten, hwrites, hlast⟩ := writes_writeCompare hkeeps (m.register .a0)
      (m.register .a1) noted.platform
    have hstarted : held word noted.platform.words.device = held word m.platform.words.device := hnoted
    have hbefore : noted.platform.words.moments = m.platform.words.moments ++ quiet := hquiet
    rw [hstarted] at hwrites
    rw [hbefore, List.append_assoc] at hwritten
    have heq : moments = quiet ++ written := List.append_cancel_left (hmoments.symm.trans hwritten)
    exact ⟨quiet, written, heq, hheld, hwrites, hlast⟩

theorem held_of_reprograms (h : Reprograms word l m₀ calls m) :
    held word m.platform.words.device =
      deadlineAfter (held word m₀.platform.words.device) calls := by
  induction h with
  | start => rfl
  | elsewhere _ hother ih => exact hother.trans ih
  | call q _ hmoments _ =>
    obtain ⟨-, -, -, -, -, hlast⟩ := sets_serve hkeeps l _ q hmoments
    exact hlast

/-- Along any sequence of calls that set a deadline, mixed with whatever leaves its words alone: the
words hold the deadline of the latest call. While a call is under way they hold the previous deadline,
then something that is not before it, then something that is not before the new one, and then the new
one. So at no moment, whatever the time is there, has it reached what the words hold without having
reached the previous deadline or the new one. -/
theorem never_early (h : Reprograms word l m₀ calls m) :
    held word m.platform.words.device =
      deadlineAfter (held word m₀.platform.words.device) calls ∧
    ∀ later call earlier, calls = later ++ call :: earlier →
      let previous := deadlineAfter (held word m₀.platform.words.device) earlier
      held word call.started = previous ∧
      (∃ quiet, ∃ first second third : D, call.moments = quiet ++
        [⟨.write compareHigh 0xffffffff, first⟩, ⟨.write compareLow call.deadline.low, second⟩,
          ⟨.write compareHigh call.deadline.high, third⟩] ∧
        (∀ x ∈ quiet, held word x.device = previous) ∧
        previous ≤ held word first ∧ call.deadline ≤ held word second ∧
        held word third = call.deadline) ∧
      ∀ x ∈ call.moments, ∀ time, held word x.device ≤ time →
        previous ≤ time ∨ call.deadline ≤ time := by
  refine ⟨held_of_reprograms hkeeps h, ?_⟩
  induction h with
  | start => exact fun later call earlier hsplit => absurd hsplit (by simp)
  | elsewhere _ _ ih => exact ih
  | call q hcalls hmoments ih =>
    intro later call earlier hsplit
    cases later with
    | cons x later => exact ih later call earlier (List.cons.inj hsplit).2
    | nil =>
      obtain ⟨rfl, rfl⟩ := List.cons.inj hsplit
      intro previous
      have hprevious : held word _ = previous := held_of_reprograms hkeeps hcalls
      have hsets := sets_serve hkeeps l _ q hmoments
      refine ⟨hprevious, ?_, fun x hx time htime => ?_⟩
      · obtain ⟨quiet, written, hsplit, hquiet, ⟨first, second, third, rfl, hwritten⟩, -⟩ := hsets
        rw [hprevious] at hquiet hwritten
        exact ⟨quiet, first, second, third, hsplit, hquiet, hwritten⟩
      · rw [← hprevious]
        exact hsets.reached hx htime

end Calls

/-- A simulator whose time runs on by one at each access. -/
structure RunningSimulator where
  time : DoubleWord
  word : Nat → Word

namespace RunningSimulator

/-- The time words show the time, and the others what was written to them. -/
def shown (s : RunningSimulator) (i : Nat) : Word :=
  if i = timeLow then s.time.low else if i = timeHigh then s.time.high else s.word i

instance : Bus RunningSimulator where
  read i := fun s => (s.shown i, { s with time := s.time + 1 })
  write i v := fun s => ((), ⟨s.time + 1, Function.update s.word i v⟩)
  patience _ := 0

theorem keepsWords : KeepsWords RunningSimulator.word IsCompare where
  read _ _ _ _ := rfl
  write_self j v s _ := Function.update_self j v s.word
  write_of_ne _ _ v s _ hi := Function.update_of_ne hi.symm v s.word

end RunningSimulator

/-- A machine whose deadline is at the end of the lower half of time, and whose registers ask for one
just behind it. -/
def carryingOver : Machine FlatHart (SimulatorPlatform (Watched RunningSimulator)) Frame where
  hart := (trappedOn 0 0 0 (fun _ => 0) 0).hart
  platform := ⟨⟨⟨0xfffffff0, fun i => if i = compareLow then 0xffffffff else 0⟩, []⟩⟩
  frame := Frame.zero.set .a1 1
  log := []

/-- Neither half could be written alone: the new low half before the old high half would be at the
beginning of time. -/
theorem never_early_carryingOver :
    let m := callNoting (say ⟨.info⟩) .setTimer carryingOver
    held RunningSimulator.word carryingOver.platform.words.device = 0xffffffff ∧
    m.platform.words.moments.map (fun x => held RunningSimulator.word x.device) =
      [0xffffffffffffffff, 0xffffffff00000000, 0x100000000] ∧
    held RunningSimulator.word m.platform.words.device = 0x100000000 ∧
    ∀ x ∈ m.platform.words.moments, ∀ time, held RunningSimulator.word x.device ≤ time →
      0xffffffff ≤ time ∨ 0x100000000 ≤ time := by
  intro m
  have hrun : Reprograms RunningSimulator.word ⟨.info⟩ carryingOver
      [⟨.ofHalves (carryingOver.register .a0) (carryingOver.register .a1),
        carryingOver.platform.words.device, m.platform.words.moments⟩] m :=
    Reprograms.start.call .setTimer (List.nil_append _).symm
  obtain ⟨hlast, hcalls⟩ := never_early RunningSimulator.keepsWords hrun
  obtain ⟨-, -, hreached⟩ := hcalls [] _ [] rfl
  exact ⟨by decide +kernel, by decide +kernel, hlast.trans (by decide +kernel), hreached⟩

end Machine

end TrapMonitor
