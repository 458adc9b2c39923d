import TrapMonitor.Proofs.Platform.Contract
import TrapMonitor.Proofs.Platform.Waiting
import TrapMonitor.Proofs.Trap.Simulation

/-! # Interchangeable platforms

The system on a chip and the simulator spread the same devices over quite different words. As long as
both encode the same time and the same deadline and offer the same input, a trap cannot tell them
apart, however the words are filled otherwise. What goes out differs in one byte value only, the
carriage return, which the serial device drops. The simulator always takes a byte; the serial device may
have no room, and then its driver waits, so that all of this is about traps that come back.
-/
namespace TrapMonitor

open Hart

/-! ## The serial device in plain words -/

namespace Uart

section Plain

variable {D : Type} [Bus D] [PlainWords D] {d d' : D}

/-- The byte that waits in the receiver, if there is one. -/
def offered (d : D) : Option Byte :=
  if flagClear (BitVec.ofNat 64 (rxEmpty.held d)) then
    some ((BitVec.ofNat 64 (rxtx.held d)).setWidth 8)
  else none

theorem tryRead_eq (d : D) : tryRead d =
    (offered d, if (offered d).isSome then (eventPending.write receiveEvent d).2 else d) := by
  have h : tryRead d = (if flagClear (rxEmpty.read d).1 then do
      let v ← rxtx.read
      eventPending.write receiveEvent
      return some (v.setWidth 8)
    else return none : StateM D (Option Byte)) (rxEmpty.read d).2 := rfl
  rw [h, SplitRegister.read_eq, offered]
  by_cases hempty : flagClear (BitVec.ofNat 64 (rxEmpty.held d)) = true
  · have htaken : (do
        let v ← rxtx.read
        eventPending.write receiveEvent
        return some (v.setWidth 8) : StateM D (Option Byte)) d =
      (some ((rxtx.read d).1.setWidth 8), (eventPending.write receiveEvent (rxtx.read d).2).2) := rfl
    rw [if_pos hempty, if_pos hempty, htaken, SplitRegister.read_eq]
    rfl
  · rw [if_neg hempty, if_neg hempty]
    rfl

theorem offered_congr (h : SameBytes d d') : offered d' = offered d := by
  rw [offered, offered, h.held, h.held]

theorem hasRoom_congr (h : SameBytes d d') : hasRoom d' = hasRoom d := by
  rw [hasRoom, hasRoom, h.held]

end Plain

section Recorded

variable {D : Type} [Bus D] [PlainWords D]

theorem sent_tryRead (d : Recorder D) :
    (tryRead d).2.sent rxtx.first = d.sent rxtx.first := by
  rw [tryRead_eq]
  split
  · exact d.sent_write_of_ne (by decide) _
  · rfl

/-- If the driver comes back, a byte went out as it is, unless it is a carriage return. -/
theorem sent_writeByte (b : Byte) (d : Recorder D) (hready : (writeByte b d).1 = true) :
    (writeByte b d).2.sent rxtx.first =
      d.sent rxtx.first ++ [b].filter (· ≠ carriageReturn) := by
  have hroom : hasRoom d = true := by
    rw [writeByte_eq] at hready
    exact hready
  rw [writeByte_eq, hroom, Bool.true_and]
  by_cases hb : b = carriageReturn
  · subst hb
    exact (List.append_nil _).symm
  · have hne : (b != carriageReturn) = true := bne_iff_ne.mpr hb
    have hwrite : (rxtx.write (b.setWidth 64) d).2 =
        (Bus.write rxtx.first (SplitRegister.byteWord (b.setWidth 64) 0) d).2 := rfl
    rw [if_pos hne, hwrite, Recorder.sent_write_self, SplitRegister.setWidth_byteWord]
    simp [hb]

end Recorded

end Uart

/-! ## What a platform shows of its console -/

class ConsoleView (P : Type) where
  /-- The byte that is received next. -/
  offered : P → Option Byte
  /-- The bytes that went out. -/
  sent : P → List Byte

variable {U T B D : Type} [Bus U] [PlainWords U] [Bus T] [PlainWords T] [Bus B] [Bus D] [PlainWords D]

instance : ConsoleView (SocPlatform (Recorder U) T B) where
  offered p := Uart.offered p.uart
  sent p := p.uart.sent Uart.rxtx.first

instance : ConsoleView (SimulatorPlatform (Recorder D)) where
  offered p := SimulatorPlatform.received (p.word SimulatorPlatform.console)
  sent p := p.words.sent SimulatorPlatform.console

/-! ## Platforms that agree -/

section Agree

variable {P Q : Type}

/-- The timers encode the same time and the same deadline. -/
structure TimersAgree [TimerView P] [TimerView Q] (p : P) (q : Q) : Prop where
  left : TimerView.sound p
  right : TimerView.sound q
  time : TimerView.time q = TimerView.time p
  deadline : TimerView.deadline q = TimerView.deadline p

theorem TimersAgree.of_kept [TimerView P] [TimerView Q] {p p' : P} {q q' : Q} (h : TimersAgree p q)
    (hp : TimerKept p p') (hq : TimerKept q q') : TimersAgree p' q' where
  left := hp.sound
  right := hq.sound
  time := hq.time.trans (h.time.trans hp.time.symm)
  deadline := hq.deadline.trans (h.deadline.trans hp.deadline.symm)

variable [ConsoleView P] [ConsoleView Q]

/-- From `p` to `p'` and from `q` to `q'` the same bytes were written. They all went out on the right,
and on the left all but the carriage returns. -/
def OutputAgrees (p : P) (q : Q) (p' : P) (q' : Q) : Prop :=
  ∃ bytes, ConsoleView.sent q' = ConsoleView.sent q ++ bytes ∧
    ConsoleView.sent p' = ConsoleView.sent p ++ bytes.filter (· ≠ Uart.carriageReturn)

namespace OutputAgrees

variable {p p' p'' : P} {q q' q'' : Q}

theorem of_unchanged (hp : ConsoleView.sent p' = ConsoleView.sent p)
    (hq : ConsoleView.sent q' = ConsoleView.sent q) : OutputAgrees p q p' q' :=
  ⟨[], by rw [hq, List.append_nil], by rw [hp, List.filter_nil, List.append_nil]⟩

theorem trans (h : OutputAgrees p q p' q') (h' : OutputAgrees p' q' p'' q'') :
    OutputAgrees p q p'' q'' := by
  obtain ⟨bytes, hq, hp⟩ := h
  obtain ⟨bytes', hq', hp'⟩ := h'
  refine ⟨bytes ++ bytes', ?_, ?_⟩
  · rw [hq', hq, List.append_assoc]
  · rw [hp', hp, List.filter_append, List.append_assoc]

end OutputAgrees

end Agree

/-! ## One use of the platforms -/

section Uses

variable {p : SocPlatform (Recorder U) T B} {q : SimulatorPlatform (Recorder D)}

/-- What `p` and `q` have become after one use of each. A byte that is waited with is not there yet. -/
structure Interchanged (p : SocPlatform (Recorder U) T B) (q : SimulatorPlatform (Recorder D))
    (p' : SocPlatform (Recorder U) T B) (q' : SimulatorPlatform (Recorder D)) : Prop where
  timers : TimersAgree p' q'
  output : Platform.waits p' = false → OutputAgrees p q p' q'

theorem sent_simulator_write (b : Byte) (q : SimulatorPlatform (Recorder D)) :
    ConsoleView.sent (Platform.write b q) = ConsoleView.sent q ++ [b] := by
  have hbyte : (b.setWidth 32).setWidth 8 = b := by
    rw [BitVec.setWidth_setWidth_of_le _ (by decide), BitVec.setWidth_eq]
  have h := q.words.sent_write_self SimulatorPlatform.console (b.setWidth 32)
  rw [hbyte] at h
  exact h

theorem sent_simulator_writeCompare (low high : Word) (q : SimulatorPlatform (Recorder D)) :
    ConsoleView.sent (Platform.writeCompare low high q) = ConsoleView.sent q := by
  have hother {i : Nat} (hi : i ≠ SimulatorPlatform.console) (v : Word)
      (q : SimulatorPlatform (Recorder D)) :
      ConsoleView.sent (SimulatorPlatform.onWords (Bus.write i v) q).2 = ConsoleView.sent q :=
    q.words.sent_write_of_ne hi v
  rw [SimulatorPlatform.writeCompare_eq, hother (by decide), hother (by decide), hother (by decide)]

theorem usedAlike_interchanged (ht : TimersAgree p q)
    (hin : ConsoleView.offered q = ConsoleView.offered p) : UsedAlike (Interchanged p q) p q where
  unused := ⟨ht, fun _ => .of_unchanged rfl rfl⟩
  received := by
    rw [SimulatorPlatform.tryRead_eq]
    exact hin.trans (congrArg Prod.fst (Uart.tryRead_eq p.uart)).symm
  tryRead := by
    rw [SimulatorPlatform.tryRead_eq]
    exact ⟨⟨ht.left, ht.right, ht.time, ht.deadline⟩,
      fun _ => .of_unchanged (Uart.sent_tryRead p.uart) rfl⟩
  write b := by
    refine ⟨ht.of_kept ⟨ht.left, rfl, rfl⟩ (SimulatorPlatform.timerKept_write b ht.right),
      fun hwaits => ⟨[b], sent_simulator_write b q, Uart.sent_writeByte b p.uart ?_⟩⟩
    have hboth : (p.waits || !(Uart.writeByte b p.uart).1) = false := hwaits
    simpa using (Bool.or_eq_false_iff.mp hboth).2
  low := by
    have hlow : (Platform.readLow p).1 = (TimerView.time p).low :=
      congrArg Prod.fst (Timer.readLow_eq p.timer)
    rw [SimulatorPlatform.readLow_eq, hlow, ← ht.time]
    rfl
  readLow := by
    rw [SimulatorPlatform.readLow_eq]
    exact ⟨ht.of_kept (SocPlatform.timerKept_readLow ht.left) (.refl ht.right),
      fun _ => .of_unchanged rfl rfl⟩
  high := by
    have hhigh : (Platform.readHigh p).1 = (TimerView.time p).high :=
      congrArg Prod.fst (Timer.readHigh_eq p.timer)
    rw [SimulatorPlatform.readHigh_eq, hhigh, ← ht.time]
    rfl
  readHigh := by
    rw [SimulatorPlatform.readHigh_eq]
    exact ⟨ht.of_kept (SocPlatform.timerKept_readHigh ht.left) (.refl ht.right),
      fun _ => .of_unchanged rfl rfl⟩
  writeCompare low high := by
    obtain ⟨hleft, hpdeadline, -⟩ := LawfulTimer.writeCompare low high p ht.left
    obtain ⟨hright, hqdeadline, -⟩ := LawfulTimer.writeCompare low high q ht.right
    refine ⟨⟨hleft, hright, ?_, hqdeadline.trans hpdeadline.symm⟩,
      fun _ => .of_unchanged rfl (sent_simulator_writeCompare low high q)⟩
    rw [SimulatorPlatform.time_writeCompare, SocPlatform.time_writeCompare, ht.time]

/-! ## The upper bits -/

/-- The same low bytes in the words, and the same words written so far. -/
structure SameRecord (d d' : Recorder U) : Prop where
  bytes : SameBytes d d'
  writes : d'.writes = d.writes

namespace SameRecord

variable {d d' : Recorder U} (h : SameRecord d d')

include h

theorem write (r : SplitRegister) (v : DoubleWord) :
    SameRecord (r.write v d).2 (r.write v d').2 :=
  r.write_related (fun i v _ _ h =>
    ⟨h.bytes.busWrite i v, congrArg (fun writes => writes ++ [(i, v)]) h.writes⟩) v h

theorem tryRead : (Uart.tryRead d').1 = (Uart.tryRead d).1 ∧
    SameRecord (Uart.tryRead d).2 (Uart.tryRead d').2 := by
  rw [Uart.tryRead_eq, Uart.tryRead_eq, Uart.offered_congr h.bytes]
  refine ⟨rfl, ?_⟩
  dsimp only
  split
  · exact h.write _ _
  · exact h

theorem writeByte (b : Byte) : (Uart.writeByte b d').1 = (Uart.writeByte b d).1 ∧
    SameRecord (Uart.writeByte b d).2 (Uart.writeByte b d').2 := by
  rw [Uart.writeByte_eq, Uart.writeByte_eq, Uart.hasRoom_congr h.bytes]
  refine ⟨rfl, ?_⟩
  dsimp only
  split
  · exact h.write _ _
  · exact h

end SameRecord

/-- Platforms that differ in the upper bits of their words only. -/
structure SameLow (p p' : SocPlatform (Recorder U) T B) : Prop where
  uart : SameRecord p.uart p'.uart
  timer : SameBytes p.timer p'.timer
  finish : p'.finish = p.finish
  waits : Platform.waits p' = Platform.waits p

theorem usedAlike_sameLow {p p' : SocPlatform (Recorder U) T B} (h : SameLow p p') :
    UsedAlike SameLow p p' := by
  have hcounter : Timer.counter p'.timer = Timer.counter p.timer := by
    rw [Timer.counter, Timer.counter, h.timer.held]
  have hlatched := h.timer.write Timer.latch 1
  exact {
    unused := h
    received := h.uart.tryRead.1
    tryRead := ⟨h.uart.tryRead.2, h.timer, h.finish, h.waits⟩
    write := fun b => by
      have hwaits : p'.waits = p.waits := h.waits
      obtain ⟨hready, huart⟩ := h.uart.writeByte b
      refine ⟨huart, h.timer, h.finish, ?_⟩
      change (p'.waits || !(Uart.writeByte b p'.uart).1) = (p.waits || !(Uart.writeByte b p.uart).1)
      rw [hready, hwaits]
    low := by
      change (Timer.readLow p'.timer).1 = (Timer.readLow p.timer).1
      rw [Timer.readLow_eq, Timer.readLow_eq, hcounter]
    readLow := by
      refine ⟨h.uart, ?_, h.finish, h.waits⟩
      change SameBytes (Timer.readLow p.timer).2 (Timer.readLow p'.timer).2
      rw [Timer.readLow_eq, Timer.readLow_eq]
      exact hlatched
    high := by
      change (Timer.readHigh p'.timer).1 = (Timer.readHigh p.timer).1
      rw [Timer.readHigh_eq, Timer.readHigh_eq, hcounter]
    readHigh := by
      refine ⟨h.uart, ?_, h.finish, h.waits⟩
      change SameBytes (Timer.readHigh p.timer).2 (Timer.readHigh p'.timer).2
      rw [Timer.readHigh_eq, Timer.readHigh_eq]
      exact hlatched
    writeCompare := fun low high => by
      refine ⟨h.uart, ?_, h.finish, h.waits⟩
      change SameBytes (Timer.writeCompare _ p.timer).2 (Timer.writeCompare _ p'.timer).2
      rw [Timer.snd_writeCompare, Timer.snd_writeCompare]
      exact (h.timer.write _ _).write _ _ }

end Uses

/-! ## Sequences of traps -/

/-- What comes to a machine between two traps. -/
structure Stimulus (H F : Type) where
  /-- What the trapped code and the hart do until the next trap. -/
  goOn : F → H → F × H
  time : DoubleWord
  input : Option Byte

namespace Machine

variable {H P F : Type} [Hart H] [Platform P] [FrameStore H F] [TimerView P] [ConsoleView P]

/-- The machine `n` is `m` after a stimulus: the devices have the new time and input, and keep their
deadline. -/
structure Supplied (x : Stimulus H F) (m n : Machine H P F) : Prop where
  state : (n.frame, n.hart) = x.goOn m.frame m.hart
  log : n.log = m.log
  sound : TimerView.sound n.platform
  deadline : TimerView.deadline n.platform = TimerView.deadline m.platform
  time : TimerView.time n.platform = x.time
  offered : ConsoleView.offered n.platform = x.input
  sent : ConsoleView.sent n.platform = ConsoleView.sent m.platform

/-- From `m₀` on, the stimuli lead to these outcomes of traps and to the machine `m`, and no trap waits
for ever. The latest comes first. -/
inductive Responds (m₀ : Machine H P F) : List (Stimulus H F) → List Outcome → Machine H P F → Prop
  | start : Responds m₀ [] [] m₀
  | trap {stimuli : List (Stimulus H F)} {outcomes : List Outcome} {m n : Machine H P F} :
    Responds m₀ stimuli outcomes m → ∀ x, Supplied x m n →
    Platform.waits (handleTrap n).2.platform = false →
    Responds m₀ (x :: stimuli) ((handleTrap n).1 :: outcomes) (handleTrap n).2

end Machine

/-! ## The platforms are interchangeable -/

namespace Machine

variable {H F : Type} [Hart H] [FrameStore H F] {m m₀ : Machine H (SocPlatform (Recorder U) T B) F}
  {n n₀ : Machine H (SimulatorPlatform (Recorder D)) F}

/-- One trap, with the same input on both platforms. -/
theorem related_of_offered (h : Related SameHart TimersAgree m n)
    (hin : ConsoleView.offered n.platform = ConsoleView.offered m.platform) :
    (handleTrap n).1 = (handleTrap m).1 ∧
      Related SameHart (Interchanged m.platform n.platform) (handleTrap m).2 (handleTrap n).2 :=
  handleTrap_related hartSimulation_sameHart h.hart (usedAlike_interchanged h.platform hin) h.log

omit [Bus B] [Hart H] [FrameStore H F] in
theorem related_of_supplied {x : Stimulus H F} {m' n'} (h : Related SameHart TimersAgree m n)
    (hm : Supplied x m m') (hn : Supplied x n n') : Related SameHart TimersAgree m' n' := by
  have hstate := hn.state
  rw [h.hart.1, h.hart.2, ← hm.state] at hstate
  obtain ⟨hframe, hhart⟩ := Prod.ext_iff.mp hstate
  exact {
    hart := ⟨hframe, hhart⟩
    platform := ⟨hm.sound, hn.sound, hn.time.trans hm.time.symm,
      hn.deadline.trans (h.platform.deadline.trans hm.deadline.symm)⟩
    log := hn.log.trans (h.log.trans hm.log.symm) }

/-- The relation lasts along every sequence of traps, by induction on it. -/
theorem related_of_responds {stimuli : List (Stimulus H F)} {outcomes outcomes' : List Outcome}
    (h : Related SameHart TimersAgree m₀ n₀) (hm : Responds m₀ stimuli outcomes m)
    (hn : Responds n₀ stimuli outcomes' n) :
    outcomes' = outcomes ∧ Related SameHart TimersAgree m n ∧
      OutputAgrees m₀.platform n₀.platform m.platform n.platform := by
  induction hm generalizing outcomes' n with
  | start =>
    cases hn
    exact ⟨rfl, h, .of_unchanged rfl rfl⟩
  | trap hm x hx hback ih =>
    cases hn with
    | trap hn _ hy _ =>
      obtain ⟨houtcomes, hrelated, houtput⟩ := ih hn
      have hsupplied := related_of_supplied hrelated hx hy
      obtain ⟨houtcome, htrap⟩ := related_of_offered hsupplied (hy.offered.trans hx.offered.symm)
      have hwaited : OutputAgrees _ _ _ _ := .of_unchanged hx.sent hy.sent
      exact ⟨by rw [houtcome, houtcomes], ⟨htrap.hart, htrap.platform.timers, htrap.log⟩,
        (houtput.trans hwaited).trans (htrap.platform.output hback)⟩

end Machine

end TrapMonitor
