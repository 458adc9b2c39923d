import TrapMonitor.Device.Timer
import TrapMonitor.Proofs.Bus.Watched

/-! # A timer that is never seen or programmed torn

The counter of the timer runs on between any two accesses to its words, and its deadline is compared
all the time. The words only change hands when the latch is strobed. Each call of the driver strobes
it once: before a time is read, so that all its bytes are those of one moment, and after a deadline is
written, so that no mixture of two deadlines is ever in force (`Timer.never_torn`).
-/
namespace TrapMonitor

/-- The sides of a latched timer that its words show in part. -/
class LatchView (D : Type) where
  counter : D → DoubleWord
  /-- The deadline in force. -/
  inForce : D → DoubleWord
  word : D → Nat → Word

open LatchView

/-- What the words of a latched timer mean. When the latch is strobed, the time words become the
counter, and the deadline in force becomes what the compare words hold; nothing else passes between
the timer and its words. How the counter runs is left open. -/
class LawfulLatch (D : Type) [Bus D] [LatchView D] : Prop where
  read_time : ∀ (i : Nat) (d : D), Timer.time.Covers i → (Bus.read i d).1 = word d i
  word_read : ∀ (i j : Nat) (d : D), Timer.time.Covers j → word (Bus.read i d).2 j = word d j
  inForce_read : ∀ (i : Nat) (d : D), inForce (Bus.read i d).2 = inForce d
  keeps : KeepsWords (word (D := D)) Timer.timeCompare.Covers
  inForce_write : ∀ (i : Nat) (v : Word) (d : D), i ≠ Timer.latch.first →
    inForce (Bus.write i v d).2 = inForce d
  strobe_time : ∀ (v : Word) (d : D), v.getLsbD 0 = true →
    Timer.time.spelled (word (Bus.write Timer.latch.first v d).2) =
      counter (Bus.write Timer.latch.first v d).2
  strobe_inForce : ∀ (v : Word) (d : D), v.getLsbD 0 = true →
    inForce (Bus.write Timer.latch.first v d).2 = Timer.timeCompare.spelled (word d)

namespace Timer

/-! ## Calls of the driver -/

inductive Call where
  | readTime
  | readLow
  | readHigh
  | writeCompare (deadline : DoubleWord)

namespace Call

/-- What a call returns. -/
def Answer : Call → Type
  | readTime => DoubleWord
  | readLow => Word
  | readHigh => Word
  | writeCompare _ => Unit

def run {D : Type} [Bus D] : (c : Call) → StateM D c.Answer
  | readTime => Timer.readTime
  | readLow => Timer.readLow
  | readHigh => Timer.readHigh
  | writeCompare deadline => Timer.writeCompare deadline

/-- The answer is the one for this value of the counter. -/
def Shows (t : DoubleWord) : (c : Call) → c.Answer → Prop
  | readTime, answer => answer = t
  | readLow, answer => answer = t.low
  | readHigh, answer => answer = t.high
  | writeCompare _, _ => True

/-- The deadline in force once the latch is strobed. -/
def deadlineAfter (deadline : DoubleWord) : Call → DoubleWord
  | writeCompare new => new
  | _ => deadline

end Call

/-- The write that strobes the latch. -/
def strobe : BusAccess := .write latch.first 1

/-- A call that was made, with all that was seen of the device meanwhile. -/
structure Made (D : Type) where
  call : Call
  answer : call.Answer
  moments : List (Moment D)

/-- Makes calls one after the other. -/
def make {D : Type} [Bus D] : List Call → D → List (Made D)
  | [], _ => []
  | c :: calls, d =>
    let r := c.run (⟨d, []⟩ : Watched D)
    ⟨c, r.1, r.2.moments⟩ :: make calls r.2.device

/-- All moments of the calls, oldest first, each with the call it belongs to. -/
def history {D : Type} (made : List (Made D)) : List (Call × Moment D) :=
  made.flatMap fun c => c.moments.map (c.call, ·)

/-- The deadline that is put in force at a moment, if there is one. -/
def putInForce {D : Type} : Call × Moment D → Option DoubleWord
  | (.writeCompare deadline, m) => if m.access = strobe then some deadline else none
  | _ => none

/-- The deadline that was put in force last. -/
def lastDeadline {D : Type} (initial : DoubleWord) (h : List (Call × Moment D)) : DoubleWord :=
  (h.reverse.findSome? putInForce).getD initial

/-! ## One call -/

section OneCall

variable {D : Type} [Bus D] [LatchView D]

/-- A call, made on the device `d`, strobes the latch once, and the moments before the strobe and from
it on are as they should be. -/
structure Strobes (c : Call) (d : D) (answer : c.Answer) (moments : List (Moment D)) (d' : D) :
    Prop where
  once : ∃ before s after, moments = before ++ ⟨strobe, s⟩ :: after ∧
    (∀ m ∈ before, m.access ≠ strobe ∧ inForce m.device = inForce d) ∧
    (∀ m ∈ after, m.access ≠ strobe ∧ inForce m.device = c.deadlineAfter (inForce d)) ∧
    inForce s = c.deadlineAfter (inForce d) ∧ c.Shows (counter s) answer
  inForce : inForce d' = c.deadlineAfter (LatchView.inForce d)
  stored : timeCompare.spelled (word d') = c.deadlineAfter (LatchView.inForce d)

variable [LawfulLatch D] (d : D)

omit [LatchView D] [LawfulLatch D] in
theorem latch_watched (w : Watched D) : (latch.write 1 w).2 =
    ⟨(Bus.write latch.first 1 w.device).2,
      w.moments ++ [⟨strobe, (Bus.write latch.first 1 w.device).2⟩]⟩ := rfl

theorem not_covers_latch {i : Nat} (h : timeCompare.Covers i) : latch.first ≠ i := by
  have hfirst : 9 ≤ i := h.1
  change 0 ≠ i
  omega

theorem spelled_written (v : DoubleWord) :
    timeCompare.spelled (word (timeCompare.write v d).2) = v :=
  SplitRegister.spelled_eq_of_digits rfl fun _ hi => SplitRegister.word_writeFrom
    (LawfulLatch.keeps (D := D)) (fun _ hj hn => ⟨hj, hn⟩) hi v d

theorem spelled_strobe (v : Word) :
    timeCompare.spelled (word (Bus.write latch.first v d).2) = timeCompare.spelled (word d) :=
  SplitRegister.spelled_congr fun i hi =>
    (LawfulLatch.keeps (D := D)).write_of_ne _ i v d hi (not_covers_latch hi)

/-- The time that is read is the counter at the strobe, although the counter runs on meanwhile. -/
theorem strobes_readTime (h : timeCompare.spelled (word d) = inForce d) :
    let r := readTime (⟨d, []⟩ : Watched D)
    Strobes .readTime d r.1 r.2.moments r.2.device := by
  intro r
  let s := (Bus.write latch.first 1 d).2
  have hforce : inForce s = inForce d := (LawfulLatch.strobe_inForce 1 d (by decide)).trans h
  have hstored : timeCompare.spelled (word s) = inForce d := (spelled_strobe d 1).trans h
  -- while the time words are read, the deadline stays, in force and in the words
  obtain ⟨moments, hrun, ⟨hlast, hlaststored⟩, hmoments⟩ := time.read_watched
    (fun e => inForce e = inForce d ∧ timeCompare.spelled (word e) = inForce d)
    (fun i e he => ⟨(LawfulLatch.inForce_read i e).trans he.1, (SplitRegister.spelled_congr fun j hj =>
      (LawfulLatch.keeps (D := D)).read i j e hj).trans he.2⟩)
    ⟨s, [⟨strobe, s⟩]⟩ ⟨hforce, hstored⟩
  have hr : r = time.read (⟨s, [⟨strobe, s⟩]⟩ : Watched D) := rfl
  rw [hr, hrun]
  refine ⟨⟨[], s, moments, rfl, nofun, fun m hm => ?_, hforce, ?_⟩, hlast, hlaststored⟩
  · obtain ⟨⟨hkept, -⟩, i, hread⟩ := hmoments m hm
    exact ⟨by rw [hread]; exact nofun, hkept⟩
  · have hread := SplitRegister.fst_read time LawfulLatch.read_time LawfulLatch.word_read s
    exact hread.trans (LawfulLatch.strobe_time 1 d (by decide))

/-- Until the strobe the old deadline is in force, and from then on the new one. -/
theorem strobes_writeCompare (v : DoubleWord) :
    let r := writeCompare v (⟨d, []⟩ : Watched D)
    Strobes (.writeCompare v) d r.1 r.2.moments r.2.device := by
  intro r
  obtain ⟨moments, hrun, -, hmoments⟩ := timeCompare.write_watched
    (fun e => inForce e = inForce d) v
    (fun i x e hi he => (LawfulLatch.inForce_write i x e (not_covers_latch hi).symm).trans he)
    ⟨d, []⟩ rfl
  let e := (timeCompare.write v d).2
  let s := (Bus.write latch.first 1 e).2
  have hr : r = latch.write 1 (timeCompare.write v (⟨d, []⟩ : Watched D)).2 := rfl
  have hforce : inForce s = v :=
    (LawfulLatch.strobe_inForce 1 e (by decide)).trans (spelled_written d v)
  have hafter : r.2 = ⟨s, moments ++ [⟨strobe, s⟩]⟩ := by
    rw [hr, latch_watched, hrun, List.nil_append]
  rw [hafter]
  refine ⟨⟨moments, s, [], rfl, fun m hm => ?_, nofun, hforce, trivial⟩, hforce, ?_⟩
  · obtain ⟨hkept, i, x, hi, hwrite⟩ := hmoments m hm
    refine ⟨fun heq => not_covers_latch hi ?_, hkept⟩
    rw [hwrite] at heq
    exact (BusAccess.write.inj heq).1.symm
  · exact (spelled_strobe e 1).trans (spelled_written d v)

theorem strobes_run (c : Call) (h : timeCompare.spelled (word d) = inForce d) :
    let r := c.run (⟨d, []⟩ : Watched D)
    Strobes c d r.1 r.2.moments r.2.device := by
  cases c with
  | readTime => exact strobes_readTime d h
  | readLow =>
    obtain ⟨⟨before, s, after, hmoments, hbefore, hafter, hs, hshows⟩, hforce, hstored⟩ :=
      strobes_readTime d h
    exact ⟨⟨before, s, after, hmoments, hbefore, hafter, hs, congrArg DoubleWord.low hshows⟩,
      hforce, hstored⟩
  | readHigh =>
    obtain ⟨⟨before, s, after, hmoments, hbefore, hafter, hs, hshows⟩, hforce, hstored⟩ :=
      strobes_readTime d h
    exact ⟨⟨before, s, after, hmoments, hbefore, hafter, hs, congrArg DoubleWord.high hshows⟩,
      hforce, hstored⟩
  | writeCompare v => exact strobes_writeCompare d v

end OneCall

/-! ## Any number of calls -/

section Histories

variable {D : Type} {deadline : DoubleWord} {h h' : List (Call × Moment D)}

theorem lastDeadline_append :
    lastDeadline deadline (h ++ h') = lastDeadline (lastDeadline deadline h) h' := by
  rw [lastDeadline, List.reverse_append, List.findSome?_append, lastDeadline, lastDeadline]
  cases h'.reverse.findSome? putInForce <;> rfl

theorem lastDeadline_of_none (hnone : ∀ e ∈ h, putInForce e = none) :
    lastDeadline deadline h = deadline := by
  have hlast : h.reverse.findSome? putInForce = none :=
    List.findSome?_eq_none_iff.mpr fun e he => hnone e (List.mem_reverse.mp he)
  rw [lastDeadline, hlast, Option.getD_none]

theorem lastDeadline_strobe (c : Call) (d : D) :
    lastDeadline deadline [(c, ⟨strobe, d⟩)] = c.deadlineAfter deadline := by
  cases c <;> rfl

theorem putInForce_eq_none (c : Call) {m : Moment D} (hm : m.access ≠ strobe) :
    putInForce (c, m) = none := by
  cases c with
  | writeCompare v => exact if_neg hm
  | _ => rfl

variable [LatchView D]

/-- At each moment the deadline in force is the one that was put in force last. -/
def Untorn (deadline : DoubleWord) (h : List (Call × Moment D)) : Prop :=
  ∀ before e after, h = before ++ e :: after →
    inForce e.2.device = lastDeadline deadline (before ++ [e])

theorem Untorn.append (first : Untorn deadline h) (second : Untorn (lastDeadline deadline h) h') :
    Untorn deadline (h ++ h') := by
  intro before e after heq
  rcases List.append_eq_append_iff.mp heq with ⟨rest, rfl, hrest⟩ | ⟨rest, hh, hrest⟩
  · rw [second rest e after hrest, ← lastDeadline_append, List.append_assoc]
  · cases rest with
    | nil =>
      rw [List.append_nil] at hh
      subst hh
      exact (second [] e after hrest.symm).trans lastDeadline_append.symm
    | cons f rest =>
      obtain ⟨rfl, -⟩ := List.cons.inj hrest
      exact first before e rest hh

theorem untorn_of_none (hnone : ∀ e ∈ h, putInForce e = none ∧ inForce e.2.device = deadline) :
    Untorn deadline h := by
  intro before e after heq
  have hmem : ∀ f ∈ before ++ [e], f ∈ h := fun f hf => by
    rw [heq, ← List.singleton_append, ← List.append_assoc]
    exact List.mem_append_left _ hf
  rw [lastDeadline_of_none fun f hf => (hnone f (hmem f hf)).1]
  exact (hnone e (hmem e (by simp))).2

theorem untorn_singleton {e : Call × Moment D} (h : inForce e.2.device = lastDeadline deadline [e]) :
    Untorn deadline [e] := by
  intro before f after heq
  cases before with
  | nil =>
    obtain ⟨rfl, -⟩ := List.cons.inj heq
    exact h
  | cons g before => exact absurd (congrArg List.length heq) (by simp)

/-- The moments of one call. -/
theorem Strobes.untorn [Bus D] {c : Call} {d d' : D} {answer : c.Answer} {moments : List (Moment D)}
    (hc : Strobes c d answer moments d') :
    Untorn (LatchView.inForce d) (moments.map (c, ·)) ∧
      lastDeadline (LatchView.inForce d) (moments.map (c, ·)) = LatchView.inForce d' := by
  obtain ⟨before, s, after, rfl, hbefore, hafter, hs, -⟩ := hc.once
  have hquiet {deadline : DoubleWord} {ms : List (Moment D)}
      (hms : ∀ m ∈ ms, m.access ≠ strobe ∧ LatchView.inForce m.device = deadline) :
      ∀ e ∈ ms.map (c, ·), putInForce e = none ∧ LatchView.inForce e.2.device = deadline := by
    intro e he
    obtain ⟨m, hm, rfl⟩ := List.mem_map.mp he
    exact ⟨putInForce_eq_none c (hms m hm).1, (hms m hm).2⟩
  have hfirst : lastDeadline (LatchView.inForce d) (before.map (c, ·)) = LatchView.inForce d :=
    lastDeadline_of_none fun e he => (hquiet hbefore e he).1
  have hstrobe : lastDeadline (LatchView.inForce d) [(c, ⟨strobe, s⟩)] =
      c.deadlineAfter (LatchView.inForce d) := lastDeadline_strobe c s
  rw [List.map_append, List.map_cons, ← List.singleton_append]
  constructor
  · refine (untorn_of_none (hquiet hbefore)).append (.append (untorn_singleton ?_) ?_)
    · rw [hfirst, hstrobe]
      exact hs
    · rw [hfirst, hstrobe]
      exact untorn_of_none (hquiet hafter)
  · rw [lastDeadline_append, lastDeadline_append, hfirst, hstrobe,
      lastDeadline_of_none fun e he => (hquiet hafter e he).1, hc.inForce]

variable [Bus D] [LawfulLatch D]

theorem untorn_make (calls : List Call) (d : D) (hd : timeCompare.spelled (word d) = inForce d) :
    Untorn (inForce d) (history (make calls d)) := by
  induction calls generalizing d with
  | nil => exact fun before e after heq => absurd heq (by simp [make, history])
  | cons c calls ih =>
    have hc := strobes_run d c hd
    obtain ⟨huntorn, hlast⟩ := hc.untorn
    have hrest := ih _ (hc.stored.trans hc.inForce.symm)
    rw [← hlast] at hrest
    exact huntorn.append hrest

theorem shows_make (calls : List Call) (d : D) (hd : timeCompare.spelled (word d) = inForce d) :
    ∀ m ∈ make calls d, ∃ before s after, m.moments = before ++ ⟨strobe, s⟩ :: after ∧
      (∀ x ∈ before ++ after, x.access ≠ strobe) ∧ m.call.Shows (counter s) m.answer := by
  induction calls generalizing d with
  | nil => exact nofun
  | cons c calls ih =>
    have hc := strobes_run d c hd
    intro m hm
    rcases List.mem_cons.mp hm with rfl | hm
    · obtain ⟨before, s, after, hmoments, hbefore, hafter, -, hshows⟩ := hc.once
      refine ⟨before, s, after, hmoments, fun x hx => ?_, hshows⟩
      exact (List.mem_append.mp hx).elim (fun hx => (hbefore x hx).1) fun hx => (hafter x hx).1
    · exact ih _ (hc.stored.trans hc.inForce.symm) m hm

/-- However the counter runs: each call strobes the latch once, and a time that is read is the counter
at that strobe, or its half. And at each moment of any sequence of calls, in the middle of one as well,
the deadline in force is that of the last write whose latch was strobed, or the initial one. -/
theorem never_torn (calls : List Call) (d : D) (hd : timeCompare.spelled (word d) = inForce d) :
    (∀ m ∈ make calls d, ∃ before s after, m.moments = before ++ ⟨strobe, s⟩ :: after ∧
      (∀ x ∈ before ++ after, x.access ≠ strobe) ∧ m.call.Shows (counter s) m.answer) ∧
    ∀ before e after, history (make calls d) = before ++ e :: after →
      inForce e.2.device = lastDeadline (inForce d) (before ++ [e]) :=
  ⟨shows_make calls d hd, untorn_make calls d hd⟩

end Histories

end Timer

/-! ## A timer that runs -/

/-- A timer whose counter runs on before each access by the next of some amounts. -/
structure RunningTimer where
  counter : DoubleWord
  inForce : DoubleWord
  word : Nat → Word
  amounts : List DoubleWord

namespace RunningTimer

def tick (t : RunningTimer) : RunningTimer :=
  { t with counter := t.counter + t.amounts.headD 0, amounts := t.amounts.tail }

/-- The counter passes into the time words, and the deadline out of its words into force. -/
def strobed (t : RunningTimer) : RunningTimer :=
  { t with
    word := fun i =>
      if Timer.time.first ≤ i ∧ i < Timer.time.first + Timer.time.count then
        SplitRegister.byteWord t.counter (Timer.time.first + Timer.time.count - 1 - i)
      else t.word i
    inForce := Timer.timeCompare.spelled t.word }

def writeWord (t : RunningTimer) (i : Nat) (v : Word) : RunningTimer :=
  if i = Timer.latch.first then (if v.getLsbD 0 then t.strobed else t)
  else { t with word := Function.update t.word i v }

instance : Bus RunningTimer where
  read i := fun t => (t.word i, t.tick)
  write i v := fun t => ((), t.tick.writeWord i v)
  patience _ := 0

instance : LatchView RunningTimer where
  counter t := t.counter
  inForce t := t.inForce
  word t := t.word

theorem writeWord_strobe {v : Word} (t : RunningTimer) (h : v.getLsbD 0 = true) :
    t.writeWord Timer.latch.first v = t.strobed := by
  rw [writeWord, if_pos rfl, if_pos h]

theorem writeWord_of_ne {i : Nat} (v : Word) (t : RunningTimer) (h : i ≠ Timer.latch.first) :
    t.writeWord i v = { t with word := Function.update t.word i v } := if_neg h

theorem word_strobed_of_covers {j : Nat} (t : RunningTimer) (h : Timer.timeCompare.Covers j) :
    t.strobed.word j = t.word j := by
  have hfirst : 9 ≤ j := h.1
  refine if_neg fun htime => ?_
  have hlast : j < 9 := htime.2
  omega

instance : LawfulLatch RunningTimer where
  read_time _ _ _ := rfl
  word_read _ _ _ _ := rfl
  inForce_read _ _ := rfl
  keeps := {
    read := fun _ _ _ _ => rfl
    write_self := fun j v t hj => by
      have hwrite := writeWord_of_ne v t.tick (Timer.not_covers_latch hj).symm
      exact (congrArg (fun t => t.word j) hwrite).trans (Function.update_self j v t.tick.word)
    write_of_ne := fun i j v t hj hi => by
      change (t.tick.writeWord i v).word j = t.tick.word j
      by_cases hlatch : i = Timer.latch.first
      · rw [writeWord, if_pos hlatch]
        split
        · exact word_strobed_of_covers t.tick hj
        · rfl
      · rw [writeWord_of_ne v t.tick hlatch]
        exact Function.update_of_ne hi.symm v t.tick.word }
  inForce_write i v t hi := by
    change (t.tick.writeWord i v).inForce = t.tick.inForce
    rw [writeWord_of_ne v t.tick hi]
  strobe_time v t hv := by
    change Timer.time.spelled (t.tick.writeWord Timer.latch.first v).word =
      (t.tick.writeWord Timer.latch.first v).counter
    rw [writeWord_strobe t.tick hv]
    refine SplitRegister.spelled_eq_of_digits rfl fun i hi => ?_
    have hplace : Timer.time.first + Timer.time.count - 1 - (Timer.time.first + i) =
        Timer.time.count - 1 - i := by omega
    have hcovers : Timer.time.first ≤ Timer.time.first + i ∧
        Timer.time.first + i < Timer.time.first + Timer.time.count := by omega
    exact (if_pos hcovers).trans (by rw [hplace]; rfl)
  strobe_inForce v t hv := congrArg RunningTimer.inForce (writeWord_strobe t.tick hv)

end RunningTimer

namespace Timer

/-- A timer whose counter carries into its upper half while it is read. -/
def carrying : RunningTimer where
  counter := 0xfffffffe
  inForce := 0xff
  word i := if i = 16 then 0xff else 0
  amounts := List.replicate 27 1

/-- The time that is read is the one before the carry; and when all bytes of the new deadline but the
strobe are written, the old one is in force. -/
theorem never_torn_carrying :
    let made := make [.readTime, .writeCompare 0x100000000, .readHigh] carrying
    (∃ m ∈ made, ∃ s, ⟨strobe, s⟩ ∈ m.moments ∧ counter s = 0xffffffff ∧
      m.call.Shows 0xffffffff m.answer) ∧
    ((history made)[16]?.map fun e => e.2.access) = some (.write 16 0) ∧
    ((history made)[16]?.map fun e => inForce e.2.device) = some 0xff := by
  intro made
  obtain ⟨hshows, huntorn⟩ := never_torn [.readTime, .writeCompare 0x100000000, .readHigh] carrying
    (by decide +kernel)
  refine ⟨?_, by decide +kernel, ?_⟩
  · obtain ⟨before, s, after, hmoments, -, hs⟩ := hshows _ (List.mem_cons_self ..)
    have hanswer : (readTime (⟨carrying, []⟩ : Watched RunningTimer)).1 = 0xffffffff := by
      decide +kernel
    have hcounter : counter s = 0xffffffff := hs.symm.trans hanswer
    exact ⟨_, List.mem_cons_self .., s, hmoments ▸ by simp, hcounter, hanswer⟩
  · have hlength : 16 < (history made).length := by decide +kernel
    have hsplit : history made =
        (history made).take 16 ++ (history made)[16] :: (history made).drop 17 := by
      rw [← List.drop_eq_getElem_cons, List.take_append_drop]
    have hlast : lastDeadline (inForce carrying) ((history made).take 17) = 0xff := by
      decide +kernel
    have hforce := huntorn _ _ _ hsplit
    rw [List.take_append_getElem, hlast] at hforce
    rw [List.getElem?_eq_getElem hlength, Option.map_some, hforce]

end Timer

end TrapMonitor
