import TrapMonitor.Proofs.Core.Reachable
import TrapMonitor.Proofs.Platform.Contract
import TrapMonitor.Proofs.Trap.Completion

/-! # The supervisor's timer

There is one timer, and it raises its interrupt in machine mode. The supervisor gets a timer of its
own out of that: setting a deadline enables the machine's interrupt and takes back the supervisor's,
and the machine's interrupt, when it comes, is turned off and passed on. How far this has got can be
read off the events since the last deadline was set, in every run and whatever other traps come in
between.
-/
namespace TrapMonitor

open Hart

/-! ## Events -/

/-- What a trap means to the timer. -/
inductive TimerEvent where
  | set (deadline : DoubleWord)
  | tick
  | other
  deriving DecidableEq

namespace TimerEvent

/-- The deadline that was set last, in a history with the latest event first. -/
def lastDeadline : List TimerEvent → Option DoubleWord
  | [] => none
  | set d :: _ => some d
  | tick :: before => lastDeadline before
  | other :: before => lastDeadline before

/-- Whether the interrupt was handled since the last deadline was set. -/
def ticked : List TimerEvent → Bool
  | [] => false
  | set _ :: _ => false
  | tick :: _ => true
  | other :: before => ticked before

/-- Whether a deadline was set and the interrupt was not handled since. -/
def armed (history : List TimerEvent) : Bool := (lastDeadline history).isSome && !ticked history

/-- Only a new deadline ends the time after a tick. -/
theorem exists_set_of_not_ticked {between before : List TimerEvent}
    (h : ticked (between ++ tick :: before) = false) : ∃ d, set d ∈ between := by
  induction between with
  | nil => cases h
  | cons e rest ih =>
    cases e with
    | set d => exact ⟨d, List.mem_cons_self ..⟩
    | tick => cases h
    | other =>
      obtain ⟨d, hd⟩ := ih h
      exact ⟨d, List.mem_cons_of_mem _ hd⟩

/-- The last event that counts is then the interrupt. -/
theorem exists_tick_of_ticked {history : List TimerEvent} (h : ticked history = true) :
    ∃ later before, history = later ++ tick :: before ∧
      lastDeadline history = lastDeadline before := by
  induction history with
  | nil => cases h
  | cons e rest ih =>
    cases e with
    | set d => cases h
    | tick => exact ⟨[], rest, rfl, rfl⟩
    | other =>
      obtain ⟨later, before, rfl, hlast⟩ := ih h
      exact ⟨other :: later, before, rfl, hlast⟩

/-- What holds in front of each tick of a longer history. -/
theorem forall_tick_cons {P : List TimerEvent → Prop} {e : TimerEvent} {history : List TimerEvent}
    (hold : ∀ later before, history = later ++ tick :: before → P before)
    (hnew : e = tick → P history) (later before : List TimerEvent)
    (hsplit : e :: history = later ++ tick :: before) : P before := by
  cases later with
  | nil =>
    cases hsplit
    exact hnew rfl
  | cons x later => exact hold later before (List.cons.inj hsplit).2

theorem armed_eq_true_iff {history : List TimerEvent} :
    armed history = true ↔ (∃ d, lastDeadline history = some d) ∧ ticked history = false := by
  rw [armed, Bool.and_eq_true, Bool.not_eq_true', Option.isSome_iff_exists]

end TimerEvent

/-- The registers that the timer is virtualized with. -/
structure TimerRegisters where
  enable : Word
  pending : Word
  deadline : DoubleWord

/-- What an event makes of the registers. -/
def TimerRegisters.after (t : TimerRegisters) : TimerEvent → TimerRegisters
  | .set d => ⟨t.enable ||| InterruptBits.machineTimer,
      t.pending &&& ~~~InterruptBits.supervisorTimer, d⟩
  | .tick => ⟨t.enable &&& ~~~InterruptBits.machineTimer,
      t.pending ||| InterruptBits.supervisorTimer, t.deadline⟩
  | .other => t

namespace Machine

variable {H P F : Type} [Hart H] [HartView H] [Platform P] [TimerView P] [FrameStore H F]
  {m m' m₀ n : Machine H P F} {o : Outcome} {history : List TimerEvent}

/-- What the trap of a machine means to the timer. -/
def timerEvent (m : Machine H P F) : TimerEvent :=
  if Cause.ofWord (readCsr .mcause m.hart) = .interrupt .machineTimer then .tick
  else if m.asked = some (.sbi .setTimer) then .set (.ofHalves (m.register .a0) (m.register .a1))
  else .other

omit [Platform P] [TimerView P] in
theorem timerEvent_eq_tick_iff :
    m.timerEvent = .tick ↔ Cause.ofWord (readCsr .mcause m.hart) = .interrupt .machineTimer := by
  unfold timerEvent
  split
  · next hc => simp [hc]
  · next hc =>
    split <;> simp [hc]

def timerRegisters (m : Machine H P F) : TimerRegisters :=
  ⟨readCsr .mie m.hart, readCsr .sip m.hart, TimerView.deadline m.platform⟩

/-- The timer raises its interrupt: it is enabled, and the deadline is reached. -/
def TimerFires (m : Machine H P F) : Prop :=
  Status.has (readCsr .mie m.hart) InterruptBits.machineTimer = true ∧
    TimerView.deadline m.platform ≤ TimerView.time m.platform

/-- What code below machine mode and the passing of time can make of `m`, up to the next trap: it
neither writes the interrupt enable nor the supervisor's timer interrupt. -/
structure GoesOn (m n : Machine H P F) : Prop where
  enable : readCsr .mie n.hart = readCsr .mie m.hart
  pending : Status.has (readCsr .sip n.hart) InterruptBits.supervisorTimer =
    Status.has (readCsr .sip m.hart) InterruptBits.supervisorTimer
  timer : DeadlineKept m.platform n.platform

/-- A machine that a trap was taken on. -/
structure TookTrap (m : Machine H P F) : Prop where
  ready : HartView.ready m.hart
  fires : Cause.ofWord (readCsr .mcause m.hart) = .interrupt .machineTimer → m.TimerFires

/-- The runs from `m₀`, with the history of their traps. -/
inductive TimerRun (m₀ : Machine H P F) : List TimerEvent → Machine H P F → Prop
  | start : TimerRun m₀ [] m₀
  | goesOn {history : List TimerEvent} {m n : Machine H P F} : TimerRun m₀ history m →
    GoesOn m n → TimerRun m₀ history n
  | trap {history : List TimerEvent} {m m' : Machine H P F} {o : Outcome} :
    TimerRun m₀ history m → TookTrap m → handleTrap m = (o, m') → (∀ u, o ≠ .halted u) →
    TimerRun m₀ (m.timerEvent :: history) m'

/-! ## One trap -/

section Step

variable [FaithfulHart H F] [LawfulTimer P]

omit [HartView H] [FaithfulHart H F] in
/-- Setting the timer replaces the deadline, and nothing else that uses the platform does. -/
theorem deadlineKept_platformAfter {op : Operation} (hop : op ≠ .sbi .setTimer)
    (hs : TimerView.sound m.platform) : DeadlineKept m.platform (m.platformAfter op) := by
  cases op with
  | counterRead half rd =>
    cases half with
    | low => exact LawfulTimer.readLow _ hs
    | high => exact LawfulTimer.readHigh _ hs
  | sbi c =>
    cases c with
    | setTimer => exact absurd rfl hop
    | consolePutchar => exact LawfulTimer.write _ _ hs
    | consoleGetchar => exact LawfulTimer.tryRead _ hs
  | _ => exact .refl hs

/-- How the registers and the time of the timer go on from a machine. -/
structure Advances (m : Machine H P F) (e : TimerEvent) (m' : Machine H P F) : Prop where
  registers : m'.timerRegisters = m.timerRegisters.after e
  sound : TimerView.sound m'.platform
  time : TimerView.time m.platform ≤ TimerView.time m'.platform

section Advances

omit [HartView H] [Platform P] [FrameStore H F] [FaithfulHart H F] [LawfulTimer P]

variable {e : TimerEvent} (ha : Advances m e m')

include ha

theorem Advances.enable : readCsr .mie m'.hart = (m.timerRegisters.after e).enable :=
  congrArg TimerRegisters.enable ha.registers

theorem Advances.pending : readCsr .sip m'.hart = (m.timerRegisters.after e).pending :=
  congrArg TimerRegisters.pending ha.registers

theorem Advances.deadline :
    TimerView.deadline m'.platform = (m.timerRegisters.after e).deadline :=
  congrArg TimerRegisters.deadline ha.registers

end Advances

omit [HartView H] [Platform P] [FrameStore H F] [FaithfulHart H F] [LawfulTimer P] in
theorem advances_other (hk : DeadlineKept m.platform m'.platform)
    (hmie : readCsr .mie m'.hart = readCsr .mie m.hart)
    (hsip : readCsr .sip m'.hart = readCsr .sip m.hart) : Advances m .other m' := by
  refine ⟨?_, hk.sound, hk.time⟩
  rw [timerRegisters, hmie, hsip, hk.deadline]
  rfl

omit [FaithfulHart H F] in
theorem Finishes.advances {op : Operation} (hp : Finishes m op m') (hop : m.asked = some op)
    (hs : TimerView.sound m.platform) : Advances m m.timerEvent m' := by
  obtain ⟨e, hc, -⟩ := exception_of_asked hop
  have hmie := hp.csr .mie (by decide)
  have hsip := hp.csr .sip (by decide)
  by_cases hset : op = .sbi .setTimer
  · subst hset
    have hevent : m.timerEvent = .set (.ofHalves (m.register .a0) (m.register .a1)) := by
      rw [timerEvent, hc, if_neg (by simp), if_pos hop]
    have hplatform : m'.platform =
        Platform.writeCompare (m.register .a0) (m.register .a1) m.platform := hp.platform
    obtain ⟨hsound, hdeadline, htime⟩ :=
      LawfulTimer.writeCompare (m.register .a0) (m.register .a1) m.platform hs
    rw [hevent]
    refine ⟨?_, hplatform ▸ hsound, hplatform ▸ htime⟩
    rw [timerRegisters, hmie, hsip, hplatform, hdeadline]
    rfl
  · have hevent : m.timerEvent = .other := by
      rw [timerEvent, hc, if_neg (by simp), hop, if_neg fun h => hset (Option.some.inj h)]
    rw [hevent]
    refine advances_other (hp.platform ▸ deadlineKept_platformAfter hset hs) ?_ ?_
    · rw [hmie, Operation.updated_of_ne hset]
    · rw [hsip, Operation.updated_of_ne hset]

omit [Platform P] [LawfulTimer P] in
/-- The interrupt changes one bit each in two registers, and puts the trap vector in place. -/
theorem advances_timerTick
    (hc : Cause.ofWord (readCsr .mcause m.hart) = .interrupt .machineTimer)
    (hs : TimerView.sound m.platform) : Advances m m.timerEvent (timerTick m) := by
  have hevent : m.timerEvent = .tick := if_pos hc
  rw [hevent]
  refine ⟨?_, hs, BitVec.le_refl _⟩
  rw [timerRegisters, m.readCsr_timerTick, m.readCsr_timerTick]
  rfl

omit [HartView H] [TimerView P] [FaithfulHart H F] [LawfulTimer P] in
/-- A call makes no access that could be refused. -/
theorem not_delegated_of_call {f : AccessFault}
    (hc : Cause.ofWord (readCsr .mcause m.hart) = .exception .supervisorCall) :
    handleTrap m ≠ (.delegated f, m') := by
  intro hres
  obtain ⟨e, h, he, hf, -⟩ := handleTrap_eq_delegated.mp hres
  cases hc.symm.trans he
  cases hf with
  | instruction hw => exact absurd hw pure_ne_error
  | operand hw hd hv =>
    cases TrapState.decoded_of_decode hd
    exact absurd hv pure_ne_error

omit [TimerView P] [LawfulTimer P] in
/-- The interrupt and the call that sets the timer always resume. -/
theorem timerEvent_of_ne_resumed (hr : HartView.ready m.hart) (hres : handleTrap m = (o, m'))
    (ho : o ≠ .resumed) : m.timerEvent = .other := by
  have htick : Cause.ofWord (readCsr .mcause m.hart) ≠ .interrupt .machineTimer := by
    intro hc
    have hresumed := handleTrap_eq_resumed.mpr (.inl ⟨hc, rfl⟩)
    cases hresumed.symm.trans hres
    exact ho rfl
  have hset : m.asked ≠ some (.sbi .setTimer) := by
    intro hop
    cases o with
    | resumed => exact ho rfl
    | halted u => exact ne_halted_of_asked hr hop hres u rfl
    | delegated f =>
      obtain ⟨e, hc, hd⟩ := decoded_of_asked hop
      cases hd
      exact not_delegated_of_call hc hres
  rw [timerEvent, if_neg htick, if_neg hset]

/-- Whatever the trap, its event says what it does to the timer. -/
theorem advances_of_handleTrap (hr : HartView.ready m.hart) (hs : TimerView.sound m.platform)
    (hres : handleTrap m = (o, m')) : Advances m m.timerEvent m' := by
  cases o with
  | resumed =>
    rcases finishes_of_resumed hr hres with ⟨hc, rfl⟩ | ⟨op, hop, hp⟩
    · exact advances_timerTick hc hs
    · exact hp.advances hop hs
  | delegated f =>
    rw [timerEvent_of_ne_resumed hr hres (by simp)]
    obtain ⟨e, h, -, hf, rfl⟩ := handleTrap_eq_delegated.mp hres
    obtain ⟨made, acc, -⟩ := hf.accessed hr
    have hk := TrapState.keepsBut_delegate (.capture m.hart) h
    exact advances_other (.refl hs)
      ((hk.csr .mie (by decide)).trans (acc.csr .mie (by decide)))
      ((hk.csr .sip (by decide)).trans (acc.csr .sip (by decide)))
  | halted u =>
    rw [timerEvent_of_ne_resumed hr hres (by simp)]
    rcases handleTrap_eq_halted.mp hres with ⟨i, -, -, -, rfl⟩ | ⟨e, h, -, hu, rfl⟩
    · exact advances_other (.refl hs) rfl rfl
    · obtain ⟨made, acc, -⟩ := hu.accessed hr
      exact advances_other (.refl hs) (acc.csr .mie (by decide)) (acc.csr .sip (by decide))

/-- The machine `m'` is `m` after its timer interrupt was handled. -/
structure Ticked (m m' : Machine H P F) : Prop where
  enable : readCsr .mie m'.hart = readCsr .mie m.hart &&& ~~~InterruptBits.machineTimer
  pending : readCsr .sip m'.hart = readCsr .sip m.hart ||| InterruptBits.supervisorTimer
  mtvec : readCsr .mtvec m'.hart = trapVector m.hart
  csr : ∀ c, c ∉ [Csr.sip, .mie, .mtvec] → readCsr c m'.hart = readCsr c m.hart
  register : m'.register = m.register
  frame : m'.frame = m.frame
  slot : ∀ r, FrameStore.slot m'.frame m'.hart r = FrameStore.slot m.frame m.hart r
  memory : HartView.memory m'.hart = HartView.memory m.hart
  accesses : made m.hart m'.hart = []
  platform : m'.platform = m.platform
  log : m'.log = m.log

omit [Platform P] [TimerView P] [LawfulTimer P] in
theorem ticked_timerTick (m : Machine H P F) : Ticked m (timerTick m) where
  enable := m.readCsr_timerTick .mie
  pending := m.readCsr_timerTick .sip
  mtvec := m.readCsr_timerTick .mtvec
  csr := m.keepsBut_timerTick.csr
  register := m.register_timerTick
  frame := rfl
  slot := m.slot_timerTick
  memory := m.memory_timerTick
  accesses := made_eq_nil m.keepsBut_timerTick.trace
  platform := rfl
  log := rfl

end Step

/-! ## Runs -/

section Runs

open TimerEvent

/-- What holds of a machine that came from `m₀` with this history. -/
structure Virtualizes (m₀ : Machine H P F) (history : List TimerEvent) (m : Machine H P F) :
    Prop where
  sound : TimerView.sound m.platform
  enable : readCsr .mie m.hart = if armed history then InterruptBits.machineTimer else 0
  pending : Status.has (readCsr .sip m.hart) InterruptBits.supervisorTimer = ticked history
  deadline : TimerView.deadline m.platform =
    (lastDeadline history).getD (TimerView.deadline m₀.platform)
  reached : ticked history = true → TimerView.deadline m.platform ≤ TimerView.time m.platform
  /-- The interrupt was only handled while a deadline waited for it. -/
  ticks : ∀ later before, history = later ++ tick :: before → armed before = true

theorem has_enable (b : Bool) :
    Status.has (if b then InterruptBits.machineTimer else 0) InterruptBits.machineTimer = b := by
  cases b <;> decide

variable (hv : Virtualizes m₀ history m)

include hv

omit [HartView H] [Platform P] [FrameStore H F] in
theorem Virtualizes.goesOn (hg : GoesOn m n) : Virtualizes m₀ history n where
  sound := hg.timer.sound
  enable := hg.enable.trans hv.enable
  pending := hg.pending.trans hv.pending
  deadline := hg.timer.deadline.trans hv.deadline
  reached hticked := by
    rw [hg.timer.deadline]
    exact BitVec.le_trans (hv.reached hticked) hg.timer.time
  ticks := hv.ticks

omit [HartView H] [Platform P] [FrameStore H F] in
theorem Virtualizes.enabled : Status.has (readCsr .mie m.hart) InterruptBits.machineTimer =
    armed history := by rw [hv.enable, has_enable]

section Step

omit [HartView H] [Platform P] [FrameStore H F]

/-- A new deadline enables the interrupt and takes back the supervisor's. -/
theorem Virtualizes.set {d : DoubleWord} (ha : Advances m (.set d) m') :
    Virtualizes m₀ (.set d :: history) m' where
  sound := ha.sound
  enable := by
    have henable : readCsr .mie m'.hart = readCsr .mie m.hart ||| InterruptBits.machineTimer :=
      ha.enable
    rw [henable, hv.enable]
    cases armed history <;> rfl
  pending := by
    have hpending : readCsr .sip m'.hart =
        readCsr .sip m.hart &&& ~~~InterruptBits.supervisorTimer := ha.pending
    rw [hpending]
    exact Status.has_and_not_self _ (by decide)
  deadline := ha.deadline
  reached h := by cases h
  ticks := forall_tick_cons hv.ticks nofun

/-- The interrupt comes while a deadline waits for it, and is turned off. -/
theorem Virtualizes.tick (hfires : m.TimerFires) (ha : Advances m .tick m') :
    Virtualizes m₀ (.tick :: history) m' where
  sound := ha.sound
  enable := by
    have henable : readCsr .mie m'.hart = readCsr .mie m.hart &&& ~~~InterruptBits.machineTimer :=
      ha.enable
    have hdone : armed (.tick :: history) = false := by simp [armed, ticked]
    rw [henable, hv.enable, hdone]
    cases armed history <;> rfl
  pending := by
    have hpending : readCsr .sip m'.hart = readCsr .sip m.hart ||| InterruptBits.supervisorTimer :=
      ha.pending
    rw [hpending]
    exact Status.has_or_self _ _
  deadline := ha.deadline.trans hv.deadline
  reached _ := by
    rw [ha.deadline]
    exact BitVec.le_trans hfires.2 ha.time
  ticks := forall_tick_cons hv.ticks fun _ => hv.enabled.symm.trans hfires.1

theorem Virtualizes.other (ha : Advances m .other m') : Virtualizes m₀ (.other :: history) m' where
  sound := ha.sound
  enable := ha.enable.trans hv.enable
  pending := by
    have hpending : readCsr .sip m'.hart = readCsr .sip m.hart := ha.pending
    rw [hpending]
    exact hv.pending
  deadline := ha.deadline.trans hv.deadline
  reached h := by
    rw [ha.deadline]
    exact BitVec.le_trans (hv.reached h) ha.time
  ticks := forall_tick_cons hv.ticks nofun

end Step

/-- A step of the run: one more trap. -/
theorem Virtualizes.trap [FaithfulHart H F] [LawfulTimer P] (ht : TookTrap m)
    (hres : handleTrap m = (o, m')) : Virtualizes m₀ (m.timerEvent :: history) m' := by
  have ha := advances_of_handleTrap ht.ready hv.sound hres
  cases he : m.timerEvent with
  | set d => exact hv.set (he ▸ ha)
  | tick => exact hv.tick (ht.fires (timerEvent_eq_tick_iff.mp he)) (he ▸ ha)
  | other => exact hv.other (he ▸ ha)

omit hv in
theorem TimerRun.virtualizes [FaithfulHart H F] [LawfulTimer P]
    (hs : TimerView.sound m₀.platform) (hmie : readCsr .mie m₀.hart = 0)
    (hsip : Status.has (readCsr .sip m₀.hart) InterruptBits.supervisorTimer = false)
    (h : TimerRun m₀ history m) : Virtualizes m₀ history m := by
  induction h with
  | start => exact ⟨hs, hmie, hsip, rfl, nofun, fun later _ h => by simp at h⟩
  | goesOn _ hg ih => exact ih.goesOn hg
  | trap _ ht hres _ ih => exact ih.trap ht hres

end Runs

/-- What the supervisor can rely on, in a machine that came from `m₀` with this history. -/
structure TimerContract (m₀ : Machine H P F) (history : List TimerEvent) (m : Machine H P F) :
    Prop where
  exclusive : ¬ (Status.has (readCsr .mie m.hart) InterruptBits.machineTimer = true ∧
    Status.has (readCsr .sip m.hart) InterruptBits.supervisorTimer = true)
  pending : Status.has (readCsr .sip m.hart) InterruptBits.supervisorTimer = true ↔
    TimerEvent.ticked history = true
  enabled : Status.has (readCsr .mie m.hart) InterruptBits.machineTimer = true ↔
    (∃ d, TimerEvent.lastDeadline history = some d) ∧ TimerEvent.ticked history = false
  deadline : TimerView.deadline m.platform =
    (TimerEvent.lastDeadline history).getD (TimerView.deadline m₀.platform)
  /-- No storm: between two ticks a deadline was set. -/
  alternates : ∀ later between before,
    history = later ++ .tick :: (between ++ .tick :: before) → ∃ d, .set d ∈ between
  /-- The supervisor's interrupt comes no sooner than the deadline. -/
  inTime : Status.has (readCsr .sip m.hart) InterruptBits.supervisorTimer = true →
    ∃ d, TimerEvent.lastDeadline history = some d ∧ d ≤ TimerView.time m.platform
  /-- No tick is lost: once the deadline is reached, the supervisor has its interrupt, or the
  machine's interrupt is raised. -/
  notLost : ∀ d, TimerEvent.lastDeadline history = some d → d ≤ TimerView.time m.platform →
    Status.has (readCsr .sip m.hart) InterruptBits.supervisorTimer = true ∨ m.TimerFires

omit [HartView H] [Platform P] [FrameStore H F] in
theorem Virtualizes.contract (hv : Virtualizes m₀ history m) : TimerContract m₀ history m := by
  have henabled := hv.enabled
  have hset : TimerEvent.ticked history = true →
      ∃ d, TimerEvent.lastDeadline history = some d := by
    intro h
    obtain ⟨later, before, hsplit, hlast⟩ := TimerEvent.exists_tick_of_ticked h
    rw [hlast]
    exact (TimerEvent.armed_eq_true_iff.mp (hv.ticks later before hsplit)).1
  have hdeadline (d : DoubleWord) (hd : TimerEvent.lastDeadline history = some d) :
      TimerView.deadline m.platform = d := by rw [hv.deadline, hd, Option.getD_some]
  exact {
    exclusive := by
      rw [henabled, hv.pending, TimerEvent.armed_eq_true_iff]
      rintro ⟨⟨-, hno⟩, hyes⟩
      cases hno.symm.trans hyes
    pending := by rw [hv.pending]
    enabled := by rw [henabled, TimerEvent.armed_eq_true_iff]
    deadline := hv.deadline
    alternates := fun later between before hsplit => by
      have harmed := hv.ticks later (between ++ .tick :: before) hsplit
      exact TimerEvent.exists_set_of_not_ticked (TimerEvent.armed_eq_true_iff.mp harmed).2
    inTime := fun h => by
      rw [hv.pending] at h
      obtain ⟨d, hd⟩ := hset h
      exact ⟨d, hd, hdeadline d hd ▸ hv.reached h⟩
    notLost := fun d hd hreached => by
      rw [hv.pending]
      cases hticked : TimerEvent.ticked history with
      | true => exact .inl rfl
      | false =>
        refine .inr ⟨?_, hdeadline d hd ▸ hreached⟩
        rw [henabled, TimerEvent.armed_eq_true_iff]
        exact ⟨⟨d, hd⟩, hticked⟩ }

/-- The machine's timer is virtualized. In every run that starts with the interrupt disabled and
nothing pending, whatever traps come in whatever order, the supervisor can rely on `TimerContract`.
The next trap does to the timer what its event says, and nothing else; if it is the timer interrupt,
it is passed on to the supervisor, and everything else is left as it was. -/
theorem timerRun_contract [FaithfulHart H F] [LawfulTimer P] (hs : TimerView.sound m₀.platform)
    (hmie : readCsr .mie m₀.hart = 0)
    (hsip : Status.has (readCsr .sip m₀.hart) InterruptBits.supervisorTimer = false)
    (h : TimerRun m₀ history m) :
    TimerContract m₀ history m ∧
      ∀ o m', TookTrap m → handleTrap m = (o, m') →
        m'.timerRegisters = m.timerRegisters.after m.timerEvent ∧
          (Cause.ofWord (readCsr .mcause m.hart) = .interrupt .machineTimer →
            o = .resumed ∧ Ticked m m') := by
  have hv := h.virtualizes hs hmie hsip
  refine ⟨hv.contract, fun o m' ht hres => ⟨?_, fun hc => ?_⟩⟩
  · exact (advances_of_handleTrap ht.ready hv.sound hres).registers
  · have hresumed := handleTrap_eq_resumed.mpr (.inl ⟨hc, rfl⟩)
    cases hresumed.symm.trans hres
    exact ⟨rfl, ticked_timerTick m⟩

/-- From booting on, the supervisor sets a deadline, time passes, and the interrupt comes. -/
theorem timerRun_contract_booted :
    let core := (Board.blank 0).core.booted
      (.mk Core.trapEntry 0x2000ff80 0x880 0 BootPlan.imageBase 0xb100 0x222 0) 0
    let m₀ : Machine Core (SocPlatform Block Block Block) Core.FrameAddress :=
      ⟨core, ⟨.ofList 6 [], .ofList 17 [], .ofList 1 [], false⟩, ⟨0x2000ff80⟩, []⟩
    let trapped (cause : Word) (m : Machine Core (SocPlatform Block Block Block) Core.FrameAddress) :=
      (m.hart.setCsr .mcause cause).setCsr .mstatus Status.mppSupervisor
    let m₁ := { m₀ with
      hart := (trapped 9 m₀).setRam (m₀.hart.ram.setWord (m₀.frame.slotAt .a0) 5) }
    let m₂ := (handleTrap m₁).2
    let m₃ := { m₂ with
      hart := trapped 0x80000007 m₂
      platform := { m₂.platform with timer := m₂.platform.timer.set 8 6 } }
    TimerContract m₀ [.tick, .set 5] (handleTrap m₃).2 := by
  intro core m₀ trapped m₁ m₂ m₃
  have hset : TimerRun m₀ [] m₁ := .goesOn .start ⟨rfl, rfl, rfl, rfl, by decide +kernel⟩
  have hcall : m₁.timerEvent = .set 5 := by decide +kernel
  have h₂ : TimerRun m₀ [.set 5] m₂ := by
    have ht : TookTrap m₁ :=
      ⟨⟨by decide +kernel, by decide +kernel⟩, fun h => absurd h (by decide +kernel)⟩
    have hres : (handleTrap m₁).1 = .resumed := by decide +kernel
    rw [← hcall]
    exact .trap hset ht (Prod.ext hres rfl) (by simp)
  have hwait : TimerRun m₀ [.set 5] m₃ := by
    have hsound : m₃.platform.timer.words.length = Timer.size := by decide +kernel
    exact .goesOn h₂ ⟨by decide +kernel, by decide +kernel,
      ⟨hsound, by decide +kernel, by decide +kernel⟩⟩
  have htick : m₃.timerEvent = .tick := by decide +kernel
  have h₄ : TimerRun m₀ [.tick, .set 5] (handleTrap m₃).2 := by
    have ht : TookTrap m₃ :=
      ⟨⟨by decide +kernel, by decide +kernel⟩, fun _ => ⟨by decide +kernel, by decide +kernel⟩⟩
    have hres : (handleTrap m₃).1 = .resumed := by decide +kernel
    rw [← htick]
    exact .trap hwait ht (Prod.ext hres rfl) (by simp)
  exact (timerRun_contract rfl (by decide +kernel) (by decide +kernel) h₄).1

end Machine

end TrapMonitor
