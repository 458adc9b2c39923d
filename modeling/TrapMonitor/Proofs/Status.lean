import TrapMonitor.Status

/-! # Bits of the status word

Each change of the status word is given bit by bit, and from that for what decides how the machine
goes on: the privilege of accesses, the interrupt enables, and the mode that a return goes to.
-/
namespace TrapMonitor.Status

/-! ## Flags -/

/-- A flag of a single bit is that bit. -/
theorem has_twoPow (m : Word) (k : Nat) (hk : k < 32) :
    has m (BitVec.twoPow 32 k) = m.getLsbD k := by
  have hne : BitVec.twoPow 32 k ≠ 0 := by
    intro h
    have hb := congrArg (BitVec.getLsbD · k) h
    simp [hk] at hb
  rw [has, BitVec.and_twoPow]
  cases m.getLsbD k with
  | true => simp
  | false => simpa using Ne.symm hne

theorem has_mie (m : Word) : has m mie = m.getLsbD 3 := has_twoPow m 3 (by decide)

theorem has_mpie (m : Word) : has m mpie = m.getLsbD 7 := has_twoPow m 7 (by decide)

theorem has_mprv (m : Word) : has m mprv = m.getLsbD 17 := has_twoPow m 17 (by decide)

theorem has_sie (m : Word) : has m sie = m.getLsbD 1 := has_twoPow m 1 (by decide)

theorem has_spie (m : Word) : has m spie = m.getLsbD 5 := has_twoPow m 5 (by decide)

theorem has_spp (m : Word) : has m spp = m.getLsbD 8 := has_twoPow m 8 (by decide)

theorem has_mppSupervisor (m : Word) : has m mppSupervisor = m.getLsbD 11 :=
  has_twoPow m 11 (by decide)

theorem getLsbD_flag (k i : Nat) (hk : k < 32) :
    (BitVec.twoPow 32 k).getLsbD i = decide (i = k) := by
  simp [BitVec.getLsbD_twoPow, hk, eq_comm]

theorem getLsbD_mprv (i : Nat) : mprv.getLsbD i = decide (i = 17) :=
  getLsbD_flag 17 i (by decide)

theorem getLsbD_sie (i : Nat) : sie.getLsbD i = decide (i = 1) :=
  getLsbD_flag 1 i (by decide)

theorem getLsbD_mie (i : Nat) : mie.getLsbD i = decide (i = 3) :=
  getLsbD_flag 3 i (by decide)

theorem getLsbD_spie (i : Nat) : spie.getLsbD i = decide (i = 5) :=
  getLsbD_flag 5 i (by decide)

theorem getLsbD_mpie (i : Nat) : mpie.getLsbD i = decide (i = 7) :=
  getLsbD_flag 7 i (by decide)

theorem getLsbD_spp (i : Nat) : spp.getLsbD i = decide (i = 8) :=
  getLsbD_flag 8 i (by decide)

theorem getLsbD_mppSupervisor (i : Nat) : mppSupervisor.getLsbD i = decide (i = 11) :=
  getLsbD_flag 11 i (by decide)

theorem getLsbD_mpp (i : Nat) : mpp.getLsbD i = (decide (i = 11) || decide (i = 12)) := by
  have hbits : mpp = mppSupervisor ||| BitVec.twoPow 32 12 := by decide
  rw [hbits, BitVec.getLsbD_or, getLsbD_mppSupervisor, getLsbD_flag 12 i (by decide)]

theorem getLsbD_ite (b : Bool) (flag : Word) (i : Nat) :
    (if b then flag else 0).getLsbD i = (b && flag.getLsbD i) := by
  cases b <;> simp

/-- The two bits of the previous mode decide it. -/
theorem previousMode_eq_iff {m : Word} {mode : Mode} :
    previousMode m = mode ↔ m.getLsbD 11 = mode.getLsbD 0 ∧ m.getLsbD 12 = mode.getLsbD 1 := by
  constructor
  · rintro rfl
    simp [previousMode]
  · rintro ⟨h₀, h₁⟩
    apply BitVec.eq_of_getLsbD_eq
    intro i hi
    have hi' : i = 0 ∨ i = 1 := by omega
    rcases hi' with rfl | rfl
    · simpa [previousMode] using h₀
    · simpa [previousMode] using h₁

/-! ## Entering machine mode -/

theorem getLsbD_enterMachine (mode : Mode) (m : Word) {i : Nat} (hi : i < 32) :
    (enterMachine mode m).getLsbD i =
      if i = 3 then false
      else if i = 7 then m.getLsbD 3
      else if i = 11 then mode.getLsbD 0
      else if i = 12 then mode.getLsbD 1
      else m.getLsbD i := by
  simp only [enterMachine, BitVec.getLsbD_or, BitVec.getLsbD_and, BitVec.getLsbD_not,
    BitVec.getLsbD_shiftLeft, BitVec.getLsbD_setWidth, getLsbD_ite, has_mie, getLsbD_mie,
    getLsbD_mpie, getLsbD_mpp]
  by_cases h3 : i = 3
  · simp [h3]
  by_cases h7 : i = 7
  · simp [h7]
  by_cases h11 : i = 11
  · simp [h11]
  by_cases h12 : i = 12
  · simp [h12]
  -- the mode has no other bits
  by_cases hlow : i < 11
  · simp [h3, h7, h11, h12, hi, hlow]
  · have hmode : mode.getLsbD (i - 11) = false := BitVec.getLsbD_of_ge mode _ (by omega)
    simp [h3, h7, h11, h12, hi, hmode]

@[simp] theorem has_mprv_enterMachine (mode : Mode) (m : Word) :
    has (enterMachine mode m) mprv = has m mprv := by
  rw [has_mprv, getLsbD_enterMachine _ _ (by decide), has_mprv]
  rfl

/-- The interrupt enable is put aside. -/
@[simp] theorem has_mpie_enterMachine (mode : Mode) (m : Word) :
    has (enterMachine mode m) mpie = has m mie := by
  rw [has_mpie, getLsbD_enterMachine _ _ (by decide), has_mie]
  rfl

@[simp] theorem previousMode_enterMachine (mode : Mode) (m : Word) :
    previousMode (enterMachine mode m) = mode := by
  rw [previousMode_eq_iff, getLsbD_enterMachine _ _ (by decide),
    getLsbD_enterMachine _ _ (by decide)]
  exact ⟨rfl, rfl⟩

/-! ## Leaving machine mode -/

theorem getLsbD_leaveMachine (m : Word) {i : Nat} (hi : i < 32) :
    (leaveMachine m).getLsbD i =
      if i = 3 then m.getLsbD 7
      else if i = 7 then true
      else if i = 11 ∨ i = 12 then false
      else m.getLsbD i := by
  simp only [leaveMachine, BitVec.getLsbD_or, BitVec.getLsbD_and, BitVec.getLsbD_not,
    getLsbD_ite, has_mpie, getLsbD_mie, getLsbD_mpie, getLsbD_mpp]
  by_cases h3 : i = 3
  · simp [h3]
  by_cases h7 : i = 7
  · simp [h7]
  by_cases hmpp : i = 11 ∨ i = 12
  · rcases hmpp with rfl | rfl <;> simp
  simp [not_or.mp hmpp, h3, h7, hi]

@[simp] theorem has_mprv_leaveMachine (m : Word) : has (leaveMachine m) mprv = has m mprv := by
  rw [has_mprv, getLsbD_leaveMachine _ (by decide), has_mprv]
  rfl

/-- The interrupt enable is put back. -/
@[simp] theorem has_mie_leaveMachine (m : Word) : has (leaveMachine m) mie = has m mpie := by
  rw [has_mie, getLsbD_leaveMachine _ (by decide), has_mpie]
  rfl

@[simp] theorem has_mpie_leaveMachine (m : Word) : has (leaveMachine m) mpie = true := by
  rw [has_mpie, getLsbD_leaveMachine _ (by decide)]
  rfl

@[simp] theorem previousMode_leaveMachine (m : Word) :
    previousMode (leaveMachine m) = Mode.user := by
  rw [previousMode_eq_iff, getLsbD_leaveMachine _ (by decide), getLsbD_leaveMachine _ (by decide)]
  exact ⟨rfl, rfl⟩

/-! ## Delegation -/

theorem getLsbD_delegated (m : Word) {i : Nat} (hi : i < 32) :
    (delegated m).getLsbD i =
      if i = 1 ∨ i = 12 then false
      else if i = 5 then m.getLsbD 1
      else if i = 8 then m.getLsbD 11
      else if i = 7 ∨ i = 11 then true
      else m.getLsbD i := by
  simp only [delegated, BitVec.getLsbD_or, BitVec.getLsbD_and, BitVec.getLsbD_not,
    getLsbD_ite, has_sie, has_mppSupervisor, getLsbD_sie, getLsbD_spie, getLsbD_mpie, getLsbD_spp,
    getLsbD_mppSupervisor, getLsbD_mpp]
  by_cases hclear : i = 1 ∨ i = 12
  · rcases hclear with rfl | rfl <;> simp
  by_cases h5 : i = 5
  · simp [h5]
  by_cases h8 : i = 8
  · simp [h8]
  by_cases hset : i = 7 ∨ i = 11
  · rcases hset with rfl | rfl <;> simp
  simp [not_or.mp hclear, not_or.mp hset, h5, h8, hi]

@[simp] theorem has_mprv_delegated (m : Word) : has (delegated m) mprv = has m mprv := by
  rw [has_mprv, getLsbD_delegated _ (by decide), has_mprv]
  rfl

@[simp] theorem has_mpie_delegated (m : Word) : has (delegated m) mpie = true := by
  rw [has_mpie, getLsbD_delegated _ (by decide)]
  rfl

@[simp] theorem previousMode_delegated (m : Word) :
    previousMode (delegated m) = Mode.supervisor := by
  rw [previousMode_eq_iff, getLsbD_delegated _ (by decide), getLsbD_delegated _ (by decide)]
  exact ⟨rfl, rfl⟩

/-- Delegation without a case distinction: each field is moved by a shift. -/
theorem delegated_eq (m : Word) :
    delegated m = (m &&& ~~~(spp ||| mpp ||| sie ||| spie)) ||| (m >>> 3 &&& spp) |||
      mppSupervisor ||| mpie ||| (m &&& sie) <<< 4 := by
  apply BitVec.eq_of_getLsbD_eq
  intro i hi
  rw [getLsbD_delegated m hi]
  simp only [BitVec.getLsbD_or, BitVec.getLsbD_and, BitVec.getLsbD_not, BitVec.getLsbD_shiftLeft,
    BitVec.getLsbD_ushiftRight, getLsbD_sie, getLsbD_spie, getLsbD_mpie, getLsbD_spp,
    getLsbD_mppSupervisor, getLsbD_mpp]
  by_cases hclear : i = 1 ∨ i = 12
  · rcases hclear with rfl | rfl <;> simp
  by_cases h5 : i = 5
  · simp [h5]
  by_cases h8 : i = 8
  · simp [h8]
  by_cases hset : i = 7 ∨ i = 11
  · rcases hset with rfl | rfl <;> simp
  -- no other bit is moved anywhere
  have hsie : i - 4 = 1 ↔ i = 5 := by omega
  simp [not_or.mp hclear, not_or.mp hset, h5, h8, hi, hsie]

/-! ## The privilege of accesses -/

@[simp] theorem previousMode_or_mprv (m : Word) : previousMode (m ||| mprv) = previousMode m := by
  rw [previousMode_eq_iff]
  simp [previousMode, mprv]

@[simp] theorem has_or_mprv (m : Word) : has (m ||| mprv) mprv = true := by
  rw [has_mprv]
  simp [mprv]

theorem has_or_self (v flag : Word) : has (v ||| flag) flag = true := by
  rw [has, beq_iff_eq]
  apply BitVec.eq_of_getLsbD_eq
  intro i hi
  simp only [BitVec.getLsbD_and, BitVec.getLsbD_or]
  cases flag.getLsbD i <;> simp

theorem has_and_not_self (v : Word) {flag : Word} (h : flag ≠ 0) :
    has (v &&& ~~~flag) flag = false := by
  have hzero : v &&& ~~~flag &&& flag = 0 := by
    apply BitVec.eq_of_getLsbD_eq
    intro i hi
    simp only [BitVec.getLsbD_and, BitVec.getLsbD_not]
    cases flag.getLsbD i <;> simp
  rw [has, hzero]
  exact beq_eq_false_iff_ne.mpr h.symm

theorem or_and_not_self (m mask : Word) : (m ||| mask) &&& ~~~mask = m &&& ~~~mask := by
  apply BitVec.eq_of_getLsbD_eq
  intro i hi
  simp only [BitVec.getLsbD_and, BitVec.getLsbD_or, BitVec.getLsbD_not]
  cases mask.getLsbD i <;> simp

/-- Setting the bit for a while leaves nothing behind. -/
theorem or_mprv_and_not_mprv {m : Word} (h : has m mprv = false) :
    (m ||| mprv) &&& ~~~mprv = m := by
  rw [or_and_not_self]
  apply BitVec.eq_of_getLsbD_eq
  intro i hi
  rw [has_mprv] at h
  simp only [BitVec.getLsbD_and, BitVec.getLsbD_not, getLsbD_mprv, hi]
  by_cases h17 : i = 17
  · subst h17
    rw [h]
    rfl
  · simp [h17]

/-! ## The supervisor's view -/

/-- The bits of the status word that the supervisor can write. -/
def supervisorBits : Word := 0x800de133

theorem getLsbD_of_supervisor {m m' : Word}
    (h : m' &&& ~~~supervisorBits = m &&& ~~~supervisorBits) {i : Nat} (hi : i < 32)
    (hbit : supervisorBits.getLsbD i = false) : m'.getLsbD i = m.getLsbD i := by
  have hb := congrArg (BitVec.getLsbD · i) h
  simpa only [BitVec.getLsbD_and, BitVec.getLsbD_not, hi, hbit, decide_true, Bool.not_false,
    Bool.and_true] using hb

end TrapMonitor.Status
