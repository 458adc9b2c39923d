import TrapMonitor.Proofs.Video.Search

/-! # What the words of the clock manager program

A word holds the high time and the low time of a divider in six bits each, and zero stands for 64. The
words for a ratio program its multiplier and its divider up to 127; of 127 the low time is 64, whose
bit is set in the high time anyway. The times of 128 are too long for their fields, and there the
high time spills into the bit that bypasses the divider (`times_limit`). The search does return
that number.
-/
namespace TrapMonitor.Clock

/-- The time that a field stands for. -/
def fieldTime (field : BitVec 6) : Nat := if field = 0 then 64 else field.toNat

def highTime (w : Half) : Nat := fieldTime (w.extractLsb' 6 6)

def lowTime (w : Half) : Nat := fieldTime (w.extractLsb' 0 6)

/-- The bits above the two times. -/
def flags (w : Half) : BitVec 4 := w.extractLsb' 12 4

/-! ## Times that fit -/

/-- Times that fit into their fields stand side by side. -/
theorem toNat_times {n : Nat} (hn : n ≤ 126) :
    (times (BitVec.ofNat 32 n)).toNat = n / 2 * 64 + (n / 2 + n % 2) := by
  have hlow : n / 2 + n % 2 < 2 ^ 6 := by omega
  have hword : (BitVec.ofNat 32 n).toNat = n := by
    rw [BitVec.toNat_ofNat]
    omega
  have htwo : (2 : Word).toNat = 2 := rfl
  simp only [times, BitVec.toNat_setWidth, BitVec.toNat_or, BitVec.toNat_shiftLeft,
    BitVec.toNat_add, BitVec.toNat_udiv, BitVec.toNat_umod, hword, htwo]
  rw [Nat.mod_eq_of_lt (show n / 2 + n % 2 < 2 ^ 32 by omega),
    Nat.mod_eq_of_lt (show (n / 2) <<< 6 < 2 ^ 32 by rw [Nat.shiftLeft_eq]; omega),
    ← Nat.shiftLeft_add_eq_or_of_lt hlow, Nat.shiftLeft_eq]
  omega

theorem fieldTime_of_pos {field : BitVec 6} (h : 0 < field.toNat) :
    fieldTime field = field.toNat := by
  have hne : field ≠ 0 := by
    rintro rfl
    exact absurd h (by decide)
  exact if_neg hne

theorem times_spec {n : Nat} (h2 : 2 ≤ n) (hn : n ≤ 127) :
    highTime (times (BitVec.ofNat 32 n)) + lowTime (times (BitVec.ofNat 32 n)) = n ∧
      flags (times (BitVec.ofNat 32 n)) = 0 := by
  rcases hn.eq_or_lt with rfl | hn
  · decide
  · have htimes := toNat_times (Nat.le_of_lt_succ hn)
    have hshort : n / 2 + n % 2 < 64 := by omega
    have hhigh : ((times (BitVec.ofNat 32 n)).extractLsb' 6 6).toNat = n / 2 := by
      rw [BitVec.extractLsb'_toNat, htimes, Nat.shiftRight_eq_div_pow, Nat.mul_comm,
        Nat.mul_add_div (by decide), Nat.div_eq_of_lt hshort]
      omega
    have hlow : ((times (BitVec.ofNat 32 n)).extractLsb' 0 6).toNat = n / 2 + n % 2 := by
      rw [BitVec.extractLsb'_toNat, htimes, Nat.shiftRight_eq_div_pow]
      omega
    have habove : n / 2 * 64 + (n / 2 + n % 2) < 2 ^ 12 := by omega
    refine ⟨?_, BitVec.eq_of_toNat_eq ?_⟩
    · rw [highTime, lowTime, fieldTime_of_pos (by omega), fieldTime_of_pos (by omega), hhigh, hlow]
      omega
    · rw [flags, BitVec.extractLsb'_toNat, htimes, Nat.shiftRight_eq_div_pow,
        Nat.div_eq_of_lt habove]
      rfl

/-- The longest divider spills into the flags, and what stays in the fields is another one. -/
theorem times_limit : times (BitVec.ofNat 32 128) = 0x1040 ∧ highTime 0x1040 + lowTime 0x1040 = 65 ∧
    flags 0x1040 = 1 := by decide

/-! ## The flag -/

theorem highTime_bypass_or (w : Half) : highTime (bypass ||| w) = highTime w := by
  have hzero : bypass.extractLsb' 6 6 = 0#6 := rfl
  rw [highTime, BitVec.extractLsb'_or, hzero, BitVec.zero_or, highTime]

theorem lowTime_bypass_or (w : Half) : lowTime (bypass ||| w) = lowTime w := by
  have hzero : bypass.extractLsb' 0 6 = 0#6 := rfl
  rw [lowTime, BitVec.extractLsb'_or, hzero, BitVec.zero_or, lowTime]

theorem flags_bypass_or (w : Half) : flags (bypass ||| w) = 1 ||| flags w := by
  rw [flags, BitVec.extractLsb'_or]
  rfl

/-! ## The words of a ratio -/

theorem ofNat_eq_one_iff {n : Nat} (hn : n ≤ 128) : BitVec.ofNat 32 n = 1 ↔ n = 1 := by
  rw [← BitVec.toNat_inj, BitVec.toNat_ofNat, Nat.mod_eq_of_lt (by omega)]
  rfl

/-- The words for the ratio that is found program its multiplier and its divider, with the divider one
bypassed, unless one of them is 128. -/
theorem words_exact {frequency : Word} {r : Ratio} (h : search frequency.toNat = r) :
    ∃ feedback input : Half,
      words (BitVec.ofNat 32 r.m) (BitVec.ofNat 32 r.d) =
        [(0x14, feedback), (0x16, input), (0x08, 0x1145), (0x0a, 0x1041)] ∧
      flags feedback = 1 ∧
      (r.m ≠ 128 → highTime feedback + lowTime feedback = r.m) ∧
      (r.m = 128 → feedback = 0x1040 ∧ highTime feedback + lowTime feedback = 65) ∧
      (r.d = 1 → input = 0x1000) ∧
      (r.d ≠ 1 → r.d ≠ 128 → flags input = 0 ∧ highTime input + lowTime input = r.d) ∧
      (r.d = 128 → input = 0x1040 ∧ flags input = 1 ∧ highTime input + lowTime input = 65) := by
  obtain ⟨⟨hm, hm'⟩, hd, hd'⟩ := mem_candidates.mp (h ▸ search_mem_candidates frequency.toNat)
  obtain ⟨hspilt, htime, hflags⟩ := times_limit
  refine ⟨bypass ||| times (BitVec.ofNat 32 r.m),
    if BitVec.ofNat 32 r.d = 1 then bypass else times (BitVec.ofNat 32 r.d), rfl, ?_, fun hne => ?_,
    fun heq => ?_, fun heq => ?_, fun hone hne => ?_, fun heq => ?_⟩
  · rw [flags_bypass_or]
    rcases hm'.eq_or_lt with heq | hlt
    · rw [heq]
      decide
    · rw [(times_spec hm (by omega)).2]
      rfl
  · rw [highTime_bypass_or, lowTime_bypass_or]
    exact (times_spec hm (by omega)).1
  · have hspilt' : bypass ||| times (BitVec.ofNat 32 r.m) = 0x1040 := by
      rw [heq, hspilt]
      rfl
    exact ⟨hspilt', hspilt'.symm ▸ htime⟩
  · rw [if_pos ((ofNat_eq_one_iff hd').mpr heq)]
    rfl
  · rw [if_neg (mt (ofNat_eq_one_iff hd').mp hone)]
    exact (times_spec (by omega) (by omega)).symm
  · rw [if_neg (mt (ofNat_eq_one_iff hd').mp (by omega)), heq, hspilt]
    exact ⟨rfl, hflags, htime⟩

theorem words_exact_vga :
    search (31500 : Word).toNat = ⟨63, 20⟩ ∧
    ∃ feedback input : Half,
      words 63 20 = [(0x14, feedback), (0x16, input), (0x08, 0x1145), (0x0a, 0x1041)] ∧
      flags feedback = 1 ∧ highTime feedback + lowTime feedback = 63 ∧
      flags input = 0 ∧ highTime input + lowTime input = 20 := by
  obtain ⟨feedback, input, hwords, hflags, hm, -, -, hd, -⟩ := words_exact search_vga
  exact ⟨search_vga, feedback, input, hwords, hflags, hm (by decide),
    hd (by decide) (by decide)⟩

/-- For a high frequency the search returns the multiplier 128, and the word programs 65. For a low
one it returns the divider 128, and the word programs 65 and bypasses it. -/
theorem words_spill :
    (search (1280000 : Word).toNat = ⟨128, 1⟩ ∧
      words 128 1 = [(0x14, 0x1040), (0x16, 0x1000), (0x08, 0x1145), (0x0a, 0x1041)] ∧
      highTime 0x1040 + lowTime 0x1040 = 65) ∧
    (search (234 : Word).toNat = ⟨3, 128⟩ ∧
      words 3 128 = [(0x14, 0x1042), (0x16, 0x1040), (0x08, 0x1145), (0x0a, 0x1041)] ∧
      flags 0x1040 = 1) :=
  ⟨⟨search_of_le (by decide), by decide, by decide⟩, search_low, by decide, by decide⟩

end TrapMonitor.Clock
