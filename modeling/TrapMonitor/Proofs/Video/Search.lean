import Mathlib.Algebra.Order.Field.Rat
import Mathlib.Data.List.MinMax
import Mathlib.Tactic.FieldSimp
import Mathlib.Tactic.Linarith
import Mathlib.Tactic.Positivity
import Mathlib.Tactic.Ring
import TrapMonitor.Video.Clock

/-! # The search for the pixel clock finds the best ratio

The search compares distances over a common denominator, so each comparison is one of the exact errors
of two ratios, and the placeholder that it starts from loses the first of them. Of the candidates seen
so far it therefore holds the first that has the least error, and as the candidates are in order, the
one with the smallest divider, and then the smallest multiplier, of all the best ones.
-/
namespace TrapMonitor.Clock

/-- How far a ratio is from the wanted frequency. -/
def error (frequency : Nat) (r : Ratio) : ℚ := |(r.m / r.d : ℚ) - frequency / unit|

theorem error_eq (f : Nat) (r : Ratio) : error f r = |(r.m / r.d : ℚ) - f / 10000| := by
  have hunit : (unit : ℚ) = 10000 := by norm_num [unit]
  rw [error, hunit]

/-- The order in which candidates are tried. -/
def Before (r s : Ratio) : Prop := r.d < s.d ∨ r.d = s.d ∧ r.m < s.m

/-! ## Candidates -/

theorem mem_candidates {r : Ratio} :
    r ∈ candidates ↔ (2 ≤ r.m ∧ r.m ≤ 128) ∧ 1 ≤ r.d ∧ r.d ≤ 128 := by
  obtain ⟨m, d⟩ := r
  simp only [candidates, List.mem_flatMap, List.mem_map, List.mem_range'_1, Ratio.mk.injEq]
  constructor
  · rintro ⟨d', hd, m', hm, rfl, rfl⟩
    omega
  · rintro ⟨hm, hd⟩
    exact ⟨d, by omega, m, by omega, rfl, rfl⟩

theorem pos_of_mem_candidates {r : Ratio} (h : r ∈ candidates) : 0 < r.d :=
  (mem_candidates.mp h).2.1

theorem pairwise_candidates : candidates.Pairwise Before := by
  refine List.pairwise_flatMap.mpr ⟨fun d _ => ?_, ?_⟩
  · refine List.pairwise_map.mpr ((List.pairwise_lt_range').imp ?_)
    exact fun hm => .inr ⟨rfl, hm⟩
  · refine (List.pairwise_lt_range').imp fun hd r hr s hs => ?_
    obtain ⟨_, -, rfl⟩ := List.mem_map.mp hr
    obtain ⟨_, -, rfl⟩ := List.mem_map.mp hs
    exact .inl hd

/-! ## One comparison -/

section Comparison

variable {f : Nat} {r s : Ratio}

theorem distance_eq_error_mul (hr : 0 < r.d) :
    (distance f r s : ℚ) = error f r * (r.d * s.d * unit) := by
  have hd : (r.d : ℚ) ≠ 0 := by exact_mod_cast hr.ne'
  have hunit : (unit : ℚ) ≠ 0 := by norm_num [unit]
  have hscale : (0 : ℚ) ≤ r.d * s.d * unit := by positivity
  have hcast : (distance f r s : ℚ) = |(s.d * unit * r.m - r.d * s.d * f : ℚ)| := by
    rw [distance, Nat.cast_natAbs]
    push_cast
    rfl
  rw [hcast, error, ← abs_of_nonneg hscale, ← abs_mul]
  congr 1
  field_simp

theorem distance_lt_iff (hr : 0 < r.d) (hs : 0 < s.d) :
    distance f r s < distance f s r ↔ error f r < error f s := by
  have hscale : (0 : ℚ) < r.d * s.d * unit := by
    have hunit : 0 < unit := by decide
    positivity
  have hcomm : (s.d * r.d * unit : ℚ) = r.d * s.d * unit := by ring
  rw [← Nat.cast_lt (α := ℚ), distance_eq_error_mul hr, distance_eq_error_mul hs, hcomm,
    mul_lt_mul_iff_left₀ hscale]

theorem closer_eq (hr : 0 < r.d) (hs : 0 < s.d) :
    closer f s r = if error f r < error f s then r else s := by
  simp only [closer, distance_lt_iff hr hs]

theorem error_eq_zero_iff (hr : 0 < r.d) : error f r = 0 ↔ r.m * unit = r.d * f := by
  have hd : (r.d : ℚ) ≠ 0 := by exact_mod_cast hr.ne'
  have hunit : (unit : ℚ) ≠ 0 := by norm_num [unit]
  rw [error, abs_eq_zero, sub_eq_zero, div_eq_div_iff hd hunit, mul_comm (f : ℚ)]
  norm_cast

/-- Whatever is tried first replaces the placeholder. -/
theorem closer_worst (hr : 0 < r.d) : closer f .worst r = r := by
  have hzero : distance f r .worst = 0 := by simp [distance, Ratio.worst]
  have hpos : 0 < distance f .worst r := by
    simp only [distance, Ratio.worst, unit]
    omega
  rw [closer, if_pos (by omega)]

end Comparison

/-! ## The whole search -/

/-- The search holds the first ratio with the least error among those it has seen. -/
theorem foldl_closer_mem_argmin (f : Nat) {l : List Ratio} (hpos : ∀ r ∈ l, 0 < r.d)
    (hne : l ≠ []) : l.foldl (closer f) .worst ∈ l.argmin (error f) := by
  -- from the end, since the last ratio is compared with the best of those before it
  induction l using List.reverseRecOn with
  | nil => exact absurd rfl hne
  | append_singleton l r ih =>
    have hr : 0 < r.d := hpos r (by simp)
    rw [List.foldl_concat]
    by_cases hl : l = []
    · subst hl
      simp [closer_worst hr]
    · have hbest := ih (fun s hs => hpos s (by simp [hs])) hl
      have hbestpos := hpos _ (List.mem_append_left _ (List.argmin_mem hbest))
      rw [List.argmin_concat, Option.mem_def.mp hbest, closer_eq hr hbestpos]
      by_cases hlt : error f r < error f (l.foldl (closer f) .worst) <;> simp [hlt]

theorem search_mem_argmin (f : Nat) : search f ∈ candidates.argmin (error f) :=
  foldl_closer_mem_argmin f (fun _ => pos_of_mem_candidates)
    (List.ne_nil_of_mem (a := ⟨2, 1⟩) (mem_candidates.mpr (by decide)))

theorem search_mem_candidates (f : Nat) : search f ∈ candidates :=
  List.argmin_mem (search_mem_argmin f)

theorem error_search_le (f : Nat) {r : Ratio} (hr : r ∈ candidates) :
    error f (search f) ≤ error f r := List.le_of_mem_argmin hr (search_mem_argmin f)

/-- Of all candidates that are as close, the one that was found comes first. -/
theorem search_before (f : Nat) {r : Ratio} (hr : r ∈ candidates)
    (he : error f r ≤ error f (search f)) : search f = r ∨ Before (search f) r := by
  have hle := List.index_of_argmin (search_mem_argmin f) hr he
  rcases hle.eq_or_lt with heq | hlt
  · exact .inl ((List.idxOf_inj (search_mem_candidates f)).mp heq)
  · right
    have hb := List.pairwise_iff_getElem.mp pairwise_candidates _ _
      (List.idxOf_lt_length_iff.mpr (search_mem_candidates f)) (List.idxOf_lt_length_iff.mpr hr) hlt
    rwa [List.getElem_idxOf, List.getElem_idxOf] at hb

/-- A candidate that is closer than all others is found. -/
theorem search_eq {f : Nat} {r : Ratio} (hr : r ∈ candidates)
    (h : ∀ s ∈ candidates, s ≠ r → distance f r s < distance f s r) : search f = r := by
  by_contra hne
  have hs := search_mem_candidates f
  have hlt := (distance_lt_iff (pos_of_mem_candidates hr) (pos_of_mem_candidates hs)).mp (h _ hs hne)
  exact absurd (error_search_le f hr) (not_le.mpr hlt)

/-! ## In 64-bit arithmetic -/

/-- A number that fits into 64 bits with a sign. -/
def int64 (x : Int) : Option Int := if -2 ^ 63 ≤ x ∧ x < 2 ^ 63 then some x else none

/-- The distance, if all numbers on the way to it fit. -/
def distance64 (frequency : Nat) (r other : Ratio) : Option Int := do
  let common ← int64 (other.d * unit)
  let scaled ← int64 (common * r.m)
  let dividers ← int64 (r.d * other.d)
  let ideal ← int64 (dividers * frequency)
  let difference ← int64 (scaled - ideal)
  int64 difference.natAbs

def closer64 (frequency : Nat) (best r : Ratio) : Option Ratio := do
  let current ← distance64 frequency best r
  let tested ← distance64 frequency r best
  return if tested < current then r else best

def search64 (frequency : Nat) : Option Ratio :=
  candidates.foldlM (closer64 frequency) .worst

/-- Every candidate is this small, and so is the placeholder. -/
def Small (r : Ratio) : Prop := r.m ≤ 128 ∧ r.d ≤ 128

theorem small_of_mem_candidates {r : Ratio} (h : r ∈ candidates) : Small r :=
  ⟨(mem_candidates.mp h).1.2, (mem_candidates.mp h).2.2⟩

theorem int64_eq {x : Int} (h : x.natAbs < 2 ^ 63) : int64 x = some x := if_pos (by omega)

theorem int64_bind {x : Int} (h : x.natAbs < 2 ^ 63) (k : Int → Option Int) :
    (int64 x >>= k) = k x := by
  rw [int64_eq h]
  rfl

section Fitting

variable {f : Nat} {r s : Ratio}

theorem distance_eq_natAbs (f : Nat) (r s : Ratio) :
    distance f r s = ((s.d * unit * r.m : Nat) - (r.d * s.d * f : Nat) : Int).natAbs := by
  simp only [distance, Nat.cast_mul]

theorem distance64_eq (hf : f < 2 ^ 32) (hr : Small r) (hs : Small s) :
    distance64 f r s = some (distance f r s : Int) := by
  have hcommon : s.d * unit ≤ 128 * 10000 := Nat.mul_le_mul_right _ hs.2
  have hscaled : s.d * unit * r.m ≤ 128 * 10000 * 128 := Nat.mul_le_mul hcommon hr.1
  have hdividers : r.d * s.d ≤ 128 * 128 := Nat.mul_le_mul hr.2 hs.2
  have hideal : r.d * s.d * f ≤ 128 * 128 * 2 ^ 32 := Nat.mul_le_mul hdividers hf.le
  have hdifference : ((s.d * unit * r.m : Nat) - (r.d * s.d * f : Nat) : Int).natAbs < 2 ^ 63 := by
    omega
  rw [distance64, ← Nat.cast_mul, int64_bind (by omega), ← Nat.cast_mul, int64_bind (by omega),
    ← Nat.cast_mul, int64_bind (by omega), ← Nat.cast_mul, int64_bind (by omega),
    int64_bind hdifference, int64_eq (by omega), distance_eq_natAbs]

theorem closer64_eq (hf : f < 2 ^ 32) (hr : Small r) (hs : Small s) :
    closer64 f s r = some (closer f s r) := by
  simp only [closer64, distance64_eq hf hr hs, distance64_eq hf hs hr, Option.bind_eq_bind,
    Option.bind_some, Nat.cast_lt]
  rfl

theorem small_closer (hr : Small r) (hs : Small s) : Small (closer f s r) := by
  unfold closer
  split
  · exact hr
  · exact hs

theorem foldlM_closer64 (hf : f < 2 ^ 32) {l : List Ratio} (hl : ∀ r ∈ l, Small r) (hs : Small s) :
    l.foldlM (closer64 f) s = some (l.foldl (closer f) s) := by
  induction l generalizing s with
  | nil => rfl
  | cons r l ih =>
    have hr := hl r (by simp)
    rw [List.foldlM_cons, closer64_eq hf hr hs]
    exact ih (fun t ht => hl t (by simp [ht])) (small_closer hr hs)

theorem search64_eq (hf : f < 2 ^ 32) : search64 f = some (search f) :=
  foldlM_closer64 hf (fun _ => small_of_mem_candidates) ⟨by decide, by decide⟩

end Fitting

/-! ## What the search returns -/

/-- A frequency that some candidate meets is met by the ratio that is found, in lowest terms. -/
theorem search_of_coprime {f : Nat} {r : Ratio} (hr : r ∈ candidates) (hcoprime : r.m.Coprime r.d)
    (hexact : r.m * unit = r.d * f) : search f = r := by
  have hs := search_mem_candidates f
  have hzero := (error_eq_zero_iff (pos_of_mem_candidates hr)).mpr hexact
  have hfound : (search f).m * unit = (search f).d * f := by
    have hle : error f (search f) ≤ 0 := (error_search_le f hr).trans hzero.le
    exact (error_eq_zero_iff (pos_of_mem_candidates hs)).mp (le_antisymm hle (abs_nonneg _))
  have hcross : (search f).m * r.d = r.m * (search f).d := by
    apply Nat.eq_of_mul_eq_mul_right (show 0 < unit by decide)
    calc (search f).m * r.d * unit
        = (search f).m * unit * r.d := by ring
      _ = r.d * f * (search f).d := by rw [hfound]; ring
      _ = r.m * (search f).d * unit := by rw [← hexact]; ring
  -- so what was found is a multiple of the ratio in lowest terms, and is not behind it
  have hdvd : r.d ∣ (search f).d :=
    hcoprime.symm.dvd_of_dvd_mul_left ⟨(search f).m, by rw [← hcross, Nat.mul_comm]⟩
  have hle := Nat.le_of_dvd (pos_of_mem_candidates hs) hdvd
  rcases search_before f hr (hzero.le.trans (abs_nonneg _)) with heq | hlt | ⟨heq, hlt⟩
  · exact heq
  · omega
  · rw [heq] at hcross
    exact absurd (Nat.eq_of_mul_eq_mul_right (pos_of_mem_candidates hr) hcross) hlt.ne

/-- The ratio for the pixel clock of the usual mode is exact. -/
theorem search_vga : search (31500 : Word).toNat = ⟨63, 20⟩ :=
  search_of_coprime (mem_candidates.mpr (by decide)) (by decide) (by decide)

/-- A frequency that is low, so that the best ratio has a large divider. -/
theorem search_low : search (234 : Word).toNat = ⟨3, 128⟩ := by
  have hlow : (234 : Word).toNat = 234 := rfl
  refine search_eq (mem_candidates.mpr (by decide)) fun s hs hne => ?_
  obtain ⟨m, d⟩ := s
  obtain ⟨⟨hm, -⟩, hd, hd'⟩ := mem_candidates.mp hs
  simp only [ne_eq, Ratio.mk.injEq] at hne hm hd hd'
  simp only [distance, unit, hlow]
  rcases hm.eq_or_lt with rfl | hm
  · omega
  · omega

/-- The ratio 128 is the largest, so it is found for every frequency from there on. -/
theorem search_of_le {f : Nat} (hf : 128 * unit ≤ f) : search f = ⟨128, 1⟩ := by
  refine search_eq (mem_candidates.mpr (by decide)) fun s hs hne => ?_
  obtain ⟨m, d⟩ := s
  obtain ⟨⟨-, hm'⟩, hd, -⟩ := mem_candidates.mp hs
  simp only [ne_eq, Ratio.mk.injEq] at hne hm' hd
  have hsmaller : m < 128 * d := by omega
  have hbeyond : d * (128 * unit) ≤ d * f := Nat.mul_le_mul_left d hf
  rw [distance_eq_natAbs, distance_eq_natAbs, Nat.one_mul, Nat.mul_one, Nat.one_mul]
  simp only [unit] at hbeyond ⊢
  omega

/-- For every frequency the search returns a candidate whose error is the least, and of those with
the least error the one with the smallest divider and then the smallest multiplier. No number on the
way leaves the range of 64 bits, and the placeholder is not returned. -/
theorem search_exact {frequency : Word} {r : Ratio} (h : search frequency.toNat = r) :
    ((2 ≤ r.m ∧ r.m ≤ 128) ∧ 1 ≤ r.d ∧ r.d ≤ 128) ∧
    (∀ m d : Nat, 2 ≤ m → m ≤ 128 → 1 ≤ d → d ≤ 128 →
      |(r.m / r.d : ℚ) - frequency.toNat / 10000| ≤ |(m / d : ℚ) - frequency.toNat / 10000| ∧
      (|(m / d : ℚ) - frequency.toNat / 10000| = |(r.m / r.d : ℚ) - frequency.toNat / 10000| →
        r.d < d ∨ r.d = d ∧ r.m ≤ m)) ∧
    search64 frequency.toNat = some r ∧ r ≠ .worst := by
  have hr := mem_candidates.mp (h ▸ search_mem_candidates frequency.toNat)
  refine ⟨hr, fun m d hm hm' hd hd' => ?_, ?_, ?_⟩
  · have hs : (⟨m, d⟩ : Ratio) ∈ candidates := mem_candidates.mpr ⟨⟨hm, hm'⟩, hd, hd'⟩
    rw [← error_eq _ r, ← error_eq _ ⟨m, d⟩, ← h]
    refine ⟨error_search_le _ hs, fun he => ?_⟩
    rcases search_before _ hs he.le with heq | hlt | ⟨heq, hlt⟩
    · exact .inr ⟨congrArg Ratio.d heq, (congrArg Ratio.m heq).le⟩
    · exact .inl hlt
    · exact .inr ⟨heq, hlt.le⟩
  · rw [search64_eq frequency.isLt, h]
  · rintro rfl
    exact absurd hr.2.1 (by decide)

/-- For the pixel clock of the usual mode several ratios are exact. -/
theorem search_exact_vga :
    search (31500 : Word).toNat = ⟨63, 20⟩ ∧
    |(63 / 20 : ℚ) - 31500 / 10000| ≤ |(126 / 40 : ℚ) - 31500 / 10000| ∧
    (20 < 40 ∨ 20 = 40 ∧ 63 ≤ 126) ∧ search64 31500 = some ⟨63, 20⟩ := by
  obtain ⟨-, hbest, hfits, -⟩ := search_exact search_vga
  obtain ⟨hle, htie⟩ := hbest 126 40 (by decide) (by decide) (by decide) (by decide)
  refine ⟨search_vga, ?_, htie (by norm_num), hfits⟩
  simpa using hle

end TrapMonitor.Clock
