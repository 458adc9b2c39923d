import TrapMonitor.Proofs.Computation
import TrapMonitor.Proofs.Device.Reconfiguration
import TrapMonitor.Proofs.Video.Search

/-! # A video mode is programmed as a whole, or fetching is not started

Everything that the initiator is told is a number for one of its registers (`Framebuffer.timings`,
`Framebuffer.fetching`). Programming a mode goes through these settings in order and stops at the
first number that does not fit into a word (`Framebuffer.Makes`). As the initiator is enabled last of
all, a run that stops does not enable it.
-/
namespace TrapMonitor

/-! ## The numbers of a mode -/

namespace VideoTiming

open Checked

variable (t : VideoTiming)

theorem refreshRate_eq_ok_iff {v : Word} : t.refreshRate = .ok v ↔
    ∃ clock : Word, clock.toNat = t.pixelClock.toNat * 10000 ∧
    ∃ width : Word, width.toNat = t.hActive.toNat + t.hBlanking.toNat ∧
    ∃ height : Word, height.toNat = t.vActive.toNat + t.vBlanking.toNat ∧
    ∃ area : Word, area.toNat = width.toNat * height.toNat ∧ area ≠ 0 ∧ clock / area = v := by
  have hscale : (10000 : Word).toNat = 10000 := rfl
  simp only [refreshRate, except_bind_eq_ok, computes_mul _ _ _, computes_add _ _ _, div_eq_ok_iff,
    hscale]

/-- There is a refresh rate if nothing on the way to it overflows and the frame is not empty. -/
theorem exists_refreshRate_iff : (∃ v, t.refreshRate = .ok v) ↔
    t.pixelClock.toNat * 10000 < 2 ^ 32 ∧
    t.hActive.toNat + t.hBlanking.toNat < 2 ^ 32 ∧
    t.vActive.toNat + t.vBlanking.toNat < 2 ^ 32 ∧
    (t.hActive.toNat + t.hBlanking.toNat) * (t.vActive.toNat + t.vBlanking.toNat) < 2 ^ 32 ∧
    (t.hActive.toNat + t.hBlanking.toNat) * (t.vActive.toNat + t.vBlanking.toNat) ≠ 0 := by
  simp only [refreshRate_eq_ok_iff]
  constructor
  · rintro ⟨v, clock, hclock, width, hwidth, height, hheight, area, harea, hne, -⟩
    rw [hwidth, hheight] at harea
    have hpos : area.toNat ≠ 0 := fun h => hne (BitVec.eq_of_toNat_eq h)
    exact ⟨hclock ▸ clock.isLt, hwidth ▸ width.isLt, hheight ▸ height.isLt, harea ▸ area.isLt,
      harea ▸ hpos⟩
  · rintro ⟨hclock, hwidth, hheight, harea, hpos⟩
    obtain ⟨clock, hclock⟩ := exists_word hclock
    obtain ⟨width, hwidth⟩ := exists_word hwidth
    obtain ⟨height, hheight⟩ := exists_word hheight
    obtain ⟨area, harea⟩ := exists_word harea
    have hne : area ≠ 0 := fun h => hpos (harea.symm.trans (congrArg BitVec.toNat h))
    exact ⟨_, clock, hclock, width, hwidth, height, hheight, area,
      by rw [harea, hwidth, hheight], hne, rfl⟩

/-- Every number for the mode fits into a word, and its frame is not empty. -/
structure Fits : Prop where
  clock : t.pixelClock.toNat * 10000 < 2 ^ 32
  width : t.hActive.toNat + t.hBlanking.toNat < 2 ^ 32
  height : t.vActive.toNat + t.vBlanking.toNat < 2 ^ 32
  area : (t.hActive.toNat + t.hBlanking.toNat) * (t.vActive.toNat + t.vBlanking.toNat) < 2 ^ 32
  nonempty : (t.hActive.toNat + t.hBlanking.toNat) * (t.vActive.toNat + t.vBlanking.toNat) ≠ 0
  hSync : t.hActive.toNat + t.hSyncOffset.toNat + t.hSyncWidth.toNat < 2 ^ 32
  vSync : t.vActive.toNat + t.vSyncOffset.toNat + t.vSyncWidth.toNat < 2 ^ 32
  frame : 4 * t.hActive.toNat * t.vActive.toNat < 2 ^ 32

theorem not_fits_iff : ¬t.Fits ↔
    2 ^ 32 ≤ t.pixelClock.toNat * 10000 ∨
    2 ^ 32 ≤ t.hActive.toNat + t.hBlanking.toNat ∨
    2 ^ 32 ≤ t.vActive.toNat + t.vBlanking.toNat ∨
    2 ^ 32 ≤ (t.hActive.toNat + t.hBlanking.toNat) * (t.vActive.toNat + t.vBlanking.toNat) ∨
    (t.hActive.toNat + t.hBlanking.toNat) * (t.vActive.toNat + t.vBlanking.toNat) = 0 ∨
    2 ^ 32 ≤ t.hActive.toNat + t.hSyncOffset.toNat + t.hSyncWidth.toNat ∨
    2 ^ 32 ≤ t.vActive.toNat + t.vSyncOffset.toNat + t.vSyncWidth.toNat ∨
    2 ^ 32 ≤ 4 * t.hActive.toNat * t.vActive.toNat := by
  constructor
  · intro h
    by_contra hnone
    exact h (by constructor <;> omega)
  · rintro h ⟨hclock, hwidth, hheight, harea, hnonempty, hhsync, hvsync, hframe⟩
    omega

theorem computes_frameSize : Computes t.frameSize (4 * t.hActive.toNat * t.vActive.toNat) := by
  have hfour : (4 : Word).toNat = 4 := rfl
  refine (computes_mul t.hActive t.vActive).bind (fun area harea => ?_) ?_
  · have h := computes_mul area 4
    rwa [harea, hfour, Nat.mul_comm, ← Nat.mul_assoc] at h
  · rw [Nat.mul_assoc]
    exact Nat.le_mul_of_pos_left _ (by decide)

end VideoTiming

namespace Framebuffer

open Checked PortView

/-! ## Settings -/

/-- A register of the initiator and the number for it. -/
abbrev Setting := SplitRegister × Nat

/-- Makes settings one after the other. -/
def store {I : Type} [Bus I] (settings : List Setting) (d : I) : I :=
  settings.foldl (fun d s => (s.1.write (BitVec.ofNat 64 s.2) d).2) d

theorem store_append {I : Type} [Bus I] (settings settings' : List Setting) (d : I) :
    store (settings ++ settings') d = store settings' (store settings d) := List.foldl_append

theorem writes_store {I : Type} [Bus I] (settings : List Setting) (d : Recorder I) :
    (store settings d).writes =
      d.writes ++ settings.flatMap fun s => s.1.busWrites (BitVec.ofNat 64 s.2) := by
  induction settings generalizing d with
  | nil => exact (List.append_nil _).symm
  | cons s settings ih =>
    rw [List.flatMap_cons, ← List.append_assoc, ← SplitRegister.writes_write]
    exact ih _

/-- The number that is set last for a register. -/
def lastFor (r : SplitRegister) (settings : List Setting) : Option Nat :=
  settings.reverse.findSome? fun s => if s.1 = r then some s.2 else none

theorem lastFor_concat (r : SplitRegister) (settings : List Setting) (s : Setting) :
    lastFor r (settings ++ [s]) = if s.1 = r then some s.2 else lastFor r settings := by
  rw [lastFor, List.reverse_append, List.reverse_singleton, List.singleton_append,
    List.findSome?_cons]
  by_cases h : s.1 = r
  · rw [if_pos h, if_pos h]
  · rw [if_neg h, if_neg h, lastFor]

theorem mem_of_lastFor {r : SplitRegister} {settings : List Setting} {n : Nat}
    (h : lastFor r settings = some n) : (r, n) ∈ settings := by
  obtain ⟨s, hs, hsome⟩ := List.exists_of_findSome?_eq_some h
  by_cases hr : s.1 = r
  · rw [if_pos hr] at hsome
    cases hr
    cases hsome
    exact List.mem_reverse.mp hs
  · rw [if_neg hr] at hsome
    exact nomatch hsome

section Held

variable {I : Type} [Bus I] [PlainWords I]

theorem length_store (settings : List Setting) (d : I) :
    (PlainWords.words (store settings d)).words.length = (PlainWords.words d).words.length := by
  induction settings generalizing d with
  | nil => rfl
  | cons s settings ih => exact (ih _).trans (SplitRegister.length_write _ _ _)

/-- A register holds what was last set for it, unless another register overlaps it. -/
theorem held_store {r : SplitRegister} (settings : List Setting) (d : I) (hcount : r.count ≤ 8)
    (hfits : r.first + r.count ≤ (PlainWords.words d).words.length)
    (hapart : ∀ s ∈ settings, s.1 = r ∨
      r.first + r.count ≤ s.1.first ∨ s.1.first + s.1.count ≤ r.first) :
    r.held (store settings d) =
      ((lastFor r settings).map (· % 256 ^ r.count)).getD (r.held d) := by
  -- from the end, since the last setting is the one that counts
  induction settings using List.reverseRecOn with
  | nil => rfl
  | append_singleton settings s ih =>
    have hstep : store (settings ++ [s]) d =
        (s.1.write (BitVec.ofNat 64 s.2) (store settings d)).2 := store_append settings [s] d
    rw [hstep, lastFor_concat]
    by_cases h : s.1 = r
    · have hdvd : 256 ^ r.count ∣ 2 ^ 64 := pow_dvd_pow 256 hcount
      rw [h, if_pos rfl, SplitRegister.held_write_self _ _ _ (by rwa [length_store]),
        BitVec.toNat_ofNat, Nat.mod_mod_of_dvd _ hdvd]
      rfl
    · rw [if_neg h, SplitRegister.held_write_of_disjoint _ _ _ _
        ((hapart s (by simp)).resolve_left h)]
      exact ih fun s' hs' => hapart s' (by simp [hs'])

end Held

/-! ## Programs that make settings -/

section Programs

variable {M I : Type} [Bus I]

/-- The program makes these settings, all of whose numbers fit into words, or it stops after those
before one that does not. -/
def Makes (x : Setup M I Unit) (settings : List Setting) : Prop := ∀ f,
  (∀ s ∈ settings, s.2 < 2 ^ 32) ∧
    x f = .ok () { f with initiator := store settings f.initiator } ∨
  ∃ done s rest e, settings = done ++ s :: rest ∧ 2 ^ 32 ≤ s.2 ∧
    x f = .error e { f with initiator := store done f.initiator }

theorem makes_checked {x : Except Abort Word} {n : Nat} (h : Computes x n) (r : SplitRegister) :
    Makes (do let v ← checked x; setInitiator r v : Setup M I Unit) [(r, n)] := fun f => by
  rcases h.fits_or_stops with ⟨hn, hx⟩ | ⟨hn, e, hx⟩
  · have hword : (BitVec.ofNat 32 n).setWidth 64 = BitVec.ofNat 64 n := by
      rw [← BitVec.ofNat_toNat, toNat_ofNat_of_lt hn]
    refine .inl ⟨by simpa using hn, ?_⟩
    rw [hx, store, List.foldl_cons, ← hword]
    rfl
  · refine .inr ⟨[], (r, n), [], e, rfl, hn, ?_⟩
    rw [hx]
    rfl

theorem makes_set (r : SplitRegister) (v : Word) :
    Makes (setInitiator r v : Setup M I Unit) [(r, v.toNat)] := makes_checked (computes_ok v) r

theorem makes_setSum (r : SplitRegister) (a b : Word) :
    Makes (setSum r a b : Setup M I Unit) [(r, a.toNat + b.toNat)] :=
  makes_checked (computes_add a b) r

theorem makes_setSum₃ (r : SplitRegister) (a b c : Word) :
    Makes (setSum₃ r a b c : Setup M I Unit) [(r, a.toNat + b.toNat + c.toNat)] := by
  have hsum : Computes (do let v ← Checked.add a b; Checked.add v c)
      (a.toNat + b.toNat + c.toNat) :=
    (computes_add a b).bind (fun v hv => hv ▸ computes_add v c) (Nat.le_add_right _ _)
  have hprogram : (setSum₃ r a b c : Setup M I Unit) =
      (do let v ← checked (do let v ← Checked.add a b; Checked.add v c); setInitiator r v) := by
    rw [setSum₃]
    cases Checked.add a b <;> rfl
  rw [hprogram]
  exact makes_checked hsum r

/-- Programs one after the other make their settings in that order. -/
theorem Makes.seq {x y : Setup M I Unit} {settings settings' : List Setting}
    (hx : Makes x settings) (hy : Makes y settings') :
    Makes (do x; y) (settings ++ settings') := fun f => by
  rcases hx f with ⟨hfits, hrun⟩ | ⟨done, s, rest, e, hsplit, hn, hrun⟩
  · rcases hy { f with initiator := store settings f.initiator } with
      ⟨hfits', hrun'⟩ | ⟨done, s, rest, e, hsplit, hn, hrun'⟩
    · refine .inl ⟨fun s hs => (List.mem_append.mp hs).elim (hfits s) (hfits' s), ?_⟩
      rw [bind_apply, hrun, store_append]
      exact hrun'
    · refine .inr ⟨settings ++ done, s, rest, e, by rw [hsplit, List.append_assoc], hn, ?_⟩
      rw [bind_apply, hrun, store_append]
      exact hrun'
  · refine .inr ⟨done, s, rest ++ settings', e, ?_, hn, ?_⟩
    · rw [hsplit, List.append_assoc, List.cons_append]
    · rw [bind_apply, hrun]

end Programs

/-! ## The settings of a mode -/

namespace Initiator

def registers : List SplitRegister :=
  [enable, hRes, hSyncStart, hSyncEnd, hScan, vRes, vSyncStart, vSyncEnd, vScan, base, length]

theorem registers_apart : ∀ r ∈ registers, ∀ s ∈ registers, s = r ∨
    r.first + r.count ≤ s.first ∨ s.first + s.count ≤ r.first := by decide

theorem registers_fit : ∀ r ∈ registers, r.count ≤ 8 ∧ r.first + r.count ≤ size := by decide

end Initiator

/-- Lengths and sync pulses. -/
def timings (t : VideoTiming) : List Setting :=
  [(Initiator.hRes, t.hActive.toNat),
    (Initiator.vRes, t.vActive.toNat),
    (Initiator.hSyncStart, t.hActive.toNat + t.hSyncOffset.toNat),
    (Initiator.hSyncEnd, t.hActive.toNat + t.hSyncOffset.toNat + t.hSyncWidth.toNat),
    (Initiator.hScan, t.hActive.toNat + t.hBlanking.toNat),
    (Initiator.vSyncStart, t.vActive.toNat + t.vSyncOffset.toNat),
    (Initiator.vSyncEnd, t.vActive.toNat + t.vSyncOffset.toNat + t.vSyncWidth.toNat),
    (Initiator.vScan, t.vActive.toNat + t.vBlanking.toNat)]

/-- What is to be fetched, with the initiator disabled. -/
def fetching (t : VideoTiming) (pixels : Word) : List Setting :=
  [(Initiator.enable, 0),
    (Initiator.base, pixels.toNat),
    (Initiator.length, 4 * t.hActive.toNat * t.vActive.toNat)]

def settings (t : VideoTiming) (pixels : Word) : List Setting :=
  timings t ++ fetching t pixels ++ [(Initiator.enable, 1)]

theorem fst_mem_registers (t : VideoTiming) (pixels : Word) :
    ∀ s ∈ settings t pixels, s.1 ∈ Initiator.registers := by
  simp [settings, timings, fetching, Initiator.registers]

/-- The numbers that overflow late are those that are not part of the refresh rate. -/
theorem settings_fit_iff (t : VideoTiming) (pixels : Word)
    (hwidth : t.hActive.toNat + t.hBlanking.toNat < 2 ^ 32)
    (hheight : t.vActive.toNat + t.vBlanking.toNat < 2 ^ 32) :
    (∀ s ∈ settings t pixels, s.2 < 2 ^ 32) ↔
      t.hActive.toNat + t.hSyncOffset.toNat + t.hSyncWidth.toNat < 2 ^ 32 ∧
      t.vActive.toNat + t.vSyncOffset.toNat + t.vSyncWidth.toNat < 2 ^ 32 ∧
      4 * t.hActive.toNat * t.vActive.toNat < 2 ^ 32 := by
  have hpixels := pixels.isLt
  simp only [settings, timings, fetching, List.cons_append, List.nil_append, List.forall_mem_cons,
    List.not_mem_nil, false_implies, implies_true, and_true]
  omega

/-- The words for the pixel clock of a mode. -/
def clockWords (t : VideoTiming) : List (Byte × Half) :=
  let r := Clock.search (10 * t.pixelClock.toNat)
  Clock.words (BitVec.ofNat 32 r.m) (BitVec.ofNat 32 r.d)

section Configure

variable {M I : Type} (t : VideoTiming) (pixels : Word)

section Initiator

variable [Bus I]

theorem makes_programTiming : Makes (programTiming t : Setup M I Unit) (timings t) :=
  (makes_set _ _).seq <| (makes_set _ _).seq <| (makes_setSum _ _ _).seq <|
    (makes_setSum₃ _ _ _ _).seq <| (makes_setSum _ _ _).seq <| (makes_setSum _ _ _).seq <|
    (makes_setSum₃ _ _ _ _).seq <| makes_setSum _ _ _

/-- What is left to do once the pixel clock is there. -/
def programInitiator : Setup M I Unit := do
  programTiming t
  setInitiator Initiator.enable 0
  setInitiator Initiator.base pixels
  let size ← checked t.frameSize
  setInitiator Initiator.length size
  setInitiator Initiator.enable 1

theorem makes_programInitiator :
    Makes (programInitiator t pixels : Setup M I Unit) (settings t pixels) := by
  have hlength : Makes (do
      let size ← checked t.frameSize
      setInitiator Initiator.length size
      setInitiator Initiator.enable 1 : Setup M I Unit)
      [(Initiator.length, 4 * t.hActive.toNat * t.vActive.toNat), (Initiator.enable, 1)] := by
    rw [← bind_assoc]
    exact (makes_checked t.computes_frameSize _).seq (makes_set _ _)
  exact (makes_programTiming t).seq <| (makes_set _ _).seq <| (makes_set _ _).seq hlength

end Initiator

variable [Bus M] [PortView M] [LawfulPort M]

theorem forM_programWord (ws : List (Byte × Half)) (f : Framebuffer M I) :
    ∃ f', ws.forM programWord f = .ok () f' ∧ f'.initiator = f.initiator ∧
      taken f'.manager = taken f.manager ++ ws := by
  induction ws generalizing f with
  | nil => exact ⟨f, rfl, rfl, (List.append_nil _).symm⟩
  | cons w ws ih =>
    obtain ⟨hready, htaken⟩ := taken_writeManager w f.manager
    obtain ⟨f', hrun, hinitiator, hrest⟩ := ih { f with manager := (writeManager w f.manager).2 }
    refine ⟨f', ?_, hinitiator, ?_⟩
    · have hword : programWord w f = .ok () { f with manager := (writeManager w f.manager).2 } := by
        change checked (if (writeManager w f.manager).1 then _ else _) _ = _
        rw [if_pos hready]
        rfl
      have hstep : (w :: ws).forM programWord f =
          (do programWord w; ws.forM programWord : Setup M I Unit) f := rfl
      rw [hstep, bind_apply, hword]
      exact hrun
    · rw [hrest, htaken, List.append_assoc, List.singleton_append]

theorem programClock_ok (f : Framebuffer M I) (hclock : 10 * t.pixelClock.toNat < 2 ^ 32) :
    ∃ f', programClock t f = .ok () f' ∧ f'.initiator = f.initiator ∧
      taken f'.manager = taken f.manager ++ clockWords t := by
  have hfrequency : Checked.mul 10 t.pixelClock = .ok (BitVec.ofNat 32 (10 * t.pixelClock.toNat)) :=
    (computes_mul 10 t.pixelClock).eq_ok hclock
  have hsearched : (BitVec.ofNat 32 (10 * t.pixelClock.toNat)).toNat = 10 * t.pixelClock.toNat :=
    toNat_ofNat_of_lt hclock
  obtain ⟨f', hrun, hf'⟩ := forM_programWord (clockWords t)
    { f with log := f.log ++ [⟨.debug, "litex_framebuffer", _⟩] }
  refine ⟨f', ?_, hf'⟩
  rw [programClock, hfrequency]
  simp only [bind_apply, checked, record, hsearched]
  exact hrun

/-- Once there is a refresh rate, the pixel clock is programmed, and then the initiator. -/
theorem configure_of_refreshRate [Bus I] (f : Framebuffer M I) (hrate : ∃ v, t.refreshRate = .ok v) :
    ∃ clocked : Framebuffer M I, clocked.initiator = f.initiator ∧
      taken clocked.manager = taken f.manager ++ clockWords t ∧
      configure t pixels f = programInitiator t pixels clocked := by
  obtain ⟨hclock, -⟩ := t.exists_refreshRate_iff.mp hrate
  obtain ⟨rate, hrate⟩ := hrate
  obtain ⟨clocked, hclocked, hinitiator, htaken⟩ := programClock_ok t
    { f with log := f.log ++ [⟨.info, "litex_framebuffer", announcement t rate⟩] } (by omega)
  refine ⟨clocked, hinitiator, htaken, ?_⟩
  rw [configure, hrate, bind_apply]
  simp only [checked, bind_apply, record, hclocked]
  rfl

/-- Programming a mode comes to its end with all settings made, or stops after some of those before
the last one. -/
theorem configure_cases [Bus I] (f : Framebuffer M I) :
    t.Fits ∧ (∃ f', configure t pixels f = .ok () f' ∧
      f'.initiator = store (settings t pixels) f.initiator ∧
      taken f'.manager = taken f.manager ++ clockWords t) ∨
    ¬t.Fits ∧ ∃ e f' done, configure t pixels f = .error e f' ∧
      f'.initiator = store done f.initiator ∧ ∀ s ∈ done, s ∈ timings t ++ fetching t pixels := by
  by_cases hrate : ∃ v, t.refreshRate = .ok v
  · obtain ⟨clocked, hinitiator, htaken, hconfigure⟩ := configure_of_refreshRate t pixels f hrate
    obtain ⟨hclock, hwidth, hheight, harea, hframe⟩ := t.exists_refreshRate_iff.mp hrate
    have hfits_iff := settings_fit_iff t pixels hwidth hheight
    rw [hconfigure, ← hinitiator]
    rcases makes_programInitiator t pixels clocked with
      ⟨hfits, hrun⟩ | ⟨done, s, rest, e, hsplit, hn, hrun⟩
    · obtain ⟨hhsync, hvsync, hsize⟩ := hfits_iff.mp hfits
      exact .inl ⟨⟨hclock, hwidth, hheight, harea, hframe, hhsync, hvsync, hsize⟩, _, hrun, rfl,
        htaken⟩
    · refine .inr ⟨fun h => ?_, e, _, done, hrun, rfl, fun s' hs' => ?_⟩
      · have hs : s ∈ settings t pixels := by simp [hsplit]
        exact absurd (hfits_iff.mpr ⟨h.hSync, h.vSync, h.frame⟩ s hs) (Nat.not_lt.mpr hn)
      · have hbefore : timings t ++ fetching t pixels = done ++ (s :: rest).dropLast := by
          rw [← List.dropLast_append_cons, ← hsplit, settings, List.dropLast_concat]
        rw [hbefore]
        exact List.mem_append_left _ hs'
  · refine .inr ⟨fun h => hrate (t.exists_refreshRate_iff.mpr
      ⟨h.clock, h.width, h.height, h.area, h.nonempty⟩), ?_⟩
    cases hx : t.refreshRate with
    | ok v => exact absurd ⟨v, hx⟩ hrate
    | error e =>
      refine ⟨e, f, [], ?_, rfl, nofun⟩
      rw [configure, hx]
      rfl

end Configure

/-! ## What the initiator holds afterwards -/

section Afterwards

variable {I : Type} [Bus I] [PlainWords I] (t : VideoTiming) (pixels : Word)

/-- Each register of the initiator is read as what was last set for it. -/
theorem toNat_read_store {r : SplitRegister} (hr : r ∈ Initiator.registers) (made : List Setting)
    (hmade : ∀ s ∈ made, s ∈ settings t pixels) (d : I)
    (hsize : (PlainWords.words d).words.length = Initiator.size) :
    (r.read (store made d)).1.toNat =
      ((lastFor r made).map (· % 256 ^ r.count)).getD (r.held d) := by
  obtain ⟨hcount, hfits⟩ := Initiator.registers_fit r hr
  rw [SplitRegister.toNat_read _ _ hcount]
  exact held_store made d hcount (hsize ▸ hfits) fun s hs =>
    Initiator.registers_apart r hr s.1 (fst_mem_registers t pixels s (hmade s hs))

/-- A word of a register is only written by setting that register. -/
theorem fst_eq_of_covers {r : SplitRegister} (hr : r ∈ Initiator.registers) {s : Setting}
    (hs : s ∈ settings t pixels) {v : DoubleWord} {w : Nat × Word} (hw : w ∈ s.1.busWrites v)
    (hcovers : r.Covers w.1) : s.1 = r := by
  obtain ⟨i, hi, rfl⟩ := SplitRegister.mem_busWrites.mp hw
  obtain ⟨hfirst, hlast⟩ := hcovers
  refine (Initiator.registers_apart r hr s.1 (fst_mem_registers t pixels s hs)).resolve_right ?_
  dsimp only at hfirst hlast
  omega

theorem timings_ne : ∀ r ∈ [Initiator.enable, Initiator.base, Initiator.length],
    ∀ s ∈ timings t, s.1 ≠ r := by
  simp [timings]
  decide

/-- Before the last setting, the initiator is at most disabled. -/
theorem eq_zero_of_enable {n : Nat} (h : (Initiator.enable, n) ∈ timings t ++ fetching t pixels) :
    n = 0 := by
  rcases List.mem_append.mp h with h | h
  · exact absurd rfl (timings_ne t _ (by simp) _ h)
  · simpa [fetching, Initiator.enable, Initiator.base, Initiator.length] using h

end Afterwards

/-! ## Whole or not started -/

section Main

variable {M I : Type} [PortView M] [Bus I] [PlainWords I] (t : VideoTiming) (pixels : Word)

/-- The mode is programmed as a whole. -/
structure Programmed (f f' : Framebuffer M (Recorder I)) : Prop where
  timing : ∀ s ∈ timings t, (s.1.read f'.initiator).1.toNat = s.2 % 2 ^ 16
  base : (Initiator.base.read f'.initiator).1.toNat = pixels.toNat
  length : (Initiator.length.read f'.initiator).1.toNat = 4 * t.hActive.toNat * t.vActive.toNat
  enabled : (Initiator.enable.read f'.initiator).1 = 1
  /-- Base and length were written between the write that disables and the one that enables. -/
  order : ∃ before, f'.initiator.writes = f.initiator.writes ++ before ++
      Initiator.enable.busWrites 0 ++
      Initiator.base.busWrites (pixels.setWidth 64) ++
      Initiator.length.busWrites (BitVec.ofNat 64 (4 * t.hActive.toNat * t.vActive.toNat)) ++
      Initiator.enable.busWrites 1 ∧
    ∀ r ∈ [Initiator.enable, Initiator.base, Initiator.length], ∀ w ∈ before, ¬r.Covers w.1
  clock : taken f'.manager = taken f.manager ++ clockWords t

/-- Fetching has not been started. -/
structure NotStarted (f f' : Framebuffer M (Recorder I)) : Prop where
  enable : (Initiator.enable.read f'.initiator).1 = (Initiator.enable.read f.initiator).1 ∨
    (Initiator.enable.read f'.initiator).1 = 0
  writes : ∃ ws, f'.initiator.writes = f.initiator.writes ++ ws ∧
    ∀ w ∈ ws, Initiator.enable.Covers w.1 → w.2 = 0

theorem programmed_of_store {f f' : Framebuffer M (Recorder I)} (h : t.Fits)
    (hsize : (PlainWords.words f.initiator).words.length = Initiator.size)
    (hinitiator : f'.initiator = store (settings t pixels) f.initiator)
    (htaken : taken f'.manager = taken f.manager ++ clockWords t) : Programmed t pixels f f' := by
  have hread (r : SplitRegister) (n : Nat) (hr : r ∈ Initiator.registers)
      (hlast : lastFor r (settings t pixels) = some n) :
      (r.read f'.initiator).1.toNat = n % 256 ^ r.count := by
    rw [hinitiator, toNat_read_store t pixels hr _ (fun _ hs => hs) _ hsize, hlast]
    rfl
  refine {
    timing := fun s hs => ?_
    base := (hread Initiator.base _ (by decide) rfl).trans (Nat.mod_eq_of_lt pixels.isLt)
    length := (hread Initiator.length _ (by decide) rfl).trans (Nat.mod_eq_of_lt h.frame)
    enabled := BitVec.eq_of_toNat_eq (hread Initiator.enable _ (by decide) rfl)
    order := ⟨(timings t).flatMap fun s => s.1.busWrites (BitVec.ofNat 64 s.2), ?_, ?_⟩
    clock := htaken }
  · have hcount : (timings t).map (fun s => s.1.count) = List.replicate 8 2 := rfl
    have hlast : (timings t).map (fun s => lastFor s.1 (settings t pixels)) =
        (timings t).map (fun s => some s.2) := rfl
    have htwo : s.1.count = 2 := List.eq_of_mem_replicate (hcount ▸ List.mem_map_of_mem hs)
    have hr := fst_mem_registers t pixels s (by simp [settings, hs])
    rw [hread s.1 s.2 hr (List.map_inj_left.mp hlast s hs), htwo]
    rfl
  · rw [hinitiator, writes_store, settings, fetching]
    simp
  · intro r hr w hw hcovers
    obtain ⟨s, hs, hw⟩ := List.mem_flatMap.mp hw
    have hregisters : ∀ r ∈ [Initiator.enable, Initiator.base, Initiator.length],
        r ∈ Initiator.registers := by decide
    exact timings_ne t r hr s hs
      (fst_eq_of_covers t pixels (hregisters r hr) (by simp [settings, hs]) hw hcovers)

omit [PortView M] in
theorem notStarted_of_store {f f' : Framebuffer M (Recorder I)} {done : List Setting}
    (hsize : (PlainWords.words f.initiator).words.length = Initiator.size)
    (hinitiator : f'.initiator = store done f.initiator)
    (hdone : ∀ s ∈ done, s ∈ timings t ++ fetching t pixels) : NotStarted f f' := by
  have hsettings : ∀ s ∈ done, s ∈ settings t pixels := fun s hs =>
    List.mem_append_left _ (hdone s hs)
  have henable : Initiator.enable ∈ Initiator.registers := by decide
  refine ⟨?_, done.flatMap fun s => s.1.busWrites (BitVec.ofNat 64 s.2), ?_, fun w hw hcovers => ?_⟩
  · have hread := toNat_read_store t pixels henable done hsettings f.initiator hsize
    rw [hinitiator]
    cases hlast : lastFor Initiator.enable done with
    | none =>
      rw [hlast, ← SplitRegister.toNat_read _ _ (by decide)] at hread
      exact .inl (BitVec.eq_of_toNat_eq hread)
    | some n =>
      have hn : n = 0 := eq_zero_of_enable t pixels (hdone _ (mem_of_lastFor hlast))
      rw [hlast, hn] at hread
      exact .inr (BitVec.eq_of_toNat_eq hread)
  · rw [hinitiator, writes_store]
  · obtain ⟨⟨r, n⟩, hs, hw⟩ := List.mem_flatMap.mp hw
    obtain rfl : r = Initiator.enable :=
      fst_eq_of_covers t pixels henable (hsettings _ hs) hw hcovers
    obtain ⟨i, hi, rfl⟩ := SplitRegister.mem_busWrites.mp hw
    rw [eq_zero_of_enable t pixels (hdone _ hs)]
    exact SplitRegister.byteWord_zero _

/-- A mode is programmed as a whole, or fetching is not started. It is refused exactly if one of the
numbers that are computed for it does not fit into a word, or if its frame is empty. Otherwise the
timings, the base and the length are as they should be, the latter two written while nothing was
fetched, the clock manager has taken the words for the pixel clock in order, and then the initiator
is enabled. -/
theorem configure_whole_or_stopped [Bus M] [LawfulPort M] (f : Framebuffer M (Recorder I))
    (hsize : (PlainWords.words f.initiator).words.length = Initiator.size) :
    ((∃ e f', configure t pixels f = .error e f') ↔
      2 ^ 32 ≤ t.pixelClock.toNat * 10000 ∨
      2 ^ 32 ≤ t.hActive.toNat + t.hBlanking.toNat ∨
      2 ^ 32 ≤ t.vActive.toNat + t.vBlanking.toNat ∨
      2 ^ 32 ≤ (t.hActive.toNat + t.hBlanking.toNat) * (t.vActive.toNat + t.vBlanking.toNat) ∨
      (t.hActive.toNat + t.hBlanking.toNat) * (t.vActive.toNat + t.vBlanking.toNat) = 0 ∨
      2 ^ 32 ≤ t.hActive.toNat + t.hSyncOffset.toNat + t.hSyncWidth.toNat ∨
      2 ^ 32 ≤ t.vActive.toNat + t.vSyncOffset.toNat + t.vSyncWidth.toNat ∨
      2 ^ 32 ≤ 4 * t.hActive.toNat * t.vActive.toNat) ∧
    (∀ f', configure t pixels f = .ok () f' → Programmed t pixels f f') ∧
    (∀ e f', configure t pixels f = .error e f' → NotStarted f f') := by
  rw [← t.not_fits_iff]
  rcases configure_cases t pixels f with
    ⟨hfits, f₁, hrun, hinitiator, htaken⟩ | ⟨hfits, e, f₁, done, hrun, hinitiator, hdone⟩
  · refine ⟨iff_of_false (fun ⟨e, f', h⟩ => ?_) (not_not_intro hfits), fun f' h => ?_,
      fun e f' h => ?_⟩
    · rw [hrun] at h
      exact nomatch h
    · rw [hrun] at h
      cases h
      exact programmed_of_store t pixels hfits hsize hinitiator htaken
    · rw [hrun] at h
      exact nomatch h
  · refine ⟨iff_of_true ⟨e, f₁, hrun⟩ hfits, fun f' h => ?_, fun e' f' h => ?_⟩
    · rw [hrun] at h
      exact nomatch h
    · rw [hrun] at h
      cases h
      exact notStarted_of_store t pixels hsize hinitiator hdone

end Main

/-- The usual mode, on a port that is busy for a while, and one whose frame does not fit. -/
theorem configure_whole_or_stopped_vga75 :
    let f : Framebuffer SlowPort (Recorder Block) :=
      ⟨⟨fun _ => 0xff, [], 0, fun n => 3 + n⟩, ⟨⟨List.replicate 25 0x1ff⟩, []⟩, []⟩
    let large : VideoTiming := { VideoTiming.vga75 with hActive := 0x8000, vActive := 0x8000 }
    (∃ f', configure VideoTiming.vga75 pixelBase f = .ok () f' ∧
      (Initiator.hSyncEnd.read f'.initiator).1.toNat = 720 ∧
      (Initiator.length.read f'.initiator).1.toNat = 1228800 ∧
      (Initiator.enable.read f'.initiator).1 = 1 ∧
      f'.manager.taken = [(0x14, 0x17e0), (0x16, 0x028a), (0x08, 0x1145), (0x0a, 0x1041)]) ∧
    ∃ e f', configure large pixelBase f = .error e f' ∧ NotStarted f f' := by
  intro f large
  constructor
  · obtain ⟨hrefused, hwhole, -⟩ := configure_whole_or_stopped VideoTiming.vga75 pixelBase f rfl
    cases hrun : configure VideoTiming.vga75 pixelBase f with
    | error e f' => exact absurd (hrefused.mp ⟨e, f', hrun⟩) (by decide)
    | ok _ f' =>
      have hmode := hwhole f' hrun
      have hratio : Clock.search (10 * VideoTiming.vga75.pixelClock.toNat) = ⟨63, 20⟩ :=
        Clock.search_vga
      have hclock := hmode.clock
      rw [clockWords, hratio] at hclock
      exact ⟨f', rfl, hmode.timing (Initiator.hSyncEnd, 640 + 16 + 64) (by decide), hmode.length,
        hmode.enabled, hclock⟩
  · obtain ⟨hrefused, -, hstopped⟩ := configure_whole_or_stopped large pixelBase f rfl
    obtain ⟨e, f', hrun⟩ := hrefused.mpr (by decide)
    exact ⟨e, f', hrun, hstopped e f' hrun⟩

end Framebuffer

end TrapMonitor
