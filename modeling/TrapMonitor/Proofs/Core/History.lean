import TrapMonitor.Proofs.Core.Barrier

/-! # What a run of code did

Besides the core that it ends with, a run has a history: the instructions that were executed, each
with the core that it was executed on. The history of a barrier holds one access to memory, and no
trap unless that access is refused.
-/
namespace TrapMonitor

namespace Instr

def isAccess : Instr → Bool
  | load _ _ _ _ => true
  | store _ _ _ _ => true
  | _ => false

/-- The instruction makes no access and is never refused. -/
def quiet : Instr → Bool
  | load _ _ _ _ => false
  | store _ _ _ _ => false
  | csrExchange _ s _ => !s.isPmp
  | csrRead _ s => !s.isPmp
  | csrWrite s _ => !s.isPmp
  | csrSet s _ => !s.isPmp
  | csrClear s _ => !s.isPmp
  | _ => true

theorem isAccess_of_quiet {i : Instr} (hi : i.quiet = true) : i.isAccess = false := by
  cases i with
  | load w rd offset base | store w rs offset base => cases hi
  | _ => rfl

end Instr

namespace Core

/-! ## Refusals -/

/-- The fault of an access to address `a`. -/
def faultAt {α : Type} (a : Word) : Except Word α → Option AccessFault
  | .ok _ => none
  | .error cause => some ⟨a, cause⟩

/-- A register that the core does not have is refused as an illegal instruction. -/
def csrRefusal (c : Core) (s : SystemCsr) : Option AccessFault :=
  if c.lacks s then some ⟨0, 2⟩ else none

/-- What an instruction is refused with, if it is: the cause, and the value that comes with it. -/
def refusal (c : Core) : Instr → Option AccessFault
  | .load w _ offset base => faultAt (c.reg base + offset) (c.load w (c.reg base + offset)).1
  | .store w rs offset base =>
    faultAt (c.reg base + offset) (c.storeTo w (c.reg base + offset) (c.reg rs)).1
  | .csrExchange _ s _ => c.csrRefusal s
  | .csrRead _ s => c.csrRefusal s
  | .csrWrite s _ => c.csrRefusal s
  | .csrSet s _ => c.csrRefusal s
  | .csrClear s _ => c.csrRefusal s
  | _ => none

theorem refusal_of_quiet {i : Instr} (hi : i.quiet = true) (c : Core) : c.refusal i = none := by
  cases i with
  | load w rd offset base | store w rs offset base => cases hi
  | csrExchange rd s rs | csrRead rd s | csrWrite s rs | csrSet s rs | csrClear s rs =>
    have hp : s.isPmp = false := by simpa [Instr.quiet] using hi
    simp only [refusal, csrRefusal, c.lacks_of_not_isPmp hp, Bool.false_eq_true, if_false]
  | _ => rfl

theorem accessCsr_of_refused {c : Core} {s : SystemCsr} {fault : AccessFault}
    (h : c.csrRefusal s = some fault) (i : Instr) (f : Core → Core) :
    c.accessCsr i s f = c.trap fault.cause fault.address := by
  unfold csrRefusal at h
  unfold accessCsr
  split at h
  · next hp =>
    cases h
    exact if_pos hp
  · cases h

theorem accessCsr_of_allowed {c : Core} {s : SystemCsr} (h : c.csrRefusal s = none) (i : Instr)
    (f : Core → Core) : c.accessCsr i s f = (f c).advance i := by
  unfold csrRefusal at h
  unfold accessCsr
  split at h
  · cases h
  · next hp => exact if_neg hp

theorem eq_of_load {w : Width} {a : Word} {c d : Core} {x : Except Word Word}
    (h : c.load w a = (x, d)) : d = { c with trace := d.trace } := by
  have hsnd := load_snd w a c
  rw [h] at hsnd
  exact hsnd

/-- A store that is refused changes nothing but the record. -/
theorem eq_of_storeTo_error {w : Width} {a v cause : Word} {c d : Core}
    (h : c.storeTo w a v = (.error cause, d)) : d = { c with trace := d.trace } := by
  unfold storeTo at h
  split at h
  · cases h
  · dsimp only at h
    split at h
    · cases h
    · cases h
      rfl

/-- A refused instruction is a trap. -/
theorem step_of_refusal {c : Core} {i : Instr} {f : AccessFault} (h : c.refusal i = some f) :
    ∃ trace, c.step i = .next ({ c with trace := trace }.trap f.cause f.address) := by
  cases i with
  | load w rd offset base =>
    simp only [refusal] at h
    cases hl : c.load w (c.reg base + offset) with
    | mk x d =>
    rw [hl] at h
    cases x with
    | ok v => cases h
    | error cause =>
      cases h
      refine ⟨d.trace, ?_⟩
      simp only [step, stepLoad, hl]
      exact congrArg (fun e => Step.next (e.trap cause (c.reg base + offset))) (eq_of_load hl)
  | store w rs offset base =>
    simp only [refusal] at h
    cases hl : c.storeTo w (c.reg base + offset) (c.reg rs) with
    | mk x d =>
    rw [hl] at h
    cases x with
    | ok v => cases h
    | error cause =>
      cases h
      refine ⟨d.trace, ?_⟩
      simp only [step, stepStore, hl]
      exact congrArg (fun e => Step.next (e.trap cause (c.reg base + offset)))
        (eq_of_storeTo_error hl)
  | csrExchange rd s rs | csrRead rd s | csrWrite s rs | csrSet s rs | csrClear s rs =>
    exact ⟨c.trace, congrArg Step.next (accessCsr_of_refused h _ _)⟩
  | _ => cases h

@[simp] theorem pc_setReg (c : Core) (r : Reg) (v : Word) : (c.setReg r v).pc = c.pc := by
  unfold setReg
  split <;> rfl

theorem pc_advance (c : Core) (i : Instr) : (c.advance i).pc = c.pc + i.size := rfl

/-- An instruction that is not refused leads to the one behind it, unless it leaves the code. -/
theorem pc_of_step {c d : Core} {i : Instr} (h : c.refusal i = none) (hs : c.step i = .next d) :
    d.pc = c.pc + i.size := by
  cases i with
  | load w rd offset base =>
    simp only [refusal] at h
    simp only [step, stepLoad] at hs
    cases hl : c.load w (c.reg base + offset) with
    | mk x e =>
    rw [hl] at h hs
    have hpc : e.pc = c.pc := by rw [eq_of_load hl]
    cases x with
    | error cause => cases h
    | ok v =>
      cases hs
      rw [pc_advance, pc_setReg, hpc]
  | store w rs offset base =>
    simp only [refusal] at h
    simp only [step, stepStore] at hs
    have hsnd := storeTo_snd w (c.reg base + offset) (c.reg rs) c
    have hkept := congrArg Core.pc hsnd
    cases hl : c.storeTo w (c.reg base + offset) (c.reg rs) with
    | mk x e =>
    rw [hl] at h hs hkept
    have hpc : e.pc = c.pc := hkept
    cases x with
    | error cause => cases h
    | ok v =>
      cases hs
      rw [pc_advance, hpc]
  | csrExchange rd s rs | csrRead rd s | csrWrite s rs | csrSet s rs | csrClear s rs =>
    rw [step, accessCsr_of_allowed h] at hs
    cases hs
    simp [pc_advance, setCsr]
  | loadAddress rd a | loadImmediate rd a | move rd a =>
    cases hs
    rw [pc_advance, pc_setReg]
  | call target | jump target => cases hs
  | mret => cases hs

end Core

/-! ## Histories -/

namespace Code

/-- The instructions that a run executes, each with the core before it. -/
def historyFor (code : Code) : Nat → Core → List (Core × Instr)
  | 0, _ => []
  | fuel + 1, c =>
    match code.at? c.pc with
    | none => []
    | some i => (c, i) :: match c.step i with
      | .next d => code.historyFor fuel d
      | _ => []

def history (code : Code) (c : Core) : List (Core × Instr) :=
  code.historyFor (passes * (code.body.length + 1)) c

theorem historyFor_next {code : Code} {n : Nat} {c d : Core} {i : Instr}
    (hi : code.at? c.pc = some i) (hs : c.step i = .next d) :
    code.historyFor (n + 1) c = (c, i) :: code.historyFor n d := by
  simp only [historyFor, hi, hs]

theorem mem_of_find {pc a : Word} {is : List Instr} {i : Instr} (h : find pc a is = some i) :
    i ∈ is := by
  induction is generalizing a with
  | nil => cases h
  | cons j rest ih =>
    unfold find at h
    split at h
    · cases h
      exact List.mem_cons_self ..
    · exact List.mem_cons_of_mem j (ih h)

/-- What every instruction of the code preserves holds at each step of a run. -/
theorem historyFor_keeps {code : Code} {P : Core → Prop}
    (hP : ∀ i ∈ code.body, ∀ c d, P c → c.step i = .next d → P d) (n : Nat) {c : Core} (hc : P c) :
    ∀ x ∈ code.historyFor n c, P x.1 ∧ x.2 ∈ code.body := by
  induction n generalizing c with
  | zero => nofun
  | succ n ih =>
    intro x hx
    unfold historyFor at hx
    cases hi : code.at? c.pc with
    | none =>
      rw [hi] at hx
      cases hx
    | some i =>
      rw [hi] at hx
      have hmem : i ∈ code.body := mem_of_find hi
      rcases List.mem_cons.mp hx with rfl | hx
      · exact ⟨hc, hmem⟩
      · cases hs : c.step i with
        | next d =>
          rw [hs] at hx
          exact ih (hP i hmem c d hc hs) x hx
        | called target d | jumped target d | returned d =>
          rw [hs] at hx
          cases hx

/-- A run that returns does so with its last instruction. -/
theorem exists_mem_historyFor {code : Code} {n : Nat} {c d : Core}
    (h : code.runFor n c = (.returned, d)) :
    ∃ x ∈ code.historyFor n c, x.1.step x.2 = .returned d := by
  induction n generalizing c with
  | zero => cases h
  | succ n ih =>
    unfold runFor at h
    unfold historyFor
    cases hi : code.at? c.pc with
    | none =>
      rw [hi] at h
      cases h
    | some i =>
      rw [hi] at h
      dsimp only at h ⊢
      cases hs : c.step i with
      | next e =>
        rw [hs] at h
        obtain ⟨x, hx, hstep⟩ := ih h
        exact ⟨x, List.mem_cons_of_mem _ hx, hstep⟩
      | returned e =>
        rw [hs] at h
        cases h
        exact ⟨(c, i), List.mem_cons_self .., hs⟩
      | called target e | jumped target e =>
        rw [hs] at h
        cases h

/-- The accesses in a history. -/
def accesses (l : List (Core × Instr)) : List (Core × Instr) := l.filter fun x => x.2.isAccess

/-- The traps in a history. -/
def refusals (l : List (Core × Instr)) : List AccessFault := l.filterMap fun x => x.1.refusal x.2

theorem accesses_of_quiet {l : List (Core × Instr)} (h : ∀ x ∈ l, x.2.quiet = true) :
    accesses l = [] := by
  apply List.filter_eq_nil_iff.mpr
  intro x hx
  rw [Instr.isAccess_of_quiet (h x hx)]
  decide

theorem refusals_of_quiet {l : List (Core × Instr)} (h : ∀ x ∈ l, x.2.quiet = true) :
    refusals l = [] := by
  apply List.filterMap_eq_nil_iff.mpr
  intro x hx
  exact x.1.refusal_of_quiet (h x hx)

end Code

/-- A line of quiet instructions leaves quiet entries in the history. -/
theorem Line.historyFor {code : Code} {c d : Core} {is : List Instr} (h : Line c is d)
    (hat : code.At c.pc is) (hq : ∀ i ∈ is, i.quiet = true) (n : Nat) :
    ∃ l, code.historyFor (n + is.length) c = l ++ code.historyFor n d ∧
      ∀ x ∈ l, x.2.quiet = true := by
  induction h with
  | nil c => exact ⟨[], rfl, by simp⟩
  | @cons c d e i rest hs hpc _ ih =>
    obtain ⟨l, hl, hquiet⟩ := ih (hpc ▸ hat.2) fun j hj => hq j (List.mem_cons_of_mem i hj)
    refine ⟨(c, i) :: l, ?_, ?_⟩
    · rw [List.length_cons, ← Nat.add_assoc, Code.historyFor_next hat.1 hs, hl, List.cons_append]
    · intro x hx
      rcases List.mem_cons.mp hx with rfl | hx
      · exact hq i (List.mem_cons_self ..)
      · exact hquiet x hx

/-! ## The history of a barrier -/

namespace Core

open Barrier

variable {w : Width} {k : AccessKind} {inputs : List (Reg × Word)} {c e : Core}

theorem quiet_before : ∀ i ∈ before, i.quiet = true := by decide

theorem quiet_after : ∀ i ∈ after, i.quiet = true := by decide

/-- Around its access, a block is quiet. -/
theorem history_body (hs : (armed inputs c).step (instr w k) = .next e)
    (hpc : e.pc = blockBase + 0x1c ∨ e.pc = label) :
    ∃ front rest, (block (body w k)).history (c.enterBlock inputs) =
        front ++ (armed inputs c, instr w k) :: rest ∧
      (∀ x ∈ front, x.2.quiet = true) ∧ ∀ x ∈ rest, x.2.quiet = true := by
  have hfuel : (block (body w k)).history (c.enterBlock inputs) =
      (block (body w k)).historyFor (35 + before.length) (c.enterBlock inputs) := by
    cases w <;> cases k <;> rfl
  obtain ⟨front, hfront, hquiet⟩ :=
    (line_before inputs c).historyFor (at_before w k) quiet_before 35
  have hend (n : Nat) (d : Core) : (block (body w k)).historyFor (n + 1) (disarmed d) = [] := by
    have hleft : (block (body w k)).at? (disarmed d).pc = none := by
      cases w <;> cases k <;> rfl
    rw [Code.historyFor, hleft]
  have hrest : ∃ rest, (block (body w k)).historyFor 34 e = rest ∧
      ∀ x ∈ rest, x.2.quiet = true := by
    rcases hpc with hpass | hskip
    · have hat : (block (body w k)).At e.pc after := by
        rw [hpass]
        exact at_after w k
      obtain ⟨rest, hrest, hq⟩ := (line_after hpass).historyFor hat quiet_after 31
      rw [hend, List.append_nil] at hrest
      exact ⟨rest, hrest, hq⟩
    · have hat : (block (body w k)).At e.pc after.tail := by
        rw [hskip]
        exact (at_after w k).2
      have htail : ∀ i ∈ after.tail, i.quiet = true :=
        fun i hi => quiet_after i (List.mem_of_mem_tail hi)
      obtain ⟨rest, hrest, hq⟩ := (line_label hskip).historyFor hat htail 32
      rw [hend, List.append_nil] at hrest
      exact ⟨rest, hrest, hq⟩
  obtain ⟨rest, hrest, hq⟩ := hrest
  refine ⟨front, rest, ?_, hquiet, hq⟩
  rw [hfuel, hfront, Code.historyFor_next (at_instr w k inputs c) hs, hrest]

/-- A block makes one access and takes no trap but that of the access. -/
theorem accesses_body (hs : (armed inputs c).step (instr w k) = .next e)
    (hpc : e.pc = blockBase + 0x1c ∨ e.pc = label) :
    Code.accesses ((block (body w k)).history (c.enterBlock inputs)) =
        [(armed inputs c, instr w k)] ∧
      Code.refusals ((block (body w k)).history (c.enterBlock inputs)) =
        ((armed inputs c).refusal (instr w k)).toList := by
  obtain ⟨front, rest, hall, hfront, hrest⟩ := history_body hs hpc
  have haccess : (instr w k).isAccess = true := by cases k <;> rfl
  rw [hall]
  constructor
  · have h₁ := Code.accesses_of_quiet hfront
    have h₂ := Code.accesses_of_quiet hrest
    unfold Code.accesses at *
    rw [List.filter_append, h₁, List.filter_cons, if_pos haccess, h₂, List.nil_append]
  · have h₁ := Code.refusals_of_quiet hfront
    have h₂ := Code.refusals_of_quiet hrest
    unfold Code.refusals at *
    rw [List.filterMap_append, h₁, List.filterMap_cons, h₂, List.nil_append]
    cases (armed inputs c).refusal (instr w k) <;> rfl

end Core

end TrapMonitor
