import TrapMonitor.Proofs.Hart.Accesses
import TrapMonitor.Trap

/-! # The phases of an emulation

Handling an exception is four steps in a row: obtain the instruction word, decode it, move the
operands, and complete the operation. Only the first and the third touch memory and can fault,
only the second refuses, and only the last writes registers or uses a device. `emulate_eq` puts an
emulation together from its phases; everything else about emulations is read off from there.
-/
namespace TrapMonitor

open Hart

variable {H P F : Type} [Hart H] [Platform P] [FrameStore H F]

namespace TrapState

/-- The word that is decoded; no word is read for a call. -/
def instructionWord (s : TrapState) (e : Exception) : HartAccess H Word :=
  match e with
  | .loadAddressMisaligned | .storeAddressMisaligned => fetch s.mepc
  | .illegalInstruction => if s.mbadaddr ≠ 0 then pure s.mbadaddr else fetch s.mepc
  | _ => pure 0

theorem instructionWord_of_ne_zero {s : TrapState} (h : s.mbadaddr ≠ 0) :
    (s.instructionWord .illegalInstruction : HartAccess H Word) = pure s.mbadaddr := if_pos h

theorem instructionWord_of_eq_zero {s : TrapState} (h : s.mbadaddr = 0) :
    (s.instructionWord .illegalInstruction : HartAccess H Word) = fetch s.mepc :=
  if_neg fun hne => hne h

/-- What the instruction `w` asks for, or the call with this number. -/
def decode (s : TrapState) (e : Exception) (number w : Word) : Except Unsupported Operation :=
  match e with
  | .loadAddressMisaligned => Operation.ofLoad ⟨w⟩ s.mbadaddr
  | .storeAddressMisaligned => Operation.ofStore ⟨w⟩ s.mbadaddr
  | .illegalInstruction => Operation.ofIllegal ⟨w⟩
  | .supervisorCall => (SbiCall.ofNumber number).map .sbi
  | e => .error (.exception e.code)

end TrapState

namespace Machine

open Emulation

/-- The accesses that an operation makes. The value is what was loaded. -/
def operand (m : Machine H P F) : Operation → HartAccess H Word
  | .unalignedLoad kind _ a => readUnaligned a kind.size
  | .unalignedStore kind src a => do
    writeUnaligned a kind.size (m.register src)
    return 0
  | .atomic op _ addr src => do
    let old ← readWord (m.register addr)
    match op.apply (m.register src) old with
    | some new =>
      writeWord (m.register addr) new
      return old
    | none => return old
  | .counterRead _ _ => pure 0
  | .sbi _ => pure 0

/-- What an operation does when its accesses are made: they turned the hart of `m` into `h`, and `v`
was loaded. -/
def complete (m : Machine H P F) (op : Operation) (v : Word) (h : H) : Machine H P F :=
  let m' := { m with hart := h }
  match op with
  | .unalignedLoad kind rd a =>
    (m'.record .trace "emulator::emulate"
      ("emulated misaligned " ++ kind.name ++ " load from " ++ atAddress a)).setRegister rd
        (kind.extend v)
  | .unalignedStore kind _ a =>
    m'.record .trace "emulator::emulate"
      ("emulated misaligned " ++ kind.name ++ " store to " ++ atAddress a)
  | .atomic op rd addr src =>
    match op.apply (m.register src) v with
    | some _ =>
      (m'.setRegister rd v).record .trace "emulator::emulate"
        ("emulated " ++ op.name ++ " on " ++ atAddress (m.register addr))
    | none =>
      m'.record .warn "emulator::emulate"
        (op.name ++ " on " ++ atAddress (m.register addr) ++ " is not emulated and was skipped")
  | .counterRead half rd =>
    let r := readCounter half m.platform
    ({ m' with platform := r.2 }.record .trace "emulator::emulate"
      ("emulated " ++ half.name ++ " counter read into Register(" ++ toString rd.toNat ++
        ")")).setRegister rd r.1
  | .sbi c => call c m'

omit [Hart H] [Platform P] [FrameStore H F] in
theorem access_bind {α β : Type} (x : HartAccess H α) (f : α → Emulation H P F β)
    (m : Machine H P F) :
    (access x >>= f) m = match x m.hart with
      | .ok v h => f v { m with hart := h }
      | .error fault h => .error (.fault fault) { m with hart := h } := by
  rw [bind_apply, access]
  cases x m.hart <;> rfl

theorem execute_eq (op : Operation) (m : Machine H P F) :
    execute op m = match m.operand op m.hart with
      | .ok v h => .ok () (m.complete op v h)
      | .error f h => .error (.fault f) { m with hart := h } := by
  cases op with
  | unalignedLoad kind rd a =>
    rw [execute, executeLoad, access_bind, operand]
    cases readUnaligned a kind.size m.hart <;> rfl
  | unalignedStore kind src a =>
    have hx : execute (.unalignedStore kind src a) m =
        (access (writeUnaligned a kind.size (m.register src)) >>= fun _ =>
          logEmulation .trace ("emulated misaligned " ++ kind.name ++ " store to " ++
            atAddress a)) m := rfl
    rw [hx, access_bind, operand, bind_apply]
    cases writeUnaligned a kind.size (m.register src) m.hart <;> rfl
  | atomic op rd addr src =>
    have hx : execute (.atomic op rd addr src) m =
        (access (readWord (m.register addr)) >>= fun old =>
          match op.apply (m.register src) old with
          | some new => do
            access (writeWord (m.register addr) new)
            change fun m => m.setRegister rd old
            logEmulation .trace ("emulated " ++ op.name ++ " on " ++ atAddress (m.register addr))
          | none => logEmulation .warn
            (op.name ++ " on " ++ atAddress (m.register addr) ++
              " is not emulated and was skipped")) m := rfl
    rw [hx, access_bind, operand, bind_apply]
    cases readWord (m.register addr) m.hart with
    | error f h => rfl
    | ok old h =>
      cases hop : op.apply (m.register src) old with
      | none =>
        simp only [complete, hop, pure_apply]
        rfl
      | some new =>
        simp only [complete, hop]
        rw [access_bind, bind_apply]
        cases writeWord (m.register addr) new h with
        | error f h => rfl
        | ok u h =>
          simp only [hop, pure_apply]
          rfl
  | counterRead half rd => rfl
  | sbi c => rfl

omit [Platform P] in
theorem operationOf_eq (e : Exception) (s : TrapState) (m : Machine H P F) :
    operationOf e s m =
      (access (s.instructionWord e) >>= fun w => require (s.decode e (m.register .a7) w)) m := by
  cases e with
  | illegalInstruction =>
    simp only [operationOf, illegalInstruction, TrapState.instructionWord]
    split <;> rfl
  | supervisorCall =>
    have hx : operationOf .supervisorCall s m =
        (require (SbiCall.ofNumber (m.register .a7)) >>= fun c => pure (.sbi c)) m := rfl
    rw [hx, bind_apply, access_bind]
    simp only [TrapState.instructionWord, TrapState.decode, pure_apply]
    cases SbiCall.ofNumber (m.register .a7) <;> rfl
  | _ => rfl

/-- An emulation from its phases. -/
theorem emulate_eq (e : Exception) (s : TrapState) (m : Machine H P F) :
    emulate e s m = match s.instructionWord e m.hart with
      | .error f h => .error (.fault f) { m with hart := h }
      | .ok w h => match s.decode e (m.register .a7) w with
        | .error u => .error (.unsupported u) { m with hart := h }
        | .ok op => execute op { m with hart := h } := by
  rw [emulate, bind_apply, operationOf_eq, access_bind]
  cases s.instructionWord e m.hart with
  | error f h => rfl
  | ok w h =>
    dsimp only [require]
    cases s.decode e (m.register .a7) w <;> rfl

theorem execute_eq_ok {op : Operation} {m m' : Machine H P F} :
    execute op m = .ok () m' ↔
      ∃ v h, m.operand op m.hart = .ok v h ∧ m' = m.complete op v h := by
  rw [execute_eq]
  cases m.operand op m.hart <;> simp [eq_comm, and_assoc]

theorem execute_eq_fault {op : Operation} {f : AccessFault} {m m' : Machine H P F} :
    execute op m = .error (.fault f) m' ↔
      ∃ h, m.operand op m.hart = .error f h ∧ m' = { m with hart := h } := by
  rw [execute_eq]
  cases m.operand op m.hart <;> simp [eq_comm, and_assoc]

/-- Nothing is refused once an operation is begun. -/
theorem execute_ne_unsupported {op : Operation} {u : Unsupported} {m m' : Machine H P F} :
    execute op m ≠ .error (.unsupported u) m' := by
  rw [execute_eq]
  cases m.operand op m.hart <;> simp

end Machine

/-! ## Properties of the phases that access memory -/

namespace Sequential

variable {R : (α : Type) → HartAccess H α → Prop} (hR : Sequential R)
  (hload : ∀ w a, R Word (load w a))

include hR hload

theorem instructionWord (s : TrapState) (e : Exception) : R Word (s.instructionWord e) := by
  cases e with
  | loadAddressMisaligned | storeAddressMisaligned => exact hR.fetch hload s.mepc
  | illegalInstruction =>
    unfold TrapState.instructionWord
    dsimp only
    split
    · exact hR.pure _
    · exact hR.fetch hload s.mepc
  | _ => exact hR.pure _

omit [Platform P] in
theorem operand (hstore : ∀ w a v, R Unit (store w a v)) (m : Machine H P F) (op : Operation) :
    R Word (m.operand op) := by
  cases op with
  | unalignedLoad kind rd a => exact hR.readUnaligned hload a kind.size
  | unalignedStore kind src a =>
    exact hR.bind (hR.writeUnaligned hstore a kind.size _) fun _ => hR.pure _
  | atomic op rd addr src =>
    refine hR.bind (hload .word _) fun old => ?_
    split
    · exact hR.bind (hstore .word _ _) fun _ => hR.pure _
    · exact hR.pure _
  | counterRead half rd => exact hR.pure _
  | sbi c => exact hR.pure _

end Sequential

end TrapMonitor
