import TrapMonitor.Device.FifoUart
import TrapMonitor.Proofs.Bus.Words

/-! # A serial device with queues behind its words

Behind the words of the device are two queues: what was sent, and what was received and not yet
taken. Bytes may arrive at any access, and the transmitter may be full, though not forever. The two
operations of the driver are then exact: a byte is sent unless it is a carriage return
(`Uart.writeByte_streamed`), and the head of the receiver is taken if there is one
(`Uart.tryRead_streamed`).
-/
namespace TrapMonitor

/-- The sides of a serial device that its words show in part. -/
class UartView (D : Type) where
  /-- The bytes that went out, oldest first. -/
  sent : D → List Byte
  /-- The bytes that came in, oldest first. -/
  arrived : D → List Byte
  /-- The bytes that came in and were not taken, the next one to be taken first. -/
  waiting : D → List Byte
  full : D → Bool

open UartView

section Streams

variable {D : Type} [UartView D] {d d' d'' : D} {out out' taken taken' : List Byte}

/-- From `d` to `d'` the bytes `out` were sent and the bytes `taken` were taken from the receiver.
Others may have arrived behind those that wait. -/
structure Streamed (out taken : List Byte) (d d' : D) : Prop where
  sent : sent d' = sent d ++ out
  received : ∃ bytes, arrived d' = arrived d ++ bytes ∧ taken ++ waiting d' = waiting d ++ bytes

namespace Streamed

theorem refl (d : D) : Streamed [] [] d d :=
  ⟨(List.append_nil _).symm, [], (List.append_nil _).symm, (List.append_nil _).symm⟩

theorem trans (first : Streamed out taken d d') (second : Streamed out' taken' d' d'') :
    Streamed (out ++ out') (taken ++ taken') d d'' := by
  obtain ⟨bytes, harrived, hwaiting⟩ := first.received
  obtain ⟨bytes', harrived', hwaiting'⟩ := second.received
  refine ⟨by rw [second.sent, first.sent, List.append_assoc], bytes ++ bytes', ?_, ?_⟩
  · rw [harrived', harrived, List.append_assoc]
  · rw [List.append_assoc, hwaiting', ← List.append_assoc, hwaiting, List.append_assoc]

/-- What waits and is not taken waits on, and stays in front. -/
theorem waiting_prefix (h : Streamed out [] d d') : waiting d <+: waiting d' := by
  obtain ⟨bytes, -, hwaiting⟩ := h.received
  exact ⟨bytes, hwaiting.symm⟩

end Streamed

end Streams

/-- What the words of a serial device mean. A byte that is written while the transmitter is full is
lost; a received byte stays at the head until its event is acknowledged. -/
class LawfulUart (D : Type) [Bus D] [UartView D] : Prop where
  txFull : ∀ d : D, (Bus.read Uart.txFull.first d).1.getLsbD 0 = full d
  streamed_txFull : ∀ d : D, Streamed [] [] d (Bus.read Uart.txFull.first d).2
  /-- There is room until a byte is written. -/
  roomy : ∀ d : D, full d = false → full (Bus.read Uart.txFull.first d).2 = false
  /-- There will be room. -/
  patience : ∀ d : D, full d = true →
    Bus.patience (Bus.read Uart.txFull.first d).2 < Bus.patience d
  rxEmpty : ∀ d : D, (Bus.read Uart.rxEmpty.first d).1.getLsbD 0 = (waiting d).isEmpty
  streamed_rxEmpty : ∀ d : D, Streamed [] [] d (Bus.read Uart.rxEmpty.first d).2
  received : ∀ (d : D) (b : Byte), (waiting d).head? = some b →
    (Bus.read Uart.rxtx.first d).1.setWidth 8 = b
  streamed_rxtx : ∀ d : D, Streamed [] [] d (Bus.read Uart.rxtx.first d).2
  transmit : ∀ (d : D) (v : Word),
    Streamed (if full d then [] else [v.setWidth 8]) [] d (Bus.write Uart.rxtx.first v d).2
  acknowledge : ∀ (d : D) (v : Word), v.getLsbD 1 = true →
    Streamed [] ((waiting d).take 1) d (Bus.write Uart.eventPending.first v d).2

/-! ## The driver -/

namespace Uart

theorem flagClear_shiftIn (w : Word) :
    flagClear (SplitRegister.shiftIn 0 w) = !w.getLsbD 0 := by
  have hone : (1 : DoubleWord).toNat = 1 := rfl
  have hbit : (SplitRegister.shiftIn 0 w &&& 1).toNat = w.toNat % 2 := by
    rw [BitVec.toNat_and, hone, Nat.and_one_is_mod, SplitRegister.toNat_shiftIn_zero]
    omega
  have hclear : flagClear (SplitRegister.shiftIn 0 w) = decide (w.toNat % 2 = 0) := by
    rw [flagClear, ← hbit]
    exact Bool.eq_iff_iff.mpr (by simp [BitVec.toNat_eq])
  rw [hclear, BitVec.getLsbD, Nat.testBit_zero]
  rcases Nat.mod_two_eq_zero_or_one w.toNat with h | h <;> simp [h]

variable {D : Type} [Bus D] [UartView D] [LawfulUart D]

/-- Polling ends when there is room, after as many polls as the device has patience. -/
theorem poll_txFull (fuel : Nat) (d : D) (hfuel : Bus.patience d < fuel) :
    (txFull.poll flagClear fuel d).1 = true ∧ full (txFull.poll flagClear fuel d).2 = false ∧
      Streamed [] [] d (txFull.poll flagClear fuel d).2 := by
  induction fuel generalizing d with
  | zero => omega
  | succ fuel ih =>
    have hkept := LawfulUart.streamed_txFull d
    have hready : flagClear (SplitRegister.shiftIn 0 (Bus.read txFull.first d).1) = !full d := by
      rw [flagClear_shiftIn, LawfulUart.txFull]
    rw [SplitRegister.poll_succ, SplitRegister.read_of_count_one d rfl, hready]
    cases hfull : full d with
    | false => exact ⟨rfl, LawfulUart.roomy d hfull, hkept⟩
    | true =>
      have hless := LawfulUart.patience d hfull
      obtain ⟨hdone, hroom, hrest⟩ := ih (Bus.read txFull.first d).2 (by omega)
      exact ⟨hdone, hroom, hkept.trans hrest⟩

/-- The driver does not wait for ever. -/
theorem writeByte_ready (b : Byte) (d : D) : (writeByte b d).1 = true := by
  rw [writeByte_eq_await]
  exact (poll_txFull (Bus.patience d + 1) d (Nat.lt_succ_self _)).1

/-- The driver waits for room, so nothing it sends is lost. -/
theorem writeByte_streamed (b : Byte) (d : D) :
    Streamed ([b].filter (· ≠ carriageReturn)) [] d (writeByte b d).2 := by
  obtain ⟨hready, hroom, hkept⟩ := poll_txFull (Bus.patience d + 1) d (Nat.lt_succ_self _)
  have hawait : txFull.await flagClear d = txFull.poll flagClear (Bus.patience d + 1) d := rfl
  rw [writeByte_eq_await, hawait, hready, Bool.true_and]
  generalize (txFull.poll flagClear (Bus.patience d + 1) d).2 = d' at hroom hkept
  by_cases hb : b = carriageReturn
  · have hdropped : [b].filter (· ≠ carriageReturn) = [] := by simp [hb]
    rw [if_neg (by simp [hb]), hdropped]
    exact hkept
  · have hstays : [b].filter (· ≠ carriageReturn) = [b] := by simp [hb]
    have hsent := LawfulUart.transmit d' (SplitRegister.byteWord (b.setWidth 64) 0)
    rw [hroom, if_neg Bool.false_ne_true, SplitRegister.setWidth_byteWord] at hsent
    rw [if_pos (by simp [hb]), hstays]
    exact hkept.trans hsent

/-- The driver takes the head of the receiver and nothing else, and finds none only if nothing
waits. -/
theorem tryRead_streamed (d : D) : (tryRead d).1 = (waiting d).head? ∧
    Streamed [] ((waiting d).take 1) d (tryRead d).2 := by
  have hempty : flagClear (SplitRegister.shiftIn 0 (Bus.read rxEmpty.first d).1) =
      !(waiting d).isEmpty := by
    rw [flagClear_shiftIn, LawfulUart.rxEmpty]
  have hread : tryRead d = (if flagClear (SplitRegister.shiftIn 0 (Bus.read rxEmpty.first d).1) then do
      let v ← rxtx.read
      eventPending.write receiveEvent
      return some (v.setWidth 8)
    else return none : StateM D (Option Byte)) (Bus.read rxEmpty.first d).2 := rfl
  have hkept := LawfulUart.streamed_rxEmpty d
  rw [hread, hempty]
  generalize (Bus.read rxEmpty.first d).2 = d' at hkept
  cases hw : waiting d with
  | nil => exact ⟨rfl, hkept⟩
  | cons b rest =>
    -- whatever arrives meanwhile, `b` stays at the head until it is acknowledged
    have hhead {d'' : D} (h : Streamed [] [] d d'') :
        (waiting d'').head? = some b ∧ (waiting d'').take 1 = [b] := by
      obtain ⟨bytes, hwaiting⟩ := h.waiting_prefix
      rw [← hwaiting, hw]
      exact ⟨rfl, rfl⟩
    have hpeeked := hkept.trans (LawfulUart.streamed_rxtx d')
    have hbyte : (rxtx.read d').1.setWidth 8 = b :=
      (SplitRegister.setWidth_shiftIn_zero _).trans (LawfulUart.received d' b (hhead hkept).1)
    have htaken := LawfulUart.acknowledge (Bus.read rxtx.first d').2
      (SplitRegister.byteWord receiveEvent 0) (by decide)
    rw [(hhead hpeeked).2] at htaken
    exact ⟨congrArg some hbyte, hpeeked.trans htaken⟩

end Uart

/-! ## A device that is fed -/

/-- A device with queues, and what still comes in, one portion with each access. -/
structure FedUart where
  uart : FifoUart
  arrived : List Byte
  supply : List (List Byte)

namespace FedUart

def feed (u : FedUart) : FedUart :=
  ⟨{ u.uart with received := u.uart.received ++ u.supply.headD [] }, u.arrived ++ u.supply.headD [],
    u.supply.tail⟩

instance : Bus FedUart where
  read i := fun u => ((u.uart.readWord i).1, { u with uart := (u.uart.readWord i).2 }.feed)
  write i v := fun u => ((), { u with uart := u.uart.writeWord i v }.feed)
  patience u := u.uart.full

instance : UartView FedUart where
  sent u := u.uart.sent
  arrived u := u.arrived
  waiting u := u.uart.received
  full u := u.uart.full != 0

theorem streamed_feed {out taken : List Byte} {u u' : FedUart}
    (hsent : u'.uart.sent = u.uart.sent ++ out)
    (harrived : u'.arrived = u.arrived) (hwaiting : taken ++ u'.uart.received = u.uart.received) :
    Streamed out taken u u'.feed where
  sent := hsent
  received := by
    refine ⟨u'.supply.headD [], congrArg (· ++ _) harrived, ?_⟩
    exact (List.append_assoc _ _ _).symm.trans (congrArg (· ++ _) hwaiting)

theorem getLsbD_flag (b : Bool) : (FifoUart.flag b).getLsbD 0 = b := by cases b <;> rfl

theorem and_two_ne_zero {v : Word} (h : v.getLsbD 1 = true) : v &&& 2 ≠ 0 := by
  intro hzero
  have hbit : (v &&& 2).getLsbD 1 = true := by
    rw [BitVec.getLsbD_and, h]
    rfl
  rw [hzero] at hbit
  cases hbit

instance : LawfulUart FedUart where
  txFull u := getLsbD_flag (u.uart.full != 0)
  streamed_txFull u := streamed_feed (List.append_nil _).symm rfl rfl
  roomy u h := by
    have hempty : u.uart.full = 0 := by simpa [UartView.full] using h
    exact bne_eq_false_iff_eq.mpr (congrArg (· - 1) hempty)
  patience u h := by
    have hbusy : u.uart.full ≠ 0 := by simpa [UartView.full] using h
    exact Nat.sub_lt (Nat.pos_of_ne_zero hbusy) Nat.one_pos
  rxEmpty u := getLsbD_flag u.uart.received.isEmpty
  streamed_rxEmpty u := streamed_feed (List.append_nil _).symm rfl rfl
  received u b h := by
    have hhead : u.uart.received.headD 0 = b := by
      rw [List.headD_eq_head?_getD]
      exact congrArg (Option.getD · 0) h
    change ((u.uart.received.headD 0).setWidth 32).setWidth 8 = b
    rw [hhead, BitVec.setWidth_setWidth_of_le _ (by decide), BitVec.setWidth_eq]
  streamed_rxtx u := streamed_feed (List.append_nil _).symm rfl rfl
  transmit u v := by
    change Streamed _ [] u { u with uart := u.uart.transmit (v.setWidth 8) }.feed
    rw [FifoUart.transmit]
    by_cases h : u.uart.full = 0
    · have hroom : full u = false := bne_eq_false_iff_eq.mpr h
      rw [if_pos h, hroom, if_neg Bool.false_ne_true]
      exact streamed_feed rfl rfl rfl
    · have hbusy : full u = true := bne_iff_ne.mpr h
      rw [if_neg h, hbusy, if_pos rfl]
      exact streamed_feed (List.append_nil _).symm rfl rfl
  acknowledge u v h := by
    have hwrite : u.uart.writeWord Uart.eventPending.first v =
        { u.uart with received := u.uart.received.tail } := by
      rw [FifoUart.writeWord, if_neg (by decide), if_pos ⟨rfl, and_two_ne_zero h⟩]
    change Streamed _ _ u { u with uart := u.uart.writeWord Uart.eventPending.first v }.feed
    rw [hwrite]
    exact streamed_feed (List.append_nil _).symm rfl (by simp [waiting, ← List.drop_one])

end FedUart

end TrapMonitor
