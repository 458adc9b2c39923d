import TrapMonitor.Machine.Sbi
import TrapMonitor.Platform.Soc
import TrapMonitor.Proofs.Device.Fifo
import TrapMonitor.Proofs.Machine.Registers
import TrapMonitor.Proofs.Trap.Outcome

/-! # The console as two streams of bytes

Calls and the logger share one serial device. What was asked to go out goes out in that order, without
the carriage returns, and what came in is returned in that order, each byte once
(`console_stream`). It does not matter how calls, records and arriving bytes are mixed, nor how long the
transmitter keeps the others waiting.
-/
namespace TrapMonitor

open UartView

/-- What happens at a console: a character is put, one is asked for while some bytes are pending, and a
result returned, or a record is made. -/
inductive ConsoleEvent where
  | putchar (argument : Word)
  | getchar (pending : List Byte) (result : Word)
  | record (r : Record)

namespace ConsoleEvent

/-- How a line says which level it has. -/
def label : Level → String
  | .error => "ERROR"
  | .warn => "WARN"
  | .info => "INFO"
  | .debug => "DEBUG"
  | .trace => "TRACE"

/-- What is to go out. -/
def output (l : Logger) : ConsoleEvent → List Byte
  | putchar argument => [argument.setWidth 8]
  | getchar _ _ => []
  | record r =>
    if r.level.rank ≤ l.max.rank then
      (label r.level ++ " - " ++ r.target ++ ": " ++ r.message ++ "\n").toUTF8.toList.map
        UInt8.toBitVec
    else []

def returned : ConsoleEvent → List Word
  | putchar _ => []
  | getchar _ result => [result]
  | record _ => []

theorem utf8_text (l : Logger) (r : Record) : utf8 (l.text r) = (record r).output l := by
  have hlabel : label r.level = r.level.name := by cases r.level <;> rfl
  rw [Logger.text, Logger.enabled, output, hlabel]
  by_cases h : r.level.rank ≤ l.max.rank
  · rw [if_pos (decide_eq_true h), if_pos h]
    rfl
  · have hempty : utf8 "" = [] := by decide +kernel
    rw [if_neg (by simpa using h), if_neg h, hempty]

end ConsoleEvent

namespace Machine

theorem getcharResult_some_ne (b : Byte) : getcharResult (some b) ≠ 0xffffffff := by
  intro h
  have hlt := b.isLt
  have hnat : (b.setWidth 32).toNat = 0xffffffff := congrArg BitVec.toNat h
  rw [BitVec.toNat_setWidth] at hnat
  omega

/-- No byte is taken for the answer that there is none. -/
theorem getcharResult_head_eq_iff (pending : List Byte) :
    getcharResult pending.head? = 0xffffffff ↔ pending = [] := by
  cases pending with
  | nil => exact iff_of_true rfl rfl
  | cons b rest => exact iff_of_false (getcharResult_some_ne b) nofun

theorem filter_getcharResult_head (pending : List Byte) :
    [getcharResult pending.head?].filter (· ≠ 0xffffffff) =
      (pending.take 1).map (·.setWidth 32) := by
  cases pending with
  | nil => rfl
  | cons b rest => exact List.filter_cons_of_pos (decide_eq_true (getcharResult_some_ne b))

end Machine

/-! ## One use of the device -/

/-- From `d` to `d'` its streams went on as the events say. -/
structure Accounted {D : Type} [UartView D] (l : Logger) (events : List ConsoleEvent) (d d' : D) :
    Prop where
  streamed : ∃ taken : List Byte,
    (events.flatMap ConsoleEvent.returned).filter (· ≠ 0xffffffff) = taken.map (·.setWidth 32) ∧
    Streamed ((events.flatMap (ConsoleEvent.output l)).filter (· ≠ Uart.carriageReturn)) taken d d'
  answered : ∀ pending result, ConsoleEvent.getchar pending result ∈ events →
    (result = 0xffffffff ↔ pending = [])

namespace Accounted

section Order

variable {D : Type} [UartView D] {l : Logger} {events more : List ConsoleEvent} {d d' d'' : D}

theorem of_streamed (h : Streamed [] [] d d') : Accounted l [] d d' := ⟨⟨[], rfl, h⟩, nofun⟩

theorem trans (first : Accounted l events d d') (second : Accounted l more d' d'') :
    Accounted l (events ++ more) d d'' where
  streamed := by
    obtain ⟨taken, hreturned, hstreamed⟩ := first.streamed
    obtain ⟨taken', hreturned', hstreamed'⟩ := second.streamed
    refine ⟨taken ++ taken', ?_, ?_⟩
    · rw [List.flatMap_append, List.filter_append, hreturned, hreturned', List.map_append]
    · rw [List.flatMap_append, List.filter_append]
      exact hstreamed.trans hstreamed'
  answered pending result hmem := by
    rcases List.mem_append.mp hmem with hmem | hmem
    · exact first.answered pending result hmem
    · exact second.answered pending result hmem

end Order

variable {U T B : Type} [Bus U] [Bus T] [Bus B] [UartView U] [LawfulUart U] (l : Logger)

theorem putchar (argument : Word) (p : SocPlatform U T B) :
    Accounted l [.putchar argument] p.uart (Platform.write (argument.setWidth 8) p).uart where
  streamed := ⟨[], rfl, Uart.writeByte_streamed (argument.setWidth 8) p.uart⟩
  answered _ _ hmem := nomatch List.mem_singleton.mp hmem

theorem getchar (p : SocPlatform U T B) :
    Accounted l [.getchar (waiting p.uart) (Machine.getcharResult (Platform.tryRead p).1)] p.uart
      (Platform.tryRead p).2.uart := by
  obtain ⟨hreceived, htaken⟩ := Uart.tryRead_streamed p.uart
  have hresult : Machine.getcharResult (Platform.tryRead p).1 =
      Machine.getcharResult (waiting p.uart).head? := congrArg Machine.getcharResult hreceived
  rw [hresult]
  refine ⟨⟨(waiting p.uart).take 1, Machine.filter_getcharResult_head _, htaken⟩, ?_⟩
  intro pending result hmem
  obtain ⟨rfl, rfl⟩ := ConsoleEvent.getchar.inj (List.mem_singleton.mp hmem)
  exact Machine.getcharResult_head_eq_iff _

theorem foldl_write_streamed (bytes : List Byte) (p : SocPlatform U T B) :
    Streamed (bytes.filter (· ≠ Uart.carriageReturn)) [] p.uart
      (bytes.foldl (fun p b => Platform.write b p) p).uart := by
  induction bytes generalizing p with
  | nil => exact .refl p.uart
  | cons b bytes ih =>
    rw [List.foldl_cons, ← List.singleton_append, List.filter_append]
    exact (Uart.writeByte_streamed b p.uart).trans (ih (Platform.write b p))

theorem record (r : Record) (p : SocPlatform U T B) :
    Accounted l [.record r] p.uart (l.emit Platform.write r p).uart where
  streamed := by
    refine ⟨[], rfl, ?_⟩
    rw [List.flatMap_singleton, ← ConsoleEvent.utf8_text]
    exact foldl_write_streamed _ p
  answered _ _ hmem := nomatch List.mem_singleton.mp hmem

end Accounted

section Waits

variable {U T B : Type} [Bus U] [Bus T] [Bus B] [UartView U] [LawfulUart U]

/-- A transmitter that makes room again is waited for, but not for ever. -/
theorem SocPlatform.waits_write (b : Byte) (p : SocPlatform U T B) :
    Platform.waits (Platform.write b p) = Platform.waits p := by
  change (p.waits || !(Uart.writeByte b p.uart).1) = p.waits
  rw [Uart.writeByte_ready, Bool.not_true, Bool.or_false]

theorem SocPlatform.waits_emit (l : Logger) (r : Record) (p : SocPlatform U T B) :
    Platform.waits (l.emit Platform.write r p) = Platform.waits p := by
  unfold Logger.emit
  induction utf8 (l.text r) generalizing p with
  | nil => rfl
  | cons b bytes ih => rw [List.foldl_cons, ih, waits_write]

end Waits

/-! ## Runs -/

namespace Machine

variable {H U T B F : Type} [Hart H] [FrameStore H F] [Bus U] [Bus T] [Bus B] [UartView U]
  {l : Logger} {m₀ m m' : Machine H (SocPlatform U T B) F} {events : List ConsoleEvent}

/-- A run of the machine as its console sees it. The record that a call makes is a record like any
other. -/
inductive ConsoleRun (l : Logger) (m₀ : Machine H (SocPlatform U T B) F) :
    List ConsoleEvent → Machine H (SocPlatform U T B) F → Prop
  | start : ConsoleRun l m₀ [] m₀
  /-- Anything else happens: registers change, time passes, bytes come in, the transmitter gets full or
  has room again. -/
  | elsewhere {events : List ConsoleEvent} {m m' : Machine H (SocPlatform U T B) F} :
    ConsoleRun l m₀ events m → Streamed [] [] m.platform.uart m'.platform.uart →
    Platform.waits m'.platform = Platform.waits m.platform → ConsoleRun l m₀ events m'
  | putchar {events : List ConsoleEvent} {m : Machine H (SocPlatform U T B) F} :
    ConsoleRun l m₀ events m → ConsoleRun l m₀
      (events ++ [.record (putcharRecord ((m.register .a0).setWidth 8)), .putchar (m.register .a0)])
      (callNoting (say l) .consolePutchar m)
  | getchar {events : List ConsoleEvent} {m m' : Machine H (SocPlatform U T B) F} :
    ConsoleRun l m₀ events m → m' = callNoting (say l) .consoleGetchar m → ConsoleRun l m₀
      (events ++ [.getchar (waiting m.platform.uart) (m'.register .a0),
        .record (getcharRecord (m'.register .a0))])
      m'
  | record {events : List ConsoleEvent} {m : Machine H (SocPlatform U T B) F} (r : Record) :
    ConsoleRun l m₀ events m → ConsoleRun l m₀ (events ++ [.record r]) (say l r m)

variable [LawfulUart U]

theorem accounted_consolePutchar (l : Logger) (m : Machine H (SocPlatform U T B) F) :
    Accounted l
      [.record (putcharRecord ((m.register .a0).setWidth 8)), .putchar (m.register .a0)]
      m.platform.uart (consolePutchar (say l) m).platform.uart :=
  (Accounted.record l (putcharRecord ((m.register .a0).setWidth 8)) m.platform).trans
    (.putchar l (m.register .a0) _)

/-- The byte is taken before the record about it goes out. -/
theorem accounted_consoleGetchar (l : Logger) (hm : m' = consoleGetchar (say l) m) :
    Accounted l [.getchar (waiting m.platform.uart) (m'.register .a0),
        .record (getcharRecord (m'.register .a0))]
      m.platform.uart m'.platform.uart := by
  let result := getcharResult (Platform.tryRead m.platform).1
  let noted := say l (getcharRecord result) { m with platform := (Platform.tryRead m.platform).2 }
  have hset : m' = noted.setRegister .a0 result := hm
  have hresult : m'.register .a0 = result := by
    rw [hset]
    exact FrameStore.slot_setSlot_self .a0 result noted.frame noted.hart
  rw [hresult, hset, platform_setRegister]
  exact (Accounted.getchar l m.platform).trans (.record l (getcharRecord result) _)

theorem ConsoleRun.accounted (h : ConsoleRun l m₀ events m) :
    Accounted l events m₀.platform.uart m.platform.uart := by
  induction h with
  | start => exact .of_streamed (.refl _)
  | elsewhere _ hquiet _ ih => simpa only [List.append_nil] using ih.trans (.of_streamed hquiet)
  | putchar _ ih => exact ih.trans (accounted_consolePutchar l _)
  | getchar _ hm ih => exact ih.trans (accounted_consoleGetchar l hm)
  | record r _ ih => exact ih.trans (.record l r _)

theorem ConsoleRun.waits (h : ConsoleRun l m₀ events m) :
    Platform.waits m.platform = Platform.waits m₀.platform := by
  induction h with
  | start => rfl
  | elsewhere _ _ hwaits ih => exact hwaits.trans ih
  | @putchar events m _ ih =>
    have hcall : Platform.waits (callNoting (say l) .consolePutchar m).platform =
        Platform.waits m.platform :=
      (SocPlatform.waits_write _ _).trans (SocPlatform.waits_emit l _ m.platform)
    exact hcall.trans ih
  | @getchar events m m' _ hm ih =>
    let noted := say l (getcharRecord (getcharResult (Platform.tryRead m.platform).1))
      { m with platform := (Platform.tryRead m.platform).2 }
    have hset : m' = noted.setRegister .a0 (getcharResult (Platform.tryRead m.platform).1) := hm
    rw [hset, platform_setRegister]
    exact (SocPlatform.waits_emit l _ _).trans ih
  | record r _ ih => exact (SocPlatform.waits_emit l r _).trans ih

/-- What the calls and the logger put out is sent in that order and completely, but for the carriage
returns. What comes in is returned in that order and completely, but for what still waits, each byte as
a number below 256; and a call says that there is nothing exactly if nothing was pending. However long
the transmitter is full, no byte is waited for without end. -/
theorem console_stream (h : ConsoleRun l m₀ events m) :
    UartView.sent m.platform.uart = UartView.sent m₀.platform.uart ++
      (events.flatMap (ConsoleEvent.output l)).filter (· ≠ 0x0d) ∧
    (∃ bytes taken : List Byte,
      UartView.arrived m.platform.uart = UartView.arrived m₀.platform.uart ++ bytes ∧
      taken ++ waiting m.platform.uart = waiting m₀.platform.uart ++ bytes ∧
      (events.flatMap ConsoleEvent.returned).filter (· ≠ 0xffffffff) =
        taken.map (·.setWidth 32)) ∧
    (∀ pending result, ConsoleEvent.getchar pending result ∈ events →
      (result = 0xffffffff ↔ pending = [])) ∧
    Platform.waits m.platform = Platform.waits m₀.platform := by
  obtain ⟨⟨taken, hreturned, hsent, bytes, harrived, hwaiting⟩, hanswered⟩ := h.accounted
  exact ⟨hsent, ⟨bytes, taken, harrived, hwaiting, hreturned⟩, hanswered, h.waits⟩

/-- A machine whose transmitter is full for three polls after each byte. The byte 0xff comes in with the
first access to the serial device, when a call has just found nothing. -/
def chatting : Machine FlatHart (SocPlatform FedUart Block Block) Frame where
  hart := (trappedOn 0 0 0 (fun _ => 0) 0).hart
  platform := ⟨⟨.idle fun _ => 3, [], [[0xff], [], [], [], [0x0d]]⟩, ⟨[]⟩, ⟨[]⟩, false⟩
  frame := .zero
  log := []

/-- That there is nothing, and the byte with all bits set, are told apart. The record is put out while
the byte before it still keeps the transmitter busy: `WARN - boot: no` and the end of a line. -/
theorem console_stream_chatting :
    let l : Logger := ⟨.info⟩
    let m₁ := callNoting (say l) .consoleGetchar chatting
    let m₂ := callNoting (say l) .consolePutchar m₁
    let m₃ := callNoting (say l) .consoleGetchar m₂
    let m₄ := say l ⟨.warn, "boot", "no\r"⟩ m₃
    let events : List ConsoleEvent :=
      [.getchar [] 0xffffffff, .record (getcharRecord 0xffffffff), .record (putcharRecord 0xff),
        .putchar 0xffffffff, .getchar [0xff] 0xff, .record (getcharRecord 0xff),
        .record ⟨.warn, "boot", "no\r"⟩]
    ConsoleRun l chatting events m₄ ∧
      sent m₄.platform.uart = [0xff, 0x57, 0x41, 0x52, 0x4e, 0x20, 0x2d, 0x20, 0x62, 0x6f, 0x6f, 0x74,
        0x3a, 0x20, 0x6e, 0x6f, 0x0a] ∧
      Platform.waits m₄.platform = false ∧
      ∃ bytes taken : List Byte, arrived m₄.platform.uart = bytes ∧
        taken ++ waiting m₄.platform.uart = bytes ∧ taken.map (·.setWidth 32) = [(0xff : Word)] := by
  intro l m₁ m₂ m₃ m₄ events
  have h₁ : m₁.register .a0 = 0xffffffff := by decide +kernel
  have h₂ : m₂.register .a0 = 0xffffffff := by decide +kernel
  have h₃ : m₃.register .a0 = 0xff := by decide +kernel
  have hwaiting : waiting m₂.platform.uart = [0xff] := by decide +kernel
  have hrun : ConsoleRun l chatting events m₄ := by
    have h := ((ConsoleRun.start.getchar (rfl : m₁ = _)).putchar.getchar (rfl : m₃ = _)).record
      ⟨.warn, "boot", "no\r"⟩
    rw [h₁, h₃, hwaiting] at h
    exact h
  obtain ⟨hsent, ⟨bytes, taken, harrived, htaken, hreturned⟩, -, hwaits⟩ := console_stream hrun
  refine ⟨hrun, ?_, hwaits, bytes, taken, harrived, htaken, hreturned.symm.trans (by decide)⟩
  have houtput : (events.flatMap (ConsoleEvent.output l)).filter (· ≠ 0x0d) =
      [0xff, 0x57, 0x41, 0x52, 0x4e, 0x20, 0x2d, 0x20, 0x62, 0x6f, 0x6f, 0x74, 0x3a, 0x20, 0x6e,
        0x6f, 0x0a] := by decide +kernel
  exact hsent.trans houtput

end Machine

end TrapMonitor
