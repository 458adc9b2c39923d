import TrapMonitor.Word

/-! # Log records and the lines they are written as

Components report what they did as records. A logger has a maximum level and writes each
record that does not exceed it as one line, byte by byte, into a sink.
-/
namespace TrapMonitor

inductive Level where
  | error | warn | info | debug | trace
  deriving DecidableEq

namespace Level

/-- Higher numbers are more talkative. -/
def rank : Level → Nat
  | error => 1
  | warn => 2
  | info => 3
  | debug => 4
  | trace => 5

def name : Level → String
  | error => "ERROR"
  | warn => "WARN"
  | info => "INFO"
  | debug => "DEBUG"
  | trace => "TRACE"

end Level

/-- One log record: who says what, and how important it is. -/
structure Record where
  level : Level
  target : String
  message : String
  deriving DecidableEq

namespace Record

def line (r : Record) : String :=
  r.level.name ++ " - " ++ r.target ++ ": " ++ r.message ++ "\n"

end Record

/-- The bytes of a text as they are sent to a console. -/
def utf8 (text : String) : List Byte := text.toUTF8.toList.map fun b => b.toBitVec

/-- A logger lets records up to its maximum level through. -/
structure Logger where
  max : Level
  deriving DecidableEq

namespace Logger

def enabled (l : Logger) (level : Level) : Bool := level.rank ≤ l.max.rank

/-- What a record adds to the output. -/
def text (l : Logger) (r : Record) : String := if l.enabled r.level then r.line else ""

/-- The output for a list of records, oldest first. -/
def transcript (l : Logger) (records : List Record) : String := String.join (records.map l.text)

/-- Feeds the bytes of a record to a sink one by one. -/
def emit {S : Type} (l : Logger) (sink : Byte → S → S) (r : Record) (s : S) : S :=
  (utf8 (l.text r)).foldl (fun s b => sink b s) s

end Logger

/-- Why a logger was not put in place. -/
inductive LoggerError where
  | alreadyInstalled
  deriving DecidableEq

namespace LoggerError

def message : LoggerError → String
  | alreadyInstalled =>
    "attempted to set a logger after the logging system was already initialized"

end LoggerError

namespace Logger

/-- The first logger that is installed stays; a later one is refused and changes nothing. -/
def install (l : Logger) : Option Logger → Except LoggerError Logger
  | none => .ok l
  | some _ => .error .alreadyInstalled

end Logger

end TrapMonitor
