import Stockroom.Text.Digits

/-! Log entries: a level, a message and named values. A level shows itself and
all that is more severe. -/
namespace Stockroom
set_option autoImplicit false

inductive LogLevel where
  | trace
  | debug
  | info
  | warn
  | error
  deriving DecidableEq

def LogLevel.name : LogLevel → String
  | .trace => "TRACE"
  | .debug => "DEBUG"
  | .info => "INFO"
  | .warn => "WARN"
  | .error => "ERROR"

/-- Higher is more severe. -/
def LogLevel.severity : LogLevel → Nat
  | .trace => 1
  | .debug => 2
  | .info => 3
  | .warn => 4
  | .error => 5

inductive LogValue where
  | number (n : Int)
  | text (s : String)
  deriving DecidableEq

structure LogEntry where
  level : LogLevel
  message : String
  fields : List (String × LogValue)
  deriving DecidableEq

def LogEntry.debug (message : String) (fields : List (String × LogValue)) : LogEntry :=
  ⟨.debug, message, fields⟩

def LogEntry.info (message : String) (fields : List (String × LogValue)) : LogEntry :=
  ⟨.info, message, fields⟩

def LogEntry.warn (message : String) (fields : List (String × LogValue)) : LogEntry :=
  ⟨.warn, message, fields⟩

end Stockroom
