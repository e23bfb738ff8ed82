import Stockroom.Document.Policy
import Stockroom.Document.Record
import Stockroom.Log.Entry
import Stockroom.Numeric.Word
import Stockroom.Text.Blank

/-! The configuration of a ledger, its document, and reading it from named settings. A setting
that is no 64-bit number is logged and ignored; so is a lifetime of more than a year. A
lifetime of zero means none. -/
namespace Stockroom
set_option autoImplicit false

structure LedgerConfig where
  retry : RetryPolicy
  /-- The lifetime of reservations that do not bring their own; none means
  that they never expire. -/
  reservationTtl : Option Duration
  /-- For items that do not bring their own. -/
  defaultThresholds : Thresholds

namespace LedgerConfig

def standard : LedgerConfig := ⟨.standard, some (.ofSeconds 900), .standard⟩

/-- The longest lifetime, in seconds, that a setting may ask for: 365 days. -/
def maxTtlSeconds : Nat := 31536000

/-! ## Settings -/

inductive NumberFault where
  | empty
  | invalidDigit
  | tooLarge
  deriving DecidableEq

def NumberFault.message : NumberFault → String
  | .empty => "cannot parse integer from empty string"
  | .invalidDigit => "invalid digit found in string"
  | .tooLarge => "number too large to fit in target type"

/-- Reads digits one by one onto a number; the first fault met is reported. -/
def readDigits (n : Nat) : List Char → Except NumberFault Nat
  | [] => .ok n
  | c :: cs =>
    match Text.digit? c with
    | none => .error .invalidDigit
    | some d => if wordBound ≤ 10 * n + d then .error .tooLarge else readDigits (10 * n + d) cs

/-- An unsigned 64-bit number; a plus sign may stand in front. -/
def readNumber : List Char → Except NumberFault Nat
  | [] => .error .empty
  | ['+'] => .error .invalidDigit
  | '+' :: cs => readDigits 0 cs
  | cs => readDigits 0 cs

def attemptsKey : String := "STOCK_LEDGER_MAX_ATTEMPTS"
def initialBackoffKey : String := "STOCK_LEDGER_INITIAL_BACKOFF_MS"
def maxBackoffKey : String := "STOCK_LEDGER_MAX_BACKOFF_MS"
def ttlKey : String := "STOCK_LEDGER_RESERVATION_TTL_SECS"

/-- The number set under a key, and what is logged about it. -/
def numberSetting (lookup : String → Option String) (key : String) : Option Nat × List LogEntry :=
  match lookup key with
  | none => (none, [])
  | some raw =>
    match readNumber (Text.trim raw.toList) with
    | .ok n => (some n, [])
    | .error fault =>
      (none, [.warn "ignoring unparsable ledger setting"
        [("key", .text key), ("value", .text raw), ("error", .text fault.message)]])

/-- The lifetime that a number of seconds asks for, if it is within bounds, and
what is logged about it. -/
def ttlSetting (current : Option Duration) : Option Nat → Option Duration × List LogEntry
  | none => (current, [])
  | some secs =>
    if maxTtlSeconds < secs then
      (current, [.warn "ignoring out-of-range reservation ttl"
        [("key", .text ttlKey), ("secs", .number secs), ("max_secs", .number maxTtlSeconds)]])
    else (if secs = 0 then none else some (.ofSeconds secs), [])

/-- The standard configuration with the settings found, and the log. -/
def ofSettings (lookup : String → Option String) : LedgerConfig × List LogEntry :=
  let (attempts, log1) := numberSetting lookup attemptsKey
  let (initial, log2) := numberSetting lookup initialBackoffKey
  let (cap, log3) := numberSetting lookup maxBackoffKey
  let (secs, log4) := numberSetting lookup ttlKey
  let (ttl, log5) := ttlSetting standard.reservationTtl secs
  let retry := { standard.retry with
    maxAttempts := (attempts.map (min · 4294967295)).getD standard.retry.maxAttempts
    initialBackoff := (initial.map Duration.ofMillis).getD standard.retry.initialBackoff
    maxBackoff := (cap.map Duration.ofMillis).getD standard.retry.maxBackoff }
  ({ standard with retry := retry, reservationTtl := ttl }, log1 ++ log2 ++ log3 ++ log4 ++ log5)

/-! ## Documents -/

def fieldNames : List String := ["retry", "reservation_ttl", "default_thresholds"]

def toJson (c : LedgerConfig) : Json :=
  .object [
    ("retry", c.retry.toJson),
    ("reservation_ttl", Json.ofOption Duration.toJson c.reservationTtl),
    ("default_thresholds", c.defaultThresholds.toJson)]

def ofJson? (j : Json) : Option LedgerConfig := do
  let fs ← Json.leadingFields? fieldNames j
  return {
    retry := ← Json.orDefault "retry" standard.retry RetryPolicy.ofJson? fs
    reservationTtl :=
      ← Json.optionalOrDefault "reservation_ttl" standard.reservationTtl Duration.ofJson? fs
    defaultThresholds :=
      ← Json.orDefault "default_thresholds" standard.defaultThresholds Thresholds.ofJson? fs }

end LedgerConfig

end Stockroom
