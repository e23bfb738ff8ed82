import Stockroom.Document.Scalars
import Stockroom.Retry.Policy

/-! Documents of retry policies. Every field has the standard policy's value as default. The
multiplier is written as the sixteen hexadecimal digits of its bits. -/
namespace Stockroom
set_option autoImplicit false

/-- The bits of a float, most significant first, four to a digit. -/
def Binary.bitText (x : Float) : String :=
  let ds := (Nat.toDigits 16 x.toBits.toNat)
  String.ofList (List.replicate (16 - ds.length) '0' ++ ds)

namespace RetryPolicy

def fieldNames : List String :=
  ["max_attempts", "initial_backoff", "max_backoff", "multiplier", "deadline"]

def toJson (p : RetryPolicy) : Json :=
  .object [
    ("max_attempts", Json.ofNat p.maxAttempts),
    ("initial_backoff", p.initialBackoff.toJson),
    ("max_backoff", p.maxBackoff.toJson),
    ("multiplier", .text (Binary.bitText p.multiplier)),
    ("deadline", Json.ofOption Duration.toJson p.deadline)]

def ofJson? (j : Json) : Option RetryPolicy := do
  let fs ← Json.leadingFields? fieldNames j
  return {
    maxAttempts := ← Json.orDefault "max_attempts" standard.maxAttempts Json.uint32? fs
    initialBackoff := ← Json.orDefault "initial_backoff" standard.initialBackoff Duration.ofJson? fs
    maxBackoff := ← Json.orDefault "max_backoff" standard.maxBackoff Duration.ofJson? fs
    multiplier := ← Json.orDefault "multiplier" standard.multiplier Json.float? fs
    deadline := ← Json.optionalOrDefault "deadline" standard.deadline Duration.ofJson? fs }

end RetryPolicy

end Stockroom
