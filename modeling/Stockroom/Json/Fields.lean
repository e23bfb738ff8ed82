import Stockroom.Json.Number

/-! Reading structured documents. A structure is an object, in which members of other names are
passed over and a name of the structure may come once; or it is an array of all its parts in their
order. A tagged choice is an object with one member. -/
namespace Stockroom.Json
set_option autoImplicit false

/-! ## Plain values -/

def bool? : Json → Option Bool
  | .bool b => some b
  | _ => none

def text? : Json → Option String
  | .text s => some s
  | _ => none

def int64? : Json → Option Int
  | .integer n => if fitsInt64 n then some n else none
  | _ => none

def uint64? : Json → Option Nat
  | .integer n => if fitsUInt64 n then some n.toNat else none
  | _ => none

def uint32? : Json → Option Nat
  | .integer n => if fitsUInt32 n then some n.toNat else none
  | _ => none

def float? : Json → Option Float
  | .integer n => some (Float.ofInt n)
  | .real x => some x
  | _ => none

def ofOption {α : Type} (f : α → Json) : Option α → Json
  | none => .null
  | some a => f a

def ofNat (n : Nat) : Json := .integer n

/-! ## Structures -/

abbrev Fields := List (String × Json)

def fields? (names : List String) : Json → Option Fields
  | .object members => if names.all fun n => occurrences n members ≤ 1 then some members else none
  | .array items => if items.length = names.length then some (names.zip items) else none
  | _ => none

/-- The fields of a structure that has a default for each; an array may stop early. -/
def leadingFields? (names : List String) : Json → Option Fields
  | .object members => if names.all fun n => occurrences n members ≤ 1 then some members else none
  | .array items => if items.length ≤ names.length then some (names.zip items) else none
  | _ => none

def required {α : Type} (name : String) (read : Json → Option α) (fields : Fields) : Option α :=
  member? name fields >>= read

/-- A part that may be missing or null. -/
def optional {α : Type} (name : String) (read : Json → Option α)
    (fields : Fields) : Option (Option α) :=
  match member? name fields with
  | none => some none
  | some .null => some none
  | some j => (read j).map some

/-- A part that may be missing, but not null. -/
def orDefault {α : Type} (name : String) (default : α) (read : Json → Option α)
    (fields : Fields) : Option α :=
  match member? name fields with
  | none => some default
  | some j => read j

/-- A null part counts as given. -/
def optionalOrDefault {α : Type} (name : String) (default : Option α) (read : Json → Option α)
    (fields : Fields) : Option (Option α) :=
  match member? name fields with
  | none => some default
  | some .null => some none
  | some j => (read j).map some

/-! ## Choices -/

/-- Tag and content of a choice. -/
def choice? : Json → Option (String × Json)
  | .object [m] => some m
  | _ => none

/-- The name of a choice without content: a text, or a tag whose content is null. -/
def plainChoice? : Json → Option String
  | .text s => some s
  | .object [(s, .null)] => some s
  | _ => none

def choice (tag : String) (content : Json) : Json := .object [(tag, content)]

end Stockroom.Json
