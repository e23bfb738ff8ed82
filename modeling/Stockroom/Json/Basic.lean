/-! JSON documents. A document keeps the order and the repetitions of an object's members. Some
well-formed documents stand for no value in a part of theirs (a number beyond every float, a text
with half a surrogate pair, a value nested too deeply): such a part is `unreadable`, which matters
only to a reader who looks at it. -/
namespace Stockroom
set_option autoImplicit false

inductive Json where
  | null
  | bool (b : Bool)
  | integer (n : Int)
  | real (x : Float)
  | text (s : String)
  | array (items : List Json)
  | object (members : List (String × Json))
  | unreadable
  deriving Inhabited

namespace Json

/-- The members without those whose name comes again later. -/
def lastOfEach {α : Type} : List (String × α) → List (String × α)
  | [] => []
  | (name, a) :: rest =>
    if rest.any fun m => m.1 == name then lastOfEach rest else (name, a) :: lastOfEach rest

mutual

/-- The value a document stands for as a whole: of members with one name the last one counts, and no
part may be unreadable. -/
def settle : Json → Option Json
  | .array items => (settleItems items).map .array
  | .object members => (settleMembers members).map fun ms => .object (lastOfEach ms)
  | .unreadable => none
  | .null => some .null
  | .bool b => some (.bool b)
  | .integer n => some (.integer n)
  | .real x => some (.real x)
  | .text s => some (.text s)

def settleItems : List Json → Option (List Json)
  | [] => some []
  | j :: rest =>
    match settle j, settleItems rest with
    | some j, some rest => some (j :: rest)
    | _, _ => none

def settleMembers : List (String × Json) → Option (List (String × Json))
  | [] => some []
  | (name, j) :: rest =>
    match settle j, settleMembers rest with
    | some j, some rest => some ((name, j) :: rest)
    | _, _ => none

end

def isReadable (j : Json) : Bool := j.settle.isSome

/-! ## Members by name -/

/-- The value of the first member of the given name. -/
def member? (name : String) : List (String × Json) → Option Json
  | [] => none
  | (n, j) :: rest => if n = name then some j else member? name rest

/-- How many members have the given name. -/
def occurrences (name : String) (members : List (String × Json)) : Nat :=
  members.countP fun m => m.1 == name

end Json

end Stockroom
