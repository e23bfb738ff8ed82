import Stockroom.Json.Lexer

/-! Documents from tokens. The containers under way stand on a stack, so that the reader goes once
over the tokens. A container at the 128th level of nesting or deeper is unreadable. -/
namespace Stockroom.Json
set_option autoImplicit false

/-- A container under way: its parts so far, last first. -/
inductive Frame where
  | array (rev : List Json)
  | object (rev : List (Option String × Json)) (name : Option String)

/-- What the next token may be. -/
inductive Expectation where
  | value
  | valueOrClose
  | nameOrClose
  | name
  | colon
  | commaOrClose
  | nothing
  deriving DecidableEq

structure Progress where
  stack : List Frame
  expected : Expectation
  result : Option Json

def Progress.start : Progress := ⟨[], .value, none⟩

/-- Hands a finished value to the innermost container. -/
def Progress.complete (stack : List Frame) (j : Json) : Progress :=
  match stack with
  | [] => ⟨[], .nothing, some j⟩
  | .array rev :: stack => ⟨.array (j :: rev) :: stack, .commaOrClose, none⟩
  | .object rev name :: stack => ⟨.object ((name, j) :: rev) none :: stack, .commaOrClose, none⟩

def maxDepth : Nat := 127

/-- The members in their order, if every name is readable. -/
def namedMembers? : List (Option String × Json) → Option (List (String × Json))
  | [] => some []
  | (some n, j) :: rest => (namedMembers? rest).map ((n, j) :: ·)
  | (none, _) :: _ => none

/-- A finished container; `depth` counts the containers around it and itself. -/
def Frame.close (depth : Nat) : Frame → Json
  | .array rev => if depth ≤ maxDepth then .array rev.reverse else .unreadable
  | .object rev _ =>
    if depth ≤ maxDepth then (namedMembers? rev.reverse).elim .unreadable .object else .unreadable

def Progress.takesValue (p : Progress) : Bool := p.expected == .value || p.expected == .valueOrClose

def Progress.step (p : Progress) : Token → Option Progress
  | .null => if p.takesValue then some (complete p.stack .null) else none
  | .bool b => if p.takesValue then some (complete p.stack (.bool b)) else none
  | .number j => if p.takesValue then some (complete p.stack j) else none
  | .text s =>
    if p.takesValue then some (complete p.stack (s.elim .unreadable .text))
    else if p.expected == .name || p.expected == .nameOrClose then
      match p.stack with
      | .object rev _ :: stack => some ⟨.object rev s :: stack, .colon, none⟩
      | _ => none
    else none
  | .openBracket => if p.takesValue then some ⟨.array [] :: p.stack, .valueOrClose, none⟩ else none
  | .openBrace =>
    if p.takesValue then some ⟨.object [] none :: p.stack, .nameOrClose, none⟩ else none
  | .closeBracket =>
    match p.stack with
    | .array rev :: stack =>
      if p.expected == .valueOrClose || p.expected == .commaOrClose then
        some (complete stack (Frame.close p.stack.length (.array rev)))
      else none
    | _ => none
  | .closeBrace =>
    match p.stack with
    | .object rev name :: stack =>
      if p.expected == .nameOrClose || p.expected == .commaOrClose then
        some (complete stack (Frame.close p.stack.length (.object rev name)))
      else none
    | _ => none
  | .comma =>
    if p.expected == .commaOrClose then
      match p.stack with
      | .array _ :: _ => some { p with expected := .value }
      | .object _ _ :: _ => some { p with expected := .name }
      | [] => none
    else none
  | .colon => if p.expected == .colon then some { p with expected := .value } else none

def Progress.run (p : Progress) : List Token → Option Json
  | [] => if p.expected == .nothing then p.result else none
  | t :: ts =>
    match p.step t with
    | some p => Progress.run p ts
    | none => none

def parse? (s : String) : Option Json := tokens? s.toList >>= Progress.start.run

end Stockroom.Json
