import Stockroom.Json.Number

/-! The tokens of a JSON text. The lexer reads one character at a time: each step takes a mode and a
character to the next mode and the tokens completed by it. -/
namespace Stockroom.Json
set_option autoImplicit false

inductive Token where
  | openBracket | closeBracket | openBrace | closeBrace | comma | colon
  | null
  | bool (b : Bool)
  | number (value : Json)
  /-- A text; `none` for one with half a surrogate pair. -/
  | text (s : Option String)

/-- A part of a text: a character, or the 16-bit unit of a numeric escape. -/
inductive TextPart where
  | char (c : Char)
  | unit (n : Nat)

def isHighSurrogate (n : Nat) : Bool := 0xd800 ≤ n && n < 0xdc00

def isLowSurrogate (n : Nat) : Bool := 0xdc00 ≤ n && n < 0xe000

/-- The characters of a text; surrogate units must come in pairs. -/
def assemble : List TextPart → Option (List Char)
  | [] => some []
  | .char c :: rest => (assemble rest).map (c :: ·)
  | .unit n :: rest =>
    if isHighSurrogate n then
      match rest with
      | .unit m :: rest =>
        if isLowSurrogate m then
          (assemble rest).map (Char.ofNat (0x10000 + (n - 0xd800) * 0x400 + (m - 0xdc00)) :: ·)
        else none
      | _ => none
    else if isLowSurrogate n then none
    else (assemble rest).map (Char.ofNat n :: ·)

/-- Where the lexer stands. Lists hold what came last first. -/
inductive Mode where
  | between
  | word (rev : List Char)
  | text (rev : List TextPart)
  | escape (rev : List TextPart)
  | hex (rev : List TextPart) (value count : Nat)

def isWordChar (c : Char) : Bool := c.isAlphanum || c == '-' || c == '+' || c == '.'

/-- The four characters that may stand between tokens. -/
def isSpace (c : Char) : Bool := c == ' ' || c == '\t' || c == '\n' || c == '\r'

def wordToken? (cs : List Char) : Option Token :=
  if cs = ['n', 'u', 'l', 'l'] then some .null
  else if cs = ['t', 'r', 'u', 'e'] then some (.bool true)
  else if cs = ['f', 'a', 'l', 's', 'e'] then some (.bool false)
  else (Numeral.ofWord? cs).map fun n => .number n.toJson

def betweenStep (c : Char) : Option (Mode × List Token) :=
  match c with
  | '[' => some (.between, [.openBracket])
  | ']' => some (.between, [.closeBracket])
  | '{' => some (.between, [.openBrace])
  | '}' => some (.between, [.closeBrace])
  | ',' => some (.between, [.comma])
  | ':' => some (.between, [.colon])
  | '"' => some (.text [], [])
  | c =>
    if isSpace c then some (.between, []) else if isWordChar c then some (.word [c], []) else none

/-- The character that an escape of one letter stands for. -/
def escaped? : Char → Option Char
  | '"' => some '"'
  | '\\' => some '\\'
  | '/' => some '/'
  | 'b' => some '\x08'
  | 'f' => some '\x0c'
  | 'n' => some '\n'
  | 'r' => some '\r'
  | 't' => some '\t'
  | _ => none

def hexValue? (c : Char) : Option Nat :=
  if c.isDigit then some (c.toNat - 48)
  else if 'a' ≤ c ∧ c ≤ 'f' then some (c.toNat - 87)
  else if 'A' ≤ c ∧ c ≤ 'F' then some (c.toNat - 55)
  else none

def Mode.step : Mode → Char → Option (Mode × List Token)
  | .between, c => betweenStep c
  | .word rev, c =>
    if isWordChar c then some (.word (c :: rev), [])
    else
      match wordToken? rev.reverse, betweenStep c with
      | some t, some (mode, ts) => some (mode, t :: ts)
      | _, _ => none
  | .text rev, c =>
    if c = '"' then some (.between, [.text ((assemble rev.reverse).map String.ofList)])
    else if c = '\\' then some (.escape rev, [])
    else if c.toNat < 0x20 then none
    else some (.text (.char c :: rev), [])
  | .escape rev, c =>
    if c = 'u' then some (.hex rev 0 0, [])
    else (escaped? c).map fun c => (.text (.char c :: rev), [])
  | .hex rev value count, c =>
    (hexValue? c).map fun d =>
      if count = 3 then (.text (.unit (16 * value + d) :: rev), [])
      else (.hex rev (16 * value + d) (count + 1), [])

def Mode.finish : Mode → Option (List Token)
  | .between => some []
  | .word rev => (wordToken? rev.reverse).map ([·])
  | _ => none

/-- Reads on from a mode; the tokens so far stand in reverse. -/
def lexFrom (mode : Mode) (rev : List Token) : List Char → Option (List Token)
  | [] => mode.finish.map fun ts => rev.reverse ++ ts
  | c :: cs =>
    match mode.step c with
    | some (mode, ts) => lexFrom mode (ts.reverse ++ rev) cs
    | none => none

def tokens? (cs : List Char) : Option (List Token) := lexFrom .between [] cs

end Stockroom.Json
