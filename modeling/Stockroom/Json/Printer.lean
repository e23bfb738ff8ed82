import Stockroom.Json.Basic
import Stockroom.Numeric.Binary.Shortest

/-! JSON text of a document, without spaces. Only quotes, backslashes and control characters are
escaped. A float has its shortest digits, of two equally near ones the even; it is written with a
point, and with an exponent if it is very large or very small. -/
namespace Stockroom.Json
set_option autoImplicit false

def hexDigit (n : Nat) : Char := Nat.digitChar (n % 16)

def escape (c : Char) : List Char :=
  match c with
  | '"' => ['\\', '"']
  | '\\' => ['\\', '\\']
  | '\n' => ['\\', 'n']
  | '\r' => ['\\', 'r']
  | '\t' => ['\\', 't']
  | c =>
    if c.toNat < 0x20 then ['\\', 'u', '0', '0', hexDigit (c.toNat / 16), hexDigit c.toNat] else [c]

def quoted (s : String) : List Char := '"' :: s.toList.flatMap escape ++ ['"']

/-- Where the first digit of a float stands when it is written without an exponent. -/
def isPlainRange (k : Int) : Bool := -5 < k && k ≤ 16

/-- A float's text; what is no finite number has no text of its own. -/
def realChars (x : Float) : List Char :=
  match Binary.decimal? .toEven x with
  | none => ['n', 'u', 'l', 'l']
  | some (negative, d, e) =>
    let ds := Text.digits d
    let k : Int := ds.length + e
    let body :=
      if isPlainRange k then
        if 0 ≤ e then Binary.positional d e ++ ['.', '0'] else Binary.positional d e
      else
        match ds with
        | [c] => c :: 'e' :: Text.signed (k - 1)
        | c :: cs => c :: '.' :: cs ++ 'e' :: Text.signed (k - 1)
        | [] => ['0']
    if negative then '-' :: body else body

mutual

def chars : Json → List Char
  | .null => ['n', 'u', 'l', 'l']
  | .bool true => ['t', 'r', 'u', 'e']
  | .bool false => ['f', 'a', 'l', 's', 'e']
  | .integer n => Text.signed n
  | .real x => realChars x
  | .text s => quoted s
  | .array items => '[' :: itemChars items ++ [']']
  | .object members => '{' :: memberChars members ++ ['}']
  | .unreadable => ['n', 'u', 'l', 'l']

def itemChars : List Json → List Char
  | [] => []
  | [j] => chars j
  | j :: rest => chars j ++ ',' :: itemChars rest

def memberChars : List (String × Json) → List Char
  | [] => []
  | [(name, j)] => quoted name ++ ':' :: chars j
  | (name, j) :: rest => quoted name ++ ':' :: chars j ++ ',' :: memberChars rest

end

def render (j : Json) : String := String.ofList j.chars

end Stockroom.Json
