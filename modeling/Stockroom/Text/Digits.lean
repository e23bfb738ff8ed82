/-! Decimal digits: reading a run of them as a number, and writing a number with a least width.
Only the ten ASCII digits count. -/
namespace Stockroom.Text
set_option autoImplicit false

def digit? (c : Char) : Option Nat := if c.isDigit then some (c.toNat - 48) else none

/-- The number that a list of digits stands for, most significant first. -/
def valueOf (ds : List Nat) : Nat := ds.foldl (fun n d => 10 * n + d) 0

/-- A number written in digits only, of which there must be at least one. -/
def number? (cs : List Char) : Option Nat :=
  if cs.isEmpty then none else (cs.mapM digit?).map valueOf

def digits (n : Nat) : List Char := Nat.toDigits 10 n

/-- The digits of `n`, with zeros in front up to the given width. -/
def padded (width n : Nat) : List Char :=
  List.replicate (width - (digits n).length) '0' ++ digits n

/-- An integer with a minus sign where it is negative. -/
def signed (n : Int) : List Char :=
  if n < 0 then '-' :: digits n.natAbs else digits n.natAbs

def showNat (n : Nat) : String := String.ofList (digits n)

def showInt (n : Int) : String := String.ofList (signed n)

/-! ## Widths -/

theorem length_padded (width n : Nat) (h : (digits n).length ≤ width) :
    (padded width n).length = width := by
  simp only [padded, List.length_append, List.length_replicate]
  omega

end Stockroom.Text
