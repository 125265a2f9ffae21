/-
  Custody.Decimal.Integer — whole numbers in decimal digits.

  A number is read from an optional sign and at least one digit, with nothing before, between or
  after them; a sign is only for those who ask for it.
-/
namespace Custody.Decimal

def isDigit (c : Char) : Bool := '0' ≤ c && c ≤ '9'

/-- The number that a list of digits writes, most significant first. -/
def ofDigits (cs : List Char) : Nat := cs.foldl (fun n c => n * 10 + (c.toNat - '0'.toNat)) 0

/-- At least one digit and nothing else. -/
def digits? (cs : List Char) : Option Nat :=
  if cs.isEmpty || !cs.all isDigit then none else some (ofDigits cs)

/-- A whole number with an optional sign. -/
def int? (text : String) : Option Int :=
  match text.toList with
  | '-' :: cs => (digits? cs).map fun n => -(n : Int)
  | '+' :: cs => (digits? cs).map Int.ofNat
  | cs => (digits? cs).map Int.ofNat

/-- A whole number from `lo` to `hi`. A minus sign is refused where nothing below zero is allowed. -/
def bounded? (lo hi : Int) (text : String) : Option Int :=
  if 0 ≤ lo && text.toList.head? = some '-' then none
  else (int? text).filter fun n => lo ≤ n && n ≤ hi

def nat? (bound : Nat) (text : String) : Option Nat :=
  (bounded? 0 bound text).map Int.toNat

/-- The digits of a number in base sixteen, lower case, after `0x`. -/
def hex (n : Nat) : String := "0x" ++ String.ofList (Nat.toDigits 16 n)

end Custody.Decimal
