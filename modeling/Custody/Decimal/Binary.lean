/-
  Custody.Decimal.Binary — binary floating-point values, taken apart and written in decimal.

  A value is its bits. It is written with the fewest digits that read back at its own width.
-/
import Custody.Decimal.Shortest

namespace Custody.Decimal

/-- An interchange format: one sign bit, then exponent bits, then fraction bits. -/
structure BinaryFormat where
  exponentBits : Nat
  fractionBits : Nat

def binary32 : BinaryFormat := ⟨8, 23⟩
def binary64 : BinaryFormat := ⟨11, 52⟩

/-- What the bits of a float say. -/
inductive Magnitude where
  | nan
  | infinite
  | zero
  /-- The value `mantissa · 2^exponent`, with the cell of reals that round to it. -/
  | positive (cell : Cell)

namespace BinaryFormat

/-- `mantissa · 2^exponent` with its cell. Below a power of two the neighbour is half as far. -/
def cell (mantissa : Nat) (exponent : Int) (narrow : Bool) : Cell :=
  let up := 1 <<< exponent.toNat
  { low := (4 * mantissa - if narrow then 1 else 2) * up
    value := 4 * mantissa * up
    high := (4 * mantissa + 2) * up
    den := 4 <<< (-exponent).toNat
    closed := mantissa % 2 = 0 }

def isNegative (f : BinaryFormat) (bits : Nat) : Bool :=
  bits.testBit (f.exponentBits + f.fractionBits)

def magnitude (f : BinaryFormat) (bits : Nat) : Magnitude :=
  /- the leading bit of a normal mantissa, which is not written, and the exponent of what is no number -/
  let hidden := 1 <<< f.fractionBits
  let special := (1 <<< f.exponentBits) - 1
  let fraction := bits % hidden
  let biased := bits / hidden % (special + 1)
  /- the exponent of the last fraction bit of the smallest normal and of all subnormal values -/
  let least : Int := 2 - (1 <<< (f.exponentBits - 1) : Nat) - f.fractionBits
  if biased = special then if fraction = 0 then .infinite else .nan
  else if biased = 0 then if fraction = 0 then .zero else .positive (cell fraction least false)
  else
    .positive (cell (hidden + fraction) (least + (biased - 1))
      (fraction = 0 && biased != 1))

end BinaryFormat

/-- How floats are written: where the point is put without an exponent, and the three names. -/
structure FloatStyle where
  /-- The decimal exponents of a first digit that are written without an exponent. -/
  lowest : Int
  highest : Int
  nan : String
  infinite : String
  zero : String

/-- Digits with the point after the first `p` of them, and at least one digit on each side. -/
def pointAfter (digits : List Char) (p : Int) : List Char :=
  if p ≤ 0 then ['0', '.'] ++ List.replicate (-p).toNat '0' ++ digits
  else
    let n := p.toNat
    if digits.length ≤ n then digits ++ List.replicate (n - digits.length) '0' ++ ['.', '0']
    else digits.take n ++ '.' :: digits.drop n

/-- Digits with the point after the first one, if more follow. -/
def pointAfterFirst : List Char → List Char
  | d :: e :: rest => d :: '.' :: e :: rest
  | digits => digits

/-- The decimal `d · 10^k` in the given style. -/
def FloatStyle.decimal (style : FloatStyle) (d : Nat) (k : Int) : String :=
  let digits := Nat.toDigits 10 d
  let first : Int := k + digits.length - 1
  if style.lowest ≤ first && first ≤ style.highest then
    String.ofList (pointAfter digits (first + 1))
  else String.ofList (pointAfterFirst digits) ++ "e" ++ toString first

/-- The text of a float given by its bits. -/
def BinaryFormat.text (f : BinaryFormat) (style : FloatStyle) (bits : Nat) : String :=
  let sign := if f.isNegative bits then "-" else ""
  match f.magnitude bits with
  | .nan => style.nan
  | .infinite => sign ++ style.infinite
  | .zero => sign ++ style.zero
  | .positive c => sign ++ (let (d, k) := c.shortest; style.decimal d k)

end Custody.Decimal
