/-
  Custody.Text.Quoted — a text between double quotes, in characters that a reader can tell apart.

  The quote, the backslash and the control characters with a letter of their own are written with
  a backslash; every other character that is not `plain` is written as its code point in braces.
-/
import Custody.Text.GraphemeExtend
import Custody.Text.Unprintable

namespace Custody.Text

/-- The letters among the characters that extend the one before them: the halfwidth voiced and
    semi-voiced sound marks. They are not drawn onto it but take a place of their own. -/
def extendingLetters : Ranges := [(0xff9e, 0xff9f)]

/-- Characters that are drawn onto the one before them. -/
def isCombining (c : Char) : Bool := graphemeExtend.contains c && !extendingLetters.contains c

/-- Characters that stand for themselves: they leave a mark, and a mark of their own. -/
def isPlain (c : Char) : Bool := !isCombining c && !unprintable.contains c

/-- A code point in lower-case hexadecimal, between braces. -/
def codePoint (c : Char) : List Char :=
  ['\\', 'u', '\x7b'] ++ Nat.toDigits 16 c.toNat ++ ['\x7d']

/-- The written form of one character, where `plain` says which ones stand for themselves. -/
def escape (plain : Char → Bool) (c : Char) : List Char :=
  if c = '"' then ['\\', '"']
  else if c = '\\' then ['\\', '\\']
  else if c = '\n' then ['\\', 'n']
  else if c = '\r' then ['\\', 'r']
  else if c = '\t' then ['\\', 't']
  else if c = '\x00' then ['\\', '0']
  else if plain c then [c]
  else codePoint c

/-- A text between double quotes, character by character. -/
def quoteChars (plain : Char → Bool) (cs : List Char) : List Char :=
  '"' :: cs.flatMap (escape plain) ++ ['"']

def quote (text : String) : String := String.ofList (quoteChars isPlain text.toList)

end Custody.Text
