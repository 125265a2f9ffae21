/-
  Custody.Hash.Sip — SipHash with one round per word and three at the end.

  The message is read in little-endian words of eight bytes; the last word holds what is left over
  and, in its top byte, the length of the message.
-/
namespace Custody.Hash

/-- The four words that the rounds mix. -/
structure Sip where
  v0 : UInt64
  v1 : UInt64
  v2 : UInt64
  v3 : UInt64

namespace Sip

def rotate (x : UInt64) (n : UInt64) : UInt64 := (x <<< n) ||| (x >>> (64 - n))

def init (k0 k1 : UInt64) : Sip :=
  ⟨k0 ^^^ 0x736f6d6570736575, k1 ^^^ 0x646f72616e646f6d,
    k0 ^^^ 0x6c7967656e657261, k1 ^^^ 0x7465646279746573⟩

def round (s : Sip) : Sip :=
  let v0 := s.v0 + s.v1
  let v1 := rotate s.v1 13 ^^^ v0
  let v0 := rotate v0 32
  let v2 := s.v2 + s.v3
  let v3 := rotate s.v3 16 ^^^ v2
  let v0 := v0 + v3
  let v3 := rotate v3 21 ^^^ v0
  let v2 := v2 + v1
  let v1 := rotate v1 17 ^^^ v2
  let v2 := rotate v2 32
  ⟨v0, v1, v2, v3⟩

/-- Takes one word of the message in. -/
def absorb (s : Sip) (word : UInt64) : Sip :=
  let s := round { s with v3 := s.v3 ^^^ word }
  { s with v0 := s.v0 ^^^ word }

def finish (s : Sip) : UInt64 :=
  let s := round (round (round { s with v2 := s.v2 ^^^ 0xff }))
  s.v0 ^^^ s.v1 ^^^ s.v2 ^^^ s.v3

/-- The number whose bytes these are, the least significant first. -/
def littleEndian (bytes : List UInt8) : UInt64 :=
  bytes.foldr (fun b n => (n <<< 8) ||| b.toUInt64) 0

/-- All whole words of the message, then the leftover with the message's length. -/
def absorbAll (length : Nat) : Sip → List UInt8 → Sip
  | s, a :: b :: c :: d :: e :: f :: g :: h :: rest =>
    absorbAll length (s.absorb (littleEndian [a, b, c, d, e, f, g, h])) rest
  | s, rest => s.absorb (littleEndian rest ||| (UInt64.ofNat length <<< 56))

end Sip

/-- The keyed hash of a message. -/
def sip (k0 k1 : UInt64) (message : List UInt8) : UInt64 :=
  ((Sip.init k0 k1).absorbAll message.length message).finish

/-- The eight bytes of a word, the least significant first. -/
def wordBytes (w : UInt64) : List UInt8 :=
  (List.range 8).map fun i => (w >>> (8 * UInt64.ofNat i)).toUInt8

end Custody.Hash
