/-
  Custody.Primitive — the thirteen types whose values cross the boundary by value.

  A value is its bits at the width of its type; the type's `reading` says what the bits mean. Bits
  are moved unchanged, so a float keeps its sign of zero and its NaN payload.
-/
import Custody.Decimal.Binary
import Custody.Decimal.Integer

namespace Custody

inductive Primitive where
  | u8 | u16 | u32 | u64 | usize
  | i8 | i16 | i32 | i64 | isize
  | f32 | f64
  | bool
  deriving DecidableEq, Repr

namespace Primitive

/-- All types, in the order in which listings show them. -/
def all : List Primitive :=
  [u8, u16, u32, u64, usize, i8, i16, i32, i64, isize, f32, f64, bool]

theorem mem_all (p : Primitive) : p ∈ all := by cases p <;> decide

/-- The name used in symbols (`Vec_u8`) and on the command line. -/
def name : Primitive → String
  | u8 => "u8" | u16 => "u16" | u32 => "u32" | u64 => "u64" | usize => "usize"
  | i8 => "i8" | i16 => "i16" | i32 => "i32" | i64 => "i64" | isize => "isize"
  | f32 => "f32" | f64 => "f64"
  | bool => "bool"

/-- The type's name in C declarations. -/
def cType : Primitive → String
  | u8 => "uint8_t" | u16 => "uint16_t" | u32 => "uint32_t" | u64 => "uint64_t" | usize => "uintptr_t"
  | i8 => "int8_t" | i16 => "int16_t" | i32 => "int32_t" | i64 => "int64_t" | isize => "intptr_t"
  | f32 => "float" | f64 => "double"
  | bool => "bool"

/-- The type of a given name. -/
def ofName? (name : String) : Option Primitive := all.find? (·.name == name)

theorem name_injective {p q : Primitive} (h : p.name = q.name) : p = q := by
  cases p <;> cases q <;> first | rfl | (revert h; decide)

/-- What the bits of a value mean. -/
inductive Reading where
  | unsigned
  | signed
  | float (format : Decimal.BinaryFormat)
  | truth

def reading : Primitive → Reading
  | u8 | u16 | u32 | u64 | usize => .unsigned
  | i8 | i16 | i32 | i64 | isize => .signed
  | f32 => .float Decimal.binary32
  | f64 => .float Decimal.binary64
  | bool => .truth

/-- How many bits a value has. -/
def width : Primitive → Nat
  | u8 | i8 => 8
  | u16 | i16 => 16
  | u32 | i32 | f32 => 32
  | u64 | usize | i64 | isize | f64 => 64
  | bool => 1

/-- A value of the type: its bits. -/
abbrev Value (p : Primitive) : Type := BitVec p.width

/-- The value that stands where there is none: zero, or false. -/
def zero (p : Primitive) : p.Value := 0#_

/-- Floats are written without an exponent from 10^-4 up to 10^16, with a digit after the point; a
    NaN has no sign. -/
def floatStyle : Decimal.FloatStyle := ⟨-4, 15, "NaN", "inf", "0.0"⟩

/-- The text of a value as listings show it. -/
def text (p : Primitive) (v : p.Value) : String :=
  match p.reading with
  | .unsigned => toString v.toNat
  | .signed => toString v.toInt
  | .float format => format.text floatStyle v.toNat
  | .truth => if v = 0#_ then "false" else "true"

/-- The value that a number has in the type, if it has room for it. -/
def ofInt? (p : Primitive) (n : Int) : Option p.Value :=
  let v := BitVec.ofInt p.width n
  let back : Int := match p.reading with
    | .signed => v.toInt
    | _ => v.toNat
  if back = n then some v else none

end Primitive

end Custody
