/-
  Custody.Symbol — names of the functions that the boundary exports.

  A function belongs to an owner, either an opaque type or the vectors of an element type, and its
  link name joins the two: `__bridge__$<owner>$<operation>`.
-/
import Custody.Element
import Custody.Text.Quoted

namespace Custody

/-- The operations that every vector has. -/
inductive VectorOp where
  | new | drop | push | pop | get | getMut | len | start
  deriving DecidableEq, Repr

namespace VectorOp

/-- All operations, in the order in which a header declares them. -/
def all : List VectorOp := [new, drop, push, pop, get, getMut, len, start]

theorem mem_all (op : VectorOp) : op ∈ all := by cases op <;> decide

/-- The operation's part of a link name. -/
def name : VectorOp → String
  | new => "new" | drop => "drop" | push => "push" | pop => "pop" | get => "get"
  | getMut => "get_mut" | len => "len" | start => "as_ptr"

end VectorOp

/-- The operations of the text type. -/
inductive TextOp where
  | new | ofView | free | len | view | trim | append | clear | equals | hash
  deriving DecidableEq, Repr

namespace TextOp

def all : List TextOp := [new, ofView, free, len, view, trim, append, clear, equals, hash]

theorem mem_all (op : TextOp) : op ∈ all := by cases op <;> decide

def name : TextOp → String
  | new => "new" | ofView => "new_with_str" | free => "_free" | len => "len"
  | view => "as_str" | trim => "trim" | append => "push_str" | clear => "clear"
  | equals => "_partial_eq" | hash => "_hash"

end TextOp

/-- Names one exported function. -/
structure Symbol where
  owner : String
  op : String
  deriving DecidableEq, Repr

namespace Symbol

/-- What every link name starts with. -/
def realm : String := "__bridge__"

/-- A function of an opaque type. -/
def method (type op : String) : Symbol := ⟨type, op⟩

/-- A function of the vectors whose elements have the given name. -/
def vector (element : String) (op : VectorOp) : Symbol := ⟨"Vec_" ++ element, op.name⟩

/-- The name without its realm, as the log shows it. -/
def call (s : Symbol) : String := s.owner ++ "$" ++ s.op

def linkName (s : Symbol) : String := realm ++ "$" ++ s.call

/-- The symbol's parts, quoted. -/
def debug (s : Symbol) : String :=
  "BoundarySymbol \x7b owner: " ++ Text.quote s.owner ++ ", op: " ++ Text.quote s.op ++ " \x7d"

end Symbol

end Custody
