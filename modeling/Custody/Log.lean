/-
  Custody.Log — what the library says while it works.

  Boundary calls speak as they are entered, while tracing is on; owners and the store speak of every
  allocation that begins, ends or changes hands, and of every change of the settings.
-/
import Custody.Handle
import Custody.Settings
import Custody.Symbol

namespace Custody

/-- An exported function: an operation of the text type, or of the vectors of an element type. -/
inductive Entry where
  | text (op : TextOp)
  | vector (element : Element) (op : VectorOp)
  deriving DecidableEq, Repr

def Entry.symbol : Entry → Symbol
  | .text op => .method Element.textName op.name
  | .vector element op => .vector element.name op

/-- One record of the log. -/
inductive LogRecord where
  /-- The store was given these settings. -/
  | configured (settings : Settings)
  /-- A boundary call was entered. -/
  | call (entry : Entry)
  | allocated (element : Element) (vector : Handle) (capacity : UInt64)
  /-- The store gives a vector up, with `count` elements in it. -/
  | dropped (element : Element) (vector : Handle) (count : UInt64)
  /-- A consumer took a new vector. -/
  | vectorTaken (vector : Handle)
  /-- A consumer gives a vector back. -/
  | vectorGiven (vector : Handle)
  /-- An owner lets go of its handle without giving it back. -/
  | released (type : String) (handle : Handle)
  /-- An owner gives its handle back. -/
  | freeing (type : String) (handle : Handle)
  deriving DecidableEq

inductive LogLevel where
  | debug | trace
  deriving DecidableEq, Repr

def LogLevel.name : LogLevel → String
  | .debug => "DEBUG"
  | .trace => "TRACE"

namespace LogRecord

def level : LogRecord → LogLevel
  | .configured _ | .allocated .. | .dropped .. => .debug
  | _ => .trace

/-- Which part of the library speaks. -/
def target : LogRecord → String
  | .configured _ => "core_runtime::config"
  | .call _ => "core_runtime::boundary"
  | .allocated .. | .dropped .. => "core_runtime::vec"
  | .vectorTaken _ | .vectorGiven _ => "bridge::vec"
  | .released .. | .freeing .. => "bridge::owned"

/-- The record's text, with addresses written by `number`. -/
def message (number : Nat → String) : LogRecord → String
  | .configured settings => "core runtime configured: " ++ settings.debug
  | .call entry => entry.symbol.call
  | .allocated element h capacity =>
    "allocated Vec<" ++ element.storedName ++ "> " ++ number h.address ++ " (capacity " ++
      toString capacity ++ ")"
  | .dropped element h count =>
    "dropping Vec<" ++ element.storedName ++ "> " ++ number h.address ++ " with " ++
      toString count ++ " elements"
  | .vectorTaken h => "new RustVec " ++ h.debugWith number
  | .vectorGiven h => "dropping RustVec " ++ h.debugWith number
  | .released type h => "released " ++ type ++ " " ++ h.debugWith number
  | .freeing type h => "freeing " ++ type ++ " " ++ h.debugWith number

/-- The record on one line: its level, its target and its text. -/
def line (number : Nat → String) (r : LogRecord) : String :=
  r.level.name ++ " " ++ r.target ++ " " ++ r.message number

def isCall : LogRecord → Bool
  | .call _ => true
  | _ => false

end LogRecord

end Custody
