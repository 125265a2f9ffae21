/-
  Custody.Element — what vectors hold: texts, which live in the store and are reached by handle, or
  primitive values, which cross the boundary as they are.
-/
import Custody.Primitive

namespace Custody

inductive Element where
  | text
  | scalar (p : Primitive)
  deriving DecidableEq, Repr

namespace Element

/-- The opaque text type's name, in symbols and in log lines. -/
def textName : String := "RustString"

/-- The name used in symbols and requests. -/
def name : Element → String
  | text => textName
  | scalar p => p.name

/-- The name under which the store's log lists the type. -/
def storedName : Element → String
  | text => "alloc::string::String"
  | scalar p => p.name

def all : List Element := text :: Primitive.all.map scalar

def ofName? (name : String) : Option Element := all.find? (·.name == name)

/-- A vector's item as it is stored. -/
abbrev Item : Element → Type
  | text => String
  | scalar p => p.Value

end Element

end Custody
