/-
  Custody.Header — the C declarations of a vector type's functions.
-/
import Custody.Symbol

namespace Custody

/-- How the elements of a vector cross the boundary. -/
inductive Passing where
  /-- As a handle; null where there is none. -/
  | handle
  /-- As a value; absence needs the tagged optional. -/
  | value (p : Primitive)

/-- The C name of the optional that `pop` and `get` return for a primitive type. -/
def Primitive.cOptionType (p : Primitive) : String := Symbol.realm ++ "$Option$" ++ p.name

namespace Header

/-- The result type of an operation. -/
def result : VectorOp → Passing → String
  | .new, _ => "void*"
  | .drop, _ => "void"
  | .len, _ => "uintptr_t"
  | .push, _ => "void"
  | .pop, .handle | .get, .handle | .getMut, .handle | .start, .handle => "void*"
  | .pop, .value p | .get, .value p | .getMut, .value p => p.cOptionType
  | .start, .value p => "const " ++ p.cType ++ "*"

/-- The parameters of an operation. -/
def parameters : VectorOp → Passing → String
  | .new, _ => "void"
  | .drop, _ | .len, _ | .pop, _ | .start, _ => "void* vec_ptr"
  | .push, .handle => "void* vec_ptr, void* item_ptr"
  | .push, .value p => "void* vec_ptr, " ++ p.cType ++ " item"
  | .get, _ | .getMut, _ => "void* vec_ptr, uintptr_t index"

/-- One function declaration, without its line end. -/
def declaration (result : String) (symbol : Symbol) (parameters : String) : String :=
  result ++ " " ++ symbol.linkName ++ "(" ++ parameters ++ ");"

/-- The declarations of the eight vector operations. -/
def vectorLines (element : String) (passing : Passing) : List String :=
  VectorOp.all.map fun op =>
    declaration (result op passing) (.vector element op) (parameters op passing)

/-- The header of an opaque element type: the type, its `_free`, and its vectors. -/
def opaqueLines (type : String) : List String :=
  ("typedef struct " ++ type ++ " " ++ type ++ ";") ::
    declaration "void" (.method type TextOp.free.name) "void* self" :: vectorLines type .handle

/-- The header of a primitive element type: its optional, and its vectors. -/
def primitiveLines (p : Primitive) : List String :=
  ("typedef struct " ++ p.cOptionType ++ " \x7b bool is_some; " ++ p.cType ++ " val; \x7d " ++
      p.cOptionType ++ ";") :: vectorLines p.name (.value p)

/-- Lines as a text, each with its line end. -/
def render (lines : List String) : String := String.join (lines.map (· ++ "\n"))

end Header

end Custody
