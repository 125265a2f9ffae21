/-
  Custody.Error — what is wrong with boundary values put together from untrusted parts.
-/
namespace Custody

inductive BoundaryError where
  /-- A view of `len` elements starts nowhere. -/
  | nullStart (len : UInt64)
  /-- The bytes of a text are UTF-8 up to `validUpTo` and not beyond. -/
  | notUtf8 (validUpTo : UInt64)
  /-- No primitive type has this name. -/
  | unknownPrimitive (name : String)
  deriving DecidableEq, Repr

def BoundaryError.message : BoundaryError → String
  | .nullStart len => "slice view of " ++ toString len ++ " elements has a null start pointer"
  | .notUtf8 n => "text view is not valid UTF-8 (valid up to byte " ++ toString n ++ ")"
  | .unknownPrimitive name => "unknown primitive type name: " ++ name

end Custody
