/-
  Custody.Handle — tokens that name an allocation by its address, which is never null.
-/
import Custody.Decimal.Integer

namespace Custody

structure Handle where
  address : Nat
  ne_null : address ≠ 0
  deriving DecidableEq

namespace Handle

/-- The handle of an address; null is nobody's. -/
def ofAddress? (address : Nat) : Option Handle :=
  if h : address ≠ 0 then some ⟨address, h⟩ else none

theorem ext_address {a b : Handle} (h : a.address = b.address) : a = b := by
  cases a; cases b; simp_all

/-- A handle as the log shows it, with its address written by `number`. -/
def debugWith (number : Nat → String) (h : Handle) : String :=
  "OpaqueHandle(" ++ number h.address ++ ")"

def debug (h : Handle) : String := h.debugWith Decimal.hex

end Handle

end Custody
