/-
  Custody.Settings — what a consumer may set about the store. None of it changes a result.
-/
namespace Custody

structure Settings where
  /-- Whether every boundary call is logged. -/
  traceCalls : Bool
  /-- How many elements a new vector makes room for. -/
  capacityHint : UInt64
  deriving DecidableEq, Repr

namespace Settings

def initial : Settings := ⟨false, 0⟩

def debug (s : Settings) : String :=
  "RuntimeConfig \x7b trace_boundary_calls: " ++ (if s.traceCalls then "true" else "false") ++
    ", vec_capacity_hint: " ++ toString s.capacityHint ++ " \x7d"

end Settings

end Custody
