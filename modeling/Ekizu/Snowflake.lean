import Mathlib.Tactic.Common

/-!
# Snowflakes
-/

namespace Ekizu

/-- `Snowflake`: the identifier of a resource. -/
structure Snowflake where
  id : UInt64
  deriving DecidableEq, Hashable

end Ekizu
