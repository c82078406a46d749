import DerivCalc.Elementary

/-!
# The elementary functions of the machine
-/

namespace DerivCalc.Elementary

/-- The functions of the machine's own mathematical library. -/
instance native : Elementary where
  sin := Float.sin
  cos := Float.cos
  tan := Float.tan
  log := Float.log
  pow := Float.pow

end DerivCalc.Elementary
