import Mathlib.Data.Int.Log
import Mathlib.Data.Rat.Floor

/-! # Binary floating point

Numbers with a fixed number of significant bits, rounded to the nearest, ties to even.
-/

namespace Rounding

/-- The integer nearest to `y`, the even one of two. -/
def roundEven (y : ℚ) : ℤ :=
  let r := ⌊y⌋
  if y - r < 1 / 2 then r else if 1 / 2 < y - r then r + 1 else r + r % 2

/-- The number nearest to `x` with `bits` significant bits, the last of which is worth at least
`2 ^ least`. -/
def nearest (bits least : ℤ) (x : ℚ) : ℚ :=
  let ulp : ℚ := 2 ^ max (Int.log 2 |x| + 1 - bits) least
  roundEven (x / ulp) * ulp

@[simp] lemma nearest_zero (bits least : ℤ) : nearest bits least 0 = 0 := by
  simp [nearest, roundEven]

end Rounding
