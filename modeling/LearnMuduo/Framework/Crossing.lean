import Mathlib.Data.List.Basic

/-!
# Crossings of a mark

The levels that something goes through, one after the other, rise to a mark and fall below it. It
rises and falls in turn, so that what is told of each rise is told once until the next fall.
-/

namespace Framework

variable {mark m n : Nat} {l : List Nat}

end Framework
