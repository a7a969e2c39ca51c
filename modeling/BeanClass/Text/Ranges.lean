/-! # Sets of characters given by ranges of code points -/

namespace BeanClass.Text

/-- Closed ranges of code points, in increasing order and disjoint. -/
abbrev Ranges := List (Nat × Nat)

/-- Membership stops at the first range that starts beyond the code point. -/
def Ranges.contains : Ranges → Nat → Bool
  | [], _ => false
  | (first, last) :: ranges, n =>
    if n < first then false else if n ≤ last then true else contains ranges n

end BeanClass.Text
