/-! # White space

The characters with the Unicode property `White_Space`, and text without them at its ends.
-/

namespace BeanClass.Text

def isBlank (c : Char) : Bool :=
  let n := c.toNat
  (0x09 ≤ n && n ≤ 0x0D) || n == 0x20 || n == 0x85 || n == 0xA0 || n == 0x1680 ||
    (0x2000 ≤ n && n ≤ 0x200A) || n == 0x2028 || n == 0x2029 || n == 0x202F || n == 0x205F ||
    n == 0x3000

def trimStart (s : List Char) : List Char :=
  s.dropWhile isBlank

def trimEnd (s : List Char) : List Char :=
  (s.reverse.dropWhile isBlank).reverse

def trim (s : List Char) : List Char :=
  trimEnd (trimStart s)

theorem length_trim_le (s : List Char) : (trim s).length ≤ s.length := by
  have h₁ := (List.dropWhile_suffix isBlank (l := s)).length_le
  have h₂ := (List.dropWhile_suffix isBlank (l := (s.dropWhile isBlank).reverse)).length_le
  simp only [trim, trimEnd, trimStart, List.length_reverse] at *
  omega

end BeanClass.Text
