/-!
# Blank characters

The characters that count as blank: the 25 code points of the White_Space property.
-/

namespace TranslitScheme.Text

/-- A character has the White_Space property. -/
def isBlank (c : Char) : Bool :=
  let code := c.toNat
  (decide (9 ≤ code) && decide (code ≤ 13)) || code == 0x20 || code == 0x85 || code == 0xA0 ||
    code == 0x1680 || (decide (0x2000 ≤ code) && decide (code ≤ 0x200A)) || code == 0x2028 ||
    code == 0x2029 || code == 0x202F || code == 0x205F || code == 0x3000

end TranslitScheme.Text
