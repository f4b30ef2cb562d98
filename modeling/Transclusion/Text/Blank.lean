/-
  Blank characters, and trimming them off both ends of a text.

  Names, keys and values are written with blanks around them, `{{ name | key = value }}`, and mean
  the text between.  A character is blank when Unicode gives it the property White_Space: 25
  characters, so the class is small enough to be spelled out.
-/

namespace Transclusion.Text

/-- The characters with the property White_Space: TAB to CR, the space, NEL, the no-break space,
    and the separators of the categories Zs, Zl and Zp. -/
def isBlank (c : Char) : Bool :=
  let code := c.toNat
  (0x09 ≤ code && code ≤ 0x0d) || code == 0x20 || code == 0x85 || code == 0xa0 || code == 0x1680 ||
    (0x2000 ≤ code && code ≤ 0x200a) || code == 0x2028 || code == 0x2029 || code == 0x202f ||
    code == 0x205f || code == 0x3000

/-- The characters between the first and the last that are not blank. -/
def trimChars (cs : List Char) : List Char :=
  ((cs.dropWhile isBlank).reverse.dropWhile isBlank).reverse

/-- `text` without the blanks at its two ends. -/
def trim (text : String) : String := String.ofList (trimChars text.toList)

end Transclusion.Text
