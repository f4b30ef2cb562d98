/-
  Word characters: the letters, digits, marks and joiners that a parameter name is made of.
-/
import Transclusion.Text.WordTable

namespace Transclusion.Text

/-- Whether `c` may stand in a word: alphabetic, a combining mark, a decimal digit, connector
    punctuation or a join control. -/
def isWordChar (c : Char) : Bool :=
  if c.toNat < 0x10000 then wordRangesBasic.has c.toNat else wordRangesSupplementary.has c.toNat

theorem isWordChar_iff {c : Char} : isWordChar c = true ↔
    ∃ r ∈ wordRangesBasic ++ wordRangesSupplementary, r.1 ≤ c.toNat ∧ c.toNat ≤ r.2 :=
  areHalves_wordRanges.has_iff

/-- Whether `cs` is a word: at least one character, and word characters only. -/
def isWord (cs : List Char) : Bool := !cs.isEmpty && cs.all isWordChar

end Transclusion.Text
