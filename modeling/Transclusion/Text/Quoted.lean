/-
  Quoted text: a form of any text that fits on one line and shows every character.

  A quoted text stands between two `"`.  The quote and the backslash are written with a backslash
  before them, TAB, LF, CR and NUL by their letters, and every other character that would be
  invisible, or would attach to its neighbour, by its code point as `\u{hex}`.  All else stands for
  itself.  No line break survives quoting, which is what makes a line-based report of arbitrary
  names readable.
-/
import Transclusion.Text.EscapeTable

namespace Transclusion.Text

/-- Whether a quoted text names `c` by its code point: `c` has no visible form of its own, or
    extends the character before it. -/
def isEscaped (c : Char) : Bool :=
  if c.toNat < 0x10000 then escapedRangesBasic.has c.toNat
  else escapedRangesSupplementary.has c.toNat

theorem isEscaped_iff {c : Char} : isEscaped c = true ↔
    ∃ r ∈ escapedRangesBasic ++ escapedRangesSupplementary, r.1 ≤ c.toNat ∧ c.toNat ≤ r.2 :=
  areHalves_escapedRanges.has_iff

/-- The form of `c` inside a quoted text. -/
def quoteChar (c : Char) : List Char :=
  match c with
  | '"' => ['\\', '"']
  | '\\' => ['\\', '\\']
  | '\t' => ['\\', 't']
  | '\n' => ['\\', 'n']
  | '\r' => ['\\', 'r']
  | '\x00' => ['\\', '0']
  | _ => if isEscaped c then ['\\', 'u', '{'] ++ Nat.toDigits 16 c.toNat ++ ['}'] else [c]

/-- `text` between quotes, on one line. -/
def quote (text : String) : String :=
  String.ofList ('"' :: text.toList.flatMap quoteChar ++ ['"'])

end Transclusion.Text
