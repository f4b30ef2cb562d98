/-
  Only-include filtering: a page may mark the parts that other pages include.

  When a text uses the marker `<onlyinclude>`, it stands for the concatenation of its marked
  spans, and everything outside them is gone.  Spans are taken from the left, each closed by the
  first closing marker behind it, so they neither nest nor overlap.
-/
import Transclusion.Tag

namespace Transclusion

namespace OnlyInclude

/-- The marker that opens a kept span. -/
def keepTag : Tag := "<onlyinclude>".toList

/-- The marker that closes a kept span. -/
def endKeepTag : Tag := "</onlyinclude>".toList

/-- Whether the exact text of `tag`, case included, occurs in `cs`. -/
def occursIn (tag : Tag) : List Char → Bool
  | [] => tag.isEmpty
  | c :: cs => tag.isPrefixOf (c :: cs) || occursIn tag cs

/-- The bodies of the kept spans of `cs`, joined, `skip` characters of `cs` belonging to a span
    that is behind already. -/
def keptChars : (skip : Nat) → List Char → List Char
  | _, [] => []
  | skip + 1, _ :: cs => keptChars skip cs
  | 0, c :: cs =>
    match spanLength? [keepTag, endKeepTag] (c :: cs) with
    | some length =>
      ((c :: cs).take (length - endKeepTag.length)).drop keepTag.length ++
        keptChars (length - 1) cs
    | none => keptChars 0 cs

end OnlyInclude

/-- The text that an including page sees, when `text` marks it.  The presence of the marker is
    tested as it is written; the spans are found without regard to case. -/
def onlyInclude? (text : String) : Option String :=
  if OnlyInclude.occursIn OnlyInclude.keepTag text.toList then
    some (String.ofList (OnlyInclude.keptChars 0 text.toList))
  else none

end Transclusion
