/-
  Tags: the fixed texts, such as `<nowiki>`, that open and close a span of markup.

  A tag is matched without regard to the case of ASCII letters, and of no others.  A span opens
  with a tag at the cursor, and each further tag is taken at its first occurrence after the one
  before it.
-/

namespace Transclusion

/-- The text of a tag. -/
abbrev Tag := List Char

namespace Tag

/-- Whether `cs` begins with the tag, ASCII letters compared without regard to case. -/
def standsAt : Tag → List Char → Bool
  | [], _ => true
  | _ :: _, [] => false
  | t :: tag, c :: cs => t.toLower == c.toLower && standsAt tag cs

/-- How many characters stand before the first occurrence of the tag, `before` of them being
    counted already. -/
def findFrom (tag : Tag) (before : Nat) : List Char → Option Nat
  | [] => none
  | c :: cs => if tag.standsAt (c :: cs) then some before else tag.findFrom (before + 1) cs

/-- How many characters of `cs` stand before the first occurrence of the tag. -/
def find? (tag : Tag) (cs : List Char) : Option Nat := tag.findFrom 0 cs

end Tag

/-- How many characters it takes to come through `tags`, each taken at its first occurrence after
    the one before; `passed` of them are counted already. -/
def lengthThrough : List Tag → Nat → List Char → Option Nat
  | [], passed, _ => some passed
  | tag :: later, passed, cs =>
    match tag.find? cs with
    | none => none
    | some before =>
      lengthThrough later (passed + before + tag.length) (cs.drop (before + tag.length))

/-- The length of the span that opens at the start of `cs` with the first of `tags` and ends with
    the last of them; nothing when no such span begins there, or it is not closed. -/
def spanLength? (tags : List Tag) (cs : List Char) : Option Nat :=
  match tags with
  | [] => none
  | opening :: later =>
    if opening.standsAt cs then lengthThrough later opening.length (cs.drop opening.length)
    else none

end Transclusion
