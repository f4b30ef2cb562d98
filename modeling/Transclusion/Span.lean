/-
  The spans that the tokenizer takes as one piece, whatever markup they hold.

  Comments and blocks meant for the template's own page vanish, as do the markers around text meant
  for the including page.  Unparsed, mathematical and preformatted text is kept as it is written,
  its tags included.  A span ends at the first occurrence of its last tag; one that is never closed
  is no span.
-/
import Transclusion.Tag
import Transclusion.Token

namespace Transclusion

/-- What becomes of a span. -/
inductive SpanKind where
  /-- It has no effect on the page. -/
  | dropped
  /-- It is text, as written. -/
  | verbatim
deriving DecidableEq

/-- The token of a span. -/
def SpanKind.token : SpanKind → String → Token
  | .dropped => .skipped
  | .verbatim => .text

/-- A kind of span: the tags that it leads through, and what becomes of it. -/
structure SpanRule where
  kind : SpanKind
  tags : List Tag

/-- The spans of the markup.  No two of them open with the same tag, so their order is free. -/
def spanRules : List SpanRule := [
  ⟨.dropped, ["<noinclude>".toList, "</noinclude>".toList]⟩,
  ⟨.dropped, ["<!--".toList, "-->".toList]⟩,
  ⟨.dropped, ["<includeonly>".toList]⟩,
  ⟨.dropped, ["</includeonly>".toList]⟩,
  ⟨.verbatim, ["<nowiki>".toList, "</nowiki>".toList]⟩,
  ⟨.verbatim, ["<math>".toList, "</math>".toList]⟩,
  ⟨.verbatim, ["<pre".toList, ">".toList, "</pre>".toList]⟩]

/-- The span that begins at the start of `cs`, by its kind and length. -/
def spanAt? (cs : List Char) : Option (SpanKind × Nat) :=
  spanRules.findSome? fun rule => (spanLength? rule.tags cs).map fun length => (rule.kind, length)

end Transclusion
