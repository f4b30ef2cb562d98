/-
  Spans are opaque, and end at their first terminator.

  `IsSpan` says how a span is written, without the rules that the tokenizer looks spans up by: a
  block between two tags, a comment, a marker.  What stands between the tags may be any text but
  for the closing tag, other markup and unfinished tags included.

  A rule leads through its tags, each taken at its first occurrence (`LeadsThrough`), and by
  `EndsOnce.find?_append` a first occurrence is found wherever it stands, whatever is behind it
  (`lengthThrough_append`).  As no two rules open with the same tag (`opening_inj`), a text begins
  with a span for the tokenizer exactly if it begins with one as it is written (`spanAt?_append`,
  `exists_isSpan_of_spanAt?`).

  Main statement, `tokens_append_tag`: behind a text without `<`, a span is one token whatever its
  body and whatever follows it, and a `<` that begins no span is a text of its own.
-/
import Mathlib.Data.List.Infix
import Transclusion.Proofs.Token.Joints
import Transclusion.Proofs.Token.OnlyInclude

namespace Transclusion

namespace Tag

instance (tag : Tag) (written : List Char) : Decidable (tag.Matches written) :=
  inferInstanceAs (Decidable (fold written = fold tag))

instance (tag : Tag) (cs : List Char) : Decidable (tag.OccursIn cs) :=
  inferInstanceAs (Decidable (fold tag <:+: fold cs))

/-! ## Tags without letters -/

/-- There is no letter in the tag. -/
def Caseless (tag : Tag) : Prop := ∀ c ∈ tag, c.isAlpha = false

instance (tag : Tag) : Decidable tag.Caseless :=
  List.decidableBAll (fun c : Char => c.isAlpha = false) tag

theorem Caseless.matches_iff {tag : Tag} (h : tag.Caseless) {written : List Char} :
    tag.Matches written ↔ written = tag := by
  refine ⟨fun hwritten => ?_, fun heq => congrArg fold heq⟩
  induction tag generalizing written with
  | nil => exact List.map_eq_nil_iff.1 hwritten
  | cons c tag ih =>
    obtain ⟨d, rest, rfl, hd, hrest⟩ := List.map_eq_cons_iff.1 hwritten
    obtain ⟨hc, htag⟩ := List.forall_mem_cons.1 h
    rw [eq_of_toLower_eq hc hd, ih htag hrest]

theorem Caseless.occursIn_iff {tag : Tag} (h : tag.Caseless) {cs : List Char} :
    tag.OccursIn cs ↔ tag <:+: cs := by
  constructor
  · intro hoccurs
    obtain ⟨written, hwritten, hfold⟩ := List.infix_map_iff.1 hoccurs
    rwa [← h.matches_iff.1 hfold.symm]
  · intro hoccurs
    exact hoccurs.map Char.toLower

/-! ## The way through tags -/

/-- The text leads through the tags, each of them taken at its first occurrence, and ends with the
    last one. -/
inductive LeadsThrough : List Tag → List Char → Prop where
  | nil : LeadsThrough [] []
  | cons {tag : Tag} {later : List Tag} {gap written rest : List Char}
      (hgap : ¬tag.OccursIn gap) (hwritten : tag.Matches written) (h : LeadsThrough later rest) :
      LeadsThrough (tag :: later) (gap ++ (written ++ rest))

/-- **First occurrences are found**, whatever stands behind the last tag. -/
theorem LeadsThrough.lengthThrough_append {tags : List Tag} {span : List Char}
    (h : LeadsThrough tags span) (hends : ∀ tag ∈ tags, EndsOnce tag) (passed : Nat)
    (behind : List Char) :
    lengthThrough tags passed (span ++ behind) = some (passed + span.length) := by
  induction h generalizing passed with
  | nil => rfl
  | @cons tag later gap written rest hgap hwritten hrest ih =>
    obtain ⟨htag, hlater⟩ := List.forall_mem_cons.1 hends
    have hfound := htag.find?_append hgap hwritten (rest ++ behind)
    have hbehind : (gap ++ (written ++ (rest ++ behind))).drop (gap.length + tag.length) =
        rest ++ behind := by
      rw [← hwritten.length_eq, List.drop_length_add_append, List.drop_left]
    rw [List.append_assoc, List.append_assoc, lengthThrough, hfound]
    simp only
    rw [hbehind, ih hlater, ← hwritten.length_eq]
    simp only [List.length_append]
    congr 1
    omega

/-- What the way through tags is found to be leads through them. -/
theorem exists_leadsThrough {tags : List Tag} (hends : ∀ tag ∈ tags, EndsOnce tag)
    {passed length : Nat} {cs : List Char} (h : lengthThrough tags passed cs = some length) :
    ∃ span behind, cs = span ++ behind ∧ LeadsThrough tags span := by
  induction tags generalizing passed cs with
  | nil => exact ⟨[], cs, rfl, .nil⟩
  | cons tag later ih =>
    obtain ⟨htag, hlater⟩ := List.forall_mem_cons.1 hends
    rw [lengthThrough] at h
    split at h
    · contradiction
    · next before hfound =>
      have hoccurs : tag.OccursIn cs := by
        apply Classical.byContradiction
        intro hnone
        rw [(find?_eq_none_iff htag.ne_nil).2 hnone] at hfound
        contradiction
      obtain ⟨gap, written, rest, rfl, hwritten, hgap⟩ := exists_of_occursIn htag.ne_nil hoccurs
      obtain rfl : gap.length = before := by
        rw [htag.find?_append hgap hwritten] at hfound
        exact Option.some.inj hfound
      rw [← hwritten.length_eq, List.drop_length_add_append, List.drop_left] at h
      obtain ⟨span, behind, rfl, hspan⟩ := ih hlater h
      exact ⟨gap ++ (written ++ span), behind, by simp only [List.append_assoc],
        .cons hgap hwritten hspan⟩

end Tag

open Tag

/-! ## Spans by the rules of the tokenizer -/

namespace SpanRule

/-- The tag that opens a span. -/
def opening (rule : SpanRule) : Tag := rule.tags.headD []

/-- A span as the rule takes it: its opening tag, and from there on through the other ones. -/
def Takes (rule : SpanRule) (span : List Char) : Prop :=
  ∃ written rest, span = written ++ rest ∧ rule.opening.Matches written ∧
    LeadsThrough rule.tags.tail rest

/-- Every rule has an opening tag, which begins with `<`. -/
theorem tags_eq : ∀ rule ∈ spanRules,
    rule.tags = rule.opening :: rule.tags.tail ∧ rule.opening.head? = some '<' := by decide

/-- Every tag that is searched for ends with the only `>` in it. -/
theorem endsOnce_of_mem_tail : ∀ rule ∈ spanRules, ∀ tag ∈ rule.tags.tail, EndsOnce tag := by
  have hlast : ∀ rule ∈ spanRules, ∀ tag ∈ rule.tags.tail,
      tag = tag.dropLast ++ ['>'] ∧ '>'.toLower ∉ fold tag.dropLast := by decide
  intro rule hrule tag htag
  obtain ⟨heq, hnot⟩ := hlast rule hrule tag htag
  exact ⟨tag.dropLast, '>', heq, hnot⟩

/-- No two rules open with the same tag. -/
theorem opening_inj {rule other : SpanRule} (hrule : rule ∈ spanRules) (hother : other ∈ spanRules)
    {cs : List Char} (h : rule.opening.standsAt cs = true) (ho : other.opening.standsAt cs = true) :
    rule = other := by
  have hapart : ∀ rule ∈ spanRules, ∀ other ∈ spanRules,
      fold rule.opening <+: fold other.opening →
        rule.kind = other.kind ∧ rule.tags = other.tags := by decide
  have hsame : rule.kind = other.kind ∧ rule.tags = other.tags := by
    rcases List.prefix_or_prefix_of_prefix (standsAt_iff.1 h) (standsAt_iff.1 ho) with hle | hge
    · exact hapart rule hrule other hother hle
    · obtain ⟨hkind, htags⟩ := hapart other hother rule hrule hge
      exact ⟨hkind.symm, htags.symm⟩
  obtain ⟨kind, tags⟩ := rule
  obtain ⟨otherKind, otherTags⟩ := other
  obtain ⟨rfl, rfl⟩ := hsame
  rfl

variable {rule : SpanRule}

theorem spanLength?_eq (hrule : rule ∈ spanRules) (cs : List Char) :
    spanLength? rule.tags cs =
      if rule.opening.standsAt cs then
        lengthThrough rule.tags.tail rule.opening.length (cs.drop rule.opening.length)
      else none := by
  rw [(tags_eq rule hrule).1]
  rfl

theorem standsAt_of_spanLength? (hrule : rule ∈ spanRules) {cs : List Char} {length : Nat}
    (h : spanLength? rule.tags cs = some length) : rule.opening.standsAt cs = true := by
  rw [spanLength?_eq hrule] at h
  split at h
  · assumption
  · contradiction

theorem Takes.spanLength?_append {span : List Char} (h : rule.Takes span)
    (hrule : rule ∈ spanRules) (behind : List Char) :
    spanLength? rule.tags (span ++ behind) = some span.length := by
  obtain ⟨written, rest, rfl, hwritten, hrest⟩ := h
  rw [spanLength?_eq hrule, List.append_assoc, if_pos (hwritten.standsAt_append _),
    ← hwritten.length_eq, List.drop_left,
    hrest.lengthThrough_append (endsOnce_of_mem_tail rule hrule), List.length_append]

theorem exists_takes (hrule : rule ∈ spanRules) {cs : List Char} {length : Nat}
    (h : spanLength? rule.tags cs = some length) :
    ∃ span behind, cs = span ++ behind ∧ rule.Takes span := by
  rw [spanLength?_eq hrule] at h
  split at h
  · next hstands =>
    obtain ⟨written, rest, rfl, hwritten⟩ := exists_eq_append_of_standsAt hstands
    rw [← hwritten.length_eq, List.drop_left] at h
    obtain ⟨span, behind, rfl, hspan⟩ := exists_leadsThrough (endsOnce_of_mem_tail rule hrule) h
    exact ⟨written ++ span, behind, (List.append_assoc _ _ _).symm, written, span, rfl, hwritten,
      hspan⟩
  · contradiction

end SpanRule

/-! ## Spans as they are written -/

/-- A body between two tags, which does not hold the closing one. -/
def IsBlock (opening closing : Tag) (span : List Char) : Prop :=
  ∃ front body behind, span = front ++ (body ++ behind) ∧ opening.Matches front ∧
    ¬closing.OccursIn body ∧ closing.Matches behind

/-- A span as it is written, and what becomes of it.  Tags may be written in any case. -/
inductive IsSpan : SpanKind → List Char → Prop where
  | noinclude {span : List Char} (h : IsBlock "<noinclude>".toList "</noinclude>".toList span) :
      IsSpan .dropped span
  | comment {body : List Char} (h : ¬"-->".toList <:+: body) :
      IsSpan .dropped ("<!--".toList ++ (body ++ "-->".toList))
  /-- A marker around text that is meant for the including page. -/
  | marker {span : List Char} (h : Matches "<includeonly>".toList span ∨
      Matches "</includeonly>".toList span) : IsSpan .dropped span
  | nowiki {span : List Char} (h : IsBlock "<nowiki>".toList "</nowiki>".toList span) :
      IsSpan .verbatim span
  | math {span : List Char} (h : IsBlock "<math>".toList "</math>".toList span) :
      IsSpan .verbatim span
  /-- The opening tag of preformatted text may have attributes. -/
  | pre {front attributes block : List Char} (hfront : Matches "<pre".toList front)
      (ha : '>' ∉ attributes) (h : IsBlock ">".toList "</pre>".toList block) :
      IsSpan .verbatim (front ++ (attributes ++ block))

/-- One tag to find behind the opening one makes a block. -/
theorem isBlock_iff {opening closing : Tag} {span : List Char} : IsBlock opening closing span ↔
    ∃ written rest, span = written ++ rest ∧ opening.Matches written ∧
      LeadsThrough [closing] rest := by
  constructor
  · rintro ⟨front, body, behind, rfl, hfront, hbody, hbehind⟩
    refine ⟨front, body ++ behind, rfl, hfront, ?_⟩
    rw [← List.append_nil behind]
    exact .cons hbody hbehind .nil
  · rintro ⟨written, rest, rfl, hwritten, hrest⟩
    cases hrest with
    | @cons _ _ gap closing _ hgap hclosing hnil =>
      cases hnil
      exact ⟨written, gap, closing, by rw [List.append_nil], hwritten, hgap, hclosing⟩

/-- **Spans are what the rules take**, one rule for each way to write one. -/
theorem isSpan_iff_takes {kind : SpanKind} {span : List Char} :
    IsSpan kind span ↔ ∃ rule ∈ spanRules, rule.kind = kind ∧ rule.Takes span := by
  have hcomment : Caseless "<!--".toList ∧ Caseless "-->".toList ∧ Caseless ">".toList := by decide
  obtain ⟨hopens, hcloses, hbracket⟩ := hcomment
  constructor
  · intro h
    cases h with
    | noinclude h =>
      exact ⟨⟨_, ["<noinclude>".toList, "</noinclude>".toList]⟩, by simp [spanRules], rfl,
        isBlock_iff.1 h⟩
    | @comment body h =>
      have hbody : ¬OccursIn "-->".toList body := fun hoccurs => h (hcloses.occursIn_iff.1 hoccurs)
      exact ⟨⟨_, ["<!--".toList, "-->".toList]⟩, by simp [spanRules], rfl,
        isBlock_iff.1 ⟨_, body, _, rfl, rfl, hbody, rfl⟩⟩
    | marker h =>
      rcases h with h | h
      · exact ⟨⟨_, ["<includeonly>".toList]⟩, by simp [spanRules], rfl, span, [],
          (List.append_nil _).symm, h, .nil⟩
      · exact ⟨⟨_, ["</includeonly>".toList]⟩, by simp [spanRules], rfl, span, [],
          (List.append_nil _).symm, h, .nil⟩
    | nowiki h =>
      exact ⟨⟨_, ["<nowiki>".toList, "</nowiki>".toList]⟩, by simp [spanRules], rfl,
        isBlock_iff.1 h⟩
    | math h =>
      exact ⟨⟨_, ["<math>".toList, "</math>".toList]⟩, by simp [spanRules], rfl,
        isBlock_iff.1 h⟩
    | pre hfront ha h =>
      obtain ⟨bracket, rest, rfl, hwritten, hrest⟩ := isBlock_iff.1 h
      have hgap := fun hoccurs => ha ((List.singleton_infix_iff _ _).1
        (hbracket.occursIn_iff.1 hoccurs))
      exact ⟨⟨_, ["<pre".toList, ">".toList, "</pre>".toList]⟩, by simp [spanRules], rfl, _, _,
        rfl, hfront, .cons hgap hwritten hrest⟩
  · rintro ⟨rule, hrule, rfl, h⟩
    simp only [spanRules, List.mem_cons, List.not_mem_nil, or_false] at hrule
    rcases hrule with rfl | rfl | rfl | rfl | rfl | rfl | rfl
    · exact .noinclude (isBlock_iff.2 h)
    · obtain ⟨front, body, behind, rfl, hfront, hbody, hbehind⟩ := isBlock_iff.2 h
      rw [hopens.matches_iff.1 hfront, hcloses.matches_iff.1 hbehind]
      exact .comment fun hinside => hbody (hcloses.occursIn_iff.2 hinside)
    · obtain ⟨written, rest, rfl, hwritten, hrest⟩ := h
      cases hrest
      rw [List.append_nil]
      exact .marker (.inl hwritten)
    · obtain ⟨written, rest, rfl, hwritten, hrest⟩ := h
      cases hrest
      rw [List.append_nil]
      exact .marker (.inr hwritten)
    · exact .nowiki (isBlock_iff.2 h)
    · exact .math (isBlock_iff.2 h)
    · obtain ⟨front, rest, rfl, hfront, hrest⟩ := h
      cases hrest with
      | @cons _ _ attributes bracket rest hgap hbracketWritten hrest =>
        refine .pre hfront ?_ (isBlock_iff.2 ⟨bracket, rest, rfl, hbracketWritten, hrest⟩)
        intro hmem
        exact hgap (hbracket.occursIn_iff.2 ((List.singleton_infix_iff _ _).2 hmem))

/-! ## Where a span begins -/

theorem SpanRule.Takes.exists_cons {rule : SpanRule} {span : List Char} (h : rule.Takes span)
    (hrule : rule ∈ spanRules) : ∃ more, span = '<' :: more := by
  obtain ⟨written, rest, rfl, hwritten, -⟩ := h
  obtain ⟨tag, htag⟩ := List.head?_eq_some_iff.1 (tags_eq rule hrule).2
  rw [htag] at hwritten
  obtain ⟨c, more, rfl, hc, -⟩ := List.map_eq_cons_iff.1 hwritten
  exact ⟨more ++ rest, by rw [eq_of_toLower_eq (by decide) hc, List.cons_append]⟩

/-- **A span is found as it is written**, whatever is behind it: its own rule takes it, and no other
    rule opens there. -/
theorem IsSpan.spanAt?_append {kind : SpanKind} {span : List Char} (h : IsSpan kind span)
    (behind : List Char) : spanAt? (span ++ behind) = some (kind, span.length) := by
  obtain ⟨rule, hrule, rfl, htakes⟩ := isSpan_iff_takes.1 h
  have hlength := htakes.spanLength?_append hrule behind
  have hfound : (spanAt? (span ++ behind)).isSome := by
    rw [spanAt?, List.findSome?_isSome_iff]
    exact ⟨rule, hrule, by rw [hlength]; rfl⟩
  obtain ⟨found, hspanAt⟩ := Option.isSome_iff_exists.1 hfound
  obtain ⟨other, hother, hsame⟩ := List.exists_of_findSome?_eq_some hspanAt
  obtain ⟨length, hotherLength, rfl⟩ := Option.map_eq_some_iff.1 hsame
  obtain rfl : rule = other :=
    SpanRule.opening_inj hrule hother (SpanRule.standsAt_of_spanLength? hrule hlength)
      (SpanRule.standsAt_of_spanLength? hother hotherLength)
  rw [hspanAt, Option.some.inj (hotherLength.symm.trans hlength)]

/-- Where a span is found, one is written. -/
theorem exists_isSpan_of_spanAt? {cs : List Char} {kind : SpanKind} {length : Nat}
    (h : spanAt? cs = some (kind, length)) :
    ∃ span behind, cs = span ++ behind ∧ IsSpan kind span := by
  obtain ⟨rule, hrule, hfound⟩ := List.exists_of_findSome?_eq_some h
  obtain ⟨found, hlength, heq⟩ := Option.map_eq_some_iff.1 hfound
  obtain ⟨span, behind, rfl, htakes⟩ := SpanRule.exists_takes hrule hlength
  exact ⟨span, behind, rfl, isSpan_iff_takes.2 ⟨rule, hrule, congrArg Prod.fst heq, htakes⟩⟩

/-! ## The tokens of a text with a span -/

namespace Lexer

theorem lex_span {kind : SpanKind} {span : List Char} (h : IsSpan kind span) (behind : List Char) :
    lex (span ++ behind) = kind.token (String.ofList span) :: lex behind := by
  obtain ⟨rule, hrule, -, htakes⟩ := isSpan_iff_takes.1 h
  obtain ⟨more, rfl⟩ := htakes.exists_cons hrule
  have hspan := h.spanAt?_append behind
  rw [List.cons_append] at hspan ⊢
  have hfirst : firstToken '<' (more ++ behind) =
      (kind.token (String.ofList ('<' :: more)), more.length) := by
    simp [firstToken, hspan]
  rw [lex_cons, hfirst, List.drop_left]

theorem lex_lt {rest : List Char}
    (h : ∀ kind span behind, '<' :: rest = span ++ behind → ¬IsSpan kind span) :
    lex ('<' :: rest) = .text "<" :: lex rest := by
  have hnone : spanAt? ('<' :: rest) = none := by
    cases hspan : spanAt? ('<' :: rest) with
    | none => rfl
    | some found =>
      obtain ⟨span, behind, heq, hwritten⟩ := exists_isSpan_of_spanAt? hspan
      exact absurd hwritten (h _ span behind heq)
  have hfirst : firstToken '<' rest = (.text "<", 0) := by
    simp [firstToken, hnone]
  rw [lex_cons, hfirst, List.drop_zero]

/-- A text without `<` keeps its tokens in front of one. -/
theorem lex_append_lt {front : List Char} (h : '<' ∉ front) (rest : List Char) :
    lex (front ++ '<' :: rest) = (lex front).dropLast ++ lex ('<' :: rest) := by
  have hapart : Apart front ('<' :: rest) := by
    rintro c hlast ⟨⟩
    exact ⟨by decide, by decide⟩
  obtain ⟨tokens, piece, -, happend, ⟨rfl, hfront⟩ | ⟨-, -, c, ⟨⟩, htextual⟩⟩ := lex_append h hapart
  · rw [happend, hfront, List.dropLast_concat, List.nil_append]
  · exact absurd htextual (by decide)

theorem lex_ne_nil (cs : List Char) : lex cs ≠ [] := by
  obtain ⟨pieces, hpieces, -⟩ := exists_lex_eq cs
  rw [hpieces]
  exact List.concat_ne_nil _ _

end Lexer

open OnlyInclude (keepTag)

/-- The tokens of a page without the end of the text. -/
def tokens (text : String) : List Token := (tokenize text).dropLast

/-- A text that marks no parts is read as it stands. -/
theorem tokens_eq {text : String} (h : ¬keepTag <:+: text.toList) :
    tokens text = (Lexer.lex text.toList).dropLast := by
  rw [tokens, OnlyInclude.tokenize_of_not_marked h]

/-- Where a token stands at a `<`, the texts in front and behind have their own tokens. -/
theorem tokens_append {front tag behind : String} (hfront : '<' ∉ front.toList)
    (htag : tag.toList.head? = some '<') (hmarks : ¬keepTag <:+: (front ++ tag ++ behind).toList)
    {token : Token}
    (hlex : Lexer.lex (tag.toList ++ behind.toList) = token :: Lexer.lex behind.toList) :
    tokens (front ++ tag ++ behind) = tokens front ++ token :: tokens behind := by
  have hchars : (front ++ tag ++ behind).toList =
      front.toList ++ (tag.toList ++ behind.toList) := by simp
  rw [hchars] at hmarks
  have hfrontMarks : ¬keepTag <:+: front.toList := fun hinside =>
    hmarks (hinside.trans (List.infix_append [] front.toList _))
  have hbehindMarks : ¬keepTag <:+: behind.toList := fun hinside =>
    hmarks (hinside.trans ((List.suffix_append _ _).trans (List.suffix_append _ _)).isInfix)
  obtain ⟨more, hmore⟩ := List.head?_eq_some_iff.1 htag
  have hlt : Lexer.lex (front.toList ++ (tag.toList ++ behind.toList)) =
      (Lexer.lex front.toList).dropLast ++ token :: Lexer.lex behind.toList := by
    rw [← hlex, hmore]
    exact Lexer.lex_append_lt hfront _
  rw [tokens_eq (hchars ▸ hmarks), tokens_eq hfrontMarks, tokens_eq hbehindMarks, hchars, hlt,
    List.dropLast_append_of_ne_nil (List.cons_ne_nil _ _),
    List.dropLast_cons_of_ne_nil (Lexer.lex_ne_nil _)]

/-- **Spans are opaque, and end at their first terminator.**  In a text that marks no parts, behind
    a front without `<`: a span is one token, whatever its body is and whatever stands behind it,
    and is skipped or text by its kind.  A `<` at which no span begins is a text of its own, and
    what is behind it is read as if it stood alone. -/
theorem tokens_append_tag {front : String} (hfront : '<' ∉ front.toList) :
    (∀ (kind : SpanKind) (span behind : String), IsSpan kind span.toList →
      ¬keepTag <:+: (front ++ span ++ behind).toList →
      tokens (front ++ span ++ behind) = tokens front ++ kind.token span :: tokens behind) ∧
    ∀ rest : String,
      (∀ kind span behind, '<' :: rest.toList = span ++ behind → ¬IsSpan kind span) →
      ¬keepTag <:+: (front ++ "<" ++ rest).toList →
      tokens (front ++ "<" ++ rest) = tokens front ++ .text "<" :: tokens rest := by
  constructor
  · intro kind span behind hspan hmarks
    obtain ⟨rule, hrule, -, htakes⟩ := isSpan_iff_takes.1 hspan
    obtain ⟨more, hmore⟩ := htakes.exists_cons hrule
    apply tokens_append hfront (by rw [hmore]; rfl) hmarks
    rw [Lexer.lex_span hspan, String.ofList_toList]
  · intro rest hnone hmarks
    exact tokens_append hfront rfl hmarks (Lexer.lex_lt hnone)

/-- A body with a comment that is not closed, a tag that is not finished and another span's tag; and
    an opening tag without its end. -/
theorem tokens_append_tag_nowiki :
    let span := "<NoWiki>\x7b\x7b<!--</nowik></math></NOWIKI>"
    (IsSpan .verbatim span.toList ∧
      tokens ("a\x7b\x7bb|[" ++ span ++ "</nowiki>\x7d\x7d") =
        tokens "a\x7b\x7bb|[" ++ .text span :: tokens "</nowiki>\x7d\x7d") ∧
    (∀ kind written behind, '<' :: "pre class=x>\x7b\x7b".toList = written ++ behind →
      ¬IsSpan kind written) ∧
    tokens ("a\x7b\x7bb|[" ++ "<" ++ "pre class=x>\x7b\x7b") =
      tokens "a\x7b\x7bb|[" ++ .text "<" :: tokens "pre class=x>\x7b\x7b" := by
  intro span
  have hfront : '<' ∉ "a\x7b\x7bb|[".toList := by decide
  have hspan : IsSpan .verbatim span.toList :=
    .nowiki ⟨"<NoWiki>".toList, "\x7b\x7b<!--</nowik></math>".toList, "</NOWIKI>".toList,
      by decide, by decide, by decide, by decide⟩
  have hnone : ∀ kind written behind,
      '<' :: "pre class=x>\x7b\x7b".toList = written ++ behind → ¬IsSpan kind written := by
    intro kind written behind heq hwritten
    have hnothing : spanAt? ('<' :: "pre class=x>\x7b\x7b".toList) = none := by decide
    rw [heq, hwritten.spanAt?_append] at hnothing
    exact absurd hnothing nofun
  obtain ⟨hunread, hlone⟩ := tokens_append_tag hfront
  exact ⟨⟨hspan, hunread _ span _ hspan (by decide)⟩, hnone, hlone _ hnone (by decide)⟩

end Transclusion
