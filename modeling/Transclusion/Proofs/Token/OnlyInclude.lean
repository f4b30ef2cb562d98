/-
  What only-include filtering keeps.

  A text is `gap opening body closing … gap opening body closing last`, where no `gap` holds an
  opening tag, no `body` a closing one, and `last` no opening tag with a closing tag behind it.
  Every text has one such decomposition (`exists_decomposition`) and no other (`spans_append_inj`),
  so its spans are the leftmost and the shortest.  Their bodies, joined, are what is kept
  (`keptChars_spans`, `onlyInclude?_eq_bodies`).

  The crux is `exists_span`: where any span begins in a text, the first opening tag begins one,
  since the closing tag of the later span is behind it too.  Hence an opening tag that is not closed
  hides no span.
-/
import Transclusion.Proofs.Token.Tags
import Transclusion.Proofs.Token.Lossless

namespace Transclusion

namespace OnlyInclude

open Tag

theorem keepTag_endsOnce : EndsOnce keepTag :=
  ⟨"<onlyinclude".toList, '>', by decide, by decide⟩

theorem endKeepTag_endsOnce : EndsOnce endKeepTag :=
  ⟨"</onlyinclude".toList, '>', by decide, by decide⟩

/-! ## Decompositions -/

/-- A kept span as it is written, with the text in front of it. -/
@[ext]
structure KeptSpan where
  gap : List Char
  opening : List Char
  body : List Char
  closing : List Char
  gap_free : ¬keepTag.OccursIn gap
  opens : keepTag.Matches opening
  body_free : ¬endKeepTag.OccursIn body
  closes : endKeepTag.Matches closing

namespace KeptSpan

/-- All that is written of the span, its gap included. -/
def chars (span : KeptSpan) : List Char :=
  span.gap ++ (span.opening ++ (span.body ++ span.closing))

/-- The span behind one more character. -/
def push (span : KeptSpan) (c : Char) (h : ¬keepTag.OccursIn (c :: span.gap)) : KeptSpan :=
  { span with gap := c :: span.gap, gap_free := h }

theorem chars_append (span : KeptSpan) (behind : List Char) :
    span.chars ++ behind =
      span.gap ++ (span.opening ++ (span.body ++ (span.closing ++ behind))) := by
  simp only [chars, List.append_assoc]

theorem length_opening (span : KeptSpan) : span.opening.length = keepTag.length :=
  span.opens.length_eq

theorem length_closing (span : KeptSpan) : span.closing.length = endKeepTag.length :=
  span.closes.length_eq

end KeptSpan

/-- An opening tag stands in the text, with a closing tag behind it. -/
def HasSpan (cs : List Char) : Prop :=
  ∃ front opening behind, cs = front ++ (opening ++ behind) ∧
    keepTag.Matches opening ∧ endKeepTag.OccursIn behind

/-- The spans of a text, each with the gap in front of it, and the text behind the last. -/
@[ext]
structure Decomposition (cs : List Char) where
  spans : List KeptSpan
  last : List Char
  chars_eq : spans.flatMap KeptSpan.chars ++ last = cs
  no_more : ¬HasSpan last

/-- What a decomposition keeps. -/
def Decomposition.kept {cs : List Char} (parts : Decomposition cs) : List Char :=
  parts.spans.flatMap KeptSpan.body

theorem KeptSpan.hasSpan (span : KeptSpan) (behind : List Char) :
    HasSpan (span.chars ++ behind) :=
  ⟨span.gap, span.opening, _, span.chars_append behind, span.opens,
    span.closes.occursIn span.body behind⟩

/-! ### There is one -/

/-- An opening tag at the start of a text with a span begins one: the closing tag is behind it. -/
theorem HasSpan.occursIn_behind {opening behind : List Char} (hopening : keepTag.Matches opening)
    (h : HasSpan (opening ++ behind)) : endKeepTag.OccursIn behind := by
  obtain ⟨front, later, rest, heq, hlater, hrest⟩ := h
  -- The closing tag of whatever span there is stands behind a whole opening tag.
  have hwhole : rest <:+ opening ++ behind := ⟨front ++ later, by rw [heq, List.append_assoc]⟩
  have hshorter : rest.length ≤ behind.length := by
    have hlength := congrArg List.length heq
    have hlengths := hopening.length_eq.trans hlater.length_eq.symm
    simp only [List.length_append] at hlength
    omega
  have hsuffix : rest <:+ behind :=
    List.suffix_of_suffix_length_le hwhole (List.suffix_append _ _) hshorter
  exact hrest.trans (hsuffix.isInfix.map Char.toLower)

theorem not_hasSpan_nil : ¬HasSpan [] := by
  rintro ⟨front, opening, behind, heq, -, hclosing⟩
  rw [(List.append_eq_nil_iff.1 (List.append_eq_nil_iff.1 heq.symm).2).2] at hclosing
  exact not_occursIn_nil endKeepTag_endsOnce.ne_nil hclosing

theorem HasSpan.cons {cs : List Char} (h : HasSpan cs) (c : Char) : HasSpan (c :: cs) := by
  obtain ⟨front, opening, behind, rfl, hopening, hclosing⟩ := h
  exact ⟨c :: front, opening, behind, rfl, hopening, hclosing⟩

theorem HasSpan.of_cons {c : Char} {cs : List Char} (hstands : keepTag.standsAt (c :: cs) = false)
    (h : HasSpan (c :: cs)) : HasSpan cs := by
  obtain ⟨front, opening, behind, heq, hopening, hclosing⟩ := h
  cases front with
  | nil =>
    rw [heq, List.nil_append, hopening.standsAt_append] at hstands
    cases hstands
  | cons _ front =>
    obtain ⟨-, rfl⟩ := List.cons_eq_cons.1 heq
    exact ⟨front, opening, behind, rfl, hopening, hclosing⟩

/-- A text that has a span begins with one, behind a gap. -/
theorem exists_span {cs : List Char} (h : HasSpan cs) :
    ∃ (span : KeptSpan) (behind : List Char), cs = span.chars ++ behind := by
  induction cs with
  | nil => exact absurd h not_hasSpan_nil
  | cons c cs ih =>
    cases hstands : keepTag.standsAt (c :: cs) with
    | true =>
      obtain ⟨opening, behind, heq, hopening⟩ := exists_eq_append_of_standsAt hstands
      rw [heq] at h ⊢
      obtain ⟨body, closing, rest, rfl, hclosing, hbody⟩ :=
        exists_of_occursIn endKeepTag_endsOnce.ne_nil (h.occursIn_behind hopening)
      refine ⟨⟨[], opening, body, closing, not_occursIn_nil keepTag_endsOnce.ne_nil, hopening,
        hbody, hclosing⟩, rest, ?_⟩
      rw [KeptSpan.chars_append, List.nil_append]
    | false =>
      obtain ⟨span, behind, rfl⟩ := ih (h.of_cons hstands)
      rw [KeptSpan.chars_append] at hstands
      exact ⟨span.push c (not_occursIn_cons hstands span.gap_free), behind, rfl⟩

/-- Every text has a decomposition. -/
theorem exists_decomposition (cs : List Char) : Nonempty (Decomposition cs) := by
  by_cases h : HasSpan cs
  · obtain ⟨span, behind, rfl⟩ := exists_span h
    -- A span is never empty, so what is behind it is shorter.
    have hshorter : behind.length < (span.chars ++ behind).length := by
      have hopening := span.length_opening
      have hpos : 0 < keepTag.length := by decide
      simp only [KeptSpan.chars, List.length_append]
      omega
    obtain ⟨parts⟩ := exists_decomposition behind
    exact ⟨⟨span :: parts.spans, parts.last, by
      rw [List.flatMap_cons, List.append_assoc, parts.chars_eq], parts.no_more⟩⟩
  · exact ⟨⟨[], cs, rfl, h⟩⟩
termination_by cs.length

/-! ### There is no other -/

/-- The first span of a text is determined by it, and so is what is behind. -/
theorem KeptSpan.append_inj {span other : KeptSpan} {behind rest : List Char}
    (h : span.chars ++ behind = other.chars ++ rest) : span = other ∧ behind = rest := by
  rw [chars_append, chars_append] at h
  -- Both gaps end at the first opening tag, and both bodies at the first closing one.
  have hgaps : span.gap.length = other.gap.length := by
    have hfound := keepTag_endsOnce.find?_append span.gap_free span.opens
      (span.body ++ (span.closing ++ behind))
    rw [h, keepTag_endsOnce.find?_append other.gap_free other.opens] at hfound
    exact (Option.some_inj.1 hfound).symm
  obtain ⟨hgap, h⟩ := List.append_inj h hgaps
  obtain ⟨hopening, h⟩ :=
    List.append_inj h (span.length_opening.trans other.length_opening.symm)
  have hbodies : span.body.length = other.body.length := by
    have hfound := endKeepTag_endsOnce.find?_append span.body_free span.closes behind
    rw [h, endKeepTag_endsOnce.find?_append other.body_free other.closes] at hfound
    exact (Option.some_inj.1 hfound).symm
  obtain ⟨hbody, h⟩ := List.append_inj h hbodies
  obtain ⟨hclosing, hbehind⟩ :=
    List.append_inj h (span.length_closing.trans other.length_closing.symm)
  exact ⟨KeptSpan.ext hgap hopening hbody hclosing, hbehind⟩

theorem spans_append_inj {spans others : List KeptSpan} {last rest : List Char}
    (hlast : ¬HasSpan last) (hrest : ¬HasSpan rest)
    (h : spans.flatMap KeptSpan.chars ++ last = others.flatMap KeptSpan.chars ++ rest) :
    spans = others ∧ last = rest := by
  induction spans generalizing others with
  | nil =>
    cases others with
    | nil => exact ⟨rfl, h⟩
    | cons other others =>
      rw [List.flatMap_nil, List.nil_append, List.flatMap_cons, List.append_assoc] at h
      exact absurd (h ▸ other.hasSpan _) hlast
  | cons span spans ih =>
    cases others with
    | nil =>
      rw [List.flatMap_nil, List.nil_append, List.flatMap_cons, List.append_assoc] at h
      exact absurd (h ▸ span.hasSpan _) hrest
    | cons other others =>
      rw [List.flatMap_cons, List.flatMap_cons, List.append_assoc, List.append_assoc] at h
      obtain ⟨rfl, hbehind⟩ := KeptSpan.append_inj h
      obtain ⟨rfl, rfl⟩ := ih hbehind
      exact ⟨rfl, rfl⟩

instance (cs : List Char) : Subsingleton (Decomposition cs) where
  allEq parts others := by
    obtain ⟨hspans, hlast⟩ := spans_append_inj parts.no_more others.no_more
      (parts.chars_eq.trans others.chars_eq.symm)
    exact Decomposition.ext hspans hlast

/-! ## What is kept -/

theorem occursIn_iff (tag : Tag) (cs : List Char) : occursIn tag cs = true ↔ tag <:+: cs := by
  induction cs with
  | nil => simp [occursIn]
  | cons c cs ih =>
    rw [occursIn, Bool.or_eq_true, ih, List.isPrefixOf_iff_prefix, List.infix_cons_iff]

/-- A text that marks no parts is read as it stands. -/
theorem tokenize_of_not_marked {text : String} (h : ¬keepTag <:+: text.toList) :
    tokenize text = Lexer.lex text.toList := by
  have hnone : onlyInclude? text = none := by
    rw [onlyInclude?, if_neg (mt (occursIn_iff _ _).1 h)]
  rw [tokenize_eq_lex_getD, hnone, Option.getD_none]

theorem keptChars_eq_drop (skip : Nat) (cs : List Char) :
    keptChars skip cs = keptChars 0 (cs.drop skip) := by
  induction cs generalizing skip with
  | nil => rw [List.drop_nil, keptChars, keptChars]
  | cons c cs ih =>
    cases skip with
    | zero => rfl
    | succ skip => rw [keptChars, ih, List.drop_succ_cons]

/-- Where no span begins, a character is left out. -/
theorem keptChars_cons {c : Char} {cs : List Char}
    (h : spanLength? [keepTag, endKeepTag] (c :: cs) = none) :
    keptChars 0 (c :: cs) = keptChars 0 cs := by
  rw [keptChars, h]

/-- Where a span begins, its body is kept, and the text goes on behind it. -/
theorem keptChars_of_spanLength? {cs : List Char} {length : Nat} (hpos : 0 < length)
    (h : spanLength? [keepTag, endKeepTag] cs = some length) :
    keptChars 0 cs = (cs.take (length - endKeepTag.length)).drop keepTag.length ++
      keptChars 0 (cs.drop length) := by
  cases cs with
  | nil => cases h
  | cons c cs =>
    obtain ⟨more, rfl⟩ := Nat.exists_eq_add_one.2 hpos
    simp only [keptChars, h, Nat.add_sub_cancel, List.drop_succ_cons]
    rw [keptChars_eq_drop]

theorem spanLength?_of_standsAt_eq_false {cs : List Char} (h : keepTag.standsAt cs = false) :
    spanLength? [keepTag, endKeepTag] cs = none := by
  rw [spanLength?, if_neg (Bool.eq_false_iff.1 h)]

/-- At an opening tag, a span begins exactly if a closing tag is behind it. -/
theorem spanLength?_append {opening : List Char} (hopening : keepTag.Matches opening)
    (behind : List Char) : spanLength? [keepTag, endKeepTag] (opening ++ behind) =
      (endKeepTag.find? behind).map fun before => keepTag.length + before + endKeepTag.length := by
  rw [spanLength?, if_pos (hopening.standsAt_append behind), ← hopening.length_eq,
    List.drop_left, lengthThrough]
  cases endKeepTag.find? behind <;> rfl

/-- A gap is left out. -/
theorem keptChars_gap {gap opening : List Char} (hgap : ¬keepTag.OccursIn gap)
    (hopening : keepTag.Matches opening) (behind : List Char) :
    keptChars 0 (gap ++ (opening ++ behind)) = keptChars 0 (opening ++ behind) := by
  induction gap with
  | nil => rfl
  | cons c gap ih =>
    have hstands := keepTag_endsOnce.standsAt_append_eq_false hgap (List.cons_ne_nil c gap)
      hopening behind
    rw [List.cons_append] at hstands ⊢
    rw [keptChars_cons (spanLength?_of_standsAt_eq_false hstands), ih (not_occursIn_of_cons hgap)]

/-- Of a span its body is kept. -/
theorem KeptSpan.keptChars_append (span : KeptSpan) (behind : List Char) :
    keptChars 0 (span.chars ++ behind) = span.body ++ keptChars 0 behind := by
  have hlength : spanLength? [keepTag, endKeepTag]
      (span.opening ++ (span.body ++ (span.closing ++ behind))) =
        some (span.opening.length + span.body.length + span.closing.length) := by
    rw [spanLength?_append span.opens, endKeepTag_endsOnce.find?_append span.body_free span.closes,
      Option.map_some, span.length_opening, span.length_closing]
  have hpos : 0 < span.opening.length := by rw [span.length_opening]; decide
  rw [chars_append, keptChars_gap span.gap_free span.opens,
    keptChars_of_spanLength? (by omega) hlength, ← span.length_closing, ← span.length_opening]
  congr 1
  · rw [Nat.add_sub_cancel, ← List.append_assoc, ← List.length_append, List.take_left,
      List.drop_left]
  · rw [← List.append_assoc, ← List.append_assoc, ← List.length_append, ← List.length_append,
      List.drop_left]

/-- Of a text without spans nothing is kept, not even behind an opening tag. -/
theorem keptChars_of_not_hasSpan {cs : List Char} (h : ¬HasSpan cs) : keptChars 0 cs = [] := by
  induction cs with
  | nil => rfl
  | cons c cs ih =>
    have hnone : spanLength? [keepTag, endKeepTag] (c :: cs) = none := by
      cases hstands : keepTag.standsAt (c :: cs) with
      | false => exact spanLength?_of_standsAt_eq_false hstands
      | true =>
        obtain ⟨opening, behind, heq, hopening⟩ := exists_eq_append_of_standsAt hstands
        have hunclosed : ¬endKeepTag.OccursIn behind := fun hclosing =>
          h ⟨[], opening, behind, heq, hopening, hclosing⟩
        rw [heq, spanLength?_append hopening,
          (find?_eq_none_iff endKeepTag_endsOnce.ne_nil).2 hunclosed, Option.map_none]
    rw [keptChars_cons hnone, ih fun hspan => h (hspan.cons c)]

theorem keptChars_spans (spans : List KeptSpan) {last : List Char} (hlast : ¬HasSpan last) :
    keptChars 0 (spans.flatMap KeptSpan.chars ++ last) = spans.flatMap KeptSpan.body := by
  induction spans with
  | nil => exact keptChars_of_not_hasSpan hlast
  | cons span spans ih =>
    rw [List.flatMap_cons, List.append_assoc, span.keptChars_append, ih, List.flatMap_cons]

/-- An opening tag inside a body is kept with it, and one that is not closed is left out. -/
example : keptChars 0 "<onlyinclude>a<ONLYinclude></OnlyInclude>b<onlyinclude>c".toList =
    "a<ONLYinclude>".toList := by decide

theorem Decomposition.keptChars_eq {cs : List Char} (parts : Decomposition cs) :
    keptChars 0 cs = parts.kept := by
  rw [kept, ← keptChars_spans parts.spans parts.no_more, parts.chars_eq]

end OnlyInclude

open OnlyInclude

/-- **The leftmost, shortest spans are kept.**  A text marks its parts if it holds `<onlyinclude>`
    as it is written here.  Every text has one decomposition into spans, and what an including page
    sees of a text that marks its parts are the bodies of these; its tokens are those of the bodies
    as they stand, with any tag that is left in them. -/
theorem onlyInclude?_eq_bodies (text : String) :
    ((onlyInclude? text).isSome ↔ keepTag <:+: text.toList) ∧
    ∃ parts : Decomposition text.toList,
      (∀ other : Decomposition text.toList, other = parts) ∧
      (onlyInclude? text = some (String.ofList parts.kept) ∧ tokenize text = Lexer.lex parts.kept ∨
        onlyInclude? text = none ∧ tokenize text = Lexer.lex text.toList) := by
  obtain ⟨parts⟩ := exists_decomposition text.toList
  have hunique : ∀ other : Decomposition text.toList, other = parts :=
    fun other => Subsingleton.elim other parts
  by_cases hmarks : occursIn keepTag text.toList = true
  · have hkept : onlyInclude? text = some (String.ofList parts.kept) := by
      rw [onlyInclude?, if_pos hmarks, parts.keptChars_eq]
    refine ⟨iff_of_true ?_ ((occursIn_iff _ _).1 hmarks), parts, hunique, .inl ⟨hkept, ?_⟩⟩
    · rw [hkept]
      rfl
    · rw [tokenize_eq_lex_getD, hkept, Option.getD_some, String.toList_ofList]
  · have hnone : onlyInclude? text = none := by
      rw [onlyInclude?, if_neg hmarks]
    refine ⟨iff_of_false ?_ (mt (occursIn_iff _ _).2 hmarks), parts, hunique, .inr ⟨hnone, ?_⟩⟩
    · rw [hnone]
      exact Bool.false_ne_true
    · rw [tokenize_eq_lex_getD, hnone, Option.getD_none]

end Transclusion
