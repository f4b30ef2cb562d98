/-
  A call without arguments stands for the text of the template.

  Writing the body of a template into a page, in the place of a call, changes where every node of the
  body stands: it is read together with the page, it is evaluated with one body less open, and there
  are fewer nodes around it.  Each of the three is of no effect where no limit was met.

  * Read together, the texts have the children that they have alone, but for where texts are cut
    (`Braces.children_append_alike`), and no row of children shows where that is.
  * A call without arguments binds nothing, as the page does, so its body comes to the same with one
    body less open (`Reference.evaluate_of_succ_depth`).
  * There is one node around the body of a call, or more, and at most one around the children of a
    page (`Reference.evaluate_page_of_row`).

  Main statement, `Expander.expand_inclusion`.
-/
import Transclusion.Proofs.Braces.RoundTrip
import Transclusion.Proofs.Expansion.SideBySide
import Transclusion.Proofs.Expansion.Uncut

namespace Transclusion

/-! ## A call in a row -/

/-- Of two expansions with one outcome the one can stand for the other in a row. -/
theorem Expansion.outcome_join_insert {inserted : Expansion} {front middle behind : List Expansion}
    (h : inserted.outcome = (join middle).outcome) :
    (join (front ++ inserted :: behind)).outcome = (join (front ++ (middle ++ behind))).outcome := by
  simp only [outcome, join, Prod.mk.injEq] at h
  simp only [outcome, join, List.map_append, List.map_cons, List.flatMap_append, List.flatMap_cons,
    String.join_append, String.join_cons, h]

namespace Reference

open Expansion

variable {reference : Reference}

/-- Nodes that differ in where their texts are cut come to the same in a row. -/
theorem row_alike {children others : List Node} (h : Node.Alike children others) (room : Nat)
    (scope : Arguments) (depth : Nat) :
    reference.row room children scope depth = reference.row room others scope depth := by
  apply h
  intro source
  rw [Node.collapse_text, evaluate_text]

section call

variable {name : String} {children : List Node} {room depth : Nat}
  (hname : Text.trim name = name) (hmagic : reference.magic.get? name = none)
  (hbody : reference.body name = some (Node.plain children).collapse)

include hname hmagic hbody

/-- A call without arguments that was not cut off comes to its body with nothing bound. -/
theorem outcome_call_body {scope : Arguments}
    (h : (reference.evaluate room (.invocation (.text name) []) scope depth).Uncut) :
    ∃ fewer, room = fewer + 1 ∧
      (reference.evaluate room (.invocation (.text name) []) scope depth).outcome =
        (reference.evaluate fewer (Node.plain children).collapse .empty (depth + 1)).outcome := by
  have hnode : ∀ source, Node.invocation (.text name) [] ≠ .text source := nofun
  obtain ⟨fewer, rfl⟩ := exists_room hnode h
  have hcall : reference.evaluate (fewer + 1) (.invocation (.text name) []) scope depth =
      ((ofText name).before (.join [])).before
        (reference.answer ⟨name, .empty, scope, reference.page⟩ depth fun body =>
          reference.evaluate fewer body .empty (depth + 1)) := by
    simp only [evaluate, List.map_nil, ofText, hname]
    rfl
  have hdeclined : reference.magic.evaluate ⟨name, .empty, scope, reference.page⟩ = none := by
    rw [MagicRegistry.evaluate, hmagic]
    rfl
  refine ⟨fewer, rfl, ?_⟩
  rw [hcall] at h ⊢
  rw [answer_eq_before hdeclined hbody h.second]
  rfl

/-- A call of a page comes to the children of the template in a row, where the page stands. -/
theorem outcome_call {scope : Arguments}
    (h : (reference.evaluate room (.invocation (.text name) []) scope depth).Uncut) :
    ∃ fewer, room = fewer + 1 ∧
      (reference.evaluate room (.invocation (.text name) []) scope depth).outcome =
        (reference.row fewer children .empty depth).outcome := by
  obtain ⟨fewer, hroom, hcall⟩ := outcome_call_body hname hmagic hbody h
  have hbodyUncut := h.of_outcome hcall.symm
  have hshallow := evaluate_of_succ_depth _ _ _ _ hbodyUncut
  rw [← hshallow] at hcall hbodyUncut
  rw [evaluate_page hbodyUncut] at hcall
  exact ⟨fewer, hroom, hcall⟩

/-- A page with a call, if it was not cut off, comes to the row of the page with the children of the
    template in the place of the call.  Whether the call is a part of the page or all of it, one node
    is open around its body. -/
theorem exists_row_of_call {front behind : List Node} {call : Node}
    (hcall : call.collapse = .invocation (.text name) [])
    (h : (reference.evaluate room (Node.plain (front ++ call :: behind)).collapse .empty
      depth).Uncut) :
    ∃ fewer, room = fewer + 1 ∧
      (reference.evaluate room (Node.plain (front ++ call :: behind)).collapse .empty
        depth).outcome =
          (reference.row fewer (front ++ (children ++ behind)) .empty depth).outcome := by
  by_cases hone : (front ++ call :: behind).length = 1
  · obtain ⟨rfl, rfl⟩ : front = [] ∧ behind = [] := by
      rw [List.length_append, List.length_cons] at hone
      exact ⟨List.eq_nil_of_length_eq_zero (by omega), List.eq_nil_of_length_eq_zero (by omega)⟩
    rw [List.nil_append, Node.collapse_plain_singleton, hcall] at h ⊢
    rw [List.nil_append, List.append_nil]
    exact outcome_call hname hmagic hbody h
  · obtain ⟨fewer, rfl, hrow⟩ := exists_row_of_ne_one hone h
    rw [hrow] at h ⊢
    refine ⟨fewer, rfl, ?_⟩
    have hpart : (reference.evaluate fewer (.invocation (.text name) []) .empty depth).Uncut := by
      rw [← hcall]
      exact h.of_mem_join (List.mem_map_of_mem (by simp))
    obtain ⟨least, rfl, hbodyRow⟩ := outcome_call hname hmagic hbody hpart
    -- with the room of the page's row the body comes to the same
    rw [← row_add_room (hpart.of_outcome hbodyRow.symm) 1, ← hcall] at hbodyRow
    unfold row at hbodyRow ⊢
    simp only [List.map_append, List.map_cons]
    exact outcome_join_insert hbodyRow

/-- **Inclusion**: a page with a call without arguments, if it was not cut off, has the outcome of
    the page with the children of the template in the place of the call. -/
theorem outcome_inclusion {front behind included : List Node} {call : Node}
    (hcall : call.collapse = .invocation (.text name) [])
    (halike : Node.Alike included (front ++ (children ++ behind)))
    (h : (reference.evaluate room (Node.plain (front ++ call :: behind)).collapse .empty
      depth).Uncut) :
    (reference.evaluate room (Node.plain included).collapse .empty depth).outcome =
      (reference.evaluate room (Node.plain (front ++ call :: behind)).collapse .empty
        depth).outcome := by
  obtain ⟨fewer, rfl, hrow⟩ := exists_row_of_call hname hmagic hbody hcall h
  have huncut := h.of_outcome hrow.symm
  rw [← row_alike halike] at huncut hrow
  rw [evaluate_page_of_row huncut, hrow]

end call

end Reference

/-! ## The three texts -/

namespace Braces

open Lexer Node

/-- A call is read the same wherever it stands: it is one child, and what is behind it follows. -/
theorem exists_children_call {name : String} (hname : IsOrdinary name) (behind : List Char) :
    ∃ call : Node, call.collapse = .invocation (.text name) [] ∧
      children (lex ((Node.invocation (.text name) []).printChars ++ behind)) =
        call :: children (lex behind) := by
  have hcall : IsConstruct (.invocation (group [.text name]) ([].map group)) :=
    .invocation (.text hname nofun .nil) (.text name []) .nil nofun
  have hreads : ReadsConstruct (.invocation (.text name) []) := hcall.reads
  obtain ⟨call, hcollapse, hrun⟩ := hreads Stack.empty behind (by simp [Stack.empty, maxLevels])
  refine ⟨call, hcollapse, ?_⟩
  have hadd : Stack.empty.add [call] = Stack.empty.onto [call] := rfl
  rw [children, hrun, hadd, Stack.run_onto, Stack.finish_onto]
  rfl

end Braces

/-- A call without arguments, between two texts, and the body of the template that it calls, which can
    stand in its place: all braces belong together within each of the texts, and none of them makes
    a longer run where the texts meet. -/
structure Setting.Includes (setting : Setting) (front name body behind : String) : Prop where
  /-- The name is not empty and has no character of markup. -/
  ordinary : Node.IsOrdinary name
  trimmed : Text.trim name = name
  found : setting.source.template name = some body
  not_magic : setting.magic.get? name = none
  front_tags : '<' ∉ front.toList
  body_tags : '<' ∉ body.toList
  behind_tags : '<' ∉ behind.toList
  /-- The body is parsed as it is written. -/
  not_line_start : body.toList.head? ≠ some ':' ∧ body.toList.head? ≠ some ';'
  front_closed : Braces.Closed (tokenize front)
  body_closed : Braces.Closed (tokenize body)
  front_call : front.toList.getLast? ≠ some '{'
  call_behind : behind.toList.head? ≠ some '}'
  front_body : ¬(front.toList.getLast? = some '}' ∧ body.toList.head? = some '}')
  body_behind : ¬(body.toList.getLast? = some '{' ∧ behind.toList.head? = some '{')

/-- The tree of a text without tags holds the children that are read from its characters. -/
theorem Node.parse_eq_children {text : String} (htags : '<' ∉ text.toList) :
    parse text = (plain (Braces.children (Lexer.lex text.toList))).collapse := by
  rw [parse, ofTokens_eq_run, tokenize_eq_lex_toList htags]
  rfl

/-- A name without markup asks for a template. -/
theorem Node.IsOrdinary.ofName_eq {name : String} (h : IsOrdinary name) :
    Lookup.ofName name = .template name := by
  apply Lookup.ofName_of_head?_ne
  intro hhead
  exact h.not_markup ':' (List.mem_of_mem_head? hhead) (by decide)

/-- A source has a template as it is written, unless it begins like a line of a list. -/
theorem Source.body_of_template {source : Source} {name body : String}
    (hname : Node.IsOrdinary name) (hfound : source.template name = some body)
    (hcolon : body.toList.head? ≠ some ':') (hsemicolon : body.toList.head? ≠ some ';') :
    source.body name = some (Node.parse body) := by
  have hguard : guardLineStart body = body := by
    unfold guardLineStart
    split
    · next heq => exact absurd (congrArg List.head? heq) hcolon
    · next heq => exact absurd (congrArg List.head? heq) hsemicolon
    · rfl
  rw [Source.body, hname.ofName_eq, Source.answer, hfound, Option.map_some, hguard]

namespace Setting.Includes

variable {setting : Setting} {front name body behind : String}

/-- No run of braces goes from the front into what begins with a call. -/
theorem apart_call (h : setting.Includes front name body behind) (later : List Char) :
    Lexer.Apart front.toList ((Node.invocation (.text name) []).printChars ++ later) := by
  intro c hlast hhead
  rw [Node.printChars] at hhead
  obtain rfl := Option.some.inj hhead
  exact absurd hlast h.front_call

theorem apart_behind (h : setting.Includes front name body behind) :
    Lexer.Apart body.toList behind.toList := by
  intro c hlast hhead
  constructor
  · rintro rfl
    exact h.body_behind ⟨hlast, hhead⟩
  · rintro rfl
    exact h.call_behind hhead

/-- If the body is empty, the front goes on with what is behind the call. -/
theorem apart_front (h : setting.Includes front name body behind) :
    Lexer.Apart front.toList (body.toList ++ behind.toList) := by
  intro c hlast hhead
  constructor
  · rintro rfl
    exact h.front_call hlast
  · rintro rfl
    rw [List.head?_append, Option.or_eq_some_iff] at hhead
    rcases hhead with hbody | ⟨-, hbehind⟩
    · exact h.front_body ⟨hlast, hbody⟩
    · exact h.call_behind hbehind

/-- The source has the body of the template as it is written. -/
theorem body_eq (h : setting.Includes front name body behind) :
    setting.source.body name = some (Node.parse body) :=
  Source.body_of_template h.ordinary h.found h.not_line_start.1 h.not_line_start.2

/-- The children of the page with the call: those of the two texts, and the call between them. -/
theorem exists_children_called (h : setting.Includes front name body behind) :
    ∃ call : Node, call.collapse = .invocation (.text name) [] ∧
      Braces.children (Lexer.lex (front.toList ++
        ((Node.invocation (.text name) []).printChars ++ behind.toList))) =
          Braces.children (Lexer.lex front.toList) ++
            call :: Braces.children (Lexer.lex behind.toList) := by
  have hclosed := h.front_closed
  rw [tokenize_eq_lex_toList h.front_tags] at hclosed
  obtain ⟨call, hcollapse, hcall⟩ := Braces.exists_children_call h.ordinary behind.toList
  refine ⟨call, hcollapse, ?_⟩
  rw [Braces.children_append_brace h.front_tags (h.apart_call _) hclosed, hcall]
  rintro c ⟨⟩
  rfl

/-- The children of the page with the body: those of the three texts, but for where texts are cut. -/
theorem children_included_alike (h : setting.Includes front name body behind) :
    Node.Alike (Braces.children (Lexer.lex (front.toList ++ (body.toList ++ behind.toList))))
      (Braces.children (Lexer.lex front.toList) ++ (Braces.children (Lexer.lex body.toList) ++
        Braces.children (Lexer.lex behind.toList))) := by
  have hfront := h.front_closed
  have hbody := h.body_closed
  rw [tokenize_eq_lex_toList h.front_tags] at hfront
  rw [tokenize_eq_lex_toList h.body_tags] at hbody
  have hbehind := Braces.children_append_alike h.body_tags h.apart_behind hbody
  exact (Braces.children_append_alike h.front_tags h.apart_front hfront).trans
    ((Node.Alike.refl _).append hbehind)

end Setting.Includes

namespace Expander

/-- The page of a fresh expander comes to the children that are read from its text. -/
theorem expansion_ofPage {text : String} (htags : '<' ∉ text.toList) (setting : Setting) :
    (ofPage text setting).expansion =
      (setting.reference setting.source.body).evaluate setting.limits.maxNesting
        (Node.plain (Braces.children (Lexer.lex text.toList))).collapse .empty 0 := by
  rw [← Node.parse_eq_children htags]
  rfl

/-- An expansion was cut off where the expander reports that. -/
theorem uncut_expansion {expander : Expander}
    (hdepth : ∀ name limit, .tooDeep name limit ∉ expander.expand.2.diagnostics)
    (hnesting : ∀ limit, .nestingTooDeep limit ∉ expander.expand.2.diagnostics) :
    expander.expansion.Uncut := by
  simp only [diagnostics_expand, List.mem_toArray] at hdepth hnesting
  exact ⟨hdepth, hnesting⟩

/-- Expansions with one outcome show the same. -/
theorem expand_eq_of_outcome {first second : Expander}
    (h : first.expansion.outcome = second.expansion.outcome) :
    first.expand.1 = second.expand.1 ∧
      first.expand.2.diagnostics = second.expand.2.diagnostics := by
  obtain ⟨htext, hproblems⟩ := Prod.mk.inj h
  rw [text_expand, text_expand, diagnostics_expand, diagnostics_expand, htext, hproblems]
  exact ⟨rfl, rfl⟩

/-- **A call without arguments is textual inclusion**: for every page and source, all evaluators and
    limits, if expanding the page with the call reports neither a call as too deep nor a node as
    nested too deep, then the page with the body in the place of the call expands to the same text
    with the same problems. -/
theorem expand_inclusion (setting : Setting) {front name body behind : String}
    (h : setting.Includes front name body behind) :
    let called := (ofPage (front ++ "\x7b\x7b" ++ name ++ "\x7d\x7d" ++ behind) setting).expand
    let included := (ofPage (front ++ body ++ behind) setting).expand
    (∀ name limit, .tooDeep name limit ∉ called.2.diagnostics) →
      (∀ limit, .nestingTooDeep limit ∉ called.2.diagnostics) →
        included.1 = called.1 ∧ included.2.diagnostics = called.2.diagnostics := by
  intro called included hdepth hnesting
  have hcalledChars : (front ++ "\x7b\x7b" ++ name ++ "\x7d\x7d" ++ behind).toList =
      front.toList ++ ((Node.invocation (.text name) []).printChars ++ behind.toList) := by
    simp [Node.printChars, Node.printArgs]
  have hincludedChars : (front ++ body ++ behind).toList =
      front.toList ++ (body.toList ++ behind.toList) := by
    simp
  have hcalledTags : '<' ∉ (front ++ "\x7b\x7b" ++ name ++ "\x7d\x7d" ++ behind).toList := by
    simp [h.front_tags, h.behind_tags, h.ordinary.lt_not_mem]
  have hincludedTags : '<' ∉ (front ++ body ++ behind).toList := by
    simp [h.front_tags, h.body_tags, h.behind_tags]
  obtain ⟨call, hcollapse, hchildren⟩ := h.exists_children_called
  have hbody := h.body_eq
  rw [Node.parse_eq_children h.body_tags] at hbody
  have huncut := uncut_expansion hdepth hnesting
  rw [expansion_ofPage hcalledTags, hcalledChars, hchildren] at huncut
  apply expand_eq_of_outcome
  rw [expansion_ofPage hincludedTags, expansion_ofPage hcalledTags, hcalledChars, hchildren,
    hincludedChars]
  exact Reference.outcome_inclusion h.trimmed h.not_magic hbody hcollapse h.children_included_alike
    huncut

/-- A template with half a link at each end, a parameter, and a call of a page that is missing. -/
def halfLinkSetting : Setting where
  page := ""
  source := (PageTable.empty.insert "t"
    "[a|\x7b\x7b\x7b1|b\x7d\x7d\x7d\x7b\x7bm\x7d\x7d]").toSource
  magic := .register .empty "n" fun _ => some "n"
  limits := ⟨2, 4⟩

/-- The brackets of the template are links together with those of the page, and the closing braces
    in front and the opening ones behind are text. -/
theorem expand_inclusion_halfLink :
    let body := "[a|\x7b\x7b\x7b1|b\x7d\x7d\x7d\x7b\x7bm\x7d\x7d]"
    let called := (ofPage "\x7d\x7d[\x7b\x7bt\x7d\x7d] \x7b\x7b" halfLinkSetting).expand
    let included := (ofPage ("\x7d\x7d[" ++ body ++ "] \x7b\x7b") halfLinkSetting).expand
    halfLinkSetting.Includes "\x7d\x7d[" "t" body "] \x7b\x7b" ∧
      called.1 = "\x7d\x7d[[a|b]] \x7b\x7b" ∧ called.2.diagnostics = #[.missingTemplate "m"] ∧
      included.1 = called.1 ∧ included.2.diagnostics = called.2.diagnostics := by
  intro body called included
  have hincludes : halfLinkSetting.Includes "\x7d\x7d[" "t" body "] \x7b\x7b" :=
    { ordinary := ⟨by decide, by simp [Node.markupChars]⟩
      trimmed := by decide
      found := rfl
      not_magic := rfl
      front_tags := by decide
      body_tags := by decide
      behind_tags := by decide
      not_line_start := by decide
      front_closed := by decide +kernel
      body_closed := by decide +kernel
      front_call := by decide
      call_behind := by decide
      front_body := by decide
      body_behind := by decide }
  have hdiagnostics : called.2.diagnostics = #[.missingTemplate "m"] := by decide +kernel
  refine ⟨hincludes, by decide +kernel, hdiagnostics, ?_⟩
  apply expand_inclusion halfLinkSetting hincludes
  · intro name limit
    show _ ∉ called.2.diagnostics
    rw [hdiagnostics]
    simp
  · intro limit
    show _ ∉ called.2.diagnostics
    rw [hdiagnostics]
    simp

end Expander

end Transclusion
