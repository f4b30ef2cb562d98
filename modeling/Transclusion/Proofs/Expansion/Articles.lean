/-
  Articles and the colon in front of their names.

  A name with a colon in front asks for an article (`Lookup.ofName`).  A colon also ends the name
  of a call, like a bar, and reading decides first: what is written `{{:T}}` is a call by the empty
  name with the argument `T` (`Node.parse_colon`), so the colon never reaches the name, and the
  article is not asked for.  A colon that comes out of a placeholder, as in `{{{{{p|:T}}}}}`, stands
  in the name when it is looked up, and there it asks for the article.

  `Setting.StandsFor` says of a page that it stands for the body of one call, whose question is the
  first one.  Main statement, `Expander.standsFor_colon`: which question and which arguments these
  are for either colon.
-/
import Transclusion.Proofs.Expansion.Evaluators
import Transclusion.Proofs.Expansion.Inclusion
import Transclusion.Proofs.Text.Blanks

namespace Transclusion

/-! ## Pages that stand for a body -/

/-- The name that the question is asked for. -/
def Lookup.name : Lookup → String
  | template name => name
  | article title => ":" ++ title

theorem Lookup.name_ofName (name : String) : (ofName name).name = name := by
  rcases exists_ofName_eq name with ⟨title, rfl, harticle⟩ | htemplate
  · rw [harticle, Lookup.name]
  · rw [htemplate, Lookup.name]

/-- What a call of a page comes to, its body being what the source answers and `args` the texts of
    its arguments. -/
def Setting.entered (setting : Setting) (lookup : Lookup) (args : List String) : Expansion :=
  match setting.source.answer lookup with
  | some body =>
    (setting.reference setting.source.body).evaluate (setting.limits.maxNesting - 1)
      (Node.parse (guardLineStart body)) (.bind args) 1
  | none => .ofProblem (.missingTemplate lookup.name)

/-- The page stands for the body of one call: its text and its problems are those of the body, the
    question for the body is the first one, and any other is asked inside the body. -/
structure Setting.StandsFor (setting : Setting) (text : String) (lookup : Lookup)
    (args : List String) : Prop where
  text_eq : (Expander.ofPage text setting).expand.1 = (setting.entered lookup args).text
  diagnostics_eq : (Expander.ofPage text setting).expand.2.diagnostics =
    (setting.entered lookup args).problems.toArray
  asked_first : (Expander.ofPage text setting).expand.2.cache.asked[0]? = some lookup
  asked_inside : ∀ question ∈ (Expander.ofPage text setting).expand.2.cache.asked,
    question = lookup ∨ ∃ name ∈ (setting.entered lookup args).calls, question = .ofName name

/-- A call of a page that no evaluator answers comes to its question and its body. -/
theorem Setting.answer_eq_entered {setting : Setting} {call : MagicCall} {room : Nat}
    (hdeclined : setting.magic.evaluate call = none) (hdepth : 0 < setting.limits.maxDepth)
    (hroom : setting.limits.maxNesting - 1 = room) (args : List String) :
    ((setting.reference setting.source.body).answer call 0 fun body =>
      (setting.reference setting.source.body).evaluate room body (.bind args) 1) =
        (Expansion.ofCall call.name).before (setting.entered (.ofName call.name) args) := by
  have hmagic : (setting.reference setting.source.body).magic.evaluate call = none := hdeclined
  have hopen : ¬ (setting.reference setting.source.body).limits.maxDepth ≤ 0 := Nat.not_le.2 hdepth
  have hbody : (setting.reference setting.source.body).body call.name =
      (setting.source.answer (.ofName call.name)).map fun text =>
        Node.parse (guardLineStart text) := rfl
  rw [Reference.answer, hmagic, entered, Lookup.name_ofName, hroom, hbody]
  dsimp only
  rw [if_neg hopen]
  cases setting.source.answer (.ofName call.name) with
  | none => rfl
  | some body => rfl

namespace Cache

/-- What was asked stays at its place. -/
theorem getElem?_asked_resolveAll {cache : Cache} {index : Nat} {lookup : Lookup}
    (h : cache.asked[index]? = some lookup) (source : Source) (names : List String) :
    (cache.resolveAll source names).asked[index]? = some lookup := by
  induction names generalizing cache with
  | nil => exact h
  | cons name later ih =>
    rw [resolveAll_cons]
    apply ih
    cases hentry : cache.entries.get? name with
    | some body => rwa [cache.resolve_of_kept source hentry]
    | none =>
      rw [cache.resolve_of_new source hentry]
      obtain ⟨hindex, -⟩ := Array.getElem?_eq_some_iff.1 h
      rwa [Array.getElem?_push_lt hindex, ← Array.getElem?_eq_getElem hindex]

end Cache

/-- A page stands for a body, if it comes to a call for it and what the body comes to. -/
theorem Setting.standsFor_of_expansion {setting : Setting} {text name : String}
    {args : List String}
    (h : (Expander.ofPage text setting).expansion =
      (Expansion.ofCall name).before (setting.entered (.ofName name) args)) :
    setting.StandsFor text (.ofName name) args := by
  have hcache : (Expander.ofPage text setting).expand.2.cache =
      (Cache.empty.resolve setting.source name).2.resolveAll setting.source
        (setting.entered (.ofName name) args).calls := by
    rw [Expander.cache_expand, h]
    rfl
  have hasked : (Cache.empty.resolve setting.source name).2.asked = #[.ofName name] := by
    rw [Cache.empty.resolve_of_new setting.source rfl]
    rfl
  constructor
  · rw [Expander.text_expand, h]
    rfl
  · rw [Expander.diagnostics_expand, h]
    rfl
  · rw [hcache]
    apply Cache.getElem?_asked_resolveAll
    rw [hasked]
    rfl
  · intro question hquestion
    rw [hcache] at hquestion
    rcases Cache.mem_asked_resolveAll _ _ hquestion with hfirst | hinside
    · rw [hasked] at hfirst
      exact .inl (by simpa using hfirst)
    · exact .inr hinside

/-! ## Reading the two pages -/

namespace Node

theorem IsOrdinary.noMarks {source : String} (h : IsOrdinary source) : NoMarks [text source] := by
  apply IsSequence.noMarks
  rw [List.map_cons, List.map_nil, collapse_text]
  exact .text h nofun .nil

/-- A colon in front ends an empty name. -/
theorem invocationFrom_colon {children : List Node} (h : NoMarks children) (hne : children ≠ []) :
    invocationFrom (text ":" :: children) = invocation (plain []) [plain children] := by
  have hargs : partArguments [] [] 0 children = [plain children] := by
    have happend := partArguments_append h [] [] [] 0
    rw [List.append_nil, List.append_nil] at happend
    rw [happend, partArguments, if_neg (by simpa using hne), List.reverse_reverse]
    rfl
  show invocation (plain []) (partArguments [] [] 0 children) = _
  rw [hargs]

end Node

namespace Braces

open Node

/-- An ordinary text may stand in front of closing braces. -/
theorem special_of_head?_replicate {n : Nat} (hn : 2 ≤ n) :
    ∀ c, (List.replicate n '}').head? = some c → Lexer.isSpecial c = true := by
  have hends := Ends.close hn []
  rw [List.append_nil] at hends
  exact hends.special

theorem children_colon {title : String} (h : IsOrdinary title) :
    children (Lexer.lex (List.replicate 2 '{' ++ (':' :: (title.toList ++
      List.replicate 2 '}')))) = [.plain [.invocationFrom [.text ":", .text title]]] := by
  have hclose := Stack.run_lex_close (.inl rfl) (Nat.le_refl 2) [.text title, .text ":"] [] [] []
  rw [List.append_nil] at hclose
  rw [children, Stack.run_lex_open (Nat.le_refl 2) (by decide) (by simp), Lexer.lex_colon,
    Stack.run_text, Stack.run_lex_text h (special_of_head?_replicate (Nat.le_refl 2))]
  show (Stack.run ⟨[⟨2, [.text title, .text ":"], Nat.le_refl 2⟩], []⟩ _).finish = _
  rw [hclose]
  rfl

theorem children_defaultColon {param title : String} (hparam : IsOrdinary param)
    (htitle : IsOrdinary title) :
    children (Lexer.lex (List.replicate 5 '{' ++ (param.toList ++ ('|' :: ':' :: (title.toList ++
      List.replicate 5 '}'))))) =
        [.plain [.invocationFrom
          [.placeholderFrom [.text param, .text "|", .text ":", .text title]]]] := by
  have hhead : (param.toList ++ ('|' :: ':' :: (title.toList ++
      List.replicate 5 '}'))).head? ≠ some '{' := by
    obtain ⟨c, cs, hcs, hc⟩ := hparam.exists_cons
    rw [hcs]
    rintro ⟨⟩
    exact hc (by decide)
  have hbar : ∀ c, ('|' :: ':' :: (title.toList ++ List.replicate 5 '}')).head? = some c →
      Lexer.isSpecial c = true := (Ends.bar _).special
  have hfive : 2 ≤ 5 := by decide
  have hend : ([] : List Char).head? ≠ some '}' := nofun
  let inside : List Node := [.text param, .text "|", .text ":", .text title]
  have hclose := Stack.run_lex_closeRun 5 ⟨[⟨5, inside.reverse, hfive⟩], []⟩ hend
  rw [List.append_nil] at hclose
  rw [children, Stack.run_lex_open hfive (by decide) hhead, Stack.run_lex_text hparam hbar,
    Stack.run_lex_bar, Lexer.lex_colon, Stack.run_text,
    Stack.run_lex_text htitle (special_of_head?_replicate hfive)]
  show (Stack.run ⟨[⟨5, inside.reverse, hfive⟩], []⟩ _).finish = _
  -- the run takes three braces for the placeholder and two for the call around it
  have htwo : 2 ≤ 5 - bracesTaken 5 5 := by decide
  rw [hclose, Stack.step_closeRun hfive, Stack.close_cons, Stack.take_two htwo]
  rw [Stack.step_closeRun (show 2 ≤ 5 - bracesTaken 5 5 by decide), Stack.close_cons,
    Stack.take_zero rfl]
  rfl

end Braces

namespace Node

/-- A colon that is written in front of a name belongs to no name. -/
theorem parse_colon {title : String} (h : IsOrdinary title) :
    parse ("\x7b\x7b:" ++ title ++ "\x7d\x7d") = invocation (plain []) [text title] := by
  have hchars : ("\x7b\x7b:" ++ title ++ "\x7d\x7d").toList =
      List.replicate 2 '{' ++ (':' :: (title.toList ++ List.replicate 2 '}')) := by simp
  rw [parse_eq_children (by simp [h.lt_not_mem]), hchars, Braces.children_colon h,
    invocationFrom_colon h.noMarks (List.cons_ne_nil _ _)]
  simp [collapse_plain]

/-- A colon in a default is a part of the name that the default is computed for. -/
theorem parse_defaultColon {param title : String} (hparam : IsOrdinary param)
    (htitle : IsOrdinary title) :
    parse ("\x7b\x7b\x7b\x7b\x7b" ++ param ++ "|:" ++ title ++ "\x7d\x7d\x7d\x7d\x7d") =
      invocation (placeholder (text param) (some (plain [text ":", text title]))) [] := by
  have hchars :
      ("\x7b\x7b\x7b\x7b\x7b" ++ param ++ "|:" ++ title ++ "\x7d\x7d\x7d\x7d\x7d").toList =
        List.replicate 5 '{' ++ (param.toList ++ ('|' :: ':' :: (title.toList ++
          List.replicate 5 '}'))) := by simp
  have hplaceholder : placeholderFrom [text param, text "|", text ":", text title] =
      placeholder (plain [text param]) (some (plain [text ":", text title])) :=
    placeholderFrom_default hparam.noMarks
  rw [parse_eq_children (by simp [hparam.lt_not_mem, htitle.lt_not_mem]), hchars,
    Braces.children_defaultColon hparam htitle, hplaceholder]
  show (plain [plain [invocation (plain [placeholder _ _]) []]]).collapse = _
  simp [collapse_plain]

end Node

/-! ## Expanding them -/

theorem Text.trim_colon {title : String} (h : trim title = title) :
    trim (":" ++ title) = ":" ++ title := by
  have hbehind : title.toList.rdropWhile isBlank = title.toList := by
    rw [← h, trim, String.toList_ofList, trimChars_eq, List.rdropWhile_idempotent]
  have hcolon : isBlank ':' = false := by decide
  have hchars : (":" ++ title).toList = [] ++ ':' :: title.toList := by simp
  rw [trim, hchars, trimChars_append_cons hcolon, hbehind, List.dropWhile_nil, ← hchars,
    String.ofList_toList]

/-- A setting without evaluators and with the default limits. -/
def Setting.standard (page : String) (source : Source) : Setting := ⟨page, source, .empty, {}⟩

theorem Expansion.ofText_before (text : String) (expansion : Expansion) :
    (ofText text).before expansion = expansion := rfl

/-- A page that is one call stands for its body, if its name comes to a text and its arguments are
    texts. -/
theorem Setting.standsFor_call {page text written : String} {source : Source} {name : Node}
    {args : List String}
    (hparse : Node.parse text = .invocation name (args.map .text))
    (hname : ((standard page source).reference source.body).evaluate 499 name .empty 0 =
      .ofText written) :
    (standard page source).StandsFor text (.ofName (Text.trim written)) args := by
  apply standsFor_of_expansion
  show ((standard page source).reference source.body).evaluate 500 (Node.parse text) .empty 0 = _
  rw [hparse]
  have hargs : ((args.map Node.text).map fun arg => ((standard page source).reference
      source.body).evaluate 499 arg .empty 0) = args.map Expansion.ofText := by
    rw [List.map_map]
    apply List.map_congr_left
    intro arg _
    rw [Function.comp, Reference.evaluate_text]
  have htexts : (args.map Expansion.ofText).map Expansion.text = args := by
    rw [List.map_map]
    exact List.map_id args
  have hsilent : (Expansion.ofText written).before (.join (args.map Expansion.ofText)) =
      .ofText (String.join args) := by
    simp [Expansion.before, Expansion.join, htexts, Expansion.ofText]
  simp only [Reference.evaluate, hname, hargs, htexts, hsilent]
  have hdeclined : (standard page source).magic.evaluate
      ⟨Text.trim written, .bind args, .empty, page⟩ = none := rfl
  have hroom : (standard page source).limits.maxNesting - 1 = 499 := rfl
  rw [Expansion.ofText_before]
  exact answer_eq_entered hdeclined (Nat.zero_lt_succ 39) hroom args

namespace Expander

/-- **Reading owns the colon that is written, and looking up the one that is computed**: for every
    page and source, with no evaluators and the default limits, `{{:T}}` stands for the template
    without a name, called with the argument `T`, and so never for the article `T`.  A call whose name
    comes to `:T`, as in `{{{{{p|:T}}}}}`, stands for the article, called without arguments. -/
theorem standsFor_colon (page : String) (source : Source) {param title : String}
    (hparam : Node.IsOrdinary param) (htitle : Node.IsOrdinary title)
    (htrim : Text.trim title = title) :
    let setting := Setting.standard page source
    let written := "\x7b\x7b:" ++ title ++ "\x7d\x7d"
    let computed := "\x7b\x7b\x7b\x7b\x7b" ++ param ++ "|:" ++ title ++ "\x7d\x7d\x7d\x7d\x7d"
    setting.StandsFor written (.template "") [title] ∧
      (∀ args, ¬setting.StandsFor written (.article title) args) ∧
      setting.StandsFor computed (.article title) [] := by
  intro setting written computed
  have hempty : (setting.reference source.body).evaluate 499 (.plain []) .empty 0 =
      .ofText "" := by
    rw [Reference.evaluate]
    rfl
  have hdefault : (setting.reference source.body).evaluate 499
      (.placeholder (.text param) (some (.plain [.text ":", .text title]))) .empty 0 =
        .ofText (":" ++ title) := by
    simp [Reference.evaluate, Expansion.ofText, Expansion.before, Expansion.join, Arguments.empty,
      Arguments.get?]
  have htemplate : setting.StandsFor written (.template "") [title] :=
    Setting.standsFor_call (Node.parse_colon htitle) hempty
  refine ⟨htemplate, ?_, ?_⟩
  · intro args harticle
    have hfirst := htemplate.asked_first.symm.trans harticle.asked_first
    cases hfirst
  · rw [← Lookup.ofName_colon, ← Text.trim_colon htrim]
    exact Setting.standsFor_call (Node.parse_defaultColon hparam htitle) hdefault

/-- An article with a list in it, and a template without a name that shows its argument. -/
def listSource : Source :=
  .ofTables [("", "no \x7b\x7b\x7b1\x7d\x7d\x7d")] [("Art", ";a \x7b\x7bm\x7d\x7d")]

theorem standsFor_colon_list :
    let setting := Setting.standard "" listSource
    Node.IsOrdinary "p" ∧ Node.IsOrdinary "Art" ∧ Text.trim "Art" = "Art" ∧
      ((setting.entered (.template "") ["Art"]).text = "no Art" ∧
        (setting.entered (.article "Art") []).text = "\x00;a ") ∧
      setting.StandsFor "\x7b\x7b:Art\x7d\x7d" (.template "") ["Art"] ∧
      setting.StandsFor "\x7b\x7b\x7b\x7b\x7bp|:Art\x7d\x7d\x7d\x7d\x7d" (.article "Art") [] := by
  intro setting
  have hp : Node.IsOrdinary "p" := ⟨by decide, by simp [Node.markupChars]⟩
  have hart : Node.IsOrdinary "Art" := ⟨by decide, by simp [Node.markupChars]⟩
  have htrim : Text.trim "Art" = "Art" := by decide
  obtain ⟨hwritten, -, hcomputed⟩ := standsFor_colon "" listSource hp hart htrim
  exact ⟨hp, hart, htrim, by decide +kernel, hwritten, hcomputed⟩

/-- A source with one article and no template. -/
def articleSource : Source := .ofTables [] [("Art", "body")]

/-- **The article is not found by its colon**: the source has it, and the page that writes the colon
    asks for the template without a name instead and comes to nothing. -/
theorem not_standsFor_article :
    let setting := Setting.standard "" articleSource
    let expanded := (ofPage "\x7b\x7b:Art\x7d\x7d" setting).expand
    (Node.IsOrdinary "Art" ∧ Text.trim "Art" = "Art" ∧ articleSource.article "Art" = some "body") ∧
      (setting.entered (.article "Art") []).text = "body" ∧
      expanded.1 = "" ∧ expanded.2.diagnostics = #[.missingTemplate ""] ∧
      expanded.2.cache.asked = #[.template ""] ∧
      ¬setting.StandsFor "\x7b\x7b:Art\x7d\x7d" (.article "Art") [] := by
  intro setting expanded
  have hentered : (setting.entered (.article "Art") []).text = "body" := by decide +kernel
  have htext : expanded.1 = "" := by decide +kernel
  have hart : Node.IsOrdinary "Art" := ⟨by decide, by simp [Node.markupChars]⟩
  have hfound : articleSource.article "Art" = some "body" := rfl
  refine ⟨⟨hart, by decide, hfound⟩, hentered, htext, by decide +kernel, by decide +kernel, ?_⟩
  intro hstands
  have hbody : expanded.1 = "body" := hstands.text_eq.trans hentered
  rw [htext] at hbody
  exact absurd hbody (by decide)

end Expander

end Transclusion
