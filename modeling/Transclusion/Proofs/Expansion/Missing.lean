/-
  A missing page is an empty page that is reported.

  Where a source has no page for a call, the call leaves no text and a problem.  `Source.filled` has
  an empty page there, so the call enters its body, one body and one node deeper, and finds nothing.
  At most it finds no room, which leaves no text either.  So the two come to the same text, and with
  it to the same names, arguments and further calls; what differs is which problems are reported,
  apart from the calls that are too deep.

  `Expansion.Fills` says that of two expansions.  It passes from the parts of an expansion to the
  whole, so the induction has to look at nothing but the one call that differs (`fills_answer`).

  Main statement, `Expander.expand_filled`: over the filled source a page has the same text and the
  same calls that are too deep, in the same order, and no page is missing.
-/
import Mathlib.Data.List.Basic
import Transclusion.Proofs.Expansion.Repetition

namespace Transclusion

/-! ## Sources without missing pages -/

/-- The source with an empty page for every page that it lacks. -/
def Source.filled (source : Source) : Source where
  template name := some ((source.template name).getD "")
  article title := some ((source.article title).getD "")

theorem Source.answer_filled (source : Source) (lookup : Lookup) :
    source.filled.answer lookup = some ((source.answer lookup).getD "") := by
  cases lookup <;> rfl

theorem Node.parse_empty : parse (guardLineStart "") = plain [] := by decide +kernel

/-- A page that is lacking has an empty body. -/
theorem Source.body_filled (source : Source) (name : String) :
    source.filled.body name = some ((source.body name).getD (.plain [])) := by
  rw [body, body, answer_filled]
  cases source.answer (.ofName name) with
  | none => exact congrArg some Node.parse_empty
  | some text => rfl

/-- Whether a call was not entered, too many bodies being open. -/
def Diagnostic.isTooDeep : Diagnostic → Bool
  | .tooDeep _ _ => true
  | _ => false

/-! ## Expansions with empty pages -/

/-- The expansion comes to the text of the other one, calls are too deep in both alike, and none of
    its pages is missing. -/
structure Expansion.Fills (filled expansion : Expansion) : Prop where
  text : filled.text = expansion.text
  tooDeep : filled.problems.filter Diagnostic.isTooDeep =
    expansion.problems.filter Diagnostic.isTooDeep
  missing : ∀ name, .missingTemplate name ∉ filled.problems

namespace Expansion.Fills

theorem ofText (text : String) : (Expansion.ofText text).Fills (.ofText text) :=
  ⟨rfl, rfl, fun _ => List.not_mem_nil⟩

theorem ofProblem {problem : Diagnostic} (h : ∀ name, problem ≠ .missingTemplate name) :
    (Expansion.ofProblem problem).Fills (.ofProblem problem) := by
  refine ⟨rfl, rfl, ?_⟩
  intro name hmem
  exact h name (List.mem_singleton.1 hmem).symm

theorem before {filled expansion laterFilled later : Expansion} (h : filled.Fills expansion)
    (hlater : laterFilled.Fills later) :
    (filled.before laterFilled).Fills (expansion.before later) where
  text := hlater.text
  tooDeep := by
    simp only [Expansion.before, List.filter_append, h.tooDeep, hlater.tooDeep]
  missing name := by
    rw [Expansion.before, List.mem_append, not_or]
    exact ⟨h.missing name, hlater.missing name⟩

/-- Nodes in turn, when each of them alone is filled. -/
theorem join {filledNode expandNode : Node → Expansion} (nodes : List Node)
    (h : ∀ node ∈ nodes, (filledNode node).Fills (expandNode node)) :
    (Expansion.join (nodes.map filledNode)).Fills (.join (nodes.map expandNode)) ∧
      (nodes.map filledNode).map Expansion.text = (nodes.map expandNode).map Expansion.text := by
  have htexts : (nodes.map filledNode).map Expansion.text =
      (nodes.map expandNode).map Expansion.text := by
    rw [List.map_map, List.map_map]
    exact List.map_congr_left fun node hnode => (h node hnode).text
  refine ⟨⟨congrArg String.join htexts, ?_, ?_⟩, htexts⟩
  · simp only [Expansion.join, List.flatMap_map, List.filter_flatMap]
    exact List.flatMap_congr fun node hnode => (h node hnode).tooDeep
  · intro name hmem
    obtain ⟨expansion, hexpansion, hproblem⟩ := List.mem_flatMap.1 hmem
    obtain ⟨node, hnode, rfl⟩ := List.mem_map.1 hexpansion
    exact (h node hnode).missing name hproblem

end Expansion.Fills

namespace Reference

open Expansion

/-- The reference with an empty body for every name that has none. -/
def filled (reference : Reference) : Reference :=
  { reference with body := fun name => some ((reference.body name).getD (.plain [])) }

variable {reference : Reference}

theorem filled_page : reference.filled.page = reference.page := rfl

theorem filled_magic : reference.filled.magic = reference.magic := rfl

theorem filled_limits : reference.filled.limits = reference.limits := rfl

theorem filled_body (name : String) :
    reference.filled.body name = some ((reference.body name).getD (.plain [])) := rfl

/-- An empty body leaves no text, and at most has no room. -/
theorem evaluate_empty_fills (room : Nat) (scope : Arguments) (depth : Nat) (name : String) :
    (reference.evaluate room (.plain []) scope depth).Fills (.ofProblem (.missingTemplate name)) := by
  cases room with
  | zero =>
    simp only [evaluate]
    refine ⟨rfl, rfl, ?_⟩
    intro other hmem
    exact Diagnostic.noConfusion (List.mem_singleton.1 hmem)
  | succ room =>
    simp only [evaluate]
    exact ⟨rfl, rfl, fun _ => List.not_mem_nil⟩

/-- **The call that differs**: where there is no body for it, an empty one is entered. -/
theorem fills_answer (call : MagicCall) (depth : Nat) {enterFilled enter : Node → Expansion}
    (henter : ∀ body, (enterFilled body).Fills (enter body))
    (hempty : (enterFilled (.plain [])).Fills (.ofProblem (.missingTemplate call.name))) :
    (reference.filled.answer call depth enterFilled).Fills (reference.answer call depth enter) := by
  have hcall : (Expansion.ofCall call.name).Fills (.ofCall call.name) :=
    ⟨rfl, rfl, fun _ => List.not_mem_nil⟩
  unfold answer
  rw [filled_magic, filled_limits, filled_body]
  cases reference.magic.evaluate call with
  | some answer => exact .ofText answer
  | none =>
    by_cases hdeep : reference.limits.maxDepth ≤ depth
    · simp only [if_pos hdeep]
      exact .ofProblem fun _ => nofun
    · simp only [if_neg hdeep]
      cases reference.body call.name with
      | some body => exact hcall.before (henter body)
      | none => exact hcall.before hempty

/-- **Evaluation with empty pages** comes to the same text.  The induction is on the room. -/
theorem evaluate_fills (room : Nat) (node : Node) (scope : Arguments) (depth : Nat) :
    (reference.filled.evaluate room node scope depth).Fills
      (reference.evaluate room node scope depth) := by
  induction room generalizing node scope depth with
  | zero =>
    by_cases htext : ∃ source, node = .text source
    · obtain ⟨source, rfl⟩ := htext
      rw [evaluate_text, evaluate_text]
      exact .ofText source
    · have hnode : ∀ source, node ≠ .text source := not_exists.1 htext
      rw [evaluate_zero hnode, evaluate_zero hnode]
      exact .ofProblem fun _ => nofun
  | succ room ih =>
    cases node with
    | text source =>
      rw [evaluate_text, evaluate_text]
      exact .ofText source
    | plain children =>
      rw [evaluate, evaluate]
      exact (Fills.join children fun child _ => ih child scope depth).1
    | placeholder name default =>
      have hname := ih name scope depth
      simp only [evaluate, hname.text]
      apply hname.before
      cases scope.get? (Text.trim (reference.evaluate room name scope depth).text) with
      | some value => exact .ofText value
      | none =>
        cases default with
        | some default => exact ih default scope depth
        | none => exact .ofText ""
    | invocation name args =>
      -- the texts are the same, so the call is the same as well
      have hname := ih name scope depth
      obtain ⟨hargs, htexts⟩ := Fills.join args fun arg _ => ih arg scope depth
      simp only [evaluate, hname.text, htexts, filled_page]
      apply (hname.before hargs).before
      apply fills_answer
      · intro body
        exact ih body _ (depth + 1)
      · exact evaluate_empty_fills room _ (depth + 1) _

end Reference

/-! ## Expanding a page -/

namespace Expander

/-- **A missing page behaves as an empty one.**  With an empty page for every page that its source
    lacks, a page expands to the same text and reports the same calls as too deep, in the same
    order, and none as missing; this holds however often either was expanded before. -/
theorem expand_filled (text : String) (setting : Setting) (times timesFilled : Nat) :
    let expanded := ((ofPage text setting).again times).expand
    let filled := (((ofPage text setting).withSource setting.source.filled).again timesFilled).expand
    filled.1 = expanded.1 ∧
      filled.2.diagnostics.toList.filter Diagnostic.isTooDeep =
        expanded.2.diagnostics.toList.filter Diagnostic.isTooDeep ∧
      ∀ name, .missingTemplate name ∉ filled.2.diagnostics := by
  intro expanded filled
  have hreference : setting.reference setting.source.filled.body =
      (setting.reference setting.source.body).filled :=
    congrArg setting.reference (funext setting.source.body_filled)
  have hfills : ((ofPage text setting).withSource setting.source.filled).expansion.Fills
      (ofPage text setting).expansion := by
    show ((setting.reference (Cache.empty.body setting.source.filled)).evaluate _ _ _ _).Fills
      ((setting.reference (Cache.empty.body setting.source)).evaluate _ _ _ _)
    rw [Cache.body_empty, Cache.body_empty, hreference]
    exact Reference.evaluate_fills _ _ _ _
  refine ⟨?_, ?_, ?_⟩
  · rw [text_expand, text_expand, expansion_again, expansion_again, hfills.text]
  · rw [diagnostics_expand, diagnostics_expand, expansion_again, expansion_again]
    exact hfills.tooDeep
  · intro name
    rw [diagnostics_expand, expansion_again, List.mem_toArray]
    exact hfills.missing name

end Expander

end Transclusion
