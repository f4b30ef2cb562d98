/-
  When two evaluations agree.

  An evaluation depends on little of what it refers to: on the bodies of the names that it calls
  for, and on a limit only where it meets the limit.  `Reference.Agrees` says of one expansion that
  another reference has the same wherever it matters, and `evaluate_eq_of_agrees` that it then makes
  the same expansion, with as much more room as it likes.

  What agrees on a whole agrees on each of its parts (`Agrees.part`), so the induction asks of each
  node only what concerns the node itself.

  Main statement, `Expander.sameResult_of_raised`: a limit that a page did not meet can be raised
  without any effect on its expansion, also if the other limit cuts the expansion off.
-/
import Transclusion.Proofs.Expansion.Uncached

namespace Transclusion

namespace Reference

/-! ## Agreement -/

/-- Wherever an expansion shows what `reference` refers to, `other` refers to the same, with `extra`
    more nodes allowed.  Its limit of bodies may be greater. -/
structure Agrees (reference other : Reference) (extra : Nat) (expansion : Expansion) : Prop where
  page : other.page = reference.page
  magic : other.magic = reference.magic
  maxDepth_le : reference.limits.maxDepth ≤ other.limits.maxDepth
  body : ∀ name ∈ expansion.calls, other.body name = reference.body name
  depth : ∀ name, .tooDeep name reference.limits.maxDepth ∈ expansion.problems →
    other.limits.maxDepth = reference.limits.maxDepth
  nesting : .nestingTooDeep reference.limits.maxNesting ∈ expansion.problems →
    extra = 0 ∧ other.limits.maxNesting = reference.limits.maxNesting

namespace Agrees

variable {reference other : Reference} {extra : Nat}

/-- What agrees on a whole agrees on a part of it. -/
theorem part {whole part : Expansion} (h : reference.Agrees other extra whole)
    (hproblems : part.problems ⊆ whole.problems) (hcalls : part.calls ⊆ whole.calls) :
    reference.Agrees other extra part where
  page := h.page
  magic := h.magic
  maxDepth_le := h.maxDepth_le
  body name hname := h.body name (hcalls hname)
  depth name hname := h.depth name (hproblems hname)
  nesting hnesting := h.nesting (hproblems hnesting)

theorem first {first second : Expansion} (h : reference.Agrees other extra (first.before second)) :
    reference.Agrees other extra first :=
  h.part (List.subset_append_left _ _) (List.subset_append_left _ _)

theorem second {first second : Expansion} (h : reference.Agrees other extra (first.before second)) :
    reference.Agrees other extra second :=
  h.part (List.subset_append_right _ _) (List.subset_append_right _ _)

theorem of_mem_join {expansion : Expansion} {expansions : List Expansion}
    (h : reference.Agrees other extra (.join expansions)) (hmem : expansion ∈ expansions) :
    reference.Agrees other extra expansion := by
  apply h.part
  · intro problem hproblem
    exact List.mem_flatMap.2 ⟨expansion, hmem, hproblem⟩
  · intro name hname
    exact List.mem_flatMap.2 ⟨expansion, hmem, hname⟩

end Agrees

/-! ## Agreeing evaluations are equal -/

variable {reference other : Reference} {extra : Nat}

theorem evaluate_text (room : Nat) (source : String) (scope : Arguments) (depth : Nat) :
    reference.evaluate room (.text source) scope depth = .ofText source := by
  rw [evaluate]

/-- Without room a node that is not a text is cut off. -/
theorem evaluate_zero {node : Node} (hnode : ∀ source, node ≠ .text source) (scope : Arguments)
    (depth : Nat) :
    reference.evaluate 0 node scope depth =
      .ofProblem (.nestingTooDeep reference.limits.maxNesting) := by
  cases node with
  | text source => exact absurd rfl (hnode source)
  | plain children => simp only [evaluate]
  | placeholder name default => simp only [evaluate]
  | invocation name args => simp only [evaluate]

/-- Nodes in turn agree, when each of them does. -/
theorem map_evaluate_eq {evaluateNode otherNode : Node → Expansion}
    (hnode : ∀ node, reference.Agrees other extra (evaluateNode node) →
      otherNode node = evaluateNode node)
    (nodes : List Node) (h : reference.Agrees other extra (.join (nodes.map evaluateNode))) :
    nodes.map otherNode = nodes.map evaluateNode := by
  apply List.map_congr_left
  intro node hmem
  exact hnode node (h.of_mem_join (List.mem_map_of_mem hmem))

/-- A placeholder comes to the same, when its name does and, if nothing is bound to that, its default
    does. -/
theorem evaluate_placeholder_congr {room otherRoom depth otherDepth : Nat} {name otherName : Node}
    {default otherDefault : Option Node} {scope : Arguments}
    (hname : other.evaluate otherRoom otherName scope otherDepth =
      reference.evaluate room name scope depth)
    (hdefault : scope.get? (Text.trim (reference.evaluate room name scope depth).text) = none →
      (otherDefault.map fun node => other.evaluate otherRoom node scope otherDepth) =
        default.map fun node => reference.evaluate room node scope depth) :
    other.evaluate (otherRoom + 1) (.placeholder otherName otherDefault) scope otherDepth =
      reference.evaluate (room + 1) (.placeholder name default) scope depth := by
  simp only [evaluate, hname]
  cases hvalue : scope.get? (Text.trim (reference.evaluate room name scope depth).text) with
  | some value => rfl
  | none =>
    have hsame := hdefault hvalue
    cases default with
    | none =>
      obtain rfl := Option.map_eq_none_iff.1 hsame
      rfl
    | some default =>
      obtain ⟨otherDefault, rfl, hnode⟩ := Option.map_eq_some_iff.1 hsame
      simp only [hnode]

/-- A call is answered alike: an evaluator is the same, a limit that is met is the same, and so is
    the body that is called for. -/
theorem answer_eq_of_agrees {call : MagicCall} {depth : Nat} {enter otherEnter : Node → Expansion}
    (henter : ∀ body, reference.Agrees other extra (enter body) → otherEnter body = enter body)
    (h : reference.Agrees other extra (reference.answer call depth enter)) :
    other.answer call depth otherEnter = reference.answer call depth enter := by
  unfold answer at h ⊢
  rw [h.magic]
  cases hmagic : reference.magic.evaluate call with
  | some answer => rfl
  | none =>
    simp only [hmagic] at h ⊢
    by_cases hdeep : reference.limits.maxDepth ≤ depth
    · rw [if_pos hdeep] at h ⊢
      have hlimit := h.depth call.name (List.mem_singleton.2 rfl)
      rw [hlimit, if_pos hdeep]
    · have hother : ¬ other.limits.maxDepth ≤ depth := by
        have := h.maxDepth_le
        omega
      rw [if_neg hdeep] at h ⊢
      rw [if_neg hother]
      cases hbody : reference.body call.name with
      | some body =>
        simp only [hbody] at h
        rw [h.body call.name List.mem_cons_self, hbody]
        simp only
        rw [henter body h.second]
      | none =>
        simp only [hbody] at h
        rw [h.body call.name List.mem_cons_self, hbody]

/-- **Agreeing evaluations are equal.**  The induction is on the room of the first one; the other
    always has `extra` more. -/
theorem evaluate_eq_of_agrees (room : Nat) (node : Node) (scope : Arguments) (depth : Nat)
    (h : reference.Agrees other extra (reference.evaluate room node scope depth)) :
    other.evaluate (room + extra) node scope depth = reference.evaluate room node scope depth := by
  induction room generalizing node scope depth with
  | zero =>
    by_cases htext : ∃ source, node = .text source
    · obtain ⟨source, rfl⟩ := htext
      rw [evaluate_text, evaluate_text]
    · have hnode : ∀ source, node ≠ .text source := not_exists.1 htext
      rw [evaluate_zero hnode] at h ⊢
      obtain ⟨rfl, hlimit⟩ := h.nesting (List.mem_singleton.2 rfl)
      rw [Nat.add_zero, evaluate_zero hnode, hlimit]
  | succ room ih =>
    rw [Nat.add_right_comm]
    cases node with
    | text source => rw [evaluate_text, evaluate_text]
    | plain children =>
      rw [evaluate] at h ⊢
      rw [evaluate, map_evaluate_eq (fun child => ih child scope depth) children h]
    | placeholder name default =>
      simp only [evaluate] at h
      apply evaluate_placeholder_congr (ih name scope depth h.first)
      intro hvalue
      simp only [hvalue] at h
      cases default with
      | none => rfl
      | some default => exact congrArg some (ih default scope depth h.second)
    | invocation name args =>
      simp only [evaluate] at h ⊢
      rw [ih name scope depth h.first.first,
        map_evaluate_eq (fun arg => ih arg scope depth) args h.first.second, h.page]
      congr 1
      exact answer_eq_of_agrees (fun body => ih body _ (depth + 1)) h.second

end Reference

/-! ## Raising a limit -/

/-- The setting with other limits. -/
def Setting.withLimits (setting : Setting) (limits : Limits) : Setting := { setting with limits }

namespace Expander

/-- Two expansions give the same text and the same problems in the same order, and leave the same
    cache: its entries, its counts, and what was asked of the source, in order. -/
structure SameResult (first second : String × Expander) : Prop where
  text : first.1 = second.1
  diagnostics : first.2.diagnostics = second.2.diagnostics
  cache : first.2.cache = second.2.cache

/-- Where a page comes to the same under other limits, expanding it has the same result. -/
theorem sameResult_of_expansion_eq {text : String} {setting : Setting} {limits : Limits}
    (h : (ofPage text (setting.withLimits limits)).expansion = (ofPage text setting).expansion) :
    SameResult (ofPage text (setting.withLimits limits)).expand (ofPage text setting).expand := by
  constructor
  · rw [text_expand, h, text_expand]
  · rw [diagnostics_expand, h, diagnostics_expand]
  · rw [cache_expand, h, cache_expand]
    rfl

/-- **A limit that was not met can be raised**: a page that reports no call as too deep has the same
    result with every greater limit of open bodies, and a page that reports no node as too deep with
    every greater limit of open nodes, whatever the other limit cuts off. -/
theorem sameResult_of_raised (text : String) (setting : Setting) :
    let expanded := (ofPage text setting).expand
    ((∀ name limit, .tooDeep name limit ∉ expanded.2.diagnostics) →
      ∀ maxDepth, setting.limits.maxDepth ≤ maxDepth →
        SameResult (ofPage text (setting.withLimits { setting.limits with maxDepth })).expand
          expanded) ∧
    ((∀ limit, .nestingTooDeep limit ∉ expanded.2.diagnostics) →
      ∀ maxNesting, setting.limits.maxNesting ≤ maxNesting →
        SameResult (ofPage text (setting.withLimits { setting.limits with maxNesting })).expand
          expanded) := by
  intro expanded
  have hmem : ∀ {problem}, problem ∈ expanded.2.diagnostics ↔
      problem ∈ (ofPage text setting).expansion.problems := by
    intro problem
    rw [diagnostics_expand]
    exact List.mem_toArray
  constructor
  · intro hnone maxDepth hle
    have hagrees : (setting.reference setting.source.body).Agrees
        ((setting.withLimits { setting.limits with maxDepth }).reference setting.source.body) 0
        (ofPage text setting).expansion := by
      refine ⟨rfl, rfl, hle, fun _ _ => rfl, ?_, fun _ => ⟨rfl, rfl⟩⟩
      intro name hdeep
      exact absurd (hmem.2 hdeep) (hnone name _)
    apply sameResult_of_expansion_eq
    exact Reference.evaluate_eq_of_agrees _ _ _ _ hagrees
  · intro hnone maxNesting hle
    obtain ⟨extra, rfl⟩ := Nat.exists_eq_add_of_le hle
    have hagrees : (setting.reference setting.source.body).Agrees
        ((setting.withLimits { setting.limits with maxNesting := setting.limits.maxNesting + extra
          }).reference setting.source.body) extra
        (ofPage text setting).expansion := by
      refine ⟨rfl, rfl, Nat.le_refl _, fun _ _ => rfl, fun _ _ => rfl, ?_⟩
      intro hdeep
      exact absurd (hmem.2 hdeep) (hnone _)
    apply sameResult_of_expansion_eq
    exact Reference.evaluate_eq_of_agrees _ _ _ _ hagrees

/-- A page `a` that calls itself, behind a text. -/
def loopSetting (limits : Limits) : Setting :=
  ⟨"", (PageTable.empty.insert "a" "x\x7b\x7ba\x7d\x7d").toSource, .empty, limits⟩

/-- A loop is cut off by whichever limit it meets first, and the other one can be raised. -/
theorem sameResult_of_raised_loop :
    let loop maxDepth maxNesting :=
      (ofPage "\x7b\x7ba\x7d\x7d" (loopSetting ⟨maxDepth, maxNesting⟩)).expand
    (loop 40 6).1 = "xxx" ∧ (loop 40 6).2.diagnostics = #[.nestingTooDeep 6] ∧
      SameResult (loop 1000 6) (loop 40 6) ∧
    (loop 2 20).1 = "xx" ∧ (loop 2 20).2.diagnostics = #[.tooDeep "a" 2] ∧
      SameResult (loop 2 500) (loop 2 20) := by
  intro loop
  have hnesting : (loop 40 6).2.diagnostics = #[.nestingTooDeep 6] := by decide +kernel
  have hdepth : (loop 2 20).2.diagnostics = #[.tooDeep "a" 2] := by decide +kernel
  refine ⟨by decide +kernel, hnesting, ?_, by decide +kernel, hdepth, ?_⟩
  · apply (sameResult_of_raised "\x7b\x7ba\x7d\x7d" (loopSetting ⟨40, 6⟩)).1 ?_ 1000 (by decide)
    intro name limit
    show _ ∉ (loop 40 6).2.diagnostics
    rw [hnesting]
    simp
  · apply (sameResult_of_raised "\x7b\x7ba\x7d\x7d" (loopSetting ⟨2, 20⟩)).2 ?_ 500 (by decide)
    intro limit
    show _ ∉ (loop 2 20).2.diagnostics
    rw [hdepth]
    simp

end Expander

end Transclusion
