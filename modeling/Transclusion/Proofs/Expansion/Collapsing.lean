/-
  Collapsing a tree keeps what it comes to.

  A collapsed tree has fewer nodes around each of its nodes, so what is inside it is evaluated with
  more room than before, bodies included.  Where nothing was cut off for its nesting, more room is
  of no effect (`Reference.evaluate_eq_of_agrees`), and the induction goes through: a group of one
  comes to what its child comes to, and every other node keeps its shape.

  The converse fails: a tree may be cut off where the collapsed one is not.

  Main statement, `flatten_collapse`: from any state, a collapsed tree leaves the text and the run
  that the tree leaves, if flattening the tree reports no node as nested too deep.
-/
import Transclusion.Proofs.Expansion.Agreement

namespace Transclusion

/-! ## What a run has met since another one -/

/-- The problems that `after` has met and `before` had not. -/
def Run.problemsSince (after before : Run) : List Diagnostic :=
  after.diagnostics.toList.drop before.diagnostics.size

/-- The problems of an expansion are those that were met in it. -/
theorem Run.problemsSince_record (run : Run) (source : Source) (expansion : Expansion) :
    (run.record source expansion).problemsSince run = expansion.problems := by
  simp [problemsSince, record]

/-- Flattening a node meets the problems of its expansion. -/
theorem problemsSince_flatten (setting : Setting) (room : Nat) (node : Node) (scope : Arguments)
    (depth : Nat) (run : Run) :
    (flatten setting room node scope depth run).2.problemsSince run =
      ((setting.reference (run.cache.body setting.source)).evaluate room node scope
        depth).problems := by
  rw [flatten_eq_evaluate setting _ room node scope depth run rfl]
  exact run.problemsSince_record setting.source _

namespace Expansion

theorem join_singleton (expansion : Expansion) : join [expansion] = expansion := by
  simp [join, String.join]

end Expansion

namespace Reference

variable {reference : Reference}

/-! ## More room -/

/-- What was not cut off for its nesting comes to the same with more nodes allowed. -/
theorem agrees_self {expansion : Expansion}
    (h : ∀ limit, .nestingTooDeep limit ∉ expansion.problems) (extra : Nat) :
    reference.Agrees reference extra expansion where
  page := rfl
  magic := rfl
  maxDepth_le := Nat.le_refl _
  body _ _ := rfl
  depth _ _ := rfl
  nesting hcut := absurd hcut (h _)

/-! ## Collapsing -/

/-- **A collapsed tree comes to the same**, if the tree comes to the same with one more node
    allowed.  The induction is on the room. -/
theorem evaluate_collapse (room : Nat) (node : Node) (scope : Arguments) (depth : Nat)
    (h : reference.Agrees reference 1 (reference.evaluate room node scope depth)) :
    reference.evaluate room node.collapse scope depth =
      reference.evaluate room node scope depth := by
  induction room generalizing node scope depth with
  | zero =>
    by_cases htext : ∃ source, node = .text source
    · obtain ⟨source, rfl⟩ := htext
      rw [Node.collapse_text]
    · -- without room the node is cut off, and with one more node allowed it would not be
      have hnode : ∀ source, node ≠ .text source := not_exists.1 htext
      rw [evaluate_zero hnode] at h
      have hextra := (h.nesting (List.mem_singleton.2 rfl)).1
      exact absurd hextra Nat.one_ne_zero
  | succ room ih =>
    have hnodes : ∀ nodes : List Node,
        reference.Agrees reference 1
          (.join (nodes.map fun node => reference.evaluate room node scope depth)) →
        (nodes.map Node.collapse).map (fun node => reference.evaluate room node scope depth) =
          nodes.map fun node => reference.evaluate room node scope depth := by
      intro nodes hjoin
      rw [List.map_map]
      exact map_evaluate_eq (fun node => ih node scope depth) nodes hjoin
    cases node with
    | text source => rw [Node.collapse_text]
    | plain children =>
      rw [evaluate] at h
      by_cases hone : children.length = 1
      · obtain ⟨only, rfl⟩ := List.length_eq_one_iff.1 hone
        have honly : reference.Agrees reference 1 (reference.evaluate room only scope depth) :=
          h.of_mem_join List.mem_cons_self
        have hcollapse := ih only scope depth honly
        -- the child stands where the group stood, with one more node allowed
        have hraised : reference.evaluate (room + 1) only.collapse scope depth =
            reference.evaluate room only.collapse scope depth := by
          apply evaluate_eq_of_agrees
          rwa [hcollapse]
        rw [Node.collapse_plain_singleton, hraised, hcollapse, evaluate, List.map_singleton,
          Expansion.join_singleton]
      · rw [Node.collapse_plain hone, evaluate, evaluate, hnodes children h]
    | placeholder name default =>
      rw [Node.collapse_placeholder]
      simp only [evaluate] at h
      apply evaluate_placeholder_congr (ih name scope depth h.first)
      intro hvalue
      simp only [hvalue] at h
      cases default with
      | none => rfl
      | some default => exact congrArg some (ih default scope depth h.second)
    | invocation name args =>
      -- name and arguments come to the same, so the same body is entered with the same scope
      rw [Node.collapse_invocation]
      simp only [evaluate] at h ⊢
      rw [ih name scope depth h.first.first, hnodes args h.first.second]

end Reference

/-- **Collapsing preserves meaning**: for every tree, scope, number of open bodies, cache, source,
    registry and limits, and however many nodes more may be opened: if flattening the tree reports
    no node as nested too deep, then flattening the collapsed tree from the same run has the same
    text and leaves the same run, with its problems, its questions to the source and its cache. -/
theorem flatten_collapse (setting : Setting) (room : Nat) (node : Node) (scope : Arguments)
    (depth : Nat) (run : Run)
    (h : ∀ limit, .nestingTooDeep limit ∉
      (flatten setting room node scope depth run).2.problemsSince run) :
    flatten setting room node.collapse scope depth run =
      flatten setting room node scope depth run := by
  rw [problemsSince_flatten] at h
  rw [flatten_eq_evaluate setting _ room node.collapse scope depth run rfl,
    flatten_eq_evaluate setting _ room node scope depth run rfl,
    Reference.evaluate_collapse room node scope depth (Reference.agrees_self h 1)]

/-- One template, which shows its first argument in brackets. -/
def bracketSetting : Setting :=
  ⟨"", (PageTable.empty.insert "t" "[\x7b\x7b\x7b1\x7d\x7d\x7d]").toSource, .empty, {}⟩

/-- A call and a placeholder, with a group around each of their parts. -/
def wrappedParts : Node :=
  .plain [.plain [.invocation (.plain [.text "t"]) [.plain [.plain [.text "x", .text "y"]]]],
    .placeholder (.plain [.text "p"]) (some (.plain [.plain []])), .plain [.text "z"]]

/-- Five nodes are open at once in the tree, and from a run that has met a problem before nothing
    is cut off. -/
theorem flatten_collapse_wrapped :
    let run : Run := ⟨.empty, #[.nestingTooDeep 500]⟩
    let flattened := flatten bracketSetting 5 wrappedParts .empty 0 run
    (∀ limit, .nestingTooDeep limit ∉ flattened.2.problemsSince run) ∧
      wrappedParts.collapse ≠ wrappedParts ∧ flattened.1 = "[xy]z" ∧
      flatten bracketSetting 5 wrappedParts.collapse .empty 0 run = flattened := by
  intro run flattened
  have hproblems : flattened.2.problemsSince run = [] := by decide +kernel
  have huncut : ∀ limit, .nestingTooDeep limit ∉ flattened.2.problemsSince run := by
    intro limit
    rw [hproblems]
    exact List.not_mem_nil
  exact ⟨huncut, by decide +kernel, by decide +kernel,
    flatten_collapse bracketSetting 5 wrappedParts .empty 0 run huncut⟩

/-- With four nodes the tree is cut off, and collapsed it is not. -/
example :
    let run : Run := ⟨.empty, #[]⟩
    (flatten bracketSetting 4 wrappedParts .empty 0 run).1 = "[]z" ∧
      (flatten bracketSetting 4 wrappedParts.collapse .empty 0 run).1 = "[xy]z" := by
  decide +kernel

end Transclusion
