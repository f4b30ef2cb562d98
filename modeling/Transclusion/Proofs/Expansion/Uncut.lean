/-
  Expansions that were not cut off.

  Where no limit was met, it is of no effect how near the limits were.  With more nodes allowed a
  node comes to the same (`evaluate_add_room`, from `evaluate_eq_of_agrees`), and with a body less
  open as well (`evaluate_of_succ_depth`).

  A call by a name without an evaluator comes to its arguments and then to its body, or, at the limit
  of open bodies, to a problem (`evaluate_call_of_lt`, `evaluate_call_of_le`).

  A page is a group of children, and collapsed it is its only child when there is just one.  So its
  children stand below one node or below none.  `row` is what they come to one after another, and a
  page comes to its row in either case: with the same room (`evaluate_page`), or with room for one
  node more than the row needs (`evaluate_page_of_row`).
-/
import Transclusion.Proofs.Expansion.Collapsing

namespace Transclusion

/-- No evaluator answers a call by a name that has none. -/
theorem MagicRegistry.evaluate_eq_none {registry : MagicRegistry} {name : String}
    (h : registry.get? name = none) (args scope : Arguments) (page : String) :
    registry.evaluate ⟨name, args, scope, page⟩ = none := by
  rw [evaluate, h]
  rfl

/-! ## Expansions that were not cut off -/

/-- No limit was met: no call is reported as too deep, and no node as nested too deep. -/
structure Expansion.Uncut (expansion : Expansion) : Prop where
  depth : ∀ name limit, .tooDeep name limit ∉ expansion.problems
  nesting : ∀ limit, .nestingTooDeep limit ∉ expansion.problems

/-- What a reader of the page sees of an expansion. -/
def Expansion.outcome (expansion : Expansion) : String × List Diagnostic :=
  (expansion.text, expansion.problems)

namespace Expansion.Uncut

theorem of_outcome {expansion other : Expansion} (h : expansion.Uncut)
    (houtcome : other.outcome = expansion.outcome) : other.Uncut := by
  have hproblems : other.problems = expansion.problems := congrArg Prod.snd houtcome
  exact ⟨hproblems ▸ h.depth, hproblems ▸ h.nesting⟩

theorem of_subset {whole part : Expansion} (h : whole.Uncut)
    (hproblems : part.problems ⊆ whole.problems) : part.Uncut where
  depth name limit hmem := h.depth name limit (hproblems hmem)
  nesting limit hmem := h.nesting limit (hproblems hmem)

theorem first {first second : Expansion} (h : (first.before second).Uncut) : first.Uncut :=
  h.of_subset (List.subset_append_left _ _)

theorem second {first second : Expansion} (h : (first.before second).Uncut) : second.Uncut :=
  h.of_subset (List.subset_append_right _ _)

theorem of_mem_join {expansion : Expansion} {expansions : List Expansion}
    (h : (join expansions).Uncut) (hmem : expansion ∈ expansions) : expansion.Uncut :=
  h.of_subset fun _ hproblem => List.mem_flatMap.2 ⟨expansion, hmem, hproblem⟩

end Expansion.Uncut

namespace Reference

open Expansion

variable {reference : Reference}

/-! ## Calls by a written name -/

/-- What the arguments of a call come to. -/
def arguments (reference : Reference) (room : Nat) (args : List Node) (scope : Arguments)
    (depth : Nat) : List Expansion :=
  args.map fun arg => reference.evaluate room arg scope depth

/-- A call by a name that no evaluator answers comes to its arguments and, below the limit of open
    bodies, to its body. -/
theorem evaluate_call_of_lt {name : String} {body : Node} (hname : Text.trim name = name)
    (hmagic : reference.magic.get? name = none) (hbody : reference.body name = some body)
    {depth : Nat} (hdepth : depth < reference.limits.maxDepth) (room : Nat) (args : List Node)
    (scope : Arguments) :
    reference.evaluate (room + 1) (.invocation (.text name) args) scope depth =
      (join (reference.arguments room args scope depth)).before ((ofCall name).before
        (reference.evaluate room body
          (.bind ((reference.arguments room args scope depth).map Expansion.text)) (depth + 1))) := by
  have hdeclined := MagicRegistry.evaluate_eq_none hmagic
  simp only [evaluate, evaluate_text, ofText, hname, answer, hdeclined, hbody,
    if_neg (Nat.not_le.2 hdepth)]
  rfl

/-- At the limit of open bodies the call is reported in the place of its body. -/
theorem evaluate_call_of_le {name : String} (hname : Text.trim name = name)
    (hmagic : reference.magic.get? name = none) {depth : Nat}
    (hdepth : reference.limits.maxDepth ≤ depth) (room : Nat) (args : List Node)
    (scope : Arguments) :
    reference.evaluate (room + 1) (.invocation (.text name) args) scope depth =
      (join (reference.arguments room args scope depth)).before
        (.ofProblem (.tooDeep name reference.limits.maxDepth)) := by
  have hdeclined := MagicRegistry.evaluate_eq_none hmagic
  simp only [evaluate, evaluate_text, ofText, hname, answer, hdeclined, if_pos hdepth]
  rfl

/-! ## More room and fewer open bodies -/

/-- With more nodes allowed, what was not cut off comes to the same. -/
theorem evaluate_add_room {room : Nat} {node : Node} {scope : Arguments} {depth : Nat}
    (h : (reference.evaluate room node scope depth).Uncut) (extra : Nat) :
    reference.evaluate (room + extra) node scope depth =
      reference.evaluate room node scope depth :=
  evaluate_eq_of_agrees room node scope depth (agrees_self h.nesting extra)

/-- A node that is not a text needs room. -/
theorem exists_room {room : Nat} {node : Node} {scope : Arguments} {depth : Nat}
    (hnode : ∀ source, node ≠ .text source)
    (h : (reference.evaluate room node scope depth).Uncut) : ∃ fewer, room = fewer + 1 := by
  cases room with
  | zero =>
    rw [evaluate_zero hnode] at h
    exact absurd (List.mem_singleton.2 rfl) (h.nesting _)
  | succ fewer => exact ⟨fewer, rfl⟩

/-- Where a call is not answered by an evaluator and not too deep, its body is entered. -/
theorem answer_eq_before {call : MagicCall} {depth : Nat} {enter : Node → Expansion} {body : Node}
    (hmagic : reference.magic.evaluate call = none) (hbody : reference.body call.name = some body)
    (h : (reference.answer call depth enter).Uncut) :
    reference.answer call depth enter = (ofCall call.name).before (enter body) := by
  unfold answer at h ⊢
  simp only [hmagic, hbody] at h ⊢
  by_cases hdeep : reference.limits.maxDepth ≤ depth
  · rw [if_pos hdeep] at h
    exact absurd (List.mem_singleton.2 rfl) (h.depth call.name _)
  · rw [if_neg hdeep]

/-- A call with one body less open is answered alike, when entering its body is. -/
theorem answer_of_succ_depth {call : MagicCall} {depth : Nat} {enter shallower : Node → Expansion}
    (henter : ∀ body, (enter body).Uncut → shallower body = enter body)
    (h : (reference.answer call (depth + 1) enter).Uncut) :
    reference.answer call depth shallower = reference.answer call (depth + 1) enter := by
  unfold answer at h ⊢
  cases hmagic : reference.magic.evaluate call with
  | some answer => rfl
  | none =>
    simp only [hmagic] at h ⊢
    by_cases hdeep : reference.limits.maxDepth ≤ depth + 1
    · rw [if_pos hdeep] at h
      exact absurd (List.mem_singleton.2 rfl) (h.depth call.name _)
    · rw [if_neg hdeep] at h ⊢
      rw [if_neg fun hle => hdeep (Nat.le_succ_of_le hle)]
      cases hbody : reference.body call.name with
      | none => rfl
      | some body =>
        simp only [hbody] at h ⊢
        rw [henter body h.second]

/-- **With one body less open**, what was not cut off comes to the same.  The induction is on the
    room. -/
theorem evaluate_of_succ_depth (room : Nat) (node : Node) (scope : Arguments) (depth : Nat)
    (h : (reference.evaluate room node scope (depth + 1)).Uncut) :
    reference.evaluate room node scope depth = reference.evaluate room node scope (depth + 1) := by
  induction room generalizing node scope depth with
  | zero => cases node <;> simp only [evaluate]
  | succ room ih =>
    have hnodes : ∀ nodes : List Node,
        (join (nodes.map fun node => reference.evaluate room node scope (depth + 1))).Uncut →
        nodes.map (fun node => reference.evaluate room node scope depth) =
          nodes.map fun node => reference.evaluate room node scope (depth + 1) := by
      intro nodes hjoin
      apply List.map_congr_left
      intro node hnode
      exact ih node scope depth (hjoin.of_mem_join (List.mem_map_of_mem hnode))
    cases node with
    | text source => rw [evaluate_text, evaluate_text]
    | plain children =>
      rw [evaluate] at h
      rw [evaluate, evaluate, hnodes children h]
    | placeholder name default =>
      simp only [evaluate] at h
      apply evaluate_placeholder_congr (ih name scope depth h.first)
      intro hvalue
      simp only [hvalue] at h
      cases default with
      | none => rfl
      | some default => exact congrArg some (ih default scope depth h.second)
    | invocation name args =>
      simp only [evaluate] at h ⊢
      rw [ih name scope depth h.first.first, hnodes args h.first.second]
      congr 1
      exact answer_of_succ_depth (fun body => ih body _ (depth + 1)) h.second

/-! ## The children of a page in a row -/

/-- What the children of a page come to in a row, each of them collapsed. -/
def row (reference : Reference) (room : Nat) (children : List Node) (scope : Arguments)
    (depth : Nat) : Expansion :=
  .join (children.map fun child => reference.evaluate room child.collapse scope depth)

/-- A row that was not cut off comes to the same with more nodes allowed. -/
theorem row_add_room {room : Nat} {children : List Node} {scope : Arguments} {depth : Nat}
    (h : (reference.row room children scope depth).Uncut) (extra : Nat) :
    reference.row (room + extra) children scope depth = reference.row room children scope depth := by
  unfold row
  congr 1
  apply List.map_congr_left
  intro child hchild
  exact evaluate_add_room (h.of_mem_join (List.mem_map_of_mem hchild)) extra

/-- A page of no child, or of several, opens one node and comes to its children in a row. -/
theorem evaluate_page_of_ne_one {children : List Node} (hne : children.length ≠ 1) (room : Nat)
    (scope : Arguments) (depth : Nat) :
    reference.evaluate (room + 1) (Node.plain children).collapse scope depth =
      reference.row room children scope depth := by
  rw [Node.collapse_plain hne, evaluate, List.map_map]
  rfl

/-- A page of one child is this child. -/
theorem evaluate_page_singleton (only : Node) (room : Nat) (scope : Arguments) (depth : Nat) :
    reference.evaluate room (Node.plain [only]).collapse scope depth =
      reference.row room [only] scope depth := by
  rw [Node.collapse_plain_singleton]
  exact (join_singleton _).symm

/-- A page with one node more allowed comes to its children in a row. -/
theorem evaluate_page_of_row {room : Nat} {children : List Node} {scope : Arguments} {depth : Nat}
    (h : (reference.row room children scope depth).Uncut) :
    reference.evaluate (room + 1) (Node.plain children).collapse scope depth =
      reference.row room children scope depth := by
  by_cases hone : children.length = 1
  · obtain ⟨only, rfl⟩ := List.length_eq_one_iff.1 hone
    rw [evaluate_page_singleton, row_add_room h]
  · exact evaluate_page_of_ne_one hone room scope depth

/-- A page of no child, or of several, needs room for a node around its row. -/
theorem exists_row_of_ne_one {room : Nat} {children : List Node} (hne : children.length ≠ 1)
    {scope : Arguments} {depth : Nat}
    (h : (reference.evaluate room (Node.plain children).collapse scope depth).Uncut) :
    ∃ fewer, room = fewer + 1 ∧
      reference.evaluate room (Node.plain children).collapse scope depth =
        reference.row fewer children scope depth := by
  have hnode : ∀ source, (Node.plain children).collapse ≠ .text source := by
    intro source
    rw [Node.collapse_plain hne]
    exact nofun
  obtain ⟨fewer, rfl⟩ := exists_room hnode h
  exact ⟨fewer, rfl, evaluate_page_of_ne_one hne fewer scope depth⟩

/-- A page that was not cut off comes to its children in a row. -/
theorem evaluate_page {room : Nat} {children : List Node} {scope : Arguments} {depth : Nat}
    (h : (reference.evaluate room (Node.plain children).collapse scope depth).Uncut) :
    reference.evaluate room (Node.plain children).collapse scope depth =
      reference.row room children scope depth := by
  by_cases hone : children.length = 1
  · obtain ⟨only, rfl⟩ := List.length_eq_one_iff.1 hone
    exact evaluate_page_singleton only room scope depth
  · obtain ⟨fewer, rfl, hrow⟩ := exists_row_of_ne_one hone h
    rw [hrow] at h ⊢
    exact (row_add_room h 1).symm

end Reference

end Transclusion
