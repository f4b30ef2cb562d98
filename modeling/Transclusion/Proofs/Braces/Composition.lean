/-
  Where reading composes.

  Tokens can be read in two portions exactly if the first portion leaves no level open.

  That it suffices has two halves.  Nothing behind has an influence on what is in front: no rule of
  the machine looks further ahead than at one token, so every step is a step as well with more
  tokens behind (`Step.followedBy`), and so is a run (`reaches_followedBy`).  And nothing in front
  has an influence on what is behind but through the levels that are open: with none, the machine
  goes on as from its start, above the children that the root has (`Stack.run_onto`).

  That it is necessary is seen from one text: an open level takes it in, so it is no child of the
  root.  The tree shows as well whether a level was open at the end.  Such a level is given up as a
  group that begins with two braces or more, and no other child of the root is a group of this kind
  (`Step.noneGivenUp`).

  Main statement, `Node.ofTokens_append_iff`.
-/
import Transclusion.Proofs.Braces.Machine
import Transclusion.Proofs.Braces.Root
import Transclusion.Proofs.Node.Within

namespace Transclusion

/-- A group made of a level that was never closed: it begins with the braces of the level. -/
def Node.IsGivenUp (node : Node) : Prop :=
  ∃ braces inside, 2 ≤ braces ∧ node = .plain (.text (openBraces braces) :: inside)

namespace Braces

open Relation (ReflTransGen)

/-! ## Groups that are given up -/

theorem not_isGivenUp_text (source : String) : ¬(Node.text source).IsGivenUp := by
  rintro ⟨braces, inside, -, ⟨⟩⟩

/-- No construct is a text, so a group that begins with one was closed. -/
theorem Piece.not_isGivenUp {braces taken : Nat} {level : Level} {construct : Node}
    (h : Piece braces level taken construct) : ¬(Node.plain [construct]).IsGivenUp := by
  rintro ⟨_, inside, -, hgroup⟩
  rw [Node.plain.injEq] at hgroup
  have htext := (List.cons.inj hgroup).1
  cases h with
  | call h => cases htext
  | placeholder h =>
    rw [Node.placeholderFrom] at htext
    split at htext
    · cases htext
    · cases htext

/-- One brace that is left in front belongs to a group that was closed. -/
theorem not_isGivenUp_braceLeft (inside : List Node) :
    ¬(Node.plain (.text (openBraces 1) :: inside)).IsGivenUp := by
  rintro ⟨braces, others, hle, hgroup⟩
  rw [Node.plain.injEq] at hgroup
  have hbraces : openBraces 1 = openBraces braces := Node.text.inj (List.cons.inj hgroup).1
  have hlength := congrArg (fun text => text.toList.length) hbraces
  simp only [openBraces, String.toList_ofList, List.length_replicate] at hlength
  omega

namespace Machine

/-- The last token is not behind the machine. -/
def IsReading : Machine → Prop
  | reading _ _ => True
  | closing _ _ _ => True
  | ending _ => False

/-- The open levels and the root. -/
def stack : Machine → Stack
  | reading stack _ => stack
  | closing _ stack _ => stack
  | ending stack => stack

/-- The machine with more tokens behind those that it has ahead. -/
def followedBy (more : List Token) : Machine → Machine
  | reading stack tokens => reading stack (tokens ++ more)
  | closing braces stack later => closing braces stack (later ++ more)
  | ending stack => ending stack

/-- The machine reads all of the tokens, and no level is open then. -/
def ComesThrough (tokens : List Token) : Prop :=
  ∃ root, ReflTransGen Step (start tokens) (reading ⟨[], root⟩ [])

/-! ## What stands behind has no influence -/

variable {before after : Machine}

/-- Behind the last token there is no way back. -/
theorem Step.isReading (h : Step before after) (hafter : after.IsReading) : before.IsReading := by
  cases h with
  | unclosed => exact hafter
  | _ => trivial

/-- **One step** is the same step with more tokens behind, as long as there are tokens to read. -/
theorem Step.followedBy (h : Step before after) (hafter : after.IsReading) (more : List Token) :
    Step (before.followedBy more) (after.followedBy more) := by
  cases h with
  | openNone => exact .openNone
  | openOne => exact .openOne
  | opened hn hfree => exact .opened hn hfree
  | full hn hfull => exact .full hn hfull
  | closed => exact .closed
  | skipped => exact .skipped
  | literal h => exact .literal h
  | ended => exact hafter.elim
  | exhausted => exact hafter.elim
  | placed => exact .placed
  | closeOne => exact .closeOne
  | stray hn => exact .stray hn
  | usedUp hn hpiece hleft => exact .usedUp hn hpiece hleft
  | braceLeft hn hpiece hleft => exact .braceLeft hn hpiece hleft
  | stillOpen hn hpiece hleft => exact .stillOpen hn hpiece hleft
  | unclosed => exact hafter.elim

/-- **A run** is the same run with more tokens behind. -/
theorem reaches_followedBy (h : ReflTransGen Step before after) (hafter : after.IsReading)
    (more : List Token) : ReflTransGen Step (before.followedBy more) (after.followedBy more) := by
  induction h with
  | refl => exact .refl
  | tail _ hstep ih => exact (ih (hstep.isReading hafter)).tail (hstep.followedBy hafter more)

/-! ## All tokens are read -/

/-- Tokens without an end of the text are read, and leave what they leave on the stack. -/
theorem reaches_read {tokens : List Token} (hend : .endOfText ∉ tokens) (stack : Stack) :
    ReflTransGen Step (reading stack tokens) (reading (stack.run tokens) []) := by
  induction tokens generalizing stack with
  | nil => exact .refl
  | cons token later ih =>
    rw [List.mem_cons, not_or] at hend
    rw [Stack.run_cons token (Ne.symm hend.1)]
    exact (reaches_step (Ne.symm hend.1) stack later).trans (ih hend.2 _)

theorem comesThrough_of_closed {tokens : List Token} (hend : .endOfText ∉ tokens)
    (h : Closed tokens) : ComesThrough tokens := by
  refine ⟨(Stack.empty.run tokens).root, ?_⟩
  have hread := reaches_read hend Stack.empty
  rwa [show Stack.empty.run tokens = ⟨[], _⟩ from congrArg (Stack.mk · _) h] at hread

/-! ## The children of the root while there are tokens to read -/

/-- No group that was given up is a child of the root. -/
def NoneGivenUp (stack : Stack) : Prop := ∀ child ∈ stack.root, ¬child.IsGivenUp

theorem NoneGivenUp.add {node : Node} {stack : Stack} (h : NoneGivenUp stack)
    (hnode : ¬node.IsGivenUp) : NoneGivenUp (stack.add [node]) := by
  obtain ⟨levels, root⟩ := stack
  cases levels with
  | nil => exact List.forall_mem_cons.2 ⟨hnode, h⟩
  | cons level outer => exact h

/-- **One step** gives up no child of the root as long as there are tokens to read. -/
theorem Step.noneGivenUp (h : Step before after) (hafter : after.IsReading)
    (hbefore : NoneGivenUp before.stack) : NoneGivenUp after.stack := by
  cases h with
  | openNone => exact hbefore
  | openOne => exact hbefore.add (not_isGivenUp_text _)
  | opened hn hfree => exact hbefore
  | full hn hfull => exact hbefore.add (not_isGivenUp_text _)
  | closed => exact hbefore
  | skipped => exact hbefore
  | literal h => exact hbefore.add (not_isGivenUp_text _)
  | ended => exact hbefore
  | exhausted => exact hbefore
  | placed => exact hbefore
  | closeOne => exact hbefore.add (not_isGivenUp_text _)
  | stray hn => exact hbefore.add (not_isGivenUp_text _)
  | @usedUp level outer root later n taken construct hn hpiece hleft =>
    have houter : NoneGivenUp ⟨outer, root⟩ := hbefore
    exact houter.add hpiece.not_isGivenUp
  | @braceLeft level outer root later n taken construct hn hpiece hleft =>
    have houter : NoneGivenUp ⟨outer, root⟩ := hbefore
    exact houter.add (not_isGivenUp_braceLeft _)
  | stillOpen hn hpiece hleft => exact hbefore
  | unclosed => exact hafter.elim

/-- **A run** gives up no child of the root as long as there are tokens to read. -/
theorem noneGivenUp_of_reaches (h : ReflTransGen Step before after) (hafter : after.IsReading)
    (hbefore : NoneGivenUp before.stack) : NoneGivenUp after.stack := by
  induction h with
  | refl => exact hbefore
  | tail _ hstep ih => exact hstep.noneGivenUp hafter (ih (hstep.isReading hafter))

end Machine

/-! ## No level is open at the end -/

namespace Machine

variable {tokens : List Token}

theorem children_eq_of_reaches {root : List Node}
    (h : ReflTransGen Step (start tokens) (reading ⟨[], root⟩ [])) :
    children tokens = root.reverse :=
  (outcome_eq_of_reaches h).trans (List.append_nil root.reverse)

/-- Tokens that are read with no level open at the end compose with those behind them. -/
theorem ComesThrough.children_append (h : ComesThrough tokens) (behind : List Token) :
    children (tokens ++ behind) = children tokens ++ children behind := by
  obtain ⟨root, hreach⟩ := h
  have hwhole : children (tokens ++ behind) = ((Stack.empty.onto root).run behind).finish :=
    outcome_eq_of_reaches (reaches_followedBy hreach trivial behind)
  rw [hwhole, Stack.run_onto, Stack.finish_onto, children_eq_of_reaches hreach, children]

theorem ComesThrough.not_isGivenUp (h : ComesThrough tokens) :
    ∀ child ∈ children tokens, ¬child.IsGivenUp := by
  obtain ⟨root, hreach⟩ := h
  have hnone : NoneGivenUp ⟨[], root⟩ := noneGivenUp_of_reaches hreach trivial nofun
  intro child hchild
  rw [children_eq_of_reaches hreach, List.mem_reverse] at hchild
  exact hnone child hchild

end Machine

/-! ## A level that is open at the end -/

/-- Open levels are given up as one group, whatever the innermost of them holds. -/
theorem Stack.exists_unclosed_eq (inner : List Node) (level : Level) (outer : List Level) :
    ∃ group : Node, group.IsGivenUp ∧ unclosed inner (level :: outer) = [group] := by
  induction outer generalizing inner level with
  | nil => exact ⟨_, ⟨level.outstanding, _, level.two_le, rfl⟩, rfl⟩
  | cons next outer ih =>
    rw [unclosed]
    exact ih _ next

/-- The children of the root when levels are open: those before them, and one group. -/
theorem Stack.exists_finish_eq {stack : Stack} (hopen : stack.levels ≠ []) :
    ∃ group : Node, group.IsGivenUp ∧ stack.finish = stack.root.reverse ++ [group] := by
  obtain ⟨levels, root⟩ := stack
  cases levels with
  | nil => exact absurd rfl hopen
  | cons level outer =>
    obtain ⟨group, hgroup, heq⟩ := exists_unclosed_eq [] level outer
    exact ⟨group, hgroup, by rw [finish, heq]⟩

/-- A tree without a group that was given up leaves no level open. -/
theorem closed_of_not_isGivenUp {tokens : List Token}
    (h : ∀ child ∈ children tokens, ¬child.IsGivenUp) : Closed tokens := by
  refine Decidable.byContradiction fun hopen => ?_
  obtain ⟨group, hgroup, hfinish⟩ := Stack.exists_finish_eq hopen
  rw [children, hfinish] at h
  exact h group (List.mem_append_right _ (List.mem_singleton.2 rfl)) hgroup

/-- An open level takes in what is added. -/
theorem Stack.root_add_of_open {stack : Stack} (hopen : stack.levels ≠ []) (children : List Node) :
    (stack.add children).root = stack.root := by
  obtain ⟨levels, root⟩ := stack
  cases levels with
  | nil => exact absurd rfl hopen
  | cons level outer => rfl

/-- Tokens that compose with one text leave no level open: an open level would take the text in. -/
theorem closed_of_children_append {tokens : List Token} (hend : .endOfText ∉ tokens)
    (h : children (tokens ++ [.text ""]) = children tokens ++ children [.text ""]) :
    Closed tokens := by
  refine Decidable.byContradiction fun hopen => ?_
  have hopen : (Stack.empty.run tokens).levels ≠ [] := hopen
  have hopen' : ((Stack.empty.run tokens).add [.text ""]).levels ≠ [] := by
    rwa [← List.length_pos_iff, Stack.length_levels_add, List.length_pos_iff]
  have hrun : children (tokens ++ [.text ""]) =
      ((Stack.empty.run tokens).add [.text ""]).finish := by
    rw [children, Stack.run_append hend]
    rfl
  obtain ⟨group, -, hfinish⟩ := Stack.exists_finish_eq hopen
  obtain ⟨group', -, hfinish'⟩ := Stack.exists_finish_eq hopen'
  rw [hrun, hfinish', Stack.root_add_of_open hopen, children, hfinish] at h
  have hlength := congrArg List.length h
  simp [children, Stack.run_cons (.text ""), Stack.step, Stack.add, Stack.empty, Stack.finish,
    Stack.unclosed] at hlength

end Braces

open Braces in
/-- **Reading composes** exactly where no level is left open: then, and only then, the children for
    what follows, whatever it is, are put behind those for the tokens in front, and nothing else is
    changed.  The tree for the tokens in front shows whether it is so. -/
theorem Node.ofTokens_append_iff {front : List Token} (hend : .endOfText ∉ front) :
    (Machine.ComesThrough front ↔ ∀ behind,
      ofTokens (front ++ behind) = plain ((ofTokens front).parts ++ (ofTokens behind).parts)) ∧
    (Machine.ComesThrough front ↔ ∀ child ∈ (ofTokens front).parts, ¬child.IsGivenUp) := by
  have htree : ∀ tokens, ofTokens tokens = plain (children tokens) := ofTokens_eq_run
  simp only [htree, parts, plain.injEq]
  refine ⟨⟨fun hthrough behind => hthrough.children_append behind, fun hcompose => ?_⟩,
    fun hthrough => hthrough.not_isGivenUp, fun hnone => ?_⟩
  · exact Machine.comesThrough_of_closed hend (closed_of_children_append hend (hcompose _))
  · exact Machine.comesThrough_of_closed hend (closed_of_not_isGivenUp hnone)

/-- Five braces closed by two runs with a comment between, and a run that finds no level: nothing is
    open then, and what follows is read as if it stood alone, though it leaves a level open. -/
theorem Node.ofTokens_append_iff_nested :
    let front := [.openRun 5, .text "a", .closeRun 2, .skipped "<!-- -->", .closeRun 4, .openRun 1,
      .closeRun 3]
    let behind := [.closeRun 2, .openRun 2, .text "b"]
    .endOfText ∉ front ∧ Braces.Machine.ComesThrough front ∧
      ofTokens (front ++ behind) = plain ((ofTokens front).parts ++ (ofTokens behind).parts) ∧
      ¬Braces.Machine.ComesThrough (front ++ behind) := by
  intro front behind
  have hfront : .endOfText ∉ front := by decide
  have hwhole : .endOfText ∉ front ++ behind := by decide
  have hthrough : Braces.Machine.ComesThrough front :=
    Braces.Machine.comesThrough_of_closed hfront (by decide +kernel)
  have happend := (ofTokens_append_iff hfront).1.1 hthrough behind
  refine ⟨hfront, hthrough, happend, fun hopen => ?_⟩
  -- what stands behind ends in a group that was given up
  have hgiven : Node.plain [.text "\x7b\x7b", .text "b"] ∈ (ofTokens (front ++ behind)).parts := by
    decide +kernel
  exact (ofTokens_append_iff hwhole).2.1 hopen _ hgiven ⟨2, [.text "b"], Nat.le_refl 2, rfl⟩

end Transclusion
