/-
  Reading composes at the root.

  What stands in the root has no influence on what is read behind it: every step on a stack is the
  same step on a stack with more children below (`Stack.step_onto`).  So where tokens leave no level
  open, those behind them are read as if they stood alone.

  Main statement, `Braces.children_append`.
-/
import Transclusion.Proofs.Braces.Stack

namespace Transclusion

namespace Braces

namespace Stack

/-- The stack with children of the root, in reverse, in front of its own. -/
def onto (stack : Stack) (earlier : List Node) : Stack := ⟨stack.levels, stack.root ++ earlier⟩

@[simp] theorem levels_onto (stack : Stack) (earlier : List Node) :
    (stack.onto earlier).levels = stack.levels := rfl

theorem add_onto (children : List Node) (stack : Stack) (earlier : List Node) :
    (stack.onto earlier).add children = (stack.add children).onto earlier := by
  obtain ⟨levels, root⟩ := stack
  cases levels with
  | nil => simp [onto, add]
  | cons level outer => rfl

theorem take_onto (level : Level) (outer : Stack) (taken : Nat) (earlier : List Node) :
    take level (outer.onto earlier) taken = (take level outer taken).onto earlier := by
  have hcases : level.outstanding - taken = 0 ∨ level.outstanding - taken = 1 ∨
      2 ≤ level.outstanding - taken := by omega
  rcases hcases with h | h | h
  · rw [take_zero h, take_zero h, add_onto]
  · rw [take_one h, take_one h, add_onto]
  · rw [take_two h, take_two h]
    rfl

theorem close_onto (n : Nat) (stack : Stack) (earlier : List Node) :
    (stack.onto earlier).close n = (stack.close n).onto earlier := by
  induction n using Nat.strongRecOn generalizing stack with
  | _ n ih =>
    obtain ⟨levels, root⟩ := stack
    cases levels with
    | nil =>
      rw [onto, close, close]
      exact add_onto _ ⟨[], root⟩ earlier
    | cons level outer =>
      have hpos := bracesTaken_pos n level.outstanding
      have htake := take_onto level ⟨outer, root⟩ (bracesTaken n level.outstanding) earlier
      rw [onto, close_cons, close_cons]
      rw [onto] at htake
      rw [htake]
      -- what is left of the closing run is nothing, a text or a shorter run
      generalize hrest : n - bracesTaken n level.outstanding = rest
      have hcases : rest = 0 ∨ rest = 1 ∨ 2 ≤ rest := by omega
      rcases hcases with rfl | rfl | htwo
      · rfl
      · exact add_onto _ _ earlier
      · rw [step_closeRun htwo, step_closeRun htwo]
        exact ih rest (by omega) _

/-- **One step** is the same whatever stands in the root before. -/
theorem step_onto (token : Token) (stack : Stack) (earlier : List Node) :
    (stack.onto earlier).step token = (stack.step token).onto earlier := by
  match token with
  | .openRun 0 | .closeRun 0 | .skipped _ => rfl
  | .openRun 1 | .closeRun 1 | .linkOpen | .linkClose | .text _ | .endOfText =>
    exact add_onto _ stack earlier
  | .openRun (n + 2) =>
    have h2 : 2 ≤ n + 2 := Nat.le_add_left 2 n
    rw [step_openRun h2, step_openRun h2, levels_onto]
    by_cases hfree : stack.levels.length < maxLevels
    · rw [if_pos hfree, if_pos hfree]
      rfl
    · rw [if_neg hfree, if_neg hfree]
      exact add_onto _ stack earlier
  | .closeRun (n + 2) => exact close_onto (n + 2) stack earlier

/-- **A run** is the same whatever stands in the root before. -/
theorem run_onto (tokens : List Token) (stack : Stack) (earlier : List Node) :
    (stack.onto earlier).run tokens = (stack.run tokens).onto earlier := by
  induction tokens generalizing stack with
  | nil => rfl
  | cons token later ih =>
    by_cases h : token = .endOfText
    · subst h
      rfl
    · rw [run_cons token h, run_cons token h, step_onto, ih]

theorem finish_onto (stack : Stack) (earlier : List Node) :
    (stack.onto earlier).finish = earlier.reverse ++ stack.finish := by
  simp [finish, onto]

theorem run_append {tokens : List Token} (h : .endOfText ∉ tokens) (stack : Stack)
    (later : List Token) : stack.run (tokens ++ later) = (stack.run tokens).run later := by
  induction tokens generalizing stack with
  | nil => rfl
  | cons token tokens ih =>
    rw [List.mem_cons, not_or] at h
    rw [List.cons_append, run_cons token (Ne.symm h.1), run_cons token (Ne.symm h.1), ih h.2]

end Stack

/-- The children of the tree of a list of tokens. -/
def children (tokens : List Token) : List Node := (Stack.empty.run tokens).finish

/-- No level is open when the tokens are read. -/
def Closed (tokens : List Token) : Prop := (Stack.empty.run tokens).levels = []

instance (tokens : List Token) : Decidable (Closed tokens) :=
  decidable_of_iff ((Stack.empty.run tokens).levels.isEmpty = true) List.isEmpty_iff

/-- **Reading composes at the root**: where tokens leave no level open, the children for those and
    what follows are the children for those, and then the children for what follows. -/
theorem children_append {tokens : List Token} (hend : .endOfText ∉ tokens) (h : Closed tokens)
    (later : List Token) : children (tokens ++ later) = children tokens ++ children later := by
  obtain ⟨root, hroot⟩ : ∃ root, Stack.empty.run tokens = Stack.empty.onto root :=
    ⟨(Stack.empty.run tokens).root, congrArg (Stack.mk · _) h⟩
  have hfinish : (Stack.empty.onto root).finish = root.reverse := by
    rw [Stack.finish_onto]
    exact List.append_nil _
  rw [children, children, Stack.run_append hend, hroot, Stack.run_onto, Stack.finish_onto, hfinish]
  rfl

/-- A token that is text is a child of the root. -/
theorem children_cons {token : Token} (hopen : ∀ n, token ≠ .openRun n)
    (hclose : ∀ n, token ≠ .closeRun n) (hskip : ∀ source, token ≠ .skipped source)
    (hend : token ≠ .endOfText) (later : List Token) :
    children (token :: later) = .text token.lexeme :: children later := by
  have hstep : Stack.empty.run [token] = Stack.empty.add [.text token.lexeme] := by
    rw [Stack.run_cons token hend, Stack.step_text hopen hclose hskip]
    rfl
  have hclosed : Closed [token] := by
    rw [Closed, hstep]
    rfl
  have happend := children_append (fun hmem => hend (List.mem_singleton.1 hmem).symm) hclosed later
  rw [List.singleton_append] at happend
  rw [happend, children, hstep]
  rfl

end Braces

end Transclusion
