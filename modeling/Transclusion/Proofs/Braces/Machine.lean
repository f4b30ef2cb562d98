/-
  Reading braces by rules.

  `Stack.run` computes what the tokens leave on the stack.  Here the same reading is a machine, given
  by its rules alone: one step reads a token, places a piece of a closing run, or, behind the last
  token, gives up a level that was never closed.  No step looks at the tokens ahead, and none puts
  one back.

  `Machine.outcome` is what a moment of the machine will come to, and no step changes it
  (`Step.outcome_eq`).  What a token does to the stack, the machine does in one step or more
  (`reaches_step`), so it always comes to a halt (`halts_reading` and its companions), with this
  outcome and with no other.

  Main statement, `Node.ofTokens_eq_iff_reaches`: the children of the tree of a list of tokens are
  those that the machine halts with.
-/
import Mathlib.Logic.Relation
import Transclusion.Proofs.Braces.Stack

namespace Transclusion

namespace Braces

/-- The reader at one moment. -/
inductive Machine where
  /-- Between two tokens. -/
  | reading (stack : Stack) (tokens : List Token)
  /-- In a closing run, of which `braces` are still to be placed. -/
  | closing (braces : Nat) (stack : Stack) (later : List Token)
  /-- Behind the last token that is read. -/
  | ending (stack : Stack)

/-- What a closing run makes of a level when `braces` of it are left: the braces it takes off on
    either side, and the construct of the children. -/
inductive Piece (braces : Nat) (level : Level) : Nat → Node → Prop where
  | call (h : braces = 2 ∨ level.outstanding = 2) :
      Piece braces level 2 (.invocationFrom level.done.reverse)
  | placeholder (h : ¬ (braces = 2 ∨ level.outstanding = 2)) :
      Piece braces level 3 (.placeholderFrom level.done.reverse)

namespace Machine

/-- Before the first token. -/
def start (tokens : List Token) : Machine := reading .empty tokens

/-- No level is open and nothing is left to read. -/
def halted (children : List Node) : Machine := ending ⟨[], children.reverse⟩

/-- One step. -/
inductive Step : Machine → Machine → Prop where
  /-- A run of no brace is nothing. -/
  | openNone {stack : Stack} {later : List Token} :
      Step (reading stack (.openRun 0 :: later)) (reading stack later)
  /-- One brace alone is text. -/
  | openOne {stack : Stack} {later : List Token} :
      Step (reading stack (.openRun 1 :: later))
        (reading (stack.add [.text (openBraces 1)]) later)
  /-- An opening run opens a level. -/
  | opened {stack : Stack} {later : List Token} {n : Nat} (hn : 2 ≤ n)
      (hfree : stack.levels.length < maxLevels) :
      Step (reading stack (.openRun n :: later))
        (reading ⟨⟨n, [], hn⟩ :: stack.levels, stack.root⟩ later)
  /-- An opening run is text when as many levels are open as may be. -/
  | full {stack : Stack} {later : List Token} {n : Nat} (hn : 2 ≤ n)
      (hfull : maxLevels ≤ stack.levels.length) :
      Step (reading stack (.openRun n :: later))
        (reading (stack.add [.text (openBraces n)]) later)
  /-- A closing run is placed piece by piece. -/
  | closed {stack : Stack} {later : List Token} {n : Nat} :
      Step (reading stack (.closeRun n :: later)) (closing n stack later)
  /-- What is skipped has no effect. -/
  | skipped {stack : Stack} {later : List Token} {source : String} :
      Step (reading stack (.skipped source :: later)) (reading stack later)
  /-- Texts and brackets are text. -/
  | literal {stack : Stack} {later : List Token} {token : Token}
      (h : token = .linkOpen ∨ token = .linkClose ∨ ∃ source, token = .text source) :
      Step (reading stack (token :: later)) (reading (stack.add [.text token.lexeme]) later)
  /-- What stands behind the first end of the text is not read. -/
  | ended {stack : Stack} {later : List Token} :
      Step (reading stack (.endOfText :: later)) (ending stack)
  /-- The tokens may stop without an end of the text. -/
  | exhausted {stack : Stack} : Step (reading stack []) (ending stack)
  /-- The closing run is placed. -/
  | placed {stack : Stack} {later : List Token} :
      Step (closing 0 stack later) (reading stack later)
  /-- One closing brace that is left is text of the level that is innermost now. -/
  | closeOne {stack : Stack} {later : List Token} :
      Step (closing 1 stack later) (reading (stack.add [.text (closeBraces 1)]) later)
  /-- A closing run that finds no open level is text. -/
  | stray {root : List Node} {later : List Token} {n : Nat} (hn : 2 ≤ n) :
      Step (closing n ⟨[], root⟩ later)
        (reading (Stack.add [.text (closeBraces n)] ⟨[], root⟩) later)
  /-- A level whose braces are used up is a group of the level around it. -/
  | usedUp {level : Level} {outer : List Level} {root : List Node} {later : List Token}
      {n taken : Nat} {construct : Node} (hn : 2 ≤ n) (hpiece : Piece n level taken construct)
      (hleft : level.outstanding - taken = 0) :
      Step (closing n ⟨level :: outer, root⟩ later)
        (closing (n - taken) (Stack.add [.plain [construct]] ⟨outer, root⟩) later)
  /-- A level with one brace left is a group as well, with the brace as text in front. -/
  | braceLeft {level : Level} {outer : List Level} {root : List Node} {later : List Token}
      {n taken : Nat} {construct : Node} (hn : 2 ≤ n) (hpiece : Piece n level taken construct)
      (hleft : level.outstanding - taken = 1) :
      Step (closing n ⟨level :: outer, root⟩ later)
        (closing (n - taken) (Stack.add [.plain [.text (openBraces 1), construct]] ⟨outer, root⟩)
          later)
  /-- A level with more braces left stays open, and holds the construct only. -/
  | stillOpen {level : Level} {outer : List Level} {root : List Node} {later : List Token}
      {n taken : Nat} {construct : Node} (hn : 2 ≤ n) (hpiece : Piece n level taken construct)
      (hleft : 2 ≤ level.outstanding - taken) :
      Step (closing n ⟨level :: outer, root⟩ later)
        (closing (n - taken) ⟨⟨level.outstanding - taken, [construct], hleft⟩ :: outer, root⟩ later)
  /-- A level that was never closed is a group with its braces as text in front. -/
  | unclosed {level : Level} {outer : List Level} {root : List Node} :
      Step (ending ⟨level :: outer, root⟩)
        (ending (Stack.add [.plain (.text (openBraces level.outstanding) :: level.done.reverse)]
          ⟨outer, root⟩))

end Machine

/-! ## What the machine comes to -/

/-- There is a piece to every run and level, and it is the one that `Stack.take` takes. -/
theorem piece_iff {braces taken : Nat} {level : Level} {construct : Node} :
    Piece braces level taken construct ↔
      taken = bracesTaken braces level.outstanding ∧
        construct = constructOf taken level.done.reverse := by
  constructor
  · intro hpiece
    cases hpiece with
    | call h =>
      have htaken : bracesTaken braces level.outstanding = 2 := if_pos (by simpa using h)
      exact ⟨htaken.symm, rfl⟩
    | placeholder h =>
      have htaken : bracesTaken braces level.outstanding = 3 := if_neg (by simpa using h)
      exact ⟨htaken.symm, rfl⟩
  · rintro ⟨rfl, rfl⟩
    by_cases h : braces = 2 ∨ level.outstanding = 2
    · have htaken : bracesTaken braces level.outstanding = 2 := if_pos (by simpa using h)
      rw [htaken]
      exact .call h
    · have htaken : bracesTaken braces level.outstanding = 3 := if_neg (by simpa using h)
      rw [htaken]
      exact .placeholder h

namespace Machine

/-- The children of the root that the machine comes to. -/
def outcome : Machine → List Node
  | reading stack tokens => (stack.run tokens).finish
  | closing braces stack later => ((stack.step (.closeRun braces)).run later).finish
  | ending stack => stack.finish

theorem outcome_start (tokens : List Token) :
    (start tokens).outcome = (Stack.empty.run tokens).finish := rfl

theorem outcome_halted (children : List Node) : (halted children).outcome = children := by
  simp [outcome, halted, Stack.finish, Stack.unclosed]

/-- Reading a token is the step of the stack. -/
theorem outcome_reading_cons (token : Token) (h : token ≠ .endOfText) {stack next : Stack}
    (hstep : stack.step token = next) (later : List Token) :
    (reading stack (token :: later)).outcome = (reading next later).outcome := by
  rw [← hstep]
  exact congrArg Stack.finish (Stack.run_cons token h stack later)

/-- **One step** leaves what the machine comes to as it is. -/
theorem Step.outcome_eq {before after : Machine} (h : Step before after) :
    before.outcome = after.outcome := by
  cases h with
  | openNone => exact outcome_reading_cons (.openRun 0) nofun rfl _
  | openOne => exact outcome_reading_cons (.openRun 1) nofun rfl _
  | @opened stack later n hn hfree =>
    have hstep := Stack.step_openRun hn stack
    rw [if_pos hfree] at hstep
    exact outcome_reading_cons (.openRun n) nofun hstep later
  | @full stack later n hn hfull =>
    have hstep := Stack.step_openRun hn stack
    rw [if_neg (Nat.not_lt.2 hfull)] at hstep
    exact outcome_reading_cons (.openRun n) nofun hstep later
  | @closed stack later n => exact outcome_reading_cons (.closeRun n) nofun rfl later
  | @skipped stack later source => exact outcome_reading_cons (.skipped source) nofun rfl later
  | literal h =>
    rcases h with rfl | rfl | ⟨source, rfl⟩
    · exact outcome_reading_cons .linkOpen nofun rfl _
    · exact outcome_reading_cons .linkClose nofun rfl _
    · exact outcome_reading_cons (.text source) nofun rfl _
  | ended => rfl
  | exhausted => rfl
  | placed => rfl
  | closeOne => rfl
  | stray hn =>
    simp only [outcome]
    rw [Stack.step_closeRun hn, Stack.close]
  | usedUp hn hpiece hleft =>
    obtain ⟨rfl, rfl⟩ := piece_iff.1 hpiece
    simp only [outcome]
    rw [Stack.step_closeRun hn, Stack.close_cons, Stack.take_zero hleft]
  | braceLeft hn hpiece hleft =>
    obtain ⟨rfl, rfl⟩ := piece_iff.1 hpiece
    simp only [outcome]
    rw [Stack.step_closeRun hn, Stack.close_cons, Stack.take_one hleft]
  | stillOpen hn hpiece hleft =>
    obtain ⟨rfl, rfl⟩ := piece_iff.1 hpiece
    simp only [outcome]
    rw [Stack.step_closeRun hn, Stack.close_cons, Stack.take_two hleft]
  | unclosed => exact Stack.finish_cons ..

/-- **A run** leaves what the machine comes to as it is. -/
theorem outcome_eq_of_reaches {before after : Machine}
    (h : Relation.ReflTransGen Step before after) : before.outcome = after.outcome := by
  induction h with
  | refl => rfl
  | tail _ hstep ih => exact ih.trans hstep.outcome_eq

/-! ## The machine does what the stack does -/

/-- A closing run is placed, and the machine goes on with the stack that it leaves: each step takes
    braces off the run. -/
theorem reaches_placed (braces : Nat) (stack : Stack) (later : List Token) :
    Relation.ReflTransGen Step (closing braces stack later)
      (reading (stack.step (.closeRun braces)) later) := by
  induction braces using Nat.strongRecOn generalizing stack with
  | _ braces ih =>
    match braces with
    | 0 => exact .single .placed
    | 1 => exact .single .closeOne
    | rest + 2 =>
      have hn : 2 ≤ rest + 2 := Nat.le_add_left 2 rest
      obtain ⟨levels, root⟩ := stack
      rw [Stack.step_closeRun hn]
      cases levels with
      | nil =>
        rw [Stack.close]
        exact .single (.stray hn)
      | cons level outer =>
        have hpiece : Piece (rest + 2) level _ _ := piece_iff.2 ⟨rfl, rfl⟩
        have hpos := bracesTaken_pos (rest + 2) level.outstanding
        have hless : rest + 2 - bracesTaken (rest + 2) level.outstanding < rest + 2 := by omega
        have hcases : level.outstanding - bracesTaken (rest + 2) level.outstanding = 0 ∨
            level.outstanding - bracesTaken (rest + 2) level.outstanding = 1 ∨
            2 ≤ level.outstanding - bracesTaken (rest + 2) level.outstanding := by omega
        rw [Stack.close_cons]
        rcases hcases with hleft | hleft | hleft
        · rw [Stack.take_zero hleft]
          exact (ih _ hless _).head (.usedUp hn hpiece hleft)
        · rw [Stack.take_one hleft]
          exact (ih _ hless _).head (.braceLeft hn hpiece hleft)
        · rw [Stack.take_two hleft]
          exact (ih _ hless _).head (.stillOpen hn hpiece hleft)

/-- A token is read, and the machine goes on with the stack that it leaves. -/
theorem reaches_step {token : Token} (hend : token ≠ .endOfText) (stack : Stack)
    (later : List Token) :
    Relation.ReflTransGen Step (reading stack (token :: later))
      (reading (stack.step token) later) := by
  match token, hend with
  | .openRun 0, _ => exact .single .openNone
  | .openRun 1, _ => exact .single .openOne
  | .openRun (n + 2), _ =>
    have hn : 2 ≤ n + 2 := Nat.le_add_left 2 n
    rw [Stack.step_openRun hn]
    by_cases hfree : stack.levels.length < maxLevels
    · rw [if_pos hfree]
      exact .single (.opened hn hfree)
    · rw [if_neg hfree]
      exact .single (.full hn (Nat.not_lt.1 hfree))
  | .closeRun n, _ => exact (reaches_placed n stack later).head .closed
  | .skipped source, _ => exact .single .skipped
  | .linkOpen, _ => exact .single (.literal (.inl rfl))
  | .linkClose, _ => exact .single (.literal (.inr (.inl rfl)))
  | .text source, _ => exact .single (.literal (.inr (.inr ⟨source, rfl⟩)))
  | .endOfText, hend => exact absurd rfl hend

/-! ## The machine comes to a halt -/

/-- The machine can come to a halt from here. -/
def Halts (machine : Machine) : Prop :=
  ∃ children, Relation.ReflTransGen Step machine (halted children)

theorem Step.halts {before after : Machine} (h : Step before after) (hafter : after.Halts) :
    before.Halts := by
  obtain ⟨children, hreach⟩ := hafter
  exact ⟨children, hreach.head h⟩

/-- Behind the last token each step gives up a level. -/
theorem halts_ending (stack : Stack) : (ending stack).Halts := by
  induction hopen : stack.levels.length generalizing stack with
  | zero =>
    obtain ⟨levels, root⟩ := stack
    obtain rfl : levels = [] := List.eq_nil_of_length_eq_zero hopen
    refine ⟨root.reverse, ?_⟩
    rw [halted, List.reverse_reverse]
  | succ count ih =>
    obtain ⟨levels, root⟩ := stack
    cases levels with
    | nil => simp at hopen
    | cons level outer =>
      apply Step.unclosed.halts
      apply ih
      rw [Stack.length_levels_add]
      exact Nat.succ.inj hopen

/-- Each step takes a token from those to read, so they are read at last. -/
theorem halts_reading (tokens : List Token) (stack : Stack) : (reading stack tokens).Halts := by
  induction tokens generalizing stack with
  | nil => exact Step.exhausted.halts (halts_ending stack)
  | cons token later ih =>
    by_cases hend : token = .endOfText
    · subst hend
      exact Step.ended.halts (halts_ending stack)
    · obtain ⟨children, hreach⟩ := ih (stack.step token)
      exact ⟨children, (reaches_step hend stack later).trans hreach⟩

theorem halts_closing (braces : Nat) (stack : Stack) (later : List Token) :
    (closing braces stack later).Halts := by
  obtain ⟨children, hreach⟩ := halts_reading later (stack.step (.closeRun braces))
  exact ⟨children, (reaches_placed braces stack later).trans hreach⟩

/-- From every moment the machine comes to a halt, with its outcome and with no other. -/
theorem reaches_halted_iff (machine : Machine) (children : List Node) :
    Relation.ReflTransGen Step machine (halted children) ↔ machine.outcome = children := by
  have hhalts : machine.Halts := by
    cases machine with
    | reading stack tokens => exact halts_reading tokens stack
    | closing braces stack later => exact halts_closing braces stack later
    | ending stack => exact halts_ending stack
  obtain ⟨reached, hreach⟩ := hhalts
  have houtcome : machine.outcome = reached :=
    (outcome_eq_of_reaches hreach).trans (outcome_halted reached)
  constructor
  · intro h
    exact (outcome_eq_of_reaches h).trans (outcome_halted children)
  · intro h
    rwa [← h, houtcome]

end Machine
end Braces

/-- **The tree of a list of tokens, read by rules**: its children are those that the machine halts
    with when it starts from the tokens. -/
theorem Node.ofTokens_eq_iff_reaches (tokens : List Token) (children : List Node) :
    ofTokens tokens = plain children ↔
      Relation.ReflTransGen Braces.Machine.Step (.start tokens) (.halted children) := by
  rw [Braces.Machine.reaches_halted_iff, Braces.Machine.outcome_start, ofTokens_eq_run,
    plain.injEq]

end Transclusion
