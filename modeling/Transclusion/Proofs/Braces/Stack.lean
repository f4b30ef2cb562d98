/-
  Reading braces in one pass, over a stack of open levels.

  `Braces.level` calls itself for the levels inside a level and hands the rest of a closing run back
  to the level around it.  Here the same reading is a fold over the tokens: `Stack.step` says what
  one token does to the open levels, and `Stack.close` takes a whole closing run.

  `Level` carries the one fact that the braces obey throughout: an open level has at least two
  braces left, so the two or three that a closing run takes are there to be taken.

  Main statement, `Node.ofTokens_eq_run`: the tree of a list of tokens is read off the stack that
  the tokens before the first end of the text leave behind.
-/
import Transclusion.Node.Braces

namespace Transclusion

namespace Braces

/-! ## The stack -/

/-- An open level: how many braces of its opening run are not closed yet, and its children so far,
    in reverse. -/
structure Level where
  outstanding : Nat
  done : List Node
  two_le : 2 ≤ outstanding

/-- The open levels, the innermost first, above the children of the root so far, in reverse. -/
structure Stack where
  levels : List Level
  root : List Node

namespace Stack

/-- No level open, nothing read. -/
def empty : Stack := ⟨[], []⟩

/-- Adds children to the innermost level, or to the root when none is open. -/
def add (children : List Node) : Stack → Stack
  | ⟨[], root⟩ => ⟨[], children.reverse ++ root⟩
  | ⟨⟨outstanding, done, two_le⟩ :: outer, root⟩ =>
    ⟨⟨outstanding, children.reverse ++ done, two_le⟩ :: outer, root⟩

/-- Takes braces off the innermost level, which stands in `outer`: what it holds becomes one
    construct.  A level with fewer than two braces left goes to the level around it as a group. -/
def take (level : Level) (outer : Stack) (taken : Nat) : Stack :=
  let closed := constructOf taken level.done.reverse
  match level.outstanding - taken with
  | 0 => outer.add [.plain [closed]]
  | 1 => outer.add [.plain [.text (openBraces 1), closed]]
  | remaining + 2 => ⟨⟨remaining + 2, [closed], by omega⟩ :: outer.levels, outer.root⟩

/-- Closes with a run of `n` braces: from the innermost level as long as two are left, a last one
    being text; a run that finds no open level is text. -/
def close (n : Nat) : Stack → Stack
  | ⟨[], root⟩ => add [.text (closeBraces n)] ⟨[], root⟩
  | ⟨level :: outer, root⟩ =>
    let taken := bracesTaken n level.outstanding
    let after := take level ⟨outer, root⟩ taken
    match _h : n - taken with
    | 0 => after
    | 1 => after.add [.text (closeBraces 1)]
    | rest + 2 => after.close (rest + 2)
termination_by n
decreasing_by
  have := bracesTaken_pos n level.outstanding
  omega

/-- What one token does: a run of no brace is nothing, one brace alone is text, and so is an opening
    run at `maxLevels` open levels. -/
def step (stack : Stack) : Token → Stack
  | .openRun 0 => stack
  | .openRun 1 => stack.add [.text (openBraces 1)]
  | .openRun (n + 2) =>
    if stack.levels.length < maxLevels then
      ⟨⟨n + 2, [], by omega⟩ :: stack.levels, stack.root⟩
    else stack.add [.text (openBraces (n + 2))]
  | .closeRun 0 => stack
  | .closeRun 1 => stack.add [.text (closeBraces 1)]
  | .closeRun (n + 2) => stack.close (n + 2)
  | .skipped _ => stack
  | token => stack.add [.text token.lexeme]

end Stack

/-- The tokens that are read: those before the first end of the text. -/
def beforeEnd (tokens : List Token) : List Token :=
  tokens.takeWhile fun token => token != .endOfText

namespace Stack

/-- Reads the tokens before the first end of the text. -/
def run (stack : Stack) (tokens : List Token) : Stack := (beforeEnd tokens).foldl step stack

/-- The groups of levels that are never closed, the innermost first: each has its braces as text in
    front and holds the one before it as its last child. -/
def unclosed (inner : List Node) : List Level → List Node
  | [] => inner
  | level :: outer =>
    unclosed [.plain (.text (openBraces level.outstanding) :: (level.done.reverse ++ inner))] outer

/-- The children of the root when nothing is left to read. -/
def finish (stack : Stack) : List Node := stack.root.reverse ++ unclosed [] stack.levels

/-! ## Small lemmas of the stack -/

theorem bracesTaken_eq (n outstanding : Nat) :
    bracesTaken n outstanding = 2 ∨ bracesTaken n outstanding = 3 := by
  unfold bracesTaken
  split
  · exact .inl rfl
  · exact .inr rfl

/-- The braces that a closing run takes are there, in the run and in the level. -/
theorem bracesTaken_le {n outstanding : Nat} (hn : 2 ≤ n) (ho : 2 ≤ outstanding) :
    bracesTaken n outstanding ≤ n ∧ bracesTaken n outstanding ≤ outstanding := by
  unfold bracesTaken
  split
  · exact ⟨hn, ho⟩
  · next hne =>
    simp only [Bool.or_eq_true, decide_eq_true_eq, not_or] at hne
    omega

@[simp] theorem add_nil (stack : Stack) : stack.add [] = stack := by
  obtain ⟨levels, root⟩ := stack
  cases levels <;> rfl

@[simp] theorem add_add (as bs : List Node) (stack : Stack) :
    (stack.add as).add bs = stack.add (as ++ bs) := by
  obtain ⟨levels, root⟩ := stack
  cases levels <;> simp [add]

@[simp] theorem length_levels_add (children : List Node) (stack : Stack) :
    (stack.add children).levels.length = stack.levels.length := by
  obtain ⟨levels, root⟩ := stack
  cases levels <;> rfl

/-- A level that stays open adds its group to the level around it. -/
theorem finish_cons (level : Level) (outer : List Level) (root : List Node) :
    finish ⟨level :: outer, root⟩ =
      finish (add [.plain (.text (openBraces level.outstanding) :: level.done.reverse)]
        ⟨outer, root⟩) := by
  cases outer <;> simp [finish, unclosed, add]

@[simp] theorem run_nil (stack : Stack) : stack.run [] = stack := rfl

@[simp] theorem run_endOfText (stack : Stack) (later : List Token) :
    stack.run (.endOfText :: later) = stack := rfl

theorem run_cons (token : Token) (h : token ≠ .endOfText) (stack : Stack) (later : List Token) :
    stack.run (token :: later) = (stack.step token).run later := by
  have hkeep : (token != .endOfText) = true := by simpa using h
  simp [run, beforeEnd, hkeep]

theorem step_openRun {n : Nat} (h : 2 ≤ n) (stack : Stack) :
    stack.step (.openRun n) =
      if stack.levels.length < maxLevels then ⟨⟨n, [], h⟩ :: stack.levels, stack.root⟩
      else stack.add [.text (openBraces n)] := by
  match n, h with
  | _ + 2, _ => rfl

theorem step_closeRun {n : Nat} (h : 2 ≤ n) (stack : Stack) :
    stack.step (.closeRun n) = stack.close n := by
  match n, h with
  | _ + 2, _ => rfl

theorem step_text {token : Token} (hopen : ∀ n, token ≠ .openRun n)
    (hclose : ∀ n, token ≠ .closeRun n) (hskip : ∀ source, token ≠ .skipped source)
    (stack : Stack) : stack.step token = stack.add [.text token.lexeme] := by
  cases token with
  | openRun n => exact absurd rfl (hopen n)
  | closeRun n => exact absurd rfl (hclose n)
  | skipped source => exact absurd rfl (hskip source)
  | _ => rfl

section take

variable {level : Level} {taken : Nat}

/-- A level whose braces are used up is a group of what it holds. -/
theorem take_zero (h : level.outstanding - taken = 0) (outer : Stack) :
    take level outer taken = outer.add [.plain [constructOf taken level.done.reverse]] := by
  rw [take]
  split
  · rfl
  · omega
  · omega

/-- A level with one brace left keeps it as text in front. -/
theorem take_one (h : level.outstanding - taken = 1) (outer : Stack) :
    take level outer taken =
      outer.add [.plain [.text (openBraces 1), constructOf taken level.done.reverse]] := by
  rw [take]
  split
  · omega
  · rfl
  · omega

/-- A level with two braces left stays open. -/
theorem take_two (h : 2 ≤ level.outstanding - taken) (outer : Stack) :
    take level outer taken =
      ⟨⟨level.outstanding - taken, [constructOf taken level.done.reverse], h⟩ :: outer.levels,
        outer.root⟩ := by
  rw [take]
  split
  · omega
  · omega
  · next remaining hrem => simp only [hrem]

end take

/-- A closing run takes from the innermost level and goes on with what is left of it. -/
theorem close_cons (n : Nat) (level : Level) (outer : List Level) (root : List Node) :
    close n ⟨level :: outer, root⟩ =
      (take level ⟨outer, root⟩ (bracesTaken n level.outstanding)).step
        (.closeRun (n - bracesTaken n level.outstanding)) := by
  rw [close]
  split
  · next h => rw [h]; rfl
  · next h => rw [h]; rfl
  · next h => rw [h]; rfl

/-- What is left of a closing run is read like a run of its own. -/
theorem run_leftover (stack : Stack) (rest : Nat) (later : List Token) :
    stack.run (leftover rest later) = (stack.step (.closeRun rest)).run later := by
  match rest with
  | 0 => rfl
  | 1 => exact run_cons (.text (closeBraces 1)) nofun stack later
  | n + 2 => exact run_cons (.closeRun (n + 2)) nofun stack later

/-! ## Reading a level is a piece of the run -/

/-- Runs of at least two braces only, as `settle` leaves them. -/
def Settled (tokens : List Token) : Prop :=
  ∀ n, (.openRun n ∈ tokens ∨ .closeRun n ∈ tokens) → 2 ≤ n

theorem Settled.tail {token : Token} {later : List Token} (h : Settled (token :: later)) :
    Settled later := by
  intro n hn
  exact h n (hn.imp (List.mem_cons_of_mem _) (List.mem_cons_of_mem _))

theorem Settled.leftover {later : List Token} (h : Settled later) (rest : Nat) :
    Settled (leftover rest later) := by
  intro n hn
  match rest with
  | 0 => exact h n hn
  | 1 =>
    apply h n
    simpa [Braces.leftover] using hn
  | rest + 2 =>
    simp only [Braces.leftover, List.mem_cons, reduceCtorEq, false_or, Token.closeRun.injEq] at hn
    rcases hn with hn | rfl | hn
    · exact h n (.inl hn)
    · omega
    · exact h n (.inr hn)

/-- **Reading a level is a piece of the run**: where `level` returns a node and the tokens behind
    it, the run has put that node into the level around it and goes on with these tokens.

    At the end of the text a level returns what `finish` makes of it, so the two sides are compared
    when all is read. -/
theorem finish_run_level (nesting outstanding : Nat) (done : List Node) (tokens : List Token)
    (h2 : 2 ≤ outstanding) (hs : Settled tokens) (outer : List Level) (root : List Node)
    (hn : nesting = outer.length + 1) :
    Settled (level nesting outstanding done tokens).1.2 ∧
      finish (run ⟨⟨outstanding, done, h2⟩ :: outer, root⟩ tokens) =
        finish (run (add [(level nesting outstanding done tokens).1.1] ⟨outer, root⟩)
          (level nesting outstanding done tokens).1.2) := by
  fun_induction level nesting outstanding done tokens generalizing outer root with
  | case1 nesting outstanding done => exact ⟨hs, finish_cons _ outer root⟩
  | case2 nesting outstanding done later => exact ⟨hs, finish_cons _ outer root⟩
  | case3 nesting outstanding done n later _ hfull read ih =>
    -- at the limit the run is one more text of the level
    have hopen : 2 ≤ n := hs n (.inl List.mem_cons_self)
    rw [run_cons (.openRun n) nofun, step_openRun hopen,
      if_neg (by simp only [List.length_cons]; omega)]
    exact ih h2 hs.tail outer root hn
  | case4 nesting outstanding done n later _ hfree inner _ read ihInner ihRead _ =>
    have hopen : 2 ≤ n := hs n (.inl List.mem_cons_self)
    obtain ⟨hsInner, hinner⟩ := ihInner hopen hs.tail (⟨outstanding, done, h2⟩ :: outer) root
      (by simp only [List.length_cons]; omega)
    obtain ⟨hsRead, hread⟩ := ihRead h2 hsInner outer root hn
    refine ⟨hsRead, ?_⟩
    rw [run_cons (.openRun n) nofun, step_openRun hopen,
      if_pos (by simp only [List.length_cons]; omega), hinner]
    exact hread
  | case5 nesting outstanding done n later taken closed _ hzero =>
    have hclose : 2 ≤ n := hs n (.inr List.mem_cons_self)
    refine ⟨hs.tail.leftover _, ?_⟩
    rw [run_cons (.closeRun n) nofun, step_closeRun hclose, close_cons, ← run_leftover,
      take_zero hzero]
  | case6 nesting outstanding done n later taken closed _ hone =>
    have hclose : 2 ≤ n := hs n (.inr List.mem_cons_self)
    refine ⟨hs.tail.leftover _, ?_⟩
    rw [run_cons (.closeRun n) nofun, step_closeRun hclose, close_cons, ← run_leftover,
      take_one hone]
  | case7 nesting outstanding done n later taken closed _ hzero hone read ih _ =>
    have hclose : 2 ≤ n := hs n (.inr List.mem_cons_self)
    have hopen : 2 ≤ outstanding - taken := by
      have : outstanding - taken ≠ 0 := hzero
      have : outstanding - taken ≠ 1 := hone
      omega
    rw [run_cons (.closeRun n) nofun, step_closeRun hclose, close_cons, ← run_leftover,
      take_two hopen]
    exact ih hopen (hs.tail.leftover _) outer root hn
  | case8 nesting outstanding done source later _ read ih =>
    rw [run_cons (.skipped source) nofun]
    exact ih h2 hs.tail outer root hn
  | case9 nesting outstanding done token later hend hopen hclose hskip _ read ih =>
    rw [run_cons token hend, step_text hopen hclose hskip]
    exact ih h2 hs.tail outer root hn

/-- Reading what stands outside all levels is a run that starts with no level open. -/
theorem topLevel_eq_finish_run (done : List Node) (tokens : List Token) (hs : Settled tokens) :
    (topLevel done tokens).1 = finish (run ⟨[], done⟩ tokens) := by
  fun_induction topLevel done tokens with
  | case1 done => simp [finish, unclosed]
  | case2 done later => simp [finish, unclosed]
  | case3 done n later inner _ ih =>
    have hopen : 2 ≤ n := hs n (.inl List.mem_cons_self)
    obtain ⟨hsInner, hinner⟩ := finish_run_level 1 n [] later hopen hs.tail [] done rfl
    have hfree : (⟨[], done⟩ : Stack).levels.length < maxLevels := Nat.zero_lt_succ 255
    rw [run_cons (.openRun n) nofun, step_openRun hopen, if_pos hfree, hinner]
    exact ih hsInner
  | case4 done source later _ ih =>
    rw [run_cons (.skipped source) nofun]
    exact ih hs.tail
  | case5 done token later hend hopen hskip _ ih =>
    rw [run_cons token hend, ih hs.tail]
    cases token with
    | closeRun n =>
      -- a closing run outside all levels is its own lexeme
      rw [step_closeRun (hs n (.inr List.mem_cons_self)), close]
      rfl
    | openRun n => exact absurd rfl (hopen n)
    | skipped source => exact absurd rfl (hskip source)
    | _ => rfl

/-! ## Settling the tokens -/

/-- The settled tokens, with or without the end that `settle` adds. -/
theorem settle_eq (tokens : List Token) :
    settle tokens = tokens.filterMap Token.settled ∨
      settle tokens = tokens.filterMap Token.settled ++ [.endOfText] := by
  simp only [settle]
  split
  · exact .inl rfl
  · exact .inr rfl

theorem settled_settle (tokens : List Token) : Settled (settle tokens) := by
  have hkept : Settled (tokens.filterMap Token.settled) := by
    intro n hn
    simp only [List.mem_filterMap] at hn
    rcases hn with ⟨token, -, h⟩ | ⟨token, -, h⟩
    · unfold Token.settled at h
      split at h <;> grind
    · unfold Token.settled at h
      split at h <;> grind
  intro n hn
  rcases settle_eq tokens with h | h
  · exact hkept n (h ▸ hn)
  · rw [h] at hn
    exact hkept n (by simpa using hn)

/-- An end behind the tokens changes nothing. -/
theorem run_append_endOfText (stack : Stack) (tokens : List Token) :
    stack.run (tokens ++ [.endOfText]) = stack.run tokens := by
  induction tokens generalizing stack with
  | nil => rfl
  | cons token later ih =>
    by_cases h : token = .endOfText
    · subst h; rfl
    · rw [List.cons_append, run_cons token h, run_cons token h, ih]

/-- What settling drops or turns into text, a step drops or turns into text as well. -/
theorem run_filterMap_settled (stack : Stack) (tokens : List Token) :
    stack.run (tokens.filterMap Token.settled) = stack.run tokens := by
  induction tokens generalizing stack with
  | nil => rfl
  | cons token later ih =>
    rw [List.filterMap_cons]
    match token with
    | .openRun 0 => exact (ih stack).trans (run_cons (.openRun 0) nofun stack later).symm
    | .closeRun 0 => exact (ih stack).trans (run_cons (.closeRun 0) nofun stack later).symm
    | .endOfText => rfl
    | .openRun 1 | .openRun (n + 2) | .closeRun 1 | .closeRun (n + 2) | .linkOpen | .linkClose
    | .skipped source | .text source => exact ih _

theorem run_settle (stack : Stack) (tokens : List Token) :
    stack.run (settle tokens) = stack.run tokens := by
  rcases settle_eq tokens with h | h
  · rw [h, run_filterMap_settled]
  · rw [h, run_append_endOfText, run_filterMap_settled]

end Stack
end Braces

/-- **The tree of a list of tokens, read in one pass**: what the tokens before the first end of the
    text leave on the stack, every level that is still open being text and a group. -/
theorem Node.ofTokens_eq_run (tokens : List Token) :
    ofTokens tokens = plain (Braces.Stack.empty.run tokens).finish := by
  rw [ofTokens, Braces.Stack.topLevel_eq_finish_run [] _ (Braces.Stack.settled_settle tokens),
    Braces.Stack.run_settle]
  rfl

end Transclusion
