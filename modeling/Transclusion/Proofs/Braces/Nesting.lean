/-
  How deep a tree can become.

  `maxLevels` bounds the open levels, and a level is one opening run.  It does not bound the depth
  of the tree: a run of more than three braces is closed piece by piece, and each piece becomes a
  construct around those before it.

  `Depths` is the stack with its nodes forgotten, only their depths being kept.  A step of the stack
  is a step of `Depths`, so the depth of a tree can be told from its tokens without building it.

  * `crosses_le_maxLevels_iff`: exactly when a tree stays within `maxLevels`.
  * `constructDepth_parse_le`: it does so when no opening run has more than three braces.
  * `constructDepth_parse_triples`: one run of `3 * k` braces gives `k` placeholders around one
    another, whatever the number of levels.
-/
import Transclusion.Proofs.Braces.Stack
import Transclusion.Proofs.Node.Depth
import Transclusion.Proofs.Token.Lexing

namespace Transclusion

namespace Braces

/-! ## The stack in numbers -/

/-- The open levels, the innermost first, each with its braces left and the depth of its deepest
    child; and the depth of the deepest child of the root. -/
structure Depths where
  levels : List (Nat × Nat)
  root : Nat
deriving DecidableEq

namespace Depths

/-- No level open, nothing read. -/
def empty : Depths := ⟨[], 0⟩

/-- A child of some depth comes into the innermost level, or into the root when none is open. -/
def note (depth : Nat) : Depths → Depths
  | ⟨[], root⟩ => ⟨[], max depth root⟩
  | ⟨(outstanding, deepest) :: outer, root⟩ => ⟨(outstanding, max depth deepest) :: outer, root⟩

/-- Taking braces off a level makes a construct of its children, one deeper than they are. -/
def take (outstanding deepest : Nat) (outer : Depths) (taken : Nat) : Depths :=
  if outstanding - taken < 2 then outer.note (deepest + 1)
  else ⟨(outstanding - taken, deepest + 1) :: outer.levels, outer.root⟩

/-- Closes with a run of `n` braces, piece by piece. -/
def close (n : Nat) : Depths → Depths
  | ⟨[], root⟩ => ⟨[], root⟩
  | ⟨(outstanding, deepest) :: outer, root⟩ =>
    let taken := bracesTaken n outstanding
    let after := take outstanding deepest ⟨outer, root⟩ taken
    if _h : n - taken < 2 then after else after.close (n - taken)
termination_by n
decreasing_by
  have := bracesTaken_pos n outstanding
  omega

/-- What one token does.  Texts have no depth. -/
def step (depths : Depths) : Token → Depths
  | .openRun n =>
    if 2 ≤ n ∧ depths.levels.length < maxLevels then ⟨(n, 0) :: depths.levels, depths.root⟩
    else depths
  | .closeRun n => if 2 ≤ n then depths.close n else depths
  | _ => depths

/-- Reads the tokens before the first end of the text. -/
def run (depths : Depths) (tokens : List Token) : Depths := (beforeEnd tokens).foldl step depths

/-- The depth of all there is, the levels that stay open being groups. -/
def total (depths : Depths) : Nat :=
  depths.levels.foldr (fun level deepest => max level.2 deepest) depths.root

@[simp] theorem note_zero (depths : Depths) : depths.note 0 = depths := by
  obtain ⟨levels, root⟩ := depths
  cases levels with
  | nil => simp [note]
  | cons level outer => simp [note]

theorem step_openRun {n : Nat} {depths : Depths} (h : 2 ≤ n)
    (hfree : depths.levels.length < maxLevels) :
    depths.step (.openRun n) = ⟨(n, 0) :: depths.levels, depths.root⟩ := by
  rw [step, if_pos ⟨h, hfree⟩]

theorem step_openRun_full {n : Nat} {depths : Depths}
    (hfull : ¬ depths.levels.length < maxLevels) : depths.step (.openRun n) = depths := by
  rw [step, if_neg fun h => hfull h.2]

theorem step_closeRun {n : Nat} (h : 2 ≤ n) (depths : Depths) :
    depths.step (.closeRun n) = depths.close n := by
  rw [step, if_pos h]

theorem close_nil (n root : Nat) : close n ⟨[], root⟩ = ⟨[], root⟩ := by
  rw [close]

theorem close_cons (n outstanding deepest root : Nat) (outer : List (Nat × Nat)) :
    close n ⟨(outstanding, deepest) :: outer, root⟩ =
      (take outstanding deepest ⟨outer, root⟩ (bracesTaken n outstanding)).step
        (.closeRun (n - bracesTaken n outstanding)) := by
  rw [close, step]
  split
  · next h => rw [if_neg (Nat.not_le_of_lt h)]
  · next h => rw [if_pos (Nat.le_of_not_lt h)]

end Depths

/-! ## A step of the stack is a step of its depths -/

/-- The depths of what the stack holds. -/
def Stack.depths (stack : Stack) : Depths where
  levels := stack.levels.map fun level => (level.outstanding, Node.deepest level.done)
  root := Node.deepest stack.root

namespace Stack

theorem depths_add (children : List Node) (stack : Stack) :
    (stack.add children).depths = stack.depths.note (Node.deepest children) := by
  obtain ⟨levels, root⟩ := stack
  cases levels with
  | nil => simp [add, depths, Depths.note]
  | cons level outer => simp [add, depths, Depths.note]

theorem depths_addText (source : String) (stack : Stack) :
    (stack.add [.text source]).depths = stack.depths := by
  rw [depths_add, Node.deepest_cons, Node.constructDepth_text, Node.deepest_nil, Nat.max_zero,
    Depths.note_zero]

theorem depths_take (level : Level) (outer : Stack) (taken : Nat) :
    (take level outer taken).depths =
      Depths.take level.outstanding (Node.deepest level.done) outer.depths taken := by
  have hdepth := constructDepth_constructOf taken level.done.reverse
  rw [Node.deepest_reverse] at hdepth
  -- with no or one brace left the construct goes to the level around, with more it stays
  have hcases : level.outstanding - taken = 0 ∨ level.outstanding - taken = 1 ∨
      2 ≤ level.outstanding - taken := by omega
  rcases hcases with hzero | hone | htwo
  · rw [take_zero hzero, depths_add, Depths.take, if_pos (by omega)]
    simp [hdepth]
  · rw [take_one hone, depths_add, Depths.take, if_pos (by omega)]
    simp [hdepth]
  · rw [take_two htwo, Depths.take, if_neg (by omega)]
    simp [depths, hdepth]

theorem depths_stepClose (n : Nat) (stack : Stack) :
    (stack.step (.closeRun n)).depths = stack.depths.step (.closeRun n) := by
  induction n using Nat.strongRecOn generalizing stack with
  | _ n ih =>
    match n with
    | 0 => rfl
    | 1 => exact depths_addText _ stack
    | n + 2 =>
      obtain ⟨levels, root⟩ := stack
      rw [step_closeRun (Nat.le_add_left 2 n), Depths.step_closeRun (Nat.le_add_left 2 n)]
      cases levels with
      | nil =>
        rw [close, depths_addText]
        exact (Depths.close_nil _ _).symm
      | cons level outer =>
        have hpos := bracesTaken_pos (n + 2) level.outstanding
        rw [close_cons, ih _ (by omega), depths_take]
        exact (Depths.close_cons _ _ _ _ _).symm

/-- **One step**: forgetting the nodes and reading a token commute. -/
theorem depths_step (stack : Stack) (token : Token) :
    (stack.step token).depths = stack.depths.step token := by
  match token with
  | .openRun 0 => rfl
  | .openRun 1 => exact depths_addText _ stack
  | .openRun (n + 2) =>
    have hlevels : stack.depths.levels.length = stack.levels.length := List.length_map _
    rw [step_openRun (Nat.le_add_left 2 n)]
    by_cases hfree : stack.levels.length < maxLevels
    · rw [if_pos hfree, Depths.step_openRun (Nat.le_add_left 2 n) (hlevels ▸ hfree)]
      rfl
    · rw [if_neg hfree, Depths.step_openRun_full (hlevels ▸ hfree)]
      exact depths_addText _ stack
  | .closeRun n => exact depths_stepClose n stack
  | .skipped _ => rfl
  | .endOfText | .linkOpen | .linkClose | .text _ => exact depths_addText _ stack

theorem depths_foldl (tokens : List Token) (stack : Stack) :
    (tokens.foldl step stack).depths = tokens.foldl Depths.step stack.depths := by
  induction tokens generalizing stack with
  | nil => rfl
  | cons token later ih => rw [List.foldl_cons, List.foldl_cons, ih, depths_step]

theorem deepest_unclosed (inner : List Node) (levels : List Level) (root : List Node) :
    max (Node.deepest root) (Node.deepest (unclosed inner levels)) =
      max (Node.deepest inner) (depths ⟨levels, root⟩).total := by
  induction levels generalizing inner with
  | nil => exact Nat.max_comm _ _
  | cons level outer ih =>
    rw [unclosed, ih]
    simp only [Node.deepest_cons, Node.constructDepth_plain, Node.constructDepth_text,
      Node.deepest_append, Node.deepest_reverse, Node.deepest_nil, Depths.total, depths,
      List.map_cons, List.foldr_cons]
    omega

theorem deepest_finish (stack : Stack) : Node.deepest stack.finish = stack.depths.total := by
  rw [finish, Node.deepest_append, Node.deepest_reverse, deepest_unclosed, Node.deepest_nil,
    Nat.zero_max]

end Stack
end Braces

/-- **The depth of a tree, told from its tokens.** -/
theorem Node.constructDepth_parse (text : String) :
    (parse text).constructDepth = (Braces.Depths.empty.run (tokenize text)).total := by
  rw [parse, constructDepth_collapse, ofTokens_eq_run, constructDepth_plain,
    Braces.Stack.deepest_finish, Braces.Stack.run, Braces.Stack.depths_foldl]
  rfl

/-! ## Runs of at most three braces -/

namespace Braces.Depths

/-- Levels of at most three braces, each shallow enough to become a construct of the level around
    it, and so on to the root. -/
def ShallowLevels : List (Nat × Nat) → Prop
  | [] => True
  | level :: outer =>
    level.1 ≤ 3 ∧ level.2 + (outer.length + 1) ≤ maxLevels ∧ ShallowLevels outer

/-- Whatever is closed from here on, the root stays within the limit. -/
structure Shallow (depths : Depths) : Prop where
  root_le : depths.root ≤ maxLevels
  levels : ShallowLevels depths.levels

theorem Shallow.empty : Shallow empty := ⟨Nat.zero_le _, trivial⟩

theorem Shallow.note {depths : Depths} {depth : Nat} (h : depths.Shallow)
    (hdepth : depth + depths.levels.length ≤ maxLevels) : (depths.note depth).Shallow := by
  obtain ⟨levels, root⟩ := depths
  obtain ⟨hroot, hlevels⟩ := h
  cases levels with
  | nil => exact ⟨Nat.max_le.2 ⟨hdepth, hroot⟩, trivial⟩
  | cons level outer =>
    obtain ⟨hthree, hroom, houter⟩ := hlevels
    refine ⟨hroot, hthree, ?_, houter⟩
    have hnew : depth + (outer.length + 1) ≤ maxLevels := hdepth
    show max depth level.2 + (outer.length + 1) ≤ maxLevels
    omega

/-- A level of at most three braces is used up by the first piece that closes it. -/
theorem Shallow.take {outstanding deepest root taken : Nat} {outer : List (Nat × Nat)}
    (h : Shallow ⟨(outstanding, deepest) :: outer, root⟩) (htaken : 2 ≤ taken) :
    (take outstanding deepest ⟨outer, root⟩ taken).Shallow := by
  obtain ⟨hroot, hthree, hroom, houter⟩ := h
  have hused : outstanding - taken < 2 := by
    have : outstanding ≤ 3 := hthree
    omega
  rw [Depths.take, if_pos hused]
  have hbelow : Shallow ⟨outer, root⟩ := ⟨hroot, houter⟩
  apply hbelow.note
  have : deepest + (outer.length + 1) ≤ maxLevels := hroom
  show deepest + 1 + outer.length ≤ maxLevels
  omega

theorem Shallow.stepClose (n : Nat) {depths : Depths} (h : depths.Shallow) :
    (depths.step (.closeRun n)).Shallow := by
  induction n using Nat.strongRecOn generalizing depths with
  | _ n ih =>
    obtain ⟨levels, root⟩ := depths
    rw [step]
    split
    · next hn =>
      cases levels with
      | nil => rwa [close_nil]
      | cons level outer =>
        have htwo : 2 ≤ bracesTaken n level.1 := by
          rcases Stack.bracesTaken_eq n level.1 with h | h <;> omega
        rw [close_cons]
        exact ih _ (by omega) (h.take htwo)
    · exact h

/-- **One step keeps the room** that each level has, as long as no opening run is longer than
    three. -/
theorem Shallow.step {depths : Depths} (h : depths.Shallow) {token : Token}
    (htoken : ∀ n, token = .openRun n → n ≤ 3) : (depths.step token).Shallow := by
  cases token with
  | openRun n =>
    rw [Depths.step]
    split
    · next hopen =>
      refine ⟨h.root_le, htoken n rfl, ?_, h.levels⟩
      have : depths.levels.length < maxLevels := hopen.2
      show 0 + (depths.levels.length + 1) ≤ maxLevels
      omega
    · exact h
  | closeRun n => exact h.stepClose n
  | _ => exact h

theorem Shallow.foldl {tokens : List Token} (htokens : ∀ n, .openRun n ∈ tokens → n ≤ 3)
    {depths : Depths} (h : depths.Shallow) : (tokens.foldl Depths.step depths).Shallow := by
  induction tokens generalizing depths with
  | nil => exact h
  | cons token later ih =>
    have hfirst : ∀ n, token = .openRun n → n ≤ 3 := by
      rintro n rfl
      exact htokens n List.mem_cons_self
    exact ih (fun n hn => htokens n (List.mem_cons_of_mem _ hn)) (h.step hfirst)

theorem Shallow.total_le {depths : Depths} (h : depths.Shallow) : depths.total ≤ maxLevels := by
  obtain ⟨levels, root⟩ := depths
  obtain ⟨hroot, hlevels⟩ := h
  induction levels with
  | nil => exact hroot
  | cons level outer ih =>
    obtain ⟨-, hroom, houter⟩ := hlevels
    have hrest : total ⟨outer, root⟩ ≤ maxLevels := ih hroot houter
    show max level.2 (total ⟨outer, root⟩) ≤ maxLevels
    omega

end Braces.Depths

/-- Opening runs of two and three braces nest no deeper than levels do. -/
theorem Node.constructDepth_parse_le {text : String}
    (h : ∀ n, .openRun n ∈ tokenize text → n ≤ 3) :
    (parse text).constructDepth ≤ Braces.maxLevels := by
  rw [constructDepth_parse]
  apply Braces.Depths.Shallow.total_le
  apply Braces.Depths.Shallow.foldl _ Braces.Depths.Shallow.empty
  intro n hn
  exact h n (List.takeWhile_subset _ hn)

/-! ## One long run -/

namespace Braces.Depths

/-- A run of triples closes a level of as many triples, each piece around the one before it. -/
theorem close_triples (k deepest root : Nat) (outer : List (Nat × Nat)) :
    close (3 * (k + 1)) ⟨(3 * (k + 1), deepest) :: outer, root⟩ =
      note (deepest + (k + 1)) ⟨outer, root⟩ := by
  induction k generalizing deepest with
  | zero =>
    rw [close_cons]
    rfl
  | succ k ih =>
    have htaken : bracesTaken (3 * (k + 1 + 1)) (3 * (k + 1 + 1)) = 3 := by
      have hne : ¬ 3 * (k + 1 + 1) = 2 := by omega
      simp [bracesTaken, hne]
    have hleft : 3 * (k + 1 + 1) - 3 = 3 * (k + 1) := by omega
    rw [close_cons, htaken, hleft, take, hleft, if_neg (by omega), step_closeRun (by omega), ih]
    congr 1
    omega

end Braces.Depths

/-- The tokens of a run of opening braces, a letter and as many closing braces. -/
theorem tokenize_braced {n : Nat} (h : 2 ≤ n) :
    tokenize (openBraces n ++ "x" ++ closeBraces n) =
      [.openRun n, .text "x", .closeRun n, .endOfText] := by
  have hchars : openBraces n ++ "x" ++ closeBraces n =
      String.ofList (List.replicate n '{' ++ (['x'] ++ (List.replicate n '}' ++ []))) := by
    rw [openBraces, closeBraces, List.append_nil, String.ofList_append, String.ofList_append,
      String.append_assoc]
  have hplain : '<' ∉ List.replicate n '{' ++ (['x'] ++ (List.replicate n '}' ++ [])) := by
    simp [List.mem_replicate]
  have hletter : ∀ c ∈ ['x'], Lexer.isSpecial c = false := by
    intro c hc
    rw [List.mem_singleton.1 hc]
    rfl
  have hspecial : ∀ c, (List.replicate n '}' ++ []).head? = some c → Lexer.isSpecial c = true := by
    intro c hc
    have hmem := List.mem_of_mem_head? hc
    rw [List.append_nil] at hmem
    have hbrace : c = '}' := List.eq_of_mem_replicate hmem
    subst hbrace
    rfl
  rw [hchars, tokenize_eq_lex hplain, Lexer.lex_openRun h (by simp),
    Lexer.lex_text (by simp) hletter hspecial, Lexer.lex_closeRun h (by simp), Lexer.lex_nil]

/-- **One run of triples is as deep as it has triples**: the number of open levels is one
    throughout. -/
theorem Node.constructDepth_parse_triples (k : Nat) :
    (parse (openBraces (3 * (k + 1)) ++ "x" ++ closeBraces (3 * (k + 1)))).constructDepth =
      k + 1 := by
  have hopen : 2 ≤ 3 * (k + 1) := by omega
  rw [constructDepth_parse, tokenize_braced hopen]
  show (((Braces.Depths.empty.step (.openRun (3 * (k + 1)))).step (.text "x")).step
    (.closeRun (3 * (k + 1)))).total = k + 1
  have hlevel : Braces.Depths.empty.step (.openRun (3 * (k + 1))) = ⟨[(3 * (k + 1), 0)], 0⟩ :=
    Braces.Depths.step_openRun hopen (Nat.zero_lt_succ 255)
  rw [Braces.Depths.step_closeRun hopen, hlevel]
  show (Braces.Depths.close (3 * (k + 1)) ⟨[(3 * (k + 1), 0)], 0⟩).total = k + 1
  rw [Braces.Depths.close_triples]
  show max (0 + (k + 1)) 0 = k + 1
  omega

/-! ## The limit -/

/-- **Exactly when a tree stays within the limit**: no path crosses more than `maxLevels` calls and
    placeholders just when the depths of its tokens come to no more. -/
theorem Node.crosses_le_maxLevels_iff (text : String) :
    (∀ count, (parse text).Crosses count → count ≤ Braces.maxLevels) ↔
      (Braces.Depths.empty.run (tokenize text)).total ≤ Braces.maxLevels := by
  rw [← constructDepth_le_iff, constructDepth_parse]

/-- One level is enough to pass the limit. -/
theorem Node.not_crosses_le_maxLevels :
    ¬ ∀ count, (parse (openBraces 771 ++ "x" ++ closeBraces 771)).Crosses count →
      count ≤ Braces.maxLevels := by
  rw [← constructDepth_le_iff, constructDepth_parse_triples 256]
  decide

end Transclusion
