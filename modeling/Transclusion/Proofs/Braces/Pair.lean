/-
  One opening run against one closing run.

  The runs are used up together, three braces at a time, so all is settled by the shorter one.  Each
  triple makes a placeholder of what stands between the runs, around the placeholder of the triple
  before.  Where two braces are left on the shorter side they make a call around the placeholders,
  and a single one cannot be used.  What is left is text: of the opening run in front of it all, of
  the closing run behind it.

  The reader comes to this piece by piece, and its choice between two braces and three depends on
  what both runs have left.  So the induction (`pieces_close`) is on the closing run, and takes one
  triple off either side as long as both have two braces left then; `pieces_close_last` is the end of
  it, where one side has not.

  Main statement, `Node.pieces_ofTokens_pair`.
-/
import Transclusion.Proofs.Braces.Root

namespace Transclusion

/-! ## Pieces -/

namespace Node

mutual

/-- The pieces of a node: those of its children when it is a group, and else the node itself. -/
def pieces : Node → List Node
  | plain children => piecesAll children
  | text source => [text source]
  | placeholder name default => [placeholder name default]
  | invocation name args => [invocation name args]

/-- The pieces of nodes, one after another. -/
def piecesAll : List Node → List Node
  | [] => []
  | node :: later => pieces node ++ piecesAll later

end

theorem piecesAll_append (nodes later : List Node) :
    piecesAll (nodes ++ later) = piecesAll nodes ++ piecesAll later := by
  induction nodes with
  | nil => rfl
  | cons node nodes ih => rw [List.cons_append, piecesAll, piecesAll, ih, List.append_assoc]

theorem pieces_invocationFrom (children : List Node) :
    pieces (invocationFrom children) = [invocationFrom children] := by
  rw [invocationFrom, pieces]

theorem pieces_placeholderFrom (children : List Node) :
    pieces (placeholderFrom children) = [placeholderFrom children] := by
  rw [placeholderFrom]
  split
  · rw [pieces]
  · rw [pieces]

/-! ## Placeholders around one another -/

/-- Placeholders around one another, of which the innermost is made of the children: each of the
    `around` others has the next inner one as all of its name, and no default. -/
def nested (children : List Node) : (around : Nat) → Node
  | 0 => placeholderFrom children
  | around + 1 => placeholder (plain [nested children around]) none

theorem invocationFrom_singleton {node : Node} (h : node.endsName = false) :
    invocationFrom [node] = invocation (plain [node]) [] := by
  simp [invocationFrom, h, partArguments]

theorem placeholderFrom_singleton {node : Node} (h : node.isText "|" = false) :
    placeholderFrom [node] = placeholder (plain [node]) none := by
  simp [placeholderFrom, h]

theorem isText_placeholderFrom (children : List Node) (source : String) :
    (placeholderFrom children).isText source = false := by
  rw [placeholderFrom]
  split
  · rfl
  · rfl

/-- A placeholder as the only child is one more that the others stand around. -/
theorem nested_placeholderFrom (children : List Node) (around : Nat) :
    nested [placeholderFrom children] around = nested children (around + 1) := by
  induction around with
  | zero => exact placeholderFrom_singleton (isText_placeholderFrom children "|")
  | succ around ih =>
    rw [nested, ih]
    rfl

end Node

namespace Braces

/-! ## What a pair of runs comes to -/

/-- How many braces are used on either side, when the shorter run has `k`. -/
def matched (k : Nat) : Nat := if k % 3 = 1 then k - 1 else k

/-- What the runs make of the children between them, when the shorter one has `k` braces: a
    placeholder for each three of them, and a call around these for two that are left. -/
def paired (children : List Node) (k : Nat) : Node :=
  if k = 2 then .invocationFrom children
  else if k % 3 = 2 then .invocation (.plain [.nested children ((k - 2) / 3 - 1)]) []
  else .nested children (k / 3 - 1)

/-- Braces that are left, as text. -/
def braceText (braces : Nat → String) (n : Nat) : List Node :=
  if n = 0 then [] else [.text (braces n)]

/-- Three braces more on the shorter side are three more that are used. -/
theorem matched_add_three (k : Nat) (h : 2 ≤ k) : matched (k + 3) = matched k + 3 := by
  unfold matched
  have hmod : (k + 3) % 3 = k % 3 := Nat.add_mod_right k 3
  rw [hmod]
  split
  · omega
  · rfl

/-- **Three braces more** are a placeholder inside all the others. -/
theorem paired_add_three (children : List Node) {k : Nat} (h : 2 ≤ k) :
    paired children (k + 3) = paired [.placeholderFrom children] k := by
  have hne : k + 3 ≠ 2 := by omega
  have hmod : (k + 3) % 3 = k % 3 := Nat.add_mod_right k 3
  rw [paired, paired, if_neg hne, hmod]
  by_cases htwo : k = 2
  · have hends : (Node.placeholderFrom children).endsName = false := by
      rw [Node.endsName, Node.isText_placeholderFrom, Node.isText_placeholderFrom]
      rfl
    subst htwo
    rw [if_pos rfl, if_pos rfl, Node.invocationFrom_singleton hends]
    rfl
  rw [if_neg htwo]
  by_cases hcall : k % 3 = 2
  · have haround : (k + 3 - 2) / 3 - 1 = (k - 2) / 3 - 1 + 1 := by omega
    rw [if_pos hcall, if_pos hcall, Node.nested_placeholderFrom, haround]
  · have haround : (k + 3) / 3 - 1 = k / 3 - 1 + 1 := by omega
    rw [if_neg hcall, if_neg hcall, Node.nested_placeholderFrom, haround]

theorem piecesAll_braceText (braces : Nat → String) (n : Nat) :
    Node.piecesAll (braceText braces n) = braceText braces n := by
  rw [braceText]
  split
  · rfl
  · rfl

theorem pieces_constructOf (taken : Nat) (children : List Node) :
    Node.pieces (constructOf taken children) = [constructOf taken children] := by
  rw [constructOf]
  split
  · exact Node.pieces_invocationFrom children
  · exact Node.pieces_placeholderFrom children

namespace Stack

/-! ## Closing the one level there is -/

/-- Outside all levels a closing run is text, however many braces it has. -/
theorem step_closeRun_root (n : Nat) (root : List Node) :
    step ⟨[], root⟩ (.closeRun n) = add (braceText closeBraces n) ⟨[], root⟩ := by
  match n with
  | 0 => rfl
  | 1 => rfl
  | n + 2 =>
    rw [step_closeRun (Nat.le_add_left 2 n), close]
    rfl

/-- Fewer than two closing braces are text wherever they stand. -/
theorem step_closeRun_lt {n : Nat} (h : n < 2) (stack : Stack) :
    stack.step (.closeRun n) = stack.add (braceText closeBraces n) := by
  match n, h with
  | 0, _ => exact (add_nil stack).symm
  | 1, _ => rfl

/-- A level with fewer than two braces left is a group, with these as text in front. -/
theorem take_lt {level : Level} {taken : Nat} (h : level.outstanding - taken < 2) (outer : Stack) :
    take level outer taken = outer.add [.plain (braceText openBraces (level.outstanding - taken) ++
      [constructOf taken level.done.reverse])] := by
  have hcases : level.outstanding - taken = 0 ∨ level.outstanding - taken = 1 := by omega
  rcases hcases with hzero | hone
  · rw [take_zero hzero, hzero]
    rfl
  · rw [take_one hone, hone]
    rfl

/-- **The last piece** of a pair of runs: behind it one of them has fewer than two braces left. -/
theorem pieces_close_last {n m taken : Nat} (hn : 2 ≤ n) (children : List Node)
    (htaken : bracesTaken m n = taken) (hlast : n - taken < 2 ∨ m - taken < 2) :
    Node.piecesAll (finish (close m ⟨[⟨n, children.reverse, hn⟩], []⟩)) =
      braceText openBraces (n - taken) ++
        constructOf taken children :: braceText closeBraces (m - taken) := by
  rw [close_cons]
  simp only [htaken]
  by_cases hopen : n - taken < 2
  · -- the level is closed, so what is left of the closing run stands behind it in the root
    rw [take_lt hopen, add, step_closeRun_root, add]
    simp [finish, unclosed, Node.piecesAll_append, Node.piecesAll, Node.pieces,
      piecesAll_braceText, pieces_constructOf]
  · -- the level stays open, so what is left of the closing run stands inside it
    have hleft : 2 ≤ n - taken := Nat.le_of_not_lt hopen
    have hclose : m - taken < 2 := hlast.resolve_left hopen
    have htext : braceText openBraces (n - taken) = [.text (openBraces (n - taken))] :=
      if_neg (by omega)
    rw [take_two hleft, step_closeRun_lt hclose, add, htext]
    simp [finish, unclosed, Node.piecesAll, Node.pieces, piecesAll_braceText, pieces_constructOf]

/-- **A pair of runs**, one level being open.  The induction takes three braces off either side. -/
theorem pieces_close {n m : Nat} (hn : 2 ≤ n) (hm : 2 ≤ m) (children : List Node) :
    Node.piecesAll (finish (close m ⟨[⟨n, children.reverse, hn⟩], []⟩)) =
      braceText openBraces (n - matched (min n m)) ++
        paired children (min n m) :: braceText closeBraces (m - matched (min n m)) := by
  induction m using Nat.strongRecOn generalizing n children with
  | _ m ih =>
    by_cases hcall : n = 2 ∨ m = 2
    · -- two braces make a call, and one run is used up
      have hmin : min n m = 2 := by omega
      have htaken : bracesTaken m n = 2 := by
        rw [bracesTaken, if_pos (by simpa using hcall.symm)]
      rw [pieces_close_last hn children htaken (by omega), hmin]
      rfl
    have htaken : bracesTaken m n = 3 := by
      rw [bracesTaken, if_neg (by simpa [and_comm] using hcall)]
    rw [not_or] at hcall
    by_cases hlast : n - 3 < 2 ∨ m - 3 < 2
    · -- three braces make a placeholder, and at most one brace of one run is left
      have hmin : min n m = 3 ∨ min n m = 4 := by omega
      rw [pieces_close_last hn children htaken hlast]
      rcases hmin with hmin | hmin
      · rw [hmin]
        rfl
      · rw [hmin]
        rfl
    · -- three braces make a placeholder, which is all that the level holds from here on
      rw [not_or] at hlast
      have hopen : 2 ≤ n - 3 := by omega
      have hclose : 2 ≤ m - 3 := by omega
      have hmin : min n m = min (n - 3) (m - 3) + 3 := by omega
      have htwo : 2 ≤ min (n - 3) (m - 3) := by omega
      have hrest := ih (m - 3) (by omega) hopen hclose [.placeholderFrom children]
      have hstep : close m ⟨[⟨n, children.reverse, hn⟩], []⟩ =
          close (m - 3) ⟨[⟨n - 3, [Node.placeholderFrom children].reverse, hopen⟩], []⟩ := by
        rw [close_cons]
        simp only [htaken]
        rw [take_two hopen, step_closeRun hclose, List.reverse_reverse]
        rfl
      rw [hstep, hrest, hmin, paired_add_three children htwo, matched_add_three _ htwo,
        Nat.add_comm _ 3, Nat.sub_add_eq, Nat.sub_add_eq]

end Stack

/-! ## The tree of a pair of runs -/

/-- The token is neither a run of braces nor an end of the text. -/
def IsBetween : Token → Prop
  | .openRun _ | .closeRun _ | .endOfText => False
  | _ => True

/-- The text that a token between runs stands for, unless it is skipped. -/
def text? : Token → Option Node
  | .skipped _ => none
  | token => some (.text token.lexeme)

/-- **Tokens between runs** add their texts to the level that is open. -/
theorem run_between {tokens : List Token} (h : ∀ token ∈ tokens, IsBetween token) (stack : Stack) :
    stack.run tokens = stack.add (tokens.filterMap text?) := by
  induction tokens generalizing stack with
  | nil => exact (Stack.add_nil stack).symm
  | cons token later ih =>
    have htoken := h token List.mem_cons_self
    have hlater := ih fun other hother => h other (List.mem_cons_of_mem token hother)
    cases token with
    | openRun n => exact htoken.elim
    | closeRun n => exact htoken.elim
    | endOfText => exact htoken.elim
    | skipped source => exact hlater stack
    | linkOpen =>
      show (stack.add [.text "[["]).run later = _
      rw [hlater, Stack.add_add]
      rfl
    | linkClose =>
      show (stack.add [.text "]]"]).run later = _
      rw [hlater, Stack.add_add]
      rfl
    | text source =>
      show (stack.add [.text source]).run later = _
      rw [hlater, Stack.add_add]
      rfl

end Braces

/-- **One opening run against one closing run.**  Of the braces of the shorter run all are used, but
    for one when they are triples and one more.  The pieces of the tree are the opening braces that
    are not used, as text; what the used ones make of the children between them; and the closing
    braces that are not used, as text. -/
theorem Node.pieces_ofTokens_pair {n m : Nat} (hn : 2 ≤ n) (hm : 2 ≤ m) {tokens : List Token}
    (h : ∀ token ∈ tokens, Braces.IsBetween token) :
    (ofTokens (.openRun n :: (tokens ++ [.closeRun m, .endOfText]))).pieces =
      Braces.braceText openBraces (n - Braces.matched (min n m)) ++
        Braces.paired (tokens.filterMap Braces.text?) (min n m) ::
          Braces.braceText closeBraces (m - Braces.matched (min n m)) := by
  have hend : .endOfText ∉ tokens := fun hmem => h _ hmem
  have hopen : Braces.Stack.empty.step (.openRun n) = ⟨[⟨n, [], hn⟩], []⟩ := by
    rw [Braces.Stack.step_openRun hn]
    rfl
  rw [ofTokens_eq_run, pieces, Braces.Stack.run_cons (.openRun n) nofun, hopen,
    Braces.Stack.run_append hend, Braces.run_between h, Braces.Stack.run_cons (.closeRun m) nofun,
    Braces.Stack.step_closeRun hm, Braces.Stack.run_endOfText, Braces.Stack.add, List.append_nil]
  exact Braces.Stack.pieces_close hn hm _

/-- Eight opening braces against twelve: two placeholders in the name of a call, and four closing
    braces behind it. -/
theorem Node.pieces_ofTokens_pair_eight :
    let tokens : List Token := [.text "x", .skipped "<!-- -->", .text "|", .linkOpen]
    (∀ token ∈ tokens, Braces.IsBetween token) ∧
      (ofTokens (.openRun 8 :: (tokens ++ [.closeRun 12, .endOfText]))).pieces =
        [.invocation (.plain [.placeholder (.plain [.placeholder (.plain [.text "x"])
          (some (.plain [.text "[["]))]) none]) [], .text (closeBraces 4)] := by
  intro tokens
  have hbetween : ∀ token ∈ tokens, Braces.IsBetween token := by
    simp [tokens, Braces.IsBetween]
  refine ⟨hbetween, ?_⟩
  rw [pieces_ofTokens_pair (by decide) (by decide) hbetween]
  decide

end Transclusion
