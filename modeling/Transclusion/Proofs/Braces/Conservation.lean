/-
  Reading markup loses nothing.

  A tree says which braces belong together, and no longer how they stood in the text: a call does
  not tell whether its name ended at `|` or at `:`, nor whether a bar stood behind its last
  argument.  So a tree has several renderings, and `Node.Renders` is the relation of a tree to the
  texts that it can be written as.

  Main statement, `Node.renders_ofTokens`: the text of the tokens that are read is a rendering of
  the tree made of them, and of the collapsed tree as well.  The invariant behind it is
  `Stack.Renders`: at each moment the open levels and the root hold, in order, the text that has
  been read.  A step appends the lexeme of its token to that text, whether the braces become a
  construct, text in front of a level, or text at the nesting limit.
-/
import Transclusion.Proofs.Braces.Stack

namespace Transclusion

/-! ## The text that is read -/

/-- What a token adds to the text of a tree: its lexeme, unless it is skipped. -/
def Token.written : Token → String
  | .skipped _ => ""
  | token => token.lexeme

/-- The text of the tokens that are read. -/
def writtenText (tokens : List Token) : String :=
  String.join ((Braces.beforeEnd tokens).map Token.written)

/-! ## The renderings of a tree -/

namespace Node

mutual

/-- A text that a node can be written as. -/
inductive Renders : Node → String → Prop where
  | text (source : String) : Renders (.text source) source
  | plain {children : List Node} {source : String} (h : RendersAll children source) :
      Renders (.plain children) source
  | placeholder {name : Node} {source : String} (h : Renders name source) :
      Renders (.placeholder name none) (openBraces 3 ++ source ++ closeBraces 3)
  | withDefault {name default : Node} {source other : String} (h : Renders name source)
      (hd : Renders default other) :
      Renders (.placeholder name (some default))
        (openBraces 3 ++ source ++ "|" ++ other ++ closeBraces 3)
  | bare {name : Node} {source : String} (h : Renders name source) :
      Renders (.invocation name []) (openBraces 2 ++ source ++ closeBraces 2)
  | invocation {name : Node} {args : List Node} {source separator other : String}
      (h : Renders name source) (hsep : separator = "|" ∨ separator = ":")
      (hargs : RendersArgs args other) :
      Renders (.invocation name args)
        (openBraces 2 ++ source ++ separator ++ other ++ closeBraces 2)

/-- A text that nodes can be written as, one after another. -/
inductive RendersAll : List Node → String → Prop where
  | nil : RendersAll [] ""
  | cons {node : Node} {later : List Node} {source other : String} (h : Renders node source)
      (hl : RendersAll later other) : RendersAll (node :: later) (source ++ other)

/-- A text that the arguments of a call can be written as, with bars between them.  Behind the last
    of them a bar may stand as well. -/
inductive RendersArgs : List Node → String → Prop where
  | nil : RendersArgs [] ""
  | last {arg : Node} {source : String} (h : Renders arg source) : RendersArgs [arg] source
  | bar {arg : Node} {later : List Node} {source other : String} (h : Renders arg source)
      (hl : RendersArgs later other) : RendersArgs (arg :: later) (source ++ "|" ++ other)

end

theorem RendersAll.singleton {node : Node} {source : String} (h : Renders node source) :
    RendersAll [node] source := by
  have := RendersAll.cons h .nil
  rwa [String.append_empty] at this

theorem RendersAll.append {before after : List Node} {source other : String}
    (h : RendersAll before source) (h' : RendersAll after other) :
    RendersAll (before ++ after) (source ++ other) := by
  induction before generalizing source with
  | nil =>
    cases h
    rwa [String.empty_append]
  | cons node later ih =>
    cases h with
    | cons hnode hlater =>
      rw [String.append_assoc]
      exact .cons hnode (ih hlater)

/-- A rendering of nodes in two parts is a rendering of each part. -/
theorem RendersAll.split {before after : List Node} {source : String}
    (h : RendersAll (before ++ after) source) :
    ∃ first second, RendersAll before first ∧ RendersAll after second ∧
      source = first ++ second := by
  induction before generalizing source with
  | nil => exact ⟨"", source, .nil, h, (String.empty_append).symm⟩
  | cons node later ih =>
    cases h with
    | cons hnode hlater =>
      obtain ⟨first, second, hfirst, hsecond, rfl⟩ := ih hlater
      exact ⟨_, second, .cons hnode hfirst, hsecond, (String.append_assoc ..).symm⟩

theorem RendersAll.group {nodes : List Node} {source : String} (h : RendersAll nodes source) :
    Renders (group nodes) source := by
  by_cases hone : nodes.length = 1
  · obtain ⟨only, rfl⟩ := List.length_eq_one_iff.1 hone
    cases h with
    | cons hnode hnil =>
      cases hnil
      rwa [String.append_empty]
  · rw [group_eq_plain hone]
    exact .plain h

/-! ## Collapsing keeps the renderings -/

mutual

/-- Every rendering of a tree is one of the collapsed tree. -/
theorem Renders.collapse {node : Node} {source : String} (h : Renders node source) :
    Renders node.collapse source := by
  cases h with
  | text source =>
    rw [collapse_text]
    exact .text source
  | plain h =>
    rw [collapse_plain_eq_group]
    exact h.collapse.group
  | placeholder h =>
    rw [collapse_placeholder]
    exact .placeholder h.collapse
  | withDefault h hd =>
    rw [collapse_placeholder]
    exact .withDefault h.collapse hd.collapse
  | bare h =>
    rw [collapse_invocation]
    exact .bare h.collapse
  | invocation h hsep hargs =>
    rw [collapse_invocation]
    exact .invocation h.collapse hsep hargs.collapse

theorem RendersAll.collapse {nodes : List Node} {source : String} (h : RendersAll nodes source) :
    RendersAll (nodes.map Node.collapse) source := by
  cases h with
  | nil => exact .nil
  | cons h hl => exact .cons h.collapse hl.collapse

theorem RendersArgs.collapse {args : List Node} {source : String} (h : RendersArgs args source) :
    RendersArgs (args.map Node.collapse) source := by
  cases h with
  | nil => exact .nil
  | last h => exact .last h.collapse
  | bar h hl => exact .bar h.collapse hl.collapse

end

/-! ## The children between braces -/

/-- Parting children into arguments keeps their text: what is parted off is followed by a bar. -/
theorem rendersArgs_partArguments (children arg : List Node) (links : Int) {source other : String}
    (harg : RendersAll arg.reverse source) (h : RendersAll children other) :
    RendersArgs (partArguments [] arg links children) (source ++ other) := by
  induction children generalizing arg links source other with
  | nil =>
    cases h
    rw [String.append_empty]
    unfold partArguments
    split
    · next hempty =>
      rw [List.isEmpty_iff.1 hempty] at harg
      cases harg
      exact .nil
    · exact .last (.plain harg)
  | cons child later ih =>
    cases h with
    | @cons _ _ first second hchild hlater =>
      -- the child joins the argument under way, whatever it is counted as
      have hjoin : ∀ links, RendersArgs (partArguments [] (child :: arg) links later)
          (source ++ (first ++ second)) := by
        intro links
        have hmore : RendersAll (child :: arg).reverse (source ++ first) := by
          rw [List.reverse_cons]
          exact harg.append (.singleton hchild)
        have := ih (child :: arg) links hmore hlater
        rwa [String.append_assoc] at this
      simp only [partArguments]
      split
      · exact hjoin _
      · split
        · exact hjoin _
        · split
          · next hbar =>
            have htext := eq_text_of_isText (Bool.and_eq_true_iff.1 hbar).1
            subst htext
            cases hchild
            rw [partArguments_eq_append]
            have hrest := ih [] links .nil hlater
            rw [String.empty_append] at hrest
            have := RendersArgs.bar (.plain harg) hrest
            rwa [String.append_assoc] at this
          · exact hjoin _

/-- The children up to the first separator, and those from it on. -/
theorem RendersAll.parted {children : List Node} {source : String} (h : RendersAll children source)
    (keep : Node → Bool) :
    ∃ first second, RendersAll (children.takeWhile keep) first ∧
      RendersAll (children.dropWhile keep) second ∧ source = first ++ second := by
  apply RendersAll.split
  rwa [List.takeWhile_append_dropWhile]

theorem not_of_dropWhile_eq_cons {children rest : List Node} {keep : Node → Bool} {child : Node}
    (h : children.dropWhile keep = child :: rest) : keep child = false := by
  have := List.head?_dropWhile_not keep children
  rw [h] at this
  simpa using this

/-- The call made of children renders to their text between two pairs of braces: its name ends at
    the separator that is taken out. -/
theorem renders_invocationFrom {children : List Node} {source : String}
    (h : RendersAll children source) :
    Renders (invocationFrom children) (openBraces 2 ++ source ++ closeBraces 2) := by
  obtain ⟨first, second, hname, hrest, rfl⟩ := h.parted fun child => !child.endsName
  unfold invocationFrom
  cases hdrop : children.dropWhile fun child => !child.endsName with
  | nil =>
    rw [hdrop] at hrest
    cases hrest
    rw [String.append_empty]
    exact .bare (.plain hname)
  | cons separator rest =>
    have hends : separator.endsName = true := by simpa using not_of_dropWhile_eq_cons hdrop
    rw [hdrop] at hrest
    cases hrest with
    | @cons _ _ mark other hmark hother =>
      have hsep : mark = "|" ∨ mark = ":" := by
        rcases Bool.or_eq_true_iff.1 hends with hbar | hcolon
        · rw [eq_text_of_isText hbar] at hmark
          cases hmark
          exact .inl rfl
        · rw [eq_text_of_isText hcolon] at hmark
          cases hmark
          exact .inr rfl
      have hargs := rendersArgs_partArguments rest [] 0 .nil hother
      rw [String.empty_append] at hargs
      have := Renders.invocation (.plain hname) hsep hargs
      simpa only [String.append_assoc, List.drop_one, List.tail_cons] using this

/-- The placeholder made of children renders to their text between two triples of braces: the bar
    that is taken out stands before its default. -/
theorem renders_placeholderFrom {children : List Node} {source : String}
    (h : RendersAll children source) :
    Renders (placeholderFrom children) (openBraces 3 ++ source ++ closeBraces 3) := by
  obtain ⟨first, second, hname, hrest, rfl⟩ := h.parted fun child => !child.isText "|"
  unfold placeholderFrom
  cases hdrop : children.dropWhile fun child => !child.isText "|" with
  | nil =>
    rw [hdrop] at hrest
    cases hrest
    rw [String.append_empty]
    exact .placeholder (.plain hname)
  | cons bar rest =>
    have hbar : bar.isText "|" = true := by simpa using not_of_dropWhile_eq_cons hdrop
    rw [hdrop, eq_text_of_isText hbar] at hrest
    cases hrest with
    | cons hmark hother =>
      cases hmark
      have := Renders.withDefault (.plain hname) (.plain hother)
      simpa only [String.append_assoc] using this

end Node

namespace Braces

theorem renders_constructOf {taken : Nat} (h : taken = 2 ∨ taken = 3) {children : List Node}
    {source : String} (hc : Node.RendersAll children source) :
    Node.Renders (constructOf taken children)
      (openBraces taken ++ source ++ closeBraces taken) := by
  rcases h with rfl | rfl
  · exact Node.renders_invocationFrom hc
  · exact Node.renders_placeholderFrom hc

/-! ## What the stack holds -/

namespace Stack

/-- The text that the open levels hold, behind that of the root: for each level its braces and its
    children, from the outermost on. -/
def RendersLevels (root : List Node) : List Level → String → Prop
  | [], source => Node.RendersAll root.reverse source
  | level :: outer, source =>
    ∃ before inside, RendersLevels root outer before ∧ Node.RendersAll level.done.reverse inside ∧
      source = before ++ openBraces level.outstanding ++ inside

/-- The stack holds a text. -/
def Renders (stack : Stack) (source : String) : Prop :=
  RendersLevels stack.root stack.levels source

theorem Renders.add {stack : Stack} {source other : String} {children : List Node}
    (h : stack.Renders source) (hc : Node.RendersAll children other) :
    (stack.add children).Renders (source ++ other) := by
  obtain ⟨levels, root⟩ := stack
  cases levels with
  | nil =>
    show Node.RendersAll (children.reverse ++ root).reverse (source ++ other)
    rw [List.reverse_append, List.reverse_reverse]
    exact h.append hc
  | cons level outer =>
    obtain ⟨before, inside, hbefore, hinside, rfl⟩ := h
    refine ⟨before, inside ++ other, hbefore, ?_, String.append_assoc ..⟩
    show Node.RendersAll (children.reverse ++ level.done).reverse (inside ++ other)
    rw [List.reverse_append, List.reverse_reverse]
    exact hinside.append hc

/-- Taking braces off the innermost level is reading as many closing braces. -/
theorem Renders.take {level : Level} {outer : List Level} {root : List Node} {source : String}
    {taken : Nat} (h : Renders ⟨level :: outer, root⟩ source) (htaken : taken = 2 ∨ taken = 3)
    (hle : taken ≤ level.outstanding) :
    (Stack.take level ⟨outer, root⟩ taken).Renders (source ++ closeBraces taken) := by
  obtain ⟨before, inside, hbefore, hinside, rfl⟩ := h
  have houter : Renders ⟨outer, root⟩ before := hbefore
  have hclosed := renders_constructOf htaken hinside
  -- the level's braces are those that stay in front and those that the construct gets
  have hsource : before ++ openBraces level.outstanding ++ inside ++ closeBraces taken =
      before ++ openBraces (level.outstanding - taken) ++
        (openBraces taken ++ inside ++ closeBraces taken) := by
    conv => lhs; rw [← Nat.sub_add_cancel hle, openBraces_add]
    simp only [String.append_assoc]
  rw [hsource]
  have hcases : level.outstanding - taken = 0 ∨ level.outstanding - taken = 1 ∨
      2 ≤ level.outstanding - taken := by omega
  rcases hcases with hzero | hone | htwo
  · rw [take_zero hzero, hzero, openBraces_zero, String.append_empty]
    exact houter.add (.singleton (.plain (.singleton hclosed)))
  · rw [take_one hone, hone, String.append_assoc]
    exact houter.add (.singleton (.plain (.cons (.text _) (.singleton hclosed))))
  · rw [take_two htwo]
    exact ⟨before, _, hbefore, .singleton hclosed, rfl⟩

theorem Renders.addText {stack : Stack} {source : String} (h : stack.Renders source)
    (text : String) : (stack.add [.text text]).Renders (source ++ text) :=
  h.add (.singleton (.text text))

/-- A closing run is read as it is written, however many levels it closes: each time braces are
    taken off a level the run gets shorter by as many. -/
theorem Renders.stepClose (n : Nat) {stack : Stack} {source : String} (h : stack.Renders source) :
    (stack.step (.closeRun n)).Renders (source ++ closeBraces n) := by
  induction n using Nat.strongRecOn generalizing stack source with
  | _ n ih =>
    match n with
    | 0 => rwa [closeBraces_zero, String.append_empty]
    | 1 => exact h.addText _
    | n + 2 =>
      obtain ⟨levels, root⟩ := stack
      rw [step_closeRun (Nat.le_add_left 2 n)]
      cases levels with
      | nil =>
        rw [close]
        exact h.addText _
      | cons level outer =>
        rw [close_cons]
        have hle := bracesTaken_le (Nat.le_add_left 2 n) level.two_le
        have hpos := bracesTaken_pos (n + 2) level.outstanding
        have htake := h.take (bracesTaken_eq (n + 2) level.outstanding) hle.2
        have hrest := ih (n + 2 - bracesTaken (n + 2) level.outstanding) (by omega) htake
        rwa [String.append_assoc, ← closeBraces_add, Nat.add_sub_cancel' hle.1] at hrest

/-- **One step keeps the text**: a token adds its lexeme to what the stack holds, unless it is
    skipped. -/
theorem Renders.step {stack : Stack} {source : String} (h : stack.Renders source) (token : Token) :
    (stack.step token).Renders (source ++ token.written) := by
  match token with
  | .openRun 0 =>
    show stack.Renders (source ++ openBraces 0)
    rwa [openBraces_zero, String.append_empty]
  | .openRun 1 => exact h.addText _
  | .openRun (n + 2) =>
    rw [step_openRun (Nat.le_add_left 2 n)]
    split
    · exact ⟨source, "", h, .nil, String.append_empty.symm⟩
    · exact h.addText _
  | .closeRun n => exact h.stepClose n
  | .skipped _ =>
    show stack.Renders (source ++ "")
    rwa [String.append_empty]
  | .endOfText | .linkOpen | .linkClose | .text _ => exact h.addText _

theorem Renders.foldl {stack : Stack} {source : String} (h : stack.Renders source)
    (tokens : List Token) :
    (tokens.foldl Stack.step stack).Renders (source ++ String.join (tokens.map Token.written)) := by
  induction tokens generalizing stack source with
  | nil => rwa [List.map_nil, String.join_nil, String.append_empty]
  | cons token later ih =>
    rw [List.map_cons, String.join_cons, ← String.append_assoc]
    exact ih (h.step token)

/-- Levels that are never closed are written as they stand on the stack. -/
theorem RendersLevels.unclosed {root inner : List Node} {levels : List Level}
    {source other : String} (h : RendersLevels root levels source)
    (hi : Node.RendersAll inner other) :
    Node.RendersAll (root.reverse ++ Stack.unclosed inner levels) (source ++ other) := by
  induction levels generalizing inner source other with
  | nil => exact h.append hi
  | cons level outer ih =>
    obtain ⟨before, inside, hbefore, hinside, rfl⟩ := h
    have hbraces := Node.Renders.text (openBraces level.outstanding)
    have := ih hbefore (.singleton (.plain (.cons hbraces (hinside.append hi))))
    rw [Stack.unclosed]
    simpa only [String.append_assoc] using this

end Stack
end Braces

/-- **Nothing is lost, doubled or moved**: the text of the tokens that are read is a rendering of
    their tree, collapsed or not. -/
theorem Node.renders_ofTokens (tokens : List Token) :
    (ofTokens tokens).Renders (writtenText tokens) ∧
      (ofTokens tokens).collapse.Renders (writtenText tokens) := by
  have hempty : Braces.Stack.empty.Renders "" := RendersAll.nil
  have hrun := hempty.foldl (Braces.beforeEnd tokens)
  have hfinish := Braces.Stack.RendersLevels.unclosed hrun .nil
  rw [String.empty_append, String.append_empty] at hfinish
  have htree : (ofTokens tokens).Renders (writtenText tokens) := by
    rw [ofTokens_eq_run]
    exact .plain hfinish
  exact ⟨htree, htree.collapse⟩

end Transclusion
