/-
  Where in the text each call and placeholder comes from.

  While braces are open, a level holds three kinds of children: texts, calls and placeholders whose
  braces were closed, and groups of one of these, which stands there alone or behind the one opening
  brace that was left over.  `RowFrom` says that children are of these kinds, and it carries along
  the text that they are read from, so that a call is known by its source and not by its shape.

  Spread out in one row, the opening braces of a level being a text in front of what it holds, the
  stack is such a row, read from all the text so far.  A closing run cuts this row at the braces
  that it closes, and what stood behind them is the row of the new construct.  The invariant is
  about a moment of the machine (`Machine.Holds`): what the row was read from, and the text of the
  tokens that are still to be read, are together the page.

  Main statement, `Node.children_standOn`.
-/
import Transclusion.Proofs.Braces.Conservation
import Transclusion.Proofs.Braces.Machine

namespace Transclusion

/-! ## Text -/

theorem braces_ne_empty {n : Nat} (h : 0 < n) (brace : Char) :
    String.ofList (List.replicate n brace) ≠ "" := by
  intro hempty
  have hlength := congrArg String.length hempty
  simp at hlength
  omega

theorem infix_append_left (source other : String) :
    source.toList <:+: (source ++ other).toList := by
  rw [String.toList_append]
  exact List.infix_append_left

theorem infix_append_right (source other : String) :
    other.toList <:+: (source ++ other).toList := by
  rw [String.toList_append]
  exact List.infix_append_right

theorem writtenText_cons {token : Token} (h : token ≠ .endOfText) (later : List Token) :
    writtenText (token :: later) = token.written ++ writtenText later := by
  have hkeep : (token != .endOfText) = true := by simpa using h
  rw [writtenText, Braces.beforeEnd, List.takeWhile_cons, if_pos hkeep, List.map_cons,
    String.join_cons]
  rfl

namespace Node

/-! ## What levels hold -/

/-- A call or a placeholder. -/
inductive IsBraced : Node → Prop where
  | invocation {name : Node} {args : List Node} : IsBraced (.invocation name args)
  | placeholder {name : Node} {default : Option Node} : IsBraced (.placeholder name default)

mutual

/-- A call or a placeholder as its closing braces make it, and the text it is read from. -/
inductive ClosedFrom : Node → String → Prop where
  | invocation {children : List Node} {source : String} (h : RowFrom children source) :
      ClosedFrom (invocationFrom children) (openBraces 2 ++ source ++ closeBraces 2)
  | placeholder {children : List Node} {source : String} (h : RowFrom children source) :
      ClosedFrom (placeholderFrom children) (openBraces 3 ++ source ++ closeBraces 3)

/-- One child of a level. -/
inductive ChildFrom : Node → String → Prop where
  | text {source : String} (h : source ≠ "") : ChildFrom (.text source) source
  | closed {node : Node} {source : String} (h : ClosedFrom node source) : ChildFrom node source
  /-- A level whose braces were used up. -/
  | alone {node : Node} {source : String} (h : ClosedFrom node source) :
      ChildFrom (.plain [node]) source
  /-- A level with one brace left. -/
  | braced {node : Node} {source : String} (h : ClosedFrom node source) :
      ChildFrom (.plain [.text (openBraces 1), node]) (openBraces 1 ++ source)

/-- The children of a level, one after another. -/
inductive RowFrom : List Node → String → Prop where
  | nil : RowFrom [] ""
  | cons {child : Node} {later : List Node} {source other : String} (h : ChildFrom child source)
      (hl : RowFrom later other) : RowFrom (child :: later) (source ++ other)

end

/-- Whether it has a default or not, the name of a placeholder ends at the first bar. -/
theorem exists_placeholderFrom_eq (children : List Node) :
    ∃ default, placeholderFrom children =
      placeholder (plain (children.takeWhile fun child => !child.isText "|")) default := by
  rw [placeholderFrom]
  split
  · exact ⟨_, rfl⟩
  · exact ⟨_, rfl⟩

theorem ClosedFrom.isBraced {node : Node} {source : String} (h : ClosedFrom node source) :
    node.IsBraced := by
  cases h with
  | invocation h => exact .invocation
  | placeholder h =>
    obtain ⟨default, hnode⟩ := exists_placeholderFrom_eq _
    rw [hnode]
    exact .placeholder

theorem ChildFrom.source_eq {word source : String} (h : ChildFrom (.text word) source) :
    source = word := by
  cases h with
  | text h => rfl
  | closed h => exact absurd h.isBraced nofun

namespace RowFrom

variable {children later : List Node} {child : Node} {source other word : String}

theorem singleton (h : ChildFrom child source) : RowFrom [child] source := by
  have := cons h .nil
  rwa [String.append_empty] at this

theorem append (h : RowFrom children source) (hl : RowFrom later other) :
    RowFrom (children ++ later) (source ++ other) := by
  induction children generalizing source with
  | nil =>
    cases h
    rwa [String.empty_append]
  | cons child children ih =>
    cases h with
    | cons hchild hlater =>
      rw [String.append_assoc]
      exact .cons hchild (ih hlater)

theorem concat (h : RowFrom children source) (hc : ChildFrom child other) :
    RowFrom (children ++ [child]) (source ++ other) :=
  h.append (.singleton hc)

/-- A row is cut where it has a text: the text is read from itself. -/
theorem cut (h : RowFrom (children ++ .text word :: later) source) :
    ∃ before behind, RowFrom children before ∧ RowFrom later behind ∧
      source = before ++ word ++ behind := by
  induction children generalizing source with
  | nil =>
    cases h with
    | cons hchild hlater =>
      rw [hchild.source_eq]
      exact ⟨"", _, .nil, hlater, by rw [String.empty_append]⟩
  | cons child children ih =>
    cases h with
    | cons hchild hlater =>
      obtain ⟨before, behind, hbefore, hbehind, rfl⟩ := ih hlater
      exact ⟨_, behind, .cons hchild hbefore, hbehind, by simp only [String.append_assoc]⟩

/-- Each child is read from a piece of the source. -/
theorem exists_childFrom (h : RowFrom children source) (hmem : child ∈ children) :
    ∃ piece, ChildFrom child piece ∧ piece.toList <:+: source.toList := by
  induction children generalizing source with
  | nil => cases hmem
  | cons first later ih =>
    cases h with
    | cons hfirst hlater =>
      rcases List.mem_cons.1 hmem with rfl | hmem
      · exact ⟨_, hfirst, infix_append_left _ _⟩
      · obtain ⟨piece, hchild, hin⟩ := ih hlater hmem
        exact ⟨piece, hchild, hin.trans (infix_append_right _ _)⟩

end RowFrom

mutual

/-- The text that a construct is read from is one that it can be written as. -/
theorem ClosedFrom.renders {node : Node} {source : String} :
    ClosedFrom node source → Renders node source
  | .invocation h => renders_invocationFrom h.renders
  | .placeholder h => renders_placeholderFrom h.renders

theorem ChildFrom.renders {node : Node} {source : String} :
    ChildFrom node source → Renders node source
  | .text _ => .text source
  | .closed h => h.renders
  | .alone h => .plain (.singleton h.renders)
  | .braced h => .plain (.cons (.text _) (.singleton h.renders))

theorem RowFrom.renders {children : List Node} {source : String} :
    RowFrom children source → RendersAll children source
  | .nil => .nil
  | .cons h hl => .cons h.renders hl.renders

end

/-- A child of the root: one that a level could hold, or a group for a level that was never
    closed. -/
inductive StandsOn (page : String) : Node → Prop where
  | child {node : Node} {source : String} (h : ChildFrom node source)
      (hin : source.toList <:+: page.toList) : StandsOn page node
  | unclosed {children : List Node} (h : ∀ child ∈ children, StandsOn page child) :
      StandsOn page (.plain children)

end Node

namespace Braces

open Node (ClosedFrom ChildFrom RowFrom StandsOn)

/-! ## The stack as a row -/

/-- All that the stack holds, in the order of the text. -/
def Stack.spread (stack : Stack) : List Node :=
  stack.root.reverse ++ stack.levels.reverse.flatMap fun level =>
    .text (openBraces level.outstanding) :: level.done.reverse

theorem Stack.spread_cons (level : Level) (outer : List Level) (root : List Node) :
    spread ⟨level :: outer, root⟩ =
      spread ⟨outer, root⟩ ++ .text (openBraces level.outstanding) :: level.done.reverse := by
  simp [spread]

theorem Stack.spread_add (children : List Node) (stack : Stack) :
    (stack.add children).spread = stack.spread ++ children := by
  obtain ⟨levels, root⟩ := stack
  cases levels with
  | nil => simp [spread, add]
  | cons level outer => simp [spread, add]

section Piece

variable {n taken : Nat} {level : Level} {construct : Node}

theorem Piece.closedFrom (hpiece : Piece n level taken construct) {inside : String}
    (h : RowFrom level.done.reverse inside) :
    ClosedFrom construct (openBraces taken ++ inside ++ closeBraces taken) := by
  cases hpiece with
  | call hcall => exact .invocation h
  | placeholder hcall => exact .placeholder h

/-- The braces that a piece takes are there, on either side. -/
theorem Piece.le (hpiece : Piece n level taken construct) (hn : 2 ≤ n) :
    taken ≤ n ∧ taken ≤ level.outstanding := by
  have hopen := level.two_le
  cases hpiece with
  | call hcall => exact ⟨hn, hopen⟩
  | placeholder hcall => omega

/-- **A piece of a closing run** cuts the row at the braces of the level: the braces that it takes
    go to the construct, and the others stay where they are. -/
theorem Piece.cut (hpiece : Piece n level taken construct) (hn : 2 ≤ n) {outer : List Level}
    {root : List Node} {source : String}
    (h : RowFrom (Stack.spread ⟨level :: outer, root⟩) source) :
    ∃ before closed, RowFrom (Stack.spread ⟨outer, root⟩) before ∧ ClosedFrom construct closed ∧
      source ++ closeBraces n = before ++ (openBraces (level.outstanding - taken) ++ closed) ++
        closeBraces (n - taken) := by
  rw [Stack.spread_cons] at h
  obtain ⟨before, inside, hbefore, hinside, rfl⟩ := h.cut
  obtain ⟨hclose, hopen⟩ := hpiece.le hn
  refine ⟨before, _, hbefore, hpiece.closedFrom hinside, ?_⟩
  have hbraces : openBraces level.outstanding =
      openBraces (level.outstanding - taken) ++ openBraces taken := by
    rw [← openBraces_add, Nat.sub_add_cancel hopen]
  have hrun : closeBraces n = closeBraces taken ++ closeBraces (n - taken) := by
    rw [← closeBraces_add, Nat.add_sub_cancel' hclose]
  rw [hbraces, hrun]
  simp only [String.append_assoc]

end Piece

/-! ## What the machine holds -/

namespace Machine

/-- At this moment the page is what the stack was read from, and what is still to be read.  When all
    is read, what the stack holds stands on the page. -/
def Holds (page : String) : Machine → Prop
  | reading stack tokens => ∃ source, RowFrom stack.spread source ∧
      page = source ++ writtenText tokens ∧ .text "" ∉ tokens
  | closing braces stack later => ∃ source, RowFrom stack.spread source ∧
      page = source ++ closeBraces braces ++ writtenText later ∧ .text "" ∉ later
  | ending stack => ∀ child ∈ stack.spread, StandsOn page child

variable {page : String} {stack next : Stack} {later : List Token}

/-- Reading a token keeps the page when it adds to the row what the token adds to the text. -/
theorem Holds.read {token : Token} (h : Holds page (reading stack (token :: later)))
    (hend : token ≠ .endOfText)
    (hnext : ∀ {source}, token ≠ .text "" → RowFrom stack.spread source →
      RowFrom next.spread (source ++ token.written)) : Holds page (reading next later) := by
  obtain ⟨source, hrow, hpage, hempty⟩ := h
  rw [List.mem_cons, not_or] at hempty
  refine ⟨source ++ token.written, hnext (Ne.symm hempty.1) hrow, ?_, hempty.2⟩
  rw [hpage, writtenText_cons hend, String.append_assoc]

/-- Placing a piece of a closing run keeps the page. -/
theorem Holds.place {n rest : Nat} (h : Holds page (closing n stack later))
    (hnext : ∀ {source}, RowFrom stack.spread source → ∃ placed, RowFrom next.spread placed ∧
      source ++ closeBraces n = placed ++ closeBraces rest) :
    Holds page (closing rest next later) := by
  obtain ⟨source, hrow, hpage, hempty⟩ := h
  obtain ⟨placed, hplaced, hsource⟩ := hnext hrow
  exact ⟨placed, hplaced, by rw [hpage, hsource], hempty⟩

/-- When the last of a closing run is placed, reading goes on. -/
theorem Holds.placed (h : Holds page (closing 0 stack later)) :
    Holds page (reading stack later) := by
  obtain ⟨source, hrow, hpage, hempty⟩ := h
  rw [closeBraces_zero, String.append_empty] at hpage
  exact ⟨source, hrow, hpage, hempty⟩

/-- What is held when nothing is left to read stands on the page. -/
theorem Holds.end {tokens : List Token} (h : Holds page (reading stack tokens))
    (hend : writtenText tokens = "") : Holds page (ending stack) := by
  obtain ⟨source, hrow, hpage, -⟩ := h
  rw [hend, String.append_empty] at hpage
  subst hpage
  intro child hchild
  obtain ⟨piece, hfrom, hin⟩ := hrow.exists_childFrom hchild
  exact .child hfrom hin

theorem rowFrom_addText {source word : String} (h : RowFrom stack.spread source)
    (hword : word ≠ "") : RowFrom (stack.add [.text word]).spread (source ++ word) := by
  rw [Stack.spread_add]
  exact h.concat (.text hword)

/-- **One step** keeps the page. -/
theorem Step.holds {before after : Machine} (hstep : Step before after)
    (h : before.Holds page) : after.Holds page := by
  cases hstep with
  | openNone =>
    apply h.read nofun
    intro source _ hrow
    show RowFrom _ (source ++ openBraces 0)
    rwa [openBraces_zero, String.append_empty]
  | openOne => exact h.read nofun fun _ hrow => rowFrom_addText hrow (braces_ne_empty (by omega) _)
  | @opened stack later n hn hfree =>
    have hpos : 0 < n := Nat.lt_of_lt_of_le Nat.zero_lt_two hn
    apply h.read nofun
    intro source _ hrow
    rw [Stack.spread_cons]
    exact hrow.concat (.text (braces_ne_empty hpos _))
  | @full stack later n hn hfull =>
    have hpos : 0 < n := Nat.lt_of_lt_of_le Nat.zero_lt_two hn
    exact h.read nofun fun _ hrow => rowFrom_addText hrow (braces_ne_empty hpos _)
  | @closed stack later n =>
    obtain ⟨source, hrow, hpage, hempty⟩ := h
    have hend : Token.closeRun n ≠ .endOfText := nofun
    rw [writtenText_cons hend, ← String.append_assoc] at hpage
    exact ⟨source, hrow, hpage, List.not_mem_of_not_mem_cons hempty⟩
  | skipped =>
    apply h.read nofun
    intro source _ hrow
    show RowFrom _ (source ++ "")
    rwa [String.append_empty]
  | literal hliteral =>
    rcases hliteral with rfl | rfl | ⟨source, rfl⟩
    · exact h.read nofun fun _ hrow => rowFrom_addText hrow nofun
    · exact h.read nofun fun _ hrow => rowFrom_addText hrow nofun
    · exact h.read nofun fun hempty hrow => rowFrom_addText hrow fun heq => hempty (heq ▸ rfl)
  | ended => exact h.end rfl
  | exhausted => exact h.end rfl
  | placed => exact h.placed
  | closeOne =>
    apply Holds.placed
    apply h.place
    intro source hrow
    exact ⟨_, rowFrom_addText hrow (braces_ne_empty (by omega) _), String.append_empty.symm⟩
  | stray hn =>
    apply Holds.placed
    apply h.place
    intro source hrow
    exact ⟨_, rowFrom_addText hrow (braces_ne_empty (by omega) _), String.append_empty.symm⟩
  | usedUp hn hpiece hleft =>
    apply h.place
    intro source hrow
    obtain ⟨before, closed, hbefore, hclosed, hsource⟩ := hpiece.cut hn hrow
    rw [hleft, openBraces_zero, String.empty_append] at hsource
    rw [Stack.spread_add]
    exact ⟨_, hbefore.concat (.alone hclosed), hsource⟩
  | braceLeft hn hpiece hleft =>
    apply h.place
    intro source hrow
    obtain ⟨before, closed, hbefore, hclosed, hsource⟩ := hpiece.cut hn hrow
    rw [hleft] at hsource
    rw [Stack.spread_add]
    exact ⟨_, hbefore.concat (.braced hclosed), hsource⟩
  | stillOpen hn hpiece hleft =>
    apply h.place
    intro source hrow
    obtain ⟨before, closed, hbefore, hclosed, hsource⟩ := hpiece.cut hn hrow
    rw [Stack.spread_cons]
    have hbraces := ChildFrom.text (braces_ne_empty (Nat.lt_of_lt_of_le Nat.zero_lt_two hleft) '{')
    exact ⟨_, hbefore.append (.cons hbraces (.singleton (.closed hclosed))), hsource⟩
  | @unclosed level outer root =>
    have hall : ∀ child ∈ Stack.spread ⟨level :: outer, root⟩, StandsOn page child := h
    rw [Stack.spread_cons, List.forall_mem_append] at hall
    show ∀ child ∈ Stack.spread _, StandsOn page child
    rw [Stack.spread_add, List.forall_mem_append, List.forall_mem_singleton]
    exact ⟨hall.1, .unclosed hall.2⟩

/-- **A run** keeps the page. -/
theorem holds_of_reaches {before after : Machine} (hreach : Relation.ReflTransGen Step before after)
    (h : before.Holds page) : after.Holds page := by
  induction hreach with
  | refl => exact h
  | tail _ hstep ih => exact hstep.holds ih

end Machine
end Braces

/-- **What a tree is made of**: where no text is empty, each child of the root stands on the text of
    the tokens that are read. -/
theorem Node.children_standOn {tokens : List Token} (h : .text "" ∉ tokens) :
    ∃ children, ofTokens tokens = plain children ∧
      ∀ child ∈ children, StandsOn (writtenText tokens) child := by
  have hstart : (Braces.Machine.start tokens).Holds (writtenText tokens) :=
    ⟨"", .nil, String.empty_append.symm, h⟩
  have hreach := (Braces.Machine.reaches_halted_iff (.start tokens) _).2 rfl
  have hhalted := Braces.Machine.holds_of_reaches hreach hstart
  refine ⟨_, ofTokens_eq_run tokens, ?_⟩
  simpa [Braces.Machine.halted, Braces.Machine.Holds, Braces.Machine.outcome_start,
    Braces.Stack.spread] using hhalted

end Transclusion
