/-
  Printed trees are read back.

  Closing braces of constructs that end together are printed side by side, and the tokenizer takes
  them as one run.  The run is told apart again by the open levels: each takes as many braces of it
  as it was opened by, two or three, and leaves the rest to the level around it.

  The reading of a piece is stated for any stack with enough levels left and for any text that may
  stand behind it (`Ends`): the piece has then been added to the innermost level (`Reads`).
  `IsSequence.reads` shows it for all sequences, one case per way to build one; `Node.parse_print`
  is the case of no open level and nothing behind.
-/
import Transclusion.Proofs.Braces.Stack
import Transclusion.Proofs.Node.Depth
import Transclusion.Proofs.Node.Separated
import Transclusion.Proofs.Token.Lexing

namespace Transclusion

namespace Braces

/-! ## What stands behind printed items -/

/-- What may stand behind printed items: nothing, a bar or a closing brace. -/
def Ends (after : List Char) : Prop := ∀ c, after.head? = some c → c = '|' ∨ c = '}'

theorem Ends.special {after : List Char} (h : Ends after) :
    ∀ c, after.head? = some c → Lexer.isSpecial c = true := by
  intro c hc
  rcases h c hc with rfl | rfl
  · rfl
  · rfl

theorem Ends.head?_ne_open {after : List Char} (h : Ends after) : after.head? ≠ some '{' := by
  intro hopen
  rcases h _ hopen with heq | heq
  · exact absurd heq (by decide)
  · exact absurd heq (by decide)

theorem Ends.nil : Ends [] := nofun

theorem Ends.bar (after : List Char) : Ends ('|' :: after) := by
  rintro c hc
  cases hc
  exact .inl rfl

/-- Items may stand in front of the braces that close the construct around them. -/
theorem Ends.close {n : Nat} (hn : 2 ≤ n) (after : List Char) :
    Ends (List.replicate n '}' ++ after) := by
  intro c hc
  match n, hn with
  | n + 2, _ =>
    cases hc
    exact .inr rfl

/-- Items may stand in front of arguments and of what is behind these. -/
theorem Ends.args (args : List Node) {after : List Char} (h : Ends after) :
    Ends (Node.printArgs args ++ after) := by
  cases args with
  | nil => exact h
  | cons arg later => exact .bar _

namespace Stack

/-! ## Reading one piece of text -/

theorem run_text (source : String) (stack : Stack) (later : List Token) :
    stack.run (.text source :: later) = (stack.add [.text source]).run later :=
  run_cons (.text source) nofun stack later

theorem run_lex_bar (stack : Stack) (after : List Char) :
    stack.run (Lexer.lex ('|' :: after)) = (stack.add [.text "|"]).run (Lexer.lex after) := by
  rw [Lexer.lex_bar, run_text]

/-- An ordinary text is read up to the next special character. -/
theorem run_lex_text {source : String} (h : Node.IsOrdinary source) {after : List Char}
    (hafter : ∀ c, after.head? = some c → Lexer.isSpecial c = true) (stack : Stack) :
    stack.run (Lexer.lex (source.toList ++ after)) =
      (stack.add [.text source]).run (Lexer.lex after) := by
  have hne : source.toList ≠ [] := fun hnil => h.ne_empty (String.toList_eq_nil_iff.1 hnil)
  have hplain : ∀ c ∈ source.toList, Lexer.isSpecial c = false := by
    intro c hc
    have := h.not_markup c hc
    simpa [Lexer.isSpecial, Node.markupChars, and_assoc] using this
  rw [Lexer.lex_text hne hplain hafter, String.ofList_toList, run_text]

theorem run_lex_open {n : Nat} (hn : 2 ≤ n) {stack : Stack}
    (hfree : stack.levels.length < maxLevels) {after : List Char} (hafter : after.head? ≠ some '{') :
    stack.run (Lexer.lex (List.replicate n '{' ++ after)) =
      run ⟨⟨n, [], hn⟩ :: stack.levels, stack.root⟩ (Lexer.lex after) := by
  rw [Lexer.lex_openRun hn hafter, run_cons (.openRun n) nofun, step_openRun hn, if_pos hfree]

/-- Closing braces side by side are one step, however many they are. -/
theorem run_lex_closeRun (n : Nat) (stack : Stack) {after : List Char}
    (hafter : after.head? ≠ some '}') :
    stack.run (Lexer.lex (List.replicate n '}' ++ after)) =
      (stack.step (.closeRun n)).run (Lexer.lex after) := by
  match n with
  | 0 => rfl
  | 1 =>
    show stack.run (Lexer.lex ('}' :: after)) = _
    rw [Lexer.lex_close hafter, run_text]
    rfl
  | n + 2 =>
    rw [Lexer.lex_closeRun (Nat.le_add_left 2 n) hafter, run_cons (.closeRun (n + 2)) nofun]

/-- **Braces are told apart again**: a level of two or three braces takes exactly its own off the
    run that they are printed in. -/
theorem run_lex_close {n : Nat} (hn : n = 2 ∨ n = 3) (h2 : 2 ≤ n) (done : List Node)
    (outer : List Level) (root : List Node) (after : List Char) :
    run ⟨⟨n, done, h2⟩ :: outer, root⟩ (Lexer.lex (List.replicate n '}' ++ after)) =
      run (add [.plain [constructOf n done.reverse]] ⟨outer, root⟩) (Lexer.lex after) := by
  obtain ⟨later, hlater, hhead⟩ := Lexer.eq_replicate_append '}' after
  generalize Lexer.runLength '}' after = more at hlater
  -- a level of three gives up two braces only to a run of two, and here the run is longer
  have htaken : bracesTaken (n + more) n = n := by
    rcases hn with rfl | rfl
    · simp [bracesTaken]
    · have : ¬ 3 + more = 2 := by omega
      simp [bracesTaken, this]
  -- the tokenizer sees the level's braces and those behind them as one run
  have hjoined : List.replicate n '}' ++ after = List.replicate (n + more) '}' ++ later := by
    rw [hlater, ← List.append_assoc, List.replicate_append_replicate]
  rw [hjoined, run_lex_closeRun (n + more) _ hhead, step_closeRun (by omega), close_cons]
  simp only [htaken]
  rw [take_zero (Nat.sub_self n), Nat.add_sub_cancel_left, hlater, run_lex_closeRun more _ hhead]

end Stack

/-! ## Reading printed trees -/

/-- Printed items are read, wherever they stand with levels enough left, and collapse to
    themselves. -/
def Reads (items : List Node) : Prop :=
  ∀ (stack : Stack) (after : List Char), Ends after →
    stack.levels.length + Node.deepest items ≤ maxLevels →
    ∃ children : List Node, children.map Node.collapse = items ∧
      stack.run (Lexer.lex (Node.printAll items ++ after)) =
        (stack.add children).run (Lexer.lex after)

/-- A printed construct is read, whatever stands behind it. -/
def ReadsConstruct (node : Node) : Prop :=
  ∀ (stack : Stack) (after : List Char), stack.levels.length + node.constructDepth ≤ maxLevels →
    ∃ child : Node, child.collapse = node ∧
      stack.run (Lexer.lex (node.printChars ++ after)) = (stack.add [child]).run (Lexer.lex after)

/-- Printed arguments are read, each behind its bar. -/
def ReadsArgs (args : List (List Node)) : Prop :=
  ∀ (stack : Stack) (after : List Char), Ends after →
    stack.levels.length + Node.deepest (args.map Node.group) ≤ maxLevels →
    ∃ parts : List (List Node), parts.map (List.map Node.collapse) = args ∧
      stack.run (Lexer.lex (Node.printArgs (args.map Node.group) ++ after)) =
        (stack.add (Node.barred parts)).run (Lexer.lex after)

theorem Reads.nil : Reads [] := by
  intro stack after _ _
  exact ⟨[], rfl, by rw [Stack.add_nil]; rfl⟩

/-- An ordinary text is read up to the item behind it, which is no text. -/
theorem Reads.text {source : String} {later : List Node} (h : Node.IsOrdinary source)
    (hapart : ∀ other, later.head? ≠ some (.text other)) (hl : Node.IsSequence later)
    (hr : Reads later) : Reads (.text source :: later) := by
  intro stack after hafter hdepth
  -- what follows is no text, so the tokenizer stops in front of it
  have hstop : ∀ c, (Node.printAll later ++ after).head? = some c → Lexer.isSpecial c = true := by
    cases later with
    | nil => exact hafter.special
    | cons node later =>
      obtain ⟨c, cs, hcs, ⟨⟨other, rfl⟩, -⟩ | ⟨-, rfl⟩⟩ := hl.exists_cons
      · exact absurd rfl (hapart other)
      · rw [hcs]
        rintro c hc
        cases hc
        rfl
  rw [Node.deepest_cons, Node.constructDepth_text, Nat.zero_max] at hdepth
  obtain ⟨children, hchildren, hrun⟩ := hr (stack.add [.text source]) after hafter
    (by rwa [Stack.length_levels_add])
  refine ⟨.text source :: children, ?_, ?_⟩
  · rw [List.map_cons, Node.collapse_text, hchildren]
  · rw [Node.printAll, Node.printChars, List.append_assoc, Stack.run_lex_text h hstop, hrun,
      Stack.add_add]
    rfl

theorem Reads.construct {node : Node} {later : List Node} (h : ReadsConstruct node)
    (hr : Reads later) : Reads (node :: later) := by
  intro stack after hafter hdepth
  rw [Node.deepest_cons] at hdepth
  obtain ⟨child, hchild, hfirst⟩ := h stack (Node.printAll later ++ after) (by omega)
  obtain ⟨children, hchildren, hrest⟩ := hr (stack.add [child]) after hafter
    (by rw [Stack.length_levels_add]; omega)
  refine ⟨child :: children, ?_, ?_⟩
  · rw [List.map_cons, hchild, hchildren]
  · rw [Node.printAll, List.append_assoc, hfirst, hrest, Stack.add_add]
    rfl

theorem ReadsArgs.nil : ReadsArgs [] := by
  intro stack after _ _
  exact ⟨[], rfl, by rw [Node.barred, List.flatMap_nil, Stack.add_nil]; rfl⟩

theorem ReadsArgs.cons {arg : List Node} {later : List (List Node)} (h : Reads arg)
    (hl : ReadsArgs later) : ReadsArgs (arg :: later) := by
  intro stack after hafter hdepth
  rw [List.map_cons, Node.deepest_cons, Node.constructDepth_group] at hdepth
  obtain ⟨part, hpart, hfirst⟩ := h (stack.add [.text "|"])
    (Node.printArgs (later.map Node.group) ++ after) (hafter.args _)
    (by rw [Stack.length_levels_add]; omega)
  obtain ⟨parts, hparts, hrest⟩ := hl ((stack.add [.text "|"]).add part) after hafter
    (by rw [Stack.length_levels_add, Stack.length_levels_add]; omega)
  refine ⟨part :: parts, ?_, ?_⟩
  · rw [List.map_cons, hpart, hparts]
  · rw [List.map_cons, Node.printArgs, Node.printChars_group, List.cons_append, List.append_assoc,
      Stack.run_lex_bar, hfirst, hrest, Stack.add_add, Stack.add_add, Node.barred_cons]
    rfl

/-- A construct is read when what stands between its braces is, and collapses to it. -/
theorem ReadsConstruct.of_inside {n : Nat} (hn : n = 2 ∨ n = 3) (inside : List Char) {node : Node}
    {depth : Nat} (hdepth : node.constructDepth = depth + 1)
    (hprint : node.printChars = List.replicate n '{' ++ (inside ++ List.replicate n '}'))
    (hhead : ∀ after, Ends after → (inside ++ after).head? ≠ some '{')
    (hinside : ∀ (stack : Stack) (after : List Char), Ends after →
      stack.levels.length + depth ≤ maxLevels →
      ∃ children : List Node, (constructOf n children).collapse = node ∧
        stack.run (Lexer.lex (inside ++ after)) = (stack.add children).run (Lexer.lex after)) :
    ReadsConstruct node := by
  intro stack after hroom
  have h2 : 2 ≤ n := by omega
  have hclose : Ends (List.replicate n '}' ++ after) := .close h2 after
  -- inside, one more level is open and the tree is one construct less deep
  have hinner : stack.levels.length + 1 + depth ≤ maxLevels := by omega
  obtain ⟨children, hcollapse, hrun⟩ :=
    hinside ⟨⟨n, [], h2⟩ :: stack.levels, stack.root⟩ _ hclose hinner
  refine ⟨.plain [constructOf n children], ?_, ?_⟩
  · rw [Node.collapse_plain_singleton, hcollapse]
  · rw [hprint, List.append_assoc, List.append_assoc,
      Stack.run_lex_open h2 (by omega) (hhead _ hclose), hrun]
    show Stack.run ⟨⟨n, children.reverse ++ [], h2⟩ :: stack.levels, stack.root⟩ _ = _
    rw [Stack.run_lex_close hn h2, List.append_nil, List.reverse_reverse]

theorem ReadsConstruct.invocation {name : List Node} {args : List (List Node)}
    (hname : Node.IsSequence name) (hbegin : Node.BeginsWithText name)
    (hargs : Node.AreSequences args) (hlast : args.getLast? ≠ some []) (hrn : Reads name)
    (hra : ReadsArgs args) :
    ReadsConstruct (.invocation (Node.group name) (args.map Node.group)) := by
  have hdepth := Node.constructDepth_invocation (Node.group name) (args.map Node.group)
  rw [Node.constructDepth_group] at hdepth
  refine .of_inside (.inl rfl) (Node.printAll name ++ Node.printArgs (args.map Node.group)) hdepth
    ?_ ?_ ?_
  · rw [Node.printChars, Node.printChars_group, List.append_assoc]
  · intro after hafter
    rw [List.append_assoc]
    exact hname.head?_ne_open hbegin (hafter.args _).head?_ne_open
  · intro stack after hafter hroom
    obtain ⟨children, hchildren, hreadName⟩ := hrn stack _ (hafter.args _) (by omega)
    obtain ⟨parts, hparts, hreadArgs⟩ := hra (stack.add children) after hafter
      (by rw [Stack.length_levels_add]; omega)
    refine ⟨children ++ Node.barred parts, ?_, ?_⟩
    · subst hchildren hparts
      exact Node.collapse_invocationFrom hname hargs hlast
    · rw [List.append_assoc, hreadName, hreadArgs, Stack.add_add]

theorem ReadsConstruct.placeholder {name : List Node} (hname : Node.IsSequence name)
    (hbegin : Node.BeginsWithText name) (hrn : Reads name) :
    ReadsConstruct (.placeholder (Node.group name) none) := by
  have hdepth := Node.constructDepth_placeholder_none (Node.group name)
  rw [Node.constructDepth_group] at hdepth
  refine .of_inside (.inr rfl) (Node.printAll name) hdepth ?_ ?_ ?_
  · rw [Node.printChars, Node.printChars_group]
  · intro after hafter
    exact hname.head?_ne_open hbegin hafter.head?_ne_open
  · intro stack after hafter hroom
    obtain ⟨children, hchildren, hreadName⟩ := hrn stack after hafter hroom
    refine ⟨children, ?_, hreadName⟩
    subst hchildren
    exact Node.collapse_placeholderFrom_name hname

theorem ReadsConstruct.withDefault {name default : List Node} (hname : Node.IsSequence name)
    (hbegin : Node.BeginsWithText name) (hrn : Reads name) (hrd : Reads default) :
    ReadsConstruct (.placeholder (Node.group name) (some (Node.group default))) := by
  have hdepth := Node.constructDepth_placeholder_some (Node.group name) (Node.group default)
  rw [Node.constructDepth_group, Node.constructDepth_group] at hdepth
  refine .of_inside (.inr rfl) (Node.printAll name ++ '|' :: Node.printAll default) hdepth ?_ ?_ ?_
  · rw [Node.printChars, Node.printChars_group, Node.printChars_group, List.append_assoc]
    rfl
  · intro after _
    rw [List.append_assoc]
    exact hname.head?_ne_open hbegin (Ends.bar _).head?_ne_open
  · intro stack after hafter hroom
    obtain ⟨children, hchildren, hreadName⟩ := hrn stack _ (.bar (Node.printAll default ++ after))
      (by omega)
    obtain ⟨behind, hbehind, hreadDefault⟩ := hrd ((stack.add children).add [.text "|"]) after
      hafter (by rw [Stack.length_levels_add, Stack.length_levels_add]; omega)
    refine ⟨children ++ .text "|" :: behind, ?_, ?_⟩
    · subst hchildren hbehind
      exact Node.collapse_placeholderFrom_default hname
    · rw [List.append_assoc, List.cons_append, hreadName, Stack.run_lex_bar, hreadDefault,
        Stack.add_add, Stack.add_add]
      rfl

end Braces

namespace Node

mutual

/-- **Every printed sequence is read back**, one case for each way to build it. -/
theorem IsSequence.reads {items : List Node} (h : IsSequence items) : Braces.Reads items := by
  match h with
  | .nil => exact .nil
  | .text hordinary hapart hl => exact .text hordinary hapart hl hl.reads
  | .construct hnode hl => exact .construct hnode.reads hl.reads

theorem IsConstruct.reads {node : Node} (h : IsConstruct node) : Braces.ReadsConstruct node := by
  match h with
  | .invocation hname hbegin hargs hlast =>
    exact .invocation hname hbegin hargs hlast hname.reads hargs.reads
  | .placeholder hname hbegin => exact .placeholder hname hbegin hname.reads
  | .withDefault hname hbegin hdefault =>
    exact .withDefault hname hbegin hname.reads hdefault.reads

theorem AreSequences.reads {args : List (List Node)} (h : AreSequences args) :
    Braces.ReadsArgs args := by
  match h with
  | .nil => exact .nil
  | .cons harg hl => exact .cons harg.reads hl.reads

end

/-- **Printing and reading are inverse** on sequences: as long as no path crosses more than
    `maxLevels` calls and placeholders, a printed sequence is read as the same tree. -/
theorem parse_print {items : List Node} (h : IsSequence items)
    (hdepth : ∀ count, (group items).Crosses count → count ≤ Braces.maxLevels) :
    parse (group items).print = group items := by
  rw [← constructDepth_le_iff, constructDepth_group] at hdepth
  obtain ⟨children, hchildren, hrun⟩ := h.reads Braces.Stack.empty [] .nil
    (by rw [Braces.Stack.empty, List.length_nil, Nat.zero_add]; exact hdepth)
  have hread : Braces.Stack.empty.run (Lexer.lex (printAll items)) =
      Braces.Stack.empty.add children := by
    rwa [List.append_nil, Lexer.lex_nil, Braces.Stack.run_endOfText] at hrun
  have hfinish : (Braces.Stack.empty.add children).finish = children := by
    simp [Braces.Stack.empty, Braces.Stack.add, Braces.Stack.finish, Braces.Stack.unclosed]
  rw [parse, print, printChars_group, tokenize_eq_lex h.not_mem_printAll, ofTokens_eq_run, hread,
    hfinish, collapse_plain_eq_group, hchildren]

/-- A call around a placeholder around a call, which end together. -/
def nestedCall : Node :=
  .invocation (.text "t") [.text "b",
    .placeholder (.text "c") (some (.invocation (.text "d") []))]

/-- Seven closing braces in one run are told apart. -/
theorem parse_print_nestedCall :
    (plain [.text "a", nestedCall]).print =
      "a\x7b\x7bt|b|\x7b\x7b\x7bc|\x7b\x7bd\x7d\x7d\x7d\x7d\x7d\x7d\x7d" ∧
    parse (plain [.text "a", nestedCall]).print = plain [.text "a", nestedCall] := by
  have single : ∀ source, IsOrdinary source → IsSequence [.text source] := fun _ h =>
    .text h nofun .nil
  have letter : ∀ c, c ∉ markupChars → IsOrdinary (String.ofList [c]) := by
    intro c hc
    refine ⟨by simp, ?_⟩
    intro d hd
    rw [String.toList_ofList, List.mem_singleton] at hd
    rwa [hd]
  have hd : IsConstruct (.invocation (group [.text "d"]) ([].map group)) :=
    .invocation (single "d" (letter 'd' (by decide))) (.text "d" []) .nil nofun
  have hc : IsConstruct
      (.placeholder (group [.text "c"]) (some (group [.invocation (.text "d") []]))) :=
    .withDefault (single "c" (letter 'c' (by decide))) (.text "c" []) (.construct hd .nil)
  have hargs : AreSequences [[.text "b"],
      [.placeholder (.text "c") (some (.invocation (.text "d") []))]] :=
    .cons (single "b" (letter 'b' (by decide))) (.cons (.construct hc .nil) .nil)
  have hcall : IsConstruct nestedCall :=
    .invocation (single "t" (letter 't' (by decide))) (.text "t" []) hargs (by decide)
  have h : IsSequence (.text "a" :: [nestedCall]) :=
    .text (letter 'a' (by decide)) (by simp [nestedCall]) (.construct hcall .nil)
  constructor
  · decide
  · have hdepth : (group (.text "a" :: [nestedCall])).constructDepth ≤ Braces.maxLevels := by
      decide
    have hparse := parse_print h (constructDepth_le_iff.1 hdepth)
    have hgroup : group (.text "a" :: [nestedCall]) = plain [.text "a", nestedCall] := rfl
    rwa [hgroup] at hparse

end Node

end Transclusion
