/-
  A call in the argument of a call in the argument of a call.

  All openings of such a chain come first, each with a name and a bar, and all closings come last,
  in one run.  Reading opens a level for each opening as long as `maxLevels` allows, and makes text
  of the openings behind them (`Stack.run_openings`).  The closing run is then placed piece by
  piece: each level takes two braces, and what is left when no level is open is text
  (`Stack.step_closeRun_openings`).  So the tree has one call for each level, and behind them the
  closings of the openings that became text.

  Evaluation goes the same way inwards: each call evaluates its argument first, one node deeper,
  and then stands for its body.  The default limit of nodes leaves room for all levels that can be
  open.

  Main statement, `Expander.expand_chain`.
-/
import Transclusion.Proofs.Braces.Pair
import Transclusion.Proofs.Expansion.Articles
import Transclusion.Proofs.Expansion.Cycles
import Transclusion.Proofs.Expansion.Unmatched

namespace Transclusion

namespace Node

/-! ## Calls in each other's arguments -/

/-- A group in the argument of a call, which is in the argument of a call, and so on. -/
def inCalls (name : String) (inner : Node) : (count : Nat) → Node
  | 0 => inner
  | count + 1 => inCalls name (plain [invocationFrom [text name, text "|", inner]]) count

/-- A call in the argument of a call, and so on, each of them with one argument. -/
def calls (name : String) (inner : Node) : (count : Nat) → Node
  | 0 => inner
  | count + 1 => calls name (invocation (text name) [inner]) count

/-- The groups go when the tree is collapsed. -/
theorem collapse_inCalls {name : String} (hname : IsOrdinary name) (children : List Node)
    (count : Nat) :
    (inCalls name (plain children) count).collapse =
      calls name (plain children).collapse count := by
  induction count generalizing children with
  | zero => rfl
  | succ count ih =>
    have hnoMarks : ∀ part ∈ [[plain children]], NoMarks part := by
      intro part hpart child hchild source _
      rw [List.mem_singleton.1 hpart, List.mem_singleton] at hchild
      rw [hchild]
      rfl
    have hcall : invocationFrom [text name, text "|", plain children] =
        invocation (plain [text name]) [plain [plain children]] :=
      invocationFrom_barred hname.noMarks hnoMarks (by simp)
    rw [inCalls, ih, hcall, calls]
    simp only [collapse_plain_singleton, collapse_invocation, collapse_text, List.map_cons,
      List.map_nil]

/-- The name of a call ends at its first bar, and everything behind that is arguments. -/
theorem invocationFrom_bar {name : List Node} (h : NoMarks name) (rest : List Node) :
    invocationFrom (name ++ text "|" :: rest) =
      invocation (plain name) (partArguments [] [] 0 rest) := by
  have hbar : (!(text "|").endsName) = false := rfl
  simp only [invocationFrom]
  rw [List.takeWhile_append_of_pos h.endsName, List.dropWhile_append_of_pos h.endsName,
    List.takeWhile_cons, List.dropWhile_cons, hbar]
  simp

/-- The arguments made of texts are texts in groups. -/
theorem isLiteral_partArguments {arg children : List Node} (links : Int)
    (harg : ∀ node ∈ arg, node.IsLiteral 0) (h : ∀ node ∈ children, node.IsLiteral 0) :
    ∀ node ∈ partArguments [] arg links children, node.IsLiteral 1 := by
  have hgroup : ∀ {arg : List Node}, (∀ node ∈ arg, node.IsLiteral 0) →
      (plain arg.reverse).IsLiteral 1 := fun harg =>
    .plain fun node hnode => harg node (List.mem_reverse.1 hnode)
  induction children generalizing arg links with
  | nil =>
    unfold partArguments
    split
    · exact List.forall_mem_nil _
    · exact List.forall_mem_singleton.2 (hgroup harg)
  | cons child later ih =>
    obtain ⟨hchild, hlater⟩ := List.forall_mem_cons.1 h
    have hmore := List.forall_mem_cons.2 ⟨hchild, harg⟩
    simp only [partArguments]
    split
    · exact ih _ hmore hlater
    · split
      · exact ih _ hmore hlater
      · split
        · rw [partArguments_eq_append]
          exact List.forall_mem_cons.2 ⟨hgroup harg, ih _ (List.forall_mem_nil _) hlater⟩
        · exact ih _ hmore hlater

end Node

namespace Braces

open Node

/-! ## Openings -/

/-- How a call with arguments begins. -/
def opening (name : String) : List Char := List.replicate 2 '{' ++ (name.toList ++ ['|'])

/-- The level of a call of which the name and a bar were read. -/
def namedLevel (name : String) : Level := ⟨2, [.text "|", .text name], Nat.le_refl 2⟩

/-- An opening as text. -/
def openingTexts (name : String) : List Node := [.text (openBraces 2), .text name, .text "|"]

namespace Stack

variable {name : String}

theorem run_lex_opening (hname : IsOrdinary name) (stack : Stack) (after : List Char) :
    stack.run (Lexer.lex (opening name ++ after)) =
      (((stack.step (.openRun 2)).add [.text name]).add [.text "|"]).run (Lexer.lex after) := by
  have hhead : (name.toList ++ '|' :: after).head? ≠ some '{' := by
    obtain ⟨c, cs, hcs, hc⟩ := hname.exists_cons
    rw [hcs]
    rintro ⟨⟩
    exact hc (by decide)
  have hchars : opening name ++ after = List.replicate 2 '{' ++ (name.toList ++ '|' :: after) := by
    simp [opening]
  rw [hchars, Lexer.lex_openRun (Nat.le_refl 2) hhead, run_cons (.openRun 2) nofun,
    run_lex_text hname (Ends.bar after).special, run_lex_bar]

/-- Below the limit an opening opens a level. -/
theorem run_opening_of_lt (hname : IsOrdinary name) {stack : Stack}
    (hfree : stack.levels.length < maxLevels) (after : List Char) :
    stack.run (Lexer.lex (opening name ++ after)) =
      run ⟨namedLevel name :: stack.levels, stack.root⟩ (Lexer.lex after) := by
  rw [run_lex_opening hname, step_openRun (Nat.le_refl 2), if_pos hfree]
  rfl

/-- At the limit an opening is text. -/
theorem run_opening_of_le (hname : IsOrdinary name) {stack : Stack}
    (hfull : maxLevels ≤ stack.levels.length) (after : List Char) :
    stack.run (Lexer.lex (opening name ++ after)) =
      (stack.add (openingTexts name)).run (Lexer.lex after) := by
  rw [run_lex_opening hname, step_openRun (Nat.le_refl 2), if_neg (Nat.not_lt.2 hfull), add_add,
    add_add]
  rfl

/-- The levels that `count` openings open are on top of those that are open. -/
theorem run_openings_of_le_add (hname : IsOrdinary name) (count levels : Nat)
    (hfree : levels + count ≤ maxLevels) (after : List Char) :
    run ⟨List.replicate levels (namedLevel name), []⟩
        (Lexer.lex ((List.replicate count (opening name)).flatten ++ after)) =
      run ⟨List.replicate (levels + count) (namedLevel name), []⟩ (Lexer.lex after) := by
  induction count generalizing levels with
  | zero => rfl
  | succ count ih =>
    have hlt : (List.replicate levels (namedLevel name)).length < maxLevels := by
      rw [List.length_replicate]
      omega
    rw [List.replicate_succ, List.flatten_cons, List.append_assoc, run_opening_of_lt hname hlt]
    show run ⟨List.replicate (levels + 1) (namedLevel name), []⟩ _ = _
    rw [ih (levels + 1) (by omega), Nat.add_assoc, Nat.add_comm 1 count]

theorem run_openings_of_full (hname : IsOrdinary name) (count : Nat) (stack : Stack)
    (hfull : maxLevels ≤ stack.levels.length) (after : List Char) :
    stack.run (Lexer.lex ((List.replicate count (opening name)).flatten ++ after)) =
      (stack.add (List.replicate count (openingTexts name)).flatten).run (Lexer.lex after) := by
  induction count generalizing stack with
  | zero =>
    show stack.run (Lexer.lex after) = (stack.add []).run (Lexer.lex after)
    rw [add_nil]
  | succ count ih =>
    rw [List.replicate_succ, List.flatten_cons, List.append_assoc, run_opening_of_le hname hfull,
      ih _ (by rwa [length_levels_add]), add_add, List.replicate_succ, List.flatten_cons]

/-- **Openings** open as many levels as there may be, and those behind them are text. -/
theorem run_openings (hname : IsOrdinary name) (count : Nat) (after : List Char) :
    empty.run (Lexer.lex ((List.replicate count (opening name)).flatten ++ after)) =
      (add (List.replicate (count - min count maxLevels) (openingTexts name)).flatten
        ⟨List.replicate (min count maxLevels) (namedLevel name), []⟩).run (Lexer.lex after) := by
  have hcount : count = min count maxLevels + (count - min count maxLevels) := by omega
  generalize hopened : min count maxLevels = opened at hcount ⊢
  generalize count - opened = texts at hcount ⊢
  have hle : 0 + opened ≤ maxLevels := by omega
  rw [hcount, ← List.replicate_append_replicate, List.flatten_append, List.append_assoc]
  show run ⟨List.replicate 0 (namedLevel name), []⟩ _ = _
  rw [run_openings_of_le_add hname opened 0 hle, Nat.zero_add]
  cases texts with
  | zero =>
    show _ = (add [] _).run (Lexer.lex after)
    rw [add_nil]
    rfl
  | succ texts =>
    -- an opening is left, so as many levels are open as may be
    apply run_openings_of_full hname
    rw [List.length_replicate]
    omega

/-! ## The text in the innermost call -/

/-- A text without markup is read up to the next special character, if there is any of it. -/
theorem run_lex_textsOf {source : String} (hplain : ∀ c ∈ source.toList, c ∉ markupChars)
    {after : List Char} (hafter : ∀ c, after.head? = some c → Lexer.isSpecial c = true)
    (stack : Stack) :
    stack.run (Lexer.lex (source.toList ++ after)) =
      (stack.add (textsOf source)).run (Lexer.lex after) := by
  unfold textsOf
  split
  · next hempty =>
    rw [hempty, add_nil]
    rfl
  · next hne => exact run_lex_text ⟨hne, hplain⟩ hafter stack

/-! ## The closing run -/

/-- A level of two braces is a call, whatever the run goes on with. -/
theorem step_closeRun_two {n : Nat} (hn : 2 ≤ n) (done : List Node) (outer : List Level)
    (root : List Node) :
    step ⟨⟨2, done, Nat.le_refl 2⟩ :: outer, root⟩ (.closeRun n) =
      (add [.plain [.invocationFrom done.reverse]] ⟨outer, root⟩).step (.closeRun (n - 2)) := by
  have htaken : bracesTaken n 2 = 2 := by simp [bracesTaken]
  rw [step_closeRun hn, close_cons]
  simp only [htaken]
  rw [take_zero rfl]
  rfl

/-- **The closing run** takes two braces for each level, from the innermost outwards, and what is
    left of it is read outside all levels. -/
theorem step_closeRun_openings (count : Nat) (done : List Node) {n : Nat}
    (hn : 2 * (count + 1) ≤ n) :
    step ⟨⟨2, done, Nat.le_refl 2⟩ :: List.replicate count (namedLevel name), []⟩ (.closeRun n) =
      step ⟨[], [inCalls name (.plain [.invocationFrom done.reverse]) count]⟩
        (.closeRun (n - 2 * (count + 1))) := by
  induction count generalizing done n with
  | zero => exact step_closeRun_two (by omega) done [] []
  | succ count ih =>
    have hleft : n - 2 * (count + 1 + 1) = n - 2 - 2 * (count + 1) := by omega
    rw [step_closeRun_two (by omega), List.replicate_succ]
    show step ⟨⟨2, [.plain [.invocationFrom done.reverse], .text "|", .text name], _⟩ ::
      List.replicate count (namedLevel name), []⟩ (.closeRun (n - 2)) = _
    rw [ih _ (by omega), hleft]
    rfl

end Stack

/-- What stands in the innermost call behind its bar: the openings that are text, and the text. -/
def innermost (name source : String) (count : Nat) : List Node :=
  (List.replicate (count - min count maxLevels) (openingTexts name)).flatten ++ textsOf source

theorem isLiteral_of_mem_innermost {name source : String} {count : Nat} {node : Node}
    (hnode : node ∈ innermost name source count) : node.IsLiteral 0 := by
  rcases List.mem_append.1 hnode with htexts | hsource
  · obtain ⟨texts, htexts, hnode⟩ := List.mem_flatten.1 htexts
    rw [List.eq_of_mem_replicate htexts] at hnode
    simp only [openingTexts, List.mem_cons, List.not_mem_nil, or_false] at hnode
    rcases hnode with rfl | rfl | rfl <;> exact .text
  · unfold textsOf at hsource
    split at hsource
    · exact absurd hsource List.not_mem_nil
    · rw [List.mem_singleton.1 hsource]
      exact .text

/-- **The children of a chain**: the calls, and the closings that are left. -/
theorem children_chain {name source : String} (hname : IsOrdinary name)
    (hplain : ∀ c ∈ source.toList, c ∉ markupChars) {count : Nat} (hcount : 0 < count) :
    children (Lexer.lex ((List.replicate count (opening name)).flatten ++
        (source.toList ++ List.replicate (2 * count) '}'))) =
      inCalls name (.plain [.invocationFrom (.text name :: .text "|" ::
          innermost name source count)]) (min count maxLevels - 1) ::
        braceText closeBraces (2 * (count - min count maxLevels)) := by
  have hmax : 0 < maxLevels := Nat.zero_lt_succ 255
  obtain ⟨inner, hopened⟩ : ∃ inner, min count maxLevels = inner + 1 :=
    ⟨min count maxLevels - 1, by omega⟩
  have hends : ∀ c, (List.replicate (2 * count) '}').head? = some c → Lexer.isSpecial c = true :=
    special_of_head?_replicate (by omega)
  have hleft : 2 * count - 2 * (inner + 1) = 2 * (count - (inner + 1)) := by omega
  rw [children, Stack.run_openings hname, Stack.run_lex_textsOf hplain hends, Stack.add_add,
    ← innermost, hopened, List.replicate_succ]
  generalize innermost name source count = texts
  have hnil : ([] : List Char).head? ≠ some '}' := by rintro ⟨⟩
  have hclose := Stack.run_lex_closeRun (2 * count)
    (Stack.add texts ⟨namedLevel name :: List.replicate inner (namedLevel name), []⟩) hnil
  rw [List.append_nil, Lexer.lex_nil, Stack.run_endOfText] at hclose
  rw [hclose]
  show (Stack.step ⟨⟨2, texts.reverse ++ [.text "|", .text name], _⟩ ::
    List.replicate inner (namedLevel name), []⟩ (.closeRun (2 * count))).finish = _
  rw [Stack.step_closeRun_openings inner _ (by omega), Stack.step_closeRun_root, hleft]
  simp [Stack.add, Stack.finish, Stack.unclosed]

end Braces

/-! ## The tree -/

namespace Node

/-- Closing braces are a text, if there are any. -/
theorem textsOf_closeBraces (n : Nat) :
    textsOf (closeBraces n) = Braces.braceText closeBraces n := by
  cases n with
  | zero => rfl
  | succ n =>
    have hne : closeBraces (n + 1) ≠ "" := by
      rw [closeBraces, ← String.toList_inj.ne]
      simp
    rw [textsOf, if_neg hne]
    rfl

/-- A text without markup is read as it is written. -/
theorem parse_textsOf {source : String} (hplain : ∀ c ∈ source.toList, c ∉ markupChars) :
    parse source = group (textsOf source) := by
  have hitems : IsSequence (textsOf source) := by
    rw [← List.append_nil (textsOf source)]
    exact IsSequence.nil.textsOf_append hplain nofun
  have hdepth : (group (textsOf source)).constructDepth ≤ Braces.maxLevels := by
    rw [constructDepth_group, deepest_textsOf]
    exact Nat.zero_le _
  have hprint : (group (textsOf source)).print = source := by
    rw [print, printChars_group, printAll_textsOf, String.ofList_toList]
  rw [← hprint, parse_print hitems (constructDepth_le_iff.1 hdepth), hprint]

end Node

/-! ## What the calls come to -/

namespace Node.IsLiteral

/-- A literal tree calls for nothing, and has no problems. -/
theorem silent {room : Nat} {node : Node} (h : node.IsLiteral room) (reference : Reference)
    (scope : Arguments) (depth : Nat) :
    (reference.evaluate room node scope depth).problems = [] ∧
      (reference.evaluate room node scope depth).calls = [] := by
  induction h with
  | text =>
    rw [Reference.evaluate_text]
    exact ⟨rfl, rfl⟩
  | plain h ih =>
    rw [Reference.evaluate]
    simp only [Expansion.join, List.flatMap_map, List.flatMap_eq_nil_iff]
    exact ⟨fun child hchild => (ih child hchild).1, fun child hchild => (ih child hchild).2⟩

/-- Nor does the tree when it is collapsed. -/
theorem silent_collapse {room : Nat} {node : Node} (h : node.IsLiteral room)
    (reference : Reference) (scope : Arguments) (depth : Nat) :
    (reference.evaluate room node.collapse scope depth).problems = [] ∧
      (reference.evaluate room node.collapse scope depth).calls = [] := by
  have hsilent := h.silent reference scope depth
  have hagrees : reference.Agrees reference 1 (reference.evaluate room node scope depth) := by
    apply Reference.agrees_self
    intro limit
    rw [hsilent.1]
    exact List.not_mem_nil
  rwa [Reference.evaluate_collapse room node scope depth hagrees]

end Node.IsLiteral

namespace Reference

open Expansion

variable {reference : Reference}

theorem evaluate_textsOf (source : String) {room : Nat} (hroom : 1 ≤ room) (scope : Arguments)
    (depth : Nat) :
    reference.evaluate room (.group (Node.textsOf source)) scope depth = .ofText source := by
  unfold Node.textsOf
  split
  · next hempty =>
    obtain ⟨fewer, rfl⟩ : ∃ fewer, room = fewer + 1 := ⟨room - 1, by omega⟩
    show reference.evaluate (fewer + 1) (.plain []) scope depth = _
    rw [evaluate, hempty]
    rfl
  · exact evaluate_text room source scope depth

/-- Calls by the name stand for the text, whatever their arguments are. -/
def Shows (reference : Reference) (name source : String) : Prop :=
  ∀ room args, reference.evaluate (room + 2) (.invocation (.text name) args) .empty 0 =
    (join (reference.arguments (room + 1) args .empty 0)).before ⟨source, [], [name]⟩

/-- They do if the body of the name is the text. -/
theorem shows_of_body {name source : String} (hname : Text.trim name = name)
    (hmagic : reference.magic.get? name = none) (hdepth : 0 < reference.limits.maxDepth)
    (hbody : reference.body name = some (.group (Node.textsOf source))) :
    reference.Shows name source := by
  intro room args
  rw [evaluate_call_of_lt hname hmagic hbody hdepth,
    evaluate_textsOf source (Nat.le_add_left 1 room)]
  rfl

/-- A call whose arguments are texts calls for its name only. -/
theorem evaluate_call_of_literal {name source : String} (h : reference.Shows name source)
    {args : List Node} (hargs : ∀ arg ∈ args, arg.IsLiteral 1) {room : Nat} (hroom : 2 ≤ room) :
    reference.evaluate room (.invocation (.text name) (args.map Node.collapse)) .empty 0 =
      ⟨source, [], [name]⟩ := by
  obtain ⟨fewer, rfl⟩ : ∃ fewer, room = fewer + 2 := ⟨room - 2, by omega⟩
  have hsilent : ∀ arg ∈ args,
      (reference.evaluate (fewer + 1) arg.collapse .empty 0).problems = [] ∧
        (reference.evaluate (fewer + 1) arg.collapse .empty 0).calls = [] := by
    intro arg harg
    exact ((hargs arg harg).mono (Nat.le_add_left 1 fewer)).silent_collapse reference .empty 0
  have hjoined :
      (join (reference.arguments (fewer + 1) (args.map Node.collapse) .empty 0)).problems = [] ∧
        (join (reference.arguments (fewer + 1) (args.map Node.collapse) .empty 0)).calls = [] := by
    simp only [join, arguments, List.flatMap_map, List.flatMap_eq_nil_iff]
    constructor
    · intro arg harg
      exact (hsilent arg harg).1
    · intro arg harg
      exact (hsilent arg harg).2
  rw [h, before, hjoined.1, hjoined.2]
  rfl

/-- **Calls in each other's arguments** call for the name as often as they are, and the text of the
    outermost is that of any of them. -/
theorem evaluate_calls {name source : String} (h : reference.Shows name source)
    {inner : Node} {least called : Nat}
    (hinner : ∀ room, least + 1 ≤ room → reference.evaluate room inner .empty 0 =
      ⟨source, [], List.replicate called name⟩)
    (count : Nat) {room : Nat} (hroom : least + 1 + count ≤ room) :
    reference.evaluate room (.calls name inner count) .empty 0 =
      ⟨source, [], List.replicate (called + count) name⟩ := by
  -- one call less is left around `inner` with each call that is put around it
  induction count generalizing inner least called with
  | zero => exact hinner room hroom
  | succ count ih =>
    have hnext : ∀ room, least + 1 + 1 ≤ room →
        reference.evaluate room (.invocation (.text name) [inner]) .empty 0 =
          ⟨source, [], List.replicate (called + 1) name⟩ := by
      intro room hroom
      obtain ⟨fewer, rfl⟩ : ∃ fewer, room = fewer + 2 := ⟨room - 2, by omega⟩
      rw [h, arguments, List.map_singleton, join_singleton, hinner _ (by omega),
        List.replicate_succ']
      rfl
    show reference.evaluate room (.calls name (.invocation (.text name) [inner]) count) .empty 0 = _
    rw [ih hnext (by omega), Nat.add_assoc, Nat.add_comm 1]

end Reference

/-! ## The page -/

/-- Openings of calls by a name, a text, and as many closings. -/
def chain (name inside : String) (count : Nat) : String :=
  String.join (List.replicate count ("\x7b\x7b" ++ name ++ "|")) ++ inside ++
    String.join (List.replicate count "\x7d\x7d")

theorem toList_join_replicate (count : Nat) (text : String) :
    (String.join (List.replicate count text)).toList =
      (List.replicate count text.toList).flatten := by
  induction count with
  | zero => rfl
  | succ count ih =>
    rw [List.replicate_succ, String.join_cons, String.toList_append, ih, List.replicate_succ,
      List.flatten_cons]

theorem toList_chain (name inside : String) (count : Nat) :
    (chain name inside count).toList = (List.replicate count (Braces.opening name)).flatten ++
      (inside.toList ++ List.replicate (2 * count) '}') := by
  have hopening : ("\x7b\x7b" ++ name ++ "|").toList = Braces.opening name := by
    simp [Braces.opening]
  have hclosing : (List.replicate count "\x7d\x7d".toList).flatten =
      List.replicate (2 * count) '}' := by
    show (List.replicate count (List.replicate 2 '}')).flatten = _
    rw [List.flatten_replicate_replicate, Nat.mul_comm]
  rw [chain, String.toList_append, String.toList_append, toList_join_replicate,
    toList_join_replicate, hopening, hclosing, List.append_assoc]

/-- **The tree of a chain**: the calls that were opened, with no text in front of them and the
    closings of the other openings behind them. -/
theorem Node.parse_chain {name inside : String} (hname : IsOrdinary name)
    (hplain : ∀ c ∈ inside.toList, c ∉ markupChars) {count : Nat} (hcount : 0 < count) :
    parse (chain name inside count) =
      group (textsOf "" ++
        calls name (invocation (text name)
            ((partArguments [] [] 0 (Braces.innermost name inside count)).map collapse))
          (min count Braces.maxLevels - 1) ::
        textsOf (closeBraces (2 * (count - min count Braces.maxLevels)))) := by
  have htags : '<' ∉ (chain name inside count).toList := by
    have hinside : '<' ∉ inside.toList := fun hmem => hplain '<' hmem (by decide)
    rw [toList_chain]
    simp [Braces.opening, List.mem_replicate, hname.lt_not_mem, hinside]
  have hinner : invocationFrom (text name :: text "|" :: Braces.innermost name inside count) =
      invocation (plain [text name])
        (partArguments [] [] 0 (Braces.innermost name inside count)) :=
    invocationFrom_bar hname.noMarks _
  have hleft : ∀ n, (Braces.braceText closeBraces n).map collapse =
      Braces.braceText closeBraces n := by
    intro n
    unfold Braces.braceText
    split <;> simp
  rw [parse_eq_children htags, toList_chain, Braces.children_chain hname hplain hcount,
    collapse_plain_eq_group, List.map_cons, collapse_inCalls hname, hinner, textsOf_closeBraces]
  simp only [hleft, collapse_plain_singleton, collapse_invocation, collapse_text]
  rfl

/-- **The tree of a chain calls once for each level**, and comes to the body with the closings that
    are left behind it. -/
theorem Reference.evaluate_chain {reference : Reference} {name body inside : String}
    (h : reference.Shows name body) (hname : Node.IsOrdinary name)
    (hplain : ∀ c ∈ inside.toList, c ∉ Node.markupChars) {count : Nat} (hcount : 0 < count)
    {room : Nat} (hroom : min count Braces.maxLevels + 2 ≤ room) :
    reference.evaluate room (Node.parse (chain name inside count)) .empty 0 =
      ⟨body ++ closeBraces (2 * (count - min count Braces.maxLevels)), [],
        List.replicate (min count Braces.maxLevels) name⟩ := by
  have hmax : 0 < Braces.maxLevels := Nat.zero_lt_succ 255
  rw [Node.parse_chain hname hplain hcount]
  generalize hopened : min count Braces.maxLevels = opened at hroom ⊢
  have hsum : 1 + (opened - 1) = opened := by omega
  let innermost : Node := .invocation (.text name)
    ((Node.partArguments [] [] 0 (Braces.innermost name inside count)).map Node.collapse)
  have hinner : ∀ room, 1 + 1 ≤ room →
      reference.evaluate room innermost .empty 0 = ⟨body, [], List.replicate 1 name⟩ := by
    intro room hroom
    apply evaluate_call_of_literal h _ hroom
    apply Node.isLiteral_partArguments 0 (List.forall_mem_nil _)
    intro node hnode
    exact Braces.isLiteral_of_mem_innermost hnode
  have hcalls : ∀ room, opened + 1 ≤ room →
      reference.evaluate room (.calls name innermost (opened - 1)) .empty 0 =
        ⟨body, [], List.replicate opened name⟩ := by
    intro room hroom
    rw [evaluate_calls h hinner (opened - 1) (by omega), hsum]
  rw [evaluate_between hcalls _ _ hroom, Expansion.between, String.empty_append]

/-! ## Expanding the page -/

namespace Expander

/-- **A chain of calls expands to the body of one call**, and to two closing braces for each opening
    that found as many levels open as may be.  It has no problems.  Each level is a call by the
    same name, so the first one asks the source, and the other ones are hits. -/
theorem expand_chain (page : String) {source : Source} {name body inside : String}
    (hname : Node.IsOrdinary name) (htrim : Text.trim name = name)
    (hfound : source.template name = some body)
    (hbody : ∀ c ∈ body.toList, c ∉ Node.markupChars) (hstart : body.toList.head? ≠ some ';')
    (hinside : ∀ c ∈ inside.toList, c ∉ Node.markupChars) {count : Nat} (hcount : 1 ≤ count) :
    let expanded := (ofPage (chain name inside count) (Setting.standard page source)).expand
    let opened := min count Braces.maxLevels
    expanded.1 = body ++ closeBraces (2 * (count - opened)) ∧
      expanded.2.diagnostics = #[] ∧ expanded.2.cache.parses = 1 ∧
      expanded.2.cache.hits = opened - 1 := by
  intro expanded opened
  let setting := Setting.standard page source
  have hopened : 1 ≤ opened ∧ opened ≤ 256 := by
    have hmax : Braces.maxLevels = 256 := rfl
    omega
  have hcolon : body.toList.head? ≠ some ':' := fun hhead =>
    hbody ':' (List.mem_of_mem_head? hhead) (by decide)
  have hshows : (setting.reference source.body).Shows name body := by
    have hmagic : setting.magic.get? name = none := Table.get?_nil name
    have hdepth : 0 < setting.limits.maxDepth := Nat.zero_lt_succ 39
    apply Reference.shows_of_body htrim hmagic hdepth
    rw [← Node.parse_textsOf hbody]
    exact Source.body_of_template hname hfound hcolon hstart
  have hexpansion : (ofPage (chain name inside count) setting).expansion =
      ⟨body ++ closeBraces (2 * (count - opened)), [], List.replicate opened name⟩ := by
    have hroom : opened + 2 ≤ 500 := by omega
    exact Reference.evaluate_chain hshows hname hinside hcount hroom
  have hanswer : ∀ called ∈ List.replicate opened name,
      (source.answer (.ofName called)).isSome := by
    intro called hcalled
    rw [List.eq_of_mem_replicate hcalled, hname.ofName_eq, Source.answer, hfound]
    rfl
  have hcard : (List.replicate opened name).toFinset.card = 1 := by
    rw [List.toFinset_replicate_of_ne_zero (by omega), Finset.card_singleton]
  obtain ⟨htext, hproblems, -, hparses, hhits⟩ := expand_of_expansion rfl hexpansion hanswer
  rw [hcard] at hparses hhits
  rw [List.length_replicate] at hhits
  exact ⟨htext, hproblems, hparses, hhits⟩

/-- A source of one page without markup. -/
def plainSource : Source := .ofTables [("a", "w")] []

/-- One opening more than levels may be open. -/
theorem expand_chain_beyond :
    let expanded := (ofPage (chain "a" "x" 257) (Setting.standard "" plainSource)).expand
    (Node.IsOrdinary "a" ∧ Text.trim "a" = "a" ∧ plainSource.template "a" = some "w") ∧
      expanded.1 = "w\x7d\x7d" ∧ expanded.2.diagnostics = #[] ∧
      expanded.2.cache.parses = 1 ∧ expanded.2.cache.hits = 255 := by
  have hname : Node.IsOrdinary "a" := ⟨by decide, by simp [Node.markupChars]⟩
  have htrim : Text.trim "a" = "a" := by decide
  have hplain : ∀ source ∈ ["w", "x"], ∀ c ∈ source.toList, c ∉ Node.markupChars := by
    simp [Node.markupChars]
  obtain ⟨htext, hdiagnostics, hparses, hhits⟩ := expand_chain "" hname htrim
    (show plainSource.template "a" = some "w" from rfl) (hplain "w" (by simp)) (by decide)
    (hplain "x" (by simp)) (Nat.le_add_left 1 256)
  exact ⟨⟨hname, htrim, rfl⟩, htext, hdiagnostics, hparses, hhits⟩

end Expander

end Transclusion
