/-
  The character in front of a list or definition line.

  A body that begins with `:` or `;` is parsed behind `lineStart`.  Before a `;` this character
  belongs to the first text of the body, and before a `:` it is a text of its own.  In one case that
  makes a difference to the tree: a body that is a `:` and nothing else is a text, and a group with
  `lineStart` in front, which needs room for a node.

  The crux is that both pages begin with a text.  Such a page is this text alone, which needs no
  room, or a group around it and other children.  So as soon as one node may be opened both pages
  come to their children in a row (`Reference.evaluate_page_of_text_cons`), at the same number of
  open nodes, and the two rows differ by the character in front (`Braces.children_cons_alike`).

  Main statement, `flatten_guardLineStart`.
-/
import Transclusion.Proofs.Expansion.Inclusion
import Transclusion.Proofs.Expansion.Unmatched
import Transclusion.Proofs.Token.OnlyInclude

namespace Transclusion

open OnlyInclude (keepTag)

/-! ## A text in front of a page -/

namespace Expansion

/-- The expansion with a text in front of its own. -/
def behind (front : String) (expansion : Expansion) : Expansion :=
  { expansion with text := front ++ expansion.text }

end Expansion

/-- A text in front is all that it adds to a run. -/
theorem Run.yield_behind (run : Run) (source : Source) (front : String) (expansion : Expansion) :
    run.yield source (expansion.behind front) =
      (front ++ (run.yield source expansion).1, (run.yield source expansion).2) := rfl

namespace Reference

open Expansion

variable {reference : Reference} {room depth : Nat} {scope : Arguments}

theorem row_text_cons (source : String) (later : List Node) :
    reference.row room (.text source :: later) scope depth =
      (reference.row room later scope depth).behind source := by
  rw [row, List.map_cons, Node.collapse_text, evaluate_text, join_ofText_cons]
  rfl

/-- **A page that begins with a text**, with one node allowed, comes to its children in a row. -/
theorem evaluate_page_of_text_cons (source : String) (later : List Node) :
    reference.evaluate (room + 1) (Node.plain (.text source :: later)).collapse scope depth =
      reference.row room (.text source :: later) scope depth := by
  cases later with
  | nil =>
    rw [evaluate_page_singleton, row_text_cons, row_text_cons]
    rfl
  | cons node later => exact evaluate_page_of_ne_one (by simp) room scope depth

/-- **A text in front of a page that begins with a text**, if no node was cut off, is all that it
    adds.  The pages may be cut into texts differently, but where the one is a text alone, so is the
    other. -/
theorem evaluate_page_behind {front source other : String} {later others : List Node}
    (halike : Node.Alike (.text other :: others) (.text front :: .text source :: later))
    (halone : others = [] → later = [])
    (h : ∀ limit, .nestingTooDeep limit ∉ (reference.evaluate room
      (Node.plain (.text other :: others)).collapse scope depth).problems) :
    reference.evaluate room (Node.plain (.text other :: others)).collapse scope depth =
      (reference.evaluate room (Node.plain (.text source :: later)).collapse scope depth).behind
        front := by
  have hrows : ∀ room, reference.row room (.text other :: others) scope depth =
      (reference.row room (.text source :: later) scope depth).behind front := by
    intro room
    rw [row_alike halike, row_text_cons]
  cases room with
  | zero =>
    by_cases hothers : others = []
    · -- two texts need no room
      obtain rfl := halone hothers
      subst hothers
      rw [evaluate_page_singleton, evaluate_page_singleton, hrows]
    · have hnode : ∀ source, (Node.plain (.text other :: others)).collapse ≠ .text source := by
        intro source
        rw [Node.collapse_plain (by simpa using hothers)]
        exact nofun
      rw [evaluate_zero hnode] at h
      exact absurd (List.mem_singleton.2 rfl) (h _)
  | succ room => rw [evaluate_page_of_text_cons, evaluate_page_of_text_cons, hrows]

end Reference

/-! ## The two texts -/

theorem guardLineStart_eq {raw : String}
    (h : raw.toList.head? = some ':' ∨ raw.toList.head? = some ';') :
    guardLineStart raw = String.ofList [lineStart] ++ raw := by
  unfold guardLineStart
  split
  · rfl
  · rfl
  · next hcolon hsemicolon =>
    rcases h with h | h
    · obtain ⟨later, hlater⟩ := List.head?_eq_some_iff.1 h
      exact absurd hlater (hcolon later)
    · obtain ⟨later, hlater⟩ := List.head?_eq_some_iff.1 h
      exact absurd hlater (hsemicolon later)

/-- A text that does not mark parts of itself is read as it stands. -/
theorem Node.parse_eq_children_of_not_marked {text : String} (h : ¬keepTag <:+: text.toList) :
    parse text = (plain (Braces.children (Lexer.lex text.toList))).collapse := by
  rw [parse, ofTokens_eq_run, OnlyInclude.tokenize_of_not_marked h]
  rfl

namespace Braces

open Lexer

/-- A line begins with a text, with and without the character in front, and where it is nothing but
    a text with the character, it is without. -/
theorem exists_children_line {c : Char} (hc : c = ':' ∨ c = ';') (cs : List Char) :
    ∃ source later other others, children (lex (c :: cs)) = .text source :: later ∧
      children (lex (lineStart :: c :: cs)) = .text other :: others ∧
      (others = [] → later = []) := by
  have hplain : isSpecial lineStart = false := by decide
  rcases hc with rfl | rfl
  · -- the colon stands alone, and what is in front of it as well
    refine ⟨":", children (lex cs), String.ofList [lineStart], .text ":" :: children (lex cs),
      ?_, ?_, nofun⟩
    · rw [lex_colon, children_text]
    · rw [lex_cons, firstToken_of_not_isSpecial hplain, children_text]
      show _ :: children (lex (':' :: cs)) = _
      rw [lex_colon, children_text]
      rfl
  · -- the semicolon begins a text, which takes the character in
    have hsemicolon : isSpecial ';' = false := by decide
    let line := cs.takeWhile fun d => !isSpecial d
    let later := children (lex (cs.drop line.length))
    have hline : children (lex (';' :: cs)) = .text (String.ofList (';' :: line)) :: later := by
      rw [lex_cons, firstToken_of_not_isSpecial hsemicolon, children_text]
    have hguarded : children (lex (lineStart :: ';' :: cs)) =
        .text (String.ofList (lineStart :: ';' :: line)) :: later := by
      rw [lex_cons, firstToken_of_not_isSpecial hplain, children_text]
      rfl
    exact ⟨_, later, _, later, hline, hguarded, fun h => h⟩

end Braces

/-- **The character in front of a line is opaque**: for every body that begins with `:` or `;` and
    marks no parts of itself, every scope, number of open bodies, cache, source, registry and
    limits, and however many nodes more may be opened: if flattening the body behind `lineStart`
    reports no node as nested too deep, then it has the character in front of the text that
    flattening the body as it is written has, and leaves the same run, with the same problems,
    questions to the source and cache. -/
theorem flatten_guardLineStart (setting : Setting) (room : Nat) {raw : String}
    (hstart : raw.toList.head? = some ':' ∨ raw.toList.head? = some ';')
    (hmarks : ¬keepTag <:+: raw.toList) (scope : Arguments) (depth : Nat) (run : Run)
    (h : ∀ limit, .nestingTooDeep limit ∉
      (flatten setting room (Node.parse (guardLineStart raw)) scope depth run).2.problemsSince run) :
    let flattened := flatten setting room (Node.parse raw) scope depth run
    guardLineStart raw = String.ofList [lineStart] ++ raw ∧
      flatten setting room (Node.parse (guardLineStart raw)) scope depth run =
        (String.ofList [lineStart] ++ flattened.1, flattened.2) := by
  intro flattened
  have hguard := guardLineStart_eq hstart
  refine ⟨hguard, ?_⟩
  obtain ⟨c, cs, hraw, hc⟩ : ∃ c cs, raw.toList = c :: cs ∧ (c = ':' ∨ c = ';') := by
    rcases hstart with hstart | hstart
    · obtain ⟨cs, hcs⟩ := List.head?_eq_some_iff.1 hstart
      exact ⟨':', cs, hcs, .inl rfl⟩
    · obtain ⟨cs, hcs⟩ := List.head?_eq_some_iff.1 hstart
      exact ⟨';', cs, hcs, .inr rfl⟩
  have hguardChars : (guardLineStart raw).toList = lineStart :: c :: cs := by
    rw [hguard, String.toList_append, String.toList_ofList, hraw]
    rfl
  have hguardMarks : ¬keepTag <:+: (guardLineStart raw).toList := by
    rw [hguardChars, List.infix_cons_iff, ← hraw, OnlyInclude.keepTag_eq_cons]
    rintro (hfront | hinside)
    · exact absurd (List.cons_prefix_cons.1 hfront).1 (by decide)
    · exact hmarks hinside
  obtain ⟨source, later, other, others, hchildren, hguarded, halone⟩ :=
    Braces.exists_children_line hc cs
  have halike := Braces.children_cons_alike (c := lineStart) (by decide) (c :: cs)
  rw [hchildren, hguarded] at halike
  have hpage := Node.parse_eq_children_of_not_marked hmarks
  have hguardPage := Node.parse_eq_children_of_not_marked hguardMarks
  rw [hraw, hchildren] at hpage
  rw [hguardChars, hguarded] at hguardPage
  rw [problemsSince_flatten, hguardPage] at h
  rw [flatten_eq_evaluate setting _ room _ scope depth run rfl, hguardPage,
    Reference.evaluate_page_behind halike halone h, Run.yield_behind, ← hpage,
    ← flatten_eq_evaluate setting _ room _ scope depth run rfl]

/-- A page `m` that is a line with a call of itself in it. -/
def lineSetting : Setting :=
  ⟨"", (PageTable.empty.insert "m" ":x\x7b\x7bm\x7d\x7d").toSource, .empty, ⟨2, 6⟩⟩

/-- A line with a call, which is too deep at last, and a placeholder, from a run that has met a
    problem and read the page before. -/
theorem flatten_guardLineStart_call :
    let raw := ":\x7b\x7bm\x7d\x7d<!-- : -->\x7b\x7b\x7bp|;\x7d\x7d\x7d"
    let run : Run := ⟨(Cache.empty.resolve lineSetting.source "m").2, #[.nestingTooDeep 6]⟩
    let scope := Arguments.bind ["p=v"]
    let guarded := flatten lineSetting 6 (Node.parse (guardLineStart raw)) scope 0 run
    let flattened := flatten lineSetting 6 (Node.parse raw) scope 0 run
    (raw.toList.head? = some ':' ∧ ¬keepTag <:+: raw.toList ∧
      ∀ limit, .nestingTooDeep limit ∉ guarded.2.problemsSince run) ∧
    (flattened.1 = ":\x00:x\x00:xv" ∧ flattened.2.problemsSince run = [.tooDeep "m" 2] ∧
      flattened.2.cache.hits = 2) ∧
    guardLineStart raw = String.ofList [lineStart] ++ raw ∧
      guarded = (String.ofList [lineStart] ++ flattened.1, flattened.2) := by
  intro raw run scope guarded flattened
  have hproblems : guarded.2.problemsSince run = [.tooDeep "m" 2] := by decide +kernel
  have hstart : raw.toList.head? = some ':' := by decide
  have hmarks : ¬keepTag <:+: raw.toList :=
    mt (OnlyInclude.occursIn_iff _ _).2 (by decide)
  have huncut : ∀ limit, .nestingTooDeep limit ∉ guarded.2.problemsSince run := by
    intro limit
    rw [hproblems]
    simp
  exact ⟨⟨hstart, hmarks, huncut⟩, by decide +kernel,
    flatten_guardLineStart lineSetting 6 (.inl hstart) hmarks scope 0 run huncut⟩

/-- Without room for a node a colon alone is a text, and with the character in front it is cut
    off. -/
example :
    let run : Run := ⟨.empty, #[]⟩
    (flatten lineSetting 0 (Node.parse ":") .empty 0 run).1 = ":" ∧
      (flatten lineSetting 0 (Node.parse (guardLineStart ":")) .empty 0 run).1 = "" := by
  decide +kernel

end Transclusion
