/-
  Braces that never match are text.

  A level that is never closed becomes a group with its braces as text in front, inside the group of
  the level around it.  Without a closing run behind an opening one no call and no placeholder comes
  about, and the tree is text in groups, as deep as levels are open at once, which `maxLevels`
  bounds.  One node more stands around them, the root.  So with room for `maxLevels + 1` nodes the
  text is never cut off, however many braces are opened.

  `Node.IsLiteral` is such a tree, and `Stack.IsLiteral` what the stack looks like while it is read.
  That the text comes out in order needs no further argument: a literal tree expands to its
  rendering (`IsLiteral.evaluate_eq`), and the stack renders what was read (`Stack.Renders`).

  Main statement, `Expander.expand_unmatched`: such a page expands to its tokens but for the skipped
  ones, reports nothing and asks nothing.
-/
import Transclusion.Proofs.Braces.Conservation
import Transclusion.Proofs.Expansion.Collapsing
import Transclusion.Proofs.Token.Lossless

namespace Transclusion

/-! ## Tokens that never match -/

namespace Token

def isOpenRun : Token → Bool
  | .openRun _ => true
  | _ => false

def isCloseRun : Token → Bool
  | .closeRun _ => true
  | _ => false

def isSkipped : Token → Bool
  | .skipped _ => true
  | _ => false

end Token

/-- No closing run stands behind an opening one. -/
def Unmatched (tokens : List Token) : Prop :=
  tokens.Pairwise fun first second => (first.isOpenRun && second.isCloseRun) = false

instance (tokens : List Token) : Decidable (Unmatched tokens) :=
  inferInstanceAs (Decidable (tokens.Pairwise _))

/-- What tokens add to the text of a tree are their lexemes, but for the skipped ones. -/
theorem join_written (tokens : List Token) :
    String.join (tokens.map Token.written) =
      lexemes (tokens.filter fun token => !token.isSkipped) := by
  induction tokens with
  | nil => rfl
  | cons token later ih =>
    rw [List.map_cons, String.join_cons, ih]
    cases token with
    | skipped source => exact String.empty_append
    | _ => rw [lexemes, lexemes, List.filter_cons_of_pos rfl, List.map_cons, String.join_cons]; rfl

/-- All tokens of a page are read. -/
theorem writtenText_tokenize (text : String) :
    writtenText (tokenize text) = lexemes ((tokenize text).filter fun token => !token.isSkipped) := by
  obtain ⟨pieces, hpieces, hend⟩ := Lexer.exists_lex_eq ((onlyInclude? text).getD text).toList
  have hread : Braces.beforeEnd (pieces ++ [.endOfText]) = pieces := by
    rw [Braces.beforeEnd, List.takeWhile_append_of_pos]
    · exact List.append_nil pieces
    · intro token htoken
      rw [bne_iff_ne]
      rintro rfl
      exact hend htoken
  rw [tokenize_eq_lex_getD, hpieces, writtenText, hread, join_written, List.filter_append]
  exact (lexemes_append_endOfText _).symm

/-! ## Literal trees -/

/-- Text, in groups nested at most `depth` deep. -/
inductive Node.IsLiteral : Nat → Node → Prop where
  | text {depth : Nat} {source : String} : IsLiteral depth (.text source)
  | plain {depth : Nat} {children : List Node} (h : ∀ child ∈ children, IsLiteral depth child) :
      IsLiteral (depth + 1) (.plain children)

theorem Expansion.join_ofText_cons (source : String) (later : List Expansion) :
    join (.ofText source :: later) =
      { join later with text := source ++ (join later).text } := by
  simp [join, ofText, String.join_cons]

namespace Node.IsLiteral

theorem mono {depth more : Nat} {node : Node} (h : node.IsLiteral depth) (hle : depth ≤ more) :
    node.IsLiteral more := by
  induction h generalizing more with
  | text => exact .text
  | plain h ih =>
    obtain ⟨more, rfl⟩ := Nat.exists_eq_add_of_lt hle
    exact .plain fun child hchild => ih child hchild (by omega)

/-- Nodes in turn come to their renderings in turn, when each of them does. -/
theorem join_eq_ofText {evaluateNode : Node → Expansion} {nodes : List Node} {source : String}
    (hsource : RendersAll nodes source)
    (h : ∀ node ∈ nodes, ∀ source, node.Renders source → evaluateNode node = .ofText source) :
    Expansion.join (nodes.map evaluateNode) = .ofText source := by
  induction nodes generalizing source with
  | nil =>
    cases hsource
    rfl
  | cons node later ih =>
    cases hsource with
    | cons hnode hlater =>
      have hrest := ih hlater fun node hmem => h node (List.mem_cons_of_mem _ hmem)
      rw [List.map_cons, h node List.mem_cons_self _ hnode, Expansion.join_ofText_cons, hrest]
      rfl

/-- **A literal tree expands to its text**, wherever it stands. -/
theorem evaluate_eq (reference : Reference) {room : Nat} {node : Node} (h : node.IsLiteral room)
    {source : String} (hsource : node.Renders source) (scope : Arguments) (depth : Nat) :
    reference.evaluate room node scope depth = .ofText source := by
  induction h generalizing source with
  | text =>
    cases hsource
    rw [Reference.evaluate_text]
  | plain h ih =>
    cases hsource with
    | plain hall =>
      rw [Reference.evaluate]
      exact join_eq_ofText hall fun child hchild source hchildSource =>
        ih child hchild hchildSource

end Node.IsLiteral

/-! ## Reading tokens that never match -/

namespace Braces

namespace Stack

/-- Only text was read so far, and no more levels are open than may be. -/
structure IsLiteral (stack : Stack) : Prop where
  root : ∀ child ∈ stack.root, child.IsLiteral 0
  done : ∀ level ∈ stack.levels, ∀ child ∈ level.done, child.IsLiteral 0
  length_le : stack.levels.length ≤ maxLevels

namespace IsLiteral

variable {stack : Stack}

theorem empty : Stack.empty.IsLiteral := ⟨nofun, nofun, Nat.zero_le _⟩

theorem addText (h : stack.IsLiteral) (source : String) :
    (stack.add [.text source]).IsLiteral := by
  obtain ⟨levels, root⟩ := stack
  cases levels with
  | nil => exact ⟨List.forall_mem_cons.2 ⟨.text, h.root⟩, nofun, Nat.zero_le _⟩
  | cons level outer =>
    obtain ⟨hlevel, houter⟩ := List.forall_mem_cons.1 h.done
    exact ⟨h.root, List.forall_mem_cons.2 ⟨List.forall_mem_cons.2 ⟨.text, hlevel⟩, houter⟩,
      h.length_le⟩

/-- **One step** reads text, unless it closes a level that is open. -/
theorem step (h : stack.IsLiteral) {token : Token}
    (hclose : stack.levels = [] ∨ token.isCloseRun = false) : (stack.step token).IsLiteral := by
  match token with
  | .openRun 0 => exact h
  | .openRun 1 => exact h.addText _
  | .openRun (n + 2) =>
    rw [step_openRun (Nat.le_add_left 2 n)]
    split
    · next hfree => exact ⟨h.root, List.forall_mem_cons.2 ⟨List.forall_mem_nil _, h.done⟩, hfree⟩
    · exact h.addText _
  | .closeRun 0 => exact h
  | .closeRun 1 => exact h.addText _
  | .closeRun (n + 2) =>
    obtain ⟨levels, root⟩ := stack
    obtain rfl : levels = [] := hclose.resolve_right Bool.noConfusion
    rw [step_closeRun (Nat.le_add_left 2 n), close]
    exact h.addText _
  | .skipped _ => exact h
  | .endOfText | .linkOpen | .linkClose | .text _ => exact h.addText _

end IsLiteral

/-- Only an opening run opens a level. -/
theorem levels_step_eq_nil {stack : Stack} {token : Token} (h : stack.levels = [])
    (hopen : token.isOpenRun = false) : (stack.step token).levels = [] := by
  obtain ⟨levels, root⟩ := stack
  obtain rfl : levels = [] := h
  match token with
  | .openRun n => exact absurd hopen nofun
  | .closeRun 0 => rfl
  | .closeRun 1 => rfl
  | .closeRun (n + 2) =>
    rw [step_closeRun (Nat.le_add_left 2 n), close]
    rfl
  | .skipped _ => rfl
  | .endOfText | .linkOpen | .linkClose | .text _ => rfl

/-- **A run over tokens that never match** reads text.  While no level is open anything may come, and
    from the first opening run on no closing one does. -/
theorem IsLiteral.foldl {stack : Stack} (h : stack.IsLiteral) {tokens : List Token}
    (hunmatched : Unmatched tokens)
    (hclose : stack.levels = [] ∨ ∀ token ∈ tokens, token.isCloseRun = false) :
    (tokens.foldl Stack.step stack).IsLiteral := by
  induction tokens generalizing stack with
  | nil => exact h
  | cons token later ih =>
    obtain ⟨hbehind, hlater⟩ := List.pairwise_cons.1 hunmatched
    have hstep : (stack.step token).IsLiteral :=
      h.step (hclose.imp id fun hnone => hnone token List.mem_cons_self)
    apply ih hstep hlater
    cases hopen : token.isOpenRun with
    | true =>
      refine .inr fun other hother => ?_
      simpa [hopen] using hbehind other hother
    | false =>
      exact hclose.imp (fun hnil => levels_step_eq_nil hnil hopen) fun hnone other hother =>
        hnone other (List.mem_cons_of_mem token hother)

/-- Each level that is never closed is a group around the ones inside it. -/
theorem isLiteral_unclosed {inner : List Node} {levels : List Level} {depth : Nat}
    (hinner : ∀ child ∈ inner, child.IsLiteral depth)
    (hdone : ∀ level ∈ levels, ∀ child ∈ level.done, child.IsLiteral 0) :
    ∀ child ∈ unclosed inner levels, child.IsLiteral (depth + levels.length) := by
  induction levels generalizing inner depth with
  | nil => exact hinner
  | cons level outer ih =>
    obtain ⟨hlevel, houter⟩ := List.forall_mem_cons.1 hdone
    have hgroup : (Node.plain (.text (openBraces level.outstanding) ::
        (level.done.reverse ++ inner))).IsLiteral (depth + 1) := by
      apply Node.IsLiteral.plain
      intro child hchild
      rcases List.mem_cons.1 hchild with rfl | hchild
      · exact .text
      rcases List.mem_append.1 hchild with hchild | hchild
      · exact (hlevel child (List.mem_reverse.1 hchild)).mono (Nat.zero_le _)
      · exact hinner child hchild
    rw [unclosed, List.length_cons, Nat.add_comm outer.length, ← Nat.add_assoc]
    exact ih (List.forall_mem_singleton.2 hgroup) houter

theorem IsLiteral.finish {stack : Stack} (h : stack.IsLiteral) :
    ∀ child ∈ stack.finish, child.IsLiteral maxLevels := by
  intro child hchild
  rcases List.mem_append.1 hchild with hroot | hunclosed
  · exact (h.root child (List.mem_reverse.1 hroot)).mono (Nat.zero_le _)
  · have hnone : ∀ inner ∈ ([] : List Node), inner.IsLiteral 0 := nofun
    have hdepth := isLiteral_unclosed hnone h.done child hunclosed
    rw [Nat.zero_add] at hdepth
    exact hdepth.mono h.length_le

end Stack

end Braces

namespace Node

/-- The tree of the tokens, every group kept, is written as the tokens that are read. -/
theorem renders_groups (tokens : List Token) : (ofTokens tokens).Renders (writtenText tokens) := by
  have hempty : Braces.Stack.empty.Renders "" := .nil
  have hfinish :=
    Braces.Stack.RendersLevels.unclosed (hempty.foldl (Braces.beforeEnd tokens)) .nil
  rw [String.empty_append, String.append_empty] at hfinish
  rw [ofTokens_eq_run]
  exact .plain hfinish

/-- The tree of tokens that never match is literal, its root included. -/
theorem isLiteral_ofTokens {tokens : List Token} (h : Unmatched tokens) :
    (ofTokens tokens).IsLiteral (Braces.maxLevels + 1) := by
  have hread : Unmatched (Braces.beforeEnd tokens) := h.sublist (List.takeWhile_sublist _)
  rw [ofTokens_eq_run]
  exact .plain (Braces.Stack.IsLiteral.empty.foldl hread (.inl rfl)).finish

end Node

/-! ## Expanding a page -/

namespace Expander

/-- A page that comes to a text and nothing else leaves its expander as it was, without problems. -/
theorem expand_eq_of_expansion {expander : Expander} {text : String}
    (h : expander.expansion = .ofText text) :
    expander.expand = (text, { expander with diagnostics := #[] }) := by
  have hexpand := expander.expand_eq rfl
  rw [← expansion, h] at hexpand
  exact hexpand

/-- A page whose braces never match comes to its text. -/
theorem expansion_unmatched {expander : Expander} {text : String}
    (htree : expander.tree = Node.parse text) (hunmatched : Unmatched (tokenize text))
    (hroom : Braces.maxLevels + 1 ≤ expander.setting.limits.maxNesting) :
    expander.expansion = .ofText (writtenText (tokenize text)) := by
  let reference := expander.setting.reference (expander.cache.body expander.setting.source)
  let tree := Node.ofTokens (tokenize text)
  have hliteral : tree.IsLiteral expander.setting.limits.maxNesting :=
    (Node.isLiteral_ofTokens hunmatched).mono hroom
  have htext : reference.evaluate expander.setting.limits.maxNesting tree .empty 0 =
      .ofText (writtenText (tokenize text)) :=
    hliteral.evaluate_eq reference (Node.renders_groups (tokenize text)) .empty 0
  -- nothing was cut off, so the collapsed tree comes to the same
  have hagrees : reference.Agrees reference 1
      (reference.evaluate expander.setting.limits.maxNesting tree .empty 0) := by
    rw [htext]
    exact Reference.agrees_self (fun _ => List.not_mem_nil) 1
  rw [expansion, htree]
  exact (Reference.evaluate_collapse _ tree .empty 0 hagrees).trans htext

/-- **Braces that never match are text.**  A page with no closing run behind an opening one expands
    to its tokens but for the skipped ones, whatever its source, its magic names and its limit of
    open bodies are, if one node more may be open than levels of braces.  There are no problems, no
    question is put and nothing is kept.  So the page expands to itself if it marks no parts for
    inclusion and has no skipped spans. -/
theorem expand_unmatched (text : String) (setting : Setting)
    (hunmatched : Unmatched (tokenize text))
    (hroom : Braces.maxLevels + 1 ≤ setting.limits.maxNesting) :
    let expanded := (ofPage text setting).expand
    expanded.1 = lexemes ((tokenize text).filter fun token => !token.isSkipped) ∧
      expanded.2.diagnostics = #[] ∧ expanded.2.cache = .empty ∧
      (onlyInclude? text = none → (∀ token ∈ tokenize text, token.isSkipped = false) →
        expanded.1 = text) := by
  intro expanded
  have hexpanded : expanded = (writtenText (tokenize text), ofPage text setting) :=
    expand_eq_of_expansion (expansion_unmatched rfl hunmatched hroom)
  rw [hexpanded, writtenText_tokenize]
  refine ⟨rfl, rfl, rfl, ?_⟩
  intro hwhole hnone
  have hall : (tokenize text).filter (fun token => !token.isSkipped) = tokenize text := by
    rw [List.filter_eq_self]
    intro token htoken
    rw [hnone token htoken]
    rfl
  rw [hall, tokenize_eq_lex_getD, Lexer.lexemes_lex, String.ofList_toList, hwhole]
  rfl

/-- A stray closing run and two levels that are never closed, with no body allowed and the least room
    that is enough; a comment in front vanishes. -/
theorem expand_unmatched_stray :
    let stray := "\x7d\x7d\x7b\x7ba|\x7b\x7b\x7bc"
    let commented := "<!-- b -->" ++ stray
    let setting : Setting := ⟨"", PageTable.empty.toSource, .empty, ⟨0, 257⟩⟩
    Braces.maxLevels + 1 ≤ setting.limits.maxNesting ∧
      Unmatched (tokenize stray) ∧ onlyInclude? stray = none ∧
      (∀ token ∈ tokenize stray, token.isSkipped = false) ∧
      (ofPage stray setting).expand.1 = stray ∧
      Unmatched (tokenize commented) ∧ (ofPage commented setting).expand.1 = stray ∧
      (ofPage commented setting).expand.2.diagnostics = #[] ∧
      (ofPage commented setting).expand.2.cache = .empty := by
  intro stray commented setting
  have hroom : Braces.maxLevels + 1 ≤ setting.limits.maxNesting := by decide
  have hstray : Unmatched (tokenize stray) := by decide +kernel
  have hcommented : Unmatched (tokenize commented) := by decide +kernel
  have hwhole : onlyInclude? stray = none := by decide +kernel
  have hnone : ∀ token ∈ tokenize stray, token.isSkipped = false := by decide +kernel
  obtain ⟨-, -, -, hself⟩ := expand_unmatched stray setting hstray hroom
  obtain ⟨htext, hdiagnostics, hcache, -⟩ := expand_unmatched commented setting hcommented hroom
  refine ⟨hroom, hstray, hwhole, hnone, hself hwhole hnone, hcommented, htext.trans ?_,
    hdiagnostics, hcache⟩
  decide +kernel

end Expander

end Transclusion
