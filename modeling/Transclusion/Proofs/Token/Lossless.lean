/-
  Tokens keep the whole text.

  `Lexer.Begins` says what can stand at the start of a text: a token, and the text that it leaves.
  It has one rule per kind of token, and each rule says what must not follow, for a run takes all
  braces there are and a text all ordinary characters.  That `Lexer.firstToken` finds such a token
  (`begins_firstToken`) is the only place where its cases are gone through.  What holds of all
  tokens is then shown by rules, and carried along the text by `lex_induction`.

  Main statements, for every text whatever its tags: the lexemes of the tokens are the text
  (`lexemes_lex`), the end is the last token and no other (`exists_lex_eq`), and no token is empty
  or a single brace taken for a run (`solid_of_mem_lex`).
-/
import Transclusion.Proofs.Token.Lexing

namespace Transclusion

/-! ## The text of tokens -/

/-- The source text of tokens in a row. -/
def lexemes (tokens : List Token) : String := String.join (tokens.map Token.lexeme)

theorem toList_lexemes_cons (token : Token) (later : List Token) :
    (lexemes (token :: later)).toList = token.lexeme.toList ++ (lexemes later).toList := by
  rw [lexemes, List.map_cons, String.join_cons, String.toList_append]
  rfl

/-- An end behind the tokens adds nothing to their text. -/
theorem lexemes_append_endOfText (tokens : List Token) :
    lexemes (tokens ++ [.endOfText]) = lexemes tokens := by
  rw [← String.toList_inj]
  simp [lexemes, String.toList_join, Token.lexeme]

/-- A token that stands for something: a run of at least two braces, and no empty text. -/
def Token.Solid : Token → Prop
  | .openRun n | .closeRun n => 2 ≤ n
  | .skipped source | .text source => source ≠ ""
  | .linkOpen | .linkClose | .endOfText => True

namespace Lexer

/-! ## What a text begins with -/

/-- The characters that are text on their own. -/
def marks : List Char := ['[', ']', '|', ':', '{', '}']

/-- The text begins with the token, and the rest is left. -/
inductive Begins : List Char → Token → List Char → Prop where
  | openRun {n : Nat} {rest : List Char} (hn : 2 ≤ n) (hstop : rest.head? ≠ some '{') :
      Begins (List.replicate n '{' ++ rest) (.openRun n) rest
  | closeRun {n : Nat} {rest : List Char} (hn : 2 ≤ n) (hstop : rest.head? ≠ some '}') :
      Begins (List.replicate n '}' ++ rest) (.closeRun n) rest
  | linkOpen {rest : List Char} : Begins ('[' :: '[' :: rest) .linkOpen rest
  | linkClose {rest : List Char} : Begins (']' :: ']' :: rest) .linkClose rest
  /-- A bar or a colon, or a brace or bracket that stands alone. -/
  | mark {c : Char} {rest : List Char} (hc : c ∈ marks)
      (hstop : c ≠ '|' → c ≠ ':' → rest.head? ≠ some c) :
      Begins (c :: rest) (.text (String.ofList [c])) rest
  /-- Ordinary characters, as many as there are. -/
  | word {word rest : List Char} (hne : word ≠ []) (hword : ∀ c ∈ word, isSpecial c = false)
      (hstop : ∀ c, rest.head? = some c → isSpecial c = true) :
      Begins (word ++ rest) (.text (String.ofList word)) rest
  | span {cs : List Char} {kind : SpanKind} {length : Nat}
      (h : spanAt? ('<' :: cs) = some (kind, length)) :
      Begins ('<' :: cs) (kind.token (String.ofList (('<' :: cs).take length)))
        (('<' :: cs).drop length)
  /-- A `<` at which no span begins. -/
  | noSpan {rest : List Char} (h : spanAt? ('<' :: rest) = none) :
      Begins ('<' :: rest) (.text (String.ofList ['<'])) rest

/-- A brace begins a run, or stands alone. -/
theorem begins_brace {brace : Char} {run : Nat → Token} (hbrace : brace ∈ marks)
    (hrun : ∀ {n rest}, 2 ≤ n → rest.head? ≠ some brace →
      Begins (List.replicate n brace ++ rest) (run n) rest) (cs : List Char) :
    let first := if runLength brace cs == 0 then (.text (String.ofList [brace]), 0)
      else (run (runLength brace cs + 1), runLength brace cs)
    Begins (brace :: cs) first.1 (cs.drop first.2) := by
  intro first
  simp only [first]
  obtain ⟨later, hcs, hlater⟩ := eq_replicate_append brace cs
  split
  · next hzero =>
    have halone : runLength brace cs = 0 := by simpa using hzero
    rw [halone, List.replicate_zero, List.nil_append] at hcs
    exact .mark hbrace fun _ _ => hcs ▸ hlater
  · next hmore =>
    have hlong : 2 ≤ runLength brace cs + 1 := by
      have : runLength brace cs ≠ 0 := by simpa using hmore
      omega
    have hdrop : cs.drop (runLength brace cs) = later :=
      (congrArg (List.drop (runLength brace cs)) hcs).trans
        (List.drop_left' List.length_replicate)
    have := hrun hlong hlater
    rwa [List.replicate_succ, List.cons_append, ← hcs, ← hdrop] at this

/-- A bracket begins a link, or stands alone. -/
theorem begins_bracket {bracket : Char} {link : Token} (hbracket : bracket ∈ marks)
    (hlink : ∀ {rest}, Begins (bracket :: bracket :: rest) link rest) (cs : List Char) :
    let first := if cs.head? == some bracket then (link, 1)
      else (Token.text (String.ofList [bracket]), 0)
    Begins (bracket :: cs) first.1 (cs.drop first.2) := by
  intro first
  simp only [first]
  split
  · next hhead =>
    obtain ⟨later, rfl⟩ := List.head?_eq_some_iff.1 (by simpa using hhead)
    exact hlink
  · next hhead => exact .mark hbracket fun _ _ => by simpa using hhead

/-- A `<` begins a span, or stands alone. -/
theorem begins_tag (cs : List Char) :
    Begins ('<' :: cs) (firstToken '<' cs).1 (cs.drop (firstToken '<' cs).2) := by
  cases hspan : spanAt? ('<' :: cs) with
  | none =>
    have hfirst : firstToken '<' cs = (.text (String.ofList ['<']), 0) := by
      simp [firstToken, hspan]
    rw [hfirst]
    exact .noSpan hspan
  | some found =>
    obtain ⟨kind, length⟩ := found
    have hfirst : firstToken '<' cs =
        (kind.token (String.ofList (('<' :: cs).take length)), length - 1) := by
      simp [firstToken, hspan]
    obtain ⟨more, rfl⟩ := Nat.exists_eq_add_of_lt (pos_of_spanAt? hspan)
    rw [hfirst]
    have := Begins.span hspan
    simpa using this

/-- An ordinary character begins a text that goes on up to the next special one. -/
theorem begins_word {c : Char} (hc : isSpecial c = false) (cs : List Char) :
    Begins (c :: cs) (firstToken c cs).1 (cs.drop (firstToken c cs).2) := by
  let ordinary := fun d => !isSpecial d
  have hcs : cs.takeWhile ordinary ++ cs.dropWhile ordinary = cs := List.takeWhile_append_dropWhile
  have hdrop : cs.drop (cs.takeWhile ordinary).length = cs.dropWhile ordinary :=
    (congrArg (List.drop _) hcs.symm).trans (List.drop_left' rfl)
  have hword : ∀ d ∈ c :: cs.takeWhile ordinary, isSpecial d = false := by
    intro d hd
    rcases List.mem_cons.1 hd with rfl | hd
    · exact hc
    · have hall : (cs.takeWhile ordinary).all ordinary = true := List.all_takeWhile
      simpa [ordinary] using List.all_eq_true.1 hall d hd
  have hstop : ∀ d, (cs.dropWhile ordinary).head? = some d → isSpecial d = true := by
    intro d hd
    have := List.head?_dropWhile_not ordinary cs
    rw [hd] at this
    simpa [ordinary] using this
  rw [firstToken_of_not_isSpecial hc, hdrop]
  have := Begins.word (List.cons_ne_nil c _) hword hstop
  rwa [List.cons_append, hcs] at this

/-- **What the first token is**: one that the text begins with, and what it leaves is the rest. -/
theorem begins_firstToken (c : Char) (cs : List Char) :
    Begins (c :: cs) (firstToken c cs).1 (cs.drop (firstToken c cs).2) := by
  by_cases hopen : c = '{'
  · subst hopen
    exact begins_brace (by decide) .openRun cs
  by_cases hclose : c = '}'
  · subst hclose
    exact begins_brace (by decide) .closeRun cs
  by_cases hlinkOpen : c = '['
  · subst hlinkOpen
    exact begins_bracket (by decide) .linkOpen cs
  by_cases hlinkClose : c = ']'
  · subst hlinkClose
    exact begins_bracket (by decide) .linkClose cs
  by_cases htag : c = '<'
  · subst htag
    exact begins_tag cs
  by_cases hspecial : isSpecial c = true
  · -- a bar or a colon stands alone
    have halone : firstToken c cs = (.text (String.ofList [c]), 0) := by
      simp [firstToken, hopen, hclose, hlinkOpen, hlinkClose, htag, hspecial]
    have hc : c = '|' ∨ c = ':' := by
      simpa [isSpecial, hopen, hclose, hlinkOpen, hlinkClose, htag] using hspecial
    rw [halone]
    refine .mark ?_ fun hbar hcolon => (hc.elim hbar hcolon).elim
    rcases hc with rfl | rfl <;> decide
  · exact begins_word (by simpa using hspecial) cs

/-! ## What holds of the first token -/

namespace Begins

variable {cs rest : List Char} {token : Token}

theorem append_eq (h : Begins cs token rest) : token.lexeme.toList ++ rest = cs := by
  cases h with
  | openRun hn hstop => simp [Token.lexeme, openBraces]
  | closeRun hn hstop => simp [Token.lexeme, closeBraces]
  | linkOpen => rfl
  | linkClose => rfl
  | mark hc hstop => simp [Token.lexeme]
  | word hne hword hstop => simp [Token.lexeme]
  | @span cs kind length h => cases kind <;> simp [SpanKind.token, Token.lexeme]
  | noSpan h => simp [Token.lexeme]

theorem solid (h : Begins cs token rest) : token.Solid := by
  cases h with
  | openRun hn hstop => exact hn
  | closeRun hn hstop => exact hn
  | linkOpen => trivial
  | linkClose => trivial
  | mark hc hstop => simp [Token.Solid]
  | word hne hword hstop => simpa [Token.Solid] using hne
  | @span cs kind length h =>
    have := pos_of_spanAt? h
    cases kind <;> simp [SpanKind.token, Token.Solid] <;> omega
  | noSpan h => simp [Token.Solid]

theorem ne_endOfText (h : Begins cs token rest) : token ≠ .endOfText := by
  cases h with
  | @span cs kind length h => cases kind <;> exact nofun
  | _ => exact nofun

end Begins

/-! ## All tokens -/

/-- Along the tokens of a text: from the text that a first token leaves to the text itself. -/
@[elab_as_elim]
theorem lex_induction {motive : List Char → List Token → Prop} (nil : motive [] [.endOfText])
    (cons : ∀ {cs token rest}, Begins cs token rest → motive rest (lex rest) →
      motive cs (token :: lex rest)) (cs : List Char) : motive cs (lex cs) := by
  induction hlength : cs.length using Nat.strongRecOn generalizing cs with
  | _ length ih =>
    cases cs with
    | nil => exact nil
    | cons c cs =>
      rw [lex_cons]
      apply cons (begins_firstToken c cs)
      refine ih _ ?_ _ rfl
      rw [← hlength, List.length_drop, List.length_cons]
      omega

/-- **Nothing is lost**: the lexemes of the tokens are the text. -/
theorem lexemes_lex (cs : List Char) : lexemes (lex cs) = String.ofList cs := by
  rw [← String.toList_inj, String.toList_ofList]
  induction cs using lex_induction with
  | nil => rfl
  | cons h ih => rw [toList_lexemes_cons, ih, h.append_eq]

/-- **One end**: the tokens end with it, and it stands nowhere else. -/
theorem exists_lex_eq (cs : List Char) :
    ∃ pieces, lex cs = pieces ++ [.endOfText] ∧ .endOfText ∉ pieces := by
  induction cs using lex_induction with
  | nil => exact ⟨[], rfl, List.not_mem_nil⟩
  | cons h ih =>
    obtain ⟨pieces, hpieces, hend⟩ := ih
    refine ⟨_ :: pieces, by rw [hpieces, List.cons_append], ?_⟩
    rw [List.mem_cons, not_or]
    exact ⟨h.ne_endOfText.symm, hend⟩

/-- **No empty token**, and no run of fewer than two braces. -/
theorem solid_of_mem_lex (cs : List Char) : ∀ token ∈ lex cs, token.Solid := by
  induction cs using lex_induction with
  | nil =>
    intro token htoken
    rw [List.mem_singleton.1 htoken]
    trivial
  | cons h ih =>
    intro token htoken
    rcases List.mem_cons.1 htoken with rfl | hlater
    · exact h.solid
    · exact ih token hlater

end Lexer

/-- The tokens of a page are those of the text that an including page sees. -/
theorem tokenize_eq_lex_getD (text : String) :
    tokenize text = Lexer.lex ((onlyInclude? text).getD text).toList := by
  unfold tokenize
  cases onlyInclude? text <;> rfl

end Transclusion
