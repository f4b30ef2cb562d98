/-
  The token lists that texts have.

  Not every list of tokens is the list of a text: two runs of opening braces side by side are one
  run, and two brackets a link.  `Token.merges` says of two neighbours that they would be read as
  other tokens, and a list is canonical when no neighbours merge.  For texts without `<` these lists
  are exactly those of the tokenizer.

  The crux is `merges_eq_goesOn`: whether two tokens merge depends only on the first one and on the
  character that the second begins with.  So a list is canonical when each of its tokens has its end
  in the text behind it (`canonical_cons`), which is what the rules of `Lexer.Begins` ask for.

  Main statement, `tokenize_canonical`: tokenizing loses nothing and ends properly, for every text,
  and on the texts without `<` it is a bijection to the canonical lists, with `lexemes` as inverse.
-/
import Mathlib.Data.List.Chain
import Mathlib.Data.Set.Function
import Transclusion.Proofs.Token.Lossless

namespace Transclusion

namespace Token

open Lexer (isSpecial marks)

/-! ## Pieces -/

/-- What a text without `<` is made of. -/
inductive IsPiece : Token → Prop where
  | openRun {n : Nat} (hn : 2 ≤ n) : IsPiece (.openRun n)
  | closeRun {n : Nat} (hn : 2 ≤ n) : IsPiece (.closeRun n)
  | linkOpen : IsPiece .linkOpen
  | linkClose : IsPiece .linkClose
  | mark {c : Char} (hc : c ∈ marks) : IsPiece (.text (String.ofList [c]))
  | word {word : List Char} (hne : word ≠ []) (hword : ∀ c ∈ word, isSpecial c = false) :
      IsPiece (.text (String.ofList word))

/-- Text without special characters. -/
def isWord : Token → Bool
  | .text source => source.toList.all fun c => !isSpecial c
  | _ => false

/-- The text of just this character. -/
def isLone (c : Char) : Token → Bool
  | .text source => source.toList == [c]
  | _ => false

/-- One or more opening braces. -/
def isOpening : Token → Bool
  | .openRun _ => true
  | token => token.isLone '{'

/-- One or more closing braces. -/
def isClosing : Token → Bool
  | .closeRun _ => true
  | token => token.isLone '}'

/-- One or two opening brackets. -/
def isLinkOpening : Token → Bool
  | .linkOpen => true
  | token => token.isLone '['

/-- One or two closing brackets. -/
def isLinkClosing : Token → Bool
  | .linkClose => true
  | token => token.isLone ']'

/-- Whether the two tokens, one behind the other, are read as other ones: two words as one, braces
    and braces as one run, a bracket and a bracket as a link. -/
def merges (first second : Token) : Bool :=
  (first.isWord && second.isWord) || (first.isOpening && second.isOpening) ||
    (first.isClosing && second.isClosing) || (first.isLone '[' && second.isLinkOpening) ||
    (first.isLone ']' && second.isLinkClosing)

/-- The tokens that a text without `<` has before its end. -/
structure Canonical (pieces : List Token) : Prop where
  piece : ∀ token ∈ pieces, token.IsPiece
  apart : pieces.IsChain fun first second => first.merges second = false

/-! ## Merging with a character -/

/-- Whether the token takes a character that stands behind it. -/
def goesOn (token : Token) (c : Char) : Bool :=
  (token.isWord && !isSpecial c) || (token.isOpening && c == '{') ||
    (token.isClosing && c == '}') || (token.isLone '[' && c == '[') || (token.isLone ']' && c == ']')

/-- The token begins with the character, and is to the tokens before it what the character is. -/
structure StartsAs (token : Token) (c : Char) : Prop where
  head? : token.lexeme.toList.head? = some c
  isWord : token.isWord = !isSpecial c
  isOpening : token.isOpening = (c == '{')
  isClosing : token.isClosing = (c == '}')
  isLinkOpening : token.isLinkOpening = (c == '[')
  isLinkClosing : token.isLinkClosing = (c == ']')

/-- Merging with a token is going on with its first character. -/
theorem StartsAs.merges_eq_goesOn {second : Token} {c : Char} (h : second.StartsAs c)
    (first : Token) : first.merges second = first.goesOn c := by
  simp only [merges, goesOn, h.isWord, h.isOpening, h.isClosing, h.isLinkOpening, h.isLinkClosing]

theorem head?_replicate {n : Nat} (hn : 2 ≤ n) (c : Char) :
    (String.ofList (List.replicate n c)).toList.head? = some c := by
  match n, hn with
  | n + 2, _ => rw [String.toList_ofList, List.replicate_succ, List.head?_cons]

/-- A word is no text of one special character. -/
theorem isLone_word {word : List Char} (hword : ∀ c ∈ word, isSpecial c = false) {d : Char}
    (hd : isSpecial d = true) : (Token.text (String.ofList word)).isLone d = false := by
  simp only [isLone, String.toList_ofList, beq_eq_false_iff_ne]
  rintro rfl
  exact absurd hd (by simp [hword d List.mem_cons_self])

/-- Every piece begins with a character, and is to the tokens before it what this character is. -/
theorem IsPiece.exists_startsAs {token : Token} (h : token.IsPiece) : ∃ c, token.StartsAs c := by
  cases h with
  | @openRun n hn => exact ⟨'{', head?_replicate hn '{', rfl, rfl, rfl, rfl, rfl⟩
  | @closeRun n hn => exact ⟨'}', head?_replicate hn '}', rfl, rfl, rfl, rfl, rfl⟩
  | linkOpen => exact ⟨'[', rfl, rfl, rfl, rfl, rfl, rfl⟩
  | linkClose => exact ⟨']', rfl, rfl, rfl, rfl, rfl, rfl⟩
  | @mark c hc =>
    simp only [marks, List.mem_cons, List.not_mem_nil, or_false] at hc
    rcases hc with rfl | rfl | rfl | rfl | rfl | rfl <;>
      exact ⟨_, rfl, by decide, by decide, by decide, by decide, by decide⟩
  | @word word hne hword =>
    obtain ⟨c, word, rfl⟩ := List.exists_cons_of_ne_nil hne
    have hc := hword c List.mem_cons_self
    have hbeq : ∀ d, isSpecial d = true → (c == d) = false := by
      intro d hd
      rw [beq_eq_false_iff_ne]
      rintro rfl
      rw [hc] at hd
      exact absurd hd nofun
    refine ⟨c, by simp [Token.lexeme], ?_, ?_, ?_, ?_, ?_⟩
    · simpa [Token.isWord, hc] using fun d hd => hword d (List.mem_cons_of_mem c hd)
    · exact (isLone_word hword rfl).trans (hbeq '{' rfl).symm
    · exact (isLone_word hword rfl).trans (hbeq '}' rfl).symm
    · exact (isLone_word hword rfl).trans (hbeq '[' rfl).symm
    · exact (isLone_word hword rfl).trans (hbeq ']' rfl).symm

/-! ## Where a piece ends -/

@[simp] theorem goesOn_openRun (n : Nat) (d : Char) : (openRun n).goesOn d = (d == '{') := by
  simp [goesOn, isWord, isOpening, isClosing, isLone]

@[simp] theorem goesOn_closeRun (n : Nat) (d : Char) : (closeRun n).goesOn d = (d == '}') := by
  simp [goesOn, isWord, isOpening, isClosing, isLone]

/-- A bar or a colon takes nothing, a brace or bracket one more of its kind. -/
theorem goesOn_mark {c : Char} (hc : c ∈ marks) (d : Char) :
    (text (String.ofList [c])).goesOn d = (c != '|' && c != ':' && d == c) := by
  simp only [marks, List.mem_cons, List.not_mem_nil, or_false] at hc
  rcases hc with rfl | rfl | rfl | rfl | rfl | rfl <;>
    simp [goesOn, isWord, isOpening, isClosing, isLone, isSpecial]

/-- A word takes whatever is not special. -/
theorem goesOn_word {word : List Char} (hword : ∀ c ∈ word, isSpecial c = false) (d : Char) :
    (text (String.ofList word)).goesOn d = !isSpecial d := by
  have hisWord : (text (String.ofList word)).isWord = true := by
    simpa [isWord] using hword
  have hopening : (text (String.ofList word)).isOpening = false := isLone_word hword rfl
  have hclosing : (text (String.ofList word)).isClosing = false := isLone_word hword rfl
  have hopen : (text (String.ofList word)).isLone '[' = false := isLone_word hword rfl
  have hclose : (text (String.ofList word)).isLone ']' = false := isLone_word hword rfl
  simp [goesOn, hisWord, hopening, hclosing, hopen, hclose]

/-! ## Canonical lists from the left -/

/-- A token goes on in the text of later pieces when it merges with the first of them. -/
theorem goesOn_lexemes_iff (token : Token) {later : List Token} (h : ∀ piece ∈ later, piece.IsPiece) :
    (∀ c, (lexemes later).toList.head? = some c → token.goesOn c = false) ↔
      ∀ second ∈ later.head?, token.merges second = false := by
  cases later with
  | nil => exact iff_of_true nofun nofun
  | cons second later =>
    obtain ⟨c, hstart⟩ := (h second List.mem_cons_self).exists_startsAs
    have hhead : (lexemes (second :: later)).toList.head? = some c := by
      rw [toList_lexemes_cons, List.head?_append, hstart.head?, Option.some_or]
    simp only [hhead, List.head?_cons, Option.mem_def, Option.some.injEq, forall_eq',
      hstart.merges_eq_goesOn]

/-- **Canonical lists**: a piece is put in front that does not go on in the text behind it. -/
theorem canonical_cons {token : Token} {later : List Token} :
    Canonical (token :: later) ↔ token.IsPiece ∧
      (∀ c, (lexemes later).toList.head? = some c → token.goesOn c = false) ∧ Canonical later := by
  constructor
  · intro h
    have hlater : ∀ piece ∈ later, piece.IsPiece := fun piece hpiece =>
      h.piece piece (List.mem_cons_of_mem token hpiece)
    obtain ⟨hhead, hchain⟩ := List.isChain_cons.1 h.apart
    exact ⟨h.piece token List.mem_cons_self, (goesOn_lexemes_iff token hlater).2 hhead,
      hlater, hchain⟩
  · rintro ⟨hpiece, hstop, hlater⟩
    refine ⟨?_, List.isChain_cons.2 ⟨(goesOn_lexemes_iff token hlater.piece).1 hstop, hlater.apart⟩⟩
    intro piece hmem
    rcases List.mem_cons.1 hmem with rfl | hmem
    · exact hpiece
    · exact hlater.piece piece hmem

theorem canonical_nil : Canonical [] := ⟨nofun, .nil⟩

end Token

namespace Lexer

open Token

/-! ## Canonical lists and texts -/

/-- A text that begins otherwise has another first character. -/
theorem beq_eq_false_of_head? {rest : List Char} {brace c : Char} (hstop : rest.head? ≠ some brace)
    (hhead : rest.head? = some c) : (c == brace) = false := by
  rw [beq_eq_false_iff_ne]
  rintro rfl
  exact hstop hhead

/-- In a text without `<` the first token is a piece, and ends where it is said to. -/
theorem Begins.isPiece {cs rest : List Char} {token : Token} (h : Begins cs token rest)
    (htags : '<' ∉ cs) :
    token.IsPiece ∧ ∀ c, rest.head? = some c → token.goesOn c = false := by
  cases h with
  | @openRun n _ hn hstop =>
    refine ⟨.openRun hn, ?_⟩
    intro c hhead
    rw [goesOn_openRun, beq_eq_false_of_head? hstop hhead]
  | @closeRun n _ hn hstop =>
    refine ⟨.closeRun hn, ?_⟩
    intro c hhead
    rw [goesOn_closeRun, beq_eq_false_of_head? hstop hhead]
  | linkOpen => exact ⟨.linkOpen, fun _ _ => rfl⟩
  | linkClose => exact ⟨.linkClose, fun _ _ => rfl⟩
  | @mark c _ hc hstop =>
    refine ⟨.mark hc, ?_⟩
    intro d hhead
    rw [goesOn_mark hc]
    by_cases hd : d = c
    · subst hd
      by_cases hbar : d = '|'
      · rw [hbar]; rfl
      by_cases hcolon : d = ':'
      · rw [hcolon]; rfl
      · exact absurd hhead (hstop hbar hcolon)
    · simp [hd]
  | @word word _ hne hword hstop =>
    refine ⟨.word hne hword, ?_⟩
    intro d hhead
    rw [goesOn_word hword, hstop d hhead]
    rfl
  | span h => exact absurd List.mem_cons_self htags
  | noSpan h => exact absurd List.mem_cons_self htags

/-- A character that is text on its own is a token where it does not go on. -/
theorem firstToken_mark {c : Char} (hc : c ∈ marks) {rest : List Char}
    (hstop : c ≠ '|' → c ≠ ':' → rest.head? ≠ some c) :
    firstToken c rest = (.text (String.ofList [c]), 0) := by
  simp only [marks, List.mem_cons, List.not_mem_nil, or_false] at hc
  rcases hc with rfl | rfl | rfl | rfl | rfl | rfl
  · simp [firstToken, hstop (by decide) (by decide)]
  · simp [firstToken, hstop (by decide) (by decide)]
  · rfl
  · rfl
  · simp [firstToken, runLength_eq_zero (hstop (by decide) (by decide))]
  · simp [firstToken, runLength_eq_zero (hstop (by decide) (by decide))]

/-- A piece is read back when it does not go on in the text behind it. -/
theorem lex_piece {token : Token} (h : token.IsPiece) {rest : List Char}
    (hstop : ∀ c, rest.head? = some c → token.goesOn c = false) :
    lex (token.lexeme.toList ++ rest) = token :: lex rest := by
  cases h with
  | @openRun n hn =>
    rw [Token.lexeme, openBraces, String.toList_ofList]
    apply lex_openRun hn
    intro hhead
    exact absurd (hstop '{' hhead) (by simp)
  | @closeRun n hn =>
    rw [Token.lexeme, closeBraces, String.toList_ofList]
    apply lex_closeRun hn
    intro hhead
    exact absurd (hstop '}' hhead) (by simp)
  | linkOpen => exact lex_cons '[' ('[' :: rest)
  | linkClose => exact lex_cons ']' (']' :: rest)
  | @mark c hc =>
    rw [Token.lexeme, String.toList_ofList, List.singleton_append, lex_cons, firstToken_mark hc]
    · rfl
    · intro hbar hcolon hhead
      have := hstop c hhead
      rw [goesOn_mark hc] at this
      simp [hbar, hcolon] at this
  | @word word hne hword =>
    rw [Token.lexeme, String.toList_ofList]
    apply lex_text hne hword
    intro c hhead
    simpa [goesOn_word hword] using hstop c hhead

/-- A text without `<` has a canonical list. -/
theorem exists_canonical_lex {cs : List Char} (htags : '<' ∉ cs) :
    ∃ pieces, lex cs = pieces ++ [.endOfText] ∧ Canonical pieces := by
  induction cs using lex_induction with
  | nil => exact ⟨[], rfl, canonical_nil⟩
  | @cons cs token rest h ih =>
    have hrest : '<' ∉ rest := by
      rw [← h.append_eq, List.mem_append, not_or] at htags
      exact htags.2
    obtain ⟨pieces, hlex, hpieces⟩ := ih hrest
    obtain ⟨hpiece, hstop⟩ := h.isPiece htags
    -- what the pieces of the rest begin with is what the rest begins with
    have htext : (lexemes pieces).toList = rest := by
      rw [← lexemes_append_endOfText, ← hlex, lexemes_lex, String.toList_ofList]
    refine ⟨token :: pieces, by rw [hlex, List.cons_append], ?_⟩
    exact canonical_cons.2 ⟨hpiece, htext ▸ hstop, hpieces⟩

/-- **A canonical list is read back** from its text. -/
theorem lex_lexemes {pieces : List Token} (h : Canonical pieces) :
    lex (lexemes pieces).toList = pieces ++ [.endOfText] := by
  induction pieces with
  | nil => rfl
  | cons token later ih =>
    obtain ⟨hpiece, hstop, hlater⟩ := canonical_cons.1 h
    rw [toList_lexemes_cons, lex_piece hpiece hstop, ih hlater]
    rfl

/-- There is no `<` in the text of a piece. -/
theorem not_mem_lexeme {token : Token} (h : token.IsPiece) : '<' ∉ token.lexeme.toList := by
  cases h with
  | openRun hn => simp [Token.lexeme, openBraces]
  | closeRun hn => simp [Token.lexeme, closeBraces]
  | linkOpen => decide
  | linkClose => decide
  | @mark c hc =>
    simp only [Token.lexeme, String.toList_ofList, List.mem_singleton]
    rintro rfl
    exact absurd hc (by decide)
  | @word word hne hword =>
    rw [Token.lexeme, String.toList_ofList]
    intro hmem
    exact absurd (hword '<' hmem) (by decide)

end Lexer

/-! ## The tokenizer as a bijection -/

/-- The token lists that are canonical up to their end. -/
def canonicalLists : Set (List Token) :=
  {tokens | ∃ pieces, tokens = pieces ++ [.endOfText] ∧ Token.Canonical pieces}

/-- The texts without `<`. -/
def untagged : Set String := {text | '<' ∉ text.toList}

theorem mem_untagged {text : String} : text ∈ untagged ↔ '<' ∉ text.toList := Iff.rfl

theorem mapsTo_tokenize : Set.MapsTo tokenize untagged canonicalLists := by
  intro text htags
  rw [tokenize_eq_lex_toList htags]
  exact Lexer.exists_canonical_lex htags

theorem mapsTo_lexemes : Set.MapsTo lexemes canonicalLists untagged := by
  rintro tokens ⟨pieces, rfl, hpieces⟩
  rw [mem_untagged, lexemes_append_endOfText, lexemes, String.toList_join, List.mem_flatMap]
  rintro ⟨lexeme, hlexeme, hmem⟩
  obtain ⟨token, htoken, rfl⟩ := List.mem_map.1 hlexeme
  exact Lexer.not_mem_lexeme (hpieces.piece token htoken) hmem

theorem lexemes_tokenize (text : String) :
    lexemes (tokenize text) = (onlyInclude? text).getD text := by
  rw [tokenize_eq_lex_getD, Lexer.lexemes_lex, String.ofList_toList]

/-- Joining and splitting undo each other. -/
theorem invOn_lexemes_tokenize : Set.InvOn lexemes tokenize untagged canonicalLists := by
  constructor
  · intro text htags
    rw [tokenize_eq_lex_toList htags, Lexer.lexemes_lex, String.ofList_toList]
  · rintro tokens ⟨pieces, rfl, hpieces⟩
    have htags : '<' ∉ (lexemes (pieces ++ [.endOfText])).toList :=
      mapsTo_lexemes ⟨pieces, rfl, hpieces⟩
    rw [tokenize_eq_lex_toList htags, lexemes_append_endOfText, Lexer.lex_lexemes hpieces]

/-- **Tokens are lossless and canonical.**  For every text the lexemes of its tokens are what an
    including page sees of it; the tokens end with an end that stands nowhere else, no brace run is
    shorter than two and no text or skipped span is empty.  Between the texts without `<` and the
    canonical lists the tokenizer is a bijection, and joining the lexemes is its inverse. -/
theorem tokenize_canonical :
    (∀ text, lexemes (tokenize text) = (onlyInclude? text).getD text ∧
      (∃ pieces, tokenize text = pieces ++ [.endOfText] ∧ .endOfText ∉ pieces) ∧
      ∀ token ∈ tokenize text, token.Solid) ∧
    Set.BijOn tokenize untagged canonicalLists ∧
    Set.InvOn lexemes tokenize untagged canonicalLists := by
  refine ⟨?_, invOn_lexemes_tokenize.bijOn mapsTo_tokenize mapsTo_lexemes, invOn_lexemes_tokenize⟩
  intro text
  refine ⟨lexemes_tokenize text, ?_⟩
  rw [tokenize_eq_lex_getD]
  exact ⟨Lexer.exists_lex_eq _, Lexer.solid_of_mem_lex _⟩

/-- A list that is not canonical is read otherwise: of three brackets the first two are a link. -/
example : tokenize (lexemes [.text "[", .linkOpen, .endOfText]) =
    [.linkOpen, .text "[", .endOfText] := by decide +kernel

end Transclusion
