/-
  Tokens: the pieces of wiki markup that template expansion tells apart.

  Expansion cares about braces, links and the separators of a call; everything else is text.  A
  token carries exactly what its source text cannot be rebuilt without: a brace run its length, a
  text its characters.  `Token.lexeme` rebuilds it.
-/

namespace Transclusion

/-- A piece of markup. -/
inductive Token where
  /-- A run of `length` opening braces. -/
  | openRun (length : Nat)
  /-- A run of `length` closing braces. -/
  | closeRun (length : Nat)
  /-- Two opening brackets. -/
  | linkOpen
  /-- Two closing brackets. -/
  | linkClose
  /-- A comment, an excluded block or an inclusion marker: read, and of no effect. -/
  | skipped (source : String)
  /-- Literal text: verbatim spans and lone special characters included. -/
  | text (source : String)
  /-- The end of the text. -/
  | endOfText
deriving DecidableEq, Inhabited

/-- `n` opening braces. -/
def openBraces (n : Nat) : String := String.ofList (List.replicate n '{')

/-- `n` closing braces. -/
def closeBraces (n : Nat) : String := String.ofList (List.replicate n '}')

theorem openBraces_zero : openBraces 0 = "" := rfl

theorem closeBraces_zero : closeBraces 0 = "" := rfl

theorem openBraces_add (m n : Nat) : openBraces (m + n) = openBraces m ++ openBraces n := by
  simp only [openBraces, ← String.ofList_append, List.replicate_append_replicate]

theorem closeBraces_add (m n : Nat) : closeBraces (m + n) = closeBraces m ++ closeBraces n := by
  simp only [closeBraces, ← String.ofList_append, List.replicate_append_replicate]

/-- The source text that a token stands for. -/
def Token.lexeme : Token → String
  | .openRun n => openBraces n
  | .closeRun n => closeBraces n
  | .linkOpen => "[["
  | .linkClose => "]]"
  | .skipped source => source
  | .text source => source
  | .endOfText => ""

end Transclusion
