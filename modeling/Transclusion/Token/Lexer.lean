/-
  Splitting wiki text into tokens.

  A text is a document: one token behind another, up to its end.  What token begins at a character
  is found by trying the `forms` of tokens in their order, of which the first that matches counts,
  so a brace or bracket is text only where no run and no link begins.

  A text that is no document is taken as a single text.  That never happens, for every character is
  special or ordinary, and one of the last two forms matches it; so splitting never fails, and
  `lexeme` undoes it.
-/
import Transclusion.OnlyInclude
import Transclusion.Span

namespace Transclusion

/-- Whether there is nothing in a text or in what is skipped. -/
def Token.isEmpty : Token → Bool
  | .text source => source.isEmpty
  | .skipped source => source.isEmpty
  | _ => false

namespace Lexer

/-- Characters that a run of ordinary text stops at. -/
def isSpecial (c : Char) : Bool :=
  c == '[' || c == ']' || c == '|' || c == ':' || c == '{' || c == '}' || c == '<'

/-- How many characters equal to `c` stand at the start of `cs`. -/
def runLength (c : Char) (cs : List Char) : Nat := (cs.takeWhile (· == c)).length

/-! ## The forms of tokens -/

/-- A form of tokens: the token of this form at the start of a text, if one stands there, and how
    many characters it takes. -/
abbrev Form := List Char → Option (Token × Nat)

/-- Braces of a kind, as many as there are, but two at least. -/
def braceRun (brace : Char) (run : Nat → Token) : Form := fun cs =>
  let length := runLength brace cs
  if 2 ≤ length then some (run length, length) else none

/-- Two brackets of a kind. -/
def bracketPair (bracket : Char) (link : Token) : Form := fun cs =>
  if [bracket, bracket].isPrefixOf cs then some (link, 2) else none

/-- A span. -/
def span : Form := fun cs =>
  (spanAt? cs).map fun (kind, length) => (kind.token (String.ofList (cs.take length)), length)

/-- A special character on its own. -/
def special : Form
  | [] => none
  | c :: _ => if isSpecial c then some (.text (String.ofList [c]), 1) else none

/-- Ordinary characters, as many as there are, but one at least. -/
def word : Form := fun cs =>
  let ordinary := cs.takeWhile fun c => !isSpecial c
  if ordinary.isEmpty then none else some (.text (String.ofList ordinary), ordinary.length)

/-- The forms of tokens, in the order in which they are tried. -/
def forms : List Form :=
  [braceRun '{' .openRun, braceRun '}' .closeRun, bracketPair '[' .linkOpen,
    bracketPair ']' .linkClose, span, special, word]

/-- The token that begins a text, and how many characters it takes. -/
def tokenAt? : Form := fun cs => forms.findSome? fun form => form cs

/-! ## Documents -/

/-- The tokens of `cs` behind those of `done`, which are held in reverse; `skip` characters of `cs`
    belong to the last of these.  There are none if at some character no token begins. -/
def tokensOnto? (done : List Token) : (skip : Nat) → List Char → Option (List Token)
  | _, [] => some done.reverse
  | skip + 1, _ :: cs => tokensOnto? done skip cs
  | 0, c :: cs =>
    match tokenAt? (c :: cs) with
    | none => none
    | some (token, length) => tokensOnto? (token :: done) (length - 1) cs

/-- The tokens of a document. -/
def document? (cs : List Char) : Option (List Token) := tokensOnto? [] 0 cs

/-- The tokens of a text that is taken as it is. -/
def lex (cs : List Char) : List Token :=
  let tokens := (document? cs).getD [.text (String.ofList cs)]
  tokens.filter (fun token => !token.isEmpty) ++ [.endOfText]

end Lexer

/-- The tokens of a page as an including page sees it: of its only-include spans when it marks
    any, else of all of it.  What the spans hold is not filtered again. -/
def tokenize (text : String) : List Token :=
  match onlyInclude? text with
  | some kept => Lexer.lex kept.toList
  | none => Lexer.lex text.toList

end Transclusion
