/-
  From tokens to a tree: which braces belong together.

  Two braces make a call and three a placeholder, but a run of braces says only how many there are.
  Reading goes from left to right.  An opening run starts a level; a closing run ends what the
  innermost level holds, as a call when the run has two braces left or the level has, else as a
  placeholder.  What is left of the closing run goes on to the level that is innermost then.

  * A level whose run is used up but for one brace keeps it as a text in front.
  * A level that is still open at the end of the text keeps all of its braces that way.
  * A closing run that finds no open level is text.
  * At `maxLevels` open levels a further opening run is text.

  `weight` bounds how often the tokens that are left can still be looked at, so the reading ends.
-/
import Transclusion.Node.Collapse
import Transclusion.Node.Parts
import Transclusion.Token.Lexer

namespace Transclusion

/-- What a token counts for: a run of no brace is nothing, and one brace alone is text. -/
def Token.settled : Token → Option Token
  | .openRun 0 => none
  | .closeRun 0 => none
  | .openRun 1 => some (.text (openBraces 1))
  | .closeRun 1 => some (.text (closeBraces 1))
  | token => some token

/-- How often a token can be looked at: once, and a closing run once more for each brace. -/
def Token.weight : Token → Nat
  | .closeRun n => n + 1
  | _ => 1

namespace Braces

/-! ## The tokens to read -/

/-- The tokens that a tree is read from: runs of at least two braces only, and an end. -/
def settle (tokens : List Token) : List Token :=
  let kept := tokens.filterMap Token.settled
  if kept.getLast? = some .endOfText then kept else kept ++ [.endOfText]

/-- What is left of a closing run, in front of the tokens behind it: nothing, a single brace as a
    text, or a shorter run. -/
def leftover (braces : Nat) (later : List Token) : List Token :=
  match braces with
  | 0 => later
  | 1 => .text (closeBraces 1) :: later
  | n => .closeRun n :: later

/-! ## How much is left to read -/

/-- The weight of a list of tokens. -/
def weight : List Token → Nat
  | [] => 0
  | token :: later => token.weight + weight later

theorem weight_lt_cons (token : Token) (later : List Token) :
    weight later < weight (token :: later) := by
  have : 0 < token.weight := by unfold Token.weight; split <;> omega
  simp only [weight]; omega

theorem weight_leftover_le (braces : Nat) (later : List Token) :
    weight (leftover braces later) ≤ braces + 1 + weight later := by
  match braces with
  | 0 => simp only [leftover]; omega
  | 1 => simp only [leftover, weight, Token.weight]; omega
  | _ + 2 => simp only [leftover, weight, Token.weight]; omega

/-- Taking braces off a closing run makes it lighter, whatever it becomes. -/
theorem weight_leftover_sub_lt (n taken : Nat) (h : 0 < taken) (later : List Token) :
    weight (leftover (n - taken) later) < weight (.closeRun n :: later) := by
  match n with
  | 0 =>
    rw [Nat.zero_sub]
    simp only [leftover, weight, Token.weight]; omega
  | n + 1 =>
    have := weight_leftover_le (n + 1 - taken) later
    simp only [weight, Token.weight]; omega

/-! ## Levels -/

/-- How many levels of braces may be open at once. -/
def maxLevels : Nat := 256

/-- How many braces end what a level holds: two or three, by what the closing run and the level
    have left. -/
def bracesTaken (closing outstanding : Nat) : Nat :=
  if closing = 2 || outstanding = 2 then 2 else 3

theorem bracesTaken_pos (closing outstanding : Nat) : 0 < bracesTaken closing outstanding := by
  unfold bracesTaken; split <;> decide

/-- A closed call or placeholder, by the number of braces on its either side. -/
def constructOf (braces : Nat) (children : List Node) : Node :=
  if braces = 2 then .invocationFrom children else .placeholderFrom children

/-- Reads a level: `nesting` levels are open, this one included, `outstanding` braces of its opening
    run are not closed yet, and `done` are its children so far, in reverse.  Returns its node and
    the tokens behind it.  The end of the text is left for the enclosing levels to see. -/
def level (nesting outstanding : Nat) (done : List Node) (tokens : List Token) :
    { read : Node × List Token // weight read.2 ≤ weight tokens } :=
  match tokens with
  | [] => ⟨(.plain (.text (openBraces outstanding) :: done.reverse), []), Nat.le_refl _⟩
  | .endOfText :: later =>
    ⟨(.plain (.text (openBraces outstanding) :: done.reverse), .endOfText :: later), Nat.le_refl _⟩
  | .openRun n :: later =>
    have hlater := weight_lt_cons (.openRun n) later
    if maxLevels ≤ nesting then
      let read := level nesting outstanding (.text (openBraces n) :: done) later
      ⟨read.1, Nat.le_trans read.2 (Nat.le_of_lt hlater)⟩
    else
      let inner := level (nesting + 1) n [] later
      have hinner := Nat.lt_of_le_of_lt inner.2 hlater
      let read := level nesting outstanding (inner.1.1 :: done) inner.1.2
      ⟨read.1, Nat.le_trans read.2 (Nat.le_of_lt hinner)⟩
  | .closeRun n :: later =>
    let taken := bracesTaken n outstanding
    let closed := constructOf taken done.reverse
    have hleft := weight_leftover_sub_lt n taken (bracesTaken_pos n outstanding) later
    match outstanding - taken with
    | 0 => ⟨(.plain [closed], leftover (n - taken) later), Nat.le_of_lt hleft⟩
    | 1 => ⟨(.plain [.text (openBraces 1), closed], leftover (n - taken) later), Nat.le_of_lt hleft⟩
    | remaining =>
      let read := level nesting remaining [closed] (leftover (n - taken) later)
      ⟨read.1, Nat.le_trans read.2 (Nat.le_of_lt hleft)⟩
  | .skipped source :: later =>
    have hlater := weight_lt_cons (.skipped source) later
    let read := level nesting outstanding done later
    ⟨read.1, Nat.le_trans read.2 (Nat.le_of_lt hlater)⟩
  | token :: later =>
    have hlater := weight_lt_cons token later
    let read := level nesting outstanding (.text token.lexeme :: done) later
    ⟨read.1, Nat.le_trans read.2 (Nat.le_of_lt hlater)⟩
termination_by weight tokens

/-- Reads what stands outside all levels: `done` are the children so far, in reverse.  Returns all
    children and the tokens from the end of the text on. -/
def topLevel (done : List Node) (tokens : List Token) : List Node × List Token :=
  match tokens with
  | [] => (done.reverse, [])
  | .endOfText :: later => (done.reverse, .endOfText :: later)
  | .openRun n :: later =>
    let inner := level 1 n [] later
    have _hinner := Nat.lt_of_le_of_lt inner.2 (weight_lt_cons (.openRun n) later)
    topLevel (inner.1.1 :: done) inner.1.2
  | .skipped source :: later =>
    have _hlater := weight_lt_cons (.skipped source) later
    topLevel done later
  | token :: later =>
    have _hlater := weight_lt_cons token later
    topLevel (.text token.lexeme :: done) later
termination_by weight tokens

end Braces

namespace Node

/-- The tree of a list of tokens, every group kept. -/
def ofTokens (tokens : List Token) : Node := plain (Braces.topLevel [] (Braces.settle tokens)).1

/-- The tree of a page, as an including page sees it. -/
def parse (text : String) : Node := (ofTokens (tokenize text)).collapse

end Node

end Transclusion
