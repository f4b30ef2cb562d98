/-
  Skipped tokens have no effect.

  Comments and excluded blocks may stand anywhere, also between an opening run and a closing one, at
  the limit of open levels, in front of the rest of a closing run, or behind the end of the text.
  Where the reader works with a cursor and writes to the tokens, each of these is a case of its own.
  On the stack of open levels there is one case: a step over a skipped token changes nothing, and no
  other step looks at the tokens beside its own.

  Main statement, `Node.ofTokens_filter_skipped`.
-/
import Transclusion.Proofs.Expansion.Unmatched

namespace Transclusion

namespace Braces

namespace Stack

theorem step_of_isSkipped {token : Token} (h : token.isSkipped = true) (stack : Stack) :
    stack.step token = stack := by
  cases token with
  | skipped source => rfl
  | _ => exact absurd h nofun

/-- **A run** comes to the same without the skipped tokens, whatever levels are open. -/
theorem run_filter_skipped (stack : Stack) (tokens : List Token) :
    stack.run (tokens.filter fun token => !token.isSkipped) = stack.run tokens := by
  induction tokens generalizing stack with
  | nil => rfl
  | cons token later ih =>
    by_cases hend : token = .endOfText
    · -- what stands behind the end of the text is not read
      subst hend
      rfl
    · rw [run_cons token hend]
      by_cases hskipped : token.isSkipped = true
      · rw [List.filter_cons_of_neg (by simp [hskipped]), step_of_isSkipped hskipped, ih]
      · rw [List.filter_cons_of_pos (by simpa using hskipped), run_cons token hend, ih]

end Stack

end Braces

/-- **Skipped tokens are of no effect**: the tree of a list of tokens is the tree of the list
    without its skipped tokens, wherever these stand. -/
theorem Node.ofTokens_filter_skipped (tokens : List Token) :
    ofTokens tokens = ofTokens (tokens.filter fun token => !token.isSkipped) := by
  rw [ofTokens_eq_run, ofTokens_eq_run, Braces.Stack.run_filter_skipped]

end Transclusion
