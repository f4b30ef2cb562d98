/-
  What can go wrong in an expansion.

  Nothing stops an expansion: a call or a node that cannot be expanded leaves no text and a
  diagnostic.  Only an expander without a source cannot be built at all.
-/
import Transclusion.Text.Numeral
import Transclusion.Text.Quoted

namespace Transclusion

/-- A problem met while expanding. -/
inductive Diagnostic where
  /-- The body of `name` was not entered, `limit` bodies being open. -/
  | tooDeep (name : String) (limit : Nat)
  /-- A node was not entered, `limit` nodes being open. -/
  | nestingTooDeep (limit : Nat)
  /-- No page of this name. -/
  | missingTemplate (name : String)
deriving DecidableEq, Inhabited

/-- A problem in words, on one line whatever the name. -/
def Diagnostic.message : Diagnostic → String
  | .tooDeep name limit =>
    "template " ++ Text.quote name ++ " nested too deep (limit " ++ Text.numeral limit ++ ")"
  | .nestingTooDeep limit => "markup nested too deep (limit " ++ Text.numeral limit ++ ")"
  | .missingTemplate name => "no template " ++ Text.quote name

/-- Why an expander cannot be built. -/
inductive BuildError where
  | missingSource
deriving DecidableEq

/-- A build error in words. -/
def BuildError.message : BuildError → String
  | .missingSource => "an expander needs a template source"

end Transclusion
