/-
  Magic names: calls that are answered by an evaluator instead of a page.

  An evaluator sees the whole call and may decline it; a declined call is looked up like any other.
-/
import Transclusion.Arguments
import Transclusion.Text.Quoted

namespace Transclusion

/-- What an evaluator sees of a call. -/
structure MagicCall where
  /-- The name, trimmed. -/
  name : String
  /-- What the call binds. -/
  args : Arguments
  /-- What is bound where the call stands. -/
  scope : Arguments
  /-- The page that is being expanded. -/
  page : String

/-- An evaluator: the text that a call stands for, or nothing to decline it. -/
abbrev Magic := MagicCall → Option String

/-- The evaluators, under the names they answer. -/
structure MagicRegistry where
  evaluators : Table Magic

namespace MagicRegistry

/-- No magic names. -/
def empty : MagicRegistry := ⟨[]⟩

/-- The registry with an evaluator, in place of the one that had its name. -/
def register (registry : MagicRegistry) (name : String) (magic : Magic) : MagicRegistry :=
  ⟨registry.evaluators.assign name magic⟩

/-- The evaluator of a name. -/
def get? (registry : MagicRegistry) (name : String) : Option Magic := registry.evaluators.get? name

/-- Whether a name has an evaluator. -/
def isRegistered (registry : MagicRegistry) (name : String) : Bool := registry.evaluators.has name

/-- The answer of the evaluator of the call's name, when there is one and it does not decline. -/
def evaluate (registry : MagicRegistry) (call : MagicCall) : Option String :=
  (registry.get? call.name).bind fun magic => magic call

/-- How many names there are. -/
def size (registry : MagicRegistry) : Nat := registry.evaluators.length

/-- Whether there are no names. -/
def isEmpty (registry : MagicRegistry) : Bool := registry.evaluators.isEmpty

/-- The names on one line: quoted, and in the order of their code points. -/
def describe (registry : MagicRegistry) : String :=
  let names := registry.evaluators.names.mergeSort fun a b => decide (a ≤ b)
  "MagicRegistry([" ++ ", ".intercalate (names.map Text.quote) ++ "])"

end MagicRegistry

end Transclusion
