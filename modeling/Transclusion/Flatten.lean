/-
  Flattening: from the tree of a page to its text.

  Text stands for itself.  A placeholder stands for the value that its name has in the scope, else
  for its default.  A call binds its arguments and stands for what an evaluator answers, else for
  its body, flattened with these arguments as the scope.

  Two limits hold whatever a source answers.  `room` is how many more nodes may be opened; it falls
  by one on the way into a node, also into a body, so the recursion is structural in it.  `depth` is
  how many bodies are open.  Where a limit is met the node leaves no text and a diagnostic.

  Names and arguments are flattened in the scope that the call stands in, and before it is known
  whether the call can be expanded.
-/
import Transclusion.Cache
import Transclusion.Diagnostic
import Transclusion.Magic

namespace Transclusion

/-- How far an expansion may go. -/
structure Limits where
  /-- How many bodies may be open at once. -/
  maxDepth : Nat := 40
  /-- How many nodes other than texts may be open at once, across all bodies. -/
  maxNesting : Nat := 500
deriving DecidableEq, Inhabited

/-- What stays the same throughout an expansion. -/
structure Setting where
  /-- The name of the page. -/
  page : String
  source : Source
  magic : MagicRegistry
  limits : Limits

/-- What an expansion leaves behind besides its text. -/
structure Run where
  cache : Cache
  /-- The problems met so far, in order. -/
  diagnostics : Array Diagnostic

/-- Adds a problem. -/
def Run.report (run : Run) (problem : Diagnostic) : Run :=
  { run with diagnostics := run.diagnostics.push problem }

/-- The body of a call by `name`. -/
def Run.resolve (run : Run) (source : Source) (name : String) : Option Node × Run :=
  let (body, cache) := run.cache.resolve source name
  (body, { run with cache := cache })

/-- The texts of `nodes`, behind those of `done` in reverse: each node is flattened in the run that
    the one before left. -/
def inTurn (flattenNode : Node → Run → String × Run) (done : List String) :
    List Node → Run → List String × Run
  | [], run => (done.reverse, run)
  | node :: later, run =>
    let (text, run) := flattenNode node run
    inTurn flattenNode (text :: done) later run

/-- The text of a node in a scope, `depth` bodies being open and `room` more nodes allowed. -/
def flatten (setting : Setting) (room : Nat) (node : Node) (scope : Arguments) (depth : Nat)
    (run : Run) : String × Run :=
  match room, node with
  | _, .text source => (source, run)
  | 0, _ => ("", run.report (.nestingTooDeep setting.limits.maxNesting))
  | room + 1, .plain children =>
    let (texts, run) :=
      inTurn (fun child run => flatten setting room child scope depth run) [] children run
    (String.join texts, run)
  | room + 1, .placeholder name default =>
    let (name, run) := flatten setting room name scope depth run
    match scope.get? (Text.trim name), default with
    | some value, _ => (value, run)
    | none, some default => flatten setting room default scope depth run
    | none, none => ("", run)
  | room + 1, .invocation name args =>
    let (name, run) := flatten setting room name scope depth run
    let name := Text.trim name
    let (texts, run) :=
      inTurn (fun arg run => flatten setting room arg scope depth run) [] args run
    let bound := Arguments.bind texts
    match setting.magic.evaluate ⟨name, bound, scope, setting.page⟩ with
    | some answer => (answer, run)
    | none =>
      if setting.limits.maxDepth ≤ depth then
        ("", run.report (.tooDeep name setting.limits.maxDepth))
      else
        match run.resolve setting.source name with
        | (some body, run) => flatten setting room body bound (depth + 1) run
        | (none, run) => ("", run.report (.missingTemplate name))

end Transclusion
