/-
  The outline of a tree: one line per node, indented by where the node stands.

  A group gives its number of children and a call its number of arguments, so the lines below tell
  which node they belong to.  Each argument and each default has a line of its own in front.  Texts
  are quoted, so that a text never looks like the line of another node and never spans two lines.
-/
import Transclusion.Node
import Transclusion.Text.Numeral
import Transclusion.Text.Quoted

namespace Transclusion

/-- What a line of an outline says. -/
inductive OutlineMark where
  | text (source : String)
  | plain (children : Nat)
  | placeholder
  | invocation (args : Nat)
  /-- The node below is the default of a placeholder. -/
  | default
  /-- The node below is an argument of a call. -/
  | arg
deriving DecidableEq

/-- A line of an outline, and how far it is indented. -/
structure OutlineLine where
  indent : Nat
  mark : OutlineMark
deriving DecidableEq

/-- The words of a line. -/
def OutlineMark.label : OutlineMark → String
  | .text source => Text.quote source
  | .plain children => "Plain (" ++ Text.numeral children ++ " children)"
  | .placeholder => "Placeholder"
  | .invocation args => "Invocation (" ++ Text.numeral args ++ " args)"
  | .default => "| default"
  | .arg => "| arg"

/-- A line as it is written: two spaces for each step of indentation, and a line break behind. -/
def OutlineLine.render (line : OutlineLine) : String :=
  String.ofList (List.replicate (2 * line.indent) ' ') ++ line.mark.label ++ "\n"

namespace Node

mutual

/-- The lines of a node at an indentation, behind the `lines` that there are already. -/
def outlineOnto (lines : Array OutlineLine) (indent : Nat) : Node → Array OutlineLine
  | text source => lines.push ⟨indent, .text source⟩
  | plain children =>
    outlineChildren (lines.push ⟨indent, .plain children.length⟩) (indent + 1) children
  | placeholder name none => outlineOnto (lines.push ⟨indent, .placeholder⟩) (indent + 1) name
  | placeholder name (some default) =>
    let lines := outlineOnto (lines.push ⟨indent, .placeholder⟩) (indent + 1) name
    outlineOnto (lines.push ⟨indent + 1, .default⟩) (indent + 2) default
  | invocation name args =>
    let lines := outlineOnto (lines.push ⟨indent, .invocation args.length⟩) (indent + 1) name
    outlineArguments lines (indent + 1) args

/-- The lines of the children of a group. -/
def outlineChildren (lines : Array OutlineLine) (indent : Nat) : List Node → Array OutlineLine
  | [] => lines
  | child :: later => outlineChildren (outlineOnto lines indent child) indent later

/-- The lines of the arguments of a call, each behind a line that announces it. -/
def outlineArguments (lines : Array OutlineLine) (indent : Nat) : List Node → Array OutlineLine
  | [] => lines
  | arg :: later =>
    outlineArguments (outlineOnto (lines.push ⟨indent, .arg⟩) (indent + 1) arg) indent later

end

/-- The lines of a tree. -/
def outline (node : Node) : Array OutlineLine := outlineOnto #[] 0 node

/-- The outline of a tree, as it is written. -/
def render (node : Node) : String :=
  node.outline.foldl (fun written line => written ++ line.render) ""

end Node

end Transclusion
