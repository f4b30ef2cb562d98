/-
  Collapsing groups of one.

  Reading markup leaves a group around every brace level and every argument.  A group of one child
  says no more than the child, so `collapse` puts the child in its place, everywhere in the tree.
-/
import Transclusion.Node

namespace Transclusion.Node

mutual

/-- The tree with every group of exactly one child replaced by that child. -/
def collapse : Node → Node
  | text source => text source
  | plain [only] => only.collapse
  | plain children => plain (collapseOnto [] children)
  | placeholder name none => placeholder name.collapse none
  | placeholder name (some default) => placeholder name.collapse (some default.collapse)
  | invocation name args => invocation name.collapse (collapseOnto [] args)

/-- The collapsed nodes behind those of `done`, which are held in reverse. -/
def collapseOnto (done : List Node) : List Node → List Node
  | [] => done.reverse
  | node :: later => collapseOnto (node.collapse :: done) later

end

/-- Collapsing a list of nodes collapses each of them. -/
theorem collapseOnto_eq_map (nodes done : List Node) :
    collapseOnto done nodes = done.reverse ++ nodes.map collapse := by
  induction nodes generalizing done with
  | nil => simp [collapseOnto]
  | cons node later ih => simp [collapseOnto, ih]

@[simp] theorem collapse_text (source : String) : collapse (text source) = text source := by
  simp [collapse]

@[simp] theorem collapse_plain_singleton (only : Node) :
    collapse (plain [only]) = only.collapse := by
  simp [collapse]

theorem collapse_plain {children : List Node} (h : children.length ≠ 1) :
    collapse (plain children) = plain (children.map collapse) := by
  match children with
  | [] => simp [collapse, collapseOnto]
  | [_] => simp at h
  | _ :: _ :: _ => simp [collapse, collapseOnto_eq_map]

/-- Nodes as one node: a single one stands for itself. -/
def group : List Node → Node
  | [only] => only
  | nodes => plain nodes

theorem group_eq_plain {nodes : List Node} (h : nodes.length ≠ 1) : group nodes = plain nodes := by
  match nodes with
  | [] => rfl
  | [_] => simp at h
  | _ :: _ :: _ => rfl

/-- A collapsed group is the collapsed children as one node. -/
theorem collapse_plain_eq_group (children : List Node) :
    collapse (plain children) = group (children.map collapse) := by
  by_cases h : children.length = 1
  · obtain ⟨only, rfl⟩ := List.length_eq_one_iff.1 h
    rw [collapse_plain_singleton]
    rfl
  · rw [collapse_plain h, group_eq_plain (by simpa using h)]

@[simp] theorem collapse_placeholder (name : Node) (default : Option Node) :
    collapse (placeholder name default) = placeholder name.collapse (default.map collapse) := by
  cases default <;> simp [collapse]

@[simp] theorem collapse_invocation (name : Node) (args : List Node) :
    collapse (invocation name args) = invocation name.collapse (args.map collapse) := by
  simp [collapse, collapseOnto_eq_map]

end Transclusion.Node
