/-
  The nodes of a tree.

  A node is made of its parts: a group of its children, a call of its name and its arguments, a
  placeholder of its name and its default.  `nodes` lists all there is in a tree, each node in front
  of its parts, so that "at every depth" is membership and counting is counting in a list.

  What holds of a node once it holds of its parts holds of every tree (`parts_induction`), and with
  it one proof serves the name, the arguments and the default alike.
-/
import Transclusion.Node

namespace Transclusion

namespace Node

/-- The nodes that a node is made of. -/
def parts : Node → List Node
  | text _ => []
  | plain children => children
  | placeholder name default => name :: default.toList
  | invocation name args => name :: args

mutual

/-- The nodes of a tree, the tree itself first and each one in front of its parts. -/
def nodes : Node → List Node
  | text source => [text source]
  | plain children => plain children :: nodesAll children
  | placeholder name none => placeholder name none :: nodes name
  | placeholder name (some default) =>
    placeholder name (some default) :: (nodes name ++ nodes default)
  | invocation name args => invocation name args :: (nodes name ++ nodesAll args)

/-- The nodes of trees, one after another. -/
def nodesAll : List Node → List Node
  | [] => []
  | node :: later => nodes node ++ nodesAll later

end

theorem nodesAll_eq_flatMap (trees : List Node) : nodesAll trees = trees.flatMap nodes := by
  induction trees with
  | nil => rfl
  | cons node later ih => rw [nodesAll, ih, List.flatMap_cons]

/-- The nodes of a tree are the tree and those of its parts. -/
theorem nodes_eq (tree : Node) : tree.nodes = tree :: tree.parts.flatMap nodes := by
  cases tree with
  | text source => rfl
  | plain children => rw [nodes, nodesAll_eq_flatMap, parts]
  | placeholder name default => cases default <;> simp [nodes, parts]
  | invocation name args => rw [nodes, nodesAll_eq_flatMap, parts, List.flatMap_cons]

theorem mem_nodes_self (tree : Node) : tree ∈ tree.nodes := by
  rw [nodes_eq]
  exact List.mem_cons_self

theorem mem_nodes_iff {node tree : Node} :
    node ∈ tree.nodes ↔ node = tree ∨ ∃ part ∈ tree.parts, node ∈ part.nodes := by
  rw [nodes_eq, List.mem_cons, List.mem_flatMap]

theorem sizeOf_lt_of_mem_parts {part tree : Node} (h : part ∈ tree.parts) :
    sizeOf part < sizeOf tree := by
  cases tree with
  | text source => cases h
  | plain children =>
    have hlt : sizeOf part < sizeOf children := List.sizeOf_lt_of_mem h
    simp only [plain.sizeOf_spec]
    omega
  | placeholder name default =>
    rcases List.mem_cons.1 h with rfl | h
    · simp only [placeholder.sizeOf_spec]
      omega
    · obtain rfl : default = some part := by simpa using h
      simp only [placeholder.sizeOf_spec, Option.some.sizeOf_spec]
      omega
  | invocation name args =>
    rcases List.mem_cons.1 h with rfl | h
    · simp only [invocation.sizeOf_spec]
      omega
    · have hlt : sizeOf part < sizeOf args := List.sizeOf_lt_of_mem h
      simp only [invocation.sizeOf_spec]
      omega

/-- **From the parts to the whole**: what holds of a node if it holds of its parts holds of every
    tree. -/
@[elab_as_elim]
theorem parts_induction {motive : Node → Prop}
    (node : ∀ node, (∀ part ∈ node.parts, motive part) → motive node) (tree : Node) :
    motive tree :=
  node tree fun part _hpart => parts_induction node part
termination_by sizeOf tree
decreasing_by exact sizeOf_lt_of_mem_parts _hpart

end Node

end Transclusion
