/-
  What collapsing makes of a tree, and what it leaves alone.

  A tree without a group of exactly one child is collapsed: nothing in it can be put in another's
  place.  `IsCollapsed` says so of all nodes of the tree, without a word about how it came to be so.

  Collapsing takes out groups and nothing else.  `dissolve` takes out all of them: what is left of a
  tree is texts, calls and placeholders in a row, each name, argument and default being such a row
  again, and an argument stays an argument even where its row is empty.  `signatures` lists the
  calls by their number of arguments and the placeholders by whether they have a default.

  Main statement, `collapse_normalForm`: collapsing leaves no group of one child, changes nothing
  where there is none, and neither `dissolve` nor `signatures` can tell the two trees apart.
-/
import Mathlib.Data.List.Basic
import Transclusion.Node.Collapse
import Transclusion.Proofs.Node.Within

namespace Transclusion

/-! ## Rows of pieces -/

/-- A piece of a page that is no group.  Its parts are rows of such pieces. -/
inductive Piece where
  | text (source : String)
  | placeholder (name : List Piece) (default : Option (List Piece))
  | invocation (name : List Piece) (args : List (List Piece))

/-- What a call or a placeholder takes: so many arguments, or a default or none. -/
inductive Signature where
  | invocation (args : Nat)
  | placeholder (hasDefault : Bool)
deriving DecidableEq

namespace Node

mutual

/-- The pieces of a tree, in a row: every group is dissolved into its children. -/
def dissolve : Node → List Piece
  | text source => [.text source]
  | plain children => dissolveAll children
  | placeholder name none => [.placeholder (dissolve name) none]
  | placeholder name (some default) => [.placeholder (dissolve name) (some (dissolve default))]
  | invocation name args => [.invocation (dissolve name) (dissolveEach args)]

/-- The pieces of nodes, all in one row. -/
def dissolveAll : List Node → List Piece
  | [] => []
  | node :: later => dissolve node ++ dissolveAll later

/-- The pieces of nodes, a row for each of them. -/
def dissolveEach : List Node → List (List Piece)
  | [] => []
  | node :: later => dissolve node :: dissolveEach later

end

/-- What a node takes, if it is a call or a placeholder. -/
def signature? : Node → Option Signature
  | text _ => none
  | plain _ => none
  | placeholder _ default => some (.placeholder default.isSome)
  | invocation _ args => some (.invocation args.length)

/-- What the calls and placeholders of a tree take, in the order in which they begin. -/
def signatures (tree : Node) : List Signature := tree.nodes.filterMap signature?

/-- No group of the tree has exactly one child. -/
def IsCollapsed (tree : Node) : Prop :=
  ∀ children, plain children ∈ tree.nodes → children.length ≠ 1

/-! ## From the parts to the whole -/

theorem dissolveAll_eq_flatMap (nodes : List Node) :
    dissolveAll nodes = nodes.flatMap dissolve := by
  induction nodes with
  | nil => rfl
  | cons node later ih => rw [dissolveAll, ih, List.flatMap_cons]

theorem dissolveEach_eq_map (nodes : List Node) : dissolveEach nodes = nodes.map dissolve := by
  induction nodes with
  | nil => rfl
  | cons node later ih => rw [dissolveEach, ih, List.map_cons]

@[simp] theorem dissolve_plain (children : List Node) :
    dissolve (plain children) = children.flatMap dissolve := by
  rw [dissolve, dissolveAll_eq_flatMap]

@[simp] theorem dissolve_placeholder (name : Node) (default : Option Node) :
    dissolve (placeholder name default) =
      [.placeholder name.dissolve (default.map dissolve)] := by
  cases default <;> simp [dissolve]

@[simp] theorem dissolve_invocation (name : Node) (args : List Node) :
    dissolve (invocation name args) = [.invocation name.dissolve (args.map dissolve)] := by
  rw [dissolve, dissolveEach_eq_map]

/-- One child or many, a group is dissolved into the pieces of its children. -/
theorem dissolve_group (nodes : List Node) : dissolve (group nodes) = nodes.flatMap dissolve := by
  by_cases h : nodes.length = 1
  · obtain ⟨only, rfl⟩ := List.length_eq_one_iff.1 h
    exact (List.append_nil _).symm
  · rw [group_eq_plain h, dissolve_plain]

theorem signatures_eq (tree : Node) :
    tree.signatures = tree.signature?.toList ++ tree.parts.flatMap signatures := by
  have hparts : (tree.parts.flatMap nodes).filterMap signature? = tree.parts.flatMap signatures :=
    List.filterMap_flatMap
  rw [signatures, nodes_eq, List.filterMap_cons, hparts]
  cases tree.signature? <;> rfl

theorem signatures_group (nodes : List Node) :
    (group nodes).signatures = nodes.flatMap signatures := by
  by_cases h : nodes.length = 1
  · obtain ⟨only, rfl⟩ := List.length_eq_one_iff.1 h
    exact (List.append_nil _).symm
  · rw [group_eq_plain h, signatures_eq]
    rfl

theorem isCollapsed_iff {tree : Node} :
    tree.IsCollapsed ↔
      (∀ children, tree = plain children → children.length ≠ 1) ∧
        ∀ part ∈ tree.parts, part.IsCollapsed := by
  constructor
  · intro h
    constructor
    · rintro children rfl
      exact h children (mem_nodes_self _)
    · intro part hpart children hmem
      exact h children (mem_nodes_iff.2 (.inr ⟨part, hpart, hmem⟩))
  · rintro ⟨hroot, hparts⟩ children hmem
    rcases mem_nodes_iff.1 hmem with heq | ⟨part, hpart, hmem⟩
    · exact hroot children heq.symm
    · exact hparts part hpart children hmem

theorem isCollapsed_group {nodes : List Node} (h : ∀ node ∈ nodes, node.IsCollapsed) :
    (group nodes).IsCollapsed := by
  by_cases hone : nodes.length = 1
  · obtain ⟨only, rfl⟩ := List.length_eq_one_iff.1 hone
    exact h only List.mem_cons_self
  · rw [group_eq_plain hone, isCollapsed_iff]
    constructor
    · rintro children ⟨⟩
      exact hone
    · exact h

/-! ## Collapsing part by part -/

/-- A node that is no group keeps its shape, and its parts are collapsed. -/
theorem parts_collapse {tree : Node} (h : ∀ children, tree ≠ plain children) :
    tree.collapse.parts = tree.parts.map collapse := by
  cases tree with
  | text source => rw [collapse_text]; rfl
  | plain children => exact absurd rfl (h children)
  | placeholder name default => cases default <;> simp [parts]
  | invocation name args => simp [parts]

theorem collapse_ne_plain {tree : Node} (h : ∀ children, tree ≠ plain children)
    (children : List Node) : tree.collapse ≠ plain children := by
  cases tree with
  | text source => rw [collapse_text]; exact nofun
  | plain children => exact absurd rfl (h children)
  | placeholder name default => rw [collapse_placeholder]; exact nofun
  | invocation name args => rw [collapse_invocation]; exact nofun

theorem signature?_collapse {tree : Node} (h : ∀ children, tree ≠ plain children) :
    tree.collapse.signature? = tree.signature? := by
  cases tree with
  | text source => rw [collapse_text]
  | plain children => exact absurd rfl (h children)
  | placeholder name default => cases default <;> simp [signature?]
  | invocation name args => simp [signature?]

theorem isCollapsed_collapse (tree : Node) : tree.collapse.IsCollapsed := by
  induction tree using parts_induction with
  | node tree ih =>
    by_cases hplain : ∃ children, tree = plain children
    · obtain ⟨children, rfl⟩ := hplain
      rw [collapse_plain_eq_group]
      apply isCollapsed_group
      intro node hnode
      obtain ⟨child, hchild, rfl⟩ := List.mem_map.1 hnode
      exact ih child hchild
    · rw [not_exists] at hplain
      rw [isCollapsed_iff, parts_collapse hplain]
      constructor
      · intro children heq
        exact absurd heq (collapse_ne_plain hplain children)
      · intro part hpart
        obtain ⟨before, hbefore, rfl⟩ := List.mem_map.1 hpart
        exact ih before hbefore

theorem map_collapse_eq_self {nodes : List Node} (h : ∀ node ∈ nodes, node.collapse = node) :
    nodes.map collapse = nodes := by
  rw [List.map_congr_left h]
  exact List.map_id nodes

/-- Where no group has one child there is nothing to collapse. -/
theorem IsCollapsed.collapse_eq {tree : Node} (h : tree.IsCollapsed) : tree.collapse = tree := by
  induction tree using parts_induction with
  | node tree ih =>
    obtain ⟨hroot, hparts⟩ := isCollapsed_iff.1 h
    have hpart : ∀ part ∈ tree.parts, part.collapse = part := fun part hmem =>
      ih part hmem (hparts part hmem)
    cases tree with
    | text source => exact collapse_text source
    | plain children =>
      have hchildren : children.map collapse = children := map_collapse_eq_self hpart
      rw [collapse_plain (hroot children rfl), hchildren]
    | placeholder name default =>
      obtain ⟨hname, hdefault⟩ := List.forall_mem_cons.1 hpart
      rw [collapse_placeholder, hname]
      cases default with
      | none => rfl
      | some default => rw [Option.map_some, hdefault default List.mem_cons_self]
    | invocation name args =>
      obtain ⟨hname, hargs⟩ := List.forall_mem_cons.1 hpart
      rw [collapse_invocation, hname, map_collapse_eq_self hargs]

theorem dissolve_collapse (tree : Node) : tree.collapse.dissolve = tree.dissolve := by
  induction tree using parts_induction with
  | node tree ih =>
    cases tree with
    | text source => rw [collapse_text]
    | plain children =>
      have hchildren : ∀ child ∈ children, child.collapse.dissolve = child.dissolve := ih
      rw [collapse_plain_eq_group, dissolve_group, dissolve_plain, List.flatMap_map]
      exact List.flatMap_congr hchildren
    | placeholder name default =>
      obtain ⟨hname, hdefault⟩ := List.forall_mem_cons.1 ih
      rw [collapse_placeholder, dissolve_placeholder, dissolve_placeholder, hname]
      cases default with
      | none => rfl
      | some default =>
        rw [Option.map_some, Option.map_some, Option.map_some, hdefault default List.mem_cons_self]
    | invocation name args =>
      obtain ⟨hname, hargs⟩ := List.forall_mem_cons.1 ih
      have hmap : (args.map collapse).map dissolve = args.map dissolve := by
        rw [List.map_map]
        exact List.map_congr_left hargs
      rw [collapse_invocation, dissolve_invocation, dissolve_invocation, hname, hmap]

theorem signatures_collapse (tree : Node) : tree.collapse.signatures = tree.signatures := by
  induction tree using parts_induction with
  | node tree ih =>
    have hparts : (tree.parts.map collapse).flatMap signatures = tree.parts.flatMap signatures := by
      rw [List.flatMap_map]
      exact List.flatMap_congr ih
    by_cases hplain : ∃ children, tree = plain children
    · obtain ⟨children, rfl⟩ := hplain
      rw [collapse_plain_eq_group, signatures_group, signatures_eq (plain children)]
      exact hparts
    · rw [not_exists] at hplain
      rw [signatures_eq, signatures_eq tree, signature?_collapse hplain, parts_collapse hplain,
        hparts]

/-- **The normal form of collapsing**: no group of a collapsed tree has exactly one child, and the
    trees without such a group are the ones that collapsing leaves as they are, so that collapsing
    twice is collapsing once.  With all groups dissolved the tree and the collapsed one are the same
    pieces, and their calls and placeholders have the same number of arguments and the same
    defaults present. -/
theorem collapse_normalForm (tree : Node) :
    tree.collapse.IsCollapsed ∧ (tree.collapse = tree ↔ tree.IsCollapsed) ∧
      tree.collapse.collapse = tree.collapse ∧ tree.collapse.dissolve = tree.dissolve ∧
      tree.collapse.signatures = tree.signatures := by
  have hcollapsed := isCollapsed_collapse tree
  have hfixed : tree.collapse = tree ↔ tree.IsCollapsed := by
    constructor
    · intro heq
      rw [← heq]
      exact hcollapsed
    · exact IsCollapsed.collapse_eq
  exact ⟨hcollapsed, hfixed, hcollapsed.collapse_eq, dissolve_collapse tree,
    signatures_collapse tree⟩

/-- Groups around groups, in a name and around an argument that is empty. -/
example :
    (plain [plain [invocation (plain [plain [text "t"]]) [plain [plain []]]]]).collapse =
      invocation (text "t") [plain []] := by
  decide

end Node

end Transclusion
