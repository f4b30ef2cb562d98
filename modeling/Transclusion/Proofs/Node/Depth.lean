/-
  How deep a tree is: the number of calls and placeholders around a piece of it.

  Whatever walks over a tree by calling itself goes as deep as the tree does, so the depth is what
  has to be bounded.  Two readings of it stand here.  `Crosses` follows one path from the root to a
  leaf and counts what it crosses; `constructDepth` computes the greatest count.  Groups do not
  count, so neither collapsing nor parting children into arguments changes the depth.
-/
import Transclusion.Node.Braces

namespace Transclusion

namespace Node

/-! ## Paths -/

/-- A path from the root of the tree to a leaf crosses this many calls and placeholders.  A leaf is
    a text or a group of nothing. -/
inductive Crosses : Node → Nat → Prop where
  | text (source : String) : Crosses (.text source) 0
  | nothing : Crosses (.plain []) 0
  | child {child : Node} {children : List Node} {count : Nat} (hmem : child ∈ children)
      (h : Crosses child count) : Crosses (.plain children) count
  | placeholder {name : Node} {default : Option Node} {count : Nat} (h : Crosses name count) :
      Crosses (.placeholder name default) (count + 1)
  | default {name default : Node} {count : Nat} (h : Crosses default count) :
      Crosses (.placeholder name (some default)) (count + 1)
  | invocation {name : Node} {args : List Node} {count : Nat} (h : Crosses name count) :
      Crosses (.invocation name args) (count + 1)
  | arg {name arg : Node} {args : List Node} {count : Nat} (hmem : arg ∈ args)
      (h : Crosses arg count) : Crosses (.invocation name args) (count + 1)

/-! ## The deepest path -/

mutual

/-- How many calls and placeholders a path of the tree crosses at most. -/
def constructDepth : Node → Nat
  | text _ => 0
  | plain children => deepest children
  | placeholder name none => name.constructDepth + 1
  | placeholder name (some default) => max name.constructDepth default.constructDepth + 1
  | invocation name args => max name.constructDepth (deepest args) + 1

/-- The depth of the deepest of the nodes. -/
def deepest : List Node → Nat
  | [] => 0
  | node :: later => max node.constructDepth (deepest later)

end

@[simp] theorem constructDepth_text (source : String) : constructDepth (text source) = 0 := by
  rw [constructDepth]

@[simp] theorem constructDepth_plain (children : List Node) :
    constructDepth (plain children) = deepest children := by
  rw [constructDepth]

@[simp] theorem constructDepth_placeholder_none (name : Node) :
    constructDepth (placeholder name none) = name.constructDepth + 1 := by
  rw [constructDepth]

@[simp] theorem constructDepth_placeholder_some (name default : Node) :
    constructDepth (placeholder name (some default)) =
      max name.constructDepth default.constructDepth + 1 := by
  rw [constructDepth]

@[simp] theorem constructDepth_invocation (name : Node) (args : List Node) :
    constructDepth (invocation name args) = max name.constructDepth (deepest args) + 1 := by
  rw [constructDepth]

@[simp] theorem deepest_nil : deepest [] = 0 := by
  rw [deepest]

@[simp] theorem deepest_cons (node : Node) (later : List Node) :
    deepest (node :: later) = max node.constructDepth (deepest later) := by
  rw [deepest]

@[simp] theorem deepest_append (before after : List Node) :
    deepest (before ++ after) = max (deepest before) (deepest after) := by
  induction before with
  | nil => simp
  | cons node later ih => simp [ih, Nat.max_assoc]

@[simp] theorem deepest_reverse (nodes : List Node) : deepest nodes.reverse = deepest nodes := by
  induction nodes with
  | nil => rfl
  | cons node later ih => simp [ih, Nat.max_comm]

theorem constructDepth_le_deepest {node : Node} {nodes : List Node} (h : node ∈ nodes) :
    node.constructDepth ≤ deepest nodes := by
  induction nodes with
  | nil => cases h
  | cons first later ih =>
    rw [deepest_cons]
    rcases List.mem_cons.1 h with rfl | h
    · exact Nat.le_max_left _ _
    · exact Nat.le_trans (ih h) (Nat.le_max_right _ _)

/-- No path crosses more than the depth. -/
theorem Crosses.le_constructDepth {node : Node} {count : Nat} (h : node.Crosses count) :
    count ≤ node.constructDepth := by
  induction h with
  | text | nothing => exact Nat.zero_le _
  | child hmem _ ih =>
    rw [constructDepth_plain]
    exact Nat.le_trans ih (constructDepth_le_deepest hmem)
  | @placeholder _ default _ _ ih =>
    cases default with
    | none => rw [constructDepth_placeholder_none]; omega
    | some default => rw [constructDepth_placeholder_some]; omega
  | default _ ih => rw [constructDepth_placeholder_some]; omega
  | invocation _ ih => rw [constructDepth_invocation]; omega
  | arg hmem _ ih =>
    have := constructDepth_le_deepest hmem
    rw [constructDepth_invocation]; omega

mutual

/-- Some path crosses as many as the depth. -/
theorem crosses_constructDepth : (node : Node) → node.Crosses node.constructDepth
  | text source => by
    rw [constructDepth_text]
    exact .text source
  | plain children => by
    rw [constructDepth_plain]
    rcases crosses_deepest children with rfl | ⟨child, hmem, h⟩
    · exact .nothing
    · exact .child hmem h
  | placeholder name none => by
    rw [constructDepth_placeholder_none]
    exact .placeholder (crosses_constructDepth name)
  | placeholder name (some default) => by
    rw [constructDepth_placeholder_some]
    rcases Nat.le_total default.constructDepth name.constructDepth with hle | hle
    · rw [Nat.max_eq_left hle]
      exact .placeholder (crosses_constructDepth name)
    · rw [Nat.max_eq_right hle]
      exact .default (crosses_constructDepth default)
  | invocation name args => by
    rw [constructDepth_invocation]
    rcases Nat.le_total (deepest args) name.constructDepth with hle | hle
    · rw [Nat.max_eq_left hle]
      exact .invocation (crosses_constructDepth name)
    · rw [Nat.max_eq_right hle]
      rcases crosses_deepest args with rfl | ⟨arg, hmem, h⟩
      · -- no argument, so the name is as deep as there is
        rw [← Nat.le_antisymm hle (Nat.zero_le _)]
        exact .invocation (crosses_constructDepth name)
      · exact .arg hmem h

/-- The deepest path of a list of nodes begins in one of them, if there is any. -/
theorem crosses_deepest : (nodes : List Node) →
    nodes = [] ∨ ∃ child ∈ nodes, child.Crosses (deepest nodes)
  | [] => .inl rfl
  | node :: later => by
    right
    rw [deepest_cons]
    rcases Nat.le_total (deepest later) node.constructDepth with hle | hle
    · rw [Nat.max_eq_left hle]
      exact ⟨node, List.mem_cons_self, crosses_constructDepth node⟩
    · rw [Nat.max_eq_right hle]
      rcases crosses_deepest later with rfl | ⟨child, hmem, h⟩
      · rw [← Nat.le_antisymm hle (Nat.zero_le _)]
        exact ⟨node, List.mem_cons_self, crosses_constructDepth node⟩
      · exact ⟨child, List.mem_cons_of_mem _ hmem, h⟩

end

/-- The depth is bounded exactly when every path is. -/
theorem constructDepth_le_iff {node : Node} {bound : Nat} :
    node.constructDepth ≤ bound ↔ ∀ count, node.Crosses count → count ≤ bound := by
  constructor
  · intro h count hcount
    exact Nat.le_trans hcount.le_constructDepth h
  · intro h
    exact h _ (crosses_constructDepth node)

/-! ## Groups do not count -/

@[simp] theorem constructDepth_group (nodes : List Node) :
    constructDepth (group nodes) = deepest nodes := by
  by_cases h : nodes.length = 1
  · obtain ⟨only, rfl⟩ := List.length_eq_one_iff.1 h
    rw [deepest_cons, deepest_nil, Nat.max_zero]
    rfl
  · rw [group_eq_plain h, constructDepth_plain]

mutual

/-- Collapsing keeps the depth. -/
theorem constructDepth_collapse : (node : Node) → node.collapse.constructDepth = node.constructDepth
  | text source => by rw [collapse_text]
  | plain children => by
    rw [collapse_plain_eq_group, constructDepth_group, deepest_map_collapse children,
      constructDepth_plain]
  | placeholder name none => by
    rw [collapse_placeholder, Option.map_none, constructDepth_placeholder_none,
      constructDepth_placeholder_none, constructDepth_collapse name]
  | placeholder name (some default) => by
    rw [collapse_placeholder, Option.map_some, constructDepth_placeholder_some,
      constructDepth_placeholder_some, constructDepth_collapse name,
      constructDepth_collapse default]
  | invocation name args => by
    rw [collapse_invocation, constructDepth_invocation, constructDepth_invocation,
      constructDepth_collapse name, deepest_map_collapse args]

theorem deepest_map_collapse : (nodes : List Node) → deepest (nodes.map collapse) = deepest nodes
  | [] => rfl
  | node :: later => by
    rw [List.map_cons, deepest_cons, deepest_cons, constructDepth_collapse node,
      deepest_map_collapse later]

end

/-! ## The children between braces -/

theorem constructDepth_eq_zero_of_isText {node : Node} {source : String}
    (h : node.isText source = true) : node.constructDepth = 0 := by
  rw [eq_text_of_isText h, constructDepth_text]

/-- The bars that part arguments have no depth. -/
theorem deepest_partArguments (args arg : List Node) (links : Int) (children : List Node) :
    deepest (partArguments args arg links children) =
      max (deepest args) (max (deepest arg) (deepest children)) := by
  induction children generalizing args arg links with
  | nil =>
    unfold partArguments
    split
    · next h => rw [List.isEmpty_iff.1 h]; simp
    · simp
  | cons child later ih =>
    -- a child that joins the argument under way is no deeper there
    have hjoin : ∀ links, deepest (partArguments args (child :: arg) links later) =
        max (deepest args) (max (deepest arg) (deepest (child :: later))) := by
      intro links
      rw [ih, deepest_cons, deepest_cons]
      omega
    simp only [partArguments]
    split
    · exact hjoin _
    · split
      · exact hjoin _
      · split
        · next hbar =>
          have := constructDepth_eq_zero_of_isText (Bool.and_eq_true_iff.1 hbar).1
          rw [ih, deepest_cons, deepest_cons, deepest_nil, constructDepth_plain, deepest_reverse]
          omega
        · exact hjoin _

/-- The children up to the first separator and those behind it, which has no depth. -/
theorem deepest_parted (children : List Node) (keep : Node → Bool)
    (h : ∀ child, keep child = false → child.constructDepth = 0) :
    max (deepest (children.takeWhile keep)) (deepest ((children.dropWhile keep).drop 1)) =
      deepest children := by
  induction children with
  | nil => rfl
  | cons child later ih =>
    cases hkeep : keep child with
    | true =>
      simp only [List.takeWhile_cons, List.dropWhile_cons, hkeep, ↓reduceIte, deepest_cons]
      rw [Nat.max_assoc, ih]
    | false =>
      simp only [List.takeWhile_cons, List.dropWhile_cons, hkeep, Bool.false_eq_true, ↓reduceIte,
        List.drop_one, List.tail_cons, deepest_nil, deepest_cons]
      rw [h child hkeep]

theorem constructDepth_invocationFrom (children : List Node) :
    constructDepth (invocationFrom children) = deepest children + 1 := by
  have hparted := deepest_parted children (fun child => !child.endsName) (by
    intro child hends
    rcases Bool.or_eq_true_iff.1 (by simpa using hends : child.endsName = true) with h | h
    · exact constructDepth_eq_zero_of_isText h
    · exact constructDepth_eq_zero_of_isText h)
  simp only [invocationFrom, constructDepth_invocation, constructDepth_plain,
    deepest_partArguments, deepest_nil]
  omega

theorem constructDepth_placeholderFrom (children : List Node) :
    constructDepth (placeholderFrom children) = deepest children + 1 := by
  have hparted := deepest_parted children (fun child => !child.isText "|") (by
    intro child hbar
    exact constructDepth_eq_zero_of_isText (by simpa using hbar))
  unfold placeholderFrom
  cases hdrop : children.dropWhile fun child => !child.isText "|" with
  | nil =>
    rw [hdrop, List.drop_nil, deepest_nil, Nat.max_zero] at hparted
    simp only [constructDepth_placeholder_none, constructDepth_plain]
    omega
  | cons bar rest =>
    rw [hdrop, List.drop_one, List.tail_cons] at hparted
    simp only [constructDepth_placeholder_some, constructDepth_plain]
    omega

end Node

/-- A construct is one deeper than its children. -/
theorem Braces.constructDepth_constructOf (braces : Nat) (children : List Node) :
    (constructOf braces children).constructDepth = Node.deepest children + 1 := by
  unfold constructOf
  split
  · exact Node.constructDepth_invocationFrom children
  · exact Node.constructDepth_placeholderFrom children

end Transclusion
