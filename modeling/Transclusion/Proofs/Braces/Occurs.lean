/-
  What stands in the tree of a page.

  Collapsing takes the groups of one child out, and after that the tree no longer shows which of its
  groups were levels and which are names and arguments.  What a node can be is still known, for
  every node of the tree is a group of the root, or it occurs in a construct (`Occurs`): it is a
  text, a row of children that a construct was made of, or a construct.  A construct comes with the
  text it was read from, and this text stands in the page.

  The induction goes along the rules of `ClosedFrom`: from what occurs in the children of a
  construct to what occurs in the construct (`ClosedFrom.occurs_of_children`), each part of it
  being a group of some of these children.

  Main statement, `Node.parse_plain_or_occurs`.
-/
import Transclusion.Proofs.Braces.Sources
import Transclusion.Proofs.Node.Collapsed
import Transclusion.Proofs.Node.Links
import Transclusion.Proofs.Token.Lossless

namespace Transclusion

namespace Node

/-! ## What a construct is made of -/

theorem subset_of_mem_partsAt {separates : List Node → Prop} [DecidablePred separates]
    {before children part : List Node} (h : part ∈ partsAt separates before children) :
    part ⊆ children := by
  induction children generalizing before part with
  | nil =>
    rw [partsAt, List.mem_singleton] at h
    rw [h]
    exact List.nil_subset _
  | cons child later ih =>
    rw [partsAt] at h
    split at h
    · rcases List.mem_cons.1 h with rfl | h
      · exact List.nil_subset _
      · exact List.subset_cons_of_subset child (ih h)
    · obtain ⟨first, others, hparts⟩ := List.exists_cons_of_ne_nil
        (partsAt_ne_nil separates (before ++ [child]) later)
      rw [hparts, List.modifyHead_cons] at h
      rcases List.mem_cons.1 h with rfl | h
      · exact List.cons_subset_cons child (ih (hparts ▸ List.mem_cons_self))
      · exact List.subset_cons_of_subset child (ih (hparts ▸ List.mem_cons_of_mem _ h))

theorem exists_part_of_mem_argumentsOf {parts : List (List Node)} {arg : Node}
    (h : arg ∈ argumentsOf parts) : ∃ part ∈ parts, arg = plain part := by
  obtain ⟨part, hpart, rfl⟩ := List.mem_map.1 h
  split at hpart
  · exact ⟨part, List.dropLast_subset _ hpart, rfl⟩
  · exact ⟨part, hpart, rfl⟩

section parts

variable {children : List Node} {part : Node}

/-- The parts of a call are groups of children that it is made of. -/
theorem exists_segment_of_mem_parts_invocationFrom (h : part ∈ (invocationFrom children).parts) :
    ∃ segment, segment ⊆ children ∧ part = plain segment := by
  rw [invocationFrom_eq, partedAt, parts] at h
  rcases List.mem_cons.1 h with rfl | harg
  · exact ⟨_, List.takeWhile_subset _, rfl⟩
  · obtain ⟨segment, hsegment, rfl⟩ := exists_part_of_mem_argumentsOf harg
    have hrest : (children.dropWhile fun child => !child.endsName).drop 1 ⊆ children :=
      List.Subset.trans (List.drop_subset _ _) (List.dropWhile_sublist _).subset
    exact ⟨segment, List.Subset.trans (subset_of_mem_partsAt hsegment) hrest, rfl⟩

/-- The parts of a placeholder are groups of children that it is made of. -/
theorem exists_segment_of_mem_parts_placeholderFrom
    (h : part ∈ (placeholderFrom children).parts) :
    ∃ segment, segment ⊆ children ∧ part = plain segment := by
  have hname : (children.takeWhile fun child => !child.isText "|") ⊆ children :=
    List.takeWhile_subset _
  have hrest : (children.dropWhile fun child => !child.isText "|") ⊆ children :=
    (List.dropWhile_sublist _).subset
  rw [placeholderFrom] at h
  split at h
  · obtain rfl : part = plain _ := List.mem_singleton.1 h
    exact ⟨_, hname, rfl⟩
  · next bar rest hdrop =>
    rcases List.mem_cons.1 h with rfl | h
    · exact ⟨_, hname, rfl⟩
    · obtain rfl : part = plain rest := List.mem_singleton.1 h
      rw [hdrop] at hrest
      exact ⟨rest, List.Subset.trans (List.subset_cons_self bar rest) hrest, rfl⟩

end parts

/-! ## What occurs in a construct -/

theorem IsBraced.ne_plain {node : Node} (h : node.IsBraced) (children : List Node) :
    node ≠ plain children := by
  rintro rfl
  cases h

theorem IsBraced.collapse {node : Node} (h : node.IsBraced) : node.collapse.IsBraced := by
  cases h with
  | invocation => exact collapse_invocation _ _ ▸ .invocation
  | placeholder => exact collapse_placeholder _ _ ▸ .placeholder

/-- The nodes of nodes as one node: a group of them, and the nodes of each. -/
theorem mem_nodes_group {nodes : List Node} {node : Node} (h : node ∈ (group nodes).nodes) :
    node = plain nodes ∨ ∃ child ∈ nodes, node ∈ child.nodes := by
  by_cases hone : nodes.length = 1
  · obtain ⟨only, rfl⟩ := List.length_eq_one_iff.1 hone
    exact .inr ⟨only, List.mem_cons_self, h⟩
  · rw [group_eq_plain hone] at h
    exact mem_nodes_iff.1 h

/-- The node stands in what constructs are collapsed to that are read from the source. -/
inductive Occurs (source : String) : Node → Prop where
  | text {word : String} (h : word ≠ "") : Occurs source (.text word)
  /-- A name, an argument or a default, or a child that is a group. -/
  | row {segment : List Node} (h : ∀ child ∈ segment, ∃ piece, ChildFrom child piece) :
      Occurs source (.plain (segment.map collapse))
  | closed {construct : Node} {piece : String} (h : ClosedFrom construct piece)
      (hin : piece.toList <:+: source.toList) : Occurs source construct.collapse

theorem Occurs.mono {source page : String} {node : Node} (h : Occurs source node)
    (hin : source.toList <:+: page.toList) : Occurs page node := by
  cases h with
  | text h => exact .text h
  | row h => exact .row h
  | closed h hpiece => exact .closed h (hpiece.trans hin)

/-- From the children that a construct is made of to the construct: each of its parts is a group of
    some of them. -/
theorem ClosedFrom.occurs_of_children {construct : Node} {source inside : String}
    {children : List Node} (h : ClosedFrom construct source) (hrow : RowFrom children inside)
    (hin : inside.toList <:+: source.toList)
    (hparts : ∀ part ∈ construct.parts, ∃ segment, segment ⊆ children ∧ part = .plain segment)
    (hchildren : ∀ child ∈ children, ∀ node ∈ child.collapse.nodes, Occurs inside node) :
    ∀ node ∈ construct.collapse.nodes, Occurs source node := by
  intro node hnode
  rcases mem_nodes_iff.1 hnode with rfl | ⟨part, hpart, hnode⟩
  · exact .closed h (List.infix_refl _)
  · rw [parts_collapse h.isBraced.ne_plain] at hpart
    obtain ⟨raw, hraw, rfl⟩ := List.mem_map.1 hpart
    obtain ⟨segment, hsubset, rfl⟩ := hparts raw hraw
    rw [collapse_plain_eq_group] at hnode
    rcases mem_nodes_group hnode with rfl | ⟨collapsed, hmem, hnode⟩
    · apply Occurs.row
      intro child hchild
      obtain ⟨piece, hfrom, -⟩ := hrow.exists_childFrom (hsubset hchild)
      exact ⟨piece, hfrom⟩
    · obtain ⟨child, hchild, rfl⟩ := List.mem_map.1 hmem
      exact (hchildren child (hsubset hchild) node hnode).mono hin

/-- A construct behind a brace that was left over. -/
theorem ClosedFrom.occurs_of_braced {construct : Node} {source : String}
    (h : ClosedFrom construct source)
    (hconstruct : ∀ node ∈ construct.collapse.nodes, Occurs source node) :
    ∀ node ∈ (plain [.text (openBraces 1), construct]).collapse.nodes,
      Occurs (openBraces 1 ++ source) node := by
  have hbrace : openBraces 1 ≠ "" := braces_ne_empty Nat.one_pos '{'
  intro node hnode
  rw [collapse_plain (by simp)] at hnode
  rcases mem_nodes_iff.1 hnode with rfl | ⟨part, hpart, hnode⟩
  · apply Occurs.row
    rw [List.forall_mem_cons, List.forall_mem_singleton]
    exact ⟨⟨_, .text hbrace⟩, ⟨_, .closed h⟩⟩
  · rcases List.mem_cons.1 hpart with rfl | hpart
    · rw [collapse_text, nodes, List.mem_singleton] at hnode
      exact hnode ▸ .text hbrace
    · obtain rfl := List.mem_singleton.1 hpart
      exact (hconstruct node hnode).mono (infix_append_right _ _)

theorem occurs_of_text {word : String} (h : word ≠ "") :
    ∀ node ∈ (text word).collapse.nodes, Occurs word node := by
  intro node hnode
  rw [collapse_text, nodes, List.mem_singleton] at hnode
  exact hnode ▸ .text h

theorem occurs_cons {first : Node} {later : List Node} {source other : String}
    (h : ∀ node ∈ first.collapse.nodes, Occurs source node)
    (hl : ∀ child ∈ later, ∀ node ∈ child.collapse.nodes, Occurs other node) :
    ∀ child ∈ first :: later, ∀ node ∈ child.collapse.nodes, Occurs (source ++ other) node := by
  rw [List.forall_mem_cons]
  constructor
  · intro node hnode
    exact (h node hnode).mono (infix_append_left _ _)
  · intro child hchild node hnode
    exact (hl child hchild node hnode).mono (infix_append_right _ _)

theorem infix_between {opening source closing : String} :
    source.toList <:+: (opening ++ source ++ closing).toList :=
  (infix_append_right opening source).trans (infix_append_left _ closing)

mutual

/-- All nodes of a construct occur in what it is read from. -/
theorem ClosedFrom.occurs {construct : Node} {source : String} :
    ClosedFrom construct source → ∀ node ∈ construct.collapse.nodes, Occurs source node
  | .invocation h => (ClosedFrom.invocation h).occurs_of_children h infix_between
      (fun _ => exists_segment_of_mem_parts_invocationFrom) h.occurs
  | .placeholder h => (ClosedFrom.placeholder h).occurs_of_children h infix_between
      (fun _ => exists_segment_of_mem_parts_placeholderFrom) h.occurs

theorem ChildFrom.occurs {child : Node} {source : String} :
    ChildFrom child source → ∀ node ∈ child.collapse.nodes, Occurs source node
  | .text h => occurs_of_text h
  | .closed h => h.occurs
  | .alone h => by rw [collapse_plain_singleton]; exact h.occurs
  | .braced h => h.occurs_of_braced h.occurs

theorem RowFrom.occurs {children : List Node} {source : String} :
    RowFrom children source → ∀ child ∈ children, ∀ node ∈ child.collapse.nodes, Occurs source node
  | .nil => List.forall_mem_nil _
  | .cons h hl => occurs_cons h.occurs hl.occurs

end

/-! ## Which node it is -/

theorem Occurs.text_ne_empty {source word : String} (h : Occurs source (.text word)) :
    word ≠ "" := by
  -- the rule for constructs does not show what they collapse to: the node is kept in an equation
  generalize hnode : Node.text word = node at h
  cases h with
  | text h =>
    obtain rfl := Node.text.inj hnode
    exact h
  | row h => cases hnode
  | closed h hin =>
    have hbraced := h.isBraced.collapse
    rw [← hnode] at hbraced
    cases hbraced

/-- The groups that occur are rows of children, collapsed. -/
theorem Occurs.exists_segment {source : String} {children : List Node}
    (h : Occurs source (.plain children)) :
    ∃ segment : List Node, (∀ child ∈ segment, ∃ piece, ChildFrom child piece) ∧
      children = segment.map collapse := by
  generalize hnode : Node.plain children = node at h
  cases h with
  | text h => cases hnode
  | row h => exact ⟨_, h, plain.inj hnode⟩
  | closed h hin => exact absurd hnode.symm (h.isBraced.collapse.ne_plain children)

theorem Occurs.exists_invocationFrom {source : String} {name : Node} {args : List Node}
    (h : Occurs source (.invocation name args)) :
    ∃ children inside, RowFrom children inside ∧
      (openBraces 2 ++ inside ++ closeBraces 2).toList <:+: source.toList ∧
      (invocationFrom children).collapse = .invocation name args := by
  generalize hnode : Node.invocation name args = node at h
  cases h with
  | text h => cases hnode
  | row h => cases hnode
  | closed h hin =>
    cases h with
    | @invocation children inside hrow => exact ⟨children, inside, hrow, hin, rfl⟩
    | placeholder hrow =>
      obtain ⟨default, hmade⟩ := exists_placeholderFrom_eq _
      rw [hmade, collapse_placeholder] at hnode
      cases hnode

theorem Occurs.exists_placeholderFrom {source : String} {name : Node} {default : Option Node}
    (h : Occurs source (.placeholder name default)) :
    ∃ children inside, RowFrom children inside ∧
      name = (plain (children.takeWhile fun child => !child.isText "|")).collapse := by
  generalize hnode : Node.placeholder name default = node at h
  cases h with
  | text h => cases hnode
  | row h => cases hnode
  | closed h hin =>
    cases h with
    | invocation hrow =>
      rw [invocationFrom, collapse_invocation] at hnode
      cases hnode
    | placeholder hrow =>
      obtain ⟨default', hmade⟩ := exists_placeholderFrom_eq _
      rw [hmade, collapse_placeholder, placeholder.injEq] at hnode
      exact ⟨_, _, hrow, hnode.1⟩

/-! ## The tree of a page -/

theorem StandsOn.plain_or_occurs {page : String} {child : Node} (h : StandsOn page child) :
    ∀ node ∈ child.collapse.nodes, (∃ children, node = .plain children) ∨ Occurs page node := by
  induction h with
  | child h hin =>
    intro node hnode
    exact .inr ((h.occurs node hnode).mono hin)
  | @unclosed children h ih =>
    intro node hnode
    rw [collapse_plain_eq_group] at hnode
    rcases mem_nodes_group hnode with rfl | ⟨collapsed, hmem, hnode⟩
    · exact .inl ⟨_, rfl⟩
    · obtain ⟨child, hchild, rfl⟩ := List.mem_map.1 hmem
      exact ih child hchild node hnode

theorem text_empty_not_mem_tokenize (text : String) : .text "" ∉ tokenize text := by
  intro hmem
  rw [tokenize_eq_lex_getD] at hmem
  exact Lexer.solid_of_mem_lex _ _ hmem rfl

/-- **What stands in the tree of a page**: every node is a group, or it occurs in the text that is
    read. -/
theorem parse_plain_or_occurs (text : String) : ∀ node ∈ (parse text).nodes,
    (∃ children, node = .plain children) ∨ Occurs (writtenText (tokenize text)) node := by
  obtain ⟨children, htree, hstands⟩ := children_standOn (text_empty_not_mem_tokenize text)
  rw [parse, htree]
  exact (StandsOn.unclosed hstands).plain_or_occurs

end Node

end Transclusion
