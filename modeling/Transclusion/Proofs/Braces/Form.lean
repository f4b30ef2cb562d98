/-
  The form of the tree of a page.

  A reader of the tree may rely on more than the grammar of nodes says.  No group has one child and
  no text is empty; the name of a call has no separator in it, and inside of calls and placeholders
  a group directly in a group is always a brace that was left over and what stands behind it.
  `IsCanonical` is the list of these.

  One thing that could be expected does not hold.  Of the empty arguments at the end of a call just
  one is dropped, the one behind the last separator, so an empty argument is the last one where the
  text of the call ends with two separators.  That is the only way it can come to be last.

  All of it is seen from what a node of the tree can be, and a construct there is made of children
  of which three kinds only are known (`ChildFrom.collapse_cases`).

  Main statement, `Node.parse_isCanonical`.
-/
import Mathlib.Data.List.TakeWhile
import Transclusion.Proofs.Braces.Occurs

namespace Transclusion

namespace Node

/-- What stands side by side in a name: the children of a group, or else the node alone. -/
def items : Node → List Node
  | plain children => children
  | node => [node]

/-- The form of the tree of a page. -/
structure IsCanonical (tree : Node) : Prop where
  /-- No group has exactly one child. -/
  collapsed : tree.IsCollapsed
  text_ne_empty : text "" ∉ tree.nodes
  /-- A call has no separator in its name. -/
  invocation_name : ∀ name args, invocation name args ∈ tree.nodes →
    ∀ mark ∈ ["|", ":"], text mark ∉ name.items
  /-- A placeholder has no bar in its name. -/
  placeholder_name : ∀ name default, placeholder name default ∈ tree.nodes →
    text "|" ∉ name.items
  /-- Inside a call or a placeholder, a group in a group is one opening brace in front of a call or
      a placeholder. -/
  group_in_group : ∀ node ∈ tree.nodes, node.IsBraced → ∀ children, plain children ∈ node.nodes →
    ∀ inner, plain inner ∈ children →
      ∃ construct, construct.IsBraced ∧ inner = [text (openBraces 1), construct]

theorem items_of_ne_plain {node : Node} (h : ∀ children, node ≠ plain children) :
    node.items = [node] := by
  cases node with
  | plain children => exact absurd rfl (h children)
  | _ => rfl

/-! ## Children as they are collapsed -/

namespace ChildFrom

variable {child : Node} {source : String}

/-- What a child is collapsed to: a text as it is, a construct, or a brace and a construct. -/
theorem collapse_cases (h : ChildFrom child source) :
    (∃ word, child = .text word ∧ child.collapse = .text word) ∨ child.collapse.IsBraced ∨
      ∃ construct, construct.IsBraced ∧
        child.collapse = .plain [.text (openBraces 1), construct] := by
  cases h with
  | text h => exact .inl ⟨source, rfl, collapse_text source⟩
  | closed h => exact .inr (.inl h.isBraced.collapse)
  | alone h =>
    rw [collapse_plain_singleton]
    exact .inr (.inl h.isBraced.collapse)
  | braced h =>
    rw [collapse_plain (by simp)]
    exact .inr (.inr ⟨_, h.isBraced.collapse, by simp⟩)

/-- A child that collapses to a text is that text. -/
theorem eq_text_of_collapse {word : String} (h : ChildFrom child source)
    (hc : child.collapse = .text word) : child = .text word := by
  rcases h.collapse_cases with ⟨other, hchild, hother⟩ | hbraced | ⟨construct, -, hplain⟩
  · exact hchild.trans (hother.symm.trans hc)
  · rw [hc] at hbraced
    cases hbraced
  · rw [hplain] at hc
    cases hc

/-- A child that collapses to a group is a brace that was left over and a construct behind it. -/
theorem eq_of_collapse_plain {inner : List Node} (h : ChildFrom child source)
    (hc : child.collapse = .plain inner) :
    ∃ construct, construct.IsBraced ∧ inner = [.text (openBraces 1), construct] := by
  rcases h.collapse_cases with ⟨other, -, hother⟩ | hbraced | ⟨construct, hbraced, hplain⟩
  · rw [hother] at hc
    cases hc
  · exact absurd hc (hbraced.ne_plain inner)
  · exact ⟨construct, hbraced, plain.inj (hc.symm.trans hplain)⟩

/-- A mark that is no brace stands in a child only where the child is that mark. -/
theorem eq_text_of_mem_items {mark : String} (h : ChildFrom child source)
    (hmark : mark ≠ openBraces 1) (hmem : .text mark ∈ child.collapse.items) :
    child = .text mark := by
  by_cases hplain : ∃ inner, child.collapse = .plain inner
  · obtain ⟨inner, hc⟩ := hplain
    obtain ⟨construct, hbraced, rfl⟩ := h.eq_of_collapse_plain hc
    rw [hc, items] at hmem
    rcases List.mem_cons.1 hmem with heq | hmem
    · exact absurd (text.inj heq) hmark
    · rw [← List.mem_singleton.1 hmem] at hbraced
      cases hbraced
  · rw [not_exists] at hplain
    rw [items_of_ne_plain hplain, List.mem_singleton] at hmem
    exact h.eq_text_of_collapse hmem.symm

end ChildFrom

/-- What stands in nodes as one node stands in one of the nodes. -/
theorem exists_mem_items_of_mem_items_group {nodes : List Node} {word : String}
    (h : text word ∈ (group nodes).items) : ∃ node ∈ nodes, text word ∈ node.items := by
  by_cases hone : nodes.length = 1
  · obtain ⟨only, rfl⟩ := List.length_eq_one_iff.1 hone
    exact ⟨only, List.mem_cons_self, h⟩
  · rw [group_eq_plain hone, items] at h
    exact ⟨text word, h, List.mem_singleton_self _⟩

/-! ## Names -/

/-- A mark that is no brace stands in the group of children only where one of them is that mark. -/
theorem RowFrom.text_mem {children segment : List Node} {source mark : String}
    (h : RowFrom children source) (hsubset : segment ⊆ children) (hmark : mark ≠ openBraces 1)
    (hmem : .text mark ∈ (plain segment).collapse.items) : .text mark ∈ segment := by
  rw [collapse_plain_eq_group] at hmem
  obtain ⟨collapsed, hcollapsed, hitem⟩ := exists_mem_items_of_mem_items_group hmem
  obtain ⟨child, hchild, rfl⟩ := List.mem_map.1 hcollapsed
  obtain ⟨piece, hfrom, -⟩ := h.exists_childFrom (hsubset hchild)
  have heq : child = .text mark := hfrom.eq_text_of_mem_items hmark hitem
  rwa [heq] at hchild

theorem Occurs.invocation_name {source : String} {name : Node} {args : List Node}
    (h : Occurs source (.invocation name args)) : ∀ mark ∈ ["|", ":"], .text mark ∉ name.items := by
  obtain ⟨children, inside, hrow, -, hcollapse⟩ := h.exists_invocationFrom
  rw [invocationFrom, collapse_invocation, invocation.injEq] at hcollapse
  obtain ⟨rfl, -⟩ := hcollapse
  intro mark hmark hitem
  have hbrace : ∀ mark ∈ ["|", ":"], mark ≠ openBraces 1 := by decide
  have hends : ∀ mark ∈ ["|", ":"], (Node.text mark).endsName = true := by decide
  have hmem := hrow.text_mem (List.takeWhile_subset _) (hbrace mark hmark) hitem
  simpa [hends mark hmark] using List.mem_takeWhile_imp hmem

theorem Occurs.placeholder_name {source : String} {name : Node} {default : Option Node}
    (h : Occurs source (.placeholder name default)) : .text "|" ∉ name.items := by
  obtain ⟨children, inside, hrow, rfl⟩ := h.exists_placeholderFrom
  intro hitem
  have hmem := hrow.text_mem (List.takeWhile_subset _) (by decide) hitem
  simpa [isText] using List.mem_takeWhile_imp hmem

/-! ## Empty arguments -/

/-- An empty last argument stands in front of an empty last part. -/
theorem exists_of_getLast?_argumentsOf {parts : List (List Node)}
    (h : (argumentsOf parts).getLast? = some (plain [])) : ∃ front, parts = front ++ [[], []] := by
  rw [argumentsOf, List.getLast?_map] at h
  obtain ⟨part, hpart, hempty⟩ := Option.map_eq_some_iff.1 h
  obtain rfl : part = [] := plain.inj hempty
  split at hpart
  · next hlast =>
    obtain ⟨others, rfl⟩ := List.getLast?_eq_some_iff.1 hlast
    rw [List.dropLast_concat] at hpart
    obtain ⟨front, rfl⟩ := List.getLast?_eq_some_iff.1 hpart
    exact ⟨front, by simp⟩
  · next hlast => exact absurd hpart hlast

/-- In front of two empty last parts there is a bar, and the mark in front of that one is a bar as
    well or the one in front of all parts. -/
theorem exists_concat_of_intercalate (mark : Node) (front : List (List Node)) :
    ∃ before, ∃ last ∈ [mark, text "|"],
      mark :: [text "|"].intercalate (front ++ [[], []]) = before ++ [last, text "|"] := by
  induction front generalizing mark with
  | nil => exact ⟨[], mark, List.mem_cons_self, rfl⟩
  | cons part later ih =>
    obtain ⟨before, last, hlast, hbefore⟩ := ih (text "|")
    obtain ⟨next, others, hnext⟩ := List.exists_cons_of_ne_nil
      (show later ++ [[], []] ≠ [] by simp)
    have hbar : last = text "|" := by simpa using hlast
    refine ⟨mark :: (part ++ before), last, by simp [hbar], ?_⟩
    rw [List.cons_append, hnext, List.intercalate_cons_cons, ← hnext, List.append_assoc,
      List.singleton_append, hbefore]
    simp

/-- The children of a call with an empty last argument end with a separator and a bar. -/
theorem exists_concat_of_empty_last {children args : List Node} {name : Node}
    (h : invocationFrom children = invocation name args)
    (hlast : args.getLast? = some (plain [])) :
    ∃ front, ∃ mark ∈ ["|", ":"], children = front ++ [text mark, text "|"] := by
  rw [invocationFrom_eq, partedAt, invocation.injEq] at h
  obtain ⟨-, rfl⟩ := h
  obtain ⟨front, hparts⟩ := exists_of_getLast?_argumentsOf hlast
  have hrest := intercalate_partsAt Balanced []
    ((children.dropWhile fun child => !child.endsName).drop 1)
  rw [hparts] at hrest
  have hsplit : (children.takeWhile fun child => !child.endsName) ++
      (children.dropWhile fun child => !child.endsName) = children :=
    List.takeWhile_append_dropWhile
  cases hdrop : children.dropWhile fun child => !child.endsName with
  | nil =>
    -- without a separator there are no two parts
    rw [hdrop] at hparts
    have hlength := congrArg List.length hparts
    simp [partsAt] at hlength
  | cons separator rest =>
    have hends : separator.endsName = true := by simpa using not_of_dropWhile_eq_cons hdrop
    rw [hdrop] at hrest hsplit
    obtain ⟨before, last, hmem, hbefore⟩ := exists_concat_of_intercalate separator front
    rw [hrest, List.drop_one, List.tail_cons] at hbefore
    rw [← hsplit, hbefore, ← List.append_assoc]
    rcases List.mem_cons.1 hmem with rfl | hmem
    · rcases Bool.or_eq_true_iff.1 hends with hbar | hcolon
      · exact ⟨_, "|", by decide, by rw [eq_text_of_isText hbar]⟩
      · exact ⟨_, ":", by decide, by rw [eq_text_of_isText hcolon]⟩
    · exact ⟨_, "|", by decide, by rw [List.mem_singleton.1 hmem]⟩

/-- A group of children collapses to an empty one only where there are none. -/
theorem RowFrom.eq_nil_of_collapse {children segment : List Node} {source : String}
    (h : RowFrom children source) (hsubset : segment ⊆ children)
    (hempty : (plain segment).collapse = .plain []) : segment = [] := by
  by_cases hone : segment.length = 1
  · obtain ⟨only, rfl⟩ := List.length_eq_one_iff.1 hone
    rw [collapse_plain_singleton] at hempty
    obtain ⟨piece, hfrom, -⟩ := h.exists_childFrom (hsubset List.mem_cons_self)
    obtain ⟨construct, -, hinner⟩ := hfrom.eq_of_collapse_plain hempty
    exact absurd hinner nofun
  · rw [collapse_plain hone, plain.injEq] at hempty
    exact List.map_eq_nil_iff.1 hempty

/-- A row that ends with two texts is read from a text that ends with them. -/
theorem RowFrom.suffix {front : List Node} {mark other source : String}
    (h : RowFrom (front ++ [.text mark, .text other]) source) :
    (mark ++ other).toList <:+ source.toList := by
  obtain ⟨before, behind, -, hbehind, rfl⟩ := h.cut
  cases hbehind with
  | cons hother hnil =>
    cases hnil
    rw [hother.source_eq, String.append_empty, String.append_assoc]
    exact ⟨before.toList, String.toList_append.symm⟩

/-- **Where an empty argument is last**: the text that the call is read from ends with two
    separators, the second of them a bar. -/
theorem Occurs.empty_last {source : String} {name : Node} {args : List Node}
    (h : Occurs source (.invocation name args)) (hlast : args.getLast? = some (.plain [])) :
    ∃ written : String, written.toList <:+: source.toList ∧
      (Node.invocation name args).Renders written ∧
      ∃ mark ∈ ["|", ":"], (mark ++ "|" ++ closeBraces 2).toList <:+ written.toList := by
  obtain ⟨children, inside, hrow, hin, hcollapse⟩ := h.exists_invocationFrom
  have hrenders := (renders_invocationFrom hrow.renders).collapse
  rw [hcollapse] at hrenders
  refine ⟨_, hin, hrenders, ?_⟩
  obtain ⟨rawName, raw, hraw⟩ : ∃ name args, invocationFrom children = .invocation name args :=
    ⟨_, _, rfl⟩
  rw [hraw, collapse_invocation, invocation.injEq] at hcollapse
  obtain ⟨-, rfl⟩ := hcollapse
  rw [List.getLast?_map] at hlast
  obtain ⟨arg, harg, hempty⟩ := Option.map_eq_some_iff.1 hlast
  have hpart : arg ∈ (invocationFrom children).parts := by
    rw [hraw]
    exact List.mem_cons_of_mem _ (List.mem_of_getLast? harg)
  obtain ⟨segment, hsubset, rfl⟩ := exists_segment_of_mem_parts_invocationFrom hpart
  obtain rfl := hrow.eq_nil_of_collapse hsubset hempty
  obtain ⟨front, mark, hmark, rfl⟩ := exists_concat_of_empty_last hraw harg
  refine ⟨mark, hmark, ?_⟩
  obtain ⟨before, hbefore⟩ := hrow.suffix
  refine ⟨(openBraces 2).toList ++ before, ?_⟩
  simp only [String.toList_append, ← hbefore, List.append_assoc]

/-! ## The whole tree -/

/-- A group directly in a group of a construct is a brace that was left over. -/
theorem Occurs.group_in_group {source : String} {node : Node} {children inner : List Node}
    (h : Occurs source node) (hbraced : node.IsBraced) (hchildren : .plain children ∈ node.nodes)
    (hinner : .plain inner ∈ children) :
    ∃ construct, construct.IsBraced ∧ inner = [.text (openBraces 1), construct] := by
  cases h with
  | text h => cases hbraced
  | row h => cases hbraced
  | closed h hin =>
    obtain ⟨segment, hsegment, rfl⟩ := (h.occurs _ hchildren).exists_segment
    obtain ⟨child, hchild, hcollapse⟩ := List.mem_map.1 hinner
    obtain ⟨piece, hfrom⟩ := hsegment child hchild
    exact hfrom.eq_of_collapse_plain hcollapse

/-- **The form of the tree of a page**: it is canonical, and an empty argument is the last one of a
    call only where the text of the call ends with two separators, the second of them a bar. -/
theorem parse_isCanonical (text : String) :
    (parse text).IsCanonical ∧
      ∀ name args, invocation name args ∈ (parse text).nodes → args.getLast? = some (plain []) →
        ∃ written : String, written.toList <:+: (writtenText (tokenize text)).toList ∧
          (invocation name args).Renders written ∧
          ∃ mark ∈ ["|", ":"], (mark ++ "|" ++ closeBraces 2).toList <:+ written.toList := by
  have hoccurs : ∀ node ∈ (parse text).nodes, (∀ children, node ≠ plain children) →
      Occurs (writtenText (tokenize text)) node := by
    intro node hnode hplain
    rcases parse_plain_or_occurs text node hnode with ⟨children, heq⟩ | h
    · exact absurd heq (hplain children)
    · exact h
  constructor
  · constructor
    · exact isCollapsed_collapse _
    · intro hmem
      exact (hoccurs _ hmem nofun).text_ne_empty rfl
    · intro name args hmem
      exact (hoccurs _ hmem nofun).invocation_name
    · intro name default hmem
      exact (hoccurs _ hmem nofun).placeholder_name
    · intro node hmem hbraced children hchildren inner hinner
      exact (hoccurs node hmem hbraced.ne_plain).group_in_group hbraced hchildren hinner
  · intro name args hmem hlast
    exact (hoccurs _ hmem nofun).empty_last hlast

/-- Of two empty arguments at the end of a call only one is dropped. -/
theorem not_forall_last_ne_empty :
    ¬ ∀ name args, invocation name args ∈ (parse "\x7b\x7bt||\x7d\x7d").nodes →
      args.getLast? ≠ some (plain []) := by
  intro h
  have hmem : invocation (text "t") [plain []] ∈ (parse "\x7b\x7bt||\x7d\x7d").nodes := by
    decide +kernel
  exact h _ _ hmem rfl

end Node

end Transclusion
