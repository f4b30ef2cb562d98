/-
  Writing a tree down, and the trees that can be read back.

  `print` writes a call as `{{name|arg|…}}` and a placeholder as `{{{name}}}` or
  `{{{name|default}}}`.  Not every tree survives that: two texts side by side become one, a name
  that begins with a construct lengthens the run of braces in front of it, and an empty last
  argument is dropped.  `IsSequence` and `IsConstruct` leave out just these.

  A printed sequence begins with an ordinary character or with a brace, and the lemmas at the end
  say which: what stands in front of it is not taken together with it.
-/
import Transclusion.Node.Collapse

namespace Transclusion

namespace Node

/-! ## Printing -/

mutual

/-- The characters of a tree as it is printed. -/
def printChars : Node → List Char
  | text source => source.toList
  | plain children => printAll children
  | placeholder name none => List.replicate 3 '{' ++ (printChars name ++ List.replicate 3 '}')
  | placeholder name (some default) =>
    List.replicate 3 '{' ++
      (printChars name ++ ('|' :: (printChars default ++ List.replicate 3 '}')))
  | invocation name args =>
    List.replicate 2 '{' ++ (printChars name ++ (printArgs args ++ List.replicate 2 '}'))

/-- The characters of nodes, one after another. -/
def printAll : List Node → List Char
  | [] => []
  | node :: later => printChars node ++ printAll later

/-- The characters of arguments, each behind a bar. -/
def printArgs : List Node → List Char
  | [] => []
  | arg :: later => '|' :: (printChars arg ++ printArgs later)

end

/-- A tree as it is printed. -/
def print (node : Node) : String := String.ofList node.printChars

theorem printChars_group (items : List Node) : (group items).printChars = printAll items := by
  by_cases h : items.length = 1
  · obtain ⟨only, rfl⟩ := List.length_eq_one_iff.1 h
    rw [printAll, printAll, List.append_nil]
    rfl
  · rw [group_eq_plain h, printChars]

/-! ## The trees that can be read back -/

/-- The characters that markup is made of. -/
def markupChars : List Char := ['[', ']', '|', ':', '{', '}', '<']

/-- A text that is read as one text. -/
structure IsOrdinary (source : String) : Prop where
  ne_empty : source ≠ ""
  not_markup : ∀ c ∈ source.toList, c ∉ markupChars

/-- The first item, if there is one, is a text. -/
def BeginsWithText (items : List Node) : Prop :=
  ∀ node, items.head? = some node → ∃ source, node = text source

theorem BeginsWithText.text (source : String) (later : List Node) :
    BeginsWithText (.text source :: later) := by
  rintro node ⟨⟩
  exact ⟨source, rfl⟩

mutual

/-- Texts and constructs, no two texts side by side. -/
inductive IsSequence : List Node → Prop where
  | nil : IsSequence []
  | text {source : String} {later : List Node} (h : IsOrdinary source)
      (hapart : ∀ other, later.head? ≠ some (.text other)) (hl : IsSequence later) :
      IsSequence (.text source :: later)
  | construct {node : Node} {later : List Node} (h : IsConstruct node) (hl : IsSequence later) :
      IsSequence (node :: later)

/-- A call or a placeholder made of sequences.  No construct stands first in its name, and the last
    argument of a call is not empty. -/
inductive IsConstruct : Node → Prop where
  | invocation {name : List Node} {args : List (List Node)} (hname : IsSequence name)
      (hbegin : BeginsWithText name) (hargs : AreSequences args)
      (hlast : args.getLast? ≠ some []) :
      IsConstruct (.invocation (group name) (args.map group))
  | placeholder {name : List Node} (hname : IsSequence name) (hbegin : BeginsWithText name) :
      IsConstruct (.placeholder (group name) none)
  | withDefault {name default : List Node} (hname : IsSequence name)
      (hbegin : BeginsWithText name) (hdefault : IsSequence default) :
      IsConstruct (.placeholder (group name) (some (group default)))

/-- Sequences, as the arguments of a call are. -/
inductive AreSequences : List (List Node) → Prop where
  | nil : AreSequences []
  | cons {arg : List Node} {later : List (List Node)} (h : IsSequence arg)
      (hl : AreSequences later) : AreSequences (arg :: later)

end

/-- A text without markup as it is read: an empty one is nothing. -/
def textsOf (source : String) : List Node := if source = "" then [] else [text source]

theorem printAll_append (nodes later : List Node) :
    printAll (nodes ++ later) = printAll nodes ++ printAll later := by
  induction nodes with
  | nil => rfl
  | cons node nodes ih => rw [List.cons_append, printAll, printAll, ih, List.append_assoc]

theorem printAll_textsOf (source : String) : printAll (textsOf source) = source.toList := by
  unfold textsOf
  split
  · next h => rw [h]; rfl
  · rw [printAll, printAll, printChars, List.append_nil]

/-- A text without markup may stand in front of a sequence that begins with no text. -/
theorem IsSequence.textsOf_append {source : String} {later : List Node} (hl : IsSequence later)
    (hplain : ∀ c ∈ source.toList, c ∉ markupChars)
    (hapart : ∀ other, later.head? ≠ some (.text other)) :
    IsSequence (textsOf source ++ later) := by
  unfold textsOf
  split
  · exact hl
  · next hne => exact .text ⟨hne, hplain⟩ hapart hl

/-- Every text of a sequence is an ordinary one. -/
theorem IsSequence.isOrdinary_of_mem {items : List Node} (h : IsSequence items) {source : String}
    (hmem : .text source ∈ items) : IsOrdinary source := by
  induction items with
  | nil => cases hmem
  | cons node later ih =>
    cases h with
    | text hordinary _ hl =>
      rcases List.mem_cons.1 hmem with heq | hmem
      · cases heq
        exact hordinary
      · exact ih hl hmem
    | construct hnode hl =>
      rcases List.mem_cons.1 hmem with heq | hmem
      · cases heq
        cases hnode
      · exact ih hl hmem

theorem AreSequences.isSequence_of_mem {args : List (List Node)} (h : AreSequences args)
    {arg : List Node} (hmem : arg ∈ args) : IsSequence arg := by
  induction args with
  | nil => cases hmem
  | cons first later ih =>
    cases h with
    | cons hfirst hl =>
      rcases List.mem_cons.1 hmem with rfl | hmem
      · exact hfirst
      · exact ih hl hmem

/-! ## How a printed tree begins -/

theorem IsOrdinary.exists_cons {source : String} (h : IsOrdinary source) :
    ∃ c cs, source.toList = c :: cs ∧ c ∉ markupChars := by
  cases hcs : source.toList with
  | nil => exact absurd (String.toList_eq_nil_iff.1 hcs) h.ne_empty
  | cons c cs => exact ⟨c, cs, rfl, h.not_markup c (hcs ▸ List.mem_cons_self)⟩

theorem IsConstruct.exists_cons {node : Node} (h : IsConstruct node) :
    ∃ cs, node.printChars = '{' :: cs := by
  cases h with
  | invocation => exact ⟨_, rfl⟩
  | placeholder => exact ⟨_, rfl⟩
  | withDefault => exact ⟨_, rfl⟩

/-- A printed sequence that is not empty begins with an ordinary character or with a brace,
    according to its first item. -/
theorem IsSequence.exists_cons {node : Node} {later : List Node}
    (h : IsSequence (node :: later)) :
    ∃ c cs, printAll (node :: later) = c :: cs ∧
      ((∃ source, node = .text source) ∧ c ∉ markupChars ∨ IsConstruct node ∧ c = '{') := by
  cases h with
  | text hordinary =>
    obtain ⟨c, cs, hcs, hc⟩ := hordinary.exists_cons
    refine ⟨c, cs ++ printAll later, ?_, .inl ⟨⟨_, rfl⟩, hc⟩⟩
    rw [printAll, printChars, hcs, List.cons_append]
  | construct hnode =>
    obtain ⟨cs, hcs⟩ := hnode.exists_cons
    refine ⟨'{', cs ++ printAll later, ?_, .inr ⟨hnode, rfl⟩⟩
    rw [printAll, hcs, List.cons_append]

/-- Behind opening braces no further one is printed, if the name begins with a text. -/
theorem IsSequence.head?_ne_open {items : List Node} (h : IsSequence items)
    (hbegin : BeginsWithText items) {after : List Char} (hafter : after.head? ≠ some '{') :
    (printAll items ++ after).head? ≠ some '{' := by
  cases items with
  | nil => exact hafter
  | cons node later =>
    obtain ⟨source, rfl⟩ := hbegin node rfl
    obtain ⟨c, cs, hcs, ⟨-, hc⟩ | ⟨hnode, -⟩⟩ := h.exists_cons
    · rw [hcs]
      rintro hhead
      cases hhead
      exact hc (by decide)
    · cases hnode

/-! ## No tags -/

theorem IsOrdinary.lt_not_mem {source : String} (h : IsOrdinary source) : '<' ∉ source.toList :=
  fun hmem => h.not_markup '<' hmem (by decide)

mutual

theorem IsSequence.not_mem_printAll {items : List Node} (h : IsSequence items) :
    '<' ∉ printAll items := by
  match h with
  | .nil => exact List.not_mem_nil
  | .text hordinary _ hl =>
    rw [printAll, List.mem_append, not_or]
    exact ⟨hordinary.lt_not_mem, hl.not_mem_printAll⟩
  | .construct hnode hl =>
    rw [printAll, List.mem_append, not_or]
    exact ⟨hnode.not_mem_printChars, hl.not_mem_printAll⟩

theorem IsConstruct.not_mem_printChars {node : Node} (h : IsConstruct node) :
    '<' ∉ node.printChars := by
  match h with
  | .invocation hname _ hargs _ =>
    rw [printChars, printChars_group]
    simp [hname.not_mem_printAll, hargs.not_mem_printArgs]
  | .placeholder hname _ =>
    rw [printChars, printChars_group]
    simp [hname.not_mem_printAll]
  | .withDefault hname _ hdefault =>
    rw [printChars, printChars_group, printChars_group]
    simp [hname.not_mem_printAll, hdefault.not_mem_printAll]

theorem AreSequences.not_mem_printArgs {args : List (List Node)} (h : AreSequences args) :
    '<' ∉ printArgs (args.map group) := by
  match h with
  | .nil => exact List.not_mem_nil
  | .cons h hl =>
    rw [List.map_cons, printArgs, printChars_group]
    simp [h.not_mem_printAll, hl.not_mem_printArgs]

end

end Node

end Transclusion
