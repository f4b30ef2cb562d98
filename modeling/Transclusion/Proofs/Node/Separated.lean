/-
  Children with separators between them, and the constructs made of them.

  Where the parts of a call hold no separators of their own, the name ends at the first bar and each
  further bar parts two arguments, so the parts come out as they were put together (`barred`).  An
  empty last part is the one that does not: it is dropped.

  Ordinary texts are no separators, so children that collapse to sequences are such parts.
-/
import Transclusion.Node.Parts
import Transclusion.Proofs.Node.Printing

namespace Transclusion

namespace Node

/-! ## Parts between bars -/

/-- None of the children is a separator or a link bracket. -/
def NoMarks (children : List Node) : Prop :=
  ∀ child ∈ children, ∀ source ∈ ["|", ":", "[[", "]]"], child.isText source = false

/-- Parts, each behind a bar. -/
def barred (parts : List (List Node)) : List Node := parts.flatMap fun part => text "|" :: part

theorem barred_cons (part : List Node) (later : List (List Node)) :
    barred (part :: later) = text "|" :: (part ++ barred later) := by
  rw [barred, List.flatMap_cons, List.cons_append]
  rfl

theorem NoMarks.endsName {children : List Node} (h : NoMarks children) :
    ∀ child ∈ children, (!child.endsName) = true := by
  intro child hmem
  rw [Node.endsName, h child hmem "|" (by decide), h child hmem ":" (by decide)]
  rfl

theorem NoMarks.isText_bar {children : List Node} (h : NoMarks children) :
    ∀ child ∈ children, (!child.isText "|") = true := by
  intro child hmem
  rw [h child hmem "|" (by decide)]
  rfl

/-- Children that are no separators join the argument under way. -/
theorem partArguments_append {children : List Node} (h : NoMarks children)
    (args arg later : List Node) (links : Int) :
    partArguments args arg links (children ++ later) =
      partArguments args (children.reverse ++ arg) links later := by
  induction children generalizing arg with
  | nil => rfl
  | cons child children ih =>
    have hchild := h child List.mem_cons_self
    have hlater : NoMarks children := fun other hother => h other (List.mem_cons_of_mem _ hother)
    rw [List.cons_append, partArguments, hchild "[[" (by decide), hchild "]]" (by decide),
      hchild "|" (by decide)]
    simp only [Bool.false_eq_true, ↓reduceIte, Bool.false_and]
    rw [ih hlater, List.reverse_cons, List.append_assoc]
    rfl

/-- Parts with bars between them are parted there again. -/
theorem partArguments_barred {part : List Node} {later : List (List Node)}
    (h : ∀ other ∈ later, NoMarks other) (hlast : (part :: later).getLast? ≠ some []) :
    partArguments [] part.reverse 0 (barred later) = (part :: later).map plain := by
  induction later generalizing part with
  | nil =>
    have hne : part ≠ [] := by
      rintro rfl
      exact hlast rfl
    show partArguments [] part.reverse 0 [] = [plain part]
    rw [partArguments, if_neg (by simpa using hne), List.reverse_reverse]
    rfl
  | cons next later ih =>
    have hnext := h next List.mem_cons_self
    have hrest := ih (fun other hother => h other (List.mem_cons_of_mem _ hother))
      (by rwa [List.getLast?_cons_cons] at hlast)
    rw [barred_cons, partArguments]
    show partArguments [plain part.reverse.reverse] [] 0 (next ++ barred later) = _
    rw [partArguments_append hnext, partArguments_eq_append, List.append_nil, hrest,
      List.reverse_reverse]
    rfl

theorem invocationFrom_barred {name : List Node} {parts : List (List Node)} (hname : NoMarks name)
    (hparts : ∀ part ∈ parts, NoMarks part) (hlast : parts.getLast? ≠ some []) :
    invocationFrom (name ++ barred parts) = invocation (plain name) (parts.map plain) := by
  simp only [invocationFrom]
  rw [List.takeWhile_append_of_pos hname.endsName, List.dropWhile_append_of_pos hname.endsName]
  cases parts with
  | nil => simp [barred, partArguments]
  | cons part later =>
    have hpart := hparts part List.mem_cons_self
    have hlater := fun other hother => hparts other (List.mem_cons_of_mem part hother)
    have hbar : (!(text "|").endsName) = false := rfl
    rw [barred_cons, List.takeWhile_cons, List.dropWhile_cons, hbar]
    simp only [Bool.false_eq_true, ↓reduceIte, List.append_nil, List.drop_one, List.tail_cons]
    rw [partArguments_append hpart, List.append_nil, partArguments_barred hlater hlast]

theorem placeholderFrom_name {name : List Node} (hname : NoMarks name) :
    placeholderFrom name = placeholder (plain name) none := by
  have hnone : name = name ++ [] := (List.append_nil name).symm
  rw [placeholderFrom, hnone, List.takeWhile_append_of_pos hname.isText_bar,
    List.dropWhile_append_of_pos hname.isText_bar]
  rfl

theorem placeholderFrom_default {name default : List Node} (hname : NoMarks name) :
    placeholderFrom (name ++ text "|" :: default) =
      placeholder (plain name) (some (plain default)) := by
  have hbar : (!(text "|").isText "|") = false := rfl
  rw [placeholderFrom, List.takeWhile_append_of_pos hname.isText_bar,
    List.dropWhile_append_of_pos hname.isText_bar, List.takeWhile_cons, List.dropWhile_cons, hbar]
  simp

/-! ## Children of sequences -/

/-- An ordinary text is no separator. -/
theorem IsOrdinary.not_mark {source : String} (h : IsOrdinary source) :
    source ∉ ["|", ":", "[[", "]]"] := by
  have hfirst : ∀ c ∈ source.toList, c ∉ markupChars := h.not_markup
  intro hmem
  simp only [List.mem_cons, List.not_mem_nil, or_false] at hmem
  rcases hmem with rfl | rfl | rfl | rfl
  · exact hfirst '|' (by decide) (by decide)
  · exact hfirst ':' (by decide) (by decide)
  · exact hfirst '[' (by decide) (by decide)
  · exact hfirst ']' (by decide) (by decide)

/-- Children that collapse to a sequence hold no separators. -/
theorem IsSequence.noMarks {children : List Node} (h : IsSequence (children.map collapse)) :
    NoMarks children := by
  intro child hmem source hmark
  cases hchild : child.isText source with
  | false => rfl
  | true =>
    have hcollapse : Node.text source ∈ children.map collapse := by
      rw [← collapse_text source, ← eq_text_of_isText hchild]
      exact List.mem_map_of_mem hmem
    exact absurd hmark (h.isOrdinary_of_mem hcollapse).not_mark

/-- A call made of children that collapse to sequences collapses to the call of these. -/
theorem collapse_invocationFrom {name : List Node} {parts : List (List Node)}
    (hname : IsSequence (name.map collapse)) (hargs : AreSequences (parts.map (List.map collapse)))
    (hlast : (parts.map (List.map collapse)).getLast? ≠ some []) :
    (invocationFrom (name ++ barred parts)).collapse =
      invocation (group (name.map collapse)) ((parts.map (List.map collapse)).map group) := by
  have hparts : ∀ part ∈ parts, NoMarks part := by
    intro part hpart
    exact (hargs.isSequence_of_mem (List.mem_map_of_mem hpart)).noMarks
  have hfull : parts.getLast? ≠ some [] := by
    intro hnil
    apply hlast
    rw [List.getLast?_map, hnil]
    rfl
  rw [invocationFrom_barred hname.noMarks hparts hfull, collapse_invocation,
    collapse_plain_eq_group, List.map_map, List.map_map]
  congr 1
  apply List.map_congr_left
  intro part _
  exact collapse_plain_eq_group part

theorem collapse_placeholderFrom_name {name : List Node} (hname : IsSequence (name.map collapse)) :
    (placeholderFrom name).collapse = placeholder (group (name.map collapse)) none := by
  rw [placeholderFrom_name hname.noMarks, collapse_placeholder, collapse_plain_eq_group]
  rfl

theorem collapse_placeholderFrom_default {name default : List Node}
    (hname : IsSequence (name.map collapse)) :
    (placeholderFrom (name ++ text "|" :: default)).collapse =
      placeholder (group (name.map collapse)) (some (group (default.map collapse))) := by
  rw [placeholderFrom_default hname.noMarks, collapse_placeholder, collapse_plain_eq_group,
    Option.map_some, collapse_plain_eq_group]

end Node

end Transclusion
