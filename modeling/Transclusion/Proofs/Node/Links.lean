/-
  Which bars part the arguments of a call.

  A bar inside a link belongs to the link, so a call is to be parted at the bars outside of links.
  Read from the left, two opening brackets open a link, and two closing ones close the innermost
  link that is open (`openLinks`).  Where none is open they are text (`strayClosings`).

  `partArguments` keeps one count, up at an opening pair and down at a closing one, and parts where
  it is zero.  A closing pair that is text takes the count down too, so a bar parts where as many
  links are open as closing pairs were text (`balanced_iff`): after the first of these no bar
  outside of links parts any longer, and some bars inside of links do.

  `partsAt` parts at the bars that stand behind children of some kind, and both ways of parting are
  of that form.  Which bars part can be seen from the arguments, so the two give the same arguments
  only where they agree at every bar (`argumentsOf_partsAt_iff`).

  Main statement, `invocationFrom_parted_iff`; `invocationFrom_of_no_stray` is the case in which no
  closing pair is text.
-/
import Mathlib.Data.List.Basic
import Transclusion.Node.Parts

namespace Transclusion

namespace Node

/-! ## Parting children at bars -/

/-- The parts of children between the bars that separate: a bar separates by what stands in front of
    it, `before` being what stands in front of all the children. -/
def partsAt (separates : List Node → Prop) [DecidablePred separates] (before : List Node) :
    List Node → List (List Node)
  | [] => [[]]
  | child :: later =>
    if child = text "|" ∧ separates before then
      [] :: partsAt separates (before ++ [child]) later
    else (partsAt separates (before ++ [child]) later).modifyHead (child :: ·)

/-- The arguments that parts come to: an empty last part is no argument. -/
def argumentsOf (parts : List (List Node)) : List Node :=
  (if parts.getLast? = some [] then parts.dropLast else parts).map plain

section partsAt

variable (separates : List Node → Prop) [DecidablePred separates]

theorem partsAt_ne_nil (before children : List Node) : partsAt separates before children ≠ [] := by
  induction children generalizing before with
  | nil => exact List.cons_ne_nil _ _
  | cons child later ih =>
    rw [partsAt]
    split
    · exact List.cons_ne_nil _ _
    · simpa using ih (before ++ [child])

/-- Parting loses no child and changes no order: with bars between them the parts are what was
    parted. -/
theorem intercalate_partsAt (before children : List Node) :
    [text "|"].intercalate (partsAt separates before children) = children := by
  induction children generalizing before with
  | nil => rfl
  | cons child later ih =>
    have hlater := ih (before ++ [child])
    obtain ⟨part, parts, hparts⟩ := List.exists_cons_of_ne_nil
      (partsAt_ne_nil separates (before ++ [child]) later)
    rw [partsAt]
    rw [hparts] at hlater ⊢
    split
    · next hseparates =>
      rw [hseparates.1, ← hlater]
      rfl
    · rw [List.modifyHead_cons]
      rw [← hlater]
      cases parts with
      | nil => rfl
      | cons next parts => rfl

end partsAt

theorem modifyHead_nil_append (parts : List (List Node)) :
    parts.modifyHead ([] ++ ·) = parts :=
  congrFun List.modifyHead_id parts

/-- A first part is put together child by child. -/
theorem modifyHead_cons_append (arg : List Node) (child : Node) (parts : List (List Node)) :
    (parts.modifyHead (child :: ·)).modifyHead (arg ++ ·) =
      parts.modifyHead (arg ++ [child] ++ ·) := by
  rw [List.modifyHead_modifyHead]
  congr 1
  funext part
  simp

theorem argumentsOf_cons (part : List Node) {parts : List (List Node)} (h : parts ≠ []) :
    argumentsOf (part :: parts) = plain part :: argumentsOf parts := by
  obtain ⟨next, later, rfl⟩ := List.exists_cons_of_ne_nil h
  rw [argumentsOf, argumentsOf, List.getLast?_cons_cons, List.dropLast_cons_cons]
  split
  · rfl
  · rfl

/-- A first part that is not empty is the first argument. -/
theorem head?_argumentsOf {part : List Node} (h : part ≠ []) (parts : List (List Node)) :
    (argumentsOf (part :: parts)).head? = some (plain part) := by
  by_cases hparts : parts = []
  · subst hparts
    rw [argumentsOf, if_neg (by simpa using h)]
    rfl
  · rw [argumentsOf_cons part hparts]
    rfl

/-! ## Parting by the count -/

theorem isText_eq_decide (source : String) (node : Node) :
    node.isText source = decide (node = text source) := by
  cases hnode : node.isText source with
  | true => simp [eq_text_of_isText hnode]
  | false =>
    refine (decide_eq_false ?_).symm
    rintro rfl
    simp [isText] at hnode

/-- As many pairs of brackets were closed as were opened. -/
def Balanced (before : List Node) : Prop :=
  before.count (text "[[") = before.count (text "]]")

instance : DecidablePred Balanced := fun before =>
  inferInstanceAs (Decidable (before.count (text "[[") = before.count (text "]]")))

/-- The pairs of brackets that were opened less those that were closed. -/
def bracketCount (before : List Node) : Int :=
  before.count (text "[[") - before.count (text "]]")

theorem bracketCount_eq_zero_iff (before : List Node) :
    bracketCount before = 0 ↔ Balanced before := by
  rw [bracketCount, Balanced]
  omega

theorem bracketCount_concat (before : List Node) (child : Node) :
    bracketCount (before ++ [child]) = bracketCount before +
      if child = text "[[" then 1 else if child = text "]]" then -1 else 0 := by
  simp only [bracketCount, List.count_append, List.count_singleton]
  by_cases hopen : child = text "[["
  · subst hopen
    simp
    omega
  · by_cases hclose : child = text "]]"
    · subst hclose
      simp
      omega
    · simp [hopen, hclose]

/-- One child, by the count of what stands in front of it. -/
theorem partArguments_cons (before arg : List Node) (child : Node) (later : List Node) :
    partArguments [] arg.reverse (bracketCount before) (child :: later) =
      if child = text "|" ∧ Balanced before then
        plain arg :: partArguments [] [] (bracketCount (before ++ [child])) later
      else partArguments [] (arg ++ [child]).reverse (bracketCount (before ++ [child])) later := by
  rw [bracketCount_concat, partArguments]
  simp only [isText_eq_decide, decide_eq_true_eq, Bool.and_eq_true, beq_iff_eq,
    bracketCount_eq_zero_iff, List.reverse_append, List.reverse_singleton, List.singleton_append,
    List.reverse_reverse]
  by_cases hopen : child = text "[["
  · subst hopen
    simp
  by_cases hclose : child = text "]]"
  · subst hclose
    simp
    rfl
  simp only [if_neg hopen, if_neg hclose, Int.add_zero]
  split
  · rw [partArguments_eq_append]
    rfl
  · rfl

/-- **Parting by the count**: `arg` is the argument under way, and `before` what stands in front of
    the children. -/
theorem partArguments_eq (before arg children : List Node) :
    partArguments [] arg.reverse (bracketCount before) children =
      argumentsOf ((partsAt Balanced before children).modifyHead (arg ++ ·)) := by
  induction children generalizing before arg with
  | nil =>
    rw [partArguments, partsAt, List.modifyHead_cons, List.append_nil, argumentsOf]
    cases arg with
    | nil => rfl
    | cons child arg => simp
  | cons child later ih =>
    rw [partArguments_cons, partsAt]
    by_cases hbar : child = text "|" ∧ Balanced before
    · have hlater := ih (before ++ [child]) []
      rw [if_pos hbar, if_pos hbar, List.modifyHead_cons, List.append_nil,
        argumentsOf_cons arg (partsAt_ne_nil _ _ _)]
      rw [List.reverse_nil] at hlater
      rw [hlater, modifyHead_nil_append]
    · rw [if_neg hbar, if_neg hbar, ih, modifyHead_cons_append]

/-! ## Which bars part shows in the arguments -/

section partsAt

variable {separates others : List Node → Prop} [DecidablePred separates] [DecidablePred others]

/-- A bar that ends an argument is not the bar that goes on with it. -/
theorem argumentsOf_modifyHead_ne (arg : List Node) {child : Node} {parts parted : List (List Node)}
    (hparts : parts ≠ []) (hparted : parted ≠ []) :
    argumentsOf (arg :: parts) ≠ argumentsOf (parted.modifyHead (arg ++ [child] ++ ·)) := by
  obtain ⟨part, later, rfl⟩ := List.exists_cons_of_ne_nil hparted
  have hne : arg ++ [child] ++ part ≠ [] := by simp
  intro h
  have hhead := congrArg List.head? h
  rw [argumentsOf_cons arg hparts, List.modifyHead_cons, head?_argumentsOf hne, List.head?_cons,
    Option.some.injEq, plain.injEq, List.append_assoc] at hhead
  have hlength := congrArg List.length hhead
  simp at hlength

/-- The bars of children are the first child, if it is one, and those of the others. -/
theorem forall_bar_cons_iff {holds : List Node → Prop} {child : Node} {later : List Node} :
    (∀ front behind, child :: later = front ++ text "|" :: behind → holds front) ↔
      (child = text "|" → holds []) ∧
        ∀ front behind, later = front ++ text "|" :: behind → holds (child :: front) := by
  constructor
  · intro h
    constructor
    · rintro rfl
      exact h [] later rfl
    · rintro front behind rfl
      exact h (child :: front) behind rfl
  · rintro ⟨hfirst, hlater⟩ front behind h
    cases front with
    | nil => exact hfirst (List.cons.inj h).1
    | cons other front =>
      obtain ⟨rfl, htail⟩ := List.cons.inj h
      exact hlater front behind htail

/-- **Which bars part shows in the arguments**: two ways of parting give the same arguments just
    when they agree at every bar. -/
theorem argumentsOf_partsAt_iff (before arg children : List Node) :
    argumentsOf ((partsAt separates before children).modifyHead (arg ++ ·)) =
        argumentsOf ((partsAt others before children).modifyHead (arg ++ ·)) ↔
      ∀ front behind, children = front ++ text "|" :: behind →
        (separates (before ++ front) ↔ others (before ++ front)) := by
  induction children generalizing before arg with
  | nil => simp [partsAt]
  | cons child later ih =>
    rw [forall_bar_cons_iff, partsAt, partsAt, List.append_nil]
    by_cases hbar : child = text "|"
    · have hstart := ih (before ++ [child]) []
      rw [modifyHead_nil_append, modifyHead_nil_append] at hstart
      by_cases hseparates : separates before
      · rw [if_pos ⟨hbar, hseparates⟩, List.modifyHead_cons, List.append_nil]
        by_cases hothers : others before
        · -- both part here, so the arguments behind the bar decide
          rw [if_pos ⟨hbar, hothers⟩, List.modifyHead_cons, List.append_nil,
            argumentsOf_cons arg (partsAt_ne_nil _ _ _),
            argumentsOf_cons arg (partsAt_ne_nil _ _ _), List.cons.injEq, hstart]
          simp [hseparates, hothers]
        · -- one parts here and the other does not: already the first arguments differ
          rw [if_neg fun h => hothers h.2, modifyHead_cons_append]
          apply iff_of_false
          · exact argumentsOf_modifyHead_ne arg (partsAt_ne_nil _ _ _) (partsAt_ne_nil _ _ _)
          · intro h
            exact hothers ((h.1 hbar).1 hseparates)
      · rw [if_neg fun h => hseparates h.2, modifyHead_cons_append]
        by_cases hothers : others before
        · rw [if_pos ⟨hbar, hothers⟩, List.modifyHead_cons, List.append_nil]
          apply iff_of_false
          · exact (argumentsOf_modifyHead_ne arg (partsAt_ne_nil _ _ _)
              (partsAt_ne_nil _ _ _)).symm
          · intro h
            exact hseparates ((h.1 hbar).2 hothers)
        · rw [if_neg fun h => hothers h.2, modifyHead_cons_append, ih]
          simp [hseparates, hothers]
    · rw [if_neg fun h => hbar h.1, if_neg fun h => hbar h.1, modifyHead_cons_append,
        modifyHead_cons_append, ih]
      simp [hbar]

end partsAt

/-! ## Bars outside of links -/

/-- The links that are open after one more child. -/
def linksAfter (links : Nat) (child : Node) : Nat :=
  if child = text "[[" then links + 1 else if child = text "]]" then links - 1 else links

/-- The links that are open behind children, none being open in front of them. -/
def openLinks (before : List Node) : Nat := before.foldl linksAfter 0

/-- The closing pairs that find no open link, with `links` of them open in front. -/
def strayClosings (links : Nat) : List Node → Nat
  | [] => 0
  | child :: later =>
    (if child = text "]]" ∧ links = 0 then 1 else 0) + strayClosings (linksAfter links child) later

/-- **One child**: a closing pair closes a link or is text, and there is no third way. -/
theorem linksAfter_add (links : Nat) (child : Node) :
    linksAfter links child + (if child = text "]]" then 1 else 0) =
      links + (if child = text "[[" then 1 else 0) +
        if child = text "]]" ∧ links = 0 then 1 else 0 := by
  by_cases hopen : child = text "[["
  · subst hopen
    simp [linksAfter]
  by_cases hclose : child = text "]]"
  · subst hclose
    by_cases hlinks : links = 0
    · simp [linksAfter, hlinks]
    · have hpos : links - 1 + 1 = links := Nat.succ_pred hlinks
      simpa [linksAfter, hlinks] using hpos
  · simp [linksAfter, hopen, hclose]

/-- **All children**: the links that are left open are those that were opened, less those that the
    closing pairs closed that are not text. -/
theorem foldl_linksAfter_add (links : Nat) (before : List Node) :
    before.foldl linksAfter links + before.count (text "]]") =
      links + before.count (text "[[") + strayClosings links before := by
  induction before generalizing links with
  | nil => rfl
  | cons child later ih =>
    have hchild := linksAfter_add links child
    have hlater := ih (linksAfter links child)
    rw [List.foldl_cons, strayClosings, List.count_cons, List.count_cons]
    simp only [beq_iff_eq]
    omega

theorem strayClosings_append (links : Nat) (before later : List Node) :
    strayClosings links (before ++ later) =
      strayClosings links before + strayClosings (before.foldl linksAfter links) later := by
  induction before generalizing links with
  | nil => simp [strayClosings]
  | cons child before ih => simp [strayClosings, ih, Nat.add_assoc]

/-- The count is zero where as many links are open as closing pairs were text. -/
theorem balanced_iff (before : List Node) :
    Balanced before ↔ openLinks before = strayClosings 0 before := by
  have hlinks := foldl_linksAfter_add 0 before
  rw [Balanced, openLinks]
  omega

/-- No link is open. -/
def OutsideLinks (before : List Node) : Prop := openLinks before = 0

instance : DecidablePred OutsideLinks := fun before =>
  inferInstanceAs (Decidable (openLinks before = 0))

/-- The two ways of parting agree as long as no closing pair was text, and behind one that was at
    those bars inside of links at which the count does not happen to be zero. -/
theorem balanced_iff_outsideLinks_iff (before : List Node) :
    (Balanced before ↔ OutsideLinks before) ↔
      strayClosings 0 before = 0 ∨
        openLinks before ≠ 0 ∧ openLinks before ≠ strayClosings 0 before := by
  rw [balanced_iff, OutsideLinks]
  omega

/-! ## The arguments of a call -/

/-- The call that children make when the bars in its argument part part them that stand behind
    children of some kind. -/
def partedAt (separates : List Node → Prop) [DecidablePred separates] (children : List Node) :
    Node :=
  let name := children.takeWhile fun child => !child.endsName
  let rest := (children.dropWhile fun child => !child.endsName).drop 1
  invocation (plain name) (argumentsOf (partsAt separates [] rest))

theorem partedAt_inj_iff {separates others : List Node → Prop} [DecidablePred separates]
    [DecidablePred others] (children : List Node) :
    partedAt separates children = partedAt others children ↔
      ∀ before later, (children.dropWhile fun child => !child.endsName).drop 1 =
          before ++ text "|" :: later → (separates before ↔ others before) := by
  have hparts := @argumentsOf_partsAt_iff separates others _ _ [] []
    ((children.dropWhile fun child => !child.endsName).drop 1)
  rw [modifyHead_nil_append, modifyHead_nil_append] at hparts
  simpa [partedAt] using hparts

/-- A call is parted where the count is zero. -/
theorem invocationFrom_eq (children : List Node) :
    invocationFrom children = partedAt Balanced children := by
  have hparts := partArguments_eq [] [] ((children.dropWhile fun child => !child.endsName).drop 1)
  rw [modifyHead_nil_append] at hparts
  exact congrArg (invocation _) hparts

/-- **Where the bars of a call part**: behind its name a call is parted at the bars behind which as
    many links are open as closing pairs were text.  These are the bars outside of links just when
    every bar behind a closing pair that is text stands inside of links, and not exactly as deep in
    them as there are such pairs in front of it. -/
theorem invocationFrom_parted_iff (children : List Node) :
    let rest := (children.dropWhile fun child => !child.endsName).drop 1
    invocationFrom children = partedAt Balanced children ∧
      [text "|"].intercalate (partsAt Balanced [] rest) = rest ∧
      (∀ before, Balanced before ↔ openLinks before = strayClosings 0 before) ∧
      (invocationFrom children = partedAt OutsideLinks children ↔
        ∀ before later, rest = before ++ text "|" :: later →
          strayClosings 0 before = 0 ∨
            openLinks before ≠ 0 ∧ openLinks before ≠ strayClosings 0 before) := by
  refine ⟨invocationFrom_eq children, intercalate_partsAt Balanced [] _, balanced_iff, ?_⟩
  rw [invocationFrom_eq, partedAt_inj_iff]
  simp only [balanced_iff_outsideLinks_iff]

/-- A bar outside of links that does not part: the closing pair in front of it is text. -/
theorem not_parted_outsideLinks :
    let children := [text "t", text "|", text "a", text "]]", text "|", text "b"]
    partedAt OutsideLinks children =
        invocation (plain [text "t"]) [plain [text "a", text "]]"], plain [text "b"]] ∧
      invocationFrom children =
        invocation (plain [text "t"]) [plain [text "a", text "]]", text "|", text "b"]] ∧
      invocationFrom children ≠ partedAt OutsideLinks children := by
  decide

/-- Where every closing pair closes a link, a call is parted at its bars outside of links. -/
theorem invocationFrom_of_no_stray {children : List Node}
    (h : strayClosings 0 ((children.dropWhile fun child => !child.endsName).drop 1) = 0) :
    invocationFrom children = partedAt OutsideLinks children := by
  rw [invocationFrom_eq, partedAt_inj_iff]
  intro before later hrest
  rw [hrest, strayClosings_append] at h
  exact (balanced_iff_outsideLinks_iff before).2 (.inl (by omega))

end Node

end Transclusion
