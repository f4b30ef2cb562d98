/-
  Where tags stand in a text.

  A tag is matched without regard to the case of letters, so it is compared with the text in lower
  case: it stands at the start of a text, or occurs in it, just as its lower-case letters do there
  (`standsAt_iff`, `OccursIn`).

  `find?` returns the first place at which the tag stands.  In a text `front ++ written ++ behind`,
  where `written` is the tag and `front` has no tag in it, this is where `front` ends
  (`find?_append`), but only because no occurrence can begin in `front` and end in `written`.  What
  rules that out is the last character of a tag: it is `>`, and there is no other in the tag
  (`EndsOnce`).
-/
import Transclusion.Tag

namespace Transclusion

/-! ## Lists that end with a character of their own -/

/-- A prefix that ends with an element which is not in what was appended ends before it. -/
theorem prefix_of_prefix_append_of_not_mem {α : Type} {init front behind : List α} {last : α}
    (h : init ++ [last] <+: front ++ behind) (hlast : last ∉ behind) :
    init ++ [last] <+: front := by
  rcases List.prefix_or_prefix_of_prefix h (List.prefix_append front behind) with hshort | hlong
  · exact hshort
  obtain ⟨rest, hrest⟩ := hlong
  rcases List.eq_nil_or_concat rest with rfl | ⟨rest, final, rfl⟩
  · exact ⟨[], by rw [List.append_nil, ← hrest, List.append_nil]⟩
  · rw [List.concat_eq_append] at hrest
    -- What sticks out of `front` is a start of `behind`, and ends with `last`.
    have hstart : rest ++ [final] <+: behind := by
      rwa [← hrest, List.prefix_append_right_inj] at h
    rw [← List.append_assoc] at hrest
    obtain ⟨-, hfinal⟩ := List.append_inj' hrest rfl
    obtain rfl : final = last := List.singleton_inj.1 hfinal
    exact absurd (hstart.subset (List.mem_append_right rest List.mem_cons_self)) hlast

namespace Tag

/-! ## Letters without case -/

/-- Characters in lower case. -/
def fold (cs : List Char) : List Char := cs.map Char.toLower

/-- A character that is no letter is the lower case of itself only. -/
theorem eq_of_toLower_eq {c d : Char} (hc : c.isAlpha = false) (h : d.toLower = c.toLower) :
    d = c := by
  obtain ⟨hupper, hlower⟩ := Bool.or_eq_false_iff.1 hc
  unfold Char.toLower at h
  rw [dif_neg (of_decide_eq_false hupper)] at h
  split at h
  · next hd =>
    -- the lower case of a letter is a letter
    subst h
    unfold Char.isLower at hlower
    simp only [Bool.and_eq_false_iff, decide_eq_false_iff_not, ge_iff_le,
      UInt32.le_iff_toNat_le, UInt32.toNat_add] at hd hlower
    simp at hd hlower
    omega
  · exact h

/-- The characters are those of the tag, up to the case of letters. -/
def Matches (tag : Tag) (written : List Char) : Prop := fold written = fold tag

/-- The tag occurs in the text, its letters being in any case. -/
def OccursIn (tag : Tag) (cs : List Char) : Prop := fold tag <:+: fold cs

@[simp] theorem fold_append (cs ds : List Char) : fold (cs ++ ds) = fold cs ++ fold ds :=
  List.map_append

theorem Matches.length_eq {tag : Tag} {written : List Char} (h : tag.Matches written) :
    written.length = tag.length := by
  have hlength := congrArg List.length h
  rwa [fold, fold, List.length_map, List.length_map] at hlength

/-- What is written as a tag is an occurrence of it. -/
theorem Matches.occursIn {tag : Tag} {written : List Char} (h : tag.Matches written)
    (front behind : List Char) : tag.OccursIn (front ++ (written ++ behind)) := by
  rw [OccursIn, fold_append, fold_append, h]
  exact ⟨fold front, fold behind, List.append_assoc _ _ _⟩

theorem not_occursIn_nil {tag : Tag} (h : tag ≠ []) : ¬tag.OccursIn [] := by
  intro hoccurs
  have hnil : fold tag = [] := List.infix_nil.1 hoccurs
  exact h (List.map_eq_nil_iff.1 hnil)

/-- A tag that stands at the start of a text is what the text begins with. -/
theorem standsAt_iff {tag : Tag} {cs : List Char} :
    tag.standsAt cs = true ↔ fold tag <+: fold cs := by
  induction tag generalizing cs with
  | nil => exact iff_of_true rfl List.nil_prefix
  | cons t tag ih =>
    cases cs with
    | nil => simp [standsAt, fold]
    | cons c cs =>
      rw [standsAt, Bool.and_eq_true, beq_iff_eq, ih]
      exact List.cons_prefix_cons.symm

theorem standsAt_append {tag : Tag} {cs : List Char} (h : tag.standsAt cs = true)
    (behind : List Char) : tag.standsAt (cs ++ behind) = true := by
  rw [standsAt_iff, fold_append]
  exact (standsAt_iff.1 h).trans (List.prefix_append _ _)

/-- A text that begins with a tag is the tag as it is written there, and what is behind. -/
theorem exists_eq_append_of_standsAt {tag : Tag} {cs : List Char} (h : tag.standsAt cs = true) :
    ∃ written behind, cs = written ++ behind ∧ tag.Matches written := by
  obtain ⟨later, hlater⟩ := standsAt_iff.1 h
  obtain ⟨written, behind, rfl, hwritten, -⟩ := List.map_eq_append_iff.1 hlater.symm
  exact ⟨written, behind, rfl, hwritten⟩

theorem Matches.standsAt_append {tag : Tag} {written : List Char} (h : tag.Matches written)
    (behind : List Char) : tag.standsAt (written ++ behind) = true := by
  rw [standsAt_iff, fold_append, h]
  exact List.prefix_append _ _

/-- A tag occurs in a text where it stands at the start, or behind the first character. -/
theorem occursIn_cons_iff {tag : Tag} {c : Char} {cs : List Char} :
    tag.OccursIn (c :: cs) ↔ tag.standsAt (c :: cs) = true ∨ tag.OccursIn cs := by
  rw [standsAt_iff]
  exact List.infix_cons_iff

theorem not_occursIn_of_cons {tag : Tag} {c : Char} {cs : List Char} (h : ¬tag.OccursIn (c :: cs)) :
    ¬tag.OccursIn cs :=
  fun hoccurs => h (occursIn_cons_iff.2 (.inr hoccurs))

/-- A gap may begin one character earlier where no tag begins in the text. -/
theorem not_occursIn_cons {tag : Tag} {c : Char} {front behind : List Char}
    (hstands : tag.standsAt (c :: (front ++ behind)) = false) (hfront : ¬tag.OccursIn front) :
    ¬tag.OccursIn (c :: front) := by
  rw [occursIn_cons_iff, not_or]
  exact ⟨fun hfirst => Bool.false_ne_true (hstands.symm.trans (standsAt_append hfirst behind)),
    hfront⟩

/-! ## The first occurrence -/

/-- The last character of the tag stands in it only there. -/
def EndsOnce (tag : Tag) : Prop := ∃ init last, tag = init ++ [last] ∧ last.toLower ∉ fold init

theorem EndsOnce.ne_nil {tag : Tag} (h : tag.EndsOnce) : tag ≠ [] := by
  obtain ⟨init, last, rfl, -⟩ := h
  simp

/-- No occurrence begins in front of the first one. -/
theorem EndsOnce.standsAt_append_eq_false {tag : Tag} (h : tag.EndsOnce) {front written : List Char}
    (hfront : ¬tag.OccursIn front) (hne : front ≠ []) (hwritten : tag.Matches written)
    (behind : List Char) : tag.standsAt (front ++ (written ++ behind)) = false := by
  apply eq_false_of_ne_true
  intro hstands
  obtain ⟨init, last, rfl, hlast⟩ := h
  rw [standsAt_iff, fold_append, fold_append, fold_append, show fold written = _ from hwritten,
    fold_append] at hstands
  -- An occurrence from inside `front` ends before the one that is written behind does.
  have hshort : fold init ++ [last.toLower] <+: fold front ++ fold init := by
    refine List.prefix_of_prefix_length_le hstands ?_ ?_
    · exact ⟨fold [last] ++ fold behind, by simp only [List.append_assoc]⟩
    · have hpos : 0 < front.length := List.length_pos_iff.2 hne
      simp only [fold, List.length_append, List.length_map, List.length_singleton]
      omega
  rw [OccursIn, fold_append] at hfront
  exact hfront (prefix_of_prefix_append_of_not_mem hshort hlast).isInfix

/-- A tag that occurs has a first occurrence. -/
theorem exists_of_occursIn {tag : Tag} (hne : tag ≠ []) {cs : List Char} (h : tag.OccursIn cs) :
    ∃ front written behind, cs = front ++ (written ++ behind) ∧ tag.Matches written ∧
      ¬tag.OccursIn front := by
  induction cs with
  | nil => exact absurd h (not_occursIn_nil hne)
  | cons c cs ih =>
    cases hstands : tag.standsAt (c :: cs) with
    | true =>
      obtain ⟨written, behind, heq, hwritten⟩ := exists_eq_append_of_standsAt hstands
      exact ⟨[], written, behind, heq, hwritten, not_occursIn_nil hne⟩
    | false =>
      obtain ⟨front, written, behind, rfl, hwritten, hfront⟩ :=
        ih ((occursIn_cons_iff.1 h).resolve_left (Bool.eq_false_iff.1 hstands))
      exact ⟨c :: front, written, behind, rfl, hwritten, not_occursIn_cons hstands hfront⟩

/-- Counting may begin at any number. -/
theorem findFrom_eq (tag : Tag) (before : Nat) (cs : List Char) :
    tag.findFrom before cs = (tag.find? cs).map (before + ·) := by
  unfold find?
  induction cs generalizing before with
  | nil => rfl
  | cons c cs ih =>
    rw [findFrom, findFrom]
    split
    · rfl
    · rw [ih (before + 1), ih (0 + 1), Option.map_map]
      congr 1
      funext n
      exact (Nat.add_assoc before 1 n).trans (by rw [Function.comp, Nat.zero_add])

theorem find?_of_standsAt {tag : Tag} {cs : List Char} (hne : cs ≠ [])
    (h : tag.standsAt cs = true) : tag.find? cs = some 0 := by
  cases cs with
  | nil => exact absurd rfl hne
  | cons c cs => rw [find?, findFrom, if_pos h]

theorem find?_cons {tag : Tag} {c : Char} {cs : List Char} (h : tag.standsAt (c :: cs) = false) :
    tag.find? (c :: cs) = (tag.find? cs).map (· + 1) := by
  rw [find?, findFrom, if_neg (by rw [h]; exact Bool.false_ne_true), findFrom_eq]
  congr 1
  funext n
  omega

/-- **The first occurrence is found**: it is where the part without the tag ends. -/
theorem EndsOnce.find?_append {tag : Tag} (h : tag.EndsOnce) {front written : List Char}
    (hfront : ¬tag.OccursIn front) (hwritten : tag.Matches written) (behind : List Char) :
    tag.find? (front ++ (written ++ behind)) = some front.length := by
  induction front with
  | nil =>
    refine find?_of_standsAt ?_ (hwritten.standsAt_append behind)
    intro hnil
    rw [List.nil_append, List.append_eq_nil_iff] at hnil
    have hlength := hwritten.length_eq
    rw [hnil.1] at hlength
    exact h.ne_nil (List.length_eq_zero_iff.1 hlength.symm)
  | cons c front ih =>
    have hstands := h.standsAt_append_eq_false hfront (List.cons_ne_nil c front) hwritten behind
    rw [List.cons_append] at hstands ⊢
    rw [find?_cons hstands, ih (not_occursIn_of_cons hfront)]
    rfl

/-- Nothing is found where the tag does not occur. -/
theorem find?_eq_none_iff {tag : Tag} (hne : tag ≠ []) {cs : List Char} :
    tag.find? cs = none ↔ ¬tag.OccursIn cs := by
  induction cs with
  | nil => exact iff_of_true rfl (not_occursIn_nil hne)
  | cons c cs ih =>
    rw [occursIn_cons_iff, not_or, ← ih]
    cases hstands : tag.standsAt (c :: cs) with
    | true => simp [find?_of_standsAt (List.cons_ne_nil c cs) hstands]
    | false => simp [find?_cons hstands]

end Tag

end Transclusion
