/-
  Sets of characters, given as ranges of code points.

  A character class of a standard is a few hundred ranges.  `CodeRanges` keeps them in increasing
  order, so that a look-up may stop at the first range that starts behind the code point: an ASCII
  character is settled by the first few entries of any table.  That a table is in order is seen from
  its neighbouring ranges (`CodeRanges.ordered_of_isOrderedFrom`).
-/

namespace Transclusion.Text

/-- A set of code points: ranges with both ends included, disjoint and in increasing order. -/
abbrev CodeRanges := List (Nat × Nat)

/-- Whether `code` lies in one of the ranges.  The order of the ranges lets the search stop at the
    first one that starts behind `code`. -/
def CodeRanges.has (code : Nat) : CodeRanges → Bool
  | [] => false
  | (first, last) :: later =>
    if code < first then false else code ≤ last || CodeRanges.has code later

/-- What `CodeRanges` asks of a table: each range starts at or before its end, and every later
    range starts behind it. -/
def CodeRanges.Ordered (ranges : CodeRanges) : Prop :=
  (∀ r ∈ ranges, r.1 ≤ r.2) ∧ ranges.Pairwise fun r s => r.2 < s.1

/-- In an ordered table stopping early loses nothing: `has` is membership in one of the ranges. -/
theorem CodeRanges.has_iff {code : Nat} {ranges : CodeRanges} (h : ranges.Ordered) :
    ranges.has code = true ↔ ∃ r ∈ ranges, r.1 ≤ code ∧ code ≤ r.2 := by
  induction ranges with
  | nil => simp [has]
  | cons r later ih =>
    obtain ⟨hle, hpair⟩ := h
    have hlater : CodeRanges.Ordered later :=
      ⟨fun s hs => hle s (List.mem_cons_of_mem _ hs), (List.pairwise_cons.1 hpair).2⟩
    have hbehind := (List.pairwise_cons.1 hpair).1
    obtain ⟨first, last⟩ := r
    have hr : first ≤ last := hle (first, last) List.mem_cons_self
    simp only [has]
    split
    · next hlt =>
      -- every range of the table starts at or behind `first`, which is behind `code`
      simp only [Bool.false_eq_true, false_iff]
      rintro ⟨s, hs, h1, _⟩
      rcases List.mem_cons.1 hs with rfl | hs
      · exact absurd h1 (by simp only; omega)
      · exact absurd (hbehind s hs) (by simp only; omega)
    · next hge =>
      simp only [Bool.or_eq_true, decide_eq_true_eq, ih hlater, List.mem_cons, exists_eq_or_imp]
      constructor
      · rintro (h1 | h1)
        · exact Or.inl ⟨by omega, h1⟩
        · exact Or.inr h1
      · rintro (h1 | h1)
        · exact Or.inl h1.2
        · exact Or.inr h1

/-! ## Tables in order -/

/-- Whether a table is in order from `least` on, by looking at each range once. -/
def CodeRanges.isOrderedFrom (least : Nat) : CodeRanges → Bool
  | [] => true
  | (first, last) :: later =>
    least ≤ first && first ≤ last && CodeRanges.isOrderedFrom (last + 1) later

/-- Looking at neighbours is enough: what starts behind one range starts behind all before it. -/
theorem CodeRanges.ordered_of_isOrderedFrom {least : Nat} {ranges : CodeRanges}
    (h : ranges.isOrderedFrom least = true) : ranges.Ordered ∧ ∀ r ∈ ranges, least ≤ r.1 := by
  induction ranges generalizing least with
  | nil => exact ⟨⟨List.forall_mem_nil _, List.Pairwise.nil⟩, List.forall_mem_nil _⟩
  | cons r later ih =>
    obtain ⟨first, last⟩ := r
    simp only [isOrderedFrom, Bool.and_eq_true, decide_eq_true_eq] at h
    obtain ⟨⟨hleast, hle⟩, hlater⟩ := h
    obtain ⟨⟨hranges, hpair⟩, hbehind⟩ := ih hlater
    have hfrom : ∀ r ∈ later, least ≤ r.1 := by
      intro r hr
      have := hbehind r hr
      omega
    exact ⟨⟨List.forall_mem_cons.2 ⟨hle, hranges⟩, List.pairwise_cons.2 ⟨hbehind, hpair⟩⟩,
      List.forall_mem_cons.2 ⟨hleast, hfrom⟩⟩

/-- A class of characters in two tables: one for the code points below U+10000, and one for those
    from there on. -/
structure CodeRanges.AreHalves (basic supplementary : CodeRanges) : Prop where
  basic_ordered : basic.Ordered
  below : ∀ r ∈ basic, r.2 < 0x10000
  supplementary_ordered : supplementary.Ordered
  above : ∀ r ∈ supplementary, 0x10000 ≤ r.1

/-- Looking up in the one table that is in question is membership in a range of either. -/
theorem CodeRanges.AreHalves.has_iff {basic supplementary : CodeRanges} {code : Nat}
    (h : CodeRanges.AreHalves basic supplementary) :
    (if code < 0x10000 then basic.has code else supplementary.has code) = true ↔
      ∃ r ∈ basic ++ supplementary, r.1 ≤ code ∧ code ≤ r.2 := by
  simp only [List.mem_append]
  by_cases hcode : code < 0x10000
  · rw [if_pos hcode, CodeRanges.has_iff h.basic_ordered]
    constructor
    · rintro ⟨r, hr, hcovers⟩
      exact ⟨r, .inl hr, hcovers⟩
    · rintro ⟨r, hr | hr, hcovers⟩
      · exact ⟨r, hr, hcovers⟩
      · have := h.above r hr
        omega
  · rw [if_neg hcode, CodeRanges.has_iff h.supplementary_ordered]
    constructor
    · rintro ⟨r, hr, hcovers⟩
      exact ⟨r, .inr hr, hcovers⟩
    · rintro ⟨r, hr | hr, hcovers⟩
      · have := h.below r hr
        omega
      · exact ⟨r, hr, hcovers⟩

end Transclusion.Text
