/-
  Blanks at the ends of a text, and words, in which there are none.

  Trimming takes the blanks in front and then those behind.  Around a character that is not blank
  these are two separate things (`trimChars_append_cons`): what stands in front of it is trimmed in
  front, what stands behind it is trimmed behind, and the character stays.  So a text can be trimmed
  before or after it is parted at such a character.

  A word character is neither blank nor `=`.  The tables of word characters are long, so these
  characters are looked up in them one by one; there are 26.
-/
import Mathlib.Data.List.DropRight
import Transclusion.Text.Blank
import Transclusion.Text.Numeral
import Transclusion.Text.Word

namespace Transclusion.Text

/-! ## Dropping from the ends of a list -/

section drop

variable {α : Type} {p : α → Bool} {a : α} {front behind : List α}

/-- What is dropped in front of an element that stays stands in front of it. -/
theorem dropWhile_append_cons (h : p a = false) :
    (front ++ a :: behind).dropWhile p = front.dropWhile p ++ a :: behind := by
  have hstays : (a :: behind).dropWhile p = a :: behind := by simp [h]
  rw [List.dropWhile_append, hstays]
  split
  · next hempty => rw [List.isEmpty_iff.1 hempty, List.nil_append]
  · rfl

/-- What is dropped behind an element that stays stands behind it. -/
theorem rdropWhile_append_cons (h : p a = false) :
    (front ++ a :: behind).rdropWhile p = front ++ a :: behind.rdropWhile p := by
  have hreverse : (front ++ a :: behind).reverse = behind.reverse ++ a :: front.reverse := by simp
  rw [List.rdropWhile, hreverse, dropWhile_append_cons h]
  simp [List.rdropWhile]

/-- Some element stays, or all are dropped. -/
theorem exists_eq_append_cons_or (p : α → Bool) (l : List α) :
    (∃ front a behind, l = front ++ a :: behind ∧ p a = false) ∨ ∀ a ∈ l, p a = true := by
  by_cases h : ∀ a ∈ l, p a = true
  · exact .inr h
  · push Not at h
    obtain ⟨a, hmem, ha⟩ := h
    obtain ⟨front, behind, rfl⟩ := List.append_of_mem hmem
    exact .inl ⟨front, a, behind, rfl, eq_false_of_ne_true ha⟩

end drop

/-! ## Trimming -/

theorem trimChars_eq (cs : List Char) :
    trimChars cs = (cs.dropWhile isBlank).rdropWhile isBlank := rfl

/-- Trimming around a character that is not blank. -/
theorem trimChars_append_cons {c : Char} (h : isBlank c = false) (front behind : List Char) :
    trimChars (front ++ c :: behind) =
      front.dropWhile isBlank ++ c :: behind.rdropWhile isBlank := by
  rw [trimChars_eq, dropWhile_append_cons h, rdropWhile_append_cons h]

/-- Blanks in front are trimmed anyway. -/
theorem trimChars_dropWhile (cs : List Char) :
    trimChars (cs.dropWhile isBlank) = trimChars cs := by
  rw [trimChars_eq, List.dropWhile_idempotent, trimChars_eq]

/-- Blanks behind are trimmed anyway. -/
theorem trimChars_rdropWhile (cs : List Char) :
    trimChars (cs.rdropWhile isBlank) = trimChars cs := by
  rcases exists_eq_append_cons_or isBlank cs with ⟨front, c, behind, rfl, hc⟩ | hall
  · rw [rdropWhile_append_cons hc, trimChars_append_cons hc, trimChars_append_cons hc,
      List.rdropWhile_idempotent]
  · rw [List.rdropWhile_eq_nil_iff.2 hall, trimChars_eq cs, List.dropWhile_eq_nil_iff.2 hall]
    rfl

theorem trimChars_trimChars (cs : List Char) : trimChars (trimChars cs) = trimChars cs := by
  rw [trimChars_eq cs, trimChars_rdropWhile, trimChars_dropWhile, trimChars_eq]

theorem trim_trim (text : String) : trim (trim text) = trim text := by
  rw [trim, trim, String.toList_ofList, trimChars_trimChars]

/-- A trimmed text does not end with a blank. -/
theorem isBlank_getLast?_trimChars {cs : List Char} {c : Char}
    (h : (trimChars cs).getLast? = some c) : isBlank c = false := by
  have hne : trimChars cs ≠ [] := by
    intro hnil
    rw [hnil] at h
    exact absurd h nofun
  have hlast := List.rdropWhile_last_not isBlank (cs.dropWhile isBlank) hne
  rw [List.getLast?_eq_some_getLast hne] at h
  obtain rfl := Option.some.inj h
  exact eq_false_of_ne_true hlast

/-- A trimmed text does not begin with a blank: what is left of it begins as it began when it was
    trimmed in front. -/
theorem isBlank_head?_trimChars {cs : List Char} {c : Char}
    (h : (trimChars cs).head? = some c) : isBlank c = false := by
  obtain ⟨behind, hbehind⟩ := List.rdropWhile_prefix isBlank (cs.dropWhile isBlank)
  have hfront : (cs.dropWhile isBlank).head? = some c := by
    rw [← hbehind]
    show (trimChars cs ++ behind).head? = some c
    rw [List.head?_append, h]
    rfl
  have hblank := List.head?_dropWhile_not isBlank cs
  rw [hfront] at hblank
  exact hblank

/-- Trimming leaves characters of the text. -/
theorem mem_of_mem_trimChars {cs : List Char} {c : Char} (h : c ∈ trimChars cs) : c ∈ cs := by
  rw [trimChars_eq] at h
  exact (List.dropWhile_sublist _).mem ((List.rdropWhile_prefix _ _).sublist.mem h)

/-- A text without blanks is trimmed as it stands. -/
theorem trimChars_eq_self {cs : List Char} (h : ∀ c ∈ cs, isBlank c = false) :
    trimChars cs = cs := by
  have hfront : cs.dropWhile isBlank = cs := by
    rw [List.dropWhile_eq_self_iff]
    intro hpos
    simp [h _ (List.getElem_mem hpos)]
  rw [trimChars_eq, hfront, List.rdropWhile_eq_self_iff]
  intro hne
  simp [h _ (List.getLast_mem hne)]

/-! ## Words -/

/-- The code points of the blank characters. -/
def blankCodes : List Nat :=
  [0x09, 0x0a, 0x0b, 0x0c, 0x0d, 0x20, 0x85, 0xa0, 0x1680, 0x2000, 0x2001, 0x2002, 0x2003, 0x2004,
    0x2005, 0x2006, 0x2007, 0x2008, 0x2009, 0x200a, 0x2028, 0x2029, 0x202f, 0x205f, 0x3000]

theorem toNat_mem_blankCodes {c : Char} (h : isBlank c = true) : c.toNat ∈ blankCodes := by
  simp only [isBlank, Bool.or_eq_true, Bool.and_eq_true, decide_eq_true_eq, beq_iff_eq] at h
  simp only [blankCodes, List.mem_cons, List.not_mem_nil, or_false]
  omega

/-- None of the blanks is in the table, and neither is `=`. -/
theorem has_wordRangesBasic_eq_false :
    ∀ code ∈ '='.toNat :: blankCodes, code < 0x10000 ∧ wordRangesBasic.has code = false := by
  decide +kernel

theorem isWordChar_eq_false {c : Char} (h : c.toNat ∈ '='.toNat :: blankCodes) :
    isWordChar c = false := by
  obtain ⟨hbasic, hhas⟩ := has_wordRangesBasic_eq_false _ h
  rw [isWordChar, if_pos hbasic, hhas]

/-- A word character is not blank. -/
theorem isBlank_eq_false_of_isWordChar {c : Char} (h : isWordChar c = true) : isBlank c = false := by
  cases hblank : isBlank c with
  | false => rfl
  | true =>
    rw [isWordChar_eq_false (List.mem_cons_of_mem _ (toNat_mem_blankCodes hblank))] at h
    exact absurd h nofun

theorem ne_equals_of_isWordChar {c : Char} (h : isWordChar c = true) : c ≠ '=' := by
  rintro rfl
  rw [isWordChar_eq_false List.mem_cons_self] at h
  exact absurd h nofun

/-- The digits are the first range of the table. -/
theorem isWordChar_of_isDigit {c : Char} (h : c.isDigit = true) : isWordChar c = true := by
  obtain ⟨hfirst, hlast⟩ : 0x30 ≤ c.toNat ∧ c.toNat ≤ 0x39 := by
    simpa [Char.isDigit, UInt32.le_iff_toNat_le] using h
  exact isWordChar_iff.2 ⟨(0x30, 0x39), List.mem_append_left _ List.mem_cons_self, hfirst, hlast⟩

/-- A numeral is a word. -/
theorem isWord_numeral (n : Nat) : isWord (numeral n).toList = true := by
  rw [numeral, String.toList_ofList, isWord, Bool.and_eq_true, Bool.not_eq_true']
  constructor
  · simp
  · rw [List.all_eq_true]
    intro c hc
    exact isWordChar_of_isDigit (Nat.isDigit_of_mem_toDigits (by decide) (by decide) hc)

end Transclusion.Text
