/-
  Quoted texts can be told apart, and stay on one line.

  A character is quoted as itself, by a letter behind a backslash, or by its code point.  `QuotedAs`
  has one rule for each of these forms, and `quotedAs_quoteChar` is the only place where the
  definition of the forms is gone through; the tables of escaped characters play no part.

  Two things follow from the forms.  None of them is the beginning of another (`QuotedAs.inj`), so
  what stands behind a quoted character does not matter for reading it, and a whole text is read
  back character by character (`quote_inj`).  And none of them has a line break in it
  (`lineBreak_not_mem_quote`).

  That no other control character is left either is seen from the tables, which have them all
  (`isShown_quote`).
-/
import Mathlib.Data.List.Basic
import Transclusion.Text.Numeral
import Transclusion.Text.Quoted

namespace Transclusion.Text

/-! ## Digits -/

/-- A digit of a number is one of as many characters as there are in the base. -/
theorem exists_digitChar_of_mem {base n : Nat} (hbase : 1 < base) {c : Char}
    (h : c ∈ Nat.toDigits base n) : ∃ digit, digit < base ∧ c = Nat.digitChar digit := by
  induction n using Nat.strongRecOn with
  | _ n ih =>
    by_cases hlt : n < base
    · rw [Nat.toDigits_of_lt_base hlt, List.mem_singleton] at h
      exact ⟨n, hlt, h⟩
    · have hle : base ≤ n := Nat.le_of_not_lt hlt
      rw [Nat.toDigits_of_base_le hbase hle, List.mem_append, List.mem_singleton] at h
      rcases h with h | h
      · exact ih (n / base) (Nat.div_lt_self (by omega) hbase) h
      · exact ⟨n % base, Nat.mod_lt n (by omega), h⟩

theorem digitChar_inj : ∀ m < 16, ∀ n < 16, Nat.digitChar m = Nat.digitChar n → m = n := by
  decide

/-- Different numbers have different digits. -/
theorem toDigits_inj {base : Nat} (hbase : 1 < base) (hdigits : base ≤ 16) {m n : Nat}
    (h : Nat.toDigits base m = Nat.toDigits base n) : m = n := by
  induction m using Nat.strongRecOn generalizing n with
  | _ m ih =>
    -- a number is its last digit behind the digits of the number without it
    have hlast : ∀ k, Nat.toDigits base k =
        (if k < base then [] else Nat.toDigits base (k / base)) ++ [Nat.digitChar (k % base)] := by
      intro k
      rw [Nat.toDigits_eq_if hbase]
      split
      · next hlt => rw [Nat.mod_eq_of_lt hlt]; rfl
      · rfl
    rw [hlast m, hlast n] at h
    obtain ⟨hfront, hdigit⟩ := List.append_inj' h rfl
    have hmod : m % base = n % base := by
      have hm := Nat.mod_lt m (show 0 < base by omega)
      have hn := Nat.mod_lt n (show 0 < base by omega)
      exact digitChar_inj _ (by omega) _ (by omega) (List.cons.inj hdigit).1
    have hne : ∀ k, Nat.toDigits base k ≠ [] := fun k => Nat.toDigits_ne_nil
    split at hfront
    · next hm =>
      split at hfront
      · next hn => rwa [Nat.mod_eq_of_lt hm, Nat.mod_eq_of_lt hn] at hmod
      · exact absurd hfront.symm (hne _)
    · next hm =>
      split at hfront
      · exact absurd hfront (hne _)
      · have hdiv := ih (m / base) (Nat.div_lt_self (by omega) hbase) hfront
        rw [← Nat.div_add_mod m base, ← Nat.div_add_mod n base, hdiv, hmod]

theorem numeral_inj {m n : Nat} (h : numeral m = numeral n) : m = n :=
  toDigits_inj (by decide) (by decide) (String.ofList_inj.1 h)

/-! ## Cutting at a mark -/

/-- Where two texts are cut at the first mark, equal texts have equal parts. -/
theorem cut_inj {α : Type} {mark : α} {front other s t : List α} (hfront : mark ∉ front)
    (hother : mark ∉ other) (h : front ++ mark :: s = other ++ mark :: t) :
    front = other ∧ s = t := by
  induction front generalizing other with
  | nil =>
    cases other with
    | nil => exact ⟨rfl, (List.cons.inj h).2⟩
    | cons b other => exact absurd (List.cons.inj h).1 (List.ne_of_not_mem_cons hother)
  | cons a front ih =>
    cases other with
    | nil => exact absurd (List.cons.inj h).1.symm (List.ne_of_not_mem_cons hfront)
    | cons b other =>
      obtain ⟨rfl, htail⟩ := List.cons.inj h
      obtain ⟨rfl, hrest⟩ := ih (List.not_mem_of_not_mem_cons hfront)
        (List.not_mem_of_not_mem_cons hother) htail
      exact ⟨rfl, hrest⟩

/-! ## The forms of a quoted character -/

/-- The characters that are quoted by a letter, with their letters. -/
def letters : List (Char × Char) :=
  [('"', '"'), ('\\', '\\'), ('\t', 't'), ('\n', 'n'), ('\r', 'r'), ('\x00', '0')]

/-- The character is quoted by these characters. -/
inductive QuotedAs : Char → List Char → Prop where
  | itself {c : Char} (h : c ∉ ['"', '\\', '\n']) : QuotedAs c [c]
  | letter {c letter : Char} (h : (c, letter) ∈ letters) : QuotedAs c ['\\', letter]
  | code {c : Char} : QuotedAs c ('\\' :: 'u' :: '{' :: (Nat.toDigits 16 c.toNat ++ ['}']))

theorem quotedAs_quoteChar (c : Char) : QuotedAs c (quoteChar c) := by
  unfold quoteChar
  split
  · exact .letter (by decide)
  · exact .letter (by decide)
  · exact .letter (by decide)
  · exact .letter (by decide)
  · exact .letter (by decide)
  · exact .letter (by decide)
  · next hquote hbackslash _ hbreak _ _ =>
    split
    · exact .code
    · refine .itself ?_
      simp only [List.mem_cons, List.not_mem_nil, or_false, not_or]
      exact ⟨hquote, hbackslash, hbreak⟩

/-- A hexadecimal digit is neither a brace nor a line break. -/
theorem not_mem_toDigits {c : Char} (hc : ∀ digit < 16, c ≠ Nat.digitChar digit) (n : Nat) :
    c ∉ Nat.toDigits 16 n := by
  intro hmem
  obtain ⟨digit, hlt, heq⟩ := exists_digitChar_of_mem (by decide) hmem
  exact hc digit hlt heq

namespace QuotedAs

variable {c d : Char} {cs ds s t : List Char}

theorem lineBreak_not_mem (h : QuotedAs c cs) : '\n' ∉ cs := by
  cases h with
  | itself h =>
    rw [List.mem_singleton]
    rintro rfl
    exact h (by decide)
  | letter h =>
    have hletters : ∀ entry ∈ letters, '\n' ∉ ['\\', entry.2] := by decide
    exact hletters _ h
  | code => simp [not_mem_toDigits (show ∀ digit < 16, '\n' ≠ Nat.digitChar digit by decide)]

/-- A quoted text does not end where a character begins. -/
theorem head?_ne (h : QuotedAs c cs) (t : List Char) : (cs ++ t).head? ≠ some '"' := by
  cases h with
  | itself h =>
    rintro ⟨⟩
    exact h (by decide)
  | letter h => exact nofun
  | code => exact nofun

/-- A character that is quoted as itself is no backslash. -/
theorem itself_ne_backslash (h : c ∉ ['"', '\\', '\n']) : [c] ++ s ≠ '\\' :: t := by
  intro heq
  obtain rfl : c = '\\' := (List.cons.inj heq).1
  exact h (by decide)

/-- No letter begins a code point. -/
theorem letter_ne_code {letter : Char} (h : (c, letter) ∈ letters) :
    ['\\', letter] ++ s ≠ '\\' :: 'u' :: t := by
  intro heq
  have hletters : ∀ entry ∈ letters, entry.2 ≠ 'u' := by decide
  have hu : letter = 'u' := (List.cons.inj (List.cons.inj heq).2).1
  exact hletters _ h hu

/-- **One way to read**: what begins with the quoted forms of two characters begins with the same
    character, and the same is left behind it. -/
theorem inj (hc : QuotedAs c cs) (hd : QuotedAs d ds) (h : cs ++ s = ds ++ t) : c = d ∧ s = t := by
  cases hc with
  | itself hc =>
    cases hd with
    | itself hd => exact List.cons.inj h
    | letter hd => exact absurd h (itself_ne_backslash hc)
    | code => exact absurd h (itself_ne_backslash hc)
  | letter hc =>
    cases hd with
    | itself hd => exact absurd h.symm (itself_ne_backslash hd)
    | letter hd =>
      have hletters :
          ∀ entry ∈ letters, ∀ other ∈ letters, entry.2 = other.2 → entry.1 = other.1 := by decide
      obtain ⟨hletter, hrest⟩ := List.cons.inj (List.cons.inj h).2
      exact ⟨hletters _ hc _ hd hletter, hrest⟩
    | code => exact absurd h (letter_ne_code hc)
  | code =>
    cases hd with
    | itself hd => exact absurd h.symm (itself_ne_backslash hd)
    | letter hd => exact absurd h.symm (letter_ne_code hd)
    | code =>
      have hbrace := not_mem_toDigits (show ∀ digit < 16, '}' ≠ Nat.digitChar digit by decide)
      have htail : Nat.toDigits 16 c.toNat ++ '}' :: s = Nat.toDigits 16 d.toNat ++ '}' :: t := by
        simpa using h
      obtain ⟨hdigits, hrest⟩ := cut_inj (hbrace _) (hbrace _) htail
      have hcode : c.toNat = d.toNat := toDigits_inj (by decide) (Nat.le_refl 16) hdigits
      exact ⟨Char.toNat_inj.1 hcode, hrest⟩

end QuotedAs

/-! ## Quoted texts -/

/-- Between its quotes a text is read back character by character, up to the closing quote, with
    which no quoted character begins. -/
theorem flatMap_quoteChar_inj {cs ds : List Char}
    (h : cs.flatMap quoteChar ++ ['"'] = ds.flatMap quoteChar ++ ['"']) : cs = ds := by
  have hends : ∀ (c : Char) (later : List Char),
      ['"'] ≠ (c :: later).flatMap quoteChar ++ ['"'] := by
    intro c later heq
    rw [List.flatMap_cons, List.append_assoc] at heq
    exact (quotedAs_quoteChar c).head?_ne _ (congrArg List.head? heq).symm
  induction cs generalizing ds with
  | nil =>
    cases ds with
    | nil => rfl
    | cons d later => exact absurd h (hends d later)
  | cons c later ih =>
    cases ds with
    | nil => exact absurd h.symm (hends c later)
    | cons d others =>
      rw [List.flatMap_cons, List.flatMap_cons, List.append_assoc, List.append_assoc] at h
      obtain ⟨rfl, hlater⟩ := (quotedAs_quoteChar c).inj (quotedAs_quoteChar d) h
      rw [ih hlater]

/-- **Different texts are quoted differently.** -/
theorem quote_inj {source other : String} (h : quote source = quote other) : source = other := by
  have hchars := (List.cons.inj (String.ofList_inj.1 h)).2
  exact String.toList_inj.1 (flatMap_quoteChar_inj hchars)

/-- **A quoted text is one line**, whatever line breaks the text has. -/
theorem lineBreak_not_mem_quote (source : String) : '\n' ∉ (quote source).toList := by
  rw [quote, String.toList_ofList]
  intro hmem
  simp only [List.cons_append, List.mem_cons, List.mem_append, List.mem_flatMap,
    List.not_mem_nil, or_false] at hmem
  rcases hmem with h | ⟨c, -, hc⟩ | h
  · exact absurd h (by decide)
  · exact (quotedAs_quoteChar c).lineBreak_not_mem hc
  · exact absurd h (by decide)

/-- A numeral is on one line, too. -/
theorem lineBreak_not_mem_numeral (n : Nat) : '\n' ∉ (numeral n).toList := by
  rw [numeral, String.toList_ofList]
  intro hmem
  exact absurd (Nat.isDigit_of_mem_toDigits (by decide) (by decide) hmem) (by decide)

/-! ## Control characters -/

/-- A character that is acted on instead of being shown: a control character, or a separator of
    lines or of paragraphs.  Whatever breaks a line, somewhere, is one of these. -/
def IsControl (c : Char) : Prop :=
  c.toNat < 0x20 ∨ (0x7f ≤ c.toNat ∧ c.toNat < 0xa0) ∨ c.toNat = 0x2028 ∨ c.toNat = 0x2029

instance (c : Char) : Decidable (IsControl c) := inferInstanceAs (Decidable (_ ∨ _))

/-- The tables have each of them, in three ranges. -/
theorem isEscaped_of_isControl {c : Char} (h : IsControl c) : isEscaped c = true := by
  have hranges : ∀ r ∈ [(0x0, 0x1f), (0x7f, 0xa0), (0x2028, 0x202f)],
      r ∈ escapedRangesBasic ++ escapedRangesSupplementary := by decide +kernel
  rw [isEscaped_iff]
  rcases h with h | h | h | h
  · exact ⟨(0x0, 0x1f), hranges _ (by decide), by omega⟩
  · exact ⟨(0x7f, 0xa0), hranges _ (by decide), by omega⟩
  · exact ⟨(0x2028, 0x202f), hranges _ (by decide), by omega⟩
  · exact ⟨(0x2028, 0x202f), hranges _ (by decide), by omega⟩

theorem not_isControl_of_mem_letter {letter quoted : Char} (hletter : ¬IsControl letter)
    (h : quoted ∈ ['\\', letter]) : ¬IsControl quoted := by
  rcases List.mem_pair.1 h with rfl | rfl
  · decide
  · exact hletter

/-- Quoting leaves no control character. -/
theorem not_isControl_of_mem_quoteChar {c quoted : Char} (h : quoted ∈ quoteChar c) :
    ¬IsControl quoted := by
  have hdigits : ∀ digit < 16, ¬IsControl (Nat.digitChar digit) := by decide
  unfold quoteChar at h
  split at h
  · exact not_isControl_of_mem_letter (by decide) h
  · exact not_isControl_of_mem_letter (by decide) h
  · exact not_isControl_of_mem_letter (by decide) h
  · exact not_isControl_of_mem_letter (by decide) h
  · exact not_isControl_of_mem_letter (by decide) h
  · exact not_isControl_of_mem_letter (by decide) h
  · split at h
    · simp only [List.cons_append, List.nil_append, List.mem_cons, List.mem_append,
        List.not_mem_nil, or_false] at h
      rcases h with rfl | rfl | rfl | h | rfl
      · decide
      · decide
      · decide
      · obtain ⟨digit, hlt, rfl⟩ := exists_digitChar_of_mem (by decide) h
        exact hdigits digit hlt
      · decide
    · next hshown =>
      obtain rfl := List.mem_singleton.1 h
      exact fun hcontrol => hshown (isEscaped_of_isControl hcontrol)

/-- The text has no control character. -/
def IsShown (text : String) : Prop := ∀ c ∈ text.toList, ¬IsControl c

instance (text : String) : Decidable (IsShown text) :=
  List.decidableBAll (fun c => ¬IsControl c) text.toList

theorem IsShown.append {text other : String} (h : IsShown text) (hother : IsShown other) :
    IsShown (text ++ other) := by
  intro c hc
  rw [String.toList_append, List.mem_append] at hc
  exact hc.elim (h c) (hother c)

/-- **A quoted text shows all of the text**, whatever control characters it has. -/
theorem isShown_quote (source : String) : IsShown (quote source) := by
  intro c hc
  rw [quote, String.toList_ofList] at hc
  simp only [List.cons_append, List.mem_cons, List.mem_append, List.mem_flatMap,
    List.not_mem_nil, or_false] at hc
  rcases hc with rfl | ⟨_, -, hc⟩ | rfl
  · decide
  · exact not_isControl_of_mem_quoteChar hc
  · decide

theorem isShown_numeral (n : Nat) : IsShown (numeral n) := by
  have hdigits : ∀ digit < 10, ¬IsControl (Nat.digitChar digit) := by decide
  intro c hc
  rw [numeral, String.toList_ofList] at hc
  obtain ⟨digit, hlt, rfl⟩ := exists_digitChar_of_mem (by decide) hc
  exact hdigits digit hlt

end Transclusion.Text
