/-
  The tokens of two texts side by side.

  Where two texts meet, a token of the first may go on in the second: a text, a link whose two
  brackets are one on each side, or a run of braces.  Runs of braces decide what belongs together,
  so a joint through one changes everything behind it.  `Apart` rules that out, and then only the
  last token of the first text can grow, and only if it is ordinary text or a single bracket
  (`firstTokenKept`).

  Main statement, `Lexer.lex_append`: the tokens of the two texts are those of the first one, but
  for a last piece that is text, and then those of this piece and the second text together.  In
  front of a brace there is no such piece.

  All of this is about texts without `<`, which begins spans that end wherever their last tag is.
-/
import Transclusion.Proofs.Token.Lossless

namespace Transclusion

namespace Lexer

/-- A character that is text wherever it stands outside all braces. -/
def isTextual (c : Char) : Bool := c != '{' && c != '}' && c != '<'

/-- No run of braces goes across the joint of the two texts. -/
def Apart (front behind : List Char) : Prop :=
  ∀ c, front.getLast? = some c → behind.head? = some c → c ≠ '{' ∧ c ≠ '}'

theorem isTextual_of_not_isSpecial {c : Char} (h : isSpecial c = false) : isTextual c = true := by
  simp only [isSpecial, Bool.or_eq_false_iff] at h
  simp [isTextual, bne, h]

/-! ## The first token -/

/-- A run that does not go across the joint is as long as it is in the front text. -/
theorem runLength_append {c : Char} {cs behind : List Char}
    (h : (c :: cs).getLast? = some c → behind.head? ≠ some c) :
    runLength c (cs ++ behind) = runLength c cs := by
  induction cs with
  | nil => exact runLength_eq_zero (h rfl)
  | cons d cs ih =>
    by_cases hd : d = c
    · subst hd
      have hlast : (d :: d :: cs).getLast? = (d :: cs).getLast? := List.getLast?_cons_cons
      rw [hlast] at h
      have hcs := ih h
      simp only [runLength] at hcs
      simp [runLength, hcs]
    · rw [List.cons_append, runLength_eq_zero (by simpa using hd),
        runLength_eq_zero (by simpa using hd)]

theorem runLength_le_length (c : Char) (cs : List Char) : runLength c cs ≤ cs.length :=
  (List.takeWhile_sublist _).length_le

/-- What the first token of `c :: cs` is when `behind` follows: the same, or a text that goes on. -/
def FirstTokenKept (c : Char) (cs behind : List Char) : Prop :=
  (firstToken c (cs ++ behind) = firstToken c cs ∧ (firstToken c cs).2 ≤ cs.length) ∨
    (firstToken c cs = (.text (String.ofList (c :: cs)), cs.length) ∧
      (∀ d ∈ c :: cs, isTextual d = true) ∧ ∃ d, behind.head? = some d ∧ isTextual d = true)

theorem firstTokenKept_brace {brace : Char} {run : Nat → Token}
    (hfirst : ∀ cs, firstToken brace cs =
      if runLength brace cs == 0 then (.text (String.ofList [brace]), 0)
      else (run (runLength brace cs + 1), runLength brace cs))
    {cs behind : List Char} (h : (brace :: cs).getLast? = some brace → behind.head? ≠ some brace) :
    FirstTokenKept brace cs behind := by
  refine .inl ⟨?_, ?_⟩
  · rw [hfirst, hfirst, runLength_append h]
  · rw [hfirst]
    split
    · exact Nat.zero_le _
    · exact runLength_le_length brace cs

/-- A bracket at the end of the front text makes a link with one that begins the text behind. -/
theorem firstTokenKept_bracket {bracket : Char} {link : Token} (htextual : isTextual bracket = true)
    (hfirst : ∀ cs, firstToken bracket cs =
      if cs.head? == some bracket then (link, 1) else (.text (String.ofList [bracket]), 0))
    (cs behind : List Char) : FirstTokenKept bracket cs behind := by
  cases cs with
  | nil =>
    by_cases hhead : behind.head? = some bracket
    · refine .inr ⟨hfirst [], ?_, bracket, hhead, htextual⟩
      intro d hd
      rwa [List.mem_singleton.1 hd]
    · refine .inl ⟨?_, Nat.le_of_eq (congrArg Prod.snd (hfirst []))⟩
      rw [hfirst, hfirst, List.nil_append, if_neg (by simpa using hhead)]
      rfl
  | cons d cs =>
    refine .inl ⟨by rw [hfirst, hfirst]; rfl, ?_⟩
    rw [hfirst]
    split
    · exact Nat.succ_le_succ (Nat.zero_le _)
    · exact Nat.zero_le _

/-- Ordinary text goes on as far as there are ordinary characters. -/
theorem firstTokenKept_text {c : Char} (hc : isSpecial c = false) (cs behind : List Char) :
    FirstTokenKept c cs behind := by
  rw [FirstTokenKept, firstToken_of_not_isSpecial hc, firstToken_of_not_isSpecial hc,
    List.takeWhile_append]
  by_cases hall : (cs.takeWhile fun d => !isSpecial d).length = cs.length
  · have htaken : (cs.takeWhile fun d => !isSpecial d) = cs :=
      (List.takeWhile_prefix _).eq_of_length hall
    have hplain : ∀ d ∈ cs, isSpecial d = false := by
      have hkept : (cs.takeWhile fun d => !isSpecial d).all (fun d => !isSpecial d) = true :=
        List.all_takeWhile
      rw [htaken] at hkept
      intro d hd
      simpa using List.all_eq_true.1 hkept d hd
    rw [if_pos hall, htaken]
    cases hhead : behind.takeWhile fun d => !isSpecial d with
    | nil =>
      rw [List.append_nil]
      exact .inl ⟨rfl, Nat.le_refl _⟩
    | cons d more =>
      have hd : behind.head? = some d ∧ isSpecial d = false := by
        cases behind with
        | nil => simp at hhead
        | cons e behind =>
          rw [List.takeWhile_cons] at hhead
          split at hhead
          · next hplainHead =>
            obtain ⟨rfl, -⟩ := List.cons.inj hhead
            exact ⟨rfl, by simpa using hplainHead⟩
          · exact absurd hhead nofun
      refine .inr ⟨rfl, ?_, d, hd.1, isTextual_of_not_isSpecial hd.2⟩
      intro e he
      rcases List.mem_cons.1 he with rfl | he
      · exact isTextual_of_not_isSpecial hc
      · exact isTextual_of_not_isSpecial (hplain e he)
  · rw [if_neg hall]
    exact .inl ⟨rfl, (List.takeWhile_sublist _).length_le⟩

/-- **The first token in front of a joint** is that of the front text alone, unless the front text is
    one token of textual characters and the text behind begins with such a character as well. -/
theorem firstTokenKept {c : Char} {cs behind : List Char} (hc : c ≠ '<')
    (h : Apart (c :: cs) behind) : FirstTokenKept c cs behind := by
  by_cases hopen : c = '{'
  · subst hopen
    apply firstTokenKept_brace (fun _ => rfl)
    intro hlast hhead
    exact (h _ hlast hhead).1 rfl
  by_cases hclose : c = '}'
  · subst hclose
    apply firstTokenKept_brace (fun _ => rfl)
    intro hlast hhead
    exact (h _ hlast hhead).2 rfl
  by_cases hlinkOpen : c = '['
  · subst hlinkOpen
    exact firstTokenKept_bracket rfl (fun _ => rfl) cs behind
  by_cases hlinkClose : c = ']'
  · subst hlinkClose
    exact firstTokenKept_bracket rfl (fun _ => rfl) cs behind
  by_cases hspecial : isSpecial c = true
  · -- a bar or a colon stands alone
    have halone : ∀ cs, firstToken c cs = (.text (String.ofList [c]), 0) := by
      intro cs
      simp [firstToken, hopen, hclose, hlinkOpen, hlinkClose, hc, hspecial]
    refine .inl ⟨by rw [halone, halone], ?_⟩
    rw [halone]
    exact Nat.zero_le _
  · exact firstTokenKept_text (by simpa using hspecial) cs behind

/-! ## All tokens -/

theorem Apart.drop {front behind : List Char} (h : Apart front behind) (n : Nat) :
    Apart (front.drop n) behind := by
  intro c hlast hhead
  rw [List.getLast?_drop] at hlast
  split at hlast
  · exact absurd hlast nofun
  · exact h c hlast hhead

/-- **The tokens of two texts side by side**, no run of braces going across the joint. -/
theorem lex_append {front behind : List Char} (htags : '<' ∉ front) (h : Apart front behind) :
    ∃ tokens piece, .endOfText ∉ tokens ∧ lex (front ++ behind) = tokens ++ lex (piece ++ behind) ∧
      (piece = [] ∧ lex front = tokens ++ [.endOfText] ∨
        lex front = tokens ++ [.text (String.ofList piece), .endOfText] ∧
          (∀ c ∈ piece, isTextual c = true) ∧ ∃ c, behind.head? = some c ∧ isTextual c = true) := by
  induction hlength : front.length using Nat.strongRecOn generalizing front with
  | _ length ih =>
    cases front with
    | nil => exact ⟨[], [], List.not_mem_nil, rfl, .inl ⟨rfl, rfl⟩⟩
    | cons c cs =>
      have hc : c ≠ '<' := fun heq => htags (heq ▸ List.mem_cons_self)
      rcases firstTokenKept hc h with ⟨hsame, hle⟩ | ⟨hfirst, htextual, hhead⟩
      · -- the first token is behind, and the joint is that of the rest
        have hshorter : (cs.drop (firstToken c cs).2).length < length := by
          rw [← hlength, List.length_drop, List.length_cons]
          omega
        have hrest : '<' ∉ cs.drop (firstToken c cs).2 := fun hmem =>
          htags (List.mem_cons_of_mem _ (List.mem_of_mem_drop hmem))
        obtain ⟨tokens, piece, hend, happend, hfront⟩ :=
          ih _ hshorter hrest (h.drop ((firstToken c cs).2 + 1)) rfl
        refine ⟨(firstToken c cs).1 :: tokens, piece, ?_, ?_, ?_⟩
        · rw [List.mem_cons, not_or]
          exact ⟨(begins_firstToken c cs).ne_endOfText.symm, hend⟩
        · rw [List.cons_append, lex_cons, hsame, List.drop_append_of_le_length hle, happend,
            List.cons_append]
        · rw [lex_cons]
          exact hfront.imp (fun hfront => ⟨hfront.1, congrArg _ hfront.2⟩)
            fun hfront => ⟨congrArg _ hfront.1, hfront.2⟩
      · refine ⟨[], c :: cs, List.not_mem_nil, rfl, .inr ⟨?_, htextual, hhead⟩⟩
        rw [lex_cons, hfirst, List.drop_length]
        rfl

end Lexer

end Transclusion
