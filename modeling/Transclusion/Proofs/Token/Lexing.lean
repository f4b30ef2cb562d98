/-
  How a text begins, and what its first token is then.

  The tokens of a text are its first one and those of what that one leaves (`lex_cons`).  So each
  kind of beginning has its own lemma (a run of braces, a bar, a stretch of ordinary characters),
  and each of these says what must not follow, since a run takes all braces there are and a text all
  ordinary characters.

  A text without `<` marks no spans, so its tokens are those of all of it.
-/
import Transclusion.Proofs.Token.Forms

namespace Transclusion

namespace Lexer

/-! ## Runs of braces -/

theorem runLength_replicate_append (c : Char) (n : Nat) (cs : List Char) :
    runLength c (List.replicate n c ++ cs) = n + runLength c cs := by
  simp [runLength, List.takeWhile_append_of_pos]

theorem runLength_eq_zero {c : Char} {cs : List Char} (h : cs.head? ≠ some c) :
    runLength c cs = 0 := by
  cases cs with
  | nil => rfl
  | cons d cs =>
    have hne : (d == c) = false := by simpa using h
    simp [runLength, hne]

/-- A text begins with its run, and goes on with something else. -/
theorem eq_replicate_append (c : Char) (cs : List Char) :
    ∃ later, cs = List.replicate (runLength c cs) c ++ later ∧ later.head? ≠ some c := by
  refine ⟨cs.dropWhile (· == c), ?_, ?_⟩
  · have hrun : cs.takeWhile (· == c) = List.replicate (runLength c cs) c := by
      refine List.eq_replicate_iff.2 ⟨rfl, ?_⟩
      intro d hd
      have hall : (cs.takeWhile (· == c)).all (· == c) = true := List.all_takeWhile
      simpa using List.all_eq_true.1 hall d hd
    rw [← hrun, List.takeWhile_append_dropWhile]
  · intro hhead
    have := List.head?_dropWhile_not (· == c) cs
    rw [hhead] at this
    simp at this

/-- Two or more braces of one kind are one token, whichever kind it is. -/
theorem lex_run {brace : Char} {run : Nat → Token}
    (hfirst : ∀ cs, firstToken brace cs =
      if runLength brace cs == 0 then (.text (String.ofList [brace]), 0)
      else (run (runLength brace cs + 1), runLength brace cs))
    {n : Nat} (hn : 2 ≤ n) {cs : List Char} (h : cs.head? ≠ some brace) :
    lex (List.replicate n brace ++ cs) = run n :: lex cs := by
  match n, hn with
  | n + 2, _ =>
    have hlength : runLength brace (List.replicate (n + 1) brace ++ cs) = n + 1 := by
      rw [runLength_replicate_append, runLength_eq_zero h, Nat.add_zero]
    have htoken : firstToken brace (List.replicate (n + 1) brace ++ cs) = (run (n + 2), n + 1) := by
      rw [hfirst, hlength]
      rfl
    rw [List.replicate_succ, List.cons_append, lex_cons, htoken]
    simp

theorem lex_openRun {n : Nat} (hn : 2 ≤ n) {cs : List Char} (h : cs.head? ≠ some '{') :
    lex (List.replicate n '{' ++ cs) = .openRun n :: lex cs :=
  lex_run (fun _ => rfl) hn h

theorem lex_closeRun {n : Nat} (hn : 2 ≤ n) {cs : List Char} (h : cs.head? ≠ some '}') :
    lex (List.replicate n '}' ++ cs) = .closeRun n :: lex cs :=
  lex_run (fun _ => rfl) hn h

/-- A closing brace that stands alone is text. -/
theorem lex_close {cs : List Char} (h : cs.head? ≠ some '}') :
    lex ('}' :: cs) = .text (closeBraces 1) :: lex cs := by
  have hfirst : firstToken '}' cs = (.text (closeBraces 1), 0) := by
    simp [firstToken, runLength_eq_zero h, closeBraces]
  rw [lex_cons, hfirst]
  rfl

/-! ## Text -/

/-- A bar is a text of its own. -/
theorem lex_bar (cs : List Char) : lex ('|' :: cs) = .text "|" :: lex cs := by
  rw [lex_cons]
  rfl

/-- A colon is a text of its own. -/
theorem lex_colon (cs : List Char) : lex (':' :: cs) = .text ":" :: lex cs := by
  rw [lex_cons]
  rfl

/-- Characters that are not special are one text, up to the next special one. -/
theorem lex_text {word cs : List Char} (hne : word ≠ []) (hword : ∀ c ∈ word, isSpecial c = false)
    (h : ∀ c, cs.head? = some c → isSpecial c = true) :
    lex (word ++ cs) = .text (String.ofList word) :: lex cs := by
  obtain ⟨c, word, rfl⟩ := List.exists_cons_of_ne_nil hne
  have hc := hword c List.mem_cons_self
  have hstop : cs.takeWhile (fun d => !isSpecial d) = [] := by
    cases cs with
    | nil => rfl
    | cons d cs => simp [h d rfl]
  have hrest : (word ++ cs).takeWhile (fun d => !isSpecial d) = word := by
    rw [List.takeWhile_append_of_pos, hstop, List.append_nil]
    intro d hd
    simp [hword d (List.mem_cons_of_mem _ hd)]
  have hfirst : firstToken c (word ++ cs) = (.text (String.ofList (c :: word)), word.length) := by
    rw [firstToken_of_not_isSpecial hc, hrest]
  rw [List.cons_append, lex_cons, hfirst]
  simp

end Lexer

/-! ## Texts without tags -/

theorem OnlyInclude.keepTag_eq_cons : keepTag = '<' :: "onlyinclude>".toList := by decide

theorem OnlyInclude.occursIn_eq_false {cs : List Char} (h : '<' ∉ cs) :
    occursIn keepTag cs = false := by
  induction cs with
  | nil => rfl
  | cons c cs ih =>
    have hc : ('<' == c) = false := by
      have : '<' ≠ c := fun heq => h (heq ▸ List.mem_cons_self)
      simpa using this
    have hhere : keepTag.isPrefixOf (c :: cs) = false := by
      rw [keepTag_eq_cons, List.isPrefixOf, hc, Bool.false_and]
    rw [occursIn, hhere, Bool.false_or]
    exact ih fun hcs => h (List.mem_cons_of_mem _ hcs)

/-- Nothing is filtered out of a text without `<`. -/
theorem tokenize_eq_lex {cs : List Char} (h : '<' ∉ cs) :
    tokenize (String.ofList cs) = Lexer.lex cs := by
  unfold tokenize onlyInclude?
  rw [String.toList_ofList, OnlyInclude.occursIn_eq_false h]
  rfl

theorem tokenize_eq_lex_toList {text : String} (h : '<' ∉ text.toList) :
    tokenize text = Lexer.lex text.toList := by
  rw [← tokenize_eq_lex h, String.ofList_toList]

end Transclusion
