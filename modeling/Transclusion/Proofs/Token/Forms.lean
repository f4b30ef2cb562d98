/-
  At every character some form of tokens matches.

  The forms are tried in their order, so what begins a text is found by going through all of them.
  `firstToken` says at once which one it is: it looks at the first character, which leaves few of
  the forms in question.  `tokenAt?_cons` is that this is the first form that matches, and so that
  one always does.

  Main statements: every text is a document (`exists_document`), and its tokens are its first one
  and those of what that one leaves (`lex_cons`).
-/
import Transclusion.Token.Lexer
import Transclusion.Proofs.Token.Tags

namespace Transclusion

/-! ## Spans -/

/-- Coming through tags takes no less than was passed already. -/
theorem le_of_lengthThrough {tags : List Tag} {passed length : Nat} {cs : List Char}
    (h : lengthThrough tags passed cs = some length) : passed ≤ length := by
  induction tags generalizing passed cs with
  | nil => exact Nat.le_of_eq (Option.some.inj h)
  | cons tag later ih =>
    rw [lengthThrough] at h
    split at h
    · exact absurd h nofun
    · have := ih h
      omega

/-- A span is no shorter than the tag that opens it. -/
theorem le_of_spanLength? {tags : List Tag} {cs : List Char} {length : Nat}
    (h : spanLength? tags cs = some length) : (tags.headD []).length ≤ length := by
  cases tags with
  | nil => exact absurd h nofun
  | cons opening later =>
    simp only [spanLength?] at h
    split at h
    · exact le_of_lengthThrough h
    · exact absurd h nofun

/-- Every kind of span opens with a tag. -/
theorem headD_tags_pos : ∀ rule ∈ spanRules, 0 < (rule.tags.headD []).length := by decide

/-- A span takes at least one character. -/
theorem pos_of_spanAt? {cs : List Char} {kind : SpanKind} {length : Nat}
    (h : spanAt? cs = some (kind, length)) : 0 < length := by
  obtain ⟨rule, hmem, hrule⟩ := List.exists_of_findSome?_eq_some h
  obtain ⟨found, hfound, heq⟩ := Option.map_eq_some_iff.1 hrule
  obtain rfl : found = length := congrArg Prod.snd heq
  exact Nat.lt_of_lt_of_le (headD_tags_pos rule hmem) (le_of_spanLength? hfound)

/-- Every kind of span opens with a `<`. -/
theorem head?_headD_tags : ∀ rule ∈ spanRules, (rule.tags.headD []).head? = some '<' := by decide

/-- A span begins with a `<`, which is the lower case of no other character. -/
theorem spanAt?_of_ne {c : Char} (hc : c ≠ '<') (cs : List Char) : spanAt? (c :: cs) = none := by
  rw [spanAt?, List.findSome?_eq_none_iff]
  intro rule hmem
  obtain ⟨kind, tags⟩ := rule
  have hopening := head?_headD_tags _ hmem
  cases tags with
  | nil => rfl
  | cons opening later =>
    obtain ⟨more, rfl⟩ := List.head?_eq_some_iff.1 hopening
    have hstands : Tag.standsAt ('<' :: more) (c :: cs) = false := by
      rw [Tag.standsAt, Bool.and_eq_false_iff]
      exact .inl (beq_false_of_ne fun heq => hc (Tag.eq_of_toLower_eq (by decide) heq.symm))
    simp [spanLength?, hstands]

namespace Lexer

/-! ## The first form that matches -/

/-- The token that begins `c :: cs`, and how many characters of `cs` it takes.  A brace or bracket
    that stands alone is text, as is a `<` at which no span begins. -/
def firstToken (c : Char) (cs : List Char) : Token × Nat :=
  let alone : Token × Nat := (.text (String.ofList [c]), 0)
  if c == '{' then
    let more := runLength '{' cs
    if more == 0 then alone else (.openRun (more + 1), more)
  else if c == '}' then
    let more := runLength '}' cs
    if more == 0 then alone else (.closeRun (more + 1), more)
  else if c == '[' then
    if cs.head? == some '[' then (.linkOpen, 1) else alone
  else if c == ']' then
    if cs.head? == some ']' then (.linkClose, 1) else alone
  else if c == '<' then
    match spanAt? (c :: cs) with
    | some (kind, length) => (kind.token (String.ofList ((c :: cs).take length)), length - 1)
    | none => alone
  else if isSpecial c then alone
  else
    let rest := cs.takeWhile fun d => !isSpecial d
    (.text (String.ofList (c :: rest)), rest.length)

/-! ## Each form, by the first character -/

variable {c : Char}

theorem braceRun_self (run : Nat → Token) (cs : List Char) :
    braceRun c run (c :: cs) =
      if runLength c cs = 0 then none else some (run (runLength c cs + 1), runLength c cs + 1) := by
  have hlength : runLength c (c :: cs) = runLength c cs + 1 := by simp [runLength]
  simp only [braceRun, hlength]
  by_cases halone : runLength c cs = 0
  · rw [if_pos halone, if_neg (by omega)]
  · rw [if_neg halone, if_pos (by omega)]

theorem braceRun_of_ne {brace : Char} (h : c ≠ brace) (run : Nat → Token) (cs : List Char) :
    braceRun brace run (c :: cs) = none := by
  have hlength : runLength brace (c :: cs) = 0 := by simp [runLength, h]
  simp [braceRun, hlength]

theorem bracketPair_self (link : Token) (cs : List Char) :
    bracketPair c link (c :: cs) = if cs.head? = some c then some (link, 2) else none := by
  cases cs with
  | nil => simp [bracketPair]
  | cons d cs =>
    by_cases h : d = c
    · subst h
      simp [bracketPair]
    · simp [bracketPair, h, Ne.symm h]

theorem bracketPair_of_ne {bracket : Char} (h : c ≠ bracket) (link : Token) (cs : List Char) :
    bracketPair bracket link (c :: cs) = none := by
  simp [bracketPair, h.symm]

theorem span_of_ne (h : c ≠ '<') (cs : List Char) : span (c :: cs) = none := by
  rw [span, spanAt?_of_ne h, Option.map_none]

theorem special_of_isSpecial (h : isSpecial c = true) (cs : List Char) :
    special (c :: cs) = some (.text (String.ofList [c]), 1) := by
  rw [special, if_pos h]

theorem special_of_not_isSpecial (h : isSpecial c = false) (cs : List Char) :
    special (c :: cs) = none := by
  rw [special, h]
  rfl

theorem word_of_not_isSpecial (h : isSpecial c = false) (cs : List Char) :
    word (c :: cs) = some (.text (String.ofList (c :: cs.takeWhile fun d => !isSpecial d)),
      (cs.takeWhile fun d => !isSpecial d).length + 1) := by
  simp [word, h]

/-- An ordinary character takes all those behind it. -/
theorem firstToken_of_not_isSpecial (h : isSpecial c = false) (cs : List Char) :
    firstToken c cs = (.text (String.ofList (c :: cs.takeWhile fun d => !isSpecial d)),
      (cs.takeWhile fun d => !isSpecial d).length) := by
  have halone := h
  simp only [isSpecial, Bool.or_eq_false_iff] at halone
  simp [firstToken, h, halone]

/-- At a special character its own form comes first, and if that does not match, the form of a single
    character. -/
theorem tokenAt?_of_isSpecial (h : isSpecial c = true) (cs : List Char) :
    tokenAt? (c :: cs) = some ((firstToken c cs).1, (firstToken c cs).2 + 1) := by
  simp only [tokenAt?, forms, List.findSome?_cons]
  rw [special_of_isSpecial h]
  by_cases hopen : c = '{'
  · subst hopen
    rw [braceRun_self, braceRun_of_ne (by decide), bracketPair_of_ne (by decide),
      bracketPair_of_ne (by decide), span_of_ne (by decide)]
    by_cases halone : runLength '{' cs = 0
    · simp [firstToken, halone]
    · simp [firstToken, halone]
  rw [braceRun_of_ne hopen]
  by_cases hclose : c = '}'
  · subst hclose
    rw [braceRun_self, bracketPair_of_ne (by decide), bracketPair_of_ne (by decide),
      span_of_ne (by decide)]
    by_cases halone : runLength '}' cs = 0
    · simp [firstToken, halone]
    · simp [firstToken, halone]
  rw [braceRun_of_ne hclose]
  by_cases hlinkOpen : c = '['
  · subst hlinkOpen
    rw [bracketPair_self, bracketPair_of_ne (by decide), span_of_ne (by decide)]
    by_cases hpair : cs.head? = some '['
    · simp [firstToken, hpair]
    · simp [firstToken, hpair]
  rw [bracketPair_of_ne hlinkOpen]
  by_cases hlinkClose : c = ']'
  · subst hlinkClose
    rw [bracketPair_self, span_of_ne (by decide)]
    by_cases hpair : cs.head? = some ']'
    · simp [firstToken, hpair]
    · simp [firstToken, hpair]
  rw [bracketPair_of_ne hlinkClose]
  by_cases htag : c = '<'
  · subst htag
    cases hspan : spanAt? ('<' :: cs) with
    | none => simp [span, firstToken, hspan]
    | some found =>
      obtain ⟨kind, length⟩ := found
      obtain ⟨more, rfl⟩ := Nat.exists_eq_add_of_lt (pos_of_spanAt? hspan)
      simp [span, firstToken, hspan]
  · -- a bar or a colon has no other form
    simp [span_of_ne htag, firstToken, hopen, hclose, hlinkOpen, hlinkClose, htag, h]

/-- An ordinary character begins a word, which is the last form. -/
theorem tokenAt?_of_not_isSpecial (h : isSpecial c = false) (cs : List Char) :
    tokenAt? (c :: cs) = some ((firstToken c cs).1, (firstToken c cs).2 + 1) := by
  have hne : ∀ mark, isSpecial mark = true → c ≠ mark := by
    rintro mark hmark rfl
    exact Bool.false_ne_true (h.symm.trans hmark)
  simp only [tokenAt?, forms, List.findSome?_cons]
  rw [braceRun_of_ne (hne _ (by decide)), braceRun_of_ne (hne _ (by decide)),
    bracketPair_of_ne (hne _ (by decide)), bracketPair_of_ne (hne _ (by decide)),
    span_of_ne (hne _ (by decide)), special_of_not_isSpecial h, word_of_not_isSpecial h,
    firstToken_of_not_isSpecial h]

/-- **One form always matches**, and it is the one of the first token. -/
theorem tokenAt?_cons (c : Char) (cs : List Char) :
    tokenAt? (c :: cs) = some ((firstToken c cs).1, (firstToken c cs).2 + 1) := by
  cases hspecial : isSpecial c with
  | true => exact tokenAt?_of_isSpecial hspecial cs
  | false => exact tokenAt?_of_not_isSpecial hspecial cs

/-! ## Documents -/

theorem isEmpty_text (cs : List Char) : (Token.text (String.ofList (c :: cs))).isEmpty = false := by
  simp [Token.isEmpty]

/-- The first token stands for something. -/
theorem isEmpty_firstToken (c : Char) (cs : List Char) : (firstToken c cs).1.isEmpty = false := by
  simp only [firstToken]
  split
  · split
    · exact isEmpty_text []
    · rfl
  split
  · split
    · exact isEmpty_text []
    · rfl
  split
  · split
    · rfl
    · exact isEmpty_text []
  split
  · split
    · rfl
    · exact isEmpty_text []
  split
  · split
    · next kind length hspan =>
      obtain ⟨more, rfl⟩ := Nat.exists_eq_add_of_lt (pos_of_spanAt? hspan)
      cases kind with
      | dropped => exact isEmpty_text (cs.take (0 + more))
      | verbatim => exact isEmpty_text (cs.take (0 + more))
    · exact isEmpty_text []
  split
  · exact isEmpty_text []
  · exact isEmpty_text _

/-- What was found before stays in front. -/
theorem tokensOnto?_eq (done : List Token) (skip : Nat) (cs : List Char) :
    tokensOnto? done skip cs =
      (document? (cs.drop skip)).map fun tokens => done.reverse ++ tokens := by
  induction cs generalizing done skip with
  | nil => simp [document?, tokensOnto?]
  | cons c cs ih =>
    cases skip with
    | succ skip =>
      rw [tokensOnto?, List.drop_succ_cons]
      exact ih done skip
    | zero =>
      rw [List.drop_zero, document?, tokensOnto?, tokensOnto?, tokenAt?_cons]
      simp only
      rw [ih, ih [_], Option.map_map]
      simp [Function.comp_def]

/-- The tokens of a document: its first one, and those of what that one leaves. -/
theorem document?_cons (c : Char) (cs : List Char) :
    document? (c :: cs) = (document? (cs.drop (firstToken c cs).2)).map fun tokens =>
      (firstToken c cs).1 :: tokens := by
  rw [document?, tokensOnto?, tokenAt?_cons]
  exact tokensOnto?_eq [_] _ cs

/-- **Every text is a document**, and no token of it is empty. -/
theorem exists_document (cs : List Char) :
    ∃ tokens, document? cs = some tokens ∧ ∀ token ∈ tokens, token.isEmpty = false := by
  induction hlength : cs.length using Nat.strongRecOn generalizing cs with
  | _ length ih =>
    cases cs with
    | nil => exact ⟨[], rfl, List.forall_mem_nil _⟩
    | cons c cs =>
      obtain ⟨later, hlater, hsolid⟩ := ih (cs.drop (firstToken c cs).2).length
        (by rw [← hlength, List.length_drop, List.length_cons]; omega) _ rfl
      refine ⟨(firstToken c cs).1 :: later, ?_,
        List.forall_mem_cons.2 ⟨isEmpty_firstToken c cs, hsolid⟩⟩
      rw [document?_cons, hlater, Option.map_some]

/-- The tokens of a text are those of a document and an end. -/
theorem lex_of_document? {cs : List Char} {tokens : List Token} (h : document? cs = some tokens) :
    lex cs = tokens ++ [.endOfText] := by
  obtain ⟨others, hothers, hsolid⟩ := exists_document cs
  obtain rfl : tokens = others := Option.some.inj (h.symm.trans hothers)
  have hkept : tokens.filter (fun token => !token.isEmpty) = tokens :=
    List.filter_eq_self.2 fun token htoken => by rw [hsolid token htoken]; rfl
  rw [lex, h, Option.getD_some, hkept]

@[simp] theorem lex_nil : lex [] = [.endOfText] := rfl

/-- The tokens of a text: its first one, and those of what that one leaves. -/
theorem lex_cons (c : Char) (cs : List Char) :
    lex (c :: cs) = (firstToken c cs).1 :: lex (cs.drop (firstToken c cs).2) := by
  obtain ⟨later, hlater, -⟩ := exists_document (cs.drop (firstToken c cs).2)
  have hall : document? (c :: cs) = some ((firstToken c cs).1 :: later) := by
    rw [document?_cons, hlater, Option.map_some]
  rw [lex_of_document? hall, lex_of_document? hlater, List.cons_append]

end Lexer

end Transclusion
