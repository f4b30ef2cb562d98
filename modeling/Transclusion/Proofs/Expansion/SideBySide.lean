/-
  The trees of two texts side by side.

  Where no run of braces goes across the joint of two texts and the first one leaves no level open,
  the tree of both together holds the children of the one and then those of the other.  Only a text
  may be cut differently at the joint: `a` and `b` are two texts where `ab` is one, and two brackets
  are a link where each of them was a text.

  No expansion shows where a text is cut.  `Node.Alike` relates two lists of nodes for which this is
  all the difference: in a row they come to the same, whatever their calls and placeholders come to.

  Main statements, `Braces.children_append_brace` for a joint in front of a brace, where the children
  are equal, and `Braces.children_append_alike` for any other one.
-/
import Transclusion.Proofs.Braces.Root
import Transclusion.Proofs.Expansion.Uncached
import Transclusion.Proofs.Token.Joints

namespace Transclusion

/-! ## Texts cut differently -/

namespace Expansion

/-- Expansions in a row depend on those of two parts of the row. -/
theorem join_append_congr {first first' second second' : List Expansion}
    (hfirst : join first = join first') (hsecond : join second = join second') :
    join (first ++ second) = join (first' ++ second') := by
  simp only [join, mk.injEq, List.map_append, List.flatMap_append, String.join_append] at *
  rw [hfirst.1, hfirst.2.1, hfirst.2.2, hsecond.1, hsecond.2.1, hsecond.2.2]
  exact ⟨rfl, rfl, rfl⟩

end Expansion

namespace Node

/-- The two lists of nodes come to the same in a row, whatever the nodes come to that are not texts:
    they differ in where their texts are cut. -/
def Alike (nodes others : List Node) : Prop :=
  ∀ evaluateNode : Node → Expansion, (∀ source, evaluateNode (.text source) = .ofText source) →
    Expansion.join (nodes.map evaluateNode) = .join (others.map evaluateNode)

namespace Alike

variable {nodes others third : List Node}

theorem refl (nodes : List Node) : Alike nodes nodes := fun _ _ => rfl

theorem symm (h : Alike nodes others) : Alike others nodes :=
  fun evaluateNode htext => (h evaluateNode htext).symm

theorem trans (h : Alike nodes others) (h' : Alike others third) : Alike nodes third :=
  fun evaluateNode htext => (h evaluateNode htext).trans (h' evaluateNode htext)

theorem append {behind behind' : List Node} (h : Alike nodes others) (h' : Alike behind behind') :
    Alike (nodes ++ behind) (others ++ behind') := by
  intro evaluateNode htext
  rw [List.map_append, List.map_append]
  exact Expansion.join_append_congr (h evaluateNode htext) (h' evaluateNode htext)

theorem cons (node : Node) (h : Alike nodes others) : Alike (node :: nodes) (node :: others) :=
  append (refl [node]) h

/-- A text can be cut in two. -/
theorem cut (first second : String) (later : List Node) :
    Alike (.text (first ++ second) :: later) (.text first :: .text second :: later) := by
  intro evaluateNode htext
  simp [htext, Expansion.join, Expansion.ofText, String.append_assoc]

/-- A text without characters can go. -/
theorem drop (later : List Node) : Alike (.text "" :: later) later := by
  intro evaluateNode htext
  simp [htext, Expansion.join, Expansion.ofText]

end Alike

end Node

/-! ## Textual characters in front of a text -/

namespace Braces

open Lexer Node

theorem children_text (source : String) (later : List Token) :
    children (.text source :: later) = .text source :: children later :=
  @children_cons (.text source) nofun nofun nofun nofun later

/-- Two equal brackets are one link, and a bracket alone is a text. -/
theorem children_bracket_alike {bracket : Char} {link : Token}
    (hfirst : ∀ cs, firstToken bracket cs =
      if cs.head? == some bracket then (link, 1) else (.text (String.ofList [bracket]), 0))
    (hlink : ∀ later, children (link :: later) =
      .text (String.ofList [bracket] ++ String.ofList [bracket]) :: children later)
    (cs : List Char) :
    Alike (children (lex (bracket :: cs)))
      (.text (String.ofList [bracket]) :: children (lex cs)) := by
  induction cs with
  | nil =>
    rw [lex_cons, hfirst, if_neg (by simp), children_text]
    exact .refl _
  | cons c cs ih =>
    by_cases hc : c = bracket
    · -- behind the link the text goes on as it does behind the second bracket
      subst hc
      have hcut := Alike.cut (String.ofList [c]) (String.ofList [c]) (children (lex cs))
      rw [lex_cons, hfirst, if_pos (by simp), List.drop_one, List.tail_cons, hlink]
      exact hcut.trans (ih.symm.cons _)
    · rw [lex_cons, hfirst, if_neg (by simpa using hc), children_text]
      exact .refl _

/-- Ordinary text can be cut behind its first character. -/
theorem children_plain_alike {c : Char} (hc : isSpecial c = false) (cs : List Char) :
    Alike (children (lex (c :: cs))) (.text (String.ofList [c]) :: children (lex cs)) := by
  rw [lex_cons, firstToken_of_not_isSpecial hc, children_text]
  cases cs with
  | nil => exact .refl _
  | cons d cs =>
    by_cases hd : isSpecial d = true
    · simp only [List.takeWhile_cons, hd]
      exact .refl _
    · -- both are cut where the ordinary characters end
      have hplain : isSpecial d = false := by simpa using hd
      have hcut := Alike.cut (String.ofList [c])
        (String.ofList (d :: cs.takeWhile fun e => !isSpecial e))
        (children (lex (cs.drop (cs.takeWhile fun e => !isSpecial e).length)))
      rw [← String.ofList_append] at hcut
      rw [lex_cons d cs, firstToken_of_not_isSpecial hplain, children_text]
      rw [List.takeWhile_cons_of_pos (by simp [hplain])]
      exact hcut

/-- **A textual character in front of a text** is a text of its own. -/
theorem children_cons_alike {c : Char} (hc : isTextual c = true) (cs : List Char) :
    Alike (children (lex (c :: cs))) (.text (String.ofList [c]) :: children (lex cs)) := by
  by_cases hlinkOpen : c = '['
  · subst hlinkOpen
    exact children_bracket_alike (fun _ => rfl)
      (fun later => @children_cons .linkOpen nofun nofun nofun nofun later) cs
  by_cases hlinkClose : c = ']'
  · subst hlinkClose
    exact children_bracket_alike (fun _ => rfl)
      (fun later => @children_cons .linkClose nofun nofun nofun nofun later) cs
  by_cases hspecial : isSpecial c = true
  · -- a bar or a colon stands alone
    have hseparator : c = '|' ∨ c = ':' := by
      simp [isTextual] at hc
      simpa [isSpecial, hlinkOpen, hlinkClose, hc] using hspecial
    have halone : firstToken c cs = (.text (String.ofList [c]), 0) := by
      rcases hseparator with rfl | rfl
      · rfl
      · rfl
    rw [lex_cons, halone, children_text]
    exact .refl _
  · exact children_plain_alike (by simpa using hspecial) cs

/-- Textual characters in front of a text are a text of their own. -/
theorem children_append_text_alike {piece : List Char} (hpiece : ∀ c ∈ piece, isTextual c = true)
    (behind : List Char) :
    Alike (children (lex (piece ++ behind)))
      (.text (String.ofList piece) :: children (lex behind)) := by
  induction piece with
  | nil => exact (Alike.drop _).symm
  | cons c piece ih =>
    have hcut := Alike.cut (String.ofList [c]) (String.ofList piece) (children (lex behind))
    rw [← String.ofList_append] at hcut
    have hrest := (ih fun d hd => hpiece d (List.mem_cons_of_mem _ hd)).cons
      (.text (String.ofList [c]))
    exact ((children_cons_alike (hpiece c List.mem_cons_self) _).trans hrest).trans hcut.symm

/-! ## The joint -/

/-- The end of the text adds no child. -/
theorem children_append_endOfText (tokens : List Token) :
    children (tokens ++ [.endOfText]) = children tokens := by
  rw [children, children, Stack.run_append_endOfText]

theorem closed_append_endOfText (tokens : List Token) :
    Closed (tokens ++ [.endOfText]) ↔ Closed tokens := by
  rw [Closed, Closed, Stack.run_append_endOfText]

/-- A text at the end opens no level and ends none. -/
theorem closed_append_text {tokens : List Token} (hend : .endOfText ∉ tokens) (source : String) :
    Closed (tokens ++ [.text source]) ↔ Closed tokens := by
  have hrun : Stack.empty.run (tokens ++ [.text source]) =
      (Stack.empty.run tokens).add [.text source] := by
    rw [Stack.run_append hend, Stack.run_cons (.text source) nofun]
    rfl
  rw [Closed, Closed, hrun, ← List.length_eq_zero_iff, Stack.length_levels_add,
    List.length_eq_zero_iff]

/-- What two texts come to side by side: the children of the first one, but for a last piece of text,
    and then those of this piece and the second text together. -/
theorem exists_children_append {front behind : List Char} (htags : '<' ∉ front)
    (hapart : Apart front behind) (hclosed : Closed (lex front)) :
    ∃ nodes piece, children (lex (front ++ behind)) = nodes ++ children (lex (piece ++ behind)) ∧
      (piece = [] ∧ children (lex front) = nodes ∨
        children (lex front) = nodes ++ [.text (String.ofList piece)] ∧
          (∀ c ∈ piece, isTextual c = true) ∧ ∃ c, behind.head? = some c ∧ isTextual c = true) := by
  obtain ⟨tokens, piece, hend, happend, hfront⟩ := lex_append htags hapart
  rcases hfront with ⟨rfl, hfront⟩ | ⟨hfront, htextual⟩
  · rw [hfront, closed_append_endOfText] at hclosed
    rw [happend, hfront, children_append_endOfText]
    exact ⟨children tokens, [], children_append hend hclosed _, .inl ⟨rfl, rfl⟩⟩
  · have hsplit : lex front = (tokens ++ [.text (String.ofList piece)]) ++ [.endOfText] := by
      rw [hfront, List.append_assoc]
      rfl
    rw [hsplit, closed_append_endOfText, closed_append_text hend] at hclosed
    rw [happend, hsplit, children_append_endOfText]
    refine ⟨children tokens, piece, children_append hend hclosed _, .inr ⟨?_, htextual⟩⟩
    rw [children_append hend hclosed, children_text]
    rfl

/-- **In front of a brace** the children are those of the two texts alone. -/
theorem children_append_brace {front behind : List Char} (htags : '<' ∉ front)
    (hapart : Apart front behind) (hclosed : Closed (lex front))
    (hbrace : ∀ c, behind.head? = some c → isTextual c = false) :
    children (lex (front ++ behind)) = children (lex front) ++ children (lex behind) := by
  obtain ⟨nodes, piece, happend, ⟨rfl, hfront⟩ | ⟨-, -, c, hhead, htextual⟩⟩ :=
    exists_children_append htags hapart hclosed
  · rw [happend, hfront, List.nil_append]
  · rw [hbrace c hhead] at htextual
    exact absurd htextual nofun

/-- **At any joint** the children are those of the two texts alone, but for where texts are cut. -/
theorem children_append_alike {front behind : List Char} (htags : '<' ∉ front)
    (hapart : Apart front behind) (hclosed : Closed (lex front)) :
    Alike (children (lex (front ++ behind))) (children (lex front) ++ children (lex behind)) := by
  obtain ⟨nodes, piece, happend, ⟨rfl, hfront⟩ | ⟨hfront, htextual, -⟩⟩ :=
    exists_children_append htags hapart hclosed
  · rw [happend, hfront]
    exact .refl _
  · rw [happend, hfront, List.append_assoc]
    exact (Alike.refl nodes).append (children_append_text_alike htextual behind)

end Braces

end Transclusion
