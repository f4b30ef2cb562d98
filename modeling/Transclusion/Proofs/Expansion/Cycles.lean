/-
  Pages that call each other in a ring.

  Each page of a ring calls the one behind it, and the last page calls the first one.  So only a
  limit ends the expansion of a call, and where there is room enough it is the limit of open bodies.

  The crux is `Ring.evaluate_opened`: with `count` more bodies allowed, a call comes to the texts in
  front of the next `count` calls, to one problem, and to the texts behind these calls in the
  opposite order.  A body without text around its call is no node of its own, so the call is made
  with one node less open than in a body with text; the room that is asked for does for both.

  The calls go round the ring, so `d` of them are calls by as many names as there are pages, or by
  `d` names where that is less (`Ring.card_names`).

  Main statement, `Expander.expand_ring`.
-/
import Transclusion.Proofs.Cache.History
import Transclusion.Proofs.Expansion.Inclusion

namespace Transclusion

/-! ## Rings of pages -/

/-- A ring of pages: each calls the one behind it, with a text in front of the call and a text
    behind it. -/
structure Ring where
  size : Nat
  name : Nat → String
  front : Nat → String
  behind : Nat → String
  size_pos : 0 < size
  /-- A name is not empty and has no character of markup. -/
  name_ordinary : ∀ i < size, Node.IsOrdinary (name i)
  name_trimmed : ∀ i < size, Text.trim (name i) = name i
  name_injective : ∀ i < size, ∀ j < size, name i = name j → i = j
  front_plain : ∀ i < size, ∀ c ∈ (front i).toList, c ∉ Node.markupChars
  behind_plain : ∀ i < size, ∀ c ∈ (behind i).toList, c ∉ Node.markupChars
  /-- No page begins like a line of a list. -/
  front_start : ∀ i < size, (front i).toList.head? ≠ some ';'

namespace Ring

variable (ring : Ring)

/-- The text of a page. -/
def body (i : Nat) : String :=
  ring.front i ++ "\x7b\x7b" ++ ring.name ((i + 1) % ring.size) ++ "\x7d\x7d" ++ ring.behind i

/-- The source has every page of the ring. -/
def IsIn (source : Source) : Prop :=
  ∀ i < ring.size, source.template (ring.name i) = some (ring.body i)

/-- The texts in front of the calls of `count` pages, from a page on. -/
def fronts (first count : Nat) : String :=
  String.join ((List.range' first count).map fun i => ring.front (i % ring.size))

/-- The texts behind the calls of `count` pages, from a page on, the last one first. -/
def behinds (first count : Nat) : String :=
  String.join ((List.range' first count).reverse.map fun i => ring.behind (i % ring.size))

/-- The names of `count` pages, from a page on. -/
def names (first count : Nat) : List String :=
  (List.range' first count).map fun i => ring.name (i % ring.size)

theorem fronts_succ (first count : Nat) :
    ring.fronts first (count + 1) =
      ring.front (first % ring.size) ++ ring.fronts (first + 1) count := by
  rw [fronts, List.range'_succ, List.map_cons, String.join_cons]
  rfl

theorem behinds_succ (first count : Nat) :
    ring.behinds first (count + 1) =
      ring.behinds (first + 1) count ++ ring.behind (first % ring.size) := by
  rw [behinds, List.range'_succ, List.reverse_cons, List.map_append, String.join_append]
  simp [behinds]

theorem names_succ (first count : Nat) :
    ring.names first (count + 1) =
      ring.name (first % ring.size) :: ring.names (first + 1) count := by
  rw [names, List.range'_succ, List.map_cons]
  rfl

/-! ## Reading the pages -/

/-- The call of a page, as it is read. -/
def call (i : Nat) : Node := .invocation (.text (ring.name (i % ring.size))) []

end Ring

namespace Node

theorem deepest_textsOf (source : String) : deepest (textsOf source) = 0 := by
  unfold textsOf
  split <;> simp

/-- A call between two texts without markup is read as it is written. -/
theorem parse_textsOf_call {front name behind : String} (hname : IsOrdinary name)
    (hfront : ∀ c ∈ front.toList, c ∉ markupChars)
    (hbehind : ∀ c ∈ behind.toList, c ∉ markupChars) :
    parse (front ++ "\x7b\x7b" ++ name ++ "\x7d\x7d" ++ behind) =
      group (textsOf front ++ invocation (text name) [] :: textsOf behind) := by
  let items := textsOf front ++ invocation (text name) [] :: textsOf behind
  have hcall : IsConstruct (invocation (group [text name]) ([].map group)) :=
    .invocation (.text hname nofun .nil) (.text name []) .nil nofun
  have hlater : IsSequence (textsOf behind) := by
    rw [← List.append_nil (textsOf behind)]
    exact IsSequence.nil.textsOf_append hbehind nofun
  have hitems : IsSequence items := .textsOf_append (.construct hcall hlater) hfront nofun
  have hdepth : (group items).constructDepth ≤ Braces.maxLevels := by
    simp [items, deepest_textsOf, Braces.maxLevels]
  have hprint : (group items).print = front ++ "\x7b\x7b" ++ name ++ "\x7d\x7d" ++ behind := by
    rw [← String.toList_inj, print, String.toList_ofList, printChars_group]
    simp [items, printAll_append, printAll, printChars, printArgs, printAll_textsOf]
  rw [← hprint]
  exact parse_print hitems (constructDepth_le_iff.1 hdepth)

end Node

/-! ## What a call comes to -/

/-- The expansion with a text in front of its own and a text behind it. -/
def Expansion.between (front behind : String) (expansion : Expansion) : Expansion :=
  { expansion with text := front ++ expansion.text ++ behind }

namespace Reference

open Expansion

variable {reference : Reference}

/-- A node between two texts needs room for one node more, if it is not alone there. -/
theorem evaluate_between {node : Node} {scope : Arguments} {depth least : Nat}
    {expansion : Expansion}
    (h : ∀ room, least ≤ room → reference.evaluate room node scope depth = expansion)
    (front behind : String) {room : Nat} (hroom : least + 1 ≤ room) :
    reference.evaluate room (.group (Node.textsOf front ++ node :: Node.textsOf behind)) scope
      depth = expansion.between front behind := by
  by_cases halone : front = "" ∧ behind = ""
  · obtain ⟨rfl, rfl⟩ := halone
    show reference.evaluate room node scope depth = _
    rw [h room (by omega)]
    simp [between]
  · obtain ⟨fewer, rfl⟩ : ∃ fewer, room = fewer + 1 := ⟨room - 1, by omega⟩
    have hnode := h fewer (by omega)
    have hlength : (Node.textsOf front ++ node :: Node.textsOf behind).length ≠ 1 := by
      unfold Node.textsOf
      split <;> split <;> simp_all
    rw [Node.group_eq_plain hlength, evaluate, List.map_append, List.map_cons, hnode]
    unfold Node.textsOf
    split <;> split <;> simp_all [join, between, ofText, evaluate_text, String.append_assoc]

end Reference

namespace Ring

variable {ring : Ring}

theorem head?_body (i : Nat) :
    (ring.body i).toList.head? = some '{' ∨
      (ring.body i).toList.head? = (ring.front i).toList.head? := by
  cases hfront : (ring.front i).toList with
  | nil => exact .inl (by simp [body, hfront])
  | cons c cs => exact .inr (by simp [body, hfront])

/-- What each page stands for in a source that has the ring. -/
def HasBodies (ring : Ring) (reference : Reference) : Prop :=
  ∀ i, reference.body (ring.name (i % ring.size)) =
    some (.group (Node.textsOf (ring.front (i % ring.size)) ++
      ring.call (i + 1) :: Node.textsOf (ring.behind (i % ring.size))))

/-- The body of each page is its call between its texts. -/
theorem IsIn.hasBodies {source : Source} (h : ring.IsIn source) {setting : Setting} :
    ring.HasBodies (setting.reference source.body) := by
  intro i
  have hi : i % ring.size < ring.size := Nat.mod_lt i ring.size_pos
  have hnext : (i + 1) % ring.size < ring.size := Nat.mod_lt _ ring.size_pos
  have hcolon : (ring.body (i % ring.size)).toList.head? ≠ some ':' := by
    rcases ring.head?_body (i % ring.size) with hhead | hhead
    · rw [hhead]
      decide
    · rw [hhead]
      intro hfront
      exact ring.front_plain _ hi ':' (List.mem_of_mem_head? hfront) (by decide)
  have hsemicolon : (ring.body (i % ring.size)).toList.head? ≠ some ';' := by
    rcases ring.head?_body (i % ring.size) with hhead | hhead
    · rw [hhead]
      decide
    · rw [hhead]
      exact ring.front_start _ hi
  show source.body _ = _
  rw [Source.body_of_template (ring.name_ordinary _ hi) (h _ hi) hcolon hsemicolon, body,
    Nat.mod_add_mod, Node.parse_textsOf_call (ring.name_ordinary _ hnext) (ring.front_plain _ hi)
      (ring.behind_plain _ hi)]
  rfl

/-- **A call with `count` more bodies allowed** opens them all, and the call in the last one is cut
    off.  The induction is on `count`; the room falls by two at most from one call to the next. -/
theorem evaluate_opened {reference : Reference} (hbodies : ring.HasBodies reference)
    (hmagic : ∀ name, reference.magic.get? name = none) (count first : Nat)
    (hdepth : first + count = reference.limits.maxDepth) (scope : Arguments) {room : Nat}
    (hroom : 2 * count + 1 ≤ room) :
    reference.evaluate room (ring.call first) scope first =
      ⟨ring.fronts first count ++ ring.behinds first count,
        [.tooDeep (ring.name (reference.limits.maxDepth % ring.size)) reference.limits.maxDepth],
        ring.names first count⟩ := by
  induction count generalizing first scope room with
  | zero =>
    obtain ⟨fewer, rfl⟩ : ∃ fewer, room = fewer + 1 := ⟨room - 1, by omega⟩
    have hname := ring.name_trimmed _ (Nat.mod_lt first ring.size_pos)
    have hfirst : reference.limits.maxDepth = first := hdepth.symm
    rw [call, Reference.evaluate_call_of_le hname (hmagic _) (Nat.le_of_eq hfirst), hfirst]
    rfl
  | succ count ih =>
    obtain ⟨fewer, rfl⟩ : ∃ fewer, room = fewer + 1 := ⟨room - 1, by omega⟩
    have hname := ring.name_trimmed _ (Nat.mod_lt first ring.size_pos)
    have hopen : first < reference.limits.maxDepth := by omega
    have hnext := fun room (hroom : 2 * count + 1 ≤ room) =>
      ih (first + 1) (by omega) .empty hroom
    rw [call, Reference.evaluate_call_of_lt hname (hmagic _) (hbodies first) hopen]
    show (Expansion.join []).before ((Expansion.ofCall (ring.name (first % ring.size))).before
      (reference.evaluate fewer _ .empty (first + 1))) = _
    rw [Reference.evaluate_between hnext _ _ (by omega), fronts_succ, behinds_succ, names_succ]
    simp [Expansion.between, Expansion.before, Expansion.join, Expansion.ofCall,
      String.append_assoc]

/-! ## The names that are called -/

/-- The calls go round the ring: `count` of them are calls by `min count size` names. -/
theorem card_names (count : Nat) :
    (ring.names 0 count).toFinset.card = min count ring.size := by
  have himage : (ring.names 0 count).toFinset =
      (Finset.range (min count ring.size)).image ring.name := by
    ext name
    simp only [names, List.mem_toFinset, List.mem_map, List.mem_range'_1, Finset.mem_image,
      Finset.mem_range, Nat.lt_min]
    constructor
    · rintro ⟨i, ⟨-, hi⟩, rfl⟩
      have hle := Nat.mod_le i ring.size
      have hlt := Nat.mod_lt i ring.size_pos
      exact ⟨i % ring.size, ⟨by omega, hlt⟩, rfl⟩
    · rintro ⟨i, ⟨hi, hlt⟩, rfl⟩
      exact ⟨i, ⟨Nat.zero_le i, by omega⟩, by rw [Nat.mod_eq_of_lt hlt]⟩
  rw [himage, Finset.card_image_of_injOn, Finset.card_range]
  intro i hi j hj hname
  have hi := Finset.mem_range.1 (Finset.mem_coe.1 hi)
  have hj := Finset.mem_range.1 (Finset.mem_coe.1 hj)
  exact ring.name_injective i (by omega) j (by omega) hname

/-- Every name that is called has a page. -/
theorem isSome_answer_of_mem_names {source : Source} (h : ring.IsIn source) {count : Nat}
    {name : String} (hname : name ∈ ring.names 0 count) :
    (source.answer (.ofName name)).isSome := by
  obtain ⟨i, -, rfl⟩ := List.mem_map.1 hname
  have hi : i % ring.size < ring.size := Nat.mod_lt i ring.size_pos
  rw [(ring.name_ordinary _ hi).ofName_eq, Source.answer, h _ hi]
  rfl

/-- The page that calls the first page of the ring is this call. -/
theorem parse_call (ring : Ring) :
    Node.parse ("\x7b\x7b" ++ ring.name 0 ++ "\x7d\x7d") = ring.call 0 := by
  have hparse : Node.parse ("" ++ "\x7b\x7b" ++ ring.name 0 ++ "\x7d\x7d" ++ "") =
      .group (Node.textsOf "" ++ .invocation (.text (ring.name 0)) [] :: Node.textsOf "") :=
    Node.parse_textsOf_call (ring.name_ordinary 0 ring.size_pos) nofun nofun
  rw [String.empty_append, String.append_empty] at hparse
  rw [hparse, call, Nat.zero_mod]
  rfl

end Ring

/-! ## Expanding the page -/

namespace Expander

/-- **A ring of pages is cut off at exactly the limit of open bodies**, if there is room for two
    nodes a body and one more: the call of its first page expands to the texts in front of the calls
    of `maxDepth` pages, round the ring, and the texts behind them in the opposite order.  It reports
    one problem, the call of the next page, and keeps a name for each page that was opened; what was
    opened again are hits. -/
theorem expand_ring (ring : Ring) {source : Source} (h : ring.IsIn source) (page : String)
    {maxDepth maxNesting : Nat} (hroom : 2 * maxDepth + 1 ≤ maxNesting) :
    let expanded := (ofPage ("\x7b\x7b" ++ ring.name 0 ++ "\x7d\x7d")
      ⟨page, source, .empty, ⟨maxDepth, maxNesting⟩⟩).expand
    expanded.1 = String.join ((List.range maxDepth).map fun i => ring.front (i % ring.size)) ++
        String.join ((List.range maxDepth).reverse.map fun i => ring.behind (i % ring.size)) ∧
      expanded.2.diagnostics = #[.tooDeep (ring.name (maxDepth % ring.size)) maxDepth] ∧
      expanded.2.cache.size = min maxDepth ring.size ∧
      expanded.2.cache.parses = min maxDepth ring.size ∧
      expanded.2.cache.hits = maxDepth - min maxDepth ring.size := by
  intro expanded
  let setting : Setting := ⟨page, source, .empty, ⟨maxDepth, maxNesting⟩⟩
  have hexpansion : (ofPage ("\x7b\x7b" ++ ring.name 0 ++ "\x7d\x7d") setting).expansion =
      ⟨ring.fronts 0 maxDepth ++ ring.behinds 0 maxDepth,
        [.tooDeep (ring.name (maxDepth % ring.size)) maxDepth], ring.names 0 maxDepth⟩ := by
    show (setting.reference source.body).evaluate maxNesting (Node.parse _) .empty 0 = _
    rw [ring.parse_call]
    have hmagic : ∀ name, (setting.reference source.body).magic.get? name = none :=
      fun name => Table.get?_nil name
    exact Ring.evaluate_opened h.hasBodies hmagic maxDepth 0 (Nat.zero_add _) .empty hroom
  have hfound : ∀ name ∈ ring.names 0 maxDepth, (source.answer (.ofName name)).isSome := by
    intro name hname
    exact Ring.isSome_answer_of_mem_names h hname
  have hlength : (ring.names 0 maxDepth).length = maxDepth := by simp [Ring.names]
  obtain ⟨htext, hproblems, hsize, hparses, hhits⟩ := expand_of_expansion rfl hexpansion hfound
  rw [ring.card_names] at hsize hparses hhits
  rw [hlength] at hhits
  rw [List.range_eq_range']
  exact ⟨htext, hproblems, hsize, hparses, hhits⟩

/-- Two pages that call each other, the first with a text on either side of its call and the second
    with none. -/
def pingPong : Ring where
  size := 2
  name i := if i = 0 then "ping" else "pong"
  front i := if i = 0 then "a" else ""
  behind i := if i = 0 then "b" else ""
  size_pos := by decide
  name_ordinary i _ := by
    split
    · exact ⟨by decide, by simp [Node.markupChars]⟩
    · exact ⟨by decide, by simp [Node.markupChars]⟩
  name_trimmed := by decide
  name_injective := by decide
  front_plain i _ := by split <;> simp [Node.markupChars]
  behind_plain i _ := by split <;> simp [Node.markupChars]
  front_start := by decide

/-- The source of these two pages. -/
def pingPongSource : Source :=
  .ofTables [("ping", "a\x7b\x7bpong\x7d\x7db"), ("pong", "\x7b\x7bping\x7d\x7d")] []

/-- With five bodies allowed the first page is opened three times. -/
theorem expand_ring_pingPong :
    let expanded := (ofPage "\x7b\x7bping\x7d\x7d"
      ⟨"", pingPongSource, .empty, ⟨5, 11⟩⟩).expand
    pingPong.IsIn pingPongSource ∧ 2 * 5 + 1 ≤ 11 ∧
      expanded.1 = "aaabbb" ∧ expanded.2.diagnostics = #[.tooDeep "pong" 5] ∧
      expanded.2.cache.size = 2 ∧ expanded.2.cache.parses = 2 ∧ expanded.2.cache.hits = 3 := by
  have hin : pingPong.IsIn pingPongSource := by
    show ∀ i < 2, pingPongSource.template (pingPong.name i) = some (pingPong.body i)
    decide
  exact ⟨hin, Nat.le_refl 11, expand_ring pingPong hin "" (Nat.le_refl 11)⟩

end Expander

end Transclusion
