/-
  The cache over a whole history.

  A history is a list of requests, each with what the source holds at that moment: between two
  requests the pages may change in any way.  What a name stands for is settled by the first request
  for it, whether a text was found or not, and no later one goes to the source again.

  `Cache.Remembers` is the state of the cache after a history: its entries, its counts and its
  questions, each read off the requests alone.  One resolution keeps it (`Remembers.resolve`), and so
  it holds after every history (`remembers_after`).

  Main statement, `Cache.resolutions_after`.
-/
import Mathlib.Data.Finset.Dedup
import Mathlib.Data.Finset.Card
import Transclusion.Proofs.Expansion.Repetition

namespace Transclusion

/-! ## Requests -/

/-- A call for a name, and what the source holds when it comes. -/
structure Request where
  source : Source
  name : String

/-- The text that the source held for `name` when it was first requested. -/
def Request.text? (requests : List Request) (name : String) : Option String :=
  (requests.find? fun request => request.name == name).bind fun first =>
    first.source.answer (.ofName name)

namespace Request

variable {requests : List Request} {name : String}

/-- What was requested before stays what it was. -/
theorem text?_append_of_mem (h : name ∈ requests.map Request.name) (later : List Request) :
    text? (requests ++ later) name = text? requests name := by
  obtain ⟨request, hmem, rfl⟩ := List.mem_map.1 h
  have hfound : (requests.find? fun other => other.name == request.name).isSome := by
    rw [List.find?_isSome]
    exact ⟨request, hmem, by simp⟩
  obtain ⟨first, hfirst⟩ := Option.isSome_iff_exists.1 hfound
  rw [text?, text?, List.find?_append, hfirst]
  rfl

/-- The first request settles what its name stands for. -/
theorem text?_append_of_new {request : Request} (h : request.name ∉ requests.map Request.name)
    (later : List Request) :
    text? (requests ++ request :: later) request.name =
      request.source.answer (.ofName request.name) := by
  have hnone : (requests.find? fun other => other.name == request.name) = none := by
    rw [List.find?_eq_none]
    intro other hother heq
    have hname : other.name = request.name := by simpa using heq
    exact h (hname ▸ List.mem_map_of_mem hother)
  rw [text?, List.find?_append, hnone, List.find?_cons_of_pos (by simp)]
  rfl

/-- The distinct names of a history, with one request more. -/
theorem toFinset_names_concat (requests : List Request) (request : Request) :
    ((requests ++ [request]).map Request.name).toFinset =
      insert request.name (requests.map Request.name).toFinset := by
  ext name
  simp

/-- The names that a text was found for stay the same among those requested before. -/
theorem filter_text?_append (requests later : List Request) :
    ((requests.map Request.name).toFinset.filter fun name =>
      (text? (requests ++ later) name).isSome) =
      (requests.map Request.name).toFinset.filter fun name => (text? requests name).isSome := by
  apply Finset.filter_congr
  intro name hname
  rw [text?_append_of_mem (List.mem_toFinset.1 hname)]

end Request

/-! ## What a cache remembers -/

namespace Cache

/-- The cache after a history of requests. -/
def after (requests : List Request) : Cache :=
  requests.foldl (fun cache request => (cache.resolve request.source request.name).2) .empty

theorem after_concat (requests : List Request) (request : Request) :
    after (requests ++ [request]) =
      ((after requests).resolve request.source request.name).2 := by
  rw [after, List.foldl_append]
  rfl

/-- What the cache holds after a history, read off the requests. -/
structure Remembers (cache : Cache) (requests : List Request) : Prop where
  /-- The names requested so far are kept, each with the body of its text at the first request. -/
  get? : ∀ name, cache.entries.get? name =
    if name ∈ requests.map Request.name then
      some ((Request.text? requests name).map fun text => Node.parse (guardLineStart text))
    else none
  size : cache.size = (requests.map Request.name).toFinset.card
  parses : cache.parses = ((requests.map Request.name).toFinset.filter fun name =>
    (Request.text? requests name).isSome).card
  size_add_hits : cache.size + cache.hits = requests.length
  /-- No question was put twice. -/
  nodup : cache.asked.toList.Nodup
  /-- The questions are those of the names requested so far. -/
  mem_asked : ∀ lookup, lookup ∈ cache.asked.toList ↔
    ∃ name ∈ requests.map Request.name, lookup = .ofName name

namespace Remembers

theorem empty : Remembers .empty [] where
  get? _ := rfl
  size := rfl
  parses := rfl
  size_add_hits := rfl
  nodup := List.nodup_nil
  mem_asked lookup := by simp [Cache.empty]

variable {cache : Cache} {requests : List Request}

/-- A resolution returns what the first request for the name settled, be it this one. -/
theorem body_eq (h : cache.Remembers requests) (request : Request) :
    cache.body request.source request.name =
      (Request.text? (requests ++ [request]) request.name).map fun text =>
        Node.parse (guardLineStart text) := by
  rw [body, h.get?]
  by_cases hmem : request.name ∈ requests.map Request.name
  · rw [if_pos hmem, Request.text?_append_of_mem hmem]
  · rw [if_neg hmem, Request.text?_append_of_new hmem]
    rfl

theorem get?_resolve (h : cache.Remembers requests) (request : Request) (name : String) :
    (cache.resolve request.source request.name).2.entries.get? name =
      if name ∈ (requests ++ [request]).map Request.name then
        some ((Request.text? (requests ++ [request]) name).map fun text =>
          Node.parse (guardLineStart text))
      else none := by
  rw [Cache.get?_resolve]
  by_cases hname : name = request.name
  · subst hname
    rw [if_pos rfl, if_pos (by simp), h.body_eq]
  · have hiff : name ∈ (requests ++ [request]).map Request.name ↔
        name ∈ requests.map Request.name := by
      simp [hname]
    rw [if_neg hname, h.get?]
    by_cases hmem : name ∈ requests.map Request.name
    · rw [if_pos hmem, if_pos (hiff.2 hmem), Request.text?_append_of_mem hmem]
    · rw [if_neg hmem, if_neg (fun hlater => hmem (hiff.1 hlater))]

theorem size_add_hits_resolve (h : cache.Remembers requests) (request : Request) :
    (cache.resolve request.source request.name).2.size +
      (cache.resolve request.source request.name).2.hits = (requests ++ [request]).length := by
  rw [(cache.size_add_hits_resolve request.source request.name).2.2, h.size_add_hits,
    List.length_append, List.length_singleton]

/-- The name was requested before: the resolution counts a hit. -/
theorem resolve_of_mem (h : cache.Remembers requests) {request : Request}
    (hmem : request.name ∈ requests.map Request.name) :
    (cache.resolve request.source request.name).2.asked = cache.asked ∧
      (cache.resolve request.source request.name).2.Remembers (requests ++ [request]) := by
  have hresolve : (cache.resolve request.source request.name).2 =
      { cache with hits := cache.hits + 1 } := by
    apply Cache.resolve_of_kept
    rw [h.get?, if_pos hmem]
  have hnames : ((requests ++ [request]).map Request.name).toFinset =
      (requests.map Request.name).toFinset := by
    rw [Request.toFinset_names_concat, Finset.insert_eq_of_mem (List.mem_toFinset.2 hmem)]
  have hmemNames : ∀ name, name ∈ (requests ++ [request]).map Request.name ↔
      name ∈ requests.map Request.name := by
    intro name
    rw [← List.mem_toFinset, hnames, List.mem_toFinset]
  have hget := h.get?_resolve request
  have hcount := h.size_add_hits_resolve request
  rw [hresolve] at hget hcount ⊢
  refine ⟨rfl, hget, ?_, ?_, hcount, h.nodup, ?_⟩
  · rw [hnames]
    exact h.size
  · rw [hnames, Request.filter_text?_append]
    exact h.parses
  · intro lookup
    rw [h.mem_asked]
    simp only [hmemNames]

/-- The name is new: its question is put, and what comes of it is kept. -/
theorem resolve_of_new (h : cache.Remembers requests) {request : Request}
    (hnew : request.name ∉ requests.map Request.name) :
    (cache.resolve request.source request.name).2.asked =
        cache.asked.push (.ofName request.name) ∧
      (cache.resolve request.source request.name).2.Remembers (requests ++ [request]) := by
  have hnone : cache.entries.get? request.name = none := by
    rw [h.get?, if_neg hnew]
  have hresolve := cache.resolve_of_new request.source hnone
  have hfresh : request.name ∉ (requests.map Request.name).toFinset := by
    rwa [List.mem_toFinset]
  have hget := h.get?_resolve request
  have hcount := h.size_add_hits_resolve request
  rw [hresolve] at hget hcount ⊢
  refine ⟨rfl, hget, ?_, ?_, hcount, ?_, ?_⟩
  · rw [Request.toFinset_names_concat, Finset.card_insert_of_notMem hfresh, ← h.size]
    exact Table.length_assign_of_new _ hnone
  · -- the new name counts when there is a text for it, and the others count as before
    rw [Request.toFinset_names_concat, Finset.filter_insert, Request.filter_text?_append,
      Request.text?_append_of_new hnew]
    show cache.parses + _ = _
    rw [h.parses]
    split
    · rw [Finset.card_insert_of_notMem fun hmem => hfresh (Finset.mem_of_mem_filter _ hmem)]
    · rfl
  · -- a question put before is that of another name
    rw [Array.toList_push, List.nodup_append]
    refine ⟨h.nodup, List.nodup_singleton _, ?_⟩
    intro lookup hlookup asked hasked heq
    obtain ⟨name, hname, rfl⟩ := (h.mem_asked lookup).1 hlookup
    have hsame := Lookup.ofName_injective (heq.trans (List.mem_singleton.1 hasked))
    exact hnew (hsame ▸ hname)
  · intro lookup
    rw [Array.toList_push, List.mem_append, h.mem_asked, List.mem_singleton]
    simp only [List.map_append, List.mem_append, List.map_cons, List.map_nil, List.mem_singleton]
    constructor
    · rintro (⟨name, hname, rfl⟩ | rfl)
      · exact ⟨name, .inl hname, rfl⟩
      · exact ⟨request.name, .inr rfl, rfl⟩
    · rintro ⟨name, hname | rfl, rfl⟩
      · exact .inl ⟨name, hname, rfl⟩
      · exact .inr rfl

/-- **One resolution** is remembered with those before it. -/
theorem resolve (h : cache.Remembers requests) (request : Request) :
    (cache.resolve request.source request.name).2.Remembers (requests ++ [request]) := by
  by_cases hmem : request.name ∈ requests.map Request.name
  · exact (h.resolve_of_mem hmem).2
  · exact (h.resolve_of_new hmem).2

end Remembers

/-- **A history of resolutions** is remembered. -/
theorem remembers_after (requests : List Request) : (after requests).Remembers requests := by
  induction requests using List.reverseRecOn with
  | nil => exact .empty
  | append_singleton requests request ih =>
    rw [after_concat]
    exact ih.resolve request

/-- **The cache is a memo table over whole histories**, whatever becomes of the source between two
    requests.

    Each resolution returns the body of the text that its name had at the first request for it, and
    asks the source if this is the first one, and only then: for the article behind the colon when
    the name begins with a colon, and for the template of the name when it does not.  In the end the
    names that were requested are kept, each was asked for once, `parses` counts those that a text
    was found for, and `hits` the resolutions besides the first ones. -/
theorem resolutions_after (requests : List Request) :
    (∀ earlier request later, requests = earlier ++ request :: later →
      let before := after earlier
      let resolved := before.resolve request.source request.name
      resolved.1 = (Request.text? requests request.name).map
          (fun text => Node.parse (guardLineStart text)) ∧
        resolved.2.asked = if request.name ∈ earlier.map Request.name then before.asked
          else before.asked.push (.ofName request.name)) ∧
    (∀ title, Lookup.ofName (":" ++ title) = .article title) ∧
    (∀ name : String, name.toList.head? ≠ some ':' → Lookup.ofName name = .template name) ∧
    let cache := after requests
    let names := (requests.map Request.name).toFinset
    cache.asked.toList.Nodup ∧
    (∀ lookup, lookup ∈ cache.asked.toList ↔ ∃ name ∈ names, lookup = .ofName name) ∧
    (∀ name, cache.contains name ↔ name ∈ names) ∧
    cache.size = names.card ∧
    cache.parses = (names.filter fun name => (Request.text? requests name).isSome).card ∧
    cache.size + cache.hits = requests.length := by
  have h := remembers_after requests
  refine ⟨?_, Lookup.ofName_colon, fun name => Lookup.ofName_of_head?_ne, h.nodup, ?_, ?_, h.size,
    h.parses, h.size_add_hits⟩
  · rintro earlier request later rfl
    have hearlier := remembers_after earlier
    constructor
    · have hmem : request.name ∈ (earlier ++ [request]).map Request.name := by simp
      have hsplit : earlier ++ request :: later = earlier ++ [request] ++ later :=
        List.append_cons earlier request later
      rw [resolve_fst, hearlier.body_eq, hsplit, Request.text?_append_of_mem hmem]
    · split
      · next hmem => exact (hearlier.resolve_of_mem hmem).1
      · next hnew => exact (hearlier.resolve_of_new hnew).1
  · intro lookup
    rw [h.mem_asked]
    simp only [List.mem_toFinset]
  · intro name
    rw [contains, Table.has, h.get?, List.mem_toFinset]
    split
    · next hmem => exact iff_of_true rfl hmem
    · next hnew => exact iff_of_false nofun hnew

/-! ## Names of one source -/

/-- Resolving names of one source from nothing is a history of requests to it. -/
theorem resolveAll_empty (source : Source) (names : List String) :
    empty.resolveAll source names = after (names.map (Request.mk source)) := by
  rw [after, List.foldl_map]
  rfl

/-- Of the names resolved from nothing, if the source has them all, each distinct one is kept and
    parsed, and the others are hits. -/
theorem counts_resolveAll_empty {source : Source} {names : List String}
    (h : ∀ name ∈ names, (source.answer (.ofName name)).isSome) :
    let cache := empty.resolveAll source names
    cache.size = names.toFinset.card ∧ cache.parses = names.toFinset.card ∧
      cache.hits = names.length - names.toFinset.card := by
  intro cache
  have hremembers : cache.Remembers (names.map (Request.mk source)) := by
    rw [show cache = _ from resolveAll_empty source names]
    exact remembers_after _
  have hnames : (names.map (Request.mk source)).map Request.name = names := by
    rw [List.map_map]
    exact List.map_id names
  have hfound : ∀ name ∈ names.toFinset,
      (Request.text? (names.map (Request.mk source)) name).isSome := by
    intro name hname
    have hmem := List.mem_toFinset.1 hname
    obtain ⟨first, hfirst⟩ : ∃ first, (names.map (Request.mk source)).find?
        (fun request => request.name == name) = some first := by
      rw [← Option.isSome_iff_exists, List.find?_isSome]
      exact ⟨⟨source, name⟩, List.mem_map_of_mem hmem, by simp⟩
    obtain ⟨other, -, rfl⟩ := List.mem_map.1 (List.mem_of_find?_eq_some hfirst)
    rw [Request.text?, hfirst]
    exact h name hmem
  have hsize := hremembers.size
  have hparses := hremembers.parses
  have hcount := hremembers.size_add_hits
  rw [hnames] at hsize hparses
  rw [Finset.filter_true_of_mem hfound] at hparses
  rw [List.length_map] at hcount
  refine ⟨hsize, hparses, ?_⟩
  omega

end Cache

/-- What a page without a cache comes to, and how often its calls found their name in the cache, if
    the source has every name that is called. -/
theorem Expander.expand_of_expansion {expander : Expander} (hempty : expander.cache = .empty)
    {expansion : Expansion} (hexpansion : expander.expansion = expansion)
    (h : ∀ name ∈ expansion.calls, (expander.setting.source.answer (.ofName name)).isSome) :
    let expanded := expander.expand
    expanded.1 = expansion.text ∧ expanded.2.diagnostics = expansion.problems.toArray ∧
      expanded.2.cache.size = expansion.calls.toFinset.card ∧
      expanded.2.cache.parses = expansion.calls.toFinset.card ∧
      expanded.2.cache.hits = expansion.calls.length - expansion.calls.toFinset.card := by
  intro expanded
  have hcache : expanded.2.cache =
      Cache.empty.resolveAll expander.setting.source expansion.calls := by
    rw [← hempty, ← hexpansion]
    exact expander.cache_expand
  rw [hcache]
  refine ⟨?_, ?_, Cache.counts_resolveAll_empty h⟩
  · rw [← hexpansion]
    exact expander.text_expand
  · rw [← hexpansion]
    exact expander.diagnostics_expand

end Transclusion
