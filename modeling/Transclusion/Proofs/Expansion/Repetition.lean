/-
  Expanding a page again.

  An expansion resolves the names that it calls for, and after it they are all kept
  (`Cache.get?_resolveAll`).  So expanding again calls for the same bodies whatever has become of
  the source, and by `Reference.evaluate_eq_of_agrees` makes the same expansion.  Resolving names
  that are kept changes nothing but the count of hits (`Cache.resolveAll_of_kept`).

  Each resolution adds to the names that are kept or to the hits (`Cache.size_add_hits_resolveAll`),
  which is how the resolutions of an expansion can be counted from outside.

  Main statement, `Expander.expand_withSource_expand`: the second of two expansions in a row has the
  result of the first, and asks nothing.
-/
import Transclusion.Proofs.Expansion.Agreement

namespace Transclusion

namespace Cache

variable (cache : Cache) (source : Source)

/-! ## Names that are kept -/

theorem resolveAll_cons (name : String) (later : List String) :
    cache.resolveAll source (name :: later) =
      (cache.resolve source name).2.resolveAll source later := rfl

/-- Resolving a name that is kept counts a hit. -/
theorem resolve_of_kept {name : String} {body : Option Node}
    (h : cache.entries.get? name = some body) :
    (cache.resolve source name).2 = { cache with hits := cache.hits + 1 } := by
  rw [resolve, h]

/-- A name that is new is asked for and kept, with its text or without. -/
theorem resolve_of_new {name : String} (h : cache.entries.get? name = none) :
    (cache.resolve source name).2 =
      { entries := cache.entries.assign name (source.body name)
        parses := cache.parses + if (source.answer (.ofName name)).isSome then 1 else 0
        hits := cache.hits
        asked := cache.asked.push (.ofName name) } := by
  simp only [resolve, h, ask, Source.body]
  cases source.answer (.ofName name) with
  | none => rfl
  | some text => rfl

/-- Resolving names that are kept counts as many hits. -/
theorem resolveAll_of_kept (names : List String)
    (h : ∀ name ∈ names, ∃ body, cache.entries.get? name = some body) :
    cache.resolveAll source names = { cache with hits := cache.hits + names.length } := by
  induction names generalizing cache with
  | nil => rfl
  | cons name later ih =>
    obtain ⟨body, hbody⟩ := h name List.mem_cons_self
    rw [resolveAll_cons, resolve_of_kept cache source hbody, ih]
    · rw [List.length_cons, Nat.add_assoc, Nat.add_comm 1]
    · intro name hname
      exact h name (List.mem_cons_of_mem _ hname)

/-- What is kept stays kept. -/
theorem get?_resolveAll_of_kept {name : String} {body : Option Node}
    (h : cache.entries.get? name = some body) (names : List String) :
    (cache.resolveAll source names).entries.get? name = some body := by
  induction names generalizing cache with
  | nil => exact h
  | cons first later ih =>
    rw [resolveAll_cons]
    apply ih
    rw [get?_resolve]
    split
    · next heq =>
      subst heq
      rw [Cache.body, h]
    · exact h

/-- **Resolved names are kept**, with what they stood for. -/
theorem get?_resolveAll (names : List String) {name : String} (h : name ∈ names) :
    (cache.resolveAll source names).entries.get? name = some (cache.body source name) := by
  induction names generalizing cache with
  | nil => exact absurd h List.not_mem_nil
  | cons first later ih =>
    rw [resolveAll_cons]
    rcases List.mem_cons.1 h with rfl | hlater
    · apply get?_resolveAll_of_kept
      rw [get?_resolve, if_pos rfl]
    · rw [ih _ hlater, body_resolve]

/-! ## Counting resolutions -/

/-- One resolution makes one more name kept, or one more hit. -/
theorem size_add_hits_resolve (name : String) :
    let after := (cache.resolve source name).2
    cache.size ≤ after.size ∧ cache.hits ≤ after.hits ∧
      after.size + after.hits = cache.size + cache.hits + 1 := by
  intro after
  cases h : cache.entries.get? name with
  | some body =>
    have hafter : after = { cache with hits := cache.hits + 1 } := cache.resolve_of_kept source h
    rw [hafter]
    exact ⟨Nat.le_refl _, Nat.le_succ _, rfl⟩
  | none =>
    have hafter : after = _ := cache.resolve_of_new source h
    have hhits : after.hits = cache.hits := by rw [hafter]
    have hsize : after.size = cache.size + 1 := by
      rw [hafter, size]
      exact Table.length_assign_of_new _ h
    omega

/-- **Resolutions** make as many more names kept, or hits. -/
theorem size_add_hits_resolveAll (names : List String) :
    let after := cache.resolveAll source names
    cache.size ≤ after.size ∧ cache.hits ≤ after.hits ∧
      after.size + after.hits = cache.size + cache.hits + names.length := by
  induction names generalizing cache with
  | nil => exact ⟨Nat.le_refl _, Nat.le_refl _, rfl⟩
  | cons name later ih =>
    have hfirst := cache.size_add_hits_resolve source name
    have hlater := ih (cache.resolve source name).2
    rw [resolveAll_cons, List.length_cons]
    omega

end Cache

/-! ## The second of two expansions -/

namespace Expander

/-- The expander with other pages behind it. -/
def withSource (expander : Expander) (source : Source) : Expander :=
  { expander with setting := { expander.setting with source } }

/-- Every body that the page called for is kept. -/
theorem get?_expand {expander : Expander} {name : String} (h : name ∈ expander.expansion.calls) :
    expander.expand.2.cache.entries.get? name =
      some (expander.cache.body expander.setting.source name) := by
  rw [cache_expand]
  exact expander.cache.get?_resolveAll expander.setting.source _ h

/-- The page comes to the same again, whatever the source has become. -/
theorem expansion_expand_withSource (expander : Expander) (source : Source) :
    (expander.expand.2.withSource source).expansion = expander.expansion := by
  have hagrees : (expander.setting.reference
        (expander.cache.body expander.setting.source)).Agrees
      ((expander.setting.reference (expander.expand.2.cache.body source))) 0
      expander.expansion := by
    refine ⟨rfl, rfl, Nat.le_refl _, ?_, fun _ _ => rfl, fun _ => ⟨rfl, rfl⟩⟩
    intro name hname
    show expander.expand.2.cache.body source name = expander.cache.body expander.setting.source name
    rw [Cache.body, get?_expand hname]
  exact Reference.evaluate_eq_of_agrees _ _ _ _ hagrees

/-- **Expanding again needs no source**: whatever the cache of an expander holds, and whatever
    becomes of its source between two expansions in a row, the second gives the text and the
    problems of the first.  It asks nothing, parses nothing and keeps no further name, and it hits
    as often as the first resolved a name: by as much as the first let the names that are kept and
    the hits grow. -/
theorem expand_withSource_expand (expander : Expander) (source : Source) :
    let first := expander.expand
    let second := (first.2.withSource source).expand
    second.1 = first.1 ∧ second.2.diagnostics = first.2.diagnostics ∧
      second.2.cache.asked = first.2.cache.asked ∧
      second.2.cache.entries = first.2.cache.entries ∧
      second.2.cache.parses = first.2.cache.parses ∧
      expander.cache.size ≤ first.2.cache.size ∧ expander.cache.hits ≤ first.2.cache.hits ∧
      second.2.cache.hits = first.2.cache.hits +
        ((first.2.cache.size - expander.cache.size) +
          (first.2.cache.hits - expander.cache.hits)) := by
  intro first second
  have hagain : (first.2.withSource source).expansion = expander.expansion :=
    expansion_expand_withSource expander source
  have htext : second.1 = first.1 := by rw [text_expand, hagain, text_expand]
  have hdiagnostics : second.2.diagnostics = first.2.diagnostics := by
    rw [diagnostics_expand, hagain, diagnostics_expand]
  -- the second expansion resolves kept names only
  have hcache : second.2.cache = { first.2.cache with
      hits := first.2.cache.hits + expander.expansion.calls.length } := by
    rw [cache_expand, hagain]
    apply Cache.resolveAll_of_kept
    intro name hname
    exact ⟨_, get?_expand hname⟩
  obtain ⟨hsize, hhits, hcount⟩ : expander.cache.size ≤ first.2.cache.size ∧
      expander.cache.hits ≤ first.2.cache.hits ∧ first.2.cache.size + first.2.cache.hits =
        expander.cache.size + expander.cache.hits + expander.expansion.calls.length := by
    have hgrowth :=
      expander.cache.size_add_hits_resolveAll expander.setting.source expander.expansion.calls
    rw [← cache_expand] at hgrowth
    exact hgrowth
  rw [hcache]
  refine ⟨htext, hdiagnostics, rfl, rfl, rfl, hsize, hhits, ?_⟩
  show first.2.cache.hits + expander.expansion.calls.length = _
  omega

end Expander

end Transclusion
