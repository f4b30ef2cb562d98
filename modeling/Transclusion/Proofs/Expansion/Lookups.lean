/-
  An expansion depends on its source only through what it asks.

  The names that an expansion calls for may be computed from earlier answers, so what is asked of two
  sources could drift apart.  It does not, as long as they answer alike: a cache that has asked for
  every name that it keeps (`Cache.AskedForKept`) has asked for every name that was resolved, so
  sources that agree on the questions agree on the bodies of all names called for, and then
  `Reference.evaluate_eq_of_agrees` gives the same expansion.  The same names resolved against the
  two sources leave the same cache (`Cache.resolveAll_congr`), questions and counts included.

  Main statement, `Expander.sameResult_of_answers`: whatever pages another source has, if it answers
  the questions of an expansion in the same way, expanding over it has the same result.
-/
import Transclusion.Proofs.Expansion.Repetition

namespace Transclusion

/-- Sources that answer the question for a name alike have the same body for it. -/
theorem Source.body_congr {source other : Source} {name : String}
    (h : other.answer (.ofName name) = source.answer (.ofName name)) :
    other.body name = source.body name := by
  rw [body, body, h]

namespace Cache

/-! ## What was asked -/

/-- For every name that is kept its question was put. -/
def AskedForKept (cache : Cache) : Prop :=
  ∀ name, cache.entries.get? name ≠ none → .ofName name ∈ cache.asked

theorem askedForKept_empty : empty.AskedForKept := by
  intro name hkept
  exact absurd (Table.get?_nil name) hkept

/-- **One resolution** puts the question for its name if the name was not kept before. -/
theorem AskedForKept.resolve {cache : Cache} (h : cache.AskedForKept) (source : Source)
    (name : String) : (cache.resolve source name).2.AskedForKept := by
  intro key hkept
  cases hentry : cache.entries.get? name with
  | some body =>
    rw [cache.resolve_of_kept source hentry] at hkept ⊢
    exact h key hkept
  | none =>
    have hasked : (cache.resolve source name).2.asked = cache.asked.push (.ofName name) := by
      rw [cache.resolve_of_new source hentry]
    rw [hasked, Array.mem_push]
    rw [get?_resolve] at hkept
    by_cases hkey : key = name
    · exact .inr (congrArg Lookup.ofName hkey)
    · rw [if_neg hkey] at hkept
      exact .inl (h key hkept)

/-- **Resolutions** put the question for every name that was not kept before. -/
theorem AskedForKept.resolveAll {cache : Cache} (h : cache.AskedForKept) (source : Source)
    (names : List String) : (cache.resolveAll source names).AskedForKept := by
  induction names generalizing cache with
  | nil => exact h
  | cons name later ih => exact ih (h.resolve source name)

/-- For every name that is resolved its question is put, then or before. -/
theorem AskedForKept.ofName_mem_asked {cache : Cache} (h : cache.AskedForKept) (source : Source)
    {names : List String} {name : String} (hname : name ∈ names) :
    .ofName name ∈ (cache.resolveAll source names).asked := by
  apply h.resolveAll source names
  rw [cache.get?_resolveAll source names hname]
  exact nofun

/-! ## Resolving against another source -/

theorem resolve_congr (cache : Cache) {source other : Source} {name : String}
    (h : other.answer (.ofName name) = source.answer (.ofName name)) :
    cache.resolve other name = cache.resolve source name := by
  unfold resolve ask
  rw [h]

/-- Names resolved against two sources that answer their questions alike leave the same cache. -/
theorem resolveAll_congr (cache : Cache) {source other : Source} {names : List String}
    (h : ∀ name ∈ names, other.answer (.ofName name) = source.answer (.ofName name)) :
    cache.resolveAll other names = cache.resolveAll source names := by
  induction names generalizing cache with
  | nil => rfl
  | cons name later ih =>
    rw [resolveAll_cons, resolveAll_cons, resolve_congr cache (h name List.mem_cons_self)]
    exact ih _ fun key hkey => h key (List.mem_cons_of_mem name hkey)

end Cache

/-! ## Expanding over another source -/

namespace Expander

/-- **A result depends on the source only through what was asked of it**: over a source that gives
    the same answer to every question of an expansion, with any pages besides, the page has the same
    text, problems and cache, so that the same questions are put in the same order. -/
theorem sameResult_of_answers (text : String) (setting : Setting) (other : Source)
    (h : ∀ lookup ∈ (ofPage text setting).expand.2.cache.asked,
      other.answer lookup = setting.source.answer lookup) :
    SameResult ((ofPage text setting).withSource other).expand (ofPage text setting).expand := by
  have hcalls : ∀ name ∈ (ofPage text setting).expansion.calls,
      other.answer (.ofName name) = setting.source.answer (.ofName name) := by
    intro name hname
    apply h
    rw [cache_expand]
    exact Cache.askedForKept_empty.ofName_mem_asked setting.source hname
  have hagrees : (setting.reference (Cache.empty.body setting.source)).Agrees
      (setting.reference (Cache.empty.body other)) 0 (ofPage text setting).expansion := by
    refine ⟨rfl, rfl, Nat.le_refl _, ?_, fun _ _ => rfl, fun _ => ⟨rfl, rfl⟩⟩
    intro name hname
    rw [Cache.body_empty, Cache.body_empty]
    exact Source.body_congr (hcalls name hname)
  have hexpansion : ((ofPage text setting).withSource other).expansion =
      (ofPage text setting).expansion := Reference.evaluate_eq_of_agrees _ _ _ _ hagrees
  constructor
  · rw [text_expand, hexpansion, text_expand]
  · rw [diagnostics_expand, hexpansion, diagnostics_expand]
  · rw [cache_expand, hexpansion, cache_expand]
    exact Cache.resolveAll_congr _ hcalls

/-- A page that makes names of its argument, one that calls itself, an article, and `spare` pages. -/
def pickSource (spare : Table String) : Source :=
  .ofTables ([("pick", "\x7b\x7b\x7b1\x7d\x7d\x7db"), ("ab", "X\x7b\x7bab\x7d\x7d")] ++ spare)
    ([("art", "Y")] ++ spare)

/-- A computed name, a loop that is cut off, an article and a missing page: a page that is not asked
    for makes no difference. -/
theorem sameResult_of_answers_pick :
    let page := ofPage ("\x7b\x7b \x7b\x7bpick|a\x7d\x7d\x7d\x7d" ++
        "\x7b\x7b \x7b\x7b\x7b1|:art\x7d\x7d\x7d\x7d\x7d" ++ "\x7b\x7bnone\x7d\x7d")
      ⟨"", pickSource [], .empty, ⟨2, 50⟩⟩
    let other := pickSource [("spare", "Z")]
    page.expand.1 = "XXY" ∧
      page.expand.2.diagnostics = #[.tooDeep "ab" 2, .missingTemplate "none"] ∧
      page.expand.2.cache.asked =
        #[.template "pick", .template "ab", .article "art", .template "none"] ∧
      other.template "spare" ≠ page.setting.source.template "spare" ∧
      SameResult (page.withSource other).expand page.expand := by
  intro page other
  have hasked : page.expand.2.cache.asked =
      #[.template "pick", .template "ab", .article "art", .template "none"] := by decide +kernel
  refine ⟨by decide +kernel, by decide +kernel, hasked, by decide, ?_⟩
  apply sameResult_of_answers
  show ∀ lookup ∈ page.expand.2.cache.asked, _
  rw [hasked]
  decide +kernel

/-! ## After earlier expansions -/

/-- Also an expander that was used before depends on its source only through what was asked of it,
    if it has asked for all that it keeps: over the other source its calls leave the same cache, and
    so they stand for the same bodies. -/
theorem sameResult_withSource {expander : Expander} (hasked : expander.cache.AskedForKept)
    {other : Source} (h : ∀ lookup ∈ expander.expand.2.cache.asked,
      other.answer lookup = expander.setting.source.answer lookup) :
    SameResult (expander.withSource other).expand expander.expand := by
  have hcache : expander.cache.resolveAll other expander.expansion.calls =
      expander.expand.2.cache := by
    rw [cache_expand]
    apply Cache.resolveAll_congr
    intro name hname
    apply h
    rw [cache_expand]
    exact hasked.ofName_mem_asked expander.setting.source hname
  have hbody : expander.expand.2.cache.body other = expander.cache.body other := by
    rw [← hcache]
    exact Cache.body_resolveAll _ _ _
  have hexpansion : (expander.withSource other).expansion = expander.expansion := by
    rw [← expansion_expand_withSource expander other, expansion, expansion]
    show (expander.setting.reference (expander.cache.body other)).evaluate _ _ _ _ =
      (expander.setting.reference (expander.expand.2.cache.body other)).evaluate _ _ _ _
    rw [hbody]
    rfl
  constructor
  · rw [text_expand, hexpansion, text_expand]
  · rw [diagnostics_expand, hexpansion, diagnostics_expand]
  · rw [cache_expand, hexpansion]
    exact hcache

end Expander

end Transclusion
