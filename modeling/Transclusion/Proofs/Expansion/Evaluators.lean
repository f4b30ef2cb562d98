/-
  What evaluators change.

  An expansion sees of its evaluators only what they answer.  So evaluators that decline every call
  can be registered under new names without any effect (`Reference.evaluate_withMagic`).

  Declining is also the only way to a page: the body of a name is called for, and a problem reported
  with the name, only when a call by that name was declined (`Reference.evaluate_declinedBy`).  So a
  name whose evaluator answers every call is never looked up, and is never too deep or missing: the
  limit of open bodies comes behind the evaluators.

  Main statement, `Expander.expand_registered`.
-/
import Transclusion.Proofs.Expansion.Lookups

namespace Transclusion

/-! ## Registries -/

namespace MagicRegistry

/-- The registry with further evaluators, registered one after another. -/
def registerAll (registry : MagicRegistry) (added : Table Magic) : MagicRegistry :=
  added.foldl (fun registry entry => registry.register entry.1 entry.2) registry

/-- Some call by the name is answered by no evaluator. -/
def Declines (registry : MagicRegistry) (name : String) : Prop :=
  ∃ call : MagicCall, call.name = name ∧ registry.evaluate call = none

variable {registry : MagicRegistry}

theorem get?_register (name key : String) (magic : Magic) :
    (registry.register name magic).get? key =
      if key = name then some magic else registry.get? key :=
  Table.get?_assign key name magic registry.evaluators

/-- An evaluator that declines every call has no effect under a name that no call is answered by. -/
theorem evaluate_register {name : String} {magic : Magic} (hmagic : ∀ call, magic call = none)
    (hname : ∀ call : MagicCall, call.name = name → registry.evaluate call = none) :
    (registry.register name magic).evaluate = registry.evaluate := by
  funext call
  rw [evaluate, get?_register]
  by_cases h : call.name = name
  · rw [if_pos h, hname call h]
    exact hmagic call
  · rw [if_neg h]
    rfl

/-- **Evaluators that decline every call** have no effect under new names.  Two of them may have the
    same name, so what is asked of a name in the induction is that no call by it is answered. -/
theorem evaluate_registerAll {added : Table Magic}
    (hadded : ∀ entry ∈ added, registry.get? entry.1 = none ∧ ∀ call, entry.2 call = none) :
    (registry.registerAll added).evaluate = registry.evaluate := by
  have hnames : ∀ entry ∈ added, ∀ call : MagicCall, call.name = entry.1 →
      registry.evaluate call = none := by
    intro entry hentry call hcall
    rw [evaluate, hcall, (hadded entry hentry).1]
    rfl
  have hmagic := fun entry hentry => (hadded entry hentry).2
  clear hadded
  induction added generalizing registry with
  | nil => rfl
  | cons entry later ih =>
    have hfirst := evaluate_register (hmagic entry List.mem_cons_self)
      (hnames entry List.mem_cons_self)
    rw [← hfirst]
    apply ih
    · intro other hother
      rw [hfirst]
      exact hnames other (List.mem_cons_of_mem entry hother)
    · intro other hother
      exact hmagic other (List.mem_cons_of_mem entry hother)

/-- A name whose evaluator answers every call by it is not declined. -/
theorem not_declines {name : String} {magic : Magic} (hget : registry.get? name = some magic)
    (hanswers : ∀ call : MagicCall, call.name = name → magic call ≠ none) :
    ¬ registry.Declines name := by
  rintro ⟨call, hname, hnone⟩
  apply hanswers call hname
  rw [evaluate, hname, hget] at hnone
  exact hnone

end MagicRegistry

/-! ## Other evaluators with the same answers -/

/-- The reference with other evaluators. -/
def Reference.withMagic (reference : Reference) (magic : MagicRegistry) : Reference :=
  { reference with magic }

/-- **An expansion sees only the answers** of its evaluators.  The induction is on the room. -/
theorem Reference.evaluate_withMagic {reference : Reference} {magic : MagicRegistry}
    (h : magic.evaluate = reference.magic.evaluate) (room : Nat) (node : Node) (scope : Arguments)
    (depth : Nat) :
    (reference.withMagic magic).evaluate room node scope depth =
      reference.evaluate room node scope depth := by
  have hanswer : ∀ call depth enter, (reference.withMagic magic).answer call depth enter =
      reference.answer call depth enter := by
    intro call depth enter
    simp only [answer, withMagic, h]
    rfl
  have hlimits : (reference.withMagic magic).limits = reference.limits := rfl
  have hpage : (reference.withMagic magic).page = reference.page := rfl
  induction room generalizing node scope depth with
  | zero => cases node <;> simp only [evaluate, hlimits]
  | succ room ih =>
    cases node with
    | text source => simp only [evaluate]
    | plain children => simp only [evaluate, ih]
    | placeholder name default => simp only [evaluate, ih]
    | invocation name args => simp only [evaluate, ih, hanswer, hpage]

/-! ## What declined calls lead to -/

/-- The name of the page that a problem is about, if it is about one. -/
def Diagnostic.name? : Diagnostic → Option String
  | .tooDeep name _ => some name
  | .nestingTooDeep _ => none
  | .missingTemplate name => some name

/-- Every name that an expansion calls for, or reports, is one that its evaluators declined. -/
structure Expansion.DeclinedBy (expansion : Expansion) (registry : MagicRegistry) : Prop where
  calls : ∀ name ∈ expansion.calls, registry.Declines name
  problems : ∀ problem ∈ expansion.problems, ∀ name, problem.name? = some name →
    registry.Declines name

namespace Expansion.DeclinedBy

variable {registry : MagicRegistry}

theorem ofText (text : String) : (Expansion.ofText text).DeclinedBy registry :=
  ⟨nofun, nofun⟩

theorem ofCall {name : String} (h : registry.Declines name) :
    (Expansion.ofCall name).DeclinedBy registry := by
  refine ⟨?_, nofun⟩
  intro other hother
  rwa [List.mem_singleton.1 hother]

theorem ofProblem {problem : Diagnostic}
    (h : ∀ name, problem.name? = some name → registry.Declines name) :
    (Expansion.ofProblem problem).DeclinedBy registry := by
  refine ⟨nofun, ?_⟩
  intro other hother
  rwa [List.mem_singleton.1 hother]

theorem before {first second : Expansion} (hfirst : first.DeclinedBy registry)
    (hsecond : second.DeclinedBy registry) : (first.before second).DeclinedBy registry where
  calls := List.forall_mem_append.2 ⟨hfirst.calls, hsecond.calls⟩
  problems := List.forall_mem_append.2 ⟨hfirst.problems, hsecond.problems⟩

theorem join {expansions : List Expansion}
    (h : ∀ expansion ∈ expansions, expansion.DeclinedBy registry) :
    (Expansion.join expansions).DeclinedBy registry := by
  constructor
  · intro name hname
    obtain ⟨expansion, hexpansion, hcall⟩ := List.mem_flatMap.1 hname
    exact (h expansion hexpansion).calls name hcall
  · intro problem hproblem
    obtain ⟨expansion, hexpansion, hmem⟩ := List.mem_flatMap.1 hproblem
    exact (h expansion hexpansion).problems problem hmem

end Expansion.DeclinedBy

namespace Reference

open Expansion

variable {reference : Reference}

/-- **One call**: behind the evaluators its name is one that they declined. -/
theorem answer_declinedBy {call : MagicCall} {depth : Nat} {enter : Node → Expansion}
    (henter : ∀ body, (enter body).DeclinedBy reference.magic) :
    (reference.answer call depth enter).DeclinedBy reference.magic := by
  unfold answer
  cases hevaluate : reference.magic.evaluate call with
  | some answer => exact .ofText answer
  | none =>
    -- this call was declined itself, and the calls in its body are covered by `henter`
    have hdeclines : reference.magic.Declines call.name := ⟨call, rfl, hevaluate⟩
    simp only
    split
    · apply DeclinedBy.ofProblem
      intro name hname
      rwa [← Option.some.inj hname]
    · split
      · exact (DeclinedBy.ofCall hdeclines).before (henter _)
      · apply (DeclinedBy.ofCall hdeclines).before
        apply DeclinedBy.ofProblem
        intro name hname
        rwa [← Option.some.inj hname]

/-- **Evaluation**: only declined calls lead to pages, and to problems with them.  The induction is
    on the room. -/
theorem evaluate_declinedBy (room : Nat) (node : Node) (scope : Arguments) (depth : Nat) :
    (reference.evaluate room node scope depth).DeclinedBy reference.magic := by
  induction room generalizing node scope depth with
  | zero =>
    by_cases htext : ∃ source, node = .text source
    · obtain ⟨source, rfl⟩ := htext
      rw [evaluate_text]
      exact .ofText source
    · rw [evaluate_zero (not_exists.1 htext)]
      exact .ofProblem nofun
  | succ room ih =>
    have hnodes : ∀ nodes : List Node,
        (Expansion.join (nodes.map fun node => reference.evaluate room node scope depth)).DeclinedBy
          reference.magic := by
      intro nodes
      apply DeclinedBy.join
      intro expansion hexpansion
      obtain ⟨node, -, rfl⟩ := List.mem_map.1 hexpansion
      exact ih node scope depth
    cases node with
    | text source =>
      rw [evaluate_text]
      exact .ofText source
    | plain children =>
      rw [evaluate]
      exact hnodes children
    | placeholder name default =>
      simp only [evaluate]
      apply (ih name scope depth).before
      split
      · exact .ofText _
      · exact ih _ scope depth
      · exact .ofText ""
    | invocation name args =>
      simp only [evaluate]
      apply ((ih name scope depth).before (hnodes args)).before
      exact answer_declinedBy fun body => ih body _ (depth + 1)

end Reference

/-! ## Names that are not resolved -/

namespace Cache

variable (cache : Cache) (source : Source)

/-- A name that is not resolved is kept as before. -/
theorem get?_resolveAll_of_not_mem {names : List String} {name : String} (h : name ∉ names) :
    (cache.resolveAll source names).entries.get? name = cache.entries.get? name := by
  induction names generalizing cache with
  | nil => rfl
  | cons first later ih =>
    rw [List.mem_cons, not_or] at h
    rw [resolveAll_cons, ih _ h.2, get?_resolve, if_neg h.1]

/-- What is asked, besides what was asked before, is asked for a name that is resolved. -/
theorem mem_asked_resolveAll {names : List String} {lookup : Lookup}
    (h : lookup ∈ (cache.resolveAll source names).asked) :
    lookup ∈ cache.asked ∨ ∃ name ∈ names, lookup = .ofName name := by
  induction names generalizing cache with
  | nil => exact .inl h
  | cons first later ih =>
    rcases ih (cache.resolve source first).2 h with hasked | ⟨name, hname, hlookup⟩
    · cases hentry : cache.entries.get? first with
      | some body =>
        rw [cache.resolve_of_kept source hentry] at hasked
        exact .inl hasked
      | none =>
        rw [cache.resolve_of_new source hentry] at hasked
        rcases Array.mem_push.1 hasked with hasked | hnew
        · exact .inl hasked
        · exact .inr ⟨first, List.mem_cons_self, hnew⟩
    · exact .inr ⟨name, List.mem_cons_of_mem first hname, hlookup⟩

end Cache

/-- The template of a name is asked for by that name only. -/
theorem Lookup.eq_of_ofName_eq_template {name other : String}
    (h : ofName other = .template name) : other = name := by
  rcases exists_ofName_eq other with ⟨title, -, harticle⟩ | htemplate
  · rw [harticle] at h
    exact absurd h nofun
  · rw [htemplate] at h
    exact template.inj h

/-! ## Expanding again and again -/

namespace Expander

/-- Where two pages come to the same, over the same source and with the same cache, expanding them
    has the same result, however often that is done. -/
theorem sameResult_again {first second : Expander} (hexpansion : first.expansion = second.expansion)
    (hcache : first.cache = second.cache) (hsource : first.setting.source = second.setting.source)
    (times : Nat) : SameResult (first.again times).expand (second.again times).expand := by
  -- what the pages come to stays the same, so only their caches can differ in the end
  have hagain : ∀ times, (first.again times).cache = (second.again times).cache := by
    intro times
    induction times with
    | zero => exact hcache
    | succ times ih =>
      show (first.again times).expand.2.cache = (second.again times).expand.2.cache
      rw [cache_expand, cache_expand, expansion_again, expansion_again, ih, hexpansion,
        (first.again_spec times).2.1, (second.again_spec times).2.1, hsource]
  constructor
  · rw [text_expand, text_expand, expansion_again, expansion_again, hexpansion]
  · rw [diagnostics_expand, diagnostics_expand, expansion_again, expansion_again, hexpansion]
  · exact hagain (times + 1)

/-- However often a page was expanded, the names that it never calls for are not kept, and no
    template was asked for by them. -/
theorem cache_again_of_not_mem {expander : Expander} {name : String}
    (hname : name ∉ expander.expansion.calls) (hkept : expander.cache.entries.get? name = none)
    (hasked : .template name ∉ expander.cache.asked) (times : Nat) :
    (expander.again times).cache.entries.get? name = none ∧
      .template name ∉ (expander.again times).cache.asked := by
  induction times with
  | zero => exact ⟨hkept, hasked⟩
  | succ times ih =>
    obtain ⟨hnone, hnot⟩ := ih
    show (expander.again times).expand.2.cache.entries.get? name = none ∧
      .template name ∉ (expander.again times).expand.2.cache.asked
    rw [cache_expand, expansion_again]
    constructor
    · rw [Cache.get?_resolveAll_of_not_mem _ _ hname, hnone]
    · intro hmem
      rcases Cache.mem_asked_resolveAll _ _ hmem with hbefore | ⟨other, hother, hlookup⟩
      · exact hnot hbefore
      · exact hname (Lookup.eq_of_ofName_eq_template hlookup.symm ▸ hother)

/-- The problems after some expansions are problems of the page. -/
theorem mem_problems_of_mem_diagnostics_again {expander : Expander} {problem : Diagnostic}
    (hnone : expander.diagnostics = #[]) {times : Nat}
    (h : problem ∈ (expander.again times).diagnostics) : problem ∈ expander.expansion.problems := by
  cases times with
  | zero =>
    rw [again, Nat.repeat, hnone] at h
    exact absurd h (Array.not_mem_empty problem)
  | succ times =>
    have hproblem : problem ∈ (expander.again times).expand.2.diagnostics := h
    rw [diagnostics_expand, expansion_again, List.mem_toArray] at hproblem
    exact hproblem

end Expander

/-- The setting with other evaluators. -/
def Setting.withMagic (setting : Setting) (magic : MagicRegistry) : Setting := { setting with magic }

namespace Expander

/-- A page comes to the same with evaluators that give the same answers. -/
theorem expansion_withMagic (text : String) {setting : Setting} {magic : MagicRegistry}
    (h : magic.evaluate = setting.magic.evaluate) :
    (ofPage text (setting.withMagic magic)).expansion = (ofPage text setting).expansion := by
  have hreference :
      magic.evaluate = (setting.reference (Cache.empty.body setting.source)).magic.evaluate := h
  exact Reference.evaluate_withMagic hreference _ _ _ _

/-- **Evaluators affect only the calls that they answer.**  Registered under new names, evaluators
    that decline every call change nothing in any expansion of a page.  And a name whose evaluator
    answers every call by it never comes to a page, however often the page that calls it is
    expanded: nothing is kept for the name, its template is not asked for, and it is reported
    neither as too deep nor as missing, whatever the limits are. -/
theorem expand_registered (text : String) (setting : Setting) :
    (∀ added : Table Magic,
      (∀ entry ∈ added, setting.magic.get? entry.1 = none ∧ ∀ call, entry.2 call = none) →
      ∀ times, SameResult
        ((ofPage text (setting.withMagic (setting.magic.registerAll added))).again times).expand
        ((ofPage text setting).again times).expand) ∧
    ∀ name magic, setting.magic.get? name = some magic →
      (∀ call : MagicCall, call.name = name → magic call ≠ none) →
      ∀ times, let expander := (ofPage text setting).again times
        expander.cache.contains name = false ∧ .template name ∉ expander.cache.asked ∧
          (∀ limit, .tooDeep name limit ∉ expander.diagnostics) ∧
          .missingTemplate name ∉ expander.diagnostics := by
  constructor
  · intro added hadded times
    have hexpansion := expansion_withMagic text (MagicRegistry.evaluate_registerAll hadded)
    exact sameResult_again hexpansion rfl rfl times
  · intro name magic hget hanswers times expander
    have hdeclined : (ofPage text setting).expansion.DeclinedBy setting.magic :=
      Reference.evaluate_declinedBy _ _ _ _
    have hnot : ¬ setting.magic.Declines name := MagicRegistry.not_declines hget hanswers
    have hcalls : name ∉ (ofPage text setting).expansion.calls := by
      intro hcall
      exact hnot (hdeclined.calls name hcall)
    obtain ⟨hkept, hasked⟩ := cache_again_of_not_mem hcalls (Table.get?_nil name)
      (Array.not_mem_empty _) times
    have hproblem : ∀ problem ∈ expander.diagnostics, problem.name? ≠ some name := by
      intro problem hmem hname
      exact hnot (hdeclined.problems problem
        (mem_problems_of_mem_diagnostics_again rfl hmem) name hname)
    refine ⟨?_, hasked, ?_, ?_⟩
    · rw [Cache.contains, Table.has, hkept]
      rfl
    · intro limit hmem
      exact hproblem _ hmem rfl
    · intro hmem
      exact hproblem _ hmem rfl

/-- A name `m` that always stands for `a`, beside a page `a`. -/
def answeredSetting (maxDepth : Nat) : Setting :=
  ⟨"", (PageTable.empty.insert "a" "A").toSource, MagicRegistry.empty.register "m" fun _ => some "a",
    ⟨maxDepth, 50⟩⟩

/-- The answer of one name is the name of another call, with no body allowed to be open and with one;
    declining evaluators under the names of a page and of a missing page are not noticed. -/
theorem expand_registered_answered :
    let text := "\x7b\x7bm\x7d\x7d\x7b\x7b \x7b\x7bm\x7d\x7d \x7d\x7d\x7b\x7bnone\x7d\x7d"
    let page maxDepth := ofPage text (answeredSetting maxDepth)
    let setting := answeredSetting 1
    let added : Table Magic := [("a", fun _ => none), ("none", fun _ => none)]
    (page 1).expand.1 = "aA" ∧
      (page 0).expand.2.diagnostics = #[.tooDeep "a" 0, .tooDeep "none" 0] ∧
      SameResult
        ((ofPage text (setting.withMagic (setting.magic.registerAll added))).again 2).expand
        ((page 1).again 2).expand ∧
      let expander := (page 0).again 2
      expander.cache.contains "m" = false ∧ .template "m" ∉ expander.cache.asked ∧
        (∀ limit, .tooDeep "m" limit ∉ expander.diagnostics) ∧
        .missingTemplate "m" ∉ expander.diagnostics := by
  intro text page setting added
  refine ⟨by decide +kernel, by decide +kernel, ?_, ?_⟩
  · apply (expand_registered text setting).1
    intro entry hentry
    rcases List.mem_cons.1 hentry with rfl | hentry
    · exact ⟨rfl, fun _ => rfl⟩
    · rw [List.mem_singleton.1 hentry]
      exact ⟨rfl, fun _ => rfl⟩
  · apply (expand_registered text (answeredSetting 0)).2 "m" (fun _ => some "a") rfl
    intro call _
    exact nofun

end Expander

end Transclusion
