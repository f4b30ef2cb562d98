/-
  What a name stands for.

  A source has a body for a name, or none; a cache in front of it has perhaps kept what the source
  said before.  `Cache.body` is what a call gets from the two.  Resolving a name returns this and
  keeps it, so that no resolution changes what any name stands for: `body_resolve` is the invariant
  that makes the cache invisible to an expansion.

  A name is asked for by one question, and no two names by the same (`Lookup.ofName_injective`).
-/
import Transclusion.Cache

namespace Transclusion

/-! ## Questions -/

namespace Lookup

/-- A name behind a colon asks for the article of that name. -/
theorem ofName_colon (title : String) : ofName (":" ++ title) = .article title := by
  simp [ofName]

/-- Any other name asks for the template of that name. -/
theorem ofName_of_head?_ne {name : String} (h : name.toList.head? ≠ some ':') :
    ofName name = .template name := by
  unfold ofName
  split
  · next title heq =>
    rw [heq] at h
    exact absurd rfl h
  · rfl

theorem exists_ofName_eq (name : String) :
    (∃ title, name = ":" ++ title ∧ ofName name = .article title) ∨
      ofName name = .template name := by
  by_cases h : name.toList.head? = some ':'
  · obtain ⟨cs, hcs⟩ := List.head?_eq_some_iff.1 h
    have hname : name = ":" ++ String.ofList cs := by
      rw [← String.toList_inj, hcs]
      simp
    refine .inl ⟨String.ofList cs, hname, ?_⟩
    rw [hname, ofName_colon]
  · exact .inr (ofName_of_head?_ne h)

/-- Every name has a question of its own. -/
theorem ofName_injective {name other : String} (h : ofName name = ofName other) : name = other := by
  rcases exists_ofName_eq name with ⟨title, hname, htitle⟩ | htemplate
  · rcases exists_ofName_eq other with ⟨behind, hother, hbehind⟩ | hother
    · rw [htitle, hbehind] at h
      rw [hname, hother, article.inj h]
    · rw [htitle, hother] at h
      exact absurd h nofun
  · rcases exists_ofName_eq other with ⟨behind, hother, hbehind⟩ | hother
    · rw [htemplate, hbehind] at h
      exact absurd h nofun
    · rw [htemplate, hother] at h
      exact template.inj h

end Lookup

/-! ## Bodies -/

/-- The body of a call by `name`, asked for and parsed anew. -/
def Source.body (source : Source) (name : String) : Option Node :=
  (source.answer (.ofName name)).map fun text => Node.parse (guardLineStart text)

namespace Cache

/-- The body that a call by `name` gets: the one that is kept, or else that of the source. -/
def body (cache : Cache) (source : Source) (name : String) : Option Node :=
  match cache.entries.get? name with
  | some kept => kept
  | none => source.body name

/-- Resolves names, one after another. -/
def resolveAll (cache : Cache) (source : Source) (names : List String) : Cache :=
  names.foldl (fun cache name => (cache.resolve source name).2) cache

variable (cache : Cache) (source : Source)

theorem body_empty : empty.body source = source.body := rfl

/-- A resolution returns what the name stands for. -/
theorem resolve_fst (name : String) : (cache.resolve source name).1 = cache.body source name := by
  unfold resolve body
  cases cache.entries.get? name with
  | some kept => rfl
  | none =>
    simp only [ask, Source.body]
    cases source.answer (.ofName name) with
    | none => rfl
    | some text => rfl

/-- A resolution keeps what it returned, and leaves the other entries as they are. -/
theorem get?_resolve (name key : String) :
    (cache.resolve source name).2.entries.get? key =
      if key = name then some (cache.body source name) else cache.entries.get? key := by
  unfold resolve body
  cases h : cache.entries.get? name with
  | some kept =>
    show cache.entries.get? key = _
    split
    · next heq => rw [heq, h]
    · rfl
  | none =>
    simp only [ask, Source.body]
    cases source.answer (.ofName name) with
    | none => exact Table.get?_assign key name none cache.entries
    | some text => exact Table.get?_assign key name (some _) cache.entries

/-- **One resolution** changes nothing that a name stands for. -/
theorem body_resolve (name : String) :
    (cache.resolve source name).2.body source = cache.body source := by
  funext key
  show (match (cache.resolve source name).2.entries.get? key with
    | some kept => kept
    | none => source.body key) = _
  rw [get?_resolve]
  by_cases h : key = name
  · rw [if_pos h, h]
  · rw [if_neg h]
    rfl

/-- **Resolutions** change nothing that a name stands for. -/
theorem body_resolveAll (names : List String) :
    (cache.resolveAll source names).body source = cache.body source := by
  induction names generalizing cache with
  | nil => rfl
  | cons name later ih =>
    show ((cache.resolve source name).2.resolveAll source later).body source = _
    rw [ih, body_resolve]

theorem resolveAll_append (names others : List String) :
    cache.resolveAll source (names ++ others) =
      (cache.resolveAll source names).resolveAll source others := by
  rw [resolveAll, List.foldl_append]
  rfl

end Cache

end Transclusion
