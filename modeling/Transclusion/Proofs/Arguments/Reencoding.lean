/-
  Writing bound arguments down again.

  What was bound can be bound once more, from the raw arguments or from one argument `key=value` for
  each parameter, and nothing changes.

  * The raw arguments are trimmed.  The blanks that trimming takes stand in front of the text before
    the first `=` and behind the text after it, or around an argument without one, and there they are
    trimmed anyway (`named?_trim`).
  * A key has neither a blank nor a `=` in it, so `key=value` is parted where it was put together,
    and a trimmed value is what stands behind (`named?_equation`).  No key stands twice, so each one
    is new when it is assigned (`Table.assignAll_eq_append`).

  Main statement, `bind_reencoded`.
-/
import Transclusion.Proofs.Arguments.Binding

namespace Transclusion

/-- Entries of names that are all new and different go to the end as they are. -/
theorem Table.assignAll_eq_append {α : Type} {table entries : Table α}
    (h : (table ++ entries).names.Nodup) : table.assignAll entries = table ++ entries := by
  induction entries generalizing table with
  | nil => exact (List.append_nil table).symm
  | cons entry later ih =>
    obtain ⟨name, value⟩ := entry
    have hnew : name ∉ table.names := by
      rw [names, List.map_append, List.map_cons] at h
      intro hmem
      exact (List.nodup_append.1 h).2.2 name hmem name List.mem_cons_self rfl
    have happend : table ++ (name, value) :: later = (table ++ [(name, value)]) ++ later := by simp
    rw [happend] at h
    rw [assignAll_cons, assign_of_not_mem hnew, ih h, happend]

namespace Arguments

/-! ## Trimmed arguments -/

/-- Around a first `=` an argument is trimmed in front and behind. -/
theorem trim_split (front behind : String) :
    Text.trim (front ++ "=" ++ behind) =
      String.ofList (front.toList.dropWhile Text.isBlank) ++ "=" ++
        String.ofList (behind.toList.rdropWhile Text.isBlank) := by
  have hchars : (front ++ "=" ++ behind).toList = front.toList ++ '=' :: behind.toList := by simp
  rw [← String.toList_inj, Text.trim, hchars, Text.trimChars_append_cons (by decide)]
  simp

/-- A trimmed argument has the key and the value that it had, if it had them. -/
theorem named?_trim (arg : String) : named? (Text.trim arg) = named? arg := by
  rcases exists_split_or arg with ⟨front, behind, rfl, hfront⟩ | hnone
  · have htrimmed : '=' ∉ (String.ofList (front.toList.dropWhile Text.isBlank)).toList := by
      rw [String.toList_ofList]
      exact fun hmem => hfront ((List.dropWhile_sublist _).mem hmem)
    rw [trim_split, named?_split htrimmed, named?_split hfront]
    simp only [Text.trim, String.toList_ofList, Text.trimChars_dropWhile,
      Text.trimChars_rdropWhile]
  · have htrimmed : '=' ∉ (Text.trim arg).toList := by
      rw [Text.trim, String.toList_ofList]
      exact fun hmem => hnone (Text.mem_of_mem_trimChars hmem)
    rw [named?_of_not_mem htrimmed, named?_of_not_mem hnone]

theorem bindFrom_map_trim (position : Nat) (bindings : Table String) (args : List String) :
    bindFrom position bindings (args.map Text.trim) = bindFrom position bindings args := by
  induction args generalizing position bindings with
  | nil => rfl
  | cons arg later ih =>
    rw [List.map_cons, bindFrom, bindFrom, named?_trim]
    cases named? arg with
    | some entry => exact ih _ _
    | none =>
      rw [Text.trim_trim]
      exact ih _ _

/-! ## Arguments with their keys -/

/-- A parameter and its value as an argument. -/
def equation (entry : String × String) : String := entry.1 ++ "=" ++ entry.2

/-- A key has no blank in it, and no `=`. -/
theorem IsKey.char {key : String} (h : IsKey key) {c : Char} (hc : c ∈ key.toList) :
    Text.isBlank c = false ∧ c ≠ '=' := by
  rcases h with ⟨-, hword⟩ | rfl
  · exact ⟨Text.isBlank_eq_false_of_isWordChar (hword c hc),
      Text.ne_equals_of_isWordChar (hword c hc)⟩
  · have hdefault : "#default".toList.all (fun c => !Text.isBlank c && c != '=') = true := by decide
    simpa using List.all_eq_true.1 hdefault c hc

/-- An equation is parted where it was put together. -/
theorem named?_equation {entry : String × String} (hkey : IsKey entry.1)
    (hvalue : Text.trim entry.2 = entry.2) : named? (equation entry) = some entry := by
  have htrim : Text.trim entry.1 = entry.1 := by
    rw [Text.trim, Text.trimChars_eq_self fun c hc => (hkey.char hc).1, String.ofList_toList]
  have hequals : '=' ∉ entry.1.toList := fun hmem => (hkey.char hmem).2 rfl
  rw [equation, named?_split hequals, htrim, hvalue, if_pos ((isKey_iff _).2 hkey)]

/-- What equations bind are the parameters and values that they are made of. -/
theorem entriesBehind_map_equation (earlier : List String) {bindings : Table String}
    (h : ∀ entry ∈ bindings, IsKey entry.1 ∧ Text.trim entry.2 = entry.2) :
    entriesBehind earlier (bindings.map equation) = bindings := by
  induction bindings generalizing earlier with
  | nil => rfl
  | cons entry later ih =>
    obtain ⟨hkey, hvalue⟩ := h entry List.mem_cons_self
    rw [List.map_cons, entriesBehind, entryBehind, named?_equation hkey hvalue,
      ih _ fun other hother => h other (List.mem_cons_of_mem _ hother)]
    rfl

/-- **Bound arguments can be written down again**: binding the raw arguments gives what was bound,
    and so does binding one argument `key=value` for each parameter, in order.  To give positional
    arguments their keys changes nothing that a body sees. -/
theorem bind_reencoded (args : List String) :
    bind (bind args).raw = bind args ∧
      (bind ((bind args).bindings.map fun entry => entry.1 ++ "=" ++ entry.2)).bindings =
        (bind args).bindings := by
  constructor
  · have hraw : (args.map Text.trim).map Text.trim = args.map Text.trim := by
      simp [Text.trim_trim]
    show bind (args.map Text.trim) = bind args
    rw [bind, bind, bindFrom_map_trim, hraw]
  · have hentries : entries ((bind args).bindings.map equation) = (bind args).bindings :=
      entriesBehind_map_equation [] fun entry hentry => isKey_trim_of_mem_bindings hentry
    have hnodup : (bind args).bindings.names.Nodup := by
      rw [bindings_bind]
      exact Table.nodup_names_assignAll _
    show (bind ((bind args).bindings.map equation)).bindings = (bind args).bindings
    rw [bindings_bind, hentries]
    exact Table.assignAll_eq_append hnodup

end Arguments

end Transclusion
