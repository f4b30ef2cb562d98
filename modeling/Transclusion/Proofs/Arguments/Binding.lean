/-
  What the arguments of a call bind.

  An argument gives one parameter its value.  Which one is written in the argument, or else it is the
  next position, so it depends on the arguments in front by how many of them were positional
  (`Gives`).  Binding goes through the arguments and keeps a table and a position.  The invariant is
  that the position is one more than the number of positional arguments so far, and then what is
  bound is what the entries of the arguments assign, one after another (`bindFrom_eq_assignAll`).

  The rest is about tables: a name is new once, in the place where it first came, and has the value
  that it was given last.  Positions and keys are names alike, so nothing has to be said about which
  of them overwrites which.

  Main statement, `bind_lastWins`.
-/
import Transclusion.Arguments
import Transclusion.Proofs.Text.Blanks

namespace Transclusion

/-! ## Assigning one after another -/

namespace Table

variable {α : Type}

/-- The table after assigning the values of entries to their names, in order. -/
def assignAll (table : Table α) (entries : List (String × α)) : Table α :=
  entries.foldl (fun table entry => table.assign entry.1 entry.2) table

theorem assignAll_cons (table : Table α) (name : String) (value : α)
    (later : List (String × α)) :
    table.assignAll ((name, value) :: later) = (table.assign name value).assignAll later := rfl

theorem assignAll_concat (table : Table α) (entries : List (String × α)) (name : String)
    (value : α) :
    table.assignAll (entries ++ [(name, value)]) = (table.assignAll entries).assign name value := by
  rw [assignAll, List.foldl_concat]
  rfl

/-- A name that is new goes to the end. -/
theorem assign_of_not_mem {name : String} {table : Table α} (h : name ∉ table.names) (value : α) :
    table.assign name value = table ++ [(name, value)] := by
  induction table with
  | nil => rfl
  | cons entry later ih =>
    obtain ⟨n, v⟩ := entry
    rw [names, List.map_cons, List.mem_cons, not_or] at h
    rw [assign, if_neg (by simpa using h.1), ih h.2]
    rfl

/-- A name that is there stays where it is. -/
theorem names_assign_of_mem {name : String} {table : Table α} (h : name ∈ table.names)
    (value : α) : (table.assign name value).names = table.names := by
  induction table with
  | nil => exact absurd h List.not_mem_nil
  | cons entry later ih =>
    obtain ⟨n, v⟩ := entry
    rw [assign]
    split
    · rfl
    · next hne =>
      have hlater : name ∈ names later := by
        rcases List.mem_cons.1 h with heq | hlater
        · exact absurd (beq_iff_eq.2 heq) hne
        · exact hlater
      rw [names, List.map_cons]
      exact congrArg (n :: ·) (ih hlater)

/-- An entry of a table was there before, or is the one that was assigned. -/
theorem mem_assign {name : String} {value : α} {table : Table α} {entry : String × α}
    (h : entry ∈ table.assign name value) : entry = (name, value) ∨ entry ∈ table := by
  induction table with
  | nil => exact .inl (List.mem_singleton.1 h)
  | cons first later ih =>
    obtain ⟨n, v⟩ := first
    rw [assign] at h
    split at h
    · next heq =>
      obtain rfl := beq_iff_eq.1 heq
      exact (List.mem_cons.1 h).imp_right (List.mem_cons_of_mem _)
    · rcases List.mem_cons.1 h with rfl | hlater
      · exact .inr List.mem_cons_self
      · exact (ih hlater).imp_right (List.mem_cons_of_mem _)

/-- The names are those that were assigned, each where it came first. -/
theorem names_assignAll (entries : List (String × α)) :
    (assignAll [] entries).names = (entries.map Prod.fst).eraseDups := by
  induction entries using List.reverseRecOn with
  | nil => rfl
  | append_singleton entries entry ih =>
    obtain ⟨name, value⟩ := entry
    have hmem : name ∈ (assignAll [] entries).names ↔ name ∈ entries.map Prod.fst := by
      rw [ih, List.mem_eraseDups]
    rw [assignAll_concat, List.map_append, List.eraseDups_append, ← ih]
    by_cases hnew : name ∈ entries.map Prod.fst
    · have hremoved : [name].removeAll (entries.map Prod.fst) = [] := by
        simpa [List.removeAll] using hnew
      rw [names_assign_of_mem (hmem.2 hnew), List.map_singleton, hremoved]
      simp
    · have hkept : [name].removeAll (entries.map Prod.fst) = [name] := by
        simpa [List.removeAll] using hnew
      rw [assign_of_not_mem fun h => hnew (hmem.1 h), List.map_singleton, hkept, names,
        List.map_append]
      rfl

/-- No name has two entries. -/
theorem nodup_names_assignAll (entries : List (String × α)) :
    (assignAll [] entries).names.Nodup := by
  induction entries using List.reverseRecOn with
  | nil => exact List.nodup_nil
  | append_singleton entries entry ih =>
    obtain ⟨name, value⟩ := entry
    rw [assignAll_concat]
    by_cases h : name ∈ (assignAll [] entries).names
    · rwa [names_assign_of_mem h]
    · rw [assign_of_not_mem h, names, List.map_append]
      refine List.nodup_append.2 ⟨ih, by simp, ?_⟩
      rintro key hkey other hother rfl
      obtain rfl := List.mem_singleton.1 hother
      exact h hkey

/-- The value of a name is the one that it was given last. -/
theorem get?_assignAll (entries : List (String × α)) (name : String) :
    (assignAll [] entries).get? name = entries.reverse.lookup name := by
  induction entries using List.reverseRecOn with
  | nil => rfl
  | append_singleton entries entry ih =>
    obtain ⟨key, value⟩ := entry
    rw [assignAll_concat, get?_assign, List.reverse_concat, ih]
    exact (get?_cons name key value entries.reverse).symm

theorem mem_of_mem_assignAll {entries : List (String × α)} {entry : String × α}
    (h : entry ∈ assignAll [] entries) : entry ∈ entries := by
  induction entries using List.reverseRecOn with
  | nil => exact h
  | append_singleton entries last ih =>
    obtain ⟨name, value⟩ := last
    rw [assignAll_concat] at h
    rcases mem_assign h with rfl | hmem
    · exact List.mem_concat_self
    · exact List.mem_append_left _ (ih hmem)

/-- The value that a name was given last: no entry behind it has the name. -/
theorem lookup_reverse_eq_some_iff {entries : List (String × α)} {name : String} {value : α} :
    entries.reverse.lookup name = some value ↔
      ∃ front behind, entries = front ++ (name, value) :: behind ∧
        name ∉ behind.map Prod.fst := by
  rw [List.lookup_eq_some_iff]
  constructor
  · rintro ⟨behind, front, heq, hbehind⟩
    refine ⟨front.reverse, behind.reverse, ?_, ?_⟩
    · rw [← List.reverse_reverse entries, heq]
      simp
    · simpa using fun value hmem => hbehind (name, value) hmem
  · rintro ⟨front, behind, rfl, hbehind⟩
    refine ⟨behind.reverse, front.reverse, by simp, ?_⟩
    intro entry hentry
    rw [bne_iff_ne]
    rintro rfl
    exact hbehind (List.mem_map_of_mem (List.mem_reverse.1 hentry))

/-- A name that was given no value. -/
theorem lookup_reverse_eq_none_iff {entries : List (String × α)} {name : String} :
    entries.reverse.lookup name = none ↔ name ∉ entries.map Prod.fst := by
  rw [List.lookup_eq_none_iff]
  constructor
  · intro h hmem
    obtain ⟨entry, hentry, rfl⟩ := List.mem_map.1 hmem
    simpa using h entry (List.mem_reverse.2 hentry)
  · intro h entry hentry
    rw [bne_iff_ne]
    rintro rfl
    exact h (List.mem_map_of_mem (List.mem_reverse.1 hentry))

end Table

namespace Arguments

/-! ## Keys and values -/

/-- A text that can name a parameter: a word, or the one key for the default of a choice. -/
def IsKey (key : String) : Prop :=
  (key ≠ "" ∧ ∀ c ∈ key.toList, Text.isWordChar c = true) ∨ key = "#default"

/-- The argument is the key, its first `=` and the value, with blanks around the two. -/
def Names (arg key value : String) : Prop :=
  IsKey key ∧ ∃ front behind, arg = front ++ "=" ++ behind ∧ '=' ∉ front.toList ∧
    Text.trim front = key ∧ Text.trim behind = value

/-- The argument has no key. -/
def IsPositional (arg : String) : Prop := ∀ key value, ¬Names arg key value

theorem isKey_iff (key : String) : isKey key.toList = true ↔ IsKey key := by
  rw [isKey, IsKey, Text.isWord, Bool.or_eq_true, Bool.and_eq_true, Bool.not_eq_true',
    List.isEmpty_eq_false_iff, List.all_eq_true, beq_iff_eq, String.toList_inj, ne_eq, ne_eq,
    String.toList_eq_nil_iff]

theorem isKey_numeral (n : Nat) : IsKey (Text.numeral n) := by
  rw [← isKey_iff, isKey, Text.isWord_numeral]
  rfl

/-- An argument has a first `=`, or none at all. -/
theorem exists_split_or (arg : String) :
    (∃ front behind, arg = front ++ "=" ++ behind ∧ '=' ∉ front.toList) ∨ '=' ∉ arg.toList := by
  by_cases h : '=' ∈ arg.toList
  · obtain ⟨front, behind, harg, hfront⟩ := List.eq_append_cons_of_mem h
    refine .inl ⟨String.ofList front, String.ofList behind, ?_, by simpa using hfront⟩
    rw [← String.toList_inj, harg]
    simp
  · exact .inr h

/-- An argument is parted at its first `=`. -/
theorem named?_split {front : String} (h : '=' ∉ front.toList) (behind : String) :
    named? (front ++ "=" ++ behind) =
      if isKey (Text.trim front).toList then some (Text.trim front, Text.trim behind)
      else none := by
  have hfront : ∀ c ∈ front.toList, (c != '=') = true := by
    intro c hc
    rw [bne_iff_ne]
    rintro rfl
    exact h hc
  have hchars : (front ++ "=" ++ behind).toList = front.toList ++ '=' :: behind.toList := by simp
  have htake : (front ++ "=" ++ behind).toList.takeWhile (· != '=') = front.toList := by
    rw [hchars, List.takeWhile_append_of_pos hfront]
    simp
  have hdrop : (front ++ "=" ++ behind).toList.dropWhile (· != '=') = '=' :: behind.toList := by
    rw [hchars, List.dropWhile_append_of_pos hfront]
    simp
  rw [named?, htake, hdrop, Text.trim, Text.trim, String.toList_ofList]

theorem named?_of_not_mem {arg : String} (h : '=' ∉ arg.toList) : named? arg = none := by
  have hdrop : arg.toList.dropWhile (· != '=') = [] := by
    rw [List.dropWhile_eq_nil_iff]
    intro c hc
    rw [bne_iff_ne]
    rintro rfl
    exact h hc
  rw [named?, hdrop]

/-- The key and the value of an argument, if it has them. -/
theorem names_iff {arg key value : String} :
    Names arg key value ↔ named? arg = some (key, value) := by
  constructor
  · rintro ⟨hkey, front, behind, rfl, hfront, rfl, rfl⟩
    rw [named?_split hfront, if_pos ((isKey_iff _).2 hkey)]
  · intro h
    rcases exists_split_or arg with ⟨front, behind, rfl, hfront⟩ | hnone
    · rw [named?_split hfront] at h
      split at h
      · next hkey =>
        obtain ⟨rfl, rfl⟩ := Prod.mk.inj (Option.some.inj h)
        exact ⟨(isKey_iff _).1 hkey, front, behind, rfl, hfront, rfl, rfl⟩
      · exact absurd h nofun
    · rw [named?_of_not_mem hnone] at h
      exact absurd h nofun

theorem isPositional_iff {arg : String} : IsPositional arg ↔ named? arg = none := by
  rw [IsPositional, Option.eq_none_iff_forall_ne_some]
  simp only [names_iff, Prod.forall, ne_eq]

instance : DecidablePred IsPositional := fun arg =>
  decidable_of_iff ((named? arg).isNone = true)
    (Option.isNone_iff_eq_none.trans isPositional_iff.symm)

/-! ## The entries of arguments -/

/-- How many arguments have no key. -/
def positionals (args : List String) : Nat := args.countP fun arg => IsPositional arg

/-- What an argument binds when it stands behind others: the value to its key, or all of it to the
    position behind those that are taken. -/
inductive Gives (earlier : List String) (arg : String) : String × String → Prop where
  | named {key value : String} (h : Names arg key value) : Gives earlier arg (key, value)
  | positional (h : IsPositional arg) :
      Gives earlier arg (Text.numeral (1 + positionals earlier), Text.trim arg)

/-- What an argument binds. -/
def entryBehind (earlier : List String) (arg : String) : String × String :=
  (named? arg).getD (Text.numeral (1 + positionals earlier), Text.trim arg)

/-- What arguments bind that stand behind others, each of them. -/
def entriesBehind (earlier : List String) : List String → List (String × String)
  | [] => []
  | arg :: later => entryBehind earlier arg :: entriesBehind (earlier ++ [arg]) later

/-- What each of the arguments binds. -/
def entries (args : List String) : List (String × String) := entriesBehind [] args

/-- Every argument binds one parameter to one value. -/
theorem gives_iff {earlier : List String} {arg : String} {entry : String × String} :
    Gives earlier arg entry ↔ entry = entryBehind earlier arg := by
  constructor
  · rintro (hnames | hpositional)
    · rw [entryBehind, names_iff.1 hnames]
      rfl
    · rw [entryBehind, isPositional_iff.1 hpositional]
      rfl
  · rintro rfl
    cases harg : named? arg with
    | none =>
      rw [entryBehind, harg]
      exact .positional (isPositional_iff.2 harg)
    | some entry =>
      rw [entryBehind, harg]
      exact .named (names_iff.2 harg)

theorem length_entriesBehind (earlier args : List String) :
    (entriesBehind earlier args).length = args.length := by
  induction args generalizing earlier with
  | nil => rfl
  | cons arg later ih => rw [entriesBehind, List.length_cons, List.length_cons, ih]

/-- The entry at a place is that of the argument there. -/
theorem getElem?_entriesBehind (earlier args : List String) (i : Nat) :
    (entriesBehind earlier args)[i]? = args[i]?.map (entryBehind (earlier ++ args.take i)) := by
  induction args generalizing earlier i with
  | nil => rfl
  | cons arg later ih =>
    cases i with
    | zero => simp [entriesBehind]
    | succ i => simp [entriesBehind, ih]

/-- **What is bound** is what the entries assign: the position is one more than the number of
    positional arguments so far. -/
theorem bindFrom_eq_assignAll (earlier args : List String) (bindings : Table String) :
    bindFrom (1 + positionals earlier) bindings args =
      bindings.assignAll (entriesBehind earlier args) := by
  induction args generalizing earlier bindings with
  | nil => rfl
  | cons arg later ih =>
    rw [bindFrom, entriesBehind]
    cases harg : named? arg with
    | some entry =>
      have hcount : positionals (earlier ++ [arg]) = positionals earlier := by
        simp [positionals, isPositional_iff, harg]
      rw [entryBehind, harg, ← hcount]
      exact ih _ _
    | none =>
      have hcount : positionals (earlier ++ [arg]) = positionals earlier + 1 := by
        simp [positionals, isPositional_iff, harg]
      rw [entryBehind, harg, Nat.add_assoc, ← hcount]
      exact ih _ _

theorem bindings_bind (args : List String) :
    (bind args).bindings = Table.assignAll [] (entries args) := bindFrom_eq_assignAll [] args []

/-- What an argument binds has a key, and its value is trimmed. -/
theorem Gives.isKey_trim {earlier : List String} {arg : String} {entry : String × String}
    (h : Gives earlier arg entry) : IsKey entry.1 ∧ Text.trim entry.2 = entry.2 := by
  cases h with
  | named h =>
    obtain ⟨hkey, front, behind, -, -, -, rfl⟩ := h
    exact ⟨hkey, Text.trim_trim behind⟩
  | positional => exact ⟨isKey_numeral _, Text.trim_trim arg⟩

/-- All that is bound has a key, and a trimmed value. -/
theorem isKey_trim_of_mem_bindings {args : List String} {entry : String × String}
    (h : entry ∈ (bind args).bindings) : IsKey entry.1 ∧ Text.trim entry.2 = entry.2 := by
  rw [bindings_bind] at h
  obtain ⟨i, hi⟩ := List.mem_iff_getElem?.1 (Table.mem_of_mem_assignAll h)
  rw [entries, getElem?_entriesBehind, Option.map_eq_some_iff] at hi
  obtain ⟨arg, -, hentry⟩ := hi
  exact (gives_iff.2 hentry.symm).isKey_trim

/-- **The last argument for a parameter wins**, and the parameters stand in the order in which they
    came first.  The argument at each place gives the value of one parameter, that of its key or of
    the next position.  A parameter has the value that it is given last, and is not bound when it is
    given none; no parameter is listed twice.  What is bound are keys and trimmed values, and beside
    it all arguments are kept, trimmed and in order. -/
theorem bind_lastWins (args : List String) :
    (entries args).length = args.length ∧
      (∀ i arg, args[i]? = some arg →
        ∃ entry, (entries args)[i]? = some entry ∧ Gives (args.take i) arg entry) ∧
      (∀ key value, (bind args).get? key = some value ↔
        ∃ front behind, entries args = front ++ (key, value) :: behind ∧
          key ∉ behind.map Prod.fst) ∧
      (∀ key, (bind args).get? key = none ↔ key ∉ (entries args).map Prod.fst) ∧
      (bind args).bindings.names = ((entries args).map Prod.fst).eraseDups ∧
      (bind args).bindings.names.Nodup ∧
      (bind args).raw = args.map Text.trim ∧
      ∀ entry ∈ (bind args).bindings, IsKey entry.1 ∧ Text.trim entry.2 = entry.2 := by
  have hget : ∀ key, (bind args).get? key = (entries args).reverse.lookup key := by
    intro key
    rw [get?, bindings_bind, Table.get?_assignAll]
  refine ⟨length_entriesBehind [] args, ?_, ?_, ?_, ?_, ?_, rfl, ?_⟩
  · intro i arg harg
    refine ⟨entryBehind (args.take i) arg, ?_, gives_iff.2 rfl⟩
    rw [entries, getElem?_entriesBehind, harg]
    rfl
  · intro key value
    rw [hget, Table.lookup_reverse_eq_some_iff]
  · intro key
    rw [hget, Table.lookup_reverse_eq_none_iff]
  · rw [bindings_bind, Table.names_assignAll]
  · rw [bindings_bind]
    exact Table.nodup_names_assignAll _
  · intro entry hentry
    exact isKey_trim_of_mem_bindings hentry

/-- A position that a key takes over, a key that comes again, and texts that are no keys. -/
example : bind [" a ", "x=1", "1 = b", "x y=c", "x=", "=d"] =
    ⟨[("1", "b"), ("x", ""), ("2", "x y=c"), ("3", "=d")],
      ["a", "x=1", "1 = b", "x y=c", "x=", "=d"]⟩ := by decide +kernel

end Arguments

end Transclusion
