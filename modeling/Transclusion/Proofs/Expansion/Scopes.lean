/-
  Scopes do not leak.

  A tree reads its scope at its own placeholders and nowhere else: the body of a call is flattened
  with the arguments of the call as its scope, and the arguments are flattened before it is entered.
  An evaluator is shown the scope of the call; one that does not look at it answers alike in every
  scope.

  `Node.placeholderNames` lists the names of the placeholders that are written in a tree.  Where they
  are plain texts it is known beforehand what the tree reads, and two scopes that bind it alike
  cannot be told apart (`Reference.evaluate_eq_of_scopes`).  The induction asks nothing of bodies:
  with equal arguments the same body is evaluated in the same scope.

  Main statement, `flatten_eq_of_scopes`.
-/
import Transclusion.Proofs.Expansion.Uncached

namespace Transclusion

/-! ## What a tree reads -/

namespace Node

mutual

/-- The names of the placeholders in a tree, those in names, arguments and defaults included. -/
def placeholderNames : Node → List Node
  | text _ => []
  | plain children => placeholderNamesAll children
  | placeholder name none => name :: name.placeholderNames
  | placeholder name (some default) => name :: (name.placeholderNames ++ default.placeholderNames)
  | invocation name args => name.placeholderNames ++ placeholderNamesAll args

/-- The names of the placeholders in trees. -/
def placeholderNamesAll : List Node → List Node
  | [] => []
  | node :: later => node.placeholderNames ++ placeholderNamesAll later

end

theorem mem_placeholderNamesAll {nodes : List Node} {name : Node} :
    name ∈ placeholderNamesAll nodes ↔ ∃ node ∈ nodes, name ∈ node.placeholderNames := by
  induction nodes with
  | nil => simp [placeholderNamesAll]
  | cons first later ih => simp [placeholderNamesAll, ih]

/-- The placeholders of a tree are named by plain texts, which the two scopes bind alike: to the
    same value, or both to none. -/
def ReadsAlike (node : Node) (scope other : Arguments) : Prop :=
  ∀ name ∈ node.placeholderNames, ∃ source, name = .text source ∧
    other.get? (Text.trim source) = scope.get? (Text.trim source)

namespace ReadsAlike

variable {scope other : Arguments}

theorem of_mem {nodes : List Node} {node : Node} (hnode : node ∈ nodes)
    (h : ∀ name ∈ placeholderNamesAll nodes, ∃ source, name = .text source ∧
      other.get? (Text.trim source) = scope.get? (Text.trim source)) :
    node.ReadsAlike scope other := by
  intro name hname
  exact h name (mem_placeholderNamesAll.2 ⟨node, hnode, hname⟩)

theorem child {children : List Node} (h : (plain children).ReadsAlike scope other) {child : Node}
    (hchild : child ∈ children) : child.ReadsAlike scope other := by
  rw [ReadsAlike, placeholderNames] at h
  exact of_mem hchild h

/-- A placeholder has a plain text as its name. -/
theorem key {name : Node} {default : Option Node}
    (h : (placeholder name default).ReadsAlike scope other) :
    ∃ source, name = .text source ∧
      other.get? (Text.trim source) = scope.get? (Text.trim source) := by
  apply h
  cases default with
  | none =>
    rw [placeholderNames]
    exact List.mem_cons_self
  | some default =>
    rw [placeholderNames]
    exact List.mem_cons_self

theorem default {name default : Node} (h : (placeholder name (some default)).ReadsAlike scope other) :
    default.ReadsAlike scope other := by
  rw [ReadsAlike, placeholderNames] at h
  intro inner hinner
  exact h inner (List.mem_cons_of_mem _ (List.mem_append_right _ hinner))

theorem callee {name : Node} {args : List Node}
    (h : (invocation name args).ReadsAlike scope other) : name.ReadsAlike scope other := by
  rw [ReadsAlike, placeholderNames] at h
  intro inner hinner
  exact h inner (List.mem_append_left _ hinner)

theorem argument {name : Node} {args : List Node}
    (h : (invocation name args).ReadsAlike scope other) {arg : Node} (harg : arg ∈ args) :
    arg.ReadsAlike scope other := by
  rw [ReadsAlike, placeholderNames] at h
  exact of_mem harg fun inner hinner => h inner (List.mem_append_right _ hinner)

end ReadsAlike

end Node

/-! ## Evaluators that do not look at the scope -/

/-- No evaluator of the registry reads the scope of the call. -/
def MagicRegistry.IgnoresScope (registry : MagicRegistry) : Prop :=
  ∀ name magic, registry.get? name = some magic → ∀ (call : MagicCall) (scope : Arguments),
    magic { call with scope } = magic call

theorem MagicRegistry.IgnoresScope.empty : MagicRegistry.empty.IgnoresScope := nofun

theorem MagicRegistry.IgnoresScope.register {registry : MagicRegistry} (h : registry.IgnoresScope)
    (name : String) {magic : Magic}
    (hmagic : ∀ (call : MagicCall) (scope : Arguments), magic { call with scope } = magic call) :
    (registry.register name magic).IgnoresScope := by
  intro key found hfound
  have hget : (if key = name then some magic else registry.get? key) = some found := by
    rw [← hfound]
    exact (Table.get?_assign key name magic registry.evaluators).symm
  split at hget
  · obtain rfl := Option.some.inj hget
    exact hmagic
  · exact h key found hget

theorem MagicRegistry.IgnoresScope.evaluate_eq {registry : MagicRegistry}
    (h : registry.IgnoresScope) (call : MagicCall) (scope : Arguments) :
    registry.evaluate { call with scope } = registry.evaluate call := by
  unfold evaluate
  cases hmagic : registry.get? call.name with
  | none => rfl
  | some magic => exact h call.name magic hmagic call scope

/-! ## Scopes that are read alike -/

namespace Reference

variable {reference : Reference}

/-- A call is answered alike in every scope, its arguments being evaluated. -/
theorem answer_scope (hmagic : reference.magic.IgnoresScope) (call : MagicCall)
    (scope : Arguments) (depth : Nat) (enter : Node → Expansion) :
    reference.answer { call with scope } depth enter = reference.answer call depth enter := by
  unfold answer
  rw [hmagic.evaluate_eq call scope]

/-- **A tree comes to the same in scopes that it reads alike.**  The induction is on the room. -/
theorem evaluate_eq_of_scopes (hmagic : reference.magic.IgnoresScope) {scope other : Arguments}
    (room : Nat) (node : Node) (depth : Nat) (h : node.ReadsAlike scope other) :
    reference.evaluate room node other depth = reference.evaluate room node scope depth := by
  induction room generalizing node with
  | zero => cases node <;> simp only [evaluate]
  | succ room ih =>
    cases node with
    | text source => simp only [evaluate]
    | plain children =>
      have hchildren : children.map (fun child => reference.evaluate room child other depth) =
          children.map fun child => reference.evaluate room child scope depth := by
        apply List.map_congr_left
        intro child hchild
        exact ih child (h.child hchild)
      simp only [evaluate, hchildren]
    | placeholder name default =>
      obtain ⟨source, rfl, hvalue⟩ := h.key
      have hname : ∀ bound, reference.evaluate room (.text source) bound depth = .ofText source := by
        intro bound
        rw [evaluate]
      simp only [evaluate, hname, Expansion.ofText, hvalue]
      cases scope.get? (Text.trim source) with
      | some value => rfl
      | none =>
        cases default with
        | none => rfl
        | some default =>
          simp only
          rw [ih default h.default]
    | invocation name args =>
      have hargs : args.map (fun arg => reference.evaluate room arg other depth) =
          args.map fun arg => reference.evaluate room arg scope depth := by
        apply List.map_congr_left
        intro arg harg
        exact ih arg (h.argument harg)
      simp only [evaluate, ih name h.callee, hargs]
      congr 1
      exact answer_scope hmagic ⟨_, _, scope, reference.page⟩ other depth _

end Reference

/-- A tree is flattened alike in scopes that it reads alike. -/
theorem flatten_eq_of_readsAlike {setting : Setting} (hmagic : setting.magic.IgnoresScope)
    {node : Node} {scope other : Arguments} (h : node.ReadsAlike scope other) (room depth : Nat)
    (run : Run) :
    flatten setting room node other depth run = flatten setting room node scope depth run := by
  rw [flatten_eq_evaluate setting _ room node other depth run rfl,
    flatten_eq_evaluate setting _ room node scope depth run rfl,
    Reference.evaluate_eq_of_scopes hmagic room node depth h]

/-- **Scopes do not leak**, the evaluators not reading them: where the placeholders of a tree are
    named by plain texts, two scopes that bind these names alike give the same text and leave the
    same run, whatever else they bind, and whatever the bodies look up that the tree calls.

    So a call without placeholders in its name and arguments is the same in every scope. -/
theorem flatten_eq_of_scopes (setting : Setting) (hmagic : setting.magic.IgnoresScope) :
    (∀ (node : Node) (scope other : Arguments),
      (∀ name ∈ node.placeholderNames, ∃ source, name = .text source) →
      (∀ source, .text source ∈ node.placeholderNames →
        other.get? (Text.trim source) = scope.get? (Text.trim source)) →
      ∀ room depth run,
        flatten setting room node other depth run = flatten setting room node scope depth run) ∧
    ∀ (name : Node) (args : List Node),
      (∀ inner, inner ∉ name.placeholderNames) →
      (∀ arg ∈ args, ∀ inner, inner ∉ arg.placeholderNames) →
      ∀ scope other room depth run,
        flatten setting room (.invocation name args) other depth run =
          flatten setting room (.invocation name args) scope depth run := by
  constructor
  · intro node scope other hnames hscopes room depth run
    apply flatten_eq_of_readsAlike hmagic
    intro name hname
    obtain ⟨source, rfl⟩ := hnames name hname
    exact ⟨source, rfl, hscopes source hname⟩
  · intro name args hname hargs scope other room depth run
    apply flatten_eq_of_readsAlike hmagic
    intro inner hinner
    rw [Node.placeholderNames, List.mem_append, Node.mem_placeholderNamesAll] at hinner
    rcases hinner with hinner | ⟨arg, harg, hinner⟩
    · exact absurd hinner (hname inner)
    · exact absurd hinner (hargs arg harg inner)

/-- A template that looks up the parameter `x` and its first argument, and an evaluator that shows
    the arguments of the call. -/
def lookupSetting : Setting where
  page := ""
  source := (PageTable.empty.insert "t"
    "(\x7b\x7b\x7bx|-\x7d\x7d\x7d\x7b\x7b\x7b1\x7d\x7d\x7d)").toSource
  magic := .register .empty "m" fun call => some (String.join call.args.raw)
  limits := {}

/-- The parameter `a` is handed to the template and to the evaluator. -/
def handedOver : Node :=
  .plain [.invocation (.text "t") [.placeholder (.text " a ") none],
    .invocation (.text "m") [.placeholder (.text "a") (some (.placeholder (.text "b") none))]]

/-- Two scopes bind `a` alike and `b` not at all, and differ in `x`, which the template looks up. -/
theorem flatten_eq_of_scopes_handedOver :
    let scope := Arguments.bind ["a=1", "x=2"]
    let other := Arguments.bind ["x=3", "y=4", "a=1"]
    let run : Run := ⟨.empty, #[]⟩
    lookupSetting.magic.IgnoresScope ∧
    (∀ name ∈ handedOver.placeholderNames, ∃ source, name = .text source) ∧
    (∀ source, .text source ∈ handedOver.placeholderNames →
      other.get? (Text.trim source) = scope.get? (Text.trim source)) ∧
    (flatten lookupSetting 500 handedOver scope 0 run).1 = "(-1)1" ∧
    flatten lookupSetting 500 handedOver other 0 run =
      flatten lookupSetting 500 handedOver scope 0 run := by
  intro scope other run
  have hmagic : lookupSetting.magic.IgnoresScope :=
    .register .empty "m" fun call scope => rfl
  have hnames : handedOver.placeholderNames = [.text " a ", .text "a", .text "b"] := by decide +kernel
  have hwritten : ∀ name ∈ handedOver.placeholderNames, ∃ source, name = .text source := by
    rw [hnames]
    simp
  have hscopes : ∀ source, .text source ∈ handedOver.placeholderNames →
      other.get? (Text.trim source) = scope.get? (Text.trim source) := by
    rw [hnames]
    intro source hsource
    simp only [List.mem_cons, Node.text.injEq, List.not_mem_nil, or_false] at hsource
    rcases hsource with rfl | rfl | rfl
    · decide +kernel
    · decide +kernel
    · decide +kernel
  exact ⟨hmagic, hwritten, hscopes, by decide +kernel,
    (flatten_eq_of_scopes lookupSetting hmagic).1 handedOver scope other hwritten hscopes 500 0 run⟩

end Transclusion
