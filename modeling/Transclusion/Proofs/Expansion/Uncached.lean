/-
  Expansion without a cache.

  `Reference.evaluate` expands a tree when every name stands for one body: it keeps no state, so
  the expansion of a node depends on nothing but the node, its scope and how deep it stands.  With
  `Source.body` for the bodies it asks the source, guards the start of the text and parses it anew
  at every call.

  An expansion lists the names that were called for, in order.  They are what the cache gets to see:
  `flatten_eq_evaluate` says that flattening returns the text of the expansion and leaves the run
  with its problems added and its names resolved.  It holds for whatever the cache has kept, the
  bodies being those of the cache and the source together.

  Main statement, `Expander.expand_eq_evaluate`: however often a page was expanded before, expanding
  it gives the text and the problems of the evaluation without a cache.
-/
import Transclusion.Expander
import Transclusion.Proofs.Expansion.Bodies

namespace Transclusion

/-! ## Expansions -/

/-- What a piece of a page comes to. -/
structure Expansion where
  text : String
  /-- The problems met, in order. -/
  problems : List Diagnostic
  /-- The names whose bodies were called for, in order. -/
  calls : List String

namespace Expansion

/-- A text, and nothing else. -/
def ofText (text : String) : Expansion := ⟨text, [], []⟩

/-- A problem in the place of a text. -/
def ofProblem (problem : Diagnostic) : Expansion := ⟨"", [problem], []⟩

/-- A body is called for. -/
def ofCall (name : String) : Expansion := ⟨"", [], [name]⟩

/-- Two expansions, one after the other, of which the second has the text. -/
def before (first second : Expansion) : Expansion :=
  ⟨second.text, first.problems ++ second.problems, first.calls ++ second.calls⟩

/-- Expansions one after another, their texts joined. -/
def join (expansions : List Expansion) : Expansion where
  text := String.join (expansions.map text)
  problems := expansions.flatMap problems
  calls := expansions.flatMap calls

end Expansion

/-! ## Evaluation -/

/-- What an evaluation refers to: each name stands for one body, or for none. -/
structure Reference where
  page : String
  magic : MagicRegistry
  limits : Limits
  body : String → Option Node

namespace Reference

/-- The expansion of a call whose name and arguments are evaluated, `depth` bodies being open: what
    an evaluator answers, or else what `enter` makes of the body. -/
def answer (reference : Reference) (call : MagicCall) (depth : Nat) (enter : Node → Expansion) :
    Expansion :=
  match reference.magic.evaluate call with
  | some answer => .ofText answer
  | none =>
    if reference.limits.maxDepth ≤ depth then
      .ofProblem (.tooDeep call.name reference.limits.maxDepth)
    else
      match reference.body call.name with
      | some body => (Expansion.ofCall call.name).before (enter body)
      | none => (Expansion.ofCall call.name).before (.ofProblem (.missingTemplate call.name))

/-- The expansion of a node in a scope, `depth` bodies being open and `room` more nodes allowed. -/
def evaluate (reference : Reference) (room : Nat) (node : Node) (scope : Arguments) (depth : Nat) :
    Expansion :=
  match room, node with
  | _, .text source => .ofText source
  | 0, _ => .ofProblem (.nestingTooDeep reference.limits.maxNesting)
  | room + 1, .plain children =>
    .join (children.map fun child => reference.evaluate room child scope depth)
  | room + 1, .placeholder name default =>
    let name := reference.evaluate room name scope depth
    name.before <|
      match scope.get? (Text.trim name.text), default with
      | some value, _ => .ofText value
      | none, some default => reference.evaluate room default scope depth
      | none, none => .ofText ""
  | room + 1, .invocation name args =>
    let name := reference.evaluate room name scope depth
    let args := args.map fun arg => reference.evaluate room arg scope depth
    let bound := Arguments.bind (args.map Expansion.text)
    (name.before (.join args)).before <|
      reference.answer ⟨Text.trim name.text, bound, scope, reference.page⟩ depth fun body =>
        reference.evaluate room body bound (depth + 1)

/-- The expansion of a page: no scope, and no body open. -/
def expand (reference : Reference) (text : String) : Expansion :=
  reference.evaluate reference.limits.maxNesting (Node.parse text) .empty 0

end Reference

/-- A setting with a body for each name in the place of its source. -/
def Setting.reference (setting : Setting) (body : String → Option Node) : Reference :=
  ⟨setting.page, setting.magic, setting.limits, body⟩

/-! ## What an expansion does to a run -/

/-- The run after an expansion: its names are resolved and its problems added. -/
def Run.record (run : Run) (source : Source) (expansion : Expansion) : Run where
  cache := run.cache.resolveAll source expansion.calls
  diagnostics := run.diagnostics ++ expansion.problems.toArray

/-- The text of an expansion, and the run after it. -/
def Run.yield (run : Run) (source : Source) (expansion : Expansion) : String × Run :=
  (expansion.text, run.record source expansion)

namespace Run

variable (run : Run) (source : Source)

@[simp] theorem yield_ofText (text : String) : run.yield source (.ofText text) = (text, run) := by
  obtain ⟨cache, diagnostics⟩ := run
  simp [yield, record, Expansion.ofText, Cache.resolveAll]

@[simp] theorem yield_ofProblem (problem : Diagnostic) :
    run.yield source (.ofProblem problem) = ("", run.report problem) := by
  simp [yield, record, Expansion.ofProblem, Cache.resolveAll, report]

theorem record_ofCall (name : String) :
    run.record source (.ofCall name) = (run.resolve source name).2 := by
  simp [record, Expansion.ofCall, Cache.resolveAll, resolve]

theorem record_before (first second : Expansion) :
    run.record source (first.before second) = (run.record source first).record source second := by
  simp [record, Expansion.before, Cache.resolveAll_append]

theorem yield_before (first second : Expansion) :
    run.yield source (first.before second) = (run.record source first).yield source second := by
  rw [yield, record_before]
  rfl

theorem record_join_cons (expansion : Expansion) (later : List Expansion) :
    run.record source (.join (expansion :: later)) =
      (run.record source expansion).record source (.join later) := by
  simp [record, Expansion.join, Cache.resolveAll_append]

/-- No expansion changes what a name stands for. -/
theorem body_record {body : String → Option Node} (h : run.cache.body source = body)
    (expansion : Expansion) : (run.record source expansion).cache.body source = body :=
  (run.cache.body_resolveAll source expansion.calls).trans h

end Run

/-! ## Flattening is evaluation -/

/-- Nodes in turn, when each of them alone has an expansion. -/
theorem inTurn_eq_join {source : Source} {body : String → Option Node}
    {flattenNode : Node → Run → String × Run} {evaluateNode : Node → Expansion}
    (hnode : ∀ node run, run.cache.body source = body →
      flattenNode node run = run.yield source (evaluateNode node))
    (done : List String) (nodes : List Node) (run : Run) (hrun : run.cache.body source = body) :
    inTurn flattenNode done nodes run =
      (done.reverse ++ (nodes.map evaluateNode).map Expansion.text,
        run.record source (.join (nodes.map evaluateNode))) := by
  induction nodes generalizing done run with
  | nil =>
    obtain ⟨cache, diagnostics⟩ := run
    simp [inTurn, Run.record, Expansion.join, Cache.resolveAll]
  | cons node later ih =>
    rw [inTurn, hnode node run hrun]
    show inTurn flattenNode ((evaluateNode node).text :: done) later _ = _
    rw [ih _ _ (run.body_record source hrun _), List.map_cons, Run.record_join_cons]
    simp

/-- A resolution returns what the name stands for, and counts as a call for it. -/
theorem Run.resolve_eq (run : Run) (source : Source) (name : String) :
    run.resolve source name = (run.cache.body source name, run.record source (.ofCall name)) := by
  rw [record_ofCall, ← Cache.resolve_fst]
  rfl

/-- A call is answered alike, when entering a body is. -/
theorem yield_answer (setting : Setting) {body : String → Option Node}
    {enter : Node → Run → String × Run} {evaluateBody : Node → Expansion}
    (henter : ∀ node run, run.cache.body setting.source = body →
      enter node run = run.yield setting.source (evaluateBody node))
    (call : MagicCall) (depth : Nat) (run : Run) (hrun : run.cache.body setting.source = body) :
    (match setting.magic.evaluate call with
      | some answer => (answer, run)
      | none =>
        if setting.limits.maxDepth ≤ depth then
          ("", run.report (.tooDeep call.name setting.limits.maxDepth))
        else
          match run.resolve setting.source call.name with
          | (some body, run) => enter body run
          | (none, run) => ("", run.report (.missingTemplate call.name))) =
      run.yield setting.source ((setting.reference body).answer call depth evaluateBody) := by
  have hafter := run.body_record setting.source hrun (.ofCall call.name)
  rw [Run.resolve_eq, hrun]
  show _ = run.yield setting.source
    (match setting.magic.evaluate call with
      | some answer => .ofText answer
      | none =>
        if setting.limits.maxDepth ≤ depth then
          .ofProblem (.tooDeep call.name setting.limits.maxDepth)
        else
          match body call.name with
          | some body => (Expansion.ofCall call.name).before (evaluateBody body)
          | none => (Expansion.ofCall call.name).before (.ofProblem (.missingTemplate call.name)))
  cases setting.magic.evaluate call with
  | some answer => exact (run.yield_ofText setting.source answer).symm
  | none =>
    by_cases hdeep : setting.limits.maxDepth ≤ depth
    · simp only [if_pos hdeep, Run.yield_ofProblem]
    · simp only [if_neg hdeep]
      cases body call.name with
      | some node =>
        show enter node _ = _
        rw [henter node _ hafter, Run.yield_before]
      | none =>
        show ("", _) = _
        rw [Run.yield_before, Run.yield_ofProblem]

/-- **Flattening is evaluation**: where each name stands for what the cache and the source make of
    it, a node has the text of its expansion, and the run goes on with what the expansion did.

    The induction is on the room that is left.  What a name stands for is the invariant: it is the
    same in the run that each piece leaves for the next. -/
theorem flatten_eq_evaluate (setting : Setting) (body : String → Option Node) (room : Nat)
    (node : Node) (scope : Arguments) (depth : Nat) (run : Run)
    (hrun : run.cache.body setting.source = body) :
    flatten setting room node scope depth run =
      run.yield setting.source ((setting.reference body).evaluate room node scope depth) := by
  induction room generalizing node scope depth run with
  | zero =>
    cases node with
    | text source =>
      rw [flatten, Reference.evaluate, Run.yield_ofText]
    | plain children =>
      simp only [flatten, Reference.evaluate, Run.yield_ofProblem]
      rfl
    | placeholder name default =>
      simp only [flatten, Reference.evaluate, Run.yield_ofProblem]
      rfl
    | invocation name args =>
      simp only [flatten, Reference.evaluate, Run.yield_ofProblem]
      rfl
  | succ room ih =>
    cases node with
    | text source =>
      rw [flatten, Reference.evaluate, Run.yield_ofText]
    | plain children =>
      rw [flatten, inTurn_eq_join (fun child run hrun => ih child scope depth run hrun) [] children
        run hrun, Reference.evaluate]
      rfl
    | placeholder name default =>
      have hname := ih name scope depth run hrun
      have hafter := run.body_record setting.source hrun
      rw [Run.yield] at hname
      simp only [flatten, hname, Reference.evaluate, Run.yield_before]
      cases scope.get?
          (Text.trim ((setting.reference body).evaluate room name scope depth).text) with
      | some value => exact (Run.yield_ofText _ _ value).symm
      | none =>
        cases default with
        | some default => exact ih default scope depth _ (hafter _)
        | none => exact (Run.yield_ofText _ _ "").symm
    | invocation name args =>
      -- the arguments go on from the run that the name left, and the body from theirs
      have hname := ih name scope depth run hrun
      have hafter := run.body_record setting.source hrun
      have hargs := inTurn_eq_join (fun arg run hrun => ih arg scope depth run hrun) [] args _
        (hafter ((setting.reference body).evaluate room name scope depth))
      rw [Run.yield] at hname
      simp only [flatten, hname, hargs, Reference.evaluate, Run.yield_before, Run.record_before]
      exact yield_answer setting
        (fun node run hrun => ih node _ (depth + 1) run hrun) ⟨_, _, scope, setting.page⟩ depth _
        (Run.body_record _ setting.source (hafter _) _)

/-! ## Expanding a page -/

namespace Expander

/-- **One expansion**: the page has the text of its expansion, the problems of it are those of the
    expander, and the names of it are resolved. -/
theorem expand_eq (expander : Expander) {body : String → Option Node}
    (hbody : expander.cache.body expander.setting.source = body) :
    let expansion := (expander.setting.reference body).evaluate expander.setting.limits.maxNesting
      expander.tree .empty 0
    expander.expand = (expansion.text, { expander with
      cache := expander.cache.resolveAll expander.setting.source expansion.calls
      diagnostics := expansion.problems.toArray }) := by
  have hflatten := flatten_eq_evaluate expander.setting body expander.setting.limits.maxNesting
    expander.tree .empty 0 ⟨expander.cache, #[]⟩ hbody
  intro expansion
  rw [expand, hflatten]
  simp [Run.yield, Run.record, expansion]

/-- What the page of an expander comes to, with the bodies that its cache has kept and those of its
    source. -/
def expansion (expander : Expander) : Expansion :=
  (expander.setting.reference (expander.cache.body expander.setting.source)).evaluate
    expander.setting.limits.maxNesting expander.tree .empty 0

section expand

variable (expander : Expander)

theorem text_expand : expander.expand.1 = expander.expansion.text := by
  rw [expand_eq expander rfl]
  rfl

theorem diagnostics_expand :
    expander.expand.2.diagnostics = expander.expansion.problems.toArray := by
  rw [expand_eq expander rfl]
  rfl

theorem cache_expand : expander.expand.2.cache =
    expander.cache.resolveAll expander.setting.source expander.expansion.calls := by
  rw [expand_eq expander rfl]
  rfl

end expand

/-- The expander after expanding its page some times. -/
def again (expander : Expander) (times : Nat) : Expander :=
  Nat.repeat (fun expander => expander.expand.2) times expander

/-- Expanding a page changes neither the page nor its setting, nor what a name stands for. -/
theorem again_spec (expander : Expander) (times : Nat) :
    (expander.again times).tree = expander.tree ∧
      (expander.again times).setting = expander.setting ∧
      (expander.again times).cache.body expander.setting.source =
        expander.cache.body expander.setting.source := by
  induction times with
  | zero => exact ⟨rfl, rfl, rfl⟩
  | succ times ih =>
    obtain ⟨htree, hsetting, hbody⟩ := ih
    have hexpand := expand_eq (expander.again times) rfl
    refine ⟨htree, hsetting, ?_⟩
    show (expander.again times).expand.2.cache.body expander.setting.source = _
    rw [hexpand, hsetting]
    exact (Cache.body_resolveAll _ _ _).trans hbody

/-- However often a page was expanded before, it comes to what it came to at first. -/
theorem expansion_again (expander : Expander) (times : Nat) :
    (expander.again times).expansion = expander.expansion := by
  obtain ⟨htree, hsetting, hbody⟩ := expander.again_spec times
  rw [expansion, htree, hsetting, hbody]
  rfl

/-- **Caching is invisible**: a page expands to the same text with the same problems in the same
    order as without a cache, however often it was expanded before. -/
theorem expand_eq_evaluate (text : String) (setting : Setting) (times : Nat) :
    let expanded := ((ofPage text setting).again times).expand
    let expansion := (setting.reference setting.source.body).expand text
    expanded.1 = expansion.text ∧ expanded.2.diagnostics.toList = expansion.problems := by
  intro expanded expansion
  obtain ⟨htree, hsetting, hbody⟩ := again_spec (ofPage text setting) times
  have hsource : ((ofPage text setting).again times).cache.body
      ((ofPage text setting).again times).setting.source = setting.source.body := by
    rw [hsetting]
    exact hbody.trans (Cache.body_empty setting.source)
  have hexpand := expand_eq _ hsource
  rw [hsetting, htree] at hexpand
  constructor
  · show ((ofPage text setting).again times).expand.1 = expansion.text
    rw [hexpand]
    rfl
  · show ((ofPage text setting).again times).expand.2.diagnostics.toList = expansion.problems
    rw [hexpand]
    rfl

end Expander

end Transclusion
