/-
  The counters of an expansion.

  `flatten` is told how much room is left, and recurs on it.  An evaluator may count instead: the
  number of open nodes is a part of its state, which goes up on the way into a node and down on the
  way out, and is compared with the limit; the number of open bodies is handed down.  `Flattens`
  gives this evaluator by its rules.  Nothing in them says that it ends, or that the two ways match.

  A counter holds numbers up to `top`.  A rule that raises a counter asks for room in it, and the
  way out of a node for a number above zero, so where a counter runs over there is no outcome.

  `Activation.Calls` relates an activation of the evaluator to those that it starts directly, each
  in the state that the ones before it left.

  * `Flattens.flatten_eq`, with its companions: the counter is back where it was, and the outcome is
    that of `flatten`.  The induction is on the rules.
  * `Setting.returnsAt`: there is an outcome, by induction on the room.
  * `Activation.Calls.counters`: what starting an activation does to both counters, from which it
    follows that they stay within their limits and that the recursion comes to an end.

  Main statement, `Activation.within_limits`: the recursion is well founded, each node is flattened
  and leaves the counter as it was, and no activation that is reached is over a limit.
-/
import Mathlib.Logic.Relation
import Transclusion.Flatten

namespace Transclusion

/-! ## Flattening by rules -/

/-- What an expansion changes as it goes: the run, and the number of open nodes. -/
structure Counted where
  run : Run
  nesting : Nat

/-- From the state in front of a node to the one inside: neither the limit nor the counter is at its
    end, and the counter goes up. -/
structure Counted.Opens (setting : Setting) (top : Nat) (before inside : Counted) : Prop where
  room : before.nesting < setting.limits.maxNesting
  count : before.nesting < top
  inside_eq : inside = ⟨before.run, before.nesting + 1⟩

/-- From the state inside a node, at its end, to the one behind it: the counter goes down. -/
def Counted.Closes (inside after : Counted) : Prop :=
  inside = ⟨after.run, after.nesting + 1⟩

/-- A call as an evaluator sees it, its name and arguments being flattened. -/
def Setting.call (setting : Setting) (name : String) (args : List String) (scope : Arguments) :
    MagicCall :=
  ⟨Text.trim name, Arguments.bind args, scope, setting.page⟩

mutual

/-- A node is flattened in a scope, `depth` bodies being open: from the state `before` with this
    text to the state `after`. -/
inductive Flattens (setting : Setting) (top : Nat) :
    (node : Node) → (scope : Arguments) → (depth : Nat) → (before : Counted) → (text : String) →
    (after : Counted) → Prop where
  | text {source : String} {scope : Arguments} {depth : Nat} {state : Counted} :
      Flattens setting top (.text source) scope depth state source state
  /-- At the limit a node is not opened. -/
  | cut {node : Node} {scope : Arguments} {depth : Nat} {state : Counted}
      (hnode : ∀ source, node ≠ .text source)
      (hfull : setting.limits.maxNesting ≤ state.nesting) :
      Flattens setting top node scope depth state ""
        ⟨state.run.report (.nestingTooDeep setting.limits.maxNesting), state.nesting⟩
  /-- Below the limit the counter goes up, and down again behind the node. -/
  | opened {node : Node} {scope : Arguments} {depth : Nat} {before inside done after : Counted}
      {text : String} (hopen : before.Opens setting top inside)
      (h : FlattensInside setting top node scope depth inside text done)
      (hclose : done.Closes after) :
      Flattens setting top node scope depth before text after

/-- Nodes are flattened one after another. -/
inductive FlattensAll (setting : Setting) (top : Nat) :
    (nodes : List Node) → (scope : Arguments) → (depth : Nat) → (before : Counted) →
    (texts : List String) → (after : Counted) → Prop where
  | nil {scope : Arguments} {depth : Nat} {state : Counted} :
      FlattensAll setting top [] scope depth state [] state
  | cons {node : Node} {later : List Node} {scope : Arguments} {depth : Nat}
      {before between after : Counted} {text : String} {texts : List String}
      (h : Flattens setting top node scope depth before text between)
      (hl : FlattensAll setting top later scope depth between texts after) :
      FlattensAll setting top (node :: later) scope depth before (text :: texts) after

/-- What is inside a node is flattened, the node being open. -/
inductive FlattensInside (setting : Setting) (top : Nat) :
    (node : Node) → (scope : Arguments) → (depth : Nat) → (before : Counted) → (text : String) →
    (after : Counted) → Prop where
  | plain {children : List Node} {scope : Arguments} {depth : Nat} {before after : Counted}
      {texts : List String} (h : FlattensAll setting top children scope depth before texts after) :
      FlattensInside setting top (.plain children) scope depth before (String.join texts) after
  /-- A parameter that is bound stands for its value. -/
  | value {name : Node} {default : Option Node} {scope : Arguments} {depth : Nat}
      {before after : Counted} {text value : String}
      (hname : Flattens setting top name scope depth before text after)
      (hvalue : scope.get? (Text.trim text) = some value) :
      FlattensInside setting top (.placeholder name default) scope depth before value after
  /-- One that is not bound stands for its default. -/
  | fallback {name default : Node} {scope : Arguments} {depth : Nat}
      {before between after : Counted} {text other : String}
      (hname : Flattens setting top name scope depth before text between)
      (hunbound : scope.get? (Text.trim text) = none)
      (h : Flattens setting top default scope depth between other after) :
      FlattensInside setting top (.placeholder name (some default)) scope depth before other after
  /-- Without a default it stands for nothing. -/
  | unbound {name : Node} {scope : Arguments} {depth : Nat} {before after : Counted}
      {text : String} (hname : Flattens setting top name scope depth before text after)
      (hunbound : scope.get? (Text.trim text) = none) :
      FlattensInside setting top (.placeholder name none) scope depth before "" after
  /-- A call is answered when its name and its arguments are flattened. -/
  | invocation {name : Node} {args : List Node} {scope : Arguments} {depth : Nat}
      {before between front after : Counted} {text answer : String} {texts : List String}
      (hname : Flattens setting top name scope depth before text between)
      (hargs : FlattensAll setting top args scope depth between texts front)
      (h : Answers setting top (setting.call text texts scope) depth front answer after) :
      FlattensInside setting top (.invocation name args) scope depth before answer after

/-- A call is answered. -/
inductive Answers (setting : Setting) (top : Nat) :
    (call : MagicCall) → (depth : Nat) → (before : Counted) → (text : String) →
    (after : Counted) → Prop where
  | magic {call : MagicCall} {depth : Nat} {state : Counted} {answer : String}
      (hanswer : setting.magic.evaluate call = some answer) :
      Answers setting top call depth state answer state
  /-- At the limit a body is not entered. -/
  | tooDeep {call : MagicCall} {depth : Nat} {state : Counted}
      (hdeclined : setting.magic.evaluate call = none)
      (hdeep : setting.limits.maxDepth ≤ depth) :
      Answers setting top call depth state ""
        ⟨state.run.report (.tooDeep call.name setting.limits.maxDepth), state.nesting⟩
  /-- The counter of bodies is raised before it is known that there is none. -/
  | missing {call : MagicCall} {depth nesting : Nat} {before after : Run}
      (hdeclined : setting.magic.evaluate call = none) (hroom : depth < setting.limits.maxDepth)
      (hcount : depth < top)
      (hresolve : before.resolve setting.source call.name = (none, after)) :
      Answers setting top call depth ⟨before, nesting⟩ ""
        ⟨after.report (.missingTemplate call.name), nesting⟩
  /-- A body is flattened in the scope of the arguments. -/
  | body {call : MagicCall} {depth nesting : Nat} {before resolved : Run} {after : Counted}
      {body : Node} {text : String}
      (hdeclined : setting.magic.evaluate call = none) (hroom : depth < setting.limits.maxDepth)
      (hcount : depth < top)
      (hresolve : before.resolve setting.source call.name = (some body, resolved))
      (h : Flattens setting top body call.args (depth + 1) ⟨resolved, nesting⟩ text after) :
      Answers setting top call depth ⟨before, nesting⟩ text after

end

/-! ## The outcome of the rules is that of `flatten` -/

section inTurn

variable (flattenNode : Node → Run → String × Run)

/-- The texts that are done stand in front. -/
theorem inTurn_eq_append (done : List String) (nodes : List Node) (run : Run) :
    inTurn flattenNode done nodes run =
      (done.reverse ++ (inTurn flattenNode [] nodes run).1, (inTurn flattenNode [] nodes run).2) := by
  induction nodes generalizing done run with
  | nil => simp [inTurn]
  | cons node later ih =>
    rcases hnode : flattenNode node run with ⟨text, next⟩
    simp only [inTurn, hnode]
    rw [ih (text :: done), ih [text]]
    simp

theorem inTurn_cons {node : Node} {run next after : Run} {text : String} {later : List Node}
    {texts : List String} (h : flattenNode node run = (text, next))
    (hl : inTurn flattenNode [] later next = (texts, after)) :
    inTurn flattenNode [] (node :: later) run = (text :: texts, after) := by
  rw [inTurn, h]
  show inTurn flattenNode [text] later next = _
  rw [inTurn_eq_append, hl]
  rfl

end inTurn

/-- The answer to a call, as `flatten` gives it. -/
def Setting.answer (setting : Setting) (room : Nat) (call : MagicCall) (depth : Nat) (run : Run) :
    String × Run :=
  match setting.magic.evaluate call with
  | some answer => (answer, run)
  | none =>
    if setting.limits.maxDepth ≤ depth then
      ("", run.report (.tooDeep call.name setting.limits.maxDepth))
    else
      match run.resolve setting.source call.name with
      | (some body, run) => flatten setting room body call.args (depth + 1) run
      | (none, run) => ("", run.report (.missingTemplate call.name))

/-- A call is answered in the run that its name and its arguments leave. -/
theorem flatten_invocation {setting : Setting} {room depth : Nat} {name : Node} {args : List Node}
    {scope : Arguments} {run between front : Run} {text : String} {texts : List String}
    (hname : flatten setting room name scope depth run = (text, between))
    (hargs : inTurn (fun arg run => flatten setting room arg scope depth run) [] args between =
      (texts, front)) :
    flatten setting (room + 1) (.invocation name args) scope depth run =
      setting.answer room (setting.call text texts scope) depth front := by
  simp only [flatten, hname, hargs]
  rfl

/-- Without room a node that is not a text is cut off. -/
theorem flatten_zero {setting : Setting} {node : Node} (hnode : ∀ source, node ≠ .text source)
    (scope : Arguments) (depth : Nat) (run : Run) :
    flatten setting 0 node scope depth run =
      ("", run.report (.nestingTooDeep setting.limits.maxNesting)) := by
  cases node with
  | text source => exact absurd rfl (hnode source)
  | plain children => simp only [flatten]
  | placeholder name default => simp only [flatten]
  | invocation name args => simp only [flatten]

mutual

/-- **The counter is back where it was**, and the outcome is that of `flatten` with the room that
    the counter leaves. -/
theorem Flattens.flatten_eq {setting : Setting} {top : Nat} {node : Node} {scope : Arguments}
    {depth : Nat} {before after : Counted} {text : String}
    (h : Flattens setting top node scope depth before text after) :
    after.nesting = before.nesting ∧
      flatten setting (setting.limits.maxNesting - before.nesting) node scope depth before.run =
        (text, after.run) := by
  match h with
  | .text =>
    refine ⟨rfl, ?_⟩
    simp only [flatten]
  | .cut hnode hfull =>
    refine ⟨rfl, ?_⟩
    rw [Nat.sub_eq_zero_of_le hfull, flatten_zero hnode]
  | .opened hopen h hclose =>
    obtain ⟨hnesting, hflatten⟩ := h.flatten_eq
    obtain ⟨hroom, -, rfl⟩ := hopen
    obtain rfl := hclose
    have hleft : setting.limits.maxNesting - (before.nesting + 1) + 1 =
        setting.limits.maxNesting - before.nesting := by
      omega
    rw [hleft] at hflatten
    exact ⟨Nat.succ.inj hnesting, hflatten⟩

theorem FlattensAll.inTurn_eq {setting : Setting} {top : Nat} {nodes : List Node}
    {scope : Arguments} {depth : Nat} {before after : Counted} {texts : List String}
    (h : FlattensAll setting top nodes scope depth before texts after) :
    after.nesting = before.nesting ∧
      inTurn (fun node run => flatten setting (setting.limits.maxNesting - before.nesting) node
        scope depth run) [] nodes before.run = (texts, after.run) := by
  match h with
  | .nil => exact ⟨rfl, rfl⟩
  | .cons h hl =>
    obtain ⟨hnesting, hflatten⟩ := h.flatten_eq
    obtain ⟨hlater, hturn⟩ := hl.inTurn_eq
    rw [hnesting] at hturn
    exact ⟨hlater.trans hnesting, inTurn_cons _ hflatten hturn⟩

theorem FlattensInside.flatten_eq {setting : Setting} {top : Nat} {node : Node} {scope : Arguments}
    {depth : Nat} {before after : Counted} {text : String}
    (h : FlattensInside setting top node scope depth before text after) :
    after.nesting = before.nesting ∧
      flatten setting (setting.limits.maxNesting - before.nesting + 1) node scope depth
        before.run = (text, after.run) := by
  match h with
  | .plain h =>
    obtain ⟨hnesting, hturn⟩ := h.inTurn_eq
    refine ⟨hnesting, ?_⟩
    simp only [flatten, hturn]
  | .value hname hvalue =>
    obtain ⟨hnesting, hflatten⟩ := hname.flatten_eq
    refine ⟨hnesting, ?_⟩
    simp only [flatten, hflatten, hvalue]
  | .fallback hname hunbound h =>
    obtain ⟨hnesting, hflatten⟩ := hname.flatten_eq
    obtain ⟨hdefault, hother⟩ := h.flatten_eq
    rw [hnesting] at hother
    refine ⟨hdefault.trans hnesting, ?_⟩
    simp only [flatten, hflatten, hunbound, hother]
  | .unbound hname hunbound =>
    obtain ⟨hnesting, hflatten⟩ := hname.flatten_eq
    refine ⟨hnesting, ?_⟩
    simp only [flatten, hflatten, hunbound]
  | .invocation hname hargs h =>
    obtain ⟨hnesting, hflatten⟩ := hname.flatten_eq
    obtain ⟨hfront, hturn⟩ := hargs.inTurn_eq
    obtain ⟨hafter, hanswer⟩ := h.answer_eq
    rw [hfront, hnesting] at hanswer
    rw [hnesting] at hturn
    refine ⟨hafter.trans (hfront.trans hnesting), ?_⟩
    rw [flatten_invocation hflatten hturn, hanswer]

theorem Answers.answer_eq {setting : Setting} {top : Nat} {call : MagicCall} {depth : Nat}
    {before after : Counted} {text : String}
    (h : Answers setting top call depth before text after) :
    after.nesting = before.nesting ∧
      setting.answer (setting.limits.maxNesting - before.nesting) call depth before.run =
        (text, after.run) := by
  match h with
  | .magic hanswer =>
    refine ⟨rfl, ?_⟩
    simp only [Setting.answer, hanswer]
  | .tooDeep hdeclined hdeep =>
    refine ⟨rfl, ?_⟩
    simp only [Setting.answer, hdeclined, if_pos hdeep]
  | .missing hdeclined hroom hcount hresolve =>
    refine ⟨rfl, ?_⟩
    simp only [Setting.answer, hdeclined, if_neg (Nat.not_le.2 hroom), hresolve]
  | .body hdeclined hroom hcount hresolve h =>
    obtain ⟨hnesting, hflatten⟩ := h.flatten_eq
    refine ⟨hnesting, ?_⟩
    simp only [Setting.answer, hdeclined, if_neg (Nat.not_le.2 hroom), hresolve]
    exact hflatten

end

/-! ## There is an outcome -/

/-- From a state with this many open nodes, every node is flattened to an outcome. -/
def Setting.ReturnsAt (setting : Setting) (top nesting : Nat) : Prop :=
  ∀ node scope depth run, ∃ text after,
    Flattens setting top node scope depth ⟨run, nesting⟩ text ⟨after, nesting⟩

section outcome

variable {setting : Setting} {top nesting : Nat}

theorem Setting.ReturnsAt.exists_flattensAll (hreturns : setting.ReturnsAt top nesting)
    (nodes : List Node) (scope : Arguments) (depth : Nat) (run : Run) : ∃ texts after,
      FlattensAll setting top nodes scope depth ⟨run, nesting⟩ texts ⟨after, nesting⟩ := by
  induction nodes generalizing run with
  | nil => exact ⟨[], run, .nil⟩
  | cons node later ih =>
    obtain ⟨text, between, h⟩ := hreturns node scope depth run
    obtain ⟨texts, after, hl⟩ := ih between
    exact ⟨text :: texts, after, .cons h hl⟩

/-- A body is flattened with as many open nodes as the call: that it has an outcome is the
    hypothesis again, and nothing has to be known of the source. -/
theorem Setting.ReturnsAt.exists_answers (hreturns : setting.ReturnsAt top nesting)
    (htop : setting.limits.maxDepth ≤ top) (call : MagicCall) (depth : Nat) (run : Run) :
    ∃ text after, Answers setting top call depth ⟨run, nesting⟩ text ⟨after, nesting⟩ := by
  rcases hmagic : setting.magic.evaluate call with _ | answer
  · rcases Nat.lt_or_ge depth setting.limits.maxDepth with hroom | hdeep
    · have hcount : depth < top := Nat.lt_of_lt_of_le hroom htop
      rcases hresolve : run.resolve setting.source call.name with ⟨_ | body, resolved⟩
      · exact ⟨"", _, .missing hmagic hroom hcount hresolve⟩
      · obtain ⟨text, after, h⟩ := hreturns body call.args (depth + 1) resolved
        exact ⟨text, after, .body hmagic hroom hcount hresolve h⟩
    · exact ⟨"", _, .tooDeep hmagic hdeep⟩
  · exact ⟨answer, run, .magic hmagic⟩

theorem Setting.ReturnsAt.exists_flattensInside (hreturns : setting.ReturnsAt top nesting)
    (htop : setting.limits.maxDepth ≤ top) {node : Node} (hnode : ∀ source, node ≠ .text source)
    (scope : Arguments) (depth : Nat) (run : Run) : ∃ text after,
      FlattensInside setting top node scope depth ⟨run, nesting⟩ text ⟨after, nesting⟩ := by
  cases node with
  | text source => exact absurd rfl (hnode source)
  | plain children =>
    obtain ⟨texts, after, h⟩ := hreturns.exists_flattensAll children scope depth run
    exact ⟨String.join texts, after, .plain h⟩
  | placeholder name default =>
    obtain ⟨text, between, hname⟩ := hreturns name scope depth run
    rcases hvalue : scope.get? (Text.trim text) with _ | value
    · rcases default with _ | default
      · exact ⟨"", between, .unbound hname hvalue⟩
      · obtain ⟨other, after, h⟩ := hreturns default scope depth between
        exact ⟨other, after, .fallback hname hvalue h⟩
    · exact ⟨value, between, .value hname hvalue⟩
  | invocation name args =>
    obtain ⟨text, between, hname⟩ := hreturns name scope depth run
    obtain ⟨texts, front, hargs⟩ := hreturns.exists_flattensAll args scope depth between
    obtain ⟨answer, after, h⟩ :=
      hreturns.exists_answers htop (setting.call text texts scope) depth front
    exact ⟨answer, after, .invocation hname hargs h⟩

/-- A text has an outcome anyway. -/
theorem Setting.ReturnsAt.of_not_text (h : ∀ node scope depth run,
    (∀ source, node ≠ .text source) → ∃ text after,
      Flattens setting top node scope depth ⟨run, nesting⟩ text ⟨after, nesting⟩) :
    setting.ReturnsAt top nesting := by
  intro node scope depth run
  by_cases htext : ∃ source, node = .text source
  · obtain ⟨source, rfl⟩ := htext
    exact ⟨source, run, .text⟩
  · exact h node scope depth run (not_exists.1 htext)

/-- **Every node has an outcome**, whatever the source answers: by induction on the room that the
    counter leaves. -/
theorem Setting.returnsAt (hdepth : setting.limits.maxDepth ≤ top)
    (hnesting : setting.limits.maxNesting ≤ top) (nesting : Nat) :
    setting.ReturnsAt top nesting := by
  induction hroom : setting.limits.maxNesting - nesting generalizing nesting with
  | zero =>
    have hfull : setting.limits.maxNesting ≤ nesting := Nat.le_of_sub_eq_zero hroom
    apply ReturnsAt.of_not_text
    intro node scope depth run hnode
    exact ⟨"", _, .cut hnode hfull⟩
  | succ room ih =>
    have hless : nesting < setting.limits.maxNesting := Nat.lt_of_sub_eq_succ hroom
    have hinside : setting.ReturnsAt top (nesting + 1) := ih (nesting + 1) (by omega)
    apply ReturnsAt.of_not_text
    intro node scope depth run hnode
    obtain ⟨text, after, h⟩ := hinside.exists_flattensInside hdepth hnode scope depth run
    have hopen : Counted.Opens setting top ⟨run, nesting⟩ ⟨run, nesting + 1⟩ :=
      ⟨hless, Nat.lt_of_lt_of_le hless hnesting, rfl⟩
    exact ⟨text, after, .opened hopen h rfl⟩

end outcome

/-! ## Activations -/

/-- An activation of the evaluator: at a node that is not opened yet, or inside one that is. -/
structure Activation where
  opened : Bool
  node : Node
  scope : Arguments
  depth : Nat
  state : Counted

namespace Activation

/-- An activation starts another one.  Those that it started before have returned, and left the
    state in which the new one starts. -/
inductive Calls (setting : Setting) (top : Nat) : (outer inner : Activation) → Prop where
  | inside {node : Node} {scope : Arguments} {depth : Nat} {before inside : Counted}
      (hnode : ∀ source, node ≠ .text source) (hopen : before.Opens setting top inside) :
      Calls setting top ⟨false, node, scope, depth, before⟩ ⟨true, node, scope, depth, inside⟩
  | child {earlier later : List Node} {child : Node} {scope : Arguments} {depth : Nat}
      {before between : Counted} {texts : List String}
      (hearlier : FlattensAll setting top earlier scope depth before texts between) :
      Calls setting top ⟨true, .plain (earlier ++ child :: later), scope, depth, before⟩
        ⟨false, child, scope, depth, between⟩
  | parameter {name : Node} {default : Option Node} {scope : Arguments} {depth : Nat}
      {before : Counted} :
      Calls setting top ⟨true, .placeholder name default, scope, depth, before⟩
        ⟨false, name, scope, depth, before⟩
  | fallback {name default : Node} {scope : Arguments} {depth : Nat} {before between : Counted}
      {text : String} (hname : Flattens setting top name scope depth before text between)
      (hunbound : scope.get? (Text.trim text) = none) :
      Calls setting top ⟨true, .placeholder name (some default), scope, depth, before⟩
        ⟨false, default, scope, depth, between⟩
  | callee {name : Node} {args : List Node} {scope : Arguments} {depth : Nat} {before : Counted} :
      Calls setting top ⟨true, .invocation name args, scope, depth, before⟩
        ⟨false, name, scope, depth, before⟩
  | argument {name arg : Node} {earlier later : List Node} {scope : Arguments} {depth : Nat}
      {before between front : Counted} {text : String} {texts : List String}
      (hname : Flattens setting top name scope depth before text between)
      (hearlier : FlattensAll setting top earlier scope depth between texts front) :
      Calls setting top ⟨true, .invocation name (earlier ++ arg :: later), scope, depth, before⟩
        ⟨false, arg, scope, depth, front⟩
  | body {name body : Node} {args : List Node} {scope : Arguments} {depth nesting : Nat}
      {before between : Counted} {front resolved : Run} {text : String} {texts : List String}
      (hname : Flattens setting top name scope depth before text between)
      (hargs : FlattensAll setting top args scope depth between texts ⟨front, nesting⟩)
      (hdeclined : setting.magic.evaluate (setting.call text texts scope) = none)
      (hroom : depth < setting.limits.maxDepth) (hcount : depth < top)
      (hresolve : front.resolve setting.source (Text.trim text) = (some body, resolved)) :
      Calls setting top ⟨true, .invocation name args, scope, depth, before⟩
        ⟨false, body, Arguments.bind texts, depth + 1, ⟨resolved, nesting⟩⟩

variable {setting : Setting} {top : Nat}

/-- What a call does to the counters: the way into a node raises the number of open nodes, below
    its limit, and the way into a body the number of open bodies, below the other limit. -/
theorem Calls.counters {outer inner : Activation} (h : Calls setting top outer inner) :
    (outer.opened = false ∧ inner.opened = true ∧
      outer.state.nesting < setting.limits.maxNesting ∧
      inner.state.nesting = outer.state.nesting + 1 ∧ inner.depth = outer.depth) ∨
    (outer.opened = true ∧ inner.opened = false ∧ inner.state.nesting = outer.state.nesting ∧
      (inner.depth = outer.depth ∨
        outer.depth < setting.limits.maxDepth ∧ inner.depth = outer.depth + 1)) := by
  cases h with
  | inside hnode hopen =>
    refine Or.inl ⟨rfl, rfl, hopen.room, ?_, rfl⟩
    rw [hopen.inside_eq]
  | child hearlier => exact Or.inr ⟨rfl, rfl, hearlier.inTurn_eq.1, Or.inl rfl⟩
  | parameter => exact Or.inr ⟨rfl, rfl, rfl, Or.inl rfl⟩
  | fallback hname hunbound => exact Or.inr ⟨rfl, rfl, hname.flatten_eq.1, Or.inl rfl⟩
  | callee => exact Or.inr ⟨rfl, rfl, rfl, Or.inl rfl⟩
  | argument hname hearlier =>
    exact Or.inr ⟨rfl, rfl, hearlier.inTurn_eq.1.trans hname.flatten_eq.1, Or.inl rfl⟩
  | body hname hargs hdeclined hroom hcount hresolve =>
    have hnesting := hargs.inTurn_eq.1.trans hname.flatten_eq.1
    exact Or.inr ⟨rfl, rfl, hnesting, Or.inr ⟨hroom, rfl⟩⟩

/-- How far an activation is from the end: twice the room that is left, and one more inside. -/
def left (setting : Setting) (activation : Activation) : Nat :=
  2 * (setting.limits.maxNesting - activation.state.nesting) + activation.opened.toNat

theorem Calls.left_lt {outer inner : Activation} (h : Calls setting top outer inner) :
    inner.left setting < outer.left setting := by
  unfold left
  rcases h.counters with ⟨houter, hinner, hroom, hnesting, -⟩ | ⟨houter, hinner, hnesting, -⟩
  · rw [houter, hinner, hnesting, Bool.toNat_true, Bool.toNat_false]
    omega
  · rw [houter, hinner, hnesting, Bool.toNat_true, Bool.toNat_false]
    omega

/-- Neither counter is over its limit. -/
structure Within (limits : Limits) (activation : Activation) : Prop where
  nesting : activation.state.nesting ≤ limits.maxNesting
  depth : activation.depth ≤ limits.maxDepth

theorem Calls.within {outer inner : Activation} (h : Calls setting top outer inner)
    (hwithin : outer.Within setting.limits) : inner.Within setting.limits := by
  obtain ⟨hnesting, hdepth⟩ := hwithin
  have hcounters := h.counters
  constructor
  · omega
  · omega

/-- **Evaluation stays within its limits and ends**, whatever the source, the registry, the scope,
    the node and the limits are, as long as a counter can hold the limits.

    No chain of activations goes on for ever.  A node has an outcome, so that no counter runs over,
    and it is that of `flatten`; behind the node the counter is what it was in front, also where
    something was cut off inside.  From counters within the limits, as the zeros of an expansion
    are, all activations are within. -/
theorem within_limits (setting : Setting) (top : Nat) (hdepth : setting.limits.maxDepth ≤ top)
    (hnesting : setting.limits.maxNesting ≤ top) :
    WellFounded (fun inner outer => Calls setting top outer inner) ∧
    (∀ node scope depth before,
      (∃ text after, Flattens setting top node scope depth before text after) ∧
      ∀ text after, Flattens setting top node scope depth before text after →
        after.nesting = before.nesting ∧
        flatten setting (setting.limits.maxNesting - before.nesting) node scope depth before.run =
          (text, after.run)) ∧
    ∀ outer inner, Relation.ReflTransGen (Calls setting top) outer inner →
      outer.Within setting.limits → inner.Within setting.limits := by
  refine ⟨?_, ?_, ?_⟩
  · refine Subrelation.wf ?_ (measure (left setting)).wf
    intro inner outer h
    exact h.left_lt
  · intro node scope depth before
    refine ⟨?_, fun text after h => h.flatten_eq⟩
    obtain ⟨text, after, h⟩ := setting.returnsAt hdepth hnesting before.nesting node scope depth
      before.run
    exact ⟨text, _, h⟩
  · intro outer inner hreached hwithin
    induction hreached with
    | refl => exact hwithin
    | tail _ hlast ih => exact hlast.within ih

/-- Every template calls another one, whose name is longer. -/
def growing (limits : Limits) : Setting :=
  ⟨"", ⟨fun name => some ("\x7b\x7b" ++ name ++ "x\x7d\x7d"), fun _ => none⟩, .empty, limits⟩

/-- Where names never repeat, the end comes from a limit: after three bodies, or else with limits
    as large as a counter of 64 bits. -/
theorem within_limits_growing :
    let top := 18446744073709551615
    let call := Node.parse "\x7b\x7ba\x7d\x7d"
    let start : Counted := ⟨⟨.empty, #[]⟩, 0⟩
    (3 ≤ top ∧ ∃ after, Flattens (growing ⟨3, top⟩) top call .empty 0 start "" after ∧
      after.nesting = 0 ∧ after.run.diagnostics = #[.tooDeep "axxx" 3]) ∧
    top ≤ top ∧ ∃ text after, Flattens (growing ⟨top, top⟩) top call .empty 0 start text after ∧
      after.nesting = 0 := by
  intro top call start
  refine ⟨⟨by decide, ?_⟩, Nat.le_refl _, ?_⟩
  · obtain ⟨-, hreturns, -⟩ := within_limits (growing ⟨3, top⟩) top (by decide) (Nat.le_refl _)
    obtain ⟨⟨text, after, h⟩, hreturned⟩ := hreturns call .empty 0 start
    obtain ⟨hnesting, hflatten⟩ : after.nesting = 0 ∧
        flatten (growing ⟨3, top⟩) top call .empty 0 start.run = (text, after.run) :=
      hreturned text after h
    have htext : (flatten (growing ⟨3, top⟩) top call .empty 0 start.run).1 = "" := by
      decide +kernel
    have hproblems : (flatten (growing ⟨3, top⟩) top call .empty 0 start.run).2.diagnostics =
        #[.tooDeep "axxx" 3] := by
      decide +kernel
    rw [hflatten] at htext hproblems
    subst htext
    exact ⟨after, h, hnesting, hproblems⟩
  · obtain ⟨-, hreturns, -⟩ := within_limits (growing ⟨top, top⟩) top (Nat.le_refl _)
      (Nat.le_refl _)
    obtain ⟨⟨text, after, h⟩, hreturned⟩ := hreturns call .empty 0 start
    exact ⟨text, after, h, (hreturned text after h).1⟩

end Activation

end Transclusion
