/-
  The outline of a tree says which tree it is.

  A line says what kind of node it stands for, and a group and a call say how many nodes follow that
  belong to them.  Only a placeholder does not say whether it has a default: that is seen from a
  marker line one step further in, behind the lines of the name.  So where a node ends is seen from
  the line behind it, and the statement to be shown by induction is about a node with any further
  lines behind it (`isReadBack`).  All that it asks of these lines is that they do not begin with
  the marker of a default that stands further in than the node (`EndsAt`): the markers that can
  follow a node belong to what stands around it, and are no further in.

  That the written outline gives back its lines is another matter, and the smaller one.  No line has
  a line break in it, its indentation ends at the first character that is no space, and the words
  behind it tell the lines apart because quoted texts and numerals do.

  Main statement, `render_unambiguous`.
-/
import Transclusion.Node.Outline
import Transclusion.Proofs.Node.Within
import Transclusion.Proofs.Text.Quoting
import Transclusion.Proofs.Token.Lexing

namespace Transclusion

/-! ## Lines as they are written -/

/-- Lines that say different things are worded differently. -/
theorem OutlineMark.label_inj {mark other : OutlineMark} (h : mark.label = other.label) :
    mark = other := by
  have hchars : mark.label.toList = other.label.toList := congrArg String.toList h
  -- two kinds of lines differ in one of their first characters
  cases mark <;> cases other <;> simp [label, Text.quote] at hchars ⊢
  case text.text => exact Text.quote_inj h
  case plain.plain => exact Text.numeral_inj (String.toList_inj.1 hchars)
  case invocation.invocation => exact Text.numeral_inj (String.toList_inj.1 hchars)

theorem OutlineMark.lineBreak_not_mem_label (mark : OutlineMark) : '\n' ∉ mark.label.toList := by
  cases mark with
  | text source => exact Text.lineBreak_not_mem_quote source
  | plain children => simp [label, Text.lineBreak_not_mem_numeral]
  | placeholder => decide
  | invocation args => simp [label, Text.lineBreak_not_mem_numeral]
  | default => decide
  | arg => decide

/-- The words of a line begin behind its indentation. -/
theorem OutlineMark.head?_label_ne (mark : OutlineMark) : mark.label.toList.head? ≠ some ' ' := by
  cases mark <;> simp [label, Text.quote]

namespace OutlineLine

/-- The characters of a line, without the line break. -/
def chars (line : OutlineLine) : List Char :=
  List.replicate (2 * line.indent) ' ' ++ line.mark.label.toList

theorem toList_render (line : OutlineLine) : line.render.toList = line.chars ++ ['\n'] := by
  simp [render, chars]

theorem lineBreak_not_mem_chars (line : OutlineLine) : '\n' ∉ line.chars := by
  simp [chars, line.mark.lineBreak_not_mem_label]

/-- The spaces of a line are its indentation, and what is behind them its words. -/
theorem chars_inj {line other : OutlineLine} (h : line.chars = other.chars) : line = other := by
  have hspaces : ∀ line : OutlineLine, Lexer.runLength ' ' line.chars = 2 * line.indent := by
    intro line
    rw [chars, Lexer.runLength_replicate_append, Lexer.runLength_eq_zero line.mark.head?_label_ne]
    rfl
  have hindent : line.indent = other.indent := by
    have := hspaces line
    have := hspaces other
    rw [h] at *
    omega
  obtain ⟨indent, mark⟩ := line
  obtain ⟨indent', mark'⟩ := other
  obtain rfl : indent = indent' := hindent
  have hlabel : mark.label.toList = mark'.label.toList := List.append_cancel_left h
  rw [OutlineMark.label_inj (String.toList_inj.1 hlabel)]

/-- Written lines are read back line by line. -/
theorem flatMap_render_inj {lines others : List OutlineLine}
    (h : lines.flatMap (fun line => line.chars ++ ['\n']) =
      others.flatMap fun line => line.chars ++ ['\n']) : lines = others := by
  induction lines generalizing others with
  | nil =>
    cases others with
    | nil => rfl
    | cons line later => simp at h
  | cons line later ih =>
    cases others with
    | nil => simp at h
    | cons other others =>
      simp only [List.flatMap_cons, List.append_assoc, List.singleton_append] at h
      obtain ⟨hline, hlater⟩ := Text.cut_inj line.lineBreak_not_mem_chars
        other.lineBreak_not_mem_chars h
      rw [chars_inj hline, ih hlater]

end OutlineLine

namespace Node

/-! ## The lines of a tree -/

mutual

/-- The lines of a node at an indentation. -/
def linesAt (indent : Nat) : Node → List OutlineLine
  | text source => [⟨indent, .text source⟩]
  | plain children => ⟨indent, .plain children.length⟩ :: rowAt [] (indent + 1) children
  | placeholder name none => ⟨indent, .placeholder⟩ :: linesAt (indent + 1) name
  | placeholder name (some default) =>
    ⟨indent, .placeholder⟩ :: (linesAt (indent + 1) name ++
      ⟨indent + 1, .default⟩ :: linesAt (indent + 2) default)
  | invocation name args =>
    ⟨indent, .invocation args.length⟩ :: (linesAt (indent + 1) name ++
      rowAt [⟨indent + 1, .arg⟩] (indent + 2) args)

/-- The lines of nodes one after another, each node behind the same leading lines. -/
def rowAt (lead : List OutlineLine) (indent : Nat) : List Node → List OutlineLine
  | [] => []
  | node :: later => lead ++ (linesAt indent node ++ rowAt lead indent later)

end

/-- The default of a placeholder is a row of at most one node. -/
theorem linesAt_placeholder (indent : Nat) (name : Node) (default : Option Node) :
    linesAt indent (placeholder name default) =
      ⟨indent, .placeholder⟩ :: (linesAt (indent + 1) name ++
        rowAt [⟨indent + 1, .default⟩] (indent + 2) default.toList) := by
  cases default <;> simp [linesAt, rowAt]

mutual

/-- The outline adds the lines of a node to those that there are already. -/
theorem toList_outlineOnto (lines : Array OutlineLine) (indent : Nat) : (node : Node) →
    (outlineOnto lines indent node).toList = lines.toList ++ linesAt indent node
  | text source => by simp [outlineOnto, linesAt]
  | plain children => by
    rw [outlineOnto, toList_outlineChildren _ _ children, linesAt]
    simp
  | placeholder name none => by
    rw [outlineOnto, toList_outlineOnto _ _ name, linesAt]
    simp
  | placeholder name (some default) => by
    rw [outlineOnto, toList_outlineOnto _ _ default, Array.toList_push,
      toList_outlineOnto _ _ name, linesAt]
    simp
  | invocation name args => by
    rw [outlineOnto, toList_outlineArguments _ _ args, toList_outlineOnto _ _ name, linesAt]
    simp

theorem toList_outlineChildren (lines : Array OutlineLine) (indent : Nat) :
    (children : List Node) →
    (outlineChildren lines indent children).toList = lines.toList ++ rowAt [] indent children
  | [] => (List.append_nil _).symm
  | child :: later => by
    rw [outlineChildren, toList_outlineChildren _ _ later, toList_outlineOnto _ _ child, rowAt]
    simp

theorem toList_outlineArguments (lines : Array OutlineLine) (indent : Nat) : (args : List Node) →
    (outlineArguments lines indent args).toList =
      lines.toList ++ rowAt [⟨indent, .arg⟩] (indent + 1) args
  | [] => (List.append_nil _).symm
  | arg :: later => by
    rw [outlineArguments, toList_outlineArguments _ _ later, toList_outlineOnto _ _ arg, rowAt]
    simp

end

/-- An outline as it is written is its lines as they are written. -/
theorem toList_render (node : Node) :
    node.render.toList = (linesAt 0 node).flatMap fun line => line.chars ++ ['\n'] := by
  have hfold : ∀ (lines : List OutlineLine) (written : String),
      (lines.foldl (fun written line => written ++ line.render) written).toList =
        written.toList ++ lines.flatMap fun line => line.chars ++ ['\n'] := by
    intro lines
    induction lines with
    | nil => simp
    | cons line later ih =>
      intro written
      rw [List.foldl_cons, ih, String.toList_append, line.toList_render, List.flatMap_cons,
        List.append_assoc]
  have hlines : node.outline.toList = linesAt 0 node := toList_outlineOnto #[] 0 node
  rw [render, ← Array.foldl_toList, hlines, hfold]
  rfl

/-! ## Reading the lines back -/

/-- The lines do not begin with the marker of a default further in than `indent`. -/
def EndsAt (indent : Nat) (rest : List OutlineLine) : Prop :=
  ∀ line, rest.head? = some line → line.mark = .default → line.indent ≤ indent

theorem EndsAt.mono {indent further : Nat} {rest : List OutlineLine} (h : EndsAt indent rest)
    (hle : indent ≤ further) : EndsAt further rest := by
  intro line hline hmark
  have := h line hline hmark
  omega

theorem EndsAt.cons {indent : Nat} {line : OutlineLine} {rest : List OutlineLine}
    (h : line.mark = .default → line.indent ≤ indent) : EndsAt indent (line :: rest) := by
  rintro first ⟨⟩
  exact h

/-- What the first line of a node says. -/
def mark : Node → OutlineMark
  | text source => .text source
  | plain children => .plain children.length
  | placeholder _ _ => .placeholder
  | invocation _ args => .invocation args.length

theorem mark_ne_default (node : Node) : node.mark ≠ .default := by
  cases node <;> exact nofun

/-- The first line of a node is its own. -/
theorem exists_linesAt_eq (indent : Nat) (node : Node) :
    ∃ later, linesAt indent node = ⟨indent, node.mark⟩ :: later := by
  cases node with
  | text source => exact ⟨_, by rw [linesAt]; rfl⟩
  | plain children => exact ⟨_, by rw [linesAt]; rfl⟩
  | placeholder name default => exact ⟨_, linesAt_placeholder indent name default⟩
  | invocation name args => exact ⟨_, by rw [linesAt]; rfl⟩

/-- Behind a node of a row stand the next one, or what follows the row.  A leading line may be the
    marker of a default if it stands no further in. -/
theorem EndsAt.rowAt {indent further : Nat} {lead rest : List OutlineLine} (h : EndsAt indent rest)
    (hlead : ∀ line ∈ lead, line.mark = .default → line.indent ≤ indent) (nodes : List Node) :
    EndsAt indent (rowAt lead further nodes ++ rest) := by
  cases nodes with
  | nil => exact h
  | cons node later =>
    obtain ⟨behind, hlines⟩ := exists_linesAt_eq further node
    rw [Node.rowAt, hlines]
    cases lead with
    | nil => exact .cons fun hdefault => absurd hdefault node.mark_ne_default
    | cons line lead => exact .cons (hlead line List.mem_cons_self)

/-- The lines of the node, with any lines behind them that it ends at, are those of no other node,
    and what is behind them is the same. -/
def IsReadBack (node : Node) : Prop :=
  ∀ {indent : Nat} {other : Node} {rest behind : List OutlineLine}, EndsAt indent rest →
    EndsAt indent behind → linesAt indent node ++ rest = linesAt indent other ++ behind →
    node = other ∧ rest = behind

/-- A row is read back node by node, once it is known how many there are. -/
theorem rowAt_inj {indent : Nat} {lead rest behind : List OutlineLine} {nodes others : List Node}
    (hnodes : ∀ node ∈ nodes, node.IsReadBack) (hlength : nodes.length = others.length)
    (hlead : ∀ line ∈ lead, line.mark = .default → line.indent ≤ indent)
    (hrest : EndsAt indent rest) (hbehind : EndsAt indent behind)
    (h : rowAt lead indent nodes ++ rest = rowAt lead indent others ++ behind) :
    nodes = others ∧ rest = behind := by
  induction nodes generalizing others with
  | nil =>
    obtain rfl : others = [] := List.length_eq_zero_iff.1 hlength.symm
    exact ⟨rfl, h⟩
  | cons node later ih =>
    cases others with
    | nil => exact absurd hlength nofun
    | cons other others =>
      obtain ⟨hnode, hlater⟩ := List.forall_mem_cons.1 hnodes
      rw [rowAt, rowAt, List.append_assoc, List.append_assoc, List.append_assoc,
        List.append_assoc] at h
      obtain ⟨rfl, htail⟩ := hnode (hrest.rowAt hlead later) (hbehind.rowAt hlead others)
        (List.append_cancel_left h)
      obtain ⟨rfl, hend⟩ := ih hlater (Nat.succ.inj hlength) htail
      exact ⟨rfl, hend⟩

/-- **Every node is read back** from its lines, whatever lines stand behind it. -/
theorem isReadBack (node : Node) : node.IsReadBack := by
  induction node using parts_induction with
  | node node ih =>
    intro indent other rest behind hrest hbehind h
    have hmark : node.mark = other.mark := by
      obtain ⟨later, hnode⟩ := exists_linesAt_eq indent node
      obtain ⟨others, hother⟩ := exists_linesAt_eq indent other
      rw [hnode, hother] at h
      exact congrArg OutlineLine.mark (List.cons.inj h).1
    -- what stands inside ends at lines that the node itself ends at
    have hinside : EndsAt (indent + 1) rest ∧ EndsAt (indent + 1) behind :=
      ⟨hrest.mono (by omega), hbehind.mono (by omega)⟩
    have hfurther : EndsAt (indent + 2) rest ∧ EndsAt (indent + 2) behind :=
      ⟨hrest.mono (by omega), hbehind.mono (by omega)⟩
    cases node with
    | text source =>
      cases other with
      | text source' =>
        obtain rfl : source = source' := OutlineMark.text.inj hmark
        exact ⟨rfl, List.append_cancel_left h⟩
      | _ => exact absurd hmark nofun
    | plain children =>
      cases other with
      | plain others =>
        rw [linesAt, linesAt] at h
        obtain ⟨rfl, hend⟩ := rowAt_inj ih (OutlineMark.plain.inj hmark) (by simp) hinside.1
          hinside.2 (List.cons.inj h).2
        exact ⟨rfl, hend⟩
      | _ => exact absurd hmark nofun
    | placeholder name default =>
      cases other with
      | placeholder name' default' =>
        obtain ⟨hname, hdefault⟩ := List.forall_mem_cons.1 ih
        rw [linesAt_placeholder, linesAt_placeholder, List.cons_append, List.cons_append,
          List.append_assoc, List.append_assoc] at h
        -- the marker of its own default is the one that the name of a placeholder ends at
        obtain ⟨rfl, htail⟩ := hname (hinside.1.rowAt (by simp) default.toList)
          (hinside.2.rowAt (by simp) default'.toList) (List.cons.inj h).2
        cases default with
        | none =>
          cases default' with
          | none => exact ⟨rfl, htail⟩
          | some default' =>
            have hle : indent + 1 ≤ indent := hrest _ (congrArg List.head? htail) rfl
            omega
        | some default =>
          cases default' with
          | none =>
            have hle : indent + 1 ≤ indent := hbehind _ (congrArg List.head? htail.symm) rfl
            omega
          | some default' =>
            have hmarker : ∀ line ∈ [(⟨indent + 1, .default⟩ : OutlineLine)],
                line.mark = .default → line.indent ≤ indent + 2 := by simp
            have hlength : (some default).toList.length = (some default').toList.length := rfl
            obtain ⟨hsame, hend⟩ := rowAt_inj hdefault hlength hmarker hfurther.1 hfurther.2 htail
            obtain rfl : default = default' := (List.cons.inj hsame).1
            exact ⟨rfl, hend⟩
      | _ => exact absurd hmark nofun
    | invocation name args =>
      cases other with
      | invocation name' args' =>
        obtain ⟨hname, hargs⟩ := List.forall_mem_cons.1 ih
        rw [linesAt, linesAt, List.cons_append, List.cons_append, List.append_assoc,
          List.append_assoc] at h
        obtain ⟨rfl, htail⟩ := hname (hinside.1.rowAt (by simp) args)
          (hinside.2.rowAt (by simp) args') (List.cons.inj h).2
        obtain ⟨rfl, hend⟩ := rowAt_inj hargs (OutlineMark.invocation.inj hmark) (by simp)
          hfurther.1 hfurther.2 htail
        exact ⟨rfl, hend⟩
      | _ => exact absurd hmark nofun

/-! ## How many lines there are -/

/-- The parts that a node sets behind a marker line: the arguments of a call, or the default of a
    placeholder. -/
def marked : Node → List Node
  | text _ => []
  | plain _ => []
  | placeholder _ default => default.toList
  | invocation _ args => args

/-- The lines of nodes: one for each of them, and one for each that a marker stands in front of. -/
def lineCount (nodes : List Node) : Nat := nodes.length + (nodes.flatMap marked).length

theorem lineCount_cons (node : Node) (later : List Node) :
    lineCount (node :: later) = 1 + node.marked.length + lineCount later := by
  simp only [lineCount, List.length_cons, List.flatMap_cons, List.length_append]
  omega

theorem lineCount_append (before later : List Node) :
    lineCount (before ++ later) = lineCount before + lineCount later := by
  simp only [lineCount, List.length_append, List.flatMap_append]
  omega

theorem length_rowAt {lead : List OutlineLine} {indent : Nat} {row : List Node}
    (h : ∀ node ∈ row, (linesAt indent node).length = lineCount node.nodes) :
    (rowAt lead indent row).length = lead.length * row.length + lineCount (row.flatMap nodes) := by
  induction row with
  | nil => rfl
  | cons node later ih =>
    obtain ⟨hnode, hlater⟩ := List.forall_mem_cons.1 h
    rw [rowAt, List.length_append, List.length_append, hnode, ih hlater, List.flatMap_cons,
      lineCount_append, List.length_cons, Nat.mul_succ]
    omega

/-- Wherever its outline begins, a tree has its number of lines. -/
theorem length_linesAt (indent : Nat) (tree : Node) :
    (linesAt indent tree).length = lineCount tree.nodes := by
  induction tree using parts_induction generalizing indent with
  | node tree ih =>
    rw [nodes_eq, lineCount_cons]
    cases tree with
    | text source => rfl
    | plain children =>
      have hchildren : ∀ child ∈ children,
          (linesAt (indent + 1) child).length = lineCount child.nodes := fun child hchild =>
        ih child hchild _
      rw [linesAt, List.length_cons, length_rowAt hchildren]
      simp only [marked, parts, List.length_nil]
      omega
    | placeholder name default =>
      obtain ⟨hname, hdefault⟩ := List.forall_mem_cons.1 ih
      rw [linesAt_placeholder, List.length_cons, List.length_append, hname,
        length_rowAt fun node hnode => hdefault node hnode _]
      simp only [marked, parts, List.length_singleton, List.flatMap_cons, lineCount_append]
      omega
    | invocation name args =>
      obtain ⟨hname, hargs⟩ := List.forall_mem_cons.1 ih
      rw [linesAt, List.length_cons, List.length_append, hname,
        length_rowAt fun arg harg => hargs arg harg _]
      simp only [marked, parts, List.length_singleton, List.flatMap_cons, lineCount_append]
      omega

/-- **The outline of a tree can be read back**: trees with the same outline are the same tree.  The
    outline is written in lines that have no line break inside, whatever characters the texts of the
    tree contain, and these are one for each node and a marker line for each argument of a call and
    each default that is present. -/
theorem render_unambiguous :
    (∀ tree other : Node, tree.render = other.render → tree = other) ∧
      ∀ tree : Node, ∃ lines : List String,
        tree.render = String.join (lines.map (· ++ "\n")) ∧
        (∀ line ∈ lines, '\n' ∉ line.toList) ∧
        lines.length = tree.nodes.length + (tree.nodes.flatMap marked).length := by
  constructor
  · intro tree other h
    have hlines : linesAt 0 tree = linesAt 0 other := by
      apply OutlineLine.flatMap_render_inj
      rw [← toList_render, ← toList_render, h]
    have hends : EndsAt 0 [] := nofun
    exact (isReadBack tree hends hends (congrArg (· ++ []) hlines)).1
  · intro tree
    refine ⟨(linesAt 0 tree).map fun line => String.ofList line.chars, ?_, ?_, ?_⟩
    · rw [← String.toList_inj, toList_render]
      simp [String.toList_join, List.flatMap, Function.comp_def]
    · intro line hline
      obtain ⟨outlined, -, rfl⟩ := List.mem_map.1 hline
      rw [String.toList_ofList]
      exact outlined.lineBreak_not_mem_chars
    · rw [List.length_map, length_linesAt]
      rfl

end Node

end Transclusion
