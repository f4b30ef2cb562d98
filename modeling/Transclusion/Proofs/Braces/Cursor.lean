/-
  Reading braces with a cursor, every subtraction and every write checked.

  `Braces.level` is handed the tokens that are left, and its numbers stop at zero.  Here all tokens
  stand in one list, and a cursor points into it.  The activations of `level` that are open are a
  list of frames, the innermost first.  `Reader.step` is one iteration of the innermost loop.  It
  stops with an error where a number would fall below zero, and where it would write a token
  outside of the list.

  The crux is that a stack of levels and a cursor make a reader (`Stack.reader`), and that a step of
  such a reader is a step of its stack: a level has two braces left by its type, so the checks hold
  and the reader goes on with a stack and a cursor again (`Follows.step`).  What stands before the
  cursor is never looked at again, so a step only counts what is ahead of it.

  Main statement, `Braces.reading_safe`: on every list of tokens each reader that is reached is
  sound and passes its checks, and the last one stands on the first end of the text, with the tree.
-/
import Mathlib.Data.List.Basic
import Transclusion.Proofs.Braces.Stack

namespace Transclusion

namespace Braces

/-! ## The reader -/

/-- Why a reader does not go on. -/
inductive Stop where
  /-- It stands on an end of the text, and no level is open. -/
  | ended
  /-- A number would fall below zero. -/
  | underflow
  /-- A token would be written outside of the tokens. -/
  | outOfBounds
deriving DecidableEq

/-- `m - n`, where that is a number. -/
def checkedSub (m n : Nat) : Except Stop Nat :=
  if n ≤ m then .ok (m - n) else .error .underflow

theorem checkedSub_of_le {m n : Nat} (h : n ≤ m) : checkedSub m n = .ok (m - n) := if_pos h

/-- A place in the tokens. -/
structure Cursor where
  tokens : List Token
  pos : Nat

namespace Cursor

/-- The token under the cursor; behind the last token the text is at its end. -/
def token (cursor : Cursor) : Token := cursor.tokens[cursor.pos]?.getD .endOfText

/-- The tokens from the cursor on. -/
def ahead (cursor : Cursor) : List Token := cursor.tokens.drop cursor.pos

/-- Goes behind the token under the cursor. -/
def advance (cursor : Cursor) : Cursor := { cursor with pos := cursor.pos + 1 }

/-- Writes a token in the place of the one under the cursor. -/
def write (cursor : Cursor) (token : Token) : Except Stop Cursor :=
  if cursor.pos < cursor.tokens.length then
    .ok { cursor with tokens := cursor.tokens.set cursor.pos token }
  else .error .outOfBounds

/-- Takes braces off the closing run under the cursor, and leaves the rest there. -/
def eat (cursor : Cursor) (closing taken : Nat) : Except Stop Cursor := do
  match ← checkedSub closing taken with
  | 0 => return cursor.advance
  | 1 => cursor.write (.text (closeBraces 1))
  | rest => cursor.write (.closeRun rest)

end Cursor

/-- An activation that is open: how many braces of its opening run are not closed yet, and its
    children so far, in reverse. -/
structure Frame where
  outstanding : Nat
  done : List Node

/-- The reader at the head of an iteration. -/
structure Reader where
  cursor : Cursor
  /-- How many activations are open, as the reader counts them. -/
  nesting : Nat
  /-- The activations that are open, the innermost first. -/
  frames : List Frame
  /-- The children of the root so far, in reverse. -/
  root : List Node

namespace Reader

/-- Before the first token. -/
def start (tokens : List Token) : Reader := ⟨⟨tokens, 0⟩, 0, [], []⟩

/-- Adds a child to the innermost activation, or to the root when none is open. -/
def push (child : Node) (reader : Reader) : Reader :=
  match reader.frames with
  | [] => { reader with root := child :: reader.root }
  | frame :: outer =>
    { reader with frames := ⟨frame.outstanding, child :: frame.done⟩ :: outer }

/-- Goes behind the token under the cursor. -/
def advance (reader : Reader) : Reader := { reader with cursor := reader.cursor.advance }

/-- Opens an activation for a run of `opened` braces. -/
def enter (opened : Nat) (reader : Reader) : Reader :=
  { reader.advance with
    nesting := reader.nesting + 1
    frames := ⟨opened, []⟩ :: reader.frames }

/-- Leaves the innermost activation: its node is a child of what stands around it. -/
def leave (children : List Node) (outer : List Frame) (reader : Reader) : Except Stop Reader := do
  let nesting ← checkedSub reader.nesting 1
  return ({ reader with nesting := nesting, frames := outer } : Reader).push (.plain children)

/-- Closes braces of the innermost activation with a run of `closing` braces. -/
def close (closing : Nat) (frame : Frame) (outer : List Frame) (reader : Reader) :
    Except Stop Reader := do
  let taken := bracesTaken closing frame.outstanding
  let closed := constructOf taken frame.done.reverse
  let cursor ← reader.cursor.eat closing taken
  let eaten : Reader := { reader with cursor := cursor }
  match ← checkedSub frame.outstanding taken with
  | 0 => eaten.leave [closed] outer
  | 1 => eaten.leave [.text (openBraces 1), closed] outer
  | outstanding => return { eaten with frames := ⟨outstanding, [closed]⟩ :: outer }

/-- One iteration of the loop that is innermost. -/
def step (reader : Reader) : Except Stop Reader :=
  match reader.frames, reader.cursor.token with
  | [], .endOfText => .error .ended
  | frame :: outer, .endOfText =>
    reader.leave (.text (openBraces frame.outstanding) :: frame.done.reverse) outer
  | [], .openRun n => .ok (reader.enter n)
  | _ :: _, .openRun n =>
    if maxLevels ≤ reader.nesting then .ok (reader.push (.text (openBraces n))).advance
    else .ok (reader.enter n)
  | frame :: outer, .closeRun n => reader.close n frame outer
  | _, .skipped _ => .ok reader.advance
  | _, token => .ok (reader.push (.text token.lexeme)).advance

/-- The readers that stand at the head of some iteration, from the first one on. -/
inductive Reached (tokens : List Token) : Reader → Prop where
  | start : Reached tokens (.start tokens)
  | step {reader next : Reader} (h : Reached tokens reader) (hstep : reader.step = .ok next) :
      Reached tokens next

/-- What holds at the head of every iteration. -/
structure Sound (reader : Reader) : Prop where
  /-- An activation that is open has at least two braces left. -/
  two_le : ∀ frame ∈ reader.frames, 2 ≤ frame.outstanding
  /-- The cursor stands inside of the tokens. -/
  pos_lt : reader.cursor.pos < reader.cursor.tokens.length
  /-- The runs from the cursor on have at least two braces. -/
  settled : Stack.Settled reader.cursor.ahead
  /-- The reader counts the activations that are open. -/
  nesting_eq : reader.nesting = reader.frames.length
  /-- No more activations are open than may be. -/
  nesting_le : reader.nesting ≤ maxLevels

end Reader

/-! ## Moving the cursor -/

namespace Cursor

variable {tokens later : List Token} {token : Token} {cursor : Cursor}

@[simp] theorem ahead_advance (cursor : Cursor) : cursor.advance.ahead = cursor.ahead.tail := by
  simp only [ahead, advance, List.tail_drop]

theorem pos_lt_of_ahead (h : cursor.ahead = token :: later) :
    cursor.pos < cursor.tokens.length := by
  rcases Nat.lt_or_ge cursor.pos cursor.tokens.length with hlt | hge
  · exact hlt
  · rw [ahead, List.drop_eq_nil_of_le hge] at h
    exact absurd h nofun

theorem token_of_ahead (h : cursor.ahead = token :: later) : cursor.token = token := by
  have hhead : cursor.ahead.head? = some token := by rw [h]; rfl
  rw [ahead, List.head?_drop] at hhead
  rw [Cursor.token, hhead]
  rfl

/-- The cursor has passed no end of `tokens`, and what it has ahead is settled. -/
structure Before (tokens : List Token) (cursor : Cursor) : Prop where
  settled : Stack.Settled cursor.ahead
  end_mem : .endOfText ∈ cursor.ahead
  /-- The first end ahead of the cursor is the first end of the tokens. -/
  end_eq : cursor.pos + cursor.ahead.idxOf .endOfText = tokens.idxOf .endOfText

theorem Before.start (hs : Stack.Settled tokens) (hend : .endOfText ∈ tokens) :
    Before tokens ⟨tokens, 0⟩ :=
  ⟨hs, hend, Nat.zero_add _⟩

/-- The cursor has a token ahead. -/
theorem Before.exists_ahead (h : Before tokens cursor) :
    ∃ token later, cursor.ahead = token :: later := by
  cases hahead : cursor.ahead with
  | nil =>
    have hmem := h.end_mem
    rw [hahead] at hmem
    exact absurd hmem List.not_mem_nil
  | cons token later => exact ⟨token, later, rfl⟩

theorem Before.settled_cons (h : Before tokens cursor) (hahead : cursor.ahead = token :: later) :
    Stack.Settled (token :: later) := by
  have hs := h.settled
  rwa [hahead] at hs

/-- Going behind a token that is no end passes no end. -/
theorem Before.advance (h : Before tokens cursor) (hahead : cursor.ahead = token :: later)
    (hne : token ≠ .endOfText) : Before tokens cursor.advance := by
  have hs := h.settled_cons hahead
  obtain ⟨-, hmem, heq⟩ := h
  rw [hahead] at hmem heq
  have htail : cursor.advance.ahead = later := by rw [ahead_advance, hahead]; rfl
  refine ⟨?_, ?_, ?_⟩
  · rw [htail]
    exact hs.tail
  · rw [htail]
    exact (List.mem_cons.1 hmem).resolve_left (Ne.symm hne)
  · rw [List.idxOf_cons_ne _ hne] at heq
    rw [htail]
    show cursor.pos + 1 + later.idxOf .endOfText = _
    omega

/-- A token that is no end, in the place of one that is none, passes no end either. -/
theorem Before.write {written : Token} (h : Before tokens cursor)
    (hahead : cursor.ahead = token :: later) (hne : token ≠ .endOfText)
    (hwritten : written ≠ .endOfText) (hs : Stack.Settled (written :: later)) :
    ∃ after, cursor.write written = .ok after ∧ after.ahead = written :: later ∧
      Before tokens after := by
  have hlt := pos_lt_of_ahead hahead
  let after : Cursor := { cursor with tokens := cursor.tokens.set cursor.pos written }
  have hafter : after.ahead = written :: later := by
    show (cursor.tokens.set cursor.pos written).drop cursor.pos = written :: later
    rw [List.drop_set, if_neg (Nat.lt_irrefl _), Nat.sub_self]
    show cursor.ahead.set 0 written = written :: later
    rw [hahead]
    rfl
  obtain ⟨-, hmem, heq⟩ := h
  rw [hahead] at hmem heq
  refine ⟨after, if_pos hlt, hafter, ?_, ?_, ?_⟩
  · rwa [hafter]
  · rw [hafter]
    exact List.mem_cons_of_mem _ ((List.mem_cons.1 hmem).resolve_left (Ne.symm hne))
  · rw [List.idxOf_cons_ne _ hne] at heq
    rw [hafter, List.idxOf_cons_ne _ hwritten]
    exact heq

/-- Eating from a closing run leaves under the cursor what `leftover` leaves. -/
theorem Before.eat {n taken : Nat} (h : Before tokens cursor)
    (hahead : cursor.ahead = .closeRun n :: later) (hle : taken ≤ n) :
    ∃ after, cursor.eat n taken = .ok after ∧ after.ahead = leftover (n - taken) later ∧
      Before tokens after := by
  have hs : Stack.Settled later := (h.settled_cons hahead).tail
  have heat : cursor.eat n taken = match n - taken with
      | 0 => .ok cursor.advance
      | 1 => cursor.write (.text (closeBraces 1))
      | rest => cursor.write (.closeRun rest) := by
    rw [Cursor.eat, checkedSub_of_le hle]
    rfl
  rw [heat]
  have hleft : Stack.Settled (leftover (n - taken) later) := hs.leftover _
  match n - taken, hleft with
  | 0, _ =>
    refine ⟨cursor.advance, rfl, ?_, h.advance hahead nofun⟩
    rw [ahead_advance, hahead]
    rfl
  | 1, hleft => exact h.write hahead nofun nofun hleft
  | rest + 2, hleft => exact h.write hahead nofun nofun hleft

end Cursor

/-! ## A stack and a cursor make a reader -/

/-- A level without the proof that it has two braces left. -/
def Level.frame (level : Level) : Frame := ⟨level.outstanding, level.done⟩

namespace Stack

/-- The reader whose activations are the levels of the stack. -/
def reader (stack : Stack) (cursor : Cursor) : Reader :=
  ⟨cursor, stack.levels.length, stack.levels.map Level.frame, stack.root⟩

theorem reader_push (stack : Stack) (cursor : Cursor) (child : Node) :
    (stack.reader cursor).push child = (stack.add [child]).reader cursor := by
  obtain ⟨levels, root⟩ := stack
  cases levels <;> rfl

theorem length_take_le (level : Level) (outer : Stack) (taken : Nat) :
    (take level outer taken).levels.length ≤ outer.levels.length + 1 := by
  unfold take
  split <;> simp

theorem reader_enter {n : Nat} (h : 2 ≤ n) (stack : Stack) (cursor : Cursor) :
    (stack.reader cursor).enter n =
      reader ⟨⟨n, [], h⟩ :: stack.levels, stack.root⟩ cursor.advance := rfl

/-- The innermost level is counted, so it can be left. -/
theorem reader_leave (level : Level) (outer : List Level) (root : List Node) (cursor : Cursor)
    (children : List Node) :
    (reader ⟨level :: outer, root⟩ cursor).leave children (outer.map Level.frame) =
      .ok ((add [.plain children] ⟨outer, root⟩).reader cursor) := by
  have hone : 1 ≤ (level :: outer).length := Nat.le_add_left 1 outer.length
  rw [← reader_push]
  simp only [Reader.leave, reader, checkedSub_of_le hone]
  rfl

/-- **Closing passes its checks**: a run and a level have two braces each, and the reader goes on
    with what `take` leaves of the stack. -/
theorem reader_close {n : Nat} (hn : 2 ≤ n) (level : Level) (outer : List Level) (root : List Node)
    {cursor after : Cursor} (heat : cursor.eat n (bracesTaken n level.outstanding) = .ok after) :
    (reader ⟨level :: outer, root⟩ cursor).close n level.frame (outer.map Level.frame) =
      .ok ((take level ⟨outer, root⟩ (bracesTaken n level.outstanding)).reader after) := by
  have hle := (bracesTaken_le hn level.two_le).2
  have hsub := checkedSub_of_le hle
  simp only [Reader.close, reader, Level.frame, heat, hsub, bind, Except.bind]
  have hcases : level.outstanding - bracesTaken n level.outstanding = 0 ∨
      level.outstanding - bracesTaken n level.outstanding = 1 ∨
      2 ≤ level.outstanding - bracesTaken n level.outstanding := by omega
  rcases hcases with hleft | hleft | hleft
  · rw [take_zero hleft, hleft]
    exact reader_leave level outer root after _
  · rw [take_one hleft, hleft]
    exact reader_leave level outer root after _
  · rw [take_two hleft]
    split
    · next h => omega
    · next h => omega
    · rfl

end Stack

/-! ## One iteration -/

/-- A stack and a cursor on the way through the tokens. -/
structure Follows (tokens : List Token) (stack : Stack) (cursor : Cursor) : Prop where
  levels_le : stack.levels.length ≤ maxLevels
  before : cursor.Before tokens
  /-- They come to what all tokens come to. -/
  finish_eq : (stack.run cursor.ahead).finish = (Stack.empty.run tokens).finish

/-- Bounds the iterations to come: a token may open a level, and a level that is open is left. -/
def pending (stack : Stack) (cursor : Cursor) : Nat :=
  2 * weight cursor.ahead + stack.levels.length

/-- The next iteration is as good as this one, and fewer are to come. -/
def GoesOn (tokens : List Token) (stack : Stack) (cursor : Cursor) : Prop :=
  ∃ (next : Stack) (place : Cursor), (stack.reader cursor).step = .ok (next.reader place) ∧
    Follows tokens next place ∧ pending next place < pending stack cursor

namespace Follows

variable {tokens later : List Token} {token : Token} {stack next : Stack} {cursor : Cursor}

/-- Reading a token and going behind it. -/
theorem goesOn_advance (h : Follows tokens stack cursor) (hahead : cursor.ahead = token :: later)
    (hne : token ≠ .endOfText) (hnext : stack.step token = next)
    (hle : next.levels.length ≤ maxLevels) (hgrow : next.levels.length ≤ stack.levels.length + 1)
    (hstep : (stack.reader cursor).step = .ok (next.reader cursor.advance)) :
    GoesOn tokens stack cursor := by
  have htail : cursor.advance.ahead = later := by rw [Cursor.ahead_advance, hahead]; rfl
  refine ⟨next, cursor.advance, hstep, ⟨hle, h.before.advance hahead hne, ?_⟩, ?_⟩
  · rw [htail, ← h.finish_eq, hahead, Stack.run_cons token hne, hnext]
  · have hweight := weight_lt_cons token later
    simp only [pending, htail, hahead]
    omega

theorem goesOn_openRun {n : Nat} (h : Follows tokens stack cursor)
    (hahead : cursor.ahead = .openRun n :: later) : GoesOn tokens stack cursor := by
  have htoken := Cursor.token_of_ahead hahead
  have hn : 2 ≤ n := h.before.settled_cons hahead n (.inl List.mem_cons_self)
  have hnext := Stack.step_openRun hn stack
  by_cases hfree : stack.levels.length < maxLevels
  · rw [if_pos hfree] at hnext
    apply h.goesOn_advance hahead nofun hnext
    · exact hfree
    · exact Nat.le_refl _
    · rw [← Stack.reader_enter hn]
      obtain ⟨levels, root⟩ := stack
      cases levels with
      | nil => simp only [Reader.step, Stack.reader, List.map_nil, htoken]
      | cons level outer =>
        simp only [Reader.step, Stack.reader, List.map_cons, htoken]
        exact if_neg (Nat.not_le.2 hfree)
  · rw [if_neg hfree] at hnext
    apply h.goesOn_advance hahead nofun hnext
    · rw [Stack.length_levels_add]
      exact h.levels_le
    · rw [Stack.length_levels_add]
      exact Nat.le_succ _
    · obtain ⟨levels, root⟩ := stack
      cases levels with
      | nil => exact absurd (Nat.zero_lt_succ 255) hfree
      | cons level outer =>
        simp only [Reader.step, Stack.reader, List.map_cons, htoken]
        exact if_pos (Nat.not_lt.1 hfree)

/-- A closing run that finds no open level is a child of the root. -/
theorem goesOn_stray {n : Nat} {root : List Node} (h : Follows tokens ⟨[], root⟩ cursor)
    (hahead : cursor.ahead = .closeRun n :: later) (hn : 2 ≤ n) :
    GoesOn tokens ⟨[], root⟩ cursor := by
  have htoken := Cursor.token_of_ahead hahead
  have hnext := Stack.step_closeRun hn ⟨[], root⟩
  rw [Stack.close] at hnext
  have hne : Token.closeRun n ≠ .endOfText := by rintro ⟨⟩
  apply h.goesOn_advance hahead hne hnext h.levels_le (Nat.le_succ _)
  simp only [Reader.step, Stack.reader, List.map_nil, htoken]
  rfl

/-- What is left of a closing run is under the cursor, where the next iteration reads it. -/
theorem goesOn_close {n : Nat} {level : Level} {outer : List Level} {root : List Node}
    (h : Follows tokens ⟨level :: outer, root⟩ cursor)
    (hahead : cursor.ahead = .closeRun n :: later) (hn : 2 ≤ n) :
    GoesOn tokens ⟨level :: outer, root⟩ cursor := by
  have htoken := Cursor.token_of_ahead hahead
  have hle := (Stack.bracesTaken_le hn level.two_le).1
  obtain ⟨after, heat, hafter, hbefore⟩ := h.before.eat hahead hle
  let next := Stack.take level ⟨outer, root⟩ (bracesTaken n level.outstanding)
  have hlength : next.levels.length ≤ (level :: outer).length := Stack.length_take_le level _ _
  refine ⟨next, after, ?_, ⟨Nat.le_trans hlength h.levels_le, hbefore, ?_⟩, ?_⟩
  · simp only [Reader.step, Stack.reader, List.map_cons, htoken]
    exact Stack.reader_close hn level outer root heat
  · rw [hafter, Stack.run_leftover, ← Stack.close_cons, ← Stack.step_closeRun hn,
      ← Stack.run_cons (.closeRun n) nofun, ← hahead, h.finish_eq]
  · have hweight := weight_leftover_sub_lt n (bracesTaken n level.outstanding)
      (bracesTaken_pos n level.outstanding) later
    simp only [pending, hafter, hahead]
    omega

theorem goesOn_skipped {source : String} (h : Follows tokens stack cursor)
    (hahead : cursor.ahead = .skipped source :: later) : GoesOn tokens stack cursor := by
  apply h.goesOn_advance hahead nofun rfl h.levels_le (Nat.le_succ _)
  have htoken := Cursor.token_of_ahead hahead
  cases hframes : (stack.reader cursor).frames <;>
    simp only [Reader.step, hframes] <;> simp only [Stack.reader, htoken] <;> rfl

/-- On the end of the text the innermost level is left, and the cursor stays. -/
theorem goesOn_endOfText {level : Level} {outer : List Level} {root : List Node}
    (h : Follows tokens ⟨level :: outer, root⟩ cursor)
    (hahead : cursor.ahead = .endOfText :: later) :
    GoesOn tokens ⟨level :: outer, root⟩ cursor := by
  have htoken := Cursor.token_of_ahead hahead
  let group := Node.plain (.text (openBraces level.outstanding) :: level.done.reverse)
  refine ⟨Stack.add [group] ⟨outer, root⟩, cursor, ?_, ⟨?_, h.before, ?_⟩, ?_⟩
  · simp only [Reader.step, Stack.reader, List.map_cons, htoken]
    exact Stack.reader_leave level outer root cursor _
  · rw [Stack.length_levels_add]
    exact Nat.le_of_succ_le h.levels_le
  · have hfinish := h.finish_eq
    rw [hahead, Stack.run_endOfText, Stack.finish_cons] at hfinish
    rw [hahead, Stack.run_endOfText]
    exact hfinish
  · simp only [pending, Stack.length_levels_add, List.length_cons]
    omega

/-- Texts and brackets are children of the innermost level. -/
theorem goesOn_literal (h : Follows tokens stack cursor) (hahead : cursor.ahead = token :: later)
    (hliteral : token = .linkOpen ∨ token = .linkClose ∨ ∃ source, token = .text source) :
    GoesOn tokens stack cursor := by
  have htoken := Cursor.token_of_ahead hahead
  have hstep : (stack.reader cursor).step =
      .ok ((stack.reader cursor).push (.text token.lexeme)).advance := by
    rcases hliteral with rfl | rfl | ⟨source, rfl⟩ <;>
      cases hframes : (stack.reader cursor).frames <;>
        simp only [Reader.step, hframes] <;> simp only [Stack.reader, htoken]
  have hnext : stack.step token = stack.add [.text token.lexeme] ∧ token ≠ .endOfText := by
    rcases hliteral with rfl | rfl | ⟨source, rfl⟩
    · exact ⟨rfl, nofun⟩
    · exact ⟨rfl, nofun⟩
    · exact ⟨rfl, nofun⟩
  rw [Stack.reader_push] at hstep
  apply h.goesOn_advance hahead hnext.2 hnext.1
  · rw [Stack.length_levels_add]
    exact h.levels_le
  · rw [Stack.length_levels_add]
    exact Nat.le_succ _
  · exact hstep

/-- **One iteration**: it ends the loop of the root on the end of the text, or passes its checks. -/
theorem step (h : Follows tokens stack cursor) :
    ((stack.reader cursor).step = .error .ended ∧ stack.levels = [] ∧
      cursor.token = .endOfText) ∨ GoesOn tokens stack cursor := by
  obtain ⟨token, later, hahead⟩ := h.before.exists_ahead
  cases token with
  | openRun n => exact .inr (h.goesOn_openRun hahead)
  | closeRun n =>
    have hn : 2 ≤ n := h.before.settled_cons hahead n (.inr List.mem_cons_self)
    obtain ⟨levels, root⟩ := stack
    cases levels with
    | nil => exact .inr (h.goesOn_stray hahead hn)
    | cons level outer => exact .inr (h.goesOn_close hahead hn)
  | linkOpen => exact .inr (h.goesOn_literal hahead (.inl rfl))
  | linkClose => exact .inr (h.goesOn_literal hahead (.inr (.inl rfl)))
  | skipped source => exact .inr (h.goesOn_skipped hahead)
  | text source => exact .inr (h.goesOn_literal hahead (.inr (.inr ⟨source, rfl⟩)))
  | endOfText =>
    obtain ⟨levels, root⟩ := stack
    cases levels with
    | nil =>
      have htoken := Cursor.token_of_ahead hahead
      refine .inl ⟨?_, rfl, htoken⟩
      simp only [Reader.step, Stack.reader, List.map_nil, htoken]
    | cons level outer => exact .inr (h.goesOn_endOfText hahead)

/-- A stack that follows its cursor makes a sound reader. -/
theorem sound (h : Follows tokens stack cursor) : (stack.reader cursor).Sound := by
  refine ⟨?_, ?_, h.before.settled, ?_, h.levels_le⟩
  · intro frame hframe
    obtain ⟨level, -, rfl⟩ := List.mem_map.1 hframe
    exact level.two_le
  · obtain ⟨token, later, hahead⟩ := h.before.exists_ahead
    exact Cursor.pos_lt_of_ahead hahead
  · simp only [Stack.reader, List.length_map]

end Follows

/-! ## All iterations -/

theorem endOfText_mem_settle (tokens : List Token) : .endOfText ∈ settle tokens := by
  simp only [settle]
  split
  · next hlast => exact List.mem_of_getLast? hlast
  · exact List.mem_append_right _ List.mem_cons_self

theorem Follows.start (tokens : List Token) : Follows (settle tokens) .empty ⟨settle tokens, 0⟩ :=
  ⟨Nat.zero_le _, .start (Stack.settled_settle tokens) (endOfText_mem_settle tokens), rfl⟩

/-- Where the loop of the root ends, the root has the children of the tree, and the cursor stands
    on the first end of the text. -/
theorem Follows.ended {tokens : List Token} {root : List Node} {cursor : Cursor}
    (h : Follows (settle tokens) ⟨[], root⟩ cursor) (htoken : cursor.token = .endOfText) :
    cursor.pos = (settle tokens).idxOf .endOfText ∧
      Node.ofTokens tokens = .plain root.reverse := by
  obtain ⟨token, later, hahead⟩ := h.before.exists_ahead
  obtain rfl : token = .endOfText := (Cursor.token_of_ahead hahead).symm.trans htoken
  constructor
  · have heq := h.before.end_eq
    rwa [hahead, List.idxOf_cons_self] at heq
  · have hfinish := h.finish_eq
    rw [hahead, Stack.run_endOfText, Stack.run_settle] at hfinish
    rw [Node.ofTokens_eq_run, ← hfinish, Stack.finish, Stack.unclosed, List.append_nil]

namespace Reader

/-- Every reader that is reached is a stack that follows its cursor. -/
theorem Reached.follows {tokens : List Token} {reader : Reader}
    (h : Reached (settle tokens) reader) :
    ∃ stack cursor, reader = stack.reader cursor ∧ Follows (settle tokens) stack cursor := by
  induction h with
  | start => exact ⟨.empty, _, rfl, .start tokens⟩
  | step _ hstep ih =>
    obtain ⟨stack, cursor, rfl, hfollows⟩ := ih
    rcases hfollows.step with ⟨hended, -, -⟩ | ⟨next, place, hnext, hgood, -⟩
    · rw [hended] at hstep
      exact absurd hstep nofun
    · rw [hnext] at hstep
      exact ⟨next, place, (Except.ok.inj hstep).symm, hgood⟩

/-- From every stack that follows its cursor the loops come to their end. -/
theorem exists_ended {tokens start : List Token} {stack : Stack} {cursor : Cursor}
    (h : Follows tokens stack cursor) (hreached : Reached start (stack.reader cursor)) :
    ∃ last, Reached start last ∧ last.step = .error .ended := by
  induction hcount : pending stack cursor using Nat.strongRecOn generalizing stack cursor with
  | _ count ih =>
    rcases h.step with ⟨hended, -, -⟩ | ⟨next, place, hnext, hgood, hless⟩
    · exact ⟨_, hreached, hended⟩
    · exact ih _ (hcount ▸ hless) hgood (hreached.step hnext) rfl

end Reader

/-- **Reading braces goes wrong nowhere and ends**, whatever the tokens: at the head of every
    iteration the reader is sound, and the iteration passes its checks; some iteration is the last,
    and it stands on the first end of the text, with the tree in the root. -/
theorem reading_safe (tokens : List Token) :
    (∀ reader, Reader.Reached (settle tokens) reader →
      reader.Sound ∧ reader.step ≠ .error .underflow ∧ reader.step ≠ .error .outOfBounds) ∧
    (∃ last, Reader.Reached (settle tokens) last ∧ last.step = .error .ended) ∧
    ∀ last, Reader.Reached (settle tokens) last → last.step = .error .ended →
      last.frames = [] ∧ last.cursor.token = .endOfText ∧
        last.cursor.pos = (settle tokens).idxOf .endOfText ∧
        Node.ofTokens tokens = .plain last.root.reverse := by
  refine ⟨?_, ?_, ?_⟩
  · intro reader hreached
    obtain ⟨stack, cursor, rfl, hfollows⟩ := hreached.follows
    refine ⟨hfollows.sound, ?_⟩
    rcases hfollows.step with ⟨hended, -, -⟩ | ⟨next, place, hnext, -, -⟩
    · rw [hended]
      exact ⟨nofun, nofun⟩
    · rw [hnext]
      exact ⟨nofun, nofun⟩
  · exact Reader.exists_ended (.start tokens) .start
  · intro last hreached hended
    obtain ⟨⟨levels, root⟩, cursor, rfl, hfollows⟩ := hreached.follows
    rcases hfollows.step with ⟨-, hlevels, htoken⟩ | ⟨next, place, hnext, -, -⟩
    · obtain rfl : levels = [] := hlevels
      exact ⟨rfl, htoken, hfollows.ended htoken⟩
    · rw [hnext] at hended
      exact absurd hended nofun

end Braces

end Transclusion
