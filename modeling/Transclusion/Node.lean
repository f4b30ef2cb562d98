/-
  The tree of a page: text, and the calls and placeholders written in it.

  A call `{{name|arg}}` stands for the body of a page, a placeholder `{{{name}}}` for an argument of
  the call that this body was reached by.  Names, arguments and defaults are markup themselves, so
  they are nodes.
-/
import Transclusion.Token

namespace Transclusion

/-- A piece of a page. -/
inductive Node where
  /-- Literal text. -/
  | text (source : String)
  /-- The children, one after another. -/
  | plain (children : List Node)
  /-- A parameter, and what stands in its place when it is not bound: `{{{name|default}}}`. -/
  | placeholder (name : Node) (default : Option Node)
  /-- A call with its arguments: `{{name|arg|…}}`. -/
  | invocation (name : Node) (args : List Node)
deriving Inhabited

namespace Node

mutual

/-- Decides whether two trees are the same. -/
def decEq : (a b : Node) → Decidable (a = b)
  | text s, text t => decidable_of_iff (s = t) (by simp)
  | plain cs, plain ds =>
    match decEqList cs ds with
    | isTrue h => isTrue (h ▸ rfl)
    | isFalse h => isFalse (by simpa using h)
  | placeholder m none, placeholder n none =>
    match decEq m n with
    | isTrue h => isTrue (h ▸ rfl)
    | isFalse h => isFalse (by simpa using h)
  | placeholder m (some d), placeholder n (some e) =>
    match decEq m n, decEq d e with
    | isTrue h, isTrue h' => isTrue (h ▸ h' ▸ rfl)
    | isFalse h, _ => isFalse fun eq => h (by cases eq; rfl)
    | _, isFalse h => isFalse fun eq => h (by cases eq; rfl)
  | invocation m cs, invocation n ds =>
    match decEq m n, decEqList cs ds with
    | isTrue h, isTrue h' => isTrue (h ▸ h' ▸ rfl)
    | isFalse h, _ => isFalse fun eq => h (by cases eq; rfl)
    | _, isFalse h => isFalse fun eq => h (by cases eq; rfl)
  | placeholder _ none, placeholder _ (some _) => isFalse nofun
  | placeholder _ (some _), placeholder _ none => isFalse nofun
  | text _, plain _ => isFalse nofun
  | text _, placeholder _ _ => isFalse nofun
  | text _, invocation _ _ => isFalse nofun
  | plain _, text _ => isFalse nofun
  | plain _, placeholder _ _ => isFalse nofun
  | plain _, invocation _ _ => isFalse nofun
  | placeholder _ _, text _ => isFalse nofun
  | placeholder _ _, plain _ => isFalse nofun
  | placeholder _ _, invocation _ _ => isFalse nofun
  | invocation _ _, text _ => isFalse nofun
  | invocation _ _, plain _ => isFalse nofun
  | invocation _ _, placeholder _ _ => isFalse nofun

/-- Decides whether two lists of trees are the same. -/
def decEqList : (as bs : List Node) → Decidable (as = bs)
  | [], [] => isTrue rfl
  | [], _ :: _ => isFalse nofun
  | _ :: _, [] => isFalse nofun
  | a :: as, b :: bs =>
    match decEq a b, decEqList as bs with
    | isTrue h, isTrue h' => isTrue (h ▸ h' ▸ rfl)
    | isFalse h, _ => isFalse fun eq => h (by cases eq; rfl)
    | _, isFalse h => isFalse fun eq => h (by cases eq; rfl)

end

instance : DecidableEq Node := decEq

/-- Whether the node is a text of exactly these characters. -/
def isText (source : String) : Node → Bool
  | .text s => s == source
  | _ => false

theorem eq_text_of_isText {node : Node} {source : String} (h : node.isText source = true) :
    node = .text source := by
  cases node with
  | text s =>
    have hs : s = source := by simpa [isText] using h
    rw [hs]
  | _ => simp [isText] at h

end Node

end Transclusion
