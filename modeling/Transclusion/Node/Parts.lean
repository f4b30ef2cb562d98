/-
  Calls and placeholders from what is found between their braces.

  The children between a pair of braces are flat: separators are texts like any other.  What opens
  a call gives its meaning to them.  In a call the name ends at the first `|` or `:`, and every
  further `|` outside a link parts two arguments; in a placeholder only the first `|` counts.
-/
import Transclusion.Node

namespace Transclusion.Node

/-- Whether a call's name ends here. -/
def endsName (child : Node) : Bool := child.isText "|" || child.isText ":"

/-- The arguments of a call, parted at the bars outside links.

    `args` are the finished ones and `arg` is the one under way, both in reverse; `links` is the
    number of links opened so far less the number closed.  A bar parts two arguments exactly where
    the two numbers agree.  `links` has no bounds: one of 32 bits comes to the same as long as no
    call has 2^31 brackets.  Only an empty last argument is dropped. -/
def partArguments (args arg : List Node) (links : Int) : List Node → List Node
  | [] => if arg.isEmpty then args.reverse else (plain arg.reverse :: args).reverse
  | child :: later =>
    if child.isText "[[" then partArguments args (child :: arg) (links + 1) later
    else if child.isText "]]" then partArguments args (child :: arg) (links - 1) later
    else if child.isText "|" && links == 0 then
      partArguments (plain arg.reverse :: args) [] links later
    else partArguments args (child :: arg) links later

/-- Finished arguments stay in front. -/
theorem partArguments_eq_append (args arg : List Node) (links : Int) (children : List Node) :
    partArguments args arg links children =
      args.reverse ++ partArguments [] arg links children := by
  induction children generalizing args arg links with
  | nil =>
    simp only [partArguments]
    split <;> simp
  | cons child later ih =>
    simp only [partArguments]
    split
    · exact ih args _ _
    · split
      · exact ih args _ _
      · split
        · rw [ih (plain arg.reverse :: args), ih [plain arg.reverse]]
          simp
        · exact ih args _ _

/-- The call made of the children between two pairs of braces. -/
def invocationFrom (children : List Node) : Node :=
  let name := children.takeWhile fun child => !child.endsName
  let rest := (children.dropWhile fun child => !child.endsName).drop 1
  invocation (plain name) (partArguments [] [] 0 rest)

/-- The placeholder made of the children between two triples of braces.  Everything behind the
    first bar is its default, further bars included. -/
def placeholderFrom (children : List Node) : Node :=
  let name := children.takeWhile fun child => !child.isText "|"
  match children.dropWhile fun child => !child.isText "|" with
  | [] => placeholder (plain name) none
  | _ :: rest => placeholder (plain name) (some (plain rest))

end Transclusion.Node
