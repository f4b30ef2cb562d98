/-
  The arguments of a call, bound to the parameters of the body that it reaches.

  An argument `key=value` binds the parameter `key`; any other one binds the next position, counted
  from 1 and written as a numeral.  Positions and keys share one namespace, and the last argument
  for a parameter wins.
-/
import Transclusion.Table
import Transclusion.Text.Blank
import Transclusion.Text.Numeral
import Transclusion.Text.Word

namespace Transclusion

/-- What a call binds. -/
structure Arguments where
  /-- The parameters and their values, in the order in which each parameter first came. -/
  bindings : Table String
  /-- The arguments as they were written, trimmed, the named ones included. -/
  raw : List String
deriving DecidableEq, Inhabited

namespace Arguments

/-- No arguments. -/
def empty : Arguments := ⟨[], []⟩

/-- Whether `key` can name a parameter: a word, or the one key for the default of a choice. -/
def isKey (key : List Char) : Bool := Text.isWord key || key == "#default".toList

/-- The key and the value of an argument that has both: what stands before its first `=` must be
    able to name a parameter.  The value keeps any further `=`. -/
def named? (arg : String) : Option (String × String) :=
  let key := Text.trimChars (arg.toList.takeWhile (· != '='))
  match arg.toList.dropWhile (· != '=') with
  | [] => none
  | _ :: value =>
    if isKey key then some (String.ofList key, String.ofList (Text.trimChars value)) else none

/-- Binds `args`, of which the next without a key takes `position`, on top of `bindings`. -/
def bindFrom (position : Nat) (bindings : Table String) : List String → Table String
  | [] => bindings
  | arg :: later =>
    match named? arg with
    | some (key, value) => bindFrom position (bindings.assign key value) later
    | none => bindFrom (position + 1) (bindings.assign (Text.numeral position) (Text.trim arg)) later

/-- What a call with these argument texts binds. -/
def bind (args : List String) : Arguments := ⟨bindFrom 1 [] args, args.map Text.trim⟩

/-- The value of a parameter. -/
def get? (args : Arguments) (key : String) : Option String := args.bindings.get? key

/-- The value at a position, counted from 1. -/
def positional? (args : Arguments) (position : Nat) : Option String :=
  args.get? (Text.numeral position)

/-- Whether a parameter is bound. -/
def contains (args : Arguments) (key : String) : Bool := (args.get? key).isSome

/-- How many parameters are bound. -/
def size (args : Arguments) : Nat := args.bindings.length

/-- Whether no parameter is bound. -/
def isEmpty (args : Arguments) : Bool := args.bindings.isEmpty

end Arguments

end Transclusion
