/-
  Bodies that are read once.

  The cache keeps the tree of every body that was resolved, and that a page is missing too, so a
  source is asked at most once for a name.  It counts what it did: bodies parsed, and resolutions
  that needed no question.
-/
import Transclusion.Node.Braces
import Transclusion.Source

namespace Transclusion

/-- The character that is put in front of a body that starts like a list or definition line, so
    that the line starts inside the body and not in the text before the call. -/
def lineStart : Char := '\x00'

/-- A body as it is parsed: behind `lineStart` when it begins with `:` or `;`. -/
def guardLineStart (text : String) : String :=
  match text.toList with
  | ':' :: _ => String.ofList [lineStart] ++ text
  | ';' :: _ => String.ofList [lineStart] ++ text
  | _ => text

/-- Resolved bodies, and how they came. -/
structure Cache where
  /-- The trees of the names resolved so far, in order; nothing for a missing page. -/
  entries : Table (Option Node)
  /-- How many bodies were parsed. -/
  parses : Nat
  /-- How many resolutions were answered from the entries. -/
  hits : Nat
  /-- The questions that went to a source, in order. -/
  asked : Array Lookup

namespace Cache

/-- A cache that has resolved nothing. -/
def empty : Cache := ⟨[], 0, 0, #[]⟩

/-- Puts a question to a source, and keeps that it was put. -/
def ask (cache : Cache) (source : Source) (lookup : Lookup) : Option String × Cache :=
  (source.answer lookup, { cache with asked := cache.asked.push lookup })

/-- The body of a call by `name`: the one that is kept, or else what the source has now, which is
    kept from here on. -/
def resolve (cache : Cache) (source : Source) (name : String) : Option Node × Cache :=
  match cache.entries.get? name with
  | some body => (body, { cache with hits := cache.hits + 1 })
  | none =>
    match cache.ask source (.ofName name) with
    | (some text, cache) =>
      let body := Node.parse (guardLineStart text)
      (some body,
        { cache with entries := cache.entries.assign name (some body), parses := cache.parses + 1 })
    | (none, cache) => (none, { cache with entries := cache.entries.assign name none })

/-- Whether `name` was resolved, to a body or to none. -/
def contains (cache : Cache) (name : String) : Bool := cache.entries.has name

/-- How many names were resolved. -/
def size (cache : Cache) : Nat := cache.entries.length

/-- Whether no name was resolved. -/
def isEmpty (cache : Cache) : Bool := cache.entries.isEmpty

end Cache

end Transclusion
