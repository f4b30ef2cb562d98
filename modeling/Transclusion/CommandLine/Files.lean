/-
  Pages in files.

  A directory serves its pages as a source: the page `NAME` is the file `NAME.wiki` in it.  A name
  that could lead anywhere else, or to a hidden file, names no page.
-/
import Transclusion.Source
import Transclusion.Text.Blank
import Transclusion.Text.Numeral

namespace Transclusion.CommandLine

/-- Why a file cannot be read. -/
inductive ReadError where
  /-- The system refused, by its number of the reason and its words for it. -/
  | system (number : Nat) (reason : String)
  /-- The contents are not text. -/
  | notUtf8
deriving DecidableEq, Inhabited

namespace ReadError

/-- Nothing is at the path. -/
def noSuchFile : ReadError := .system 2 "No such file or directory"

/-- The path leads on from something that is no directory. -/
def notDirectory : ReadError := .system 20 "Not a directory"

/-- A directory is at the path. -/
def isDirectory : ReadError := .system 21 "Is a directory"

/-- A part of the path, or all of it, is longer than a system takes. -/
def nameTooLong : ReadError := .system 36 "File name too long"

/-- The number of a refusal of the system. -/
def number? : ReadError → Option Nat
  | .system number _ => some number
  | .notUtf8 => none

/-- A read error in words. -/
def message : ReadError → String
  | .system number reason => reason ++ " (os error " ++ Text.numeral number ++ ")"
  | .notUtf8 => "stream did not contain valid UTF-8"

end ReadError

/-- The contents of files, by path. -/
abbrev Reader := String → Except ReadError ByteArray

/-- Contents as text. -/
def decode (contents : ByteArray) : Except ReadError String :=
  match String.fromUTF8? contents with
  | some text => .ok text
  | none => .error .notUtf8

/-- The text of a file. -/
def readText (read : Reader) (path : String) : Except ReadError String :=
  match read path with
  | .ok contents => decode contents
  | .error error => .error error

/-- The path of `file` in `directory`. -/
def pathIn (directory file : String) : String :=
  if directory.toList.getLast? == some '/' then directory ++ file else directory ++ "/" ++ file

/-- Whether a trimmed name can be the name of a page in a directory: it is not empty, leads to no
    other directory, and is not hidden. -/
def isPageName (name : List Char) : Bool :=
  !name.isEmpty && !name.contains '/' && !name.contains '\\' && name.head? != some '.'

/-- The path of a page in a directory. -/
def pageFile? (directory name : String) : Option String :=
  let name := Text.trimChars name.toList
  if isPageName name then some (pathIn directory (String.ofList name ++ ".wiki")) else none

/-- The text of a page in a directory; a page that cannot be read is missing. -/
def page? (read : Reader) (directory name : String) : Option String :=
  match pageFile? directory name with
  | none => none
  | some path => (readText read path).toOption

/-- A directory as a source, templates and articles alike. -/
def directorySource (read : Reader) (directory : String) : Source :=
  ⟨page? read directory, page? read directory⟩

end Transclusion.CommandLine
