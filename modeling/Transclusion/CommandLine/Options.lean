/-
  The words of the command line.

  Options may stand before and behind the file, in any order, and each at most once.  A long option
  takes its value from the next word or behind `=`; `-t` takes it from the next word, or from the
  rest of its own.  A next word that looks like an option is no value.  Behind `--` every word is a
  file.
-/
import Transclusion.Text.Numeral

namespace Transclusion.CommandLine

/-- The options that take a value. -/
inductive ValueOption where
  /-- The directory of the pages. -/
  | templates
  /-- The name of the page that is expanded. -/
  | page
  /-- How many bodies may be open at once. -/
  | maxDepth
deriving DecidableEq

/-- The name of an option, without its dashes. -/
def ValueOption.name : ValueOption → String
  | .templates => "templates"
  | .page => "page"
  | .maxDepth => "max-depth"

/-- The option of a name. -/
def ValueOption.ofName? (name : String) : Option ValueOption :=
  [templates, page, maxDepth].find? fun option => option.name == name

/-- What a single word of the command line is. -/
inductive Word where
  /-- No word behind this one is an option. -/
  | endOfOptions
  | help
  | showTree
  /-- An option whose value is the next word. -/
  | expects (option : ValueOption)
  /-- An option together with its value. -/
  | gives (option : ValueOption) (value : String)
  /-- It looks like an option and is none. -/
  | unknown
  /-- A file, or the value of an option. -/
  | operand (text : String)
deriving DecidableEq

/-- Reads the part of a long option behind its dashes. -/
def Word.readLong (long : List Char) : Word :=
  let name := String.ofList (long.takeWhile (· != '='))
  match long.dropWhile (· != '='), ValueOption.ofName? name with
  | [], some option => .expects option
  | _ :: value, some option => .gives option (String.ofList value)
  | [], none => if name == "help" then .help else if name == "show-tree" then .showTree else .unknown
  | _ :: _, none => .unknown

/-- Reads a word.  A single dash is an operand. -/
def Word.read (word : String) : Word :=
  match word.toList with
  | ['-'] => .operand word
  | ['-', '-'] => .endOfOptions
  | '-' :: '-' :: long => readLong long
  | '-' :: 'h' :: _ => .help
  | ['-', 't'] => .expects .templates
  | '-' :: 't' :: '=' :: value => .gives .templates (String.ofList value)
  | '-' :: 't' :: value => .gives .templates (String.ofList value)
  | '-' :: _ => .unknown
  | _ => .operand word

/-- Why the command line cannot be understood. -/
inductive UsageError where
  | unknownOption (word : String)
  | missingValue (option : ValueOption)
  | invalidValue (value : String)
  | givenTwice (word : String)
deriving DecidableEq

/-- What the command line sets. -/
structure Options where
  /-- The file of the page; without one it comes from standard input. -/
  file : Option String := none
  templates : Option String := none
  page : Option String := none
  maxDepth : Option Nat := none
  /-- The tree is asked for instead of the expansion. -/
  showTree : Bool := false
deriving DecidableEq, Inhabited

/-- The greatest depth that can be asked for. -/
def greatestDepth : Nat := UInt64.size - 1

/-- A depth as it is written: decimal digits, of which a `+` may stand in front. -/
def readDepth? (text : String) : Option Nat :=
  let digits := match text.toList with
    | '+' :: digits => digits
    | digits => digits
  (Text.readNumeral? digits).filter fun depth => depth ≤ greatestDepth

/-- Sets an option that takes a value. -/
def Options.set (options : Options) (option : ValueOption) (value : String) :
    Except UsageError Options :=
  match option with
  | .templates =>
    if options.templates.isSome then .error (.givenTwice option.name)
    else if value.isEmpty then .error (.invalidValue value)
    else .ok { options with templates := some value }
  | .page =>
    if options.page.isSome then .error (.givenTwice option.name)
    else .ok { options with page := some value }
  | .maxDepth =>
    if options.maxDepth.isSome then .error (.givenTwice option.name)
    else match readDepth? value with
      | none => .error (.invalidValue value)
      | some depth => .ok { options with maxDepth := some depth }

/-- Sets the file. -/
def Options.setFile (options : Options) (file : String) : Except UsageError Options :=
  if options.file.isSome then .error (.givenTwice "file")
  else if file.isEmpty then .error (.invalidValue file)
  else .ok { options with file := some file }

/-- What the command line asks for. -/
inductive Request where
  | help
  | expand (options : Options)
deriving DecidableEq

/-- Reads words of which each is a file. -/
def parseFiles (options : Options) : List String → Except UsageError Options
  | [] => .ok options
  | file :: later =>
    match options.setFile file with
    | .error error => .error error
    | .ok options => parseFiles options later

/-- Reads words on top of what earlier ones have set. -/
def parseWords (options : Options) : List String → Except UsageError Request
  | [] => .ok (.expand options)
  | word :: later =>
    match Word.read word with
    | .endOfOptions => (parseFiles options later).map .expand
    | .help => .ok .help
    | .unknown => .error (.unknownOption word)
    | .showTree =>
      if options.showTree then .error (.givenTwice word)
      else parseWords { options with showTree := true } later
    | .gives option value =>
      match options.set option value with
      | .error error => .error error
      | .ok options => parseWords options later
    | .operand file =>
      match options.setFile file with
      | .error error => .error error
      | .ok options => parseWords options later
    | .expects option =>
      match later with
      | [] => .error (.missingValue option)
      | value :: later =>
        match Word.read value with
        | .operand value =>
          match options.set option value with
          | .error error => .error error
          | .ok options => parseWords options later
        | _ => .error (.missingValue option)

/-- Reads a command line. -/
def parse (words : List String) : Except UsageError Request := parseWords {} words

end Transclusion.CommandLine
