/-
  The program: expand one page, with a directory to serve the others.

  What it prints depends on its arguments, on standard input and on the files that it reads, and
  these are given by its outcome too.  A page that cannot be read ends the program.  Anything else
  that goes wrong is told twice on the error output: to the logger when it is met, and in a line of
  the program's own when the expansion is done.

  What others write for the program, the logger among them, is a parameter (`Wording`).
-/
import Transclusion.CommandLine.Files
import Transclusion.CommandLine.Options
import Transclusion.Expander
import Transclusion.Node.Outline

namespace Transclusion.CommandLine

/-- What a run of the program leaves. -/
structure Outcome where
  exitCode : Nat
  stdout : String
  stderr : String
  /-- The paths of the files that it read or tried to read, in order. -/
  reads : List String
deriving DecidableEq, Inhabited

/-- What others write for the program. -/
structure Wording where
  /-- What the reader of the command line writes when the words ask for help. -/
  help : List String → String
  /-- What the reader of the command line writes of words that cannot be understood. -/
  refusal : List String → UsageError → String
  /-- What the logger writes of a warning, its line break included, when it was given so many
      before; the number stands for the time, which may be written too.  It writes nothing if it is
      turned off.  Lesser records are let through on request only, and are left out here. -/
  warning : Nat → String → String

/-- What the logger writes of a problem, when it was given so many before. -/
def Wording.told (wording : Wording) (before : Nat) (problem : Diagnostic) : String :=
  wording.warning before problem.message

/-- Others write nothing. -/
def Wording.silent : Wording := ⟨fun _ => "", fun _ _ => "", fun _ _ => ""⟩

namespace Options

/-- The directory of the pages. -/
def directory (options : Options) : String := options.templates.getD "."

/-- How far the expansion may go. -/
def limits (options : Options) : Limits :=
  match options.maxDepth with
  | none => {}
  | some maxDepth => { maxDepth }

/-- What the page is expanded with. -/
def setting (options : Options) (read : Reader) : Setting :=
  ⟨options.page.getD "", directorySource read options.directory, .empty, options.limits⟩

/-- The text of the page. -/
def pageText (options : Options) (read : Reader) (stdin : ByteArray) : Except ReadError String :=
  match options.file with
  | some path => readText read path
  | none => decode stdin

/-- Where the page comes from, in words. -/
def pageOrigin (options : Options) : String := options.file.getD "stdin"

/-- The path of the file that a question to the source is answered from. -/
def lookupFile? (options : Options) : Lookup → Option String
  | .template name => pageFile? options.directory name
  | .article title => pageFile? options.directory title

/-- The outcome for a page that could be read.  The logger is told of a problem when it is met, so
    what it writes stands in front of the lines of the program. -/
def present (options : Options) (read : Reader) (text : String) (wording : Wording) : Outcome :=
  let expander := Expander.ofPage text (options.setting read)
  if options.showTree then ⟨0, expander.tree.render, "", options.file.toList⟩
  else
    let (expansion, expander) := expander.expand
    let problems := expander.diagnostics.toList
    let lines := problems.map fun problem => "wikiexpand: " ++ problem.message ++ "\n"
    ⟨0, expansion, String.join (problems.mapIdx wording.told ++ lines),
      options.file.toList ++ expander.cache.asked.toList.filterMap options.lookupFile?⟩

/-- The outcome for a page that could not be read. -/
def unreadable (options : Options) (error : ReadError) : Outcome :=
  ⟨1, "", "Error: Failed to read " ++ options.pageOrigin ++ "\n\nCaused by:\n    " ++
    error.message ++ "\n", options.file.toList⟩

/-- Runs the program on options. -/
def run (options : Options) (read : Reader) (stdin : ByteArray) (wording : Wording) : Outcome :=
  match options.pageText read stdin with
  | .ok text => options.present read text wording
  | .error error => options.unreadable error

end Options

/-- Runs the program on a command line.  What others write is left out unless it is given. -/
def run (read : Reader) (stdin : ByteArray) (words : List String) (wording : Wording := .silent) :
    Outcome :=
  match parse words with
  | .error error => ⟨2, "", wording.refusal words error, []⟩
  | .ok .help => ⟨0, wording.help words, "", []⟩
  | .ok (.expand options) => options.run read stdin wording

end Transclusion.CommandLine
