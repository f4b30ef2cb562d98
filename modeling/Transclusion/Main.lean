/-
  The program on the files of the system.

  The run itself is a function of the files that it reads, and tells which these are.  So it is
  started with no page files known, the files that it missed are read, and it is started again,
  until it has seen every file that it asks for.

  The wording of help, of refusals and of warnings is this program's own.
-/
import Transclusion.CommandLine.Program

namespace Transclusion.CommandLine

/-- A refusal of the system.  Some layers report the number of the reason with a minus sign, and
    in words of their own. -/
def refusal (number : UInt32) (reason : String) : ReadError :=
  let number := if number < 0x80000000 then number else 0 - number
  let known : List ReadError := [.noSuchFile, .notDirectory, .isDirectory, .nameTooLong]
  (known.find? fun error => error.number? == some number.toNat).getD
    (.system number.toNat reason.capitalize)

/-- The contents of a file of the system. -/
def readSystemFile (path : String) : IO (Except ReadError ByteArray) := do
  -- no file has a NUL in its name, but the system would read the name up to it
  if path.toList.contains '\x00' then return .error (.system 22 "Invalid argument")
  try
    return .ok (← IO.FS.readBinFile path)
  catch
    | .noFileOrDirectory _ number reason => return .error (refusal number reason)
    | .invalidArgument _ number reason => return .error (refusal number reason)
    | .inappropriateType _ number reason => return .error (refusal number reason)
    | .permissionDenied _ number reason => return .error (refusal number reason)
    | error => return .error (.system 5 (toString error))

/-- The form of a command line. -/
def usageLine : String :=
  "Usage: wikiexpand [--templates DIR] [--page NAME] [--max-depth N] [--show-tree] [FILE]\n"

/-- The wording of the program on the files of the system. -/
def systemWording : Wording where
  help _ := "Expand the templates of a wiki page\n\n" ++ usageLine
  refusal _ error :=
    let reason := match error with
      | .unknownOption word => "unexpected argument " ++ Text.quote word
      | .missingValue option => "a value is required for --" ++ option.name
      | .invalidValue value => "invalid value " ++ Text.quote value
      | .givenTwice word => Text.quote word ++ " was given twice"
    "error: " ++ reason ++ "\n\n" ++ usageLine
  warning _ problem := "[WARN] " ++ problem ++ "\n"

/-- Runs the program until every file that it reads is among the `known` ones. -/
partial def runKnowing (known : Table (Except ReadError ByteArray)) (stdin : ByteArray)
    (words : List String) : IO Outcome := do
  let read : Reader := fun path => (known.get? path).getD (.error .noSuchFile)
  let outcome := run read stdin words systemWording
  match outcome.reads.find? fun path => !known.has path with
  | none => return outcome
  | some path => runKnowing ((path, ← readSystemFile path) :: known) stdin words

/-- Whether the page comes from standard input. -/
def needsStdin (words : List String) : Bool :=
  match parse words with
  | .ok (.expand options) => options.file.isNone
  | _ => false

end Transclusion.CommandLine

open Transclusion.CommandLine in
/-- Runs the program on the words of the command line. -/
def main (words : List String) : IO UInt32 := do
  let stdin ← if needsStdin words then (← IO.getStdin).readBinToEnd else pure .empty
  let outcome ← runKnowing [] stdin words
  IO.print outcome.stdout
  IO.eprint outcome.stderr
  return outcome.exitCode.toUInt32
