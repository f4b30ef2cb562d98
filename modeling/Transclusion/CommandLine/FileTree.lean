/-
  Files held in memory, read by the paths that lead to them.

  A tree of files has the directories that the paths of its files lead through.  Reading starts in
  the uppermost of them.  What lies above that is a directory of which nothing is known.

  Names and paths are limited in length, counted in bytes of UTF-8.  A path that is too long is
  refused as a whole; a name that is too long is refused by the directory that it is looked up in,
  so not before the path has led there.
-/
import Transclusion.CommandLine.Files

namespace Transclusion.CommandLine

/-- Files by the parts of their paths. -/
structure FileTree where
  files : List (List String × ByteArray)

namespace FileTree

/-- A tree of files by their paths, which have no empty part. -/
def ofPaths (files : List (String × ByteArray)) : FileTree :=
  ⟨files.map fun file => (file.1.splitOn "/", file.2)⟩

/-- Where a path leads. -/
inductive Place where
  | file (contents : ByteArray)
  | directory (path : List String)
  /-- A directory above the tree. -/
  | above

/-- The file or directory of a path inside the tree. -/
def find? (tree : FileTree) (path : List String) : Option Place :=
  match tree.files.lookup path with
  | some contents => some (.file contents)
  | none => if tree.files.any fun file => path.isPrefixOf file.1 then some (.directory path) else none

/-- The length in bytes of the longest name of a file or directory. -/
def longestName : Nat := 255

/-- The length in bytes of the longest path. -/
def longestPath : Nat := 4095

/-- Follows one part of a path.  Only a directory leads on, and an empty part or a dot asks for
    nothing but that. -/
def step (tree : FileTree) : Place → String → Except ReadError Place
  | .file _, _ => .error .notDirectory
  | .directory path, part =>
    if part == "" || part == "." then .ok (.directory path)
    else if part == ".." then .ok (if path.isEmpty then .above else .directory path.dropLast)
    else if longestName < part.utf8ByteSize then .error .nameTooLong
    else match tree.find? (path ++ [part]) with
      | some place => .ok place
      | none => .error .noSuchFile
  | .above, part =>
    if part == "" || part == "." || part == ".." then .ok .above
    else if longestName < part.utf8ByteSize then .error .nameTooLong
    else .error .noSuchFile

/-- The contents of the file that a path leads to.  A path that begins with a slash starts above
    the tree. -/
def read (tree : FileTree) : Reader := fun path =>
  let start := if path.toList.head? == some '/' then .above else .directory []
  if path.isEmpty then .error .noSuchFile
  else if longestPath < path.utf8ByteSize then .error .nameTooLong
  else match (path.splitOn "/").foldlM tree.step start with
    | .error error => .error error
    | .ok (.file contents) => .ok contents
    | .ok _ => .error .isDirectory

end FileTree

end Transclusion.CommandLine
