import SliceControl.SortedMap
import SliceControl.Text.Pieces

/-!
# Files

Files are read by path. A file tree holds the contents of files by relative path; the directories
are those that a file stands in.
-/

namespace SliceControl.Command

open Text

/-- Why a file cannot be read. -/
inductive FileFault where
  | missing
  | notDirectory
  | isDirectory
  | notText
  /-- The operation is not available. -/
  | unavailable
  deriving DecidableEq

namespace FileFault

def message : FileFault → String
  | missing => "No such file or directory (os error 2)"
  | notDirectory => "Not a directory (os error 20)"
  | isDirectory => "Is a directory (os error 21)"
  | notText => "stream did not contain valid UTF-8"
  | unavailable => "Operation not supported (os error 95)"

/-- Whether nothing is found under the path. -/
def isAbsent : FileFault → Bool
  | missing | notDirectory => true
  | isDirectory | notText | unavailable => false

end FileFault

/-- The contents of files by path. -/
abbrev FileTree := SortedMap String

namespace FileTree

/-- The names on a relative path, where a point alone stands for the directory itself. -/
def segments (path : String) : List String :=
  (((pieces '/' path.toList).filter fun name => name ≠ [] && name ≠ ['.'])).map String.ofList

/-- Reads the file at a path; a slash after the name of a file asks for a directory. -/
def read (tree : FileTree) (path : String) : Except FileFault String :=
  let names := segments path
  let files := tree.entries.map fun entry => (segments entry.1, entry.2)
  if path.toList.head? = some '/' then .error .missing
  else match files.lookup names with
    | some text =>
      if path.toList.getLast? = some '/' then .error .notDirectory else .ok text
    | none =>
      if files.any fun file => names.isPrefixOf file.1 then .error .isDirectory
      else if names.isEmpty then .error .isDirectory
      else if files.any fun file => file.1.isPrefixOf names then .error .notDirectory
      else .error .missing

end FileTree

end SliceControl.Command
