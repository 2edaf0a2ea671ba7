/-! Files by name, and why a name may lead to no text. A name is looked up part by part, from the
root if it starts with a slash and else from the working directory; the first part that cannot be
followed decides why the lookup fails. -/

namespace ScalarLang

/-- Why a source could not be read. -/
inductive ReadFailure where
  | missing
  | notDirectory
  | isDirectory
  | nameTooLong
  | notText
  | other (reason : String)
  deriving DecidableEq, Repr

namespace ReadFailure

def cause : ReadFailure → String
  | missing => "No such file or directory (os error 2)"
  | notDirectory => "Not a directory (os error 20)"
  | isDirectory => "Is a directory (os error 21)"
  | nameTooLong => "File name too long (os error 36)"
  | notText => "stream did not contain valid UTF-8"
  | other reason => reason

end ReadFailure

inductive FileTree where
  | file (bytes : ByteArray)
  | directory (entries : List (String × FileTree))
  deriving Inhabited

/-- A file or directory with the directories around it, the nearest first. -/
structure FilePlace where
  here : FileTree
  above : List FileTree
  deriving Inhabited

namespace FilePlace

/-- The greatest number of bytes in a part of a name. -/
def longestPart : Nat := 255

/-- The greatest number of bytes in a name. -/
def longestName : Nat := 4095

/-- Follows one part of a name. An empty part, as a slash at the end leaves one, stays in place but
needs a directory to stay in. -/
def follow (place : FilePlace) (part : String) : Except ReadFailure FilePlace :=
  match place.here with
  | .file _ => .error .notDirectory
  | .directory entries =>
    if part = "" ∨ part = "." then .ok place
    else if part = ".." then
      match place.above with
      | [] => .ok place
      | outer :: rest => .ok ⟨outer, rest⟩
    else if longestPart < part.utf8ByteSize then .error .nameTooLong
    else
      match entries.lookup part with
      | none => .error .missing
      | some found => .ok ⟨found, place.here :: place.above⟩

def root (place : FilePlace) : FilePlace := ⟨place.above.getLastD place.here, []⟩

/-- What a name leads to from a working directory. -/
def find (working : FilePlace) (name : String) : Except ReadFailure FilePlace :=
  if name = "" then .error .missing
  else if longestName < name.utf8ByteSize then .error .nameTooLong
  else (name.splitOn "/").foldlM follow (if name.startsWith "/" then working.root else working)

/-- The bytes of the file that a name leads to. -/
def read (working : FilePlace) (name : String) : Except ReadFailure ByteArray := do
  match (← working.find name).here with
  | .file bytes => return bytes
  | .directory _ => throw .isDirectory

def emptyDirectories (names : List String) : List (String × FileTree) :=
  names.map fun name => (name, .directory [])

/-- An empty working directory in a system with the standard directories. Its only files are the
null device and the one that stands for the standard input. -/
def standard (input : ByteArray) : FilePlace :=
  let devices := [("null", FileTree.file .empty), ("stdin", .file input)]
  let directories := emptyDirectories
    ["bin", "boot", "etc", "home", "lib", "media", "mnt", "opt", "proc", "root", "run", "sbin",
     "srv", "sys", "tmp", "usr", "var"]
  ⟨.directory [], [.directory (("dev", .directory devices) :: directories)]⟩

end FilePlace

end ScalarLang
