/-!
# The directory a command runs in

A command is given the name of a source file; what it finds there is a file's bytes, a directory, or nothing.
`Directory` is a directory as data, with all that lies below it, and `Directory.find?` walks along a path from it.
-/
namespace Brainfuck

/-- What a path leads to. -/
inductive Entry where
  | file (bytes : List UInt8)
  | directory
  deriving DecidableEq, Repr

/-- Why a source file could not be read as text. -/
inductive ReadFailure where
  | notUtf8
  | isDirectory
  deriving DecidableEq, Repr

namespace ReadFailure

def message : ReadFailure → String
  | .notUtf8 => "Error \x7b kind: InvalidData, message: \"stream did not contain valid UTF-8\" \x7d"
  | .isDirectory => "Os \x7b code: 21, kind: IsADirectory, message: \"Is a directory\" \x7d"

end ReadFailure

namespace Entry

def text : Entry → Except ReadFailure String
  | .directory => .error .isDirectory
  | .file bytes =>
    match String.fromUTF8? ⟨bytes.toArray⟩ with
    | some text => .ok text
    | none => .error .notUtf8

end Entry

/-- The entries below a directory, each with the names that lead to it; of several at one place the first is there. -/
structure Directory where
  entries : List (List String × Entry)

namespace Directory

/-- The components of a path: what stands between its slashes. -/
def components (path : String) : List String := path.splitOn "/"

/-- Whether a component leads on from a directory to the same directory. -/
def isTrivial (component : String) : Bool := component = "" || component = "."

/-! ## Making entries -/

/-- The names that lead to a place reached by one component more; none above the directory. -/
def advance? (names : List String) (component : String) : Option (List String) :=
  if isTrivial component then some names
  else if component ≠ ".." then some (names ++ [component])
  else if names.isEmpty then none
  else some names.dropLast

/-- The places along a path, the last one first; none if the path leaves the directory. -/
def trail? (path : String) : Option (List (List String)) :=
  (components path).foldlM
    (fun (places : List (List String)) component => (advance? (places.headD []) component).map (· :: places)) []

/-- Puts an entry at the end of a path, in place of what was there, and makes the directories along it. -/
def make (d : Directory) (path : String) (entry : Entry) : Directory :=
  match trail? path with
  | some (place :: along) => ⟨(place, entry) :: along.map (fun names => (names, .directory)) ++ d.entries⟩
  | _ => d

/-- The directory after these files and directories were made in it, one after the other, each under its path. -/
def ofPaths (files : List (String × Entry)) : Directory :=
  files.foldl (fun d (path, entry) => d.make path entry) ⟨[]⟩

/-- The entry that some names lead to. -/
def lookup? (d : Directory) (names : List String) : Option Entry :=
  (d.entries.find? (·.1 = names)).map (·.2)

/-! ## Walking along a path -/

/-- Where a walk stands: in the directory some names lead to, in one above, of which nothing is known but what lies
above it, or at a file. -/
inductive Place where
  | inside (names : List String)
  | above
  | atFile (bytes : List UInt8)
  deriving DecidableEq, Repr

/-- The place a component leads to.  A file has nothing below it, not even itself; above the root is the root. -/
def step (d : Directory) : Place → String → Option Place
  | .atFile _, _ => none
  | .above, component => if isTrivial component || component = ".." then some .above else none
  | .inside names, component =>
    if isTrivial component then some (.inside names)
    else if component = ".." then some (if names.isEmpty then .above else .inside names.dropLast)
    else
      match d.lookup? (names ++ [component]) with
      | some (.file bytes) => some (.atFile bytes)
      | some .directory => some (.inside (names ++ [component]))
      | none => none

def start (path : String) : Place := if path.toList.head? = some '/' then .above else .inside []

/-- A path of this many bytes is too long to lead anywhere. -/
def pathBound : Nat := 4096

def find? (d : Directory) (path : String) : Option Entry :=
  if path = "" ∨ pathBound ≤ path.utf8ByteSize then none
  else
    match (components path).foldlM d.step (start path) with
    | some (.atFile bytes) => some (.file bytes)
    | some _ => some .directory
    | none => none

end Directory

end Brainfuck
