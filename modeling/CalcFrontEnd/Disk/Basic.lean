/-
  DISKS — directories and files, and what comes of a path.

  1. **Data** — a `Disk` maps locations to directories and files and knows the working directory.  A
     location is a list of names from the root.  A file holds a text, or bytes that are none.

  2. **Walking** — a path is a list of steps between slashes.  An empty piece and `.` stay, `..` goes up,
     a name goes down.  A step can be taken only from a directory that exists; this holds for the empty
     piece behind a final slash too.

  3. **Reading and writing** — `read` walks the whole path and wants a text there.  `write` walks all but
     the last name and wants a directory there; it makes a new file or replaces an old one.  A path that
     ends in a slash, in `.` or in `..` names a directory, and a directory is never written to.
-/
import CalcFrontEnd.Disk.Path

namespace CalcFrontEnd

/-- The names that lead from the root to a directory or file. -/
abbrev Location := List (List Char)

/-- What stands at a location. -/
inductive Node where
  | directory
  /-- A file, with its text if its bytes are one. -/
  | file (text : Option String)
deriving DecidableEq, Repr

/-- Why a path cannot be read or written. -/
inductive Refusal where
  | notFound
  | isDirectory
  | notDirectory
  | notText
deriving DecidableEq, Repr

/-- The reason as it is reported. -/
def Refusal.reason : Refusal → String
  | notFound => "No such file or directory (os error 2)"
  | isDirectory => "Is a directory (os error 21)"
  | notDirectory => "Not a directory (os error 20)"
  | notText => "stream did not contain valid UTF-8"

/-- Directories and files, and the directory that relative paths start from. -/
structure Disk where
  nodes : List (Location × Node)
  workingDirectory : Location
deriving DecidableEq, Repr

namespace Disk

/-- What stands at a location; the root is a directory. -/
def find? (disk : Disk) (location : Location) : Option Node :=
  if location = [] then some .directory else disk.nodes.lookup location

/-- The disk with a node put at a location. -/
def put (disk : Disk) (location : Location) (node : Node) : Disk :=
  { disk with nodes := (location, node) :: disk.nodes.filter fun entry => entry.1 ≠ location }

/-- What was put at a location is found there. -/
theorem find?_put_self (disk : Disk) {location : Location} (h : location ≠ []) (node : Node) :
    (disk.put location node).find? location = some node := by
  simp [find?, put, h]

/-- Every other location keeps what it had. -/
theorem find?_put_of_ne (disk : Disk) {location other : Location} (h : other ≠ location)
    (node : Node) : (disk.put location node).find? other = disk.find? other := by
  have hkeep : ∀ entries : List (Location × Node),
      (entries.filter fun entry => entry.1 ≠ location).lookup other = entries.lookup other := by
    intro entries
    induction entries with
    | nil => rfl
    | cons entry entries ih =>
      obtain ⟨place, held⟩ := entry
      by_cases hp : place = location
      · subst hp
        simpa [List.lookup_cons, beq_eq_false_iff_ne.mpr h] using ih
      · simp only [List.filter_cons, hp, ne_eq, not_false_eq_true, decide_true, if_true,
          List.lookup_cons, ih]
  unfold find?
  split
  · rfl
  · rw [put]
    simp only [List.lookup_cons, beq_eq_false_iff_ne.mpr h, hkeep]

/-! ## Walking -/

/-- What a piece of a path does to the location. -/
inductive Step where
  | stay
  | up
  | down (name : List Char)
deriving DecidableEq, Repr

def Step.ofPiece (piece : List Char) : Step :=
  if piece = [] ∨ piece = ['.'] then stay
  else if piece = ['.', '.'] then up
  else down piece

def Step.apply (location : Location) : Step → Location
  | stay => location
  | up => location.dropLast
  | down name => location ++ [name]

/-- The location that a list of steps leads to; each step starts at an existing directory. -/
def walk (disk : Disk) (location : Location) : List Step → Except Refusal Location
  | [] => .ok location
  | step :: steps =>
    match disk.find? location with
    | none => .error .notFound
    | some (.file _) => .error .notDirectory
    | some .directory => disk.walk (step.apply location) steps

/-- Where a path starts: at the root if it starts with a slash. -/
def start (disk : Disk) (path : List Char) : Location :=
  if path.head? = some '/' then [] else disk.workingDirectory

/-! ## Reading and writing -/

/-- The text at a path. -/
def read (disk : Disk) (path : String) : Except Refusal String :=
  match disk.walk (disk.start path.toList) ((pathPieces path.toList).map Step.ofPiece) with
  | .error refusal => .error refusal
  | .ok location =>
    match disk.find? location with
    | none => .error .notFound
    | some .directory => .error .isDirectory
    | some (.file none) => .error .notText
    | some (.file (some text)) => .ok text

/-- The location of the file that a path may be written to. -/
def target (disk : Disk) (path : String) : Except Refusal Location :=
  let pieces := pathPieces path.toList
  let names := (pieces.reverse.dropWhile List.isEmpty).reverse
  match names.getLast? with
  | none => .error .isDirectory
  | some last =>
    -- the final `stay` asks for the parent to be a directory
    match disk.walk (disk.start path.toList) (names.dropLast.map Step.ofPiece ++ [.stay]) with
    | .error refusal => .error refusal
    | .ok parent =>
      match Step.ofPiece last with
      | .stay | .up => .error .isDirectory
      | .down name =>
        let location := parent ++ [name]
        if pieces.length ≠ names.length ∨ disk.find? location = some .directory then
          .error .isDirectory
        else .ok location

/-- The disk after a text has been written to a path. -/
def write (disk : Disk) (path text : String) : Except Refusal Disk :=
  match disk.target path with
  | .error refusal => .error refusal
  | .ok location => .ok (disk.put location (.file (some text)))

end Disk

end CalcFrontEnd
