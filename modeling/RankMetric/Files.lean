import RankMetric.Path

/-!
# Where texts are read from

The program is given its texts by a reader of paths (`TextReader`). A text that cannot be read gives
a `ReadFailure`, with the wording in `ReadFailure.message`. `TextStore` is a reader that holds texts
by location, so that all paths to one location find one text.
-/

namespace RankMetric

/-- Why a text cannot be read. -/
inductive ReadFailure where
  /-- The store has no text at the location. -/
  | notStored (location : Text)
  | noSuchFile
  | isDirectory
  | notDirectory
  | nameTooLong
  | notText
  /-- A failure that the operating system words. -/
  | other (message : Text)
  deriving DecidableEq, Repr

/-- The wording of a failure. -/
def ReadFailure.message : ReadFailure → Text
  | notStored l => "no such file in memory: ".toList ++ l
  | noSuchFile => "No such file or directory (os error 2)".toList
  | isDirectory => "Is a directory (os error 21)".toList
  | notDirectory => "Not a directory (os error 20)".toList
  | nameTooLong => "File name too long (os error 36)".toList
  | notText => "stream did not contain valid UTF-8".toList
  | other m => m

/-- The text at a path, or why there is none. -/
abbrev TextReader := Text → Except ReadFailure Text

/-- Texts with their locations, the one stored last in front. -/
structure TextStore where
  entries : List (Location × Text) := []
  deriving DecidableEq, Repr

namespace TextStore

/-- Store a text at the location of a path. -/
def add (s : TextStore) (path text : Text) : TextStore :=
  ⟨(Path.location path, text) :: s.entries⟩

/-- The text at the location of a path. -/
def read (s : TextStore) : TextReader := fun path ↦
  match s.entries.lookup (Path.location path) with
  | some text => .ok text
  | none => .error (.notStored (Path.locationText (Path.location path)))

end TextStore

end RankMetric
