import SuiteMigration.Text.Basic

/-!
File names in slash-separated paths. A name is cut into stem and extension at its last point, unless
that is its first character.
-/

set_option autoImplicit false
set_option relaxedAutoImplicit false

namespace SuiteMigration.Path

open SuiteMigration.Text

/-- What follows the last slash. -/
def fileName (path : String) : String :=
  match breakOnLast? "/" path with
  | some (_, name) => name
  | none => path

/-- The stem and the extension of a file name, if it has one. -/
def splitExtension (name : String) : String × Option String :=
  match breakOnLast? "." name with
  | some (stem, extension) => if stem.isEmpty then (name, none) else (stem, some extension)
  | none => (name, none)

/-- The stem of the file name, as a short name for a path. -/
def displayName (path : String) : String :=
  (splitExtension (fileName path)).1

/-- Extensions of keyword files. -/
def targetExtensions : List String :=
  ["robot", "resource"]

/-- The file name with the given extension, unless it is that of a keyword file already, and with
underscores for spaces. -/
def targetFileName (name extension : String) : String :=
  let renamed :=
    match splitExtension name with
    | (stem, some ext) => if targetExtensions.contains ext then name else stem ++ "." ++ extension
    | (_, none) => name ++ "." ++ extension
  replace " " "_" renamed

/-- The segments of a path: separated by slashes or backslashes, without empty ones. -/
def segments (path : String) : List String :=
  (splitBy (fun c ↦ c == '/' || c == '\\') path).filter fun s ↦ !s.isEmpty

/-- A path without empty and `.` segments, with slashes. -/
def normalize (path : String) : String :=
  String.intercalate "/" ((segments path).filter (· != "."))

/-- A path without the slashes at its ends. -/
def trimSlashes (path : String) : String :=
  let isSlash := fun c : Char ↦ c == '/'
  dropEndWhile isSlash (dropStartWhile isSlash path)

/-- Whether a path is a directory or lies below it. Both are relative to the repository. -/
def isUnder (path directory : String) : Bool :=
  let dir := trimSlashes directory
  dir.isEmpty || dir == "." || path == dir || startsWith path (dir ++ "/")

end SuiteMigration.Path
