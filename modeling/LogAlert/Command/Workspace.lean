/-
# LogAlert.Command.Workspace -- files and databases

Commands read files by their paths and keep rows in databases, which settings name by a URL. Only
databases in a file or in memory are known; a database in memory is forgotten at the end of a
command.
-/
import LogAlert.Store.Basic
import LogAlert.Text.Search

set_option autoImplicit false

namespace LogAlert.Command

/-- A path as the names on the way, or none for a path that leads out of the workspace. -/
def steps? (path : String) : Option (List String) :=
  if path.startsWith "/" then none
  else
    (Text.split '/' path).foldlM (fun taken step =>
      if step = "" || step = "." then some taken
      else if step = ".." then if taken.isEmpty then none else some taken.dropLast
      else some (taken ++ [step])) []

/-- Where a database is. -/
inductive Location where
  | memory
  | file (steps : List String)
deriving DecidableEq, Repr

/-- The location in the part of a URL behind the name of the kind of database. -/
def Location.ofRest (rest : List Char) : Option Location :=
  match rest.takeWhile (· ≠ '?') with
  | [] => some .memory
  | '/' :: path =>
    let path := String.ofList path
    if path = "" || path = ":memory:" then some .memory else (steps? path).map .file
  | _ => none

/-- The character can stand in the name of a kind of database. -/
def isNameChar (c : Char) : Bool := c.isAlphanum || c = '_' || c = '+'

/-- The location that a URL names. -/
def Location.ofUrl (url : String) : Option Location :=
  let name := url.toList.takeWhile isNameChar
  match url.toList.dropWhile isNameChar with
  | ':' :: '/' :: '/' :: rest =>
    if name.takeWhile (· ≠ '+') = "sqlite".toList then Location.ofRest rest else none
  | _ => none

/-- What stands at a path. -/
inductive Place where
  | nothing
  | file (text : String)
  | folder
  /-- The path leads through a file. -/
  | beyondFile
deriving DecidableEq, Repr

/-- Files by their paths, databases, and a supply of identifiers. -/
structure Workspace where
  files : List (String × String)
  databases : List (List String × Store)
  ids : Ids

namespace Workspace

/-- The paths of all files, as names on the way. -/
def paths (w : Workspace) : List (List String) :=
  w.files.filterMap (fun (path, _) => steps? path) ++ w.databases.map (·.1)

/-- What stands at a path. -/
def place (w : Workspace) (path : String) : Place :=
  match if path = "" then none else steps? path with
  | none => .nothing
  | some steps =>
    match w.files.find? fun (known, _) => steps? known = some steps with
    | some (_, text) => if path.endsWith "/" then .beyondFile else .file text
    | none =>
      if steps.isEmpty || w.paths.any fun known => steps.isPrefixOf known then .folder
      else if w.paths.any fun known => known.isPrefixOf steps then .beyondFile
      else .nothing

/-- The rows of the database at a location. -/
def store (w : Workspace) : Location → Store
  | .memory => .empty
  | .file steps => (w.databases.lookup steps).getD .empty

/-- Keep the rows of the database at a location. -/
def keep (w : Workspace) (location : Location) (store : Store) : Workspace :=
  match location with
  | .memory => w
  | .file steps =>
    { w with
      databases := w.databases.filter (fun (known, _) => known ≠ steps) ++ [(steps, store)] }

end Workspace

end LogAlert.Command
