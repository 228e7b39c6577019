import SupervisedWorker.Settings.Decode
import SupervisedWorker.Settings.Environment
import SupervisedWorker.Toml.Document

/-!
# Loading settings

Settings come in three layers: defaults, a TOML file, and the environment. The file's keys and the
variables set values in one tree, the environment last; what the tree does not hold keeps its
default. The keys at the top of the file may be paths.
-/

namespace SupervisedWorker

namespace Settings

mutual

/-- A TOML value as a raw setting from the given source. -/
def ofToml (origin : String) : Toml.Value → Tree
  | .text s => .scalar (some origin) (.text s)
  | .integer n => .scalar (some origin) (.integer n)
  | .decimal x => .scalar (some origin) (.decimal x)
  | .boolean b => .scalar (some origin) (.boolean b)
  | .moment s => .scalar (some origin) (.text s)
  | .list items => .list (some origin) (ofTomlItems origin items)
  | .table entries => .table (some origin) (ofTomlEntries origin entries)

/-- `ofToml` for the items of a list. -/
def ofTomlItems (origin : String) : List Toml.Value → List Tree
  | [] => []
  | v :: rest => ofToml origin v :: ofTomlItems origin rest

/-- `ofToml` for the entries of a table. -/
def ofTomlEntries (origin : String) : List (String × Toml.Value) → List (String × Tree)
  | [] => []
  | (key, v) :: rest => (key, ofToml origin v) :: ofTomlEntries origin rest

end

/-- A settings file: the name that messages give it, and what it holds. -/
structure SourceFile where
  name : String
  content : String
deriving DecidableEq, Repr, Inhabited

/-- Sets everything that a file sets. -/
def SourceFile.apply (file : SourceFile) (t : Tree) : Except LoadError Tree :=
  match Toml.read file.content.toList with
  | none => .error .notToml
  | some entries =>
    .ok ((ofTomlEntries file.name entries).foldl
      (fun t (key, new) => t.set (KeyPath.ofKey key) new) t)

/-- The tree that a file, if there is one, and the environment give. -/
def gather (file : Option SourceFile) (environment : List (String × String)) :
    Except LoadError Tree := do
  let t ← match file with
    | some file => file.apply .emptyTable
    | none => pure .emptyTable
  return Environment.apply environment t

/-- Loads the settings. -/
def load (file : Option SourceFile) (environment : List (String × String)) :
    Except LoadError Settings := do
  decode (← gather file environment)

/-! ## Finding the file -/

/-- The name that messages give to a file: its path without parts that lead nowhere. -/
def sourceName (path : String) : String :=
  let parts := (Text.pieces (· == '/') path.toList).filter fun part => part ≠ [] && part ≠ ['.']
  let name := List.intercalate ['/'] parts
  String.ofList (if path.toList.head? = some '/' then '/' :: name else name)

/-- The path at which the file of a given name is found: the name itself, or the name with an
ending. -/
def locate (isFile : String → Bool) (name : String) : Except LoadError String :=
  if isFile name then .ok name
  else if isFile (name ++ ".toml") then .ok (name ++ ".toml")
  else .error (.noSuchFile name)

end Settings

end SupervisedWorker
