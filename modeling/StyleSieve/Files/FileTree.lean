import StyleSieve.Files.Path

/-!
# File trees

The files below one directory. Directories exist if they are listed or if something lies in them.
-/

namespace StyleSieve.Files

inductive Entry where
  | text (content : String)
  /-- A file whose bytes are no text. -/
  | binary
  | directory
deriving Repr, DecidableEq

/-- The place of an entry: the names that lead to it. -/
abbrev Place := List String

/-- Entries with their places; a place is listed once. -/
structure FileTree where
  entries : List (Place × Entry)
deriving Repr, DecidableEq

namespace FileTree

/-- What is at a place. -/
def at? (t : FileTree) (place : Place) : Option Entry :=
  if place.isEmpty then some .directory
  else
    match t.entries.find? (·.1 == place) with
    | some (_, e) => some e
    | none => if t.entries.any fun (p, _) => place.isPrefixOf p then some .directory else none

/-- Puts a name into its place among ascending names, unless it is there. -/
def insertName (name : String) : List String → List String
  | [] => [name]
  | n :: ns =>
    if name < n then name :: n :: ns
    else if name = n then n :: ns
    else n :: insertName name ns

/-- The names in a directory in ascending order. -/
def children (t : FileTree) (place : Place) : List String :=
  (t.entries.filterMap fun (p, _) =>
    if place.isPrefixOf p then p[place.length]? else none).foldr insertName []

/-- The number of names that lead to the deepest place. -/
def depth (t : FileTree) : Nat := t.entries.foldl (fun d (p, _) => max d p.length) 0

def isDirectory (t : FileTree) (place : Place) : Bool := t.at? place = some .directory

/-- The place that parts of a path lead to from another place, over directories only. -/
def follow (t : FileTree) (place : Place) : List String → Option Place
  | [] => some place
  | part :: rest =>
    if !t.isDirectory place then none
    else if part = "" || part = "." then t.follow place rest
    else if part = ".." then if place.isEmpty then none else t.follow place.dropLast rest
    else t.follow (place ++ [part]) rest

/-- The place of a path, whether anything is there or not. A slash at its end asks for a
directory. -/
def locate (t : FileTree) (path : String) : Option Place :=
  if path.isEmpty || isAbsolute path then none
  else
    match t.follow [] (split path) with
    | none => none
    | some place => if path.endsWith "/" && !t.isDirectory place then none else some place

/-- What a path leads to. -/
def find? (t : FileTree) (path : String) : Option Entry := (t.locate path).bind t.at?

/-- The text of a file. -/
def read? (t : FileTree) (path : String) : Option String :=
  match t.find? path with
  | some (.text s) => some s
  | _ => none

/-- The entry at a place replaced or added. -/
def set (t : FileTree) (place : Place) (e : Entry) : FileTree :=
  ⟨if t.entries.any (·.1 == place) then
      t.entries.map fun (p, old) => if p == place then (p, e) else (p, old)
    else t.entries ++ [(place, e)]⟩

/-- The tree with a text written to a file, which may be new in a directory that is there. -/
def write? (t : FileTree) (path : String) (content : String) : Option FileTree :=
  match t.locate path with
  | none => none
  | some place =>
    if t.isDirectory place || !t.isDirectory place.dropLast then none
    else some (t.set place (.text content))

/-- The files of a tree with another text than before, or with none before. -/
def changesSince (t old : FileTree) : List (Place × String) :=
  t.entries.filterMap fun (place, e) =>
    match e with
    | .text s => if old.at? place = some e then none else some (place, s)
    | _ => none

end FileTree

end StyleSieve.Files
