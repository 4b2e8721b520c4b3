/-!
# Tables of TOML

Tables grow by headers and by keys with dots. Which of them may add to a table depends on how it
came to be, so that each table is told in one place.
-/

namespace StyleSieve.Toml

/-- How a table came to be. -/
inductive Origin where
  /-- By a header of its own, or as the table of the whole document. -/
  | header
  /-- By the header of a table inside it. -/
  | implied
  /-- By a key with dots. -/
  | dotted
  /-- In braces; nothing can be added to it. -/
  | inline
deriving Repr, DecidableEq

inductive Value where
  | text (s : String)
  /-- A number, a date or a truth value. -/
  | atom
  | array (items : List Value)
  | table (origin : Origin) (fields : List (String × Value))
  /-- Tables with one header, repeated. -/
  | tables (items : List (List (String × Value)))
deriving Repr

/-- Fields in the order of their first mention. -/
abbrev Fields := List (String × Value)

namespace Fields

/-- A field changed, or added at the end. -/
def put (fs : Fields) (key : String) (v : Value) : Fields :=
  match fs with
  | [] => [(key, v)]
  | (k, old) :: rest => if k = key then (k, v) :: rest else (k, old) :: put rest key v

/-- A value put under a new key in the table that a path of dotted keys leads to. Tables in braces
and tables with headers are not added to. -/
def insert (fs : Fields) : List String → String → Value → Option Fields
  | [], key, v => if (fs.lookup key).isSome then none else some (fs.put key v)
  | p :: path, key, v =>
    let into := fun (wrap : Fields → Value) (inner : Fields) =>
      (fun inner => fs.put p (wrap inner)) <$> insert inner path key v
    match fs.lookup p with
    | none => into (.table .dotted) []
    | some (.table .dotted inner) => into (.table .dotted) inner
    | some (.table .implied inner) => if path.isEmpty then none else into (.table .implied) inner
    | some (.tables items) =>
      if path.isEmpty then none
      else into (fun last => .tables (items.dropLast ++ [last])) (items.getLast?.getD [])
    | _ => none

/-- A change of the table that the header of a table inside it leads to. -/
def within (fs : Fields) (change : Fields → Option Fields) : List String → Option Fields
  | [] => change fs
  | p :: path =>
    let into := fun (wrap : Fields → Value) (inner : Fields) =>
      (fun inner => fs.put p (wrap inner)) <$> within inner change path
    match fs.lookup p with
    | none => into (.table .implied) []
    | some (.table .inline _) => none
    | some (.table origin inner) => into (.table origin) inner
    | some (.tables items) =>
      into (fun last => .tables (items.dropLast ++ [last])) (items.getLast?.getD [])
    | _ => none

end Fields

/-- A value with the path to it. -/
structure Entry where
  path : List String
  key : String
  value : Value
deriving Repr

/-- The entries after a header. -/
inductive Header where
  | table
  | tables
deriving Repr, DecidableEq

structure Section where
  header : Header
  path : List String
  key : String
  entries : List Entry
deriving Repr

def addEntries (fs : Fields) (entries : List Entry) : Option Fields :=
  entries.foldlM (fun fs e => Fields.insert fs e.path e.key e.value) fs

/-- A section added to the table that its header stands in. A table has one header, and it may
follow those of tables inside it. -/
def Section.addTo (s : Section) (parent : Fields) : Option Fields :=
  match s.header, parent.lookup s.key with
  | .table, none => (fun fs => parent.put s.key (.table .header fs)) <$> addEntries [] s.entries
  | .table, some (.table .implied fs) =>
    (fun fs => parent.put s.key (.table .header fs)) <$> addEntries fs s.entries
  | .tables, none => (fun fs => parent.put s.key (.tables [fs])) <$> addEntries [] s.entries
  | .tables, some (.tables items) =>
    (fun fs => parent.put s.key (.tables (items ++ [fs]))) <$> addEntries [] s.entries
  | _, _ => none

/-- A document: entries before the first header, and sections. -/
def build (top : List Entry) (sections : List Section) : Option Fields :=
  match addEntries [] top with
  | none => none
  | some fs => sections.foldlM (fun fs s => fs.within s.addTo s.path) fs

end StyleSieve.Toml
