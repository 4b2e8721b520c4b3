import StyleSieve.Config.Basic

/-!
# Reading configurations

A configuration is a table whose fields have the names of settings. How a value is understood as a
text or a list depends on the language that it is written in.
-/

namespace StyleSieve

namespace Config

/-- How the values of a language are understood. -/
structure Reading (α : Type) where
  text : α → Option String
  /-- A text, or nothing where that is said. -/
  optional : α → Option (Option String)
  list : α → Option (List α)
  /-- The fields of a table by their names; some languages allow for a list of their values in the
  order of the names that are asked for. -/
  table : List String → α → Option (List (String × α))

namespace Reading

variable {α : Type} (r : Reading α)

def texts (v : α) : Option (List String) :=
  match r.list v with
  | none => none
  | some items => items.mapM r.text

end Reading

/-- Fields of known names are given once; all others say nothing. -/
def areDistinct {α : Type} (names : List String) (fields : List (String × α)) : Bool :=
  names.all fun name => (fields.filter (·.1 == name)).length ≤ 1

end Config

/-! ## Settings of the report -/

namespace ReportConfig

open Config

/-- A setting of the report changed. -/
def set {α : Type} (r : Reading α) (c : ReportConfig) :
    String × α → Option ReportConfig
  | ("format", v) => (fun x => { c with format := x }) <$> r.text v
  | ("path", v) => (fun x => { c with path := x }) <$> r.optional v
  | _ => some c

def names : List String := ["format", "path"]

/-- Settings of the report; those that are missing stay as they are by default. -/
def read {α : Type} (r : Reading α) (v : α) : Option ReportConfig :=
  match r.table names v with
  | none => none
  | some fields =>
    if areDistinct names fields then fields.foldlM (set r) .default else none

end ReportConfig

/-! ## Settings of a run -/

namespace Config

/-- A setting changed. -/
def set {α : Type} (r : Reading α) (c : Config) : String × α → Option Config
  | ("css", v) => (fun x => { c with css := x }) <$> r.texts v
  | ("html", v) => (fun x => { c with html := x }) <$> r.texts v
  | ("words", v) => (fun x => { c with words := x }) <$> r.texts v
  | ("include", v) => (fun x => { c with keep := x }) <$> r.texts v
  | ("include_class", v) => (fun x => { c with keepClasses := x }) <$> r.texts v
  | ("include_id", v) => (fun x => { c with keepIds := x }) <$> r.texts v
  | ("exclude", v) => (fun x => { c with exclude := x }) <$> r.texts v
  | ("output", v) => (fun x => { c with output := x }) <$> r.optional v
  | ("report", v) => (fun x => { c with report := x }) <$> ReportConfig.read r v
  | _ => some c

def names : List String :=
  ["css", "html", "words", "include", "include_class", "include_id", "exclude", "output", "report"]

/-- Settings of a run; those that are missing stay as they are by default. -/
def read {α : Type} (r : Reading α) (v : α) : Option Config :=
  match r.table names v with
  | none => none
  | some fields => if areDistinct names fields then fields.foldlM (set r) .default else none

end Config

end StyleSieve
