/-!
# Configurations

What a run reads, keeps and writes.
-/

namespace StyleSieve

/-- How the report is laid out, by the name of a format, and the file it goes to if it is data. -/
structure ReportConfig where
  format : String
  path : Option String
deriving Repr, DecidableEq

structure Config where
  /-- Globs of stylesheets, in the order of the output. -/
  css : List String
  /-- Globs of documents whose elements are in use. -/
  html : List String
  /-- Globs of files whose words are in use. -/
  words : List String
  /-- Selectors that are always kept. -/
  keep : List String
  /-- Patterns for classes that are always kept. -/
  keepClasses : List String
  /-- Patterns for ids that are always kept. -/
  keepIds : List String
  /-- Globs of files that are left out. -/
  exclude : List String
  /-- The file for the output; without one it goes to the standard output. -/
  output : Option String
  report : ReportConfig
deriving Repr, DecidableEq

def ReportConfig.default : ReportConfig := ⟨"terminal", none⟩

/-- The configuration of a run that says nothing. -/
def Config.default : Config :=
  ⟨[], [], [], [], [], [], ["**/node_modules/**"], none, .default⟩

/-- There is something to purge. -/
def Config.hasInputs (c : Config) : Bool := !c.css.isEmpty

end StyleSieve
