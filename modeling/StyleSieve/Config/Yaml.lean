import StyleSieve.Config.Fields
import StyleSieve.Yaml.Document

/-!
# Configurations in YAML

Each scalar is a text, whatever its tag. What is left out stands for an empty list or table.
-/

namespace StyleSieve.Config

open Yaml

/-- Nothing is written there. -/
def isLeftOut : Node → Bool
  | .scalar plain _ text => plain && text.isEmpty
  | _ => false

/-- Texts without quotes that say that there is nothing. -/
def isNull (text : String) : Bool := ["null", "Null", "NULL", "~"].contains text

/-- The tag of what is nothing. -/
def nullTag : String := "tag:yaml.org,2002:null"

def textOf (d : Document) (v : Node) : Option String :=
  match d.resolve v with
  | some (.scalar _ _ text) => some text
  | _ => none

/-- A text with the tag of what is nothing must say so. -/
def optionalOf (d : Document) (v : Node) : Option (Option String) :=
  match d.resolve v with
  | some (.scalar false _ text) => some (some text)
  | some (.scalar true none text) =>
    some (if text.isEmpty || isNull text then none else some text)
  | some (.scalar true (some tag) text) =>
    if tag = nullTag then if isNull text then some none else none else some (some text)
  | _ => none

def listOf (d : Document) (v : Node) : Option (List Node) :=
  match d.resolve v with
  | some (.sequence items) => some items
  | some v => if isLeftOut v then some [] else none
  | none => none

def tableOf (d : Document) (v : Node) : Option (List (String × Node)) :=
  match d.resolve v with
  | some (.mapping entries) => entries.mapM fun (k, v) => (·, v) <$> textOf d k
  | some v => if isLeftOut v then some [] else none
  | none => none

/-- How the nodes of a document are understood. -/
def yamlReading (d : Document) : Reading Node :=
  ⟨textOf d, optionalOf d, listOf d, fun _ => tableOf d⟩

/-- The configuration in a text. -/
def ofYaml (text : String) : Option Config :=
  match Document.parse text with
  | none => none
  | some d => read (yamlReading d) d.root

end StyleSieve.Config
