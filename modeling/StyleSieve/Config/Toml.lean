import StyleSieve.Config.Fields
import StyleSieve.Toml.Document

/-!
# Configurations in TOML

A text must be quoted. Settings of the report may also be given as a list, in order.
-/

namespace StyleSieve.Config

open Toml

def quotedText : Value → Option String
  | .text s => some s
  | _ => none

def itemsOf : Value → Option (List Value)
  | .array items => some items
  | .tables items => some (items.map (.table .header))
  | _ => none

def fieldsOf (names : List String) : Value → Option (List (String × Value))
  | .table _ fields => some fields
  | v => names.zip <$> itemsOf v

/-- How values are understood. -/
def tomlReading : Reading Value := ⟨quotedText, (some <$> quotedText ·), itemsOf, fieldsOf⟩

/-- The configuration in a text. -/
def ofToml (text : String) : Option Config :=
  match Toml.parse text with
  | none => none
  | some v => read tomlReading v

end StyleSieve.Config
