import StyleSieve.Config.Toml
import StyleSieve.Config.Yaml
import StyleSieve.Files.FileTree

/-!
# Loading configurations

Which file a configuration is in, and in which language. A file without the ending of a language
may be in either of them.
-/

namespace StyleSieve.Config

open Files

inductive Language where
  | yaml
  | toml
  | either
deriving Repr, DecidableEq

/-- The ending of a file's name, after its last dot; a dot that begins the name begins no
ending. -/
def ending (path : String) : String :=
  let name := ((normal path).getLast?.getD "").toList
  let tail := (name.reverse.takeWhile (· != '.')).reverse
  if tail.length + 1 < name.length then String.ofList tail else ""

def Language.ofPath (path : String) : Language :=
  match ending path with
  | "yml" | "yaml" => .yaml
  | "toml" => .toml
  | _ => .either

inductive LoadError where
  | unreadable (path : String)
  | malformed (language : Language)
deriving Repr, DecidableEq

def LoadError.message : LoadError → String
  | unreadable path => "Failed to read config file: " ++ path
  | malformed .yaml => "Failed to parse YAML config"
  | malformed .toml => "Failed to parse TOML config"
  | malformed .either => "Failed to parse config file"

/-- The configuration in a text. -/
def parse (l : Language) (text : String) : Option Config :=
  match l with
  | .yaml => ofYaml text
  | .toml => ofToml text
  | .either => (ofYaml text).orElse fun _ => ofToml text

/-- The configuration in a file. -/
def load (t : FileTree) (path : String) : Except LoadError Config :=
  match t.read? path with
  | none => .error (.unreadable path)
  | some text =>
    match parse (.ofPath path) text with
    | none => .error (.malformed (.ofPath path))
    | some c => .ok c

/-- The names that configurations have, the most wanted first. -/
def standardNames : List String :=
  [".cssprune.yml", ".cssprune.yaml", ".cssprune.toml", "cssprune.yml", "cssprune.yaml",
    "cssprune.toml"]

/-- The configuration of a directory: the first of the standard names that is there counts. -/
def find (t : FileTree) (root : String) : Except LoadError Config :=
  match (standardNames.map (join root)).find? fun path => (t.find? path).isSome with
  | none => .ok .default
  | some path => load t path

end StyleSieve.Config
