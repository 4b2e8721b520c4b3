import StyleSieve.Report.Summary

/-!
# Reports as data

A report as a JSON text with one field a line, indented by two spaces a level.
-/

namespace StyleSieve.Report

open Purge

/-- One character of a JSON string. -/
def jsonChar (c : Char) : String :=
  if c == '"' then "\\\""
  else if c == '\\' then "\\\\"
  else if c == '\n' then "\\n"
  else if c == '\r' then "\\r"
  else if c == '\t' then "\\t"
  else if c == '\x08' then "\\b"
  else if c == '\x0c' then "\\f"
  else if c.toNat < 0x20 then
    "\\u00" ++ String.ofList [Nat.digitChar (c.toNat / 16), Nat.digitChar (c.toNat % 16)]
  else String.ofList [c]

def jsonString (s : String) : String := "\"" ++ String.join (s.toList.map jsonChar) ++ "\""

/-- The part of JSON that reports are made of. -/
inductive Json where
  /-- A number or a string as written. -/
  | plain (text : String)
  | array (items : List Json)
  | object (fields : List (String × Json))

namespace Json

def indent (level : Nat) : String := String.ofList (List.replicate (2 * level) ' ')

/-- Lines between two brackets, each indented one level further. -/
def bracketed (start stop : String) (level : Nat) : List String → String
  | [] => start ++ stop
  | lines =>
    start ++ "\n" ++ ",\n".intercalate (lines.map fun l => indent (level + 1) ++ l) ++ "\n"
      ++ indent level ++ stop

mutual

/-- The text of a value that stands at some level. -/
def render (level : Nat) : Json → String
  | plain text => text
  | array items => bracketed "[" "]" level (renderItems (level + 1) items)
  | object fields => bracketed "\x7b" "\x7d" level (renderFields (level + 1) fields)

def renderItems (level : Nat) : List Json → List String
  | [] => []
  | j :: js => j.render level :: renderItems level js

def renderFields (level : Nat) : List (String × Json) → List String
  | [] => []
  | (k, j) :: rest => (jsonString k ++ ": " ++ j.render level) :: renderFields level rest

end

end Json

def jsonNat (n : Nat) : Json := .plain (toString n)

/-- The fields of the counters, with the share saved. -/
def countsFields (c : Counts) : List (String × Json) :=
  [("selectors_kept", jsonNat c.selectorsKept), ("selectors_removed", jsonNat c.selectorsRemoved),
    ("rulesets_removed", jsonNat c.rulesetsRemoved),
    ("font_faces_removed", jsonNat c.fontFacesRemoved),
    ("keyframes_removed", jsonNat c.keyframesRemoved), ("bytes_in", jsonNat c.bytesIn),
    ("bytes_out", jsonNat c.bytesOut), ("savings_percent", .plain (shortShare (savings c)))]

/-- The version of this program. -/
def version : String := "0.4.0"

def jsonReport (files : List FileReport) : String :=
  Json.render 0 <| .object
    [("version", .plain (jsonString version)),
      ("files", .array (files.map fun f =>
        .object (("path", .plain (jsonString f.path)) :: countsFields f.counts))),
      ("summary", .object (("file_count", jsonNat files.length) :: countsFields (totals files)))]

end StyleSieve.Report
