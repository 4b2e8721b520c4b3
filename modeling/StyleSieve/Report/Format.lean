import StyleSieve.Report.Json
import StyleSieve.Report.Terminal
import StyleSieve.Text.Ascii

/-!
# Formats of reports

Which report is meant by a name, and what is written where.
-/

namespace StyleSieve.Report

/-- The format with a name in any letter case. -/
def Format.parse (name : String) : Except FormatError Format :=
  match Text.lowerAscii name with
  | "terminal" => .ok .terminal
  | "json" => .ok .json
  | other => .error ⟨other⟩

/-- What a report says, and whether it goes to a file. -/
structure Rendered where
  text : String
  file : Option String
deriving Repr, DecidableEq

/-- The report on some files. Only data goes to a file; on the terminal it ends its line. -/
def report (format : Format) (path : Option String) (colour : Bool) (files : List FileReport) :
    Rendered :=
  match format, path with
  | .terminal, _ => ⟨terminalReport colour files, none⟩
  | .json, some p => ⟨jsonReport files, some p⟩
  | .json, none => ⟨jsonReport files ++ "\n", none⟩

end StyleSieve.Report
