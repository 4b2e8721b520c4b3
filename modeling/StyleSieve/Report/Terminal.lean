import StyleSieve.Report.Summary

/-!
# Reports for a reader

A report as lines of text for a terminal, with colours if they are wanted.
-/

namespace StyleSieve.Report

open Purge

/-- Text after which all styles end. -/
def resetCode : String := "\x1b[0m"

/-- A text in a style given by its code. The style goes on after a reset inside the text. -/
def painted (colour : Bool) (code : String) (text : String) : String :=
  if colour then
    let start := "\x1b[" ++ code ++ "m"
    start ++ (resetCode ++ start).intercalate (text.splitOn resetCode) ++ resetCode
  else text

def green : String := "32"

def red : String := "31"

def dimmed : String := "2"

def bold : String := "1"

def boldGreen : String := "1;32"

def boldRed : String := "1;31"

def boldCyan : String := "1;36"

def boldYellow : String := "1;33"

/-- A change of size with the share saved. -/
def sizeText (c : Counts) : String :=
  toString c.bytesIn ++ " -> " ++ toString c.bytesOut ++ " bytes (" ++ roundShare (savings c)
    ++ "% smaller)"

/-- The lines on one stylesheet. What was removed is told only if there is any. -/
def fileLines (colour : Bool) (f : FileReport) : List String :=
  let paint := painted colour
  let c := f.counts
  [paint boldCyan f.path,
    "  " ++ paint dimmed "selectors" ++ " " ++ paint green (toString c.selectorsKept) ++ " kept, "
      ++ paint red (toString c.selectorsRemoved) ++ " removed"]
  ++ (if c.rulesetsRemoved > 0 then
      ["  " ++ paint dimmed "rulesets" ++ " " ++ paint red (toString c.rulesetsRemoved)
        ++ " removed"]
    else [])
  ++ (if c.fontFacesRemoved > 0 || c.keyframesRemoved > 0 then
      ["  " ++ paint dimmed "at-rules" ++ " " ++ paint red (toString c.fontFacesRemoved)
        ++ " font faces, " ++ paint red (toString c.keyframesRemoved) ++ " keyframes removed"]
    else [])
  ++ ["  " ++ paint dimmed "size" ++ " " ++ sizeText c, ""]

def summaryLines (colour : Bool) (total : Counts) : List String :=
  let paint := painted colour
  [paint bold "Summary:",
    "  " ++ paint boldGreen (toString total.selectorsKept) ++ " selectors kept, "
      ++ paint boldRed (toString total.selectorsRemoved) ++ " removed, "
      ++ toString total.rulesetsRemoved ++ " rulesets dropped",
    "  " ++ sizeText total]

def terminalLines (colour : Bool) (files : List FileReport) : List String :=
  if files.isEmpty then [painted colour boldYellow "No stylesheets purged."]
  else
    ["", painted colour boldGreen ("Purged " ++ toString files.length ++ " stylesheet(s):"), ""]
      ++ files.flatMap (fileLines colour) ++ summaryLines colour (totals files)

/-- The report as one text. -/
def terminalReport (colour : Bool) (files : List FileReport) : String :=
  String.join ((terminalLines colour files).map (· ++ "\n"))

end StyleSieve.Report
