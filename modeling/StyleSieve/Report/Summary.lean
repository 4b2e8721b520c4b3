import StyleSieve.Decimal.Written
import StyleSieve.Purge.Counts

/-!
# Summaries

The counters of purged stylesheets, their totals, and the share of the bytes that was saved.
-/

namespace StyleSieve.Report

open Purge

/-- A purged stylesheet with its counters. -/
structure FileReport where
  path : String
  counts : Counts
deriving Repr, DecidableEq

/-- The sums of the counters, as words hold them. -/
def totals (files : List FileReport) : Counts :=
  ((files.map FileReport.counts).foldl Counts.add .zero).wrapped

/-- A number of bytes in double precision. -/
def toFloat (n : Nat) : Float := (UInt64.ofNat n).toFloat

/-- The share of the bytes that were dropped, in percent. -/
def savings (c : Counts) : Float :=
  if c.bytesIn = 0 then 0.0 else toFloat (c.bytesIn - c.bytesOut) * 100.0 / toFloat c.bytesIn

/-- Shares are written without exponent from a hundred thousandth on. -/
def window : Decimal.Window := ⟨-4, 16⟩

/-- A share with as few digits as read back. -/
def shortShare (x : Float) : String := (Decimal.ofFloat x).written window

/-- A share with one digit after the point. -/
def roundShare (x : Float) : String := (Decimal.ofFloat x).tenths

/-- How a report is laid out. -/
inductive Format where
  | terminal
  | json
deriving Repr, DecidableEq

/-- A name that is no format. -/
structure FormatError where
  name : String
deriving Repr, DecidableEq

def FormatError.message (e : FormatError) : String :=
  "unknown report format '" ++ e.name ++ "', expected terminal or json"

end StyleSieve.Report
