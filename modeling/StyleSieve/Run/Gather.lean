import StyleSieve.Files.Discovery
import StyleSieve.Usage.Corpus

/-!
# Gathering a corpus

Each file adds what it uses to a corpus. Files that cannot be used are gathered too, so that all of
them are told at once.
-/

namespace StyleSieve.Run

open Files Usage

/-- Why a file could not be used. -/
inductive FileFault where
  /-- The file holds no text. -/
  | unreadable
  | markup (error : Markup.MarkupError)
  | sheet (error : SheetError)
deriving Repr, DecidableEq

def FileFault.message : FileFault → String
  | unreadable => "stream did not contain valid UTF-8"
  | markup e => e.message
  | sheet e => e.message

/-- What a text of a kind uses. -/
def usageOf (kind : FileKind) (text : String) : Except FileFault Corpus :=
  match kind with
  | .html =>
    match Markup.elements text with
    | .error e => .error (.markup e)
    | .ok nodes => .ok { Corpus.empty with nodes }
  | .words => .ok { Corpus.empty with words := .ofTexts [text] }
  | .css =>
    match References.ofSheet text with
    | .error e => .error (.sheet e)
    | .ok references => .ok { Corpus.empty with references }

/-- What a file uses. -/
def contribution (t : FileTree) (f : SourceFile) : Except FileFault Corpus :=
  match t.read? f.path with
  | none => .error .unreadable
  | some text => usageOf f.kind text

/-- A file that could not be used. -/
structure Failure where
  path : String
  fault : FileFault
deriving Repr, DecidableEq

def Failure.message (f : Failure) : String := f.path ++ ": " ++ f.fault.message

/-- What files use, and which of them could not be used. -/
structure Gathered where
  corpus : Corpus
  failures : List Failure

namespace Gathered

def empty : Gathered := ⟨.empty, []⟩

/-- One file more. -/
def add (t : FileTree) (g : Gathered) (f : SourceFile) : Gathered :=
  match contribution t f with
  | .error fault => { g with failures := g.failures ++ [⟨f.path, fault⟩] }
  | .ok c => { g with corpus := g.corpus ++ c }

end Gathered

/-- What files use, taken in some order. -/
def gather (t : FileTree) (files : List SourceFile) : Gathered := files.foldl (.add t) .empty

/-- The corpus of some files, if all of them can be used. -/
def corpusOf (t : FileTree) (files : List SourceFile) : Except (List Failure) Corpus :=
  let g := gather t files
  if g.failures.isEmpty then .ok g.corpus else .error g.failures

def failuresMessage (failures : List Failure) : String :=
  "usage extraction failed for " ++ toString failures.length ++ " file(s): "
    ++ "; ".intercalate (failures.map Failure.message)

end StyleSieve.Run
