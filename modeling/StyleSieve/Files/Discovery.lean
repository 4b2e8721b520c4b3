import StyleSieve.Config.Basic
import StyleSieve.Files.Expand
import StyleSieve.Text.Quoted

/-!
# Discovery

The files that the globs of a configuration stand for, each once for a kind, in the order in which
the globs find them. Directories and excluded paths are left out.
-/

namespace StyleSieve.Files

inductive FileKind where
  | html
  | css
  | words
deriving Repr, DecidableEq

def FileKind.label : FileKind → String
  | html => "HTML"
  | css => "CSS"
  | words => "words"

/-- A file with what it is read for. -/
structure SourceFile where
  path : String
  kind : FileKind
deriving Repr, DecidableEq

/-- A path that a glob leads to and that cannot be looked at, with the cause. -/
structure Unreadable where
  path : String
  cause : String
deriving Repr, DecidableEq

inductive DiscoveryError where
  | invalid (glob : String) (cause : GlobError)
  | unreadable (entry : Unreadable)
deriving Repr, DecidableEq

def DiscoveryError.message : DiscoveryError → String
  | invalid glob cause => "invalid glob pattern " ++ Text.quoted glob ++ ": " ++ cause.message
  | unreadable entry => "cannot read " ++ entry.path ++ ": " ++ entry.cause

/-- Where files are looked for: what each glob stands for, in order, and which of the paths are
directories. -/
structure Finder where
  entries : String → Except GlobError (List (Except Unreadable String))
  isDirectory : String → Bool

/-- Globs are looked for in a file tree, where everything can be read. -/
def Finder.ofTree (t : FileTree) : Finder where
  entries glob := (·.map .ok) <$> expand t glob
  isDirectory path := !(t.find? path).any (· != .directory)

/-- The globs of some texts. -/
def compile : List String → Except DiscoveryError (List Glob)
  | [] => .ok []
  | p :: ps =>
    match Glob.parse p with
    | .error cause => .error (.invalid p cause)
    | .ok g => (g :: ·) <$> compile ps

/-- The paths of some entries, up to the first that cannot be read. -/
def readEntries : List (Except Unreadable String) → Except DiscoveryError (List String)
  | [] => .ok []
  | .error entry :: _ => .error (.unreadable entry)
  | .ok path :: entries => (path :: ·) <$> readEntries entries

namespace Finder

/-- All paths that some globs stand for, one glob after another. -/
def expandAll (f : Finder) : List String → Except DiscoveryError (List String)
  | [] => .ok []
  | p :: ps =>
    match f.entries p with
    | .error cause => .error (.invalid p cause)
    | .ok entries =>
      match readEntries entries with
      | .error e => .error e
      | .ok paths => (paths ++ ·) <$> f.expandAll ps

/-- The path is one of a file that may be read. -/
def isWanted (f : Finder) (excluded : List Glob) (path : String) : Bool :=
  !f.isDirectory path && !excluded.any (·.accepts path)

end Finder

/-- The paths of a list without those that were there before, however they are written. -/
def distinct (seen : List (List String)) : List String → List String
  | [] => []
  | p :: ps =>
    if seen.contains (normal p) then distinct seen ps else p :: distinct (normal p :: seen) ps

/-- The files of one kind. -/
def Finder.findKind (f : Finder) (excluded : List Glob) (kind : FileKind) (globs : List String) :
    Except DiscoveryError (List SourceFile) :=
  (fun paths => (distinct [] (paths.filter (f.isWanted excluded))).map (⟨·, kind⟩))
    <$> f.expandAll globs

/-- Discovered files by what they are read for. -/
structure FileSet where
  html : List SourceFile
  css : List SourceFile
  words : List SourceFile
deriving Repr, DecidableEq

/-- All files in order. -/
def FileSet.all (s : FileSet) : List SourceFile := s.html ++ s.css ++ s.words

/-- The files of a configuration. Globs of what is excluded are looked at first. -/
def Finder.findFiles (f : Finder) (c : Config) : Except DiscoveryError FileSet :=
  match compile c.exclude with
  | .error e => .error e
  | .ok excluded =>
    match f.findKind excluded .html c.html with
    | .error e => .error e
    | .ok html =>
      match f.findKind excluded .css c.css with
      | .error e => .error e
      | .ok css => (⟨html, css, ·⟩) <$> f.findKind excluded .words c.words

/-- The files of a configuration in a file tree. -/
def findFiles (t : FileTree) (c : Config) : Except DiscoveryError FileSet :=
  (Finder.ofTree t).findFiles c

end StyleSieve.Files
