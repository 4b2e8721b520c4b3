import StyleSieve.Config.Load
import StyleSieve.Purge.Sheet
import StyleSieve.Report.Format
import StyleSieve.Run.Gather
import StyleSieve.Run.Options

/-!
# The program

A run reads a file tree and leaves another one, with what it says on its two outputs. All that can
be wrong with options and inputs is found before the output is opened. Stylesheets are read again
when they are purged; an output file that is one of them holds by then what was written before.
-/

namespace StyleSieve.Run

open Files Usage Purge Report

inductive RunError where
  | config (error : Config.LoadError)
  | noInputs
  | format (error : FormatError)
  | overrides (error : OverrideError)
  | discovery (error : DiscoveryError)
  | extraction (failures : List Failure)
  | uncreated (path : String)
  | unread (path : String)
  | unpurged (path : String) (error : PurgeError)
  | unreported (path : String)

/-- What is said about an error, without its cause. -/
def RunError.message : RunError → String
  | config e => e.message
  | noInputs => "No CSS files given; pass --css or set \x60css\x60 in a config file"
  | format e => e.message
  | overrides _ => "Invalid include option"
  | discovery _ => "File discovery failed"
  | extraction failures => failuresMessage failures
  | uncreated path => "Failed to create " ++ path
  | unread path => "Failed to read " ++ path
  | unpurged path _ => "Failed to purge " ++ path
  | unreported path => "Failed to write report: " ++ path

/-! ## Preparation -/

/-- The layout of the report: an option for it counts most, then one for its file. -/
def formatFor (o : Options) (c : Config) : Except FormatError Format :=
  match o.format with
  | some f => .ok f
  | none => if o.report.isSome then .ok .json else Format.parse c.report.format

/-- What is needed to purge. -/
structure Prepared where
  format : Format
  judge : Judge
  sheets : List SourceFile

/-- Everything that is done before the output is opened. -/
def prepare (t : FileTree) (o : Options) (c : Config) : Except RunError Prepared :=
  if !c.hasInputs then .error .noInputs
  else
    match formatFor o c with
    | .error e => .error (.format e)
    | .ok format =>
      match Overrides.compile c.keep c.keepClasses c.keepIds with
      | .error e => .error (.overrides e)
      | .ok overrides =>
        match findFiles t c with
        | .error e => .error (.discovery e)
        | .ok files =>
          match corpusOf t files.all with
          | .error failures => .error (.extraction failures)
          | .ok corpus => .ok ⟨format, ⟨corpus.index overrides, corpus.references⟩, files.css⟩

/-! ## Purging -/

/-- The output while stylesheets are purged: its file, if it has one, and all that was written. -/
structure Writing where
  tree : FileTree
  path : Option String
  text : String
deriving Repr

/-- The output opened. A file is emptied, or made. -/
def Writing.start (t : FileTree) : Option String → Option Writing
  | none => some ⟨t, none, ""⟩
  | some path => (⟨·, some path, ""⟩) <$> t.write? path ""

/-- The output with all its text, which is in its file too. -/
def Writing.setText (w : Writing) (text : String) : Writing :=
  match w.path with
  | none => { w with text }
  | some path => { w with text, tree := (w.tree.write? path text).getD w.tree }

/-- The output after one stylesheet, and the counters or the error that ended it. -/
def Writing.purgeFile (w : Writing) (j : Judge) (f : SourceFile) :
    Writing × Except RunError FileReport :=
  match w.tree.read? f.path with
  | none => (w, .error (.unread f.path))
  | some source =>
    let p := purge j source { Sink.unlimited with text := w.text }
    let w := w.setText p.sink.text
    match p.result with
    | .error e => (w, .error (.unpurged f.path e))
    | .ok counts => (w, .ok ⟨f.path, counts⟩)

/-- The output after several stylesheets. The first error ends it. -/
def Writing.purgeAll (w : Writing) (j : Judge) :
    List SourceFile → Writing × Except RunError (List FileReport)
  | [] => (w, .ok [])
  | f :: fs =>
    match w.purgeFile j f with
    | (w, .error e) => (w, .error e)
    | (w, .ok report) =>
      let (w, reports) := purgeAll w j fs
      (w, (report :: ·) <$> reports)

/-! ## Runs -/

/-- What a run leaves. -/
structure Outcome where
  tree : FileTree
  /-- What went to the standard output. -/
  stdout : String
  /-- The report, unless it went to a file. -/
  stderr : String
  error : Option RunError

namespace Outcome

/-- A run that ended before it wrote anything. -/
def failed (t : FileTree) (e : RunError) : Outcome := ⟨t, "", "", some e⟩

end Outcome

/-- What a run leaves when its stylesheets have been purged. -/
def finish (o : Options) (c : Config) (p : Prepared) (w : Writing) (reports : List FileReport) :
    Outcome :=
  let stdout := if w.path.isNone then w.text else ""
  if o.quiet && c.report.path.isNone then ⟨w.tree, stdout, "", none⟩
  else
    let r := report p.format c.report.path false reports
    match r.file with
    | none => ⟨w.tree, stdout, r.text, none⟩
    | some path =>
      match w.tree.write? path r.text with
      | none => ⟨w.tree, stdout, "", some (.unreported path)⟩
      | some t => ⟨t, stdout, "", none⟩

/-- A run with a configuration. -/
def runConfig (t : FileTree) (o : Options) (c : Config) : Outcome :=
  match prepare t o c with
  | .error e => .failed t e
  | .ok p =>
    match Writing.start t c.output with
    | none => .failed t (.uncreated (c.output.getD ""))
    | some w =>
      match w.purgeAll p.judge p.sheets with
      | (w, .error e) => ⟨w.tree, if w.path.isNone then w.text else "", "", some e⟩
      | (w, .ok reports) => finish o c p w reports

/-- The configuration of a run: the one that is named, or the one of the directory. -/
def configFor (t : FileTree) (o : Options) : Except Config.LoadError Config :=
  o.override <$> (match o.config with
    | some path => Config.load t path
    | none => Config.find t ".")

/-- A run with options. -/
def run (t : FileTree) (o : Options) : Outcome :=
  match configFor t o with
  | .error e => .failed t (.config e)
  | .ok c => runConfig t o c

/-! ## Texts -/

def versionText : String := "cssprune " ++ Report.version ++ "\n"

def helpText : String :=
  "Remove unused rules from stylesheets\n\nUsage: cssprune [OPTIONS]\n\nOptions:\n"
    ++ String.join (OptionSpec.all.map fun s =>
      (match s.letter with
        | some c => "  -" ++ String.singleton c ++ ", --"
        | none => "      --") ++ s.name
      ++ (match s.kind with
        | .valued _ => " <VALUE>\n"
        | _ => "\n"))

end StyleSieve.Run
