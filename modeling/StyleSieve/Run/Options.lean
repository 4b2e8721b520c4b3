import StyleSieve.Config.Basic
import StyleSieve.Report.Summary

/-!
# Options of a run

What the arguments of the program say. An option with a value may be given several times if its
values make up a list; all others are given once.
-/

namespace StyleSieve.Run

open Report (Format)

structure Options where
  css : List String
  html : List String
  words : List String
  keep : List String
  keepClasses : List String
  keepIds : List String
  exclude : List String
  output : Option String
  config : Option String
  report : Option String
  format : Option Format
  verbose : Bool
  quiet : Bool
deriving Repr, DecidableEq

def Options.empty : Options :=
  ⟨[], [], [], [], [], [], [], none, none, none, none, false, false⟩

/-- A configuration changed by options: inputs take the place of those in it, what is kept and what
is left out is added. -/
def Options.override (o : Options) (c : Config) : Config :=
  let instead := fun (given configured : List String) =>
    if given.isEmpty then configured else given
  { css := instead o.css c.css
    html := instead o.html c.html
    words := instead o.words c.words
    keep := c.keep ++ o.keep
    keepClasses := c.keepClasses ++ o.keepClasses
    keepIds := c.keepIds ++ o.keepIds
    exclude := c.exclude ++ o.exclude
    output := o.output.or c.output
    report := { c.report with path := o.report.or c.report.path } }

/-! ## Arguments -/

/-- What the arguments ask for. -/
inductive Command where
  | purge (options : Options)
  | version
  | help
deriving Repr, DecidableEq

/-- Why arguments cannot be understood. -/
inductive UsageError where
  | unknown (argument : String)
  | missingValue (name : String)
  | badValue (name value : String)
  | repeated (name : String)
deriving Repr, DecidableEq

def UsageError.message : UsageError → String
  | unknown a => "unexpected argument '" ++ a ++ "'"
  | missingValue name => "a value is required for '--" ++ name ++ "'"
  | badValue name v => "invalid value '" ++ v ++ "' for '--" ++ name ++ "'"
  | repeated name => "'--" ++ name ++ "' cannot be used multiple times"

/-- What an option does. -/
inductive OptionKind where
  /-- It takes a value, which it adds to the options. -/
  | valued (add : Options → String → Except UsageError Options)
  /-- It stands alone and changes the options. -/
  | switch (set : Options → Except UsageError Options)
  /-- It asks for something else than a run. -/
  | instead (command : Command)

/-- An option with its long name and its letter, if it has one. -/
structure OptionSpec where
  name : String
  letter : Option Char
  kind : OptionKind

namespace OptionSpec

/-- An option whose values make up a list. -/
def list (name : String) (letter : Option Char) (add : Options → String → Options) :
    OptionSpec :=
  ⟨name, letter, .valued fun o v => .ok (add o v)⟩

/-- An option for a path, which is not empty and given once. -/
def path (name : String) (letter : Option Char) (get : Options → Option String)
    (set : Options → String → Options) : OptionSpec :=
  ⟨name, letter, .valued fun o v =>
    if v.isEmpty then .error (.badValue name v)
    else if (get o).isSome then .error (.repeated name)
    else .ok (set o v)⟩

def switch (name : String) (letter : Char) (get : Options → Bool) (set : Options → Options) :
    OptionSpec :=
  ⟨name, some letter, .switch fun o =>
    if get o then .error (.repeated name) else .ok (set o)⟩

/-- The layout of the report, given once. -/
def format : OptionSpec :=
  ⟨"report-format", none, .valued fun o v =>
    let chosen : Option Format :=
      if v = "terminal" then some .terminal else if v = "json" then some .json else none
    match chosen with
    | none => .error (.badValue "report-format" v)
    | some f =>
      if o.format.isSome then .error (.repeated "report-format")
      else .ok { o with format := some f }⟩

/-- All options. -/
def all : List OptionSpec :=
  [list "css" (some 'c') fun o v => { o with css := o.css ++ [v] },
    list "html" (some 'H') fun o v => { o with html := o.html ++ [v] },
    list "words" (some 'w') fun o v => { o with words := o.words ++ [v] },
    list "include" (some 'i') fun o v => { o with keep := o.keep ++ [v] },
    list "include-class" none fun o v => { o with keepClasses := o.keepClasses ++ [v] },
    list "include-id" none fun o v => { o with keepIds := o.keepIds ++ [v] },
    list "exclude" (some 'e') fun o v => { o with exclude := o.exclude ++ [v] },
    path "output" (some 'o') Options.output fun o v => { o with output := some v },
    path "config" none Options.config fun o v => { o with config := some v },
    path "report" none Options.report fun o v => { o with report := some v },
    format,
    switch "verbose" 'v' Options.verbose fun o => { o with verbose := true },
    switch "quiet" 'q' Options.quiet fun o => { o with quiet := true },
    ⟨"help", some 'h', .instead .help⟩,
    ⟨"version", some 'V', .instead .version⟩]

def byName (name : String) : Option OptionSpec := all.find? (·.name == name)

def byLetter (letter : Char) : Option OptionSpec := all.find? (·.letter == some letter)

end OptionSpec

/-- What an argument leads to: the options, something else than a run, or an option that waits for
its value in the next argument. -/
inductive Step where
  | done (o : Options)
  | stop (c : Command)
  | waits (spec : OptionSpec)

/-- An option with the value in the same argument, if there is one. -/
def OptionSpec.apply (s : OptionSpec) (o : Options) (value : Option String) :
    Except UsageError Step :=
  match s.kind, value with
  | .valued add, some v => .done <$> add o v
  | .valued _, none => .ok (.waits s)
  | .switch set, none => .done <$> set o
  | .instead c, none => .ok (.stop c)
  | _, some v => .error (.badValue s.name v)

/-- An argument after two hyphens: a name, and a value after the first equals sign. -/
def applyLong (o : Options) (text : String) : Except UsageError Step :=
  let name := String.ofList (text.toList.takeWhile (· != '='))
  let value := text.toList.dropWhile (· != '=')
  match OptionSpec.byName name with
  | none => .error (.unknown name)
  | some s => s.apply o (if value.isEmpty then none else some (String.ofList (value.drop 1)))

/-- Letters after one hyphen. What follows the letter of an option with a value is its value, less
an equals sign. -/
def applyLetters (o : Options) : List Char → Except UsageError Step
  | [] => .ok (.done o)
  | c :: cs =>
    match OptionSpec.byLetter c with
    | none => .error (.unknown (String.singleton c))
    | some s =>
      match s.kind with
      | .valued _ =>
        let value := if cs.head? = some '=' then cs.drop 1 else cs
        s.apply o (if cs.isEmpty then none else some (String.ofList value))
      | _ =>
        match s.apply o none with
        | .ok (.done o) => applyLetters o cs
        | step => step

/-- An argument that begins with a hyphen and goes on is no value. -/
def isOption (text : String) : Bool := text.startsWith "-" && text != "-"

/-- Reads the arguments from left to right. There are none but options; two hyphens alone may end
them. -/
def readArguments (o : Options) : List String → Except UsageError Command
  | [] => .ok (.purge o)
  | a :: rest =>
    if a = "--" then
      match rest with
      | [] => .ok (.purge o)
      | b :: _ => .error (.unknown b)
    else if !isOption a then .error (.unknown a)
    else
      let text := (a.toList.drop 1)
      let step :=
        if text.head? = some '-' then applyLong o (String.ofList (text.drop 1))
        else applyLetters o text
      match step with
      | .error e => .error e
      | .ok (.stop c) => .ok c
      | .ok (.done o) => readArguments o rest
      | .ok (.waits s) =>
        match rest with
        | [] => .error (.missingValue s.name)
        | v :: rest =>
          if isOption v then .error (.missingValue s.name)
          else
            match s.apply o (some v) with
            | .ok (.done o) => readArguments o rest
            | .ok _ => .error (.missingValue s.name)
            | .error e => .error e

/-- What arguments ask for. -/
def Command.parse (arguments : List String) : Except UsageError Command :=
  readArguments .empty arguments

end StyleSieve.Run
