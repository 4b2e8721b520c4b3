import StyleSieve.Css.Sheet
import StyleSieve.Selector.Parse
import StyleSieve.Usage.Index

/-!
# References to fonts and animations

The selectors of a stylesheet that use each font family and each animation. A block that defines a
font or an animation is wanted if the chain of one of its users is included.
-/

namespace StyleSieve.Usage

open Text Css Selector

/-- What makes a stylesheet unfit for use: its grammar, or a selector that cannot be read. -/
inductive SheetError where
  | malformed (error : SyntaxError)
  | badSelector (selector : String) (cause : SelectorError)
deriving Repr, DecidableEq

def SheetError.message : SheetError → String
  | malformed e => e.message
  | badSelector selector cause => "invalid selector " ++ quoted selector ++ ": " ++ cause.message

/-- Names with the chains that use them, each as often and in the order as found. -/
abbrev NameUses := List (String × Chain)

namespace NameUses

/-- The chains that use a name. -/
def chains (uses : NameUses) (name : String) : List Chain :=
  (uses.filter (·.1 == name)).map Prod.snd

/-- The names in use, each once. -/
def names (uses : NameUses) : List String := (uses.map Prod.fst).eraseDups

/-- Some chain that uses the name is included. -/
def wanted (uses : NameUses) (index : Index) (name : String) : Bool :=
  (uses.chains name).any index.includes

@[simp] theorem chains_append (uses more : NameUses) (name : String) :
    chains (uses ++ more) name = uses.chains name ++ more.chains name := by
  simp [chains]

end NameUses

/-- The uses of fonts and of animations in stylesheets. -/
structure References where
  fonts : NameUses
  animations : NameUses
deriving DecidableEq

namespace References

def empty : References := ⟨[], []⟩

def append (r s : References) : References := ⟨r.fonts ++ s.fonts, r.animations ++ s.animations⟩

instance : Append References := ⟨append⟩

def fontWanted (r : References) (index : Index) (family : String) : Bool :=
  r.fonts.wanted index family

def animationWanted (r : References) (index : Index) (name : String) : Bool :=
  r.animations.wanted index name

end References

/-! ## Names in declarations -/

/-- A font family without blanks or quotes around it. -/
def fontName (text : String) : String := trim (unquote (trim text))

/-- The parts of a list between separators. -/
def splitAtCommas : List String → List (List String)
  | [] => [[]]
  | v :: vs =>
    match splitAtCommas vs with
    | [] => [[v]]
    | part :: parts => if v = "," then [] :: part :: parts else (v :: part) :: parts

/-- The font families that a value lists. -/
def fontsIn (values : List String) : List String :=
  ((splitAtCommas values).map fun part => fontName (String.join part)).filter (!·.isEmpty)

/-- The components of a value that may name an animation. -/
def animationsIn (values : List String) : List String :=
  ((values.filter fun v => v != " " && v != ",").map unquote).filter (!·.isEmpty)

def isFontFamily (property : String) : Bool := sameAscii (unprefixed property) "font-family"

def isAnimation (property : String) : Bool :=
  sameAscii (unprefixed property) "animation"
    || sameAscii (unprefixed property) "animation-name"

/-! ## Reading a stylesheet -/

/-- What has been read of the rule at hand, and how many at-rule blocks are open since an animation
began. -/
structure Survey where
  selectors : List String
  fonts : List String
  animations : List String
  depth : Nat
  found : References

def Survey.initial : Survey := ⟨[], [], [], 0, .empty⟩

/-- The chains of some selectors. -/
def chainsOf : List String → Except SheetError (List Chain)
  | [] => .ok []
  | s :: rest =>
    match parse s with
    | .error cause => .error (.badSelector s cause)
    | .ok c => (c :: ·) <$> chainsOf rest

/-- Every name with every chain. -/
def pairs (names : List String) (chains : List Chain) : NameUses :=
  names.flatMap fun n => chains.map (n, ·)

/-- The rule at hand ends. Its selectors are read only if it uses a name. -/
def Survey.endRule (s : Survey) : Except SheetError Survey :=
  let fresh := { s with selectors := [], fonts := [], animations := [] }
  if s.fonts.isEmpty && s.animations.isEmpty then .ok fresh
  else
    match chainsOf s.selectors with
    | .error e => .error e
    | .ok chains =>
      .ok { fresh with found := s.found ++ ⟨pairs s.fonts chains, pairs s.animations chains⟩ }

/-- A declaration of the rule at hand. -/
def Survey.declare (s : Survey) (e : Event) : Survey :=
  if s.selectors.isEmpty then s
  else if isFontFamily e.data then { s with fonts := s.fonts ++ fontsIn e.values }
  else if isAnimation e.data then { s with animations := s.animations ++ animationsIn e.values }
  else s

/-- The survey after one event more. Nothing counts inside the definition of an animation. -/
def Survey.step (s : Survey) (e : Event) : Except SheetError Survey :=
  if s.depth > 0 then
    match e.kind with
    | .blockStart => .ok { s with depth := s.depth + 1 }
    | .blockEnd => .ok { s with depth := s.depth - 1 }
    | _ => .ok s
  else
    match e.kind with
    | .blockStart => .ok (if isKeyframes e.atName then { s with depth := 1 } else s)
    | .selector => .ok { s with selectors := s.selectors ++ [e.text] }
    | .rulesetStart => .ok { s with selectors := s.selectors ++ [e.text] }
    | .declaration => .ok (s.declare e)
    | .rulesetEnd => s.endRule
    | _ => .ok s

def Survey.run (s : Survey) : List Event → Except SheetError Survey
  | [] => .ok s
  | e :: es =>
    match s.step e with
    | .error fault => .error fault
    | .ok s => s.run es

/-- The references in a stylesheet. A selector that cannot be read comes before a fault of the
grammar further on. -/
def References.ofSheet (source : String) : Except SheetError References :=
  let outcome := events source
  match Survey.initial.run outcome.events, outcome.error with
  | .error e, _ => .error e
  | .ok _, some e => .error (.malformed e)
  | .ok s, none => .ok s.found

/-- The references in several stylesheets in order. -/
def References.ofSheets : List String → Except SheetError References
  | [] => .ok .empty
  | s :: rest =>
    match References.ofSheet s with
    | .error e => .error e
    | .ok r => (r ++ ·) <$> ofSheets rest

end StyleSieve.Usage
