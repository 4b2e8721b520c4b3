import StyleSieve.Pattern.CharSet
import StyleSieve.Text.Extending
import StyleSieve.Text.Property
import StyleSieve.Text.Script

/-!
# Named properties

The sets of characters that a pattern may ask for by the name of a general category, of a script or
of another property. Not every property of Unicode has its table here: a pattern that asks for one
that is missing is refused, though its name has a meaning (`properties`, `withValue`).
-/

namespace StyleSieve.Pattern

open Text

/-- A name without spaces, hyphens, low lines and a leading `is`, in lower case. -/
def plainName (name : String) : String :=
  let dropped := fun (cs : List Char) =>
    (cs.filter fun c => c != ' ' && c != '_' && c != '-' && c.toNat < 0x80).map Char.toLower
  match name.toList with
  | c :: d :: rest =>
    if c.toLower == 'i' && d.toLower == 's' then
      let plain := dropped rest
      if plain == ['c'] then "isc" else String.ofList plain
    else String.ofList (dropped (c :: d :: rest))
  | cs => String.ofList (dropped cs)

/-- A set under one of some names. -/
def lookup (table : List (List String × CharSet)) (name : String) : Option CharSet :=
  table.findSome? fun (names, s) => if names.contains name then some s else none

def letters : CharSet :=
  .ofList [Category.uppercase, Category.lowercase, Category.titlecase, Category.modifier,
    Category.otherLetter]

def marks : CharSet := .ofList [Category.nonspacing, Category.spacing, Category.enclosing]

def numbers : CharSet := .ofList [Category.decimal, Category.letterNumber, Category.otherNumber]

def punctuation : CharSet :=
  .ofList [Category.connector, Category.dash, Category.opening, Category.closing,
    Category.initialQuote, Category.finalQuote, Category.otherPunctuation]

def symbols : CharSet :=
  .ofList [Category.mathSymbol, Category.currency, Category.modifierSymbol, Category.otherSymbol]

def separators : CharSet :=
  .ofList [Category.space, Category.lineSeparator, Category.paragraphSeparator]

/-- Characters that have been given a meaning. -/
def assigned : CharSet :=
  [letters, marks, numbers, punctuation, symbols, separators,
    .ofList [Category.control, Category.format, Category.privateUse]].foldl .join .none

/-- General categories by their names. -/
def categories : List (List String × CharSet) := [
  (["any"], .all),
  (["assigned"], assigned),
  (["ascii"], .ranges [(0, 0x7F)]),
  (["l", "letter"], letters),
  (["lc", "casedletter"],
    .ofList [Category.uppercase, Category.lowercase, Category.titlecase]),
  (["lu", "uppercaseletter"], .ranges Category.uppercase),
  (["ll", "lowercaseletter"], .ranges Category.lowercase),
  (["lt", "titlecaseletter"], .ranges Category.titlecase),
  (["lm", "modifierletter"], .ranges Category.modifier),
  (["lo", "otherletter"], .ranges Category.otherLetter),
  (["m", "mark", "combiningmark"], marks),
  (["mn", "nonspacingmark"], .ranges Category.nonspacing),
  (["mc", "spacingmark"], .ranges Category.spacing),
  (["me", "enclosingmark"], .ranges Category.enclosing),
  (["n", "number"], numbers),
  (["nd", "decimalnumber", "digit"], .ranges Category.decimal),
  (["nl", "letternumber"], .ranges Category.letterNumber),
  (["no", "othernumber"], .ranges Category.otherNumber),
  (["p", "punctuation", "punct"], punctuation),
  (["pc", "connectorpunctuation"], .ranges Category.connector),
  (["pd", "dashpunctuation"], .ranges Category.dash),
  (["ps", "openpunctuation"], .ranges Category.opening),
  (["pe", "closepunctuation"], .ranges Category.closing),
  (["pi", "initialpunctuation"], .ranges Category.initialQuote),
  (["pf", "finalpunctuation"], .ranges Category.finalQuote),
  (["po", "otherpunctuation"], .ranges Category.otherPunctuation),
  (["s", "symbol"], symbols),
  (["sm", "mathsymbol"], .ranges Category.mathSymbol),
  (["sc", "currencysymbol"], .ranges Category.currency),
  (["sk", "modifiersymbol"], .ranges Category.modifierSymbol),
  (["so", "othersymbol"], .ranges Category.otherSymbol),
  (["z", "separator"], separators),
  (["zs", "spaceseparator"], .ranges Category.space),
  (["zl", "lineseparator"], .ranges Category.lineSeparator),
  (["zp", "paragraphseparator"], .ranges Category.paragraphSeparator),
  (["c", "other"],
    .join (.except assigned) (.ofList [Category.control, Category.format, Category.privateUse])),
  (["cc", "control", "cntrl"], .ranges Category.control),
  (["cf", "format"], .ranges Category.format),
  (["co", "privateuse"], .ranges Category.privateUse),
  (["cn", "unassigned"], .except assigned)]

/-- Characters that may begin an identifier. -/
def identStart : CharSet :=
  .less (.join letters (.ofList [Category.letterNumber, Property.otherStart]))
    (.ranges Property.noStart)

/-- Characters that may stand in an identifier. -/
def identContinue : CharSet :=
  .join identStart (.ofList [Category.nonspacing, Category.spacing, Category.decimal,
    Category.connector, Property.otherContinue])

/-- Characters that stand on their own in a text. -/
def graphemeBase : CharSet :=
  .less ([letters, marks, numbers, punctuation, symbols, .ranges Category.space].foldl .join .none)
    (.ranges extending)

/-- Properties that a character has or has not, by their names. Some have no table here and are left
out: `Diacritic`, `Extender`, `Bidi_Mirrored`, `Grapheme_Link`, `Soft_Dotted`, the marks that end
sentences and other parts of a text, what is added to the letters, and whether a character changes
with its case. -/
def properties : List (List String × CharSet) := [
  (["alphabetic", "alpha"], .ranges alphabetic),
  (["lowercase", "lower"], .ofList [Category.lowercase, Property.otherLowercase]),
  (["uppercase", "upper"], .ofList [Category.uppercase, Property.otherUppercase]),
  (["otherlowercase", "olower"], .ranges Property.otherLowercase),
  (["otheruppercase", "oupper"], .ranges Property.otherUppercase),
  (["whitespace", "wspace", "space"], spaces),
  (["cased"], .ranges cased),
  (["caseignorable", "ci"], .ranges caseIgnorable),
  (["asciihexdigit", "ahex"], .ranges [(0x30, 0x39), (0x41, 0x46), (0x61, 0x66)]),
  (["hexdigit", "hex"], .ranges Property.hexDigits),
  (["bidicontrol", "bidic"], .ranges Property.bidiControls),
  (["dash"], .ranges Property.dashes),
  (["defaultignorablecodepoint", "di"], .ranges Property.ignorable),
  (["deprecated", "dep"], .ranges Property.deprecated),
  (["emoji"], .ranges Property.emoji),
  (["emojicomponent", "ecomp"], .ranges Property.emojiParts),
  (["emojimodifier", "emod"], .ranges Property.emojiModifiers),
  (["emojimodifierbase", "ebase"], .ranges Property.emojiBases),
  (["emojipresentation", "epres"], .ranges Property.emojiShown),
  (["extendedpictographic", "extpict"], .ranges Property.pictographs),
  (["graphemebase", "grbase"], graphemeBase),
  (["graphemeextend", "grext"], .ranges extending),
  (["hyphen"], .ranges Property.hyphens),
  (["ideographic", "ideo"], .ranges Property.ideographs),
  (["idsbinaryoperator", "idsb"], .ranges Property.binaryOperators),
  (["idstrinaryoperator", "idst"], .ranges Property.ternaryOperators),
  (["joincontrol", "joinc"], .ranges joiners),
  (["logicalorderexception", "loe"], .ranges Property.visualOrder),
  (["math"], .ranges Property.mathematical),
  (["noncharactercodepoint", "nchar"], .ranges Property.noncharacters),
  (["patternsyntax", "patsyn"], .ranges Property.patternSigns),
  (["patternwhitespace", "patws"], .ranges Property.patternSpaces),
  (["prependedconcatenationmark", "pcm"], .ranges Property.prependedMarks),
  (["quotationmark", "qmark"], .ranges Property.quotationMarks),
  (["radical"], .ranges Property.radicals),
  (["regionalindicator", "ri"], .ranges Property.regionalIndicators),
  (["unifiedideograph", "uideo"], .ranges Property.unifiedIdeographs),
  (["variationselector", "vs"], .ranges Property.variationSelectors),
  (["idstart", "ids"], identStart),
  (["idcontinue", "idc"], identContinue),
  (["otheridstart", "oids"], .ranges Property.otherStart),
  (["otheridcontinue", "oidc"], .ranges Property.otherContinue),
  (["xidstart", "xids"], .less identStart (.ranges Property.closedStart)),
  (["xidcontinue", "xidc"], .less identContinue (.ranges Property.closedContinue))]

/-- A script by one of its names. -/
def scriptNamed (name : String) : Option CharSet :=
  lookup (scripts.map fun (names, rs) => (names, .ranges rs)) name

/-- A general category whose short name is also that of a property. -/
def isCategoryFirst (name : String) : Bool := ["cf", "sc", "lc"].contains name

/-- The set with a name. -/
def named (name : String) : Option CharSet :=
  let plain := plainName name
  let property := if isCategoryFirst plain then none else lookup properties plain
  (property.or (lookup categories plain)).or (scriptNamed plain)

/-- The characters for which a property has a value. Only general categories and scripts are known
by their values: `Age`, `Script_Extensions` and the breaks of graphemes, words and sentences are
not. -/
def withValue (property value : String) : Option CharSet :=
  let value := plainName value
  match plainName property with
  | "gc" => lookup categories value
  | "generalcategory" => lookup categories value
  | "sc" => scriptNamed value
  | "script" => scriptNamed value
  | _ => none

end StyleSieve.Pattern
