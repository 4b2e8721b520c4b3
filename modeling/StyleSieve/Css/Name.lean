import StyleSieve.Text.Ascii

/-!
# Names of at-rules and properties

Names may carry the prefix of a browser, and ASCII letter case does not count.
-/

namespace StyleSieve.Css

/-- The characters of a name after a prefix between two hyphens. -/
def dropVendor : List Char → List Char
  | '-' :: rest =>
    match rest.dropWhile (· != '-') with
    | [] => '-' :: rest
    | _ :: name => name
  | cs => cs

/-- A name without the prefix of a browser. -/
def unprefixed (name : String) : String := String.ofList (dropVendor name.toList)

/-- A name without prefix, in lower case. -/
def plainName (name : String) : String := Text.lowerAscii (unprefixed name)

/-- The at-rule defines an animation. -/
def isKeyframes (name : String) : Bool := Text.sameAscii (unprefixed name) "keyframes"

/-- At-rules that apply the rules inside them under a condition. -/
def conditionalNames : List String :=
  ["media", "supports", "container", "layer", "document", "scope", "starting-style"]

def isConditional (name : String) : Bool := conditionalNames.contains (plainName name)

/-- The at-rule's block holds rules; the block of any other holds declarations. -/
def holdsRules (name : String) : Bool := isConditional name || plainName name == "keyframes"

def isFontFace (name : String) : Bool := plainName name == "font-face"

end StyleSieve.Css
