import StyleSieve.Pattern.Bracket

/-!
# Reading patterns

A pattern is read from left to right with its open groups on a stack. A pattern that cannot be read,
or that would take too much room or nest too deep, is no pattern; nothing is said of the reason.
-/

namespace StyleSieve.Pattern

open Text

/-- A part of a pattern with the depth of its nesting. -/
structure Item where
  pattern : Pattern
  depth : Nat

/-- What is being read inside a group: the choices before the last bar and the items after it, last
first. A setting of flags is an item without a pattern, which cannot be repeated. -/
structure Body where
  choices : List Item
  items : List (Option Item)

def Body.empty : Body := ⟨[], []⟩

/-- Items one after another; more than one nest one level deeper, and settings of flags count. -/
def inSequence (items : List (Option Item)) : Item :=
  let deepest := items.foldl (fun d i => max d (i.elim 0 Item.depth)) 0
  let depth := if items.length ≤ 1 then deepest else deepest + 1
  match items.filterMap (·.map Item.pattern) with
  | [] => ⟨.empty, depth⟩
  | p :: ps => ⟨ps.foldl .sequence p, depth⟩

/-- Items of which one is chosen. -/
def inChoice : List Item → Item
  | [] => ⟨.empty, 0⟩
  | [i] => i
  | i :: is =>
    ⟨is.foldl (fun p j => .choice p j.pattern) i.pattern,
      1 + (i :: is).foldl (fun d j => max d j.depth) 0⟩

def Body.lastChoice (b : Body) : Item := inSequence b.items.reverse

def Body.bar (b : Body) : Body := ⟨b.lastChoice :: b.choices, []⟩

def Body.whole (b : Body) : Item := inChoice (b.lastChoice :: b.choices).reverse

def Body.add (b : Body) (p : Pattern) (depth : Nat) : Body :=
  { b with items := some ⟨p, depth⟩ :: b.items }

/-- The last item repeated, if there is one. -/
def Body.repeatLast (b : Body) (least : Nat) (more : Option Nat) : Option Body :=
  match b.items with
  | some i :: rest =>
    some { b with items := some ⟨.repeated i.pattern least more, i.depth + 1⟩ :: rest }
  | _ => none

/-- A group that has not been closed: what surrounds it. -/
structure Surroundings where
  flags : Flags
  body : Body

/-- What has been read of a pattern. -/
structure Reading where
  flags : Flags
  groupNames : List (List Char)
  outer : List Surroundings
  body : Body

def Reading.initial : Reading := ⟨.initial, [], [], .empty⟩

def Reading.withBody (r : Reading) (b : Body) : Reading := { r with body := b }

/-! ## Flags -/

/-- A flag by its letter. That a repetition is greedy by default makes no difference here. -/
def Flags.set (f : Flags) (value : Bool) : Char → Option Flags
  | 'i' => some { f with ignoreCase := value }
  | 'm' => some { f with multiLine := value }
  | 's' => some { f with dotAll := value }
  | 'R' => some { f with returns := value }
  | 'u' => some { f with unicode := value }
  | 'x' => some { f with spaced := value }
  | 'U' => some f
  | _ => none

/-- Flags up to a bracket or a colon, which comes with the text after it. No flag may stand twice,
nor the sign before those that are taken back; that sign may not stand last. -/
def readFlags (f : Flags) (seen : List Char) : List Char → Option (Flags × List Char)
  | [] => none
  | c :: cs =>
    if c == ')' || c == ':' then
      if seen.head? == some '-' then none else some (f, c :: cs)
    else if seen.contains c then none
    else if c == '-' then readFlags f (c :: seen) cs
    else (f.set (!seen.contains '-') c).bind fun f => readFlags f (c :: seen) cs

/-! ## Groups -/

/-- Characters that may begin the name of a group. -/
def beginsName (c : Char) : Bool := c == '_' || alphabetic.has c

/-- Characters that may stand in the name of a group. -/
def inGroupName (c : Char) : Bool :=
  c == '_' || c == '.' || c == '[' || c == ']' || alphabetic.has c || isNumeric c

def Reading.openGroup (r : Reading) (inside : Flags) : Reading :=
  { r with flags := inside, outer := ⟨r.flags, r.body⟩ :: r.outer, body := .empty }

/-- A group with a name that no group before it has. -/
def Reading.openNamed (r : Reading) (cs : List Char) : Option (Reading × List Char) :=
  let name := cs.takeWhile (· != '>')
  let good := match name with
    | [] => false
    | c :: more => beginsName c && more.all inGroupName
  if good && name.length < cs.length && !r.groupNames.contains name then
    some ({ r.openGroup r.flags with groupNames := name :: r.groupNames },
      cs.drop (name.length + 1))
  else none

/-- What follows an opening bracket: a group, or flags for what surrounds it. Looking ahead and
behind is not known. -/
def Reading.group (r : Reading) (cs : List Char) : Option (Reading × List Char) :=
  match r.flags.skip cs with
  | '?' :: '=' :: _ => none
  | '?' :: '!' :: _ => none
  | '?' :: '<' :: '=' :: _ => none
  | '?' :: '<' :: '!' :: _ => none
  | '?' :: 'P' :: '<' :: rest => r.openNamed rest
  | '?' :: '<' :: rest => r.openNamed rest
  | '?' :: rest =>
    match readFlags r.flags [] rest with
    | some (f, ')' :: more) =>
      if rest.head? == some ')' then none
      else some ({ r with flags := f, body := { r.body with items := none :: r.body.items } }, more)
    | some (f, _ :: more) => some (r.openGroup f, more)
    | _ => none
  | rest => some (r.openGroup r.flags, rest)

/-- The innermost group ends. -/
def Reading.closeGroup (r : Reading) : Option Reading :=
  match r.outer with
  | [] => none
  | s :: outer =>
    let whole := r.body.whole
    let body := s.body.add whole.pattern (whole.depth + 1)
    some { r with flags := s.flags, outer := outer, body := body }

/-! ## Repetitions -/

/-- A sign that a repetition should be short makes no difference. -/
def dropLazy : List Char → List Char
  | '?' :: cs => cs
  | cs => cs

/-- A count with white space around it, or none. -/
def readCount (f : Flags) (cs : List Char) : Option (Option Nat × List Char) :=
  let start := cs.dropWhile isBlank
  let (ds, rest) := digitsOf start
  let n := ds.foldl (fun n d => n * 10 + (d.toNat - 48)) 0
  if ds.isEmpty then some (none, rest.dropWhile isBlank)
  else if n < Nat.pow 2 32 then some (some n, rest.dropWhile isBlank)
  else none
where
  digitsOf : List Char → List Char × List Char
    | [] => ([], [])
    | c :: cs =>
      if c.isDigit then let more := digitsOf cs; (c :: more.1, more.2)
      else if f.spaced && isBlank c then digitsOf cs
      else ([], c :: cs)

/-- The bounds after an opening bracket. -/
def readBounds (f : Flags) (cs : List Char) : Option (Nat × Option Nat × List Char) := do
  let (least, rest) ← readCount f (f.skip cs)
  let least ← least
  match f.skip rest with
  | '}' :: rest => some (least, some 0, rest)
  | ',' :: rest =>
    match f.skip rest with
    | '}' :: rest => some (least, none, rest)
    | rest =>
      let (most, rest) ← readCount f rest
      let most ← most
      match f.skip rest with
      | '}' :: rest => if least ≤ most then some (least, some (most - least), rest) else none
      | _ => none
  | _ => none

/-! ## Steps -/

/-- A character as it is, or in any case. -/
def Flags.charSet (f : Flags) (c : Char) : CharSet :=
  if f.unicode then f.caseClosed (.one c)
  else if c.isAlpha then f.caseClosed (.one c)
  else .one c

/-- Any character, or any that does not end a line. -/
def Flags.dot (f : Flags) : Option CharSet :=
  if !f.unicode then none
  else if f.dotAll then some .all
  else if f.returns then some (.less .all (.ranges [(0xA, 0xA), (0xD, 0xD)]))
  else some (.less .all (.one '\n'))

def Flags.lineStart (f : Flags) : Look :=
  if f.multiLine then if f.returns then .returnStart else .lineStart else .textStart

def Flags.lineEnd (f : Flags) : Look :=
  if f.multiLine then if f.returns then .returnEnd else .lineEnd else .textEnd

/-- What an escape adds. A byte that is no character of its own cannot be asked for. -/
def Body.addEscape (f : Flags) (b : Body) : Escape → Option Body
  | .char c => some (b.add (.one (f.charSet c)) 0)
  | .byte c =>
    if f.unicode || c.toNat < 0x80 then some (b.add (.one (f.charSet c)) 0) else none
  | .set s => some (b.add (.one s) 0)
  | .look l => some (b.add (.look l) 0)

/-- What one piece of the pattern adds to what has been read, with the text after it. -/
def Reading.step (r : Reading) (c : Char) (cs : List Char) : Option (Reading × List Char) :=
  match c with
  | '(' => r.group cs
  | ')' => r.closeGroup.map (·, cs)
  | '|' => some (r.withBody r.body.bar, cs)
  | '[' =>
    (readClass r.flags cs).map fun (n, rest) => (r.withBody (r.body.add (.one n.set) n.depth), rest)
  | '?' => (r.body.repeatLast 0 (some 1)).map fun b => (r.withBody b, dropLazy cs)
  | '*' => (r.body.repeatLast 0 none).map fun b => (r.withBody b, dropLazy cs)
  | '+' => (r.body.repeatLast 1 none).map fun b => (r.withBody b, dropLazy cs)
  | '{' => do
    let (least, more, rest) ← readBounds r.flags cs
    let b ← r.body.repeatLast least more
    some (r.withBody b, dropLazy (r.flags.skip rest))
  | '\\' => do
    let (e, rest) ← readEscape r.flags cs
    let b ← r.body.addEscape r.flags e
    some (r.withBody b, rest)
  | '.' => r.flags.dot.map fun s => (r.withBody (r.body.add (.one s) 0), cs)
  | '^' => some (r.withBody (r.body.add (.look r.flags.lineStart) 0), cs)
  | '$' => some (r.withBody (r.body.add (.look r.flags.lineEnd) 0), cs)
  | c => some (r.withBody (r.body.add (.one (r.flags.charSet c)) 0), cs)

/-- The rest of a pattern. A step that takes nothing from the text would end in failure. -/
def Reading.finish (r : Reading) (cs : List Char) : Option Item :=
  match r.flags.skip cs with
  | [] => if r.outer.isEmpty then some r.body.whole else none
  | c :: rest =>
    match r.step c rest with
    | none => none
    | some (r, more) => if more.length < cs.length then r.finish more else none
termination_by cs.length

/-- The deepest nesting of groups, sequences, choices, repetitions and classes. -/
def depthLimit : Nat := 250

/-- The pattern of a text. A text is refused too if it asks for a property without a table
(`withValue`) or if its estimated size is over the limit (`size`). -/
def parse (text : String) : Option Pattern :=
  match Reading.initial.finish text.toList with
  | none => none
  | some i =>
    if i.depth ≤ depthLimit && i.pattern.size ≤ sizeLimit then some i.pattern else none

end StyleSieve.Pattern
