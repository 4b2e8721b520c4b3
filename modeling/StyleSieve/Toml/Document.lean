import StyleSieve.Toml.Atom
import StyleSieve.Toml.Table

/-!
# Documents of TOML

The values, headers and lines of a document.
-/

namespace StyleSieve.Toml

/-- A path and the key at its end. -/
def splitPath (path : List String) : List String × String :=
  (path.dropLast, path.getLast?.getD "")

def Entry.ofPath (path : List String) (v : Value) : Entry :=
  ⟨(splitPath path).1, (splitPath path).2, v⟩

/-- The sign after a key, and the white space around it: what comes after them, and the number of
characters before that. -/
def afterEquals (cs : List Char) : Option (List Char × Nat) :=
  match cs with
  | '=' :: rest =>
    let gap := gapLength rest
    some (rest.drop gap, gap + 1)
  | _ => none

mutual

/-- A value inside `depth` arrays and tables in braces, given its first character and what follows
it. -/
def readValue (depth : Nat) (c : Char) (cs : List Char) : Option (Value × Nat) :=
  if c == '"' || c == '\'' then (fun (s, n) => (.text s, n)) <$> readText c cs
  else if c == '[' then
    if depth + 1 < nestLimit then
      (fun (items, n) => (.array items, n)) <$> readItems (depth + 1) true 0 cs
    else none
  else if c == '\x7b' then
    if depth + 1 < nestLimit then
      match readEntries (depth + 1) true 0 cs with
      | none => none
      | some (entries, n) => (fun fs => (.table .inline fs, n)) <$> addEntries [] entries
    else none
  else (fun n => (.atom, n - 1)) <$> atomLength (c :: cs)
termination_by (cs.length, 1)
decreasing_by
  · exact Prod.Lex.right _ (by omega)
  · exact Prod.Lex.right _ (by omega)

/-- The items of an array up to its end. A comma may follow the last one. -/
def readItems (depth : Nat) (first : Bool) (n : Nat) (cs : List Char) :
    Option (List Value × Nat) :=
  let filler := fillerLength 0 cs
  match h : cs.drop filler with
  | [] => none
  | c :: rest =>
    have lt : rest.length < cs.length := by
      have := congrArg List.length h
      simp only [List.length_drop, List.length_cons] at this
      omega
    if c == ']' then some ([], n + filler + 1)
    else if first then
      match readValue depth c rest with
      | none => none
      | some (v, k) =>
        (fun (vs, m) => (v :: vs, m)) <$> readItems depth false (n + filler + 1 + k) (rest.drop k)
    else if c == ',' then
      let more := fillerLength 0 rest
      match h' : rest.drop more with
      | [] => none
      | d :: rest' =>
        have lt' : rest'.length < rest.length := by
          have := congrArg List.length h'
          simp only [List.length_drop, List.length_cons] at this
          omega
        if d == ']' then some ([], n + filler + 1 + more + 1)
        else
          match readValue depth d rest' with
          | none => none
          | some (v, k) =>
            (fun (vs, m) => (v :: vs, m)) <$>
              readItems depth false (n + filler + 1 + more + 1 + k) (rest'.drop k)
    else none
termination_by (cs.length, 0)
decreasing_by all_goals exact Prod.Lex.left _ _ (by (try simp only [List.length_drop]); omega)

/-- The entries of a table in braces up to its end. -/
def readEntries (depth : Nat) (first : Bool) (n : Nat) (cs : List Char) :
    Option (List Entry × Nat) :=
  let gap := gapLength cs
  match h : cs.drop gap with
  | [] => none
  | c :: rest =>
    have lt : rest.length < cs.length := by
      have := congrArg List.length h
      simp only [List.length_drop, List.length_cons] at this
      omega
    if c == '\x7d' then some ([], n + gap + 1)
    else if !first && c != ',' then none
    else
      let skip := gap + (if first then 0 else 1)
      match readPath (cs.drop skip) with
      | none => none
      | some (path, k) =>
        match afterEquals (cs.drop (skip + k)) with
        | none => none
        | some (_, m) =>
          match h' : cs.drop (skip + k + m) with
          | [] => none
          | d :: rest' =>
            have lt' : rest'.length < cs.length := by
              have := congrArg List.length h'
              simp only [List.length_drop, List.length_cons] at this
              omega
            match readValue depth d rest' with
            | none => none
            | some (v, j) =>
              (fun (es, m) => (.ofPath path v :: es, m)) <$>
                readEntries depth false (n + skip + k + m + 1 + j) (rest'.drop j)
termination_by (cs.length, 0)
decreasing_by
  · exact Prod.Lex.left _ _ lt'
  · exact Prod.Lex.left _ _ (by simp only [List.length_drop]; omega)

end

/-- A line with something on it. -/
inductive Line where
  | entry (e : Entry)
  | header (h : Header) (path : List String)
deriving Repr

/-- An entry on a line, without what follows its value. -/
def readEntry (cs : List Char) : Option (Entry × Nat) :=
  match readPath cs with
  | none => none
  | some (path, k) =>
    match afterEquals (cs.drop k) with
    | some (c :: rest, m) =>
      (fun (v, j) => (.ofPath path v, k + m + 1 + j)) <$> readValue 0 c rest
    | _ => none

/-- A header, given what follows its first bracket. -/
def readHeader (cs : List Char) : Option (Line × Nat) :=
  match cs with
  | '[' :: rest =>
    match readPath rest with
    | none => none
    | some (path, k) =>
      if (rest.drop k).take 2 = [']', ']'] then some (.header .tables path, k + 3) else none
  | _ =>
    match readPath cs with
    | none => none
    | some (path, k) =>
      if (cs.drop k).head? = some ']' then some (.header .table path, k + 1) else none

/-- A line, given its first character that is no white space. -/
def readLine (c : Char) (cs : List Char) : Option (Line × Nat) :=
  if c == '[' then readHeader cs
  else (fun (e, n) => (.entry e, n - 1)) <$> readEntry (c :: cs)

/-- The lines of a document; those that are empty or hold comments are left out. -/
def readDocument : List Char → Option (List Line)
  | [] => some []
  | c :: cs =>
    if isGap c || c == '\n' then readDocument cs
    else if c == '\r' then if cs.head? = some '\n' then readDocument (cs.drop 1) else none
    else if c == '#' then
      match restOfLine (c :: cs) with
      | none => none
      | some n => readDocument (cs.drop (n - 1))
    else
      match readLine c cs with
      | none => none
      | some (line, n) =>
        match restOfLine (cs.drop n) with
        | none => none
        | some k => (line :: ·) <$> readDocument (cs.drop (n + k))
termination_by cs => cs.length
decreasing_by all_goals (simp; try omega)

/-- Lines grouped by the headers before them. -/
def sectionsOf : List Line → List Entry × List Section
  | [] => ([], [])
  | .entry e :: ls => let (top, ss) := sectionsOf ls; (e :: top, ss)
  | .header h path :: ls =>
    let (entries, ss) := sectionsOf ls
    ([], ⟨h, (splitPath path).1, (splitPath path).2, entries⟩ :: ss)

/-- The table that a text holds, which may begin with a byte order mark. -/
def parse (text : String) : Option Value :=
  let cs := if text.startsWith "\ufeff" then text.toList.drop 1 else text.toList
  match readDocument cs with
  | none => none
  | some lines => .table .header <$> build (sectionsOf lines).1 (sectionsOf lines).2

end StyleSieve.Toml
