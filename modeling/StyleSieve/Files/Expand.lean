import StyleSieve.Files.FileTree
import StyleSieve.Files.Glob

/-!
# Expanding globs

The paths that a glob stands for in a file tree. A glob is followed part by part; a part without
wildcards leads on without a look at the directory, so that it may also lead up. Results come in the
order of names, a directory before what lies in it.
-/

namespace StyleSieve.Files

/-- A place on the way, with the path that leads there as it is to be shown. Above the file tree
there is no place. -/
structure Way where
  path : String
  place : Option Place
deriving Repr, DecidableEq

namespace Way

/-- The way to where everything begins. -/
def start : Way := ⟨".", some []⟩

def isDirectory (t : FileTree) (w : Way) : Bool := w.place.all t.isDirectory

/-- The path of something in a directory; nothing is put before names in the first one. -/
def pathOf (w : Way) (name : String) : String := if isHere w.path then name else join w.path name

/-- One step into a directory, up or on the spot. -/
def step (t : FileTree) (w : Way) (name : String) : Option Way :=
  match w.place with
  | none => none
  | some place =>
    let path := w.pathOf name
    if name = "." then if t.isDirectory place then some ⟨path, some place⟩ else none
    else if name = ".." then
      if t.isDirectory place then
        some ⟨path, if place.isEmpty then none else some place.dropLast⟩
      else none
    else if name = "" then
      if path.isEmpty || !t.isDirectory place then none else some ⟨path, some place⟩
    else
      match t.at? (place ++ [name]) with
      | none => none
      | some _ => if t.isDirectory place then some ⟨path, some (place ++ [name])⟩ else none

end Way

/-- The parts of a glob that has been followed, less double stars that say nothing new. -/
def dropRecursive : Glob → List Glob → List Glob
  | g, [] => [g]
  | g, h :: gs => if h.isRecursive then dropRecursive h gs else g :: h :: gs

theorem length_dropRecursive_le (g : Glob) (gs : List Glob) :
    (dropRecursive g gs).length ≤ gs.length + 1 := by
  induction gs generalizing g with
  | nil => simp [dropRecursive]
  | cons h gs ih =>
    rw [dropRecursive]
    split
    · have := ih h
      simp only [List.length_cons]
      omega
    · simp

/-- Levels of the file tree below a place. -/
def Way.room (t : FileTree) (w : Way) : Nat := t.depth - (w.place.getD []).length

/-- The names of the directory itself and of the one above it that a glob stands for. They are
looked for only if the glob begins with a dot. -/
def specialNames (g : Glob) : List String :=
  if g.tokens.head? = some (.char '.') then ["..", "."].filter g.accepts else []

mutual

/-- What the parts of a glob stand for in a directory. -/
def below (t : FileTree) (dirsOnly : Bool) (w : Way) (parts : List Glob) : List String :=
  match parts with
  | [] => []
  | g :: gs =>
    match g.literal? with
    | some name =>
      match w.step t name with
      | none => []
      | some next => arrived t dirsOnly next gs
    | none =>
      match h : w.place with
      | none => []
      | some place =>
        have : w.room t = t.depth - place.length := by simp [Way.room, h]
        if _ : place.length < t.depth ∧ t.isDirectory place then
          let special := (specialNames g).flatMap fun name =>
            match w.step t name with
            | none => []
            | some next => arrived t dirsOnly ⟨join w.path name, next.place⟩ gs
          let names := (t.children place).flatMap fun name =>
            visited t dirsOnly ⟨w.pathOf name, some (place ++ [name])⟩ name (g :: gs)
          special ++ names
        else []
termination_by (parts.length, w.room t, 0)
decreasing_by
  · exact Prod.Lex.left _ _ (by simp)
  · exact Prod.Lex.left _ _ (by simp)
  · refine Prod.Lex.right _ (Prod.Lex.left _ _ ?_)
    rw [this]
    simp only [Way.room, Option.getD_some, List.length_append, List.length_singleton]
    omega

/-- What the rest of a glob stands for where the part before it leads. -/
def arrived (t : FileTree) (dirsOnly : Bool) (w : Way) (parts : List Glob) : List String :=
  match parts with
  | [] => if dirsOnly && !w.isDirectory t then [] else [w.path]
  | g :: gs => below t dirsOnly w (g :: gs)
termination_by (parts.length, w.room t, 1)
decreasing_by exact Prod.Lex.right _ (Prod.Lex.right _ (by omega))

/-- What the parts of a glob stand for at something found under a name in a directory. A recursive
part stands for a directory and for what lies in it, or for nothing. -/
def visited (t : FileTree) (dirsOnly : Bool) (w : Way) (name : String) (parts : List Glob) :
    List String :=
  match parts with
  | [] => []
  | g :: gs =>
    if g.isRecursive then
      let rest := dropRecursive g gs
      have : rest.length ≤ gs.length + 1 := length_dropRecursive_le g gs
      let inside := if w.isDirectory t then below t dirsOnly w rest else []
      match rest with
      | [] => []
      | [_] => if w.isDirectory t then w.path :: inside else []
      | _ :: next :: more =>
        (if next.accepts name then arrived t dirsOnly w more else []) ++ inside
    else if g.accepts name then arrived t dirsOnly w gs
    else []
termination_by (parts.length, w.room t, 1)
decreasing_by
  · rcases Nat.lt_or_eq_of_le this with h | h
    · exact Prod.Lex.left _ _ (by simpa using h)
    · simp only [List.length_cons, ← h]
      exact Prod.Lex.right _ (Prod.Lex.right _ (by omega))
  · refine Prod.Lex.left _ _ ?_
    simp only [List.length_cons] at this ⊢
    omega
  · exact Prod.Lex.left _ _ (by simp)

end

/-- The parts of a glob text. -/
def globParts : List String → Except GlobError (List Glob)
  | [] => .ok []
  | p :: ps =>
    match Glob.parse p with
    | .error e => .error e
    | .ok g => (g :: ·) <$> globParts ps

/-- The paths that a glob stands for. The glob as a whole is looked at first for faults, and then
its parts. Outside the file tree nothing is found. -/
def expand (t : FileTree) (text : String) : Except GlobError (List String) :=
  match Glob.parse text with
  | .error e => .error e
  | .ok _ =>
    match globParts (if text.isEmpty then [""] else split text) with
    | .error e => .error e
    | .ok parts =>
      .ok (if isAbsolute text then [] else below t (text.endsWith "/") .start parts)

end StyleSieve.Files
