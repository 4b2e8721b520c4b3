import StyleSieve.Run.Program

/-!
# The command line

The files below the working directory are read, the program is run on them, and the files that it
changed are written. Paths that lead out of the working directory lead nowhere.
-/

namespace StyleSieve

open Files Run

/-- The text of some bytes, if they hold one. -/
def entryOf (bytes : ByteArray) : Entry :=
  match String.fromUTF8? bytes with
  | some text => .text text
  | none => .binary

/-- What lies below some entries of a directory. -/
partial def readEntries (place : Place) (found : Array IO.FS.DirEntry) :
    IO (List (Place × Entry)) := do
  let mut entries := []
  for e in found.toList do
    let here := place ++ [e.fileName]
    if ← e.path.isDir then
      let inner ← readEntries here (← e.path.readDir)
      entries := entries ++ (here, Entry.directory) :: inner
    else
      entries := entries ++ [(here, entryOf (← IO.FS.readBinFile e.path))]
  return entries

/-- The files below the working directory. -/
def readWorkingTree : IO FileTree := do
  return ⟨← readEntries [] (← (← IO.currentDir).readDir)⟩

/-- Writes what a run changed and says. -/
def writeOutcome (before : FileTree) (r : Outcome) : IO UInt32 := do
  for (place, text) in r.tree.changesSince before do
    IO.FS.writeFile ("/".intercalate place) text
  IO.print r.stdout
  IO.eprint r.stderr
  match r.error with
  | none => return 0
  | some e =>
    IO.eprintln ("Error: " ++ e.message)
    return 1

end StyleSieve

open StyleSieve Run in
/-- Runs the program in the working directory. -/
def main (arguments : List String) : IO UInt32 := do
  match Command.parse arguments with
  | .error e =>
    IO.eprintln ("error: " ++ e.message)
    return 2
  | .ok .version =>
    IO.print versionText
    return 0
  | .ok .help =>
    IO.print helpText
    return 0
  | .ok (.purge o) =>
    let tree ← readWorkingTree
    writeOutcome tree (run tree o)
