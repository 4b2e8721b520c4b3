/-!
# Paths

A path is a text whose parts are separated by slashes. Paths are relative to the directory that a
file tree holds.
-/

namespace StyleSieve.Files

def isSlash (c : Char) : Bool := c == '/'

/-- The parts of a path as written. A slash at the end begins no further part. -/
def split (path : String) : List String :=
  let parts := (path.toList.splitOn '/').map String.ofList
  if parts.getLast? = some "" then parts.dropLast else parts

/-- A path that begins with a slash leads out of the file tree. -/
def isAbsolute (path : String) : Bool := path.startsWith "/"

/-- A path for comparison: parts that lead nowhere are dropped, but for a dot that comes first. -/
def normal (path : String) : List String :=
  let parts := (split path).filter (· != "")
  match parts with
  | [] => if isAbsolute path then ["/"] else []
  | p :: ps =>
    let rest := ps.filter (· != ".")
    if isAbsolute path then "/" :: (if p = "." then rest else p :: rest) else p :: rest

/-- The path of the directory that paths are relative to. -/
def isHere (path : String) : Bool := normal path = ["."]

/-- A path one step further. -/
def join (path name : String) : String :=
  if path.isEmpty || path.endsWith "/" then path ++ name else path ++ "/" ++ name

end StyleSieve.Files
