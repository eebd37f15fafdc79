import Docket.Text.Trim

/-! Paths of files: their parts, their names and their order. -/
namespace Docket.Path

/-- A part of a path. The folder itself counts only at the very start. -/
inductive Part
  | root | here | up
  | name (s : String)
deriving DecidableEq

namespace Part

def rank : Part → Nat
  | root => 0
  | here => 1
  | up => 2
  | name _ => 3

def text : Part → String
  | root => "/"
  | here => "."
  | up => ".."
  | name s => s

def name? : Part → Option String
  | name s => some s
  | _ => none

end Part

/-- The pieces between the slashes. -/
def pieces (path : String) : List String := (Text.split '/' path.toList).map String.ofList

def isAbsolute (path : String) : Bool := path.toList.head? == some '/'

def part? (piece : String) : Option Part :=
  if piece = "" ∨ piece = "." then none
  else if piece = ".." then some .up
  else some (.name piece)

def parts (path : String) : List Part :=
  let first := if isAbsolute path then [Part.root]
    else if (pieces path).head? = some "." then [Part.here]
    else []
  first ++ (pieces path).filterMap part?

/-- The path that has the given parts. -/
def ofParts : List Part → String
  | .root :: rest => "/" ++ Text.joined "/" (rest.map Part.text)
  | ps => Text.joined "/" (ps.map Part.text)

/-- The last part if it is a name. -/
def fileName? (path : String) : Option String := ((parts path).getLast?).bind Part.name?

/-- A file name up to its last point; a point at the start counts as part of it. -/
def stemOf (name : String) : String :=
  match Text.cutLast? '.' name.toList with
  | some (before, _) => if before.isEmpty then name else String.ofList before
  | none => name

def stem? (path : String) : Option String := (fileName? path).map stemOf

/-- A path seen from a base; an absolute one stays as it is. -/
def join (base path : String) : String :=
  if isAbsolute path || base.isEmpty then path
  else if base.toList.getLast? = some '/' then base ++ path
  else base ++ "/" ++ path

/-- The parts without the last; the root and the empty path have no parent. -/
def parent? (path : String) : Option String :=
  match (parts path).getLast? with
  | none | some .root => none
  | some _ => some (ofParts (parts path).dropLast)

/-- Whether a path sorts before another or beside it: part by part, names by their characters. -/
def partsLE : List Part → List Part → Bool
  | [], _ => true
  | _ :: _, [] => false
  | p :: ps, q :: qs =>
    if p = q then partsLE ps qs
    else if p.rank = q.rank then p.text < q.text
    else p.rank < q.rank

def le (a b : String) : Bool := partsLE (parts a) (parts b)

end Docket.Path
