import Docket.Glob.Pattern
import Docket.Host.Basic

/-! Finding the files that a pattern of a path names. The pattern is followed folder by
folder; parts without wildcards are only looked up. -/
namespace Docket.Glob

/-- A pattern part by part from the folder it starts in. -/
structure PathPattern where
  start : String
  parts : List Pattern
  /-- Whether only folders are meant. -/
  folders : Bool

/-- The pieces between slashes; a slash at the end opens no further piece. -/
def pieces (path : List Char) : List (List Char) :=
  let all := Text.split '/' path
  if all.getLast? = some [] then all.dropLast else all

/-- Reads a pattern: as a whole first, then each part. -/
def PathPattern.read (pattern : String) : Except PatternError PathPattern := do
  let _ ← Glob.read pattern
  let relative := pattern.toList.dropWhile (· == '/')
  let parts ← if relative.isEmpty then pure [[]]
    else (pieces relative).mapM (readFrom none 0)
  return ⟨if Path.isAbsolute pattern then "/" else ".", parts, Text.endsWith pattern "/"⟩

variable {m : Type → Type} [Monad m] [Host m]

/-- A name in a folder; the starting folder itself is left out. -/
def below (folder name : String) : String := if folder = "." then name else Path.join folder name

/-- What the parts find in a folder, once the first part's entry is known to be meant. -/
def onward (follow : List Pattern → String → m (List String)) (rest : List Pattern)
    (path : String) : m (List String) :=
  if rest.isEmpty then return [path] else follow rest path

/-- What the parts find at an entry whose name the first of them is applied to. -/
def atName (follow : List Pattern → String → m (List String)) (parts : List Pattern)
    (path : String) : m (List String) :=
  match parts, Path.fileName? path with
  | part :: rest, some name =>
    if accepts part name.toList then onward follow rest path else return []
  | _, _ => return []

/-- What the parts find at an entry of a folder that their first part is applied to. -/
def atEntry (follow : List Pattern → String → m (List String)) (parts : List Pattern)
    (path : String) : m (List String) := do
  match parts with
  | [.deep] :: _ =>
    let rest := parts.dropWhile (· = [.deep])
    if ← Host.isFolder path then
      let inside ← follow ([.deep] :: rest) path
      let here := if rest.isEmpty then pure [path] else atName follow rest path
      return inside ++ (← here)
    else atName follow rest path
  | _ => atName follow parts path

/-- What the parts find from a folder on, going down at most the given number of levels. -/
def follow : Nat → List Pattern → String → m (List String)
  | 0, _, _ => return []
  | _, [], _ => return []
  | depth + 1, part :: rest, folder => do
    match literal? part with
    | some cs =>
      let name := String.ofList cs
      let path := below folder name
      let special := name = "." || name = ".."
      let there ← if special then Host.isFolder folder else Host.isThere path
      if there then onward (follow depth) rest path else return []
    | none =>
      if ← Host.isFolder folder then
        let names := ((← Host.names folder).toOption).getD []
        let found ← names.mapM fun name => atEntry (follow depth) (part :: rest) (below folder name)
        let special := [".", ".."].filter fun s =>
          part.head? = some (.char '.') && accepts part s.toList
        let more ← special.mapM fun s => onward (follow depth) rest (Path.join folder s)
        return found.flatten ++ more.flatten
      else return []

/-- No path has more parts than half of its greatest length. -/
def deepest : Nat := 2048

/-- The paths that a pattern names. -/
def find (p : PathPattern) : m (List String) := do
  let paths ← follow (deepest + p.parts.length) p.parts p.start
  if p.folders then paths.filterM fun path => Host.isFolder path else return paths

end Docket.Glob
