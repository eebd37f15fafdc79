import Docket.Host.FileTree

/-! A machine as a value: a tree of files, a clock that stands still during an operation, and
a count of the unique texts given out. -/
namespace Docket

structure Machine where
  tree : FileTree
  /-- The folder that paths start from. -/
  home : Location
  clock : Time
  processId : Nat
  drawn : Nat

namespace Machine

/-- Asks the tree without changing it. -/
def ask {β : Type} (f : FileTree → Location → Except DiskError β) :
    StateM Machine (Except DiskError β) := do
  let m ← get
  return f m.tree m.home

/-- Changes the tree if the operation succeeds. -/
def change {β : Type} (f : Machine → Except DiskError (β × FileTree)) :
    StateM Machine (Except DiskError β) := fun m =>
  match f m with
  | .ok (b, tree) => (.ok b, { m with tree })
  | .error e => (.error e, m)

def alter (f : Machine → Except DiskError FileTree) : StateM Machine (Except DiskError Unit) :=
  change fun m => (f m).map fun tree => ((), tree)

/-- The text of a file that holds text. -/
def textOf : Content → Except DiskError String
  | .text s => .ok s
  | .document _ => .error .notText

/-- The document of a file. -/
def documentOf : Content → Except PageError (Pdf.Document Float)
  | .text s => Pdf.File.openBytes s.toUTF8.toList
  | .document d => d

/-- Groups of hexadecimal digits that end with a count. -/
def serial (n : Nat) : String :=
  let ds := Nat.toDigits 16 n
  "00000000-0000-4000-8000-" ++ String.ofList (List.replicate (12 - ds.length) '0' ++ ds)

instance : Host (StateM Machine) where
  Handle := Nat
  kind? path := do return ((← ask (·.find · path)).toOption).map fun (_, e) => e.kind
  modified? path := do return ((← ask (·.find · path)).toOption).map fun (_, e) => e.modified
  readText path := do
    return (← ask (·.file · path)).bind fun (_, _, content) => textOf content
  readDocument path := do
    return (← ask (·.file · path)).map fun (_, _, content) => documentOf content
  writeText path text := alter fun m => m.tree.write m.home path (.text text) m.clock
  create path := change fun m => m.tree.create m.home path m.clock
  append file text := alter fun m => .ok (m.tree.append file text m.clock)
  remove path := alter fun m => m.tree.remove m.home path
  touch path := alter fun m => m.tree.stamp m.home path m.clock
  makeFolder path := alter fun m => m.tree.makeFolder m.home path m.clock
  names path := ask (·.names · path)
  now := do return (← get).clock
  processId := do return (← get).processId
  uniqueText := modifyGet fun m => (serial m.drawn, { m with drawn := m.drawn + 1 })

end Machine
end Docket
