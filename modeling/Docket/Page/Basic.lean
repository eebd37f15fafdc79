import Docket.Layout.Word

/-! Pages of words: what a document gives page by page, and a store that keeps it. -/
namespace Docket

/-- Why a document or one of its pages cannot be read. -/
inductive PageError
  | parse (reason : String)
  | pageDecode (page : Nat) (reason : String)
  | textExtraction (reason : String)
  | encrypted
  | noPages
  | invalidPage (page : Nat)
deriving DecidableEq

def PageError.message : PageError → String
  | parse reason => s!"failed to parse PDF: {reason}"
  | pageDecode page reason => s!"failed to decode page {page}: {reason}"
  | textExtraction reason => s!"failed to extract text: {reason}"
  | encrypted => "PDF is encrypted"
  | noPages => "PDF has no pages"
  | invalidPage page => s!"invalid page number: {page}"

/-- A document by pages, counted from 1. -/
structure PageSource (α : Type) where
  count : Nat
  words : Nat → Except PageError (List (Word α))

/-- Pages that have been read, sorted by number. -/
structure PageStore (α : Type) where
  pages : List (Nat × List (Word α))
  count : Nat

namespace PageStore

variable {α : Type}

def empty : PageStore α := ⟨[], 0⟩

/-- Puts a page at its place among pages sorted by number, for an earlier one of that number. -/
def place (page : Nat) (ws : List (Word α)) :
    List (Nat × List (Word α)) → List (Nat × List (Word α))
  | [] => [(page, ws)]
  | (p, vs) :: rest =>
    if page < p then (page, ws) :: (p, vs) :: rest
    else if page = p then (page, ws) :: rest
    else (p, vs) :: place page ws rest

def insert (s : PageStore α) (page : Nat) (ws : List (Word α)) : PageStore α :=
  ⟨place page ws s.pages, max s.count page⟩

/-- The words of a page that is in the store. -/
def words? (s : PageStore α) (page : Nat) : Option (List (Word α)) := s.pages.lookup page

def wordCount (s : PageStore α) : Nat := s.pages.foldl (fun n (_, ws) => n + ws.length) 0

/-- The store as a document; a page it lacks is blank. -/
def source (s : PageStore α) : PageSource α where
  count := s.count
  words page :=
    if page = 0 ∨ s.count < page then .error (.invalidPage page)
    else .ok ((s.words? page).getD [])

/-- One page read into the store, or a warning. -/
def take (source : PageSource α) (acc : PageStore α × List String) (page : Nat) :
    PageStore α × List String :=
  match source.words page with
  | .ok ws => (acc.1.insert page ws, acc.2)
  | .error e => (acc.1, acc.2 ++ [s!"Page {page} skipped: {e.message}"])

/-- Reads every page of a document; a page that fails is left out with a warning. -/
def collect (source : PageSource α) : PageStore α × List String :=
  let (s, warnings) := (List.range' 1 source.count).foldl (take source) (empty, [])
  (⟨s.pages, max s.count source.count⟩, warnings)

end PageStore
end Docket
