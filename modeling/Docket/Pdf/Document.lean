import Docket.Extraction.Result
import Docket.Page.Basic
import Docket.Pdf.PageText

/-! Pages of a document: their order, their boxes, fonts and contents, and the words on
them. -/
namespace Docket.Pdf

/-- Edges of a page. -/
structure PageBox (α : Type) where
  left : α
  bottom : α
  right : α
  top : α
deriving DecidableEq

namespace PageBox

variable {α : Type} [Scalar α]

/-- A4 in points. -/
def standard : PageBox α := ⟨0, 0, Scalar.ofNat 595, Scalar.ofNat 842⟩

/-- The box between two corners. -/
def ofCorners (x1 y1 x2 y2 : α) : PageBox α :=
  ⟨Scalar.min x1 x2, Scalar.min y1 y2, Scalar.max x1 x2, Scalar.max y1 y2⟩

/-- A box needs four numbers; what is no number does not count. -/
def ofObjects? (items : List (Object α)) : Option (PageBox α) :=
  match items.filterMap Object.number? with
  | [x1, y1, x2, y2] => some (ofCorners x1 y1 x2 y2)
  | _ => none

end PageBox

namespace Document

variable {α : Type}

/-- The parent that an entry refers to. -/
def parent? (entries : Dictionary α) : Option Nat :=
  (entries.lookup "Parent").bind Object.reference?

/-- The dictionaries from a node upwards, at most `n`. -/
def ancestors (doc : Document α) : Nat → Nat → List (Dictionary α)
  | 0, _ => []
  | n + 1, id =>
    match doc.dictionary? id with
    | none => []
    | some entries =>
      entries :: match parent? entries with
        | some up => doc.ancestors n up
        | none => []

/-- How many dictionaries are searched for a page box. -/
def boxDepth : Nat := 33

/-- The references to resources from a node upwards. A chain that turns back or ends at nothing
gives none at all. -/
def resourceIds? (doc : Document α) : Nat → List Nat → Dictionary α → Option (List Nat)
  | 0, _, _ => none
  | n + 1, seen, entries =>
    let own := ((entries.lookup "Resources").bind Object.reference?).toList
    match parent? entries with
    | none => some own
    | some up =>
      if seen.contains up then none
      else
        match doc.dictionary? up with
        | none => none
        | some above => (doc.resourceIds? n (up :: seen) above).map (own ++ ·)

/-- The fonts that resources name, as dictionaries. -/
def fontsIn (doc : Document α) (resources : Dictionary α) : List (String × Dictionary α) :=
  match ((resources.lookup "Font").bind doc.resolve).bind Object.dictionary? with
  | some fonts =>
    fonts.filterMap fun (name, o) =>
      ((doc.resolve o).bind Object.dictionary?).map fun entries => (name, entries)
  | none => []

/-- The fonts of a page by name, the nearest first. -/
def fonts (doc : Document α) (page : Nat) : List (String × Dictionary α) :=
  match doc.dictionary? page with
  | none => []
  | some entries =>
    match doc.resourceIds? (doc.objects.length + 1) [] entries with
    | none => []
    | some ids =>
      let own := ((entries.lookup "Resources").bind Object.dictionary?).toList
      (own ++ ids.filterMap doc.dictionary?).flatMap doc.fontsIn

/-- The streams that a page's contents refer to. -/
def contentIds (doc : Document α) : Nat → Object α → List Nat
  | 0, _ => []
  | n + 1, .reference id =>
    match doc.objects.lookup id with
    | none => [id]
    | some (.stream ..) => [id]
    | some o => doc.contentIds n o
  | _ + 1, .array items => items.filterMap Object.reference?
  | _ + 1, _ => []

/-- The content of a page: its streams one behind the other. -/
def content (doc : Document α) (page : Nat) : Bytes :=
  match (doc.dictionary? page).bind (·.lookup "Contents") with
  | none => []
  | some o =>
    (doc.contentIds referenceLimit o).flatMap fun id =>
      match doc.object? id with
      | some (.stream _ data) => data
      | _ => []

/-- The pages below some nodes of the page tree, in order. -/
def pagesBelow (doc : Document α) : Nat → List (Object α) → List Nat
  | 0, _ => []
  | _ + 1, [] => []
  | n + 1, kid :: rest =>
    let here := match kid.reference? with
      | none => []
      | some id =>
        match doc.dictionary? id with
        | none => []
        | some entries =>
          match (entries.lookup "Type").bind Object.name? with
          | some "Page" => [id]
          | some "Pages" =>
            doc.pagesBelow n (((entries.lookup "Kids").bind Object.array?).getD [])
          | _ => []
    here ++ doc.pagesBelow n rest

/-- The pages of the document in order. -/
def pages (doc : Document α) : List Nat :=
  let root := ((doc.trailer.lookup "Root").bind Object.reference?).bind doc.dictionary?
  let tree := ((root.bind (·.lookup "Pages")).bind Object.reference?).bind doc.dictionary?
  let kids := ((tree.bind (·.lookup "Kids")).bind Object.array?).getD []
  doc.pagesBelow (2 * doc.objects.length + 2) kids

def isEncrypted (doc : Document α) : Bool := (doc.trailer.lookup "Encrypt").isSome

def hasImages (doc : Document α) : Bool :=
  doc.objects.any fun (_, o) =>
    match o with
    | .stream entries _ => (entries.lookup "Subtype").bind Object.name? == some "Image"
    | _ => false

variable [Scalar α]

/-- The box of a page: the nearest one that can be read, else A4. -/
def pageBox (doc : Document α) (page : Nat) : PageBox α :=
  let box? (entries : Dictionary α) : Option (PageBox α) :=
    (((entries.lookup "MediaBox").bind doc.resolve).bind Object.array?).bind PageBox.ofObjects?
  ((doc.ancestors boxDepth page).findSome? box?).getD .standard

/-- How the strings of a page are read. -/
def glyphReader (doc : Document α) (page : Nat) : Drawing.GlyphReader α :=
  let fonts := (doc.fonts page).map fun (name, entries) => (name, Font.ofDictionary doc entries)
  fun name bytes => ((fonts.lookup name).getD .unknown).glyphs bytes

end Document

/-- Reads the words of a page. -/
def Document.pageWords (doc : Document Float) (number page : Nat) :
    Except PageError (List (Word Float)) :=
  match Operation.readAll? (doc.content page) with
  | none => .error (.pageDecode number "couldn't parse input: invalid content stream")
  | some ops =>
    let box := doc.pageBox page
    .ok (Drawing.words (doc.glyphReader page) box.left box.top ops)

/-- The document page by page. -/
def Document.source (doc : Document Float) : PageSource Float :=
  let pages := doc.pages
  { count := pages.length
    words := fun number =>
      match number with
      | 0 => .error (.invalidPage 0)
      | n + 1 =>
        match pages[n]? with
        | some page => doc.pageWords (n + 1) page
        | none => .error (.invalidPage (n + 1)) }

/-- Accepts a document that is not encrypted and has pages. -/
def Document.checked (doc : Document Float) : Except PageError (Document Float) :=
  if doc.isEncrypted then .error .encrypted
  else if doc.pages.isEmpty then .error .noPages
  else .ok doc

/-- Whether a page shows any character that is not white space. -/
def Document.showsText (doc : Document Float) : Bool :=
  let source := doc.source
  (List.range' 1 source.count).any fun n =>
    match source.words n with
    | .ok ws => ws.any fun w => !Text.isBlankText w.text
    | .error _ => false

def Document.kind (doc : Document Float) : DocumentKind :=
  if doc.showsText then .text else if doc.hasImages then .scanned else .empty

end Docket.Pdf

/-- Extracts the fields of a template from a document. -/
def Docket.Extraction.ofDocument (gather : Docket.RegionRule Float)
    (rule : Docket.CalibrationRule Float) (t : Docket.Template Float)
    (doc : Docket.Pdf.Document Float) : Docket.Extraction Float :=
  (ofPages gather rule t doc.source).withKind doc.kind
