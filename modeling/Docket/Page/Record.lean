import Docket.Layout.Record
import Docket.Page.Basic

/-! Records of page stores: an object whose keys are page numbers. -/
namespace Docket
open Json

/-- The page number that a key writes. The key is a text of its own, and faults are placed in it. -/
def PageStore.readKey (key : String) : Except Fault Nat :=
  let refused : Except Fault Nat :=
    .error ⟨.refused "invalid value: expected key to be a number in quotes", none⟩
  match key.toList with
  | [] => refused
  | c :: _ =>
    if c = '-' ∨ c.isDigit then
      match Decoder.natural32.scan 0 (.ofText key) with
      | .error stop => .error stop.fault
      | .ok (n, behind) => if behind.rest.isEmpty then .ok n else refused
    else refused

/-- Pages by number. -/
def PageStore.pagesDecoder : Decoder (List (Nat × List (Word Float))) :=
  .entries readKey Word.listDecoder

def PageStore.decoder : Decoder (PageStore Float) :=
  RecordReader.decoder "PageWords" <|
    (fun pages count => ⟨pages.foldl (fun s (page, ws) => place page ws s) [], count⟩) <$>
      .required "pages" pagesDecoder <*> .required "page_count" .natural32

def PageStore.toJson (s : PageStore Float) : Value :=
  .object [("pages", .object (s.pages.map fun (page, ws) =>
      (toString page, .array (ws.map Word.toJson)))),
    ("page_count", .natural s.count)]

end Docket
