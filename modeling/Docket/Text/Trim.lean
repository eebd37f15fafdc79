import Docket.Text.Class

/-! Trimming, cutting and counting of text, on lists of characters. -/
namespace Docket.Text

def trimStart (cs : List Char) : List Char := cs.dropWhile isBlank

def trimEnd (cs : List Char) : List Char := (cs.reverse.dropWhile isBlank).reverse

def trimChars (cs : List Char) : List Char := trimEnd (trimStart cs)

def trim (s : String) : String := String.ofList (trimChars s.toList)

/-- Whether nothing but white space is in the text. -/
def isBlankText (s : String) : Bool := s.toList.all isBlank

/-- The two sides of the first occurrence of `c`. -/
def cutFirst? (c : Char) : List Char → Option (List Char × List Char)
  | [] => none
  | d :: rest =>
    if d = c then some ([], rest)
    else (cutFirst? c rest).map fun (a, b) => (d :: a, b)

/-- The two sides of the last occurrence of `c`. -/
def cutLast? (c : Char) (cs : List Char) : Option (List Char × List Char) :=
  (cutFirst? c cs.reverse).map fun (a, b) => (b.reverse, a.reverse)

/-- The maximal runs of characters that fail `sep`. -/
def runs (sep : Char → Bool) (cs : List Char) : List (List Char) :=
  let (run, done) := cs.foldr (fun c (run, done) =>
    if sep c then ([], if run.isEmpty then done else run :: done) else (c :: run, done))
    ([], [])
  if run.isEmpty then done else run :: done

/-- Words between white space. -/
def words (s : String) : List String := (runs isBlank s.toList).map String.ofList

/-- Whether `needle` occurs in `cs` as a contiguous part. -/
def hasPart (needle : List Char) : List Char → Bool
  | [] => needle.isEmpty
  | c :: rest => needle.isPrefixOf (c :: rest) || hasPart needle rest

def contains (text needle : String) : Bool := hasPart needle.toList text.toList

def startsWith (text start : String) : Bool := start.toList.isPrefixOf text.toList

def endsWith (text tail : String) : Bool := tail.toList.isSuffixOf text.toList

/-- Texts joined by a separator. -/
def joined (sep : String) (parts : List String) : String := String.intercalate sep parts

/-- Pieces between separators; there is always one more piece than separators. -/
def split (sep : Char) (cs : List Char) : List (List Char) :=
  match cs with
  | [] => [[]]
  | c :: rest =>
    let pieces := split sep rest
    if c = sep then [] :: pieces
    else match pieces with
      | p :: ps => (c :: p) :: ps
      | [] => [[c]]

end Docket.Text
