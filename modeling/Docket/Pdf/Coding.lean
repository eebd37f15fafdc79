import Docket.Pdf.Object

/-! How the bytes of a shown string become characters. -/
namespace Docket.Pdf

/-- A one-byte encoding by runs: the first code and the characters from there on. Codes without a
character are not shown. -/
abbrev ByteTable := List (Nat × String)

namespace ByteTable

def char? (t : ByteTable) (code : UInt8) : Option Char :=
  t.findSome? fun (first, chars) =>
    if first ≤ code.toNat then chars.toList[code.toNat - first]? else none

def decode (t : ByteTable) (bytes : Bytes) : List Char := bytes.filterMap t.char?

/-- The standard Latin encoding of fonts. -/
def standard : ByteTable :=
  [(0x20, " !\"#$%&’()*+,-./0123456789:;<=>?@ABCDEFGHIJKLMNOPQRSTUVWXYZ["),
    (0x5C, "\\]^_‘abcdefghijklmnopqrstuvwxyz\x7b|\x7d~"), (0xA1, "¡¢£⁄¥ƒ§¤'“«‹›\ufb01\ufb02"),
    (0xB1, "–†‡·"), (0xB6, "¶•‚„”»…‰"), (0xBF, "¿"), (0xC1, "`´ˆ˜¯˘˙¨"), (0xCA, "˚¸"),
    (0xCD, "˝˛ˇ—"), (0xE1, "Æ"), (0xE3, "ª"), (0xE8, "ŁØŒº"), (0xF1, "æ"), (0xF5, "ı"),
    (0xF8, "łøœß")]

/-- The Latin encoding of the Macintosh. -/
def macRoman : ByteTable :=
  [(0x20, " !\"#$%&'()*+,-./0123456789:;<=>?@ABCDEFGHIJKLMNOPQRSTUVWXYZ["),
    (0x5C, "\\]^_`abcdefghijklmnopqrstuvwxyz\x7b|\x7d~"),
    (0x80, "ÄÅÇÉÑÖÜáàâäãåçéèêëíìîïñóòôöõúùûü†°¢£§•¶ß®©™´¨"), (0xAE, "ÆØ"), (0xB1, "±"),
    (0xB4, "¥µ"), (0xBB, "ªº"), (0xBE, "æø¿¡¬"), (0xC4, "ƒ"), (0xC7, "«»… ÀÃÕŒœ–—“”‘’÷"),
    (0xD8, "ÿŸ⁄¤‹›\ufb01\ufb02‡·‚„‰ÂÊÁËÈÍÎÏÌÓÔ"), (0xF1, "ÒÚÛÙıˆ˜¯˘˙˚¸˝˛ˇ")]

/-- The Latin encoding of Windows; codes it leaves free show a bullet. -/
def winAnsi : ByteTable :=
  [(0x20, " !\"#$%&'()*+,-./0123456789:;<=>?@ABCDEFGHIJKLMNOPQRSTUVWXYZ["),
    (0x5C, "\\]^_`abcdefghijklmnopqrstuvwxyz\x7b|\x7d~•€•‚ƒ„…†‡ˆ‰Š‹Œ•Ž••‘’“”•–—"),
    (0x98, "˜™š›œ•žŸ ¡¢£¤¥¦§¨©ª«¬-®¯°±²³´µ¶·¸¹º»¼½¾¿ÀÁÂÃÄÅÆÇÈÉÊËÌÍÎÏÐÑÒÓ"),
    (0xD4, "ÔÕÖ×ØÙÚÛÜÝÞßàáâãäåæçèéêëìíîïðñòóôõö÷øùúûüýþÿ")]

/-- The encoding of text outside of fonts. -/
def pdfDoc : ByteTable :=
  [(0x09, "\t\n"), (0x0D, "\r"),
    (0x18, "˘ˇˆ˙˝˛˚˜ !\"#$%&'()*+,-./0123456789:;<=>?@ABCDEFGHIJKLMNOPQRS"),
    (0x54, "TUVWXYZ[\\]^_`abcdefghijklmnopqrstuvwxyz\x7b|\x7d~"),
    (0x80, "•†‡…—–ƒ⁄‹›−‰„“”‘’‚™\ufb01\ufb02ŁŒŠŸŽıłœšž"), (0xA0, "€¡¢£¤¥¦§¨©ª«¬"),
    (0xAE, "®¯°±²³´µ¶·¸¹º»¼½¾¿ÀÁÂÃÄÅÆÇÈÉÊËÌÍÎÏÐÑÒÓÔÕÖ×ØÙÚÛÜÝÞßàáâãäåæçèé"),
    (0xEA, "êëìíîïðñòóôõö÷øùúûüýþÿ")]

/-- Small capitals, old style digits, superiors and inferiors of expert fonts. -/
def macExpert : ByteTable :=
  [(0x20, " \uf721\uf6f8\uf7a2\uf724\uf6e4\uf726\uf7b4⁽⁾‥․"),
    (0x2C, ",-.⁄\uf730\uf731\uf732\uf733\uf734\uf735\uf736\uf737"), (0x38, "\uf738\uf739:;"),
    (0x3D, "\uf6de"), (0x3F, "\uf73f"), (0x44, "\uf7f0"), (0x47, "¼½¾⅛⅜⅝⅞⅓⅔"),
    (0x56, "\ufb00\ufb01\ufb02\ufb03\ufb04₍"),
    (0x5D, "₎\uf6f6\uf6e5\uf760\uf761\uf762\uf763\uf764\uf765\uf766\uf767\uf768"),
    (0x69, "\uf769\uf76a\uf76b\uf76c\uf76d\uf76e\uf76f\uf770\uf771\uf772\uf773\uf774"),
    (0x75, "\uf775\uf776\uf777\uf778\uf779\uf77a₡\uf6dc\uf6dd\uf6fe"), (0x81, "\uf6e9\uf6e0"),
    (0x87, "\uf7e1\uf7e0\uf7e2\uf7e4\uf7e3\uf7e5\uf7e7\uf7e9\uf7e8\uf7ea\uf7eb\uf7ed"),
    (0x93, "\uf7ec\uf7ee\uf7ef\uf7f1\uf7f3\uf7f2\uf7f4\uf7f6\uf7f5\uf7fa\uf7f9\uf7fb"),
    (0x9F, "\uf7fc"), (0xA1, "⁸₄₃₆₈₇\uf6fd"), (0xA9, "\uf6df₂"), (0xAC, "\uf7a8"),
    (0xAE, "\uf6f5\uf6f0₅"), (0xB2, "\uf6e1\uf6e7\uf7fd"), (0xB6, "\uf6e3"), (0xB9, "\uf7fe"),
    (0xBB, "₉₀\uf6ff\uf7e6\uf7f8\uf7bf₁\uf6f9"), (0xC9, "\uf7b8"), (0xCF, "\uf6fa‒\uf6e6"),
    (0xD6, "\uf7a1"), (0xD8, "\uf7ff"), (0xDA, "¹²³⁴⁵⁶⁷⁹⁰"), (0xE4, "\uf6ec\uf6f1\uf6f3"),
    (0xE9, "\uf6ed\uf6f2\uf6eb"),
    (0xF1, "\uf6ee\uf6fb\uf6f4\uf7af\uf6eaⁿ\uf6ef\uf6e2\uf6e8\uf6f7\uf6fc")]

end ByteTable

/-- The character that stands for units that are none. -/
def replacement : Char := '\ufffd'

/-- Units of 16 bits as characters: pairs of surrogates are joined, single ones replaced. -/
def ofUnits : List Nat → List Char
  | [] => []
  | [u] => [if 0xD800 ≤ u ∧ u < 0xE000 then replacement else Char.ofNat u]
  | u :: v :: rest =>
    if 0xD800 ≤ u ∧ u < 0xDC00 ∧ 0xDC00 ≤ v ∧ v < 0xE000 then
      Char.ofNat (0x10000 + (u - 0xD800) * 0x400 + (v - 0xDC00)) :: ofUnits rest
    else (if 0xD800 ≤ u ∧ u < 0xE000 then replacement else Char.ofNat u) :: ofUnits (v :: rest)

/-- Pairs of bytes as units, the high byte first. -/
def unitsOf : Bytes → List Nat
  | a :: b :: rest => (a.toNat * 256 + b.toNat) :: unitsOf rest
  | _ => []

/-- Text in units of two bytes with either byte first; a byte left over is replaced. -/
def decodePairs (swap : Bool) (bytes : Bytes) : List Char :=
  let units := (unitsOf bytes).map fun u => if swap then u % 256 * 256 + u / 256 else u
  ofUnits units ++ if bytes.length % 2 = 1 then [replacement] else []

/-- Text in units of two bytes; a mark in front may say that the low byte comes first. -/
def decodeWide : Bytes → List Char
  | 0xFE :: 0xFF :: rest => decodePairs false rest
  | 0xFF :: 0xFE :: rest => decodePairs true rest
  | bytes => decodePairs false bytes

/-- Text of a font that names no encoding: units of two bytes behind their mark, else one byte a
character. -/
def decodeRaw : Bytes → List Char
  | 0xFE :: 0xFF :: rest => ofUnits (unitsOf rest)
  | bytes => bytes.map fun b => Char.ofNat b.toNat

/-- Codes of one to four bytes with the units they stand for. -/
structure UnicodeMap where
  entries : List (Bytes × List Nat)

namespace UnicodeMap

def get? (m : UnicodeMap) (code : Bytes) : Option (List Nat) := m.entries.lookup code

def replaced : List Nat := [replacement.toNat]

/-- Units of a string: a code ends as soon as the map has it, at the latest after four bytes; what
the map lacks is replaced. `code` holds the bytes of the code under way. -/
def units (m : UnicodeMap) (code : Bytes) : Bytes → List Nat
  | [] => if code.isEmpty then [] else replaced
  | b :: rest =>
    let (done, code) := if code.length = 4 then (replaced, [b]) else ([], code ++ [b])
    match m.get? code with
    | some us => done ++ us ++ units m [] rest
    | none => done ++ units m code rest

def decode (m : UnicodeMap) (bytes : Bytes) : List Char := ofUnits (m.units [] bytes)

end UnicodeMap

/-- A way to read strings. -/
inductive Coding
  | table (t : ByteTable)
  | wide
  | map (m : UnicodeMap)
  | raw

def Coding.decode : Coding → Bytes → List Char
  | table t => t.decode
  | wide => decodeWide
  | map m => m.decode
  | raw => decodeRaw

end Docket.Pdf
