import FleetDeploy.Local.Path

/-!
# Content types by content

Where the extension of a file tells nothing, the first 512 bytes do.  The rules
are tried in order: byte order marks; the first tag of a page or the declaration
of a document, with white space before it; the signatures of binary formats; and
at last whether some byte occurs in no text.
-/

namespace FleetDeploy.Content

/-- The number of bytes that are looked at. -/
def windowLength : Nat :=
  512

/-- The type of bytes of no known format. -/
def octetStream : String :=
  "application/octet-stream"

/-- The type of plain text. -/
def plainText : String :=
  "text/plain; charset=utf-8"

/-- The type of a page. -/
def html : String :=
  "text/html; charset=utf-8"

/-- The type of a document in XML. -/
def xml : String :=
  "text/xml; charset=utf-8"

/-- The types that byte order marks name. -/
def byteOrderMarks : List (List UInt8 × String) :=
  [([0xFE, 0xFF], "text/plain; charset=utf-16be"),
   ([0xFF, 0xFE], "text/plain; charset=utf-16le"),
   ([0xEF, 0xBB, 0xBF], plainText)]

/-- The signatures of binary formats, each at the start of the content. -/
def signatures : List (List UInt8 × String) :=
  [(Path.ofString "%PDF-", "application/pdf"),
   (Path.ofString "%!PS-Adobe-", "application/postscript"),
   (Path.ofString "GIF87a", "image/gif"),
   (Path.ofString "GIF89a", "image/gif"),
   ([0x89, 0x50, 0x4E, 0x47, 0x0D, 0x0A, 0x1A, 0x0A], "image/png"),
   ([0xFF, 0xD8, 0xFF], "image/jpeg"),
   (Path.ofString "BM", "image/bmp"),
   ([0x00, 0x00, 0x01, 0x00], "image/x-icon"),
   (Path.ofString "wOFF", "font/woff"),
   (Path.ofString "wOF2", "font/woff2"),
   ([0x00, 0x61, 0x73, 0x6D], "application/wasm"),
   ([0x50, 0x4B, 0x03, 0x04], "application/zip"),
   ([0x1F, 0x8B, 0x08], "application/x-gzip")]

/-- The tags that begin a page, in small letters. -/
def htmlTags : List (List UInt8) :=
  ["<!doctype html", "<html", "<head", "<script", "<iframe", "<h1", "<div", "<font", "<table",
   "<a", "<style", "<title", "<b", "<body", "<br", "<p", "<!--"].map Path.ofString

/-- The white space that may stand before a tag: tab, line feed, form feed,
carriage return and space. -/
def isSpace (b : UInt8) : Bool :=
  b = 0x09 || b = 0x0A || b = 0x0C || b = 0x0D || b = 0x20

/-- The bytes that end a tag: a space or an angle bracket. -/
def endsTag (b : UInt8) : Bool :=
  b = 0x20 || b = 0x3E

/-- The type of the first entry whose bytes begin the content. -/
def match? (table : List (List UInt8 × String)) (content : List UInt8) : Option String :=
  (table.find? fun (start, _) => start.isPrefixOf content).map (·.2)

/-- An ASCII capital letter as a small one, and any other byte as it is. -/
def lower (b : UInt8) : UInt8 :=
  if 0x41 ≤ b ∧ b ≤ 0x5A then b + 0x20 else b

/-- Whether a tag in any case, and a byte that ends it, begin the content. -/
def beginsWithTag (content tag : List UInt8) : Bool :=
  (content.take tag.length).map lower = tag && (content[tag.length]?.map endsTag).getD false

/-- Whether the content begins with a tag of a page. -/
def isHtml (content : List UInt8) : Bool :=
  htmlTags.any (beginsWithTag content)

/-- Whether the content begins with the declaration of a document. -/
def isXml (content : List UInt8) : Bool :=
  (Path.ofString "<?xml").isPrefixOf content

/-- Whether the content is an image in a RIFF container: the format is named
after the length. -/
def isWebp (content : List UInt8) : Bool :=
  (Path.ofString "RIFF").isPrefixOf content &&
    (Path.ofString "WEBP").isPrefixOf (content.drop 8)

/-- Whether a byte occurs in no text. -/
def isBinary (b : UInt8) : Bool :=
  b ≤ 0x08 || b = 0x0B || (0x0E ≤ b && b ≤ 0x1A) || (0x1C ≤ b && b ≤ 0x1F)

/-- The type of a window of content. -/
def sniffWindow (window : List UInt8) : String :=
  match match? byteOrderMarks window with
  | some type => type
  | none =>
    let trimmed := window.dropWhile isSpace
    if isHtml trimmed then html
    else if isXml trimmed then xml
    else
      match match? signatures window with
      | some type => type
      | none =>
        if isWebp window then "image/webp"
        else if window.any isBinary then octetStream
        else plainText

/-- The type of content by its first bytes. -/
def sniff (content : List UInt8) : String :=
  sniffWindow (content.take windowLength)

end FleetDeploy.Content
