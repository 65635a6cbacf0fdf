import Scriptlet.Text.Case

/-!
# ContentType: what a file is served as

The ending of a file's name decides; where it says nothing, the contents do: they may begin with a
tag of markup or with a signature, and otherwise they are text if they hold no byte that text does
not have.
-/

namespace Scriptlet
namespace ContentType

/-- The types that endings stand for, in any letter case. -/
def byEnding : List (Bytes × Bytes) := [
  (utf8 ".ai", utf8 "application/postscript"),
  (utf8 ".apk", utf8 "application/vnd.android.package-archive"),
  (utf8 ".apng", utf8 "image/apng"),
  (utf8 ".avif", utf8 "image/avif"),
  (utf8 ".bin", utf8 "application/octet-stream"),
  (utf8 ".bmp", utf8 "image/bmp"),
  (utf8 ".com", utf8 "application/octet-stream"),
  (utf8 ".css", utf8 "text/css; charset=utf-8"),
  (utf8 ".csv", utf8 "text/csv; charset=utf-8"),
  (utf8 ".doc", utf8 "application/msword"),
  (utf8 ".docx", utf8 "application/vnd.openxmlformats-officedocument.wordprocessingml.document"),
  (utf8 ".ehtml", utf8 "text/html; charset=utf-8"),
  (utf8 ".eml", utf8 "message/rfc822"),
  (utf8 ".eps", utf8 "application/postscript"),
  (utf8 ".exe", utf8 "application/octet-stream"),
  (utf8 ".flac", utf8 "audio/flac"),
  (utf8 ".gif", utf8 "image/gif"),
  (utf8 ".gz", utf8 "application/gzip"),
  (utf8 ".htm", utf8 "text/html; charset=utf-8"),
  (utf8 ".html", utf8 "text/html; charset=utf-8"),
  (utf8 ".ico", utf8 "image/vnd.microsoft.icon"),
  (utf8 ".ics", utf8 "text/calendar; charset=utf-8"),
  (utf8 ".jfif", utf8 "image/jpeg"),
  (utf8 ".jpeg", utf8 "image/jpeg"),
  (utf8 ".jpg", utf8 "image/jpeg"),
  (utf8 ".js", utf8 "text/javascript; charset=utf-8"),
  (utf8 ".json", utf8 "application/json"),
  (utf8 ".m4a", utf8 "audio/mp4"),
  (utf8 ".mjs", utf8 "text/javascript; charset=utf-8"),
  (utf8 ".mp3", utf8 "audio/mpeg"),
  (utf8 ".mp4", utf8 "video/mp4"),
  (utf8 ".oga", utf8 "audio/ogg"),
  (utf8 ".ogg", utf8 "audio/ogg"),
  (utf8 ".ogv", utf8 "video/ogg"),
  (utf8 ".opus", utf8 "audio/ogg"),
  (utf8 ".pdf", utf8 "application/pdf"),
  (utf8 ".pjp", utf8 "image/jpeg"),
  (utf8 ".pjpeg", utf8 "image/jpeg"),
  (utf8 ".png", utf8 "image/png"),
  (utf8 ".ppt", utf8 "application/vnd.ms-powerpoint"),
  (utf8 ".pptx", utf8 "application/vnd.openxmlformats-officedocument.presentationml.presentation"),
  (utf8 ".ps", utf8 "application/postscript"),
  (utf8 ".rdf", utf8 "application/rdf+xml"),
  (utf8 ".rtf", utf8 "application/rtf"),
  (utf8 ".shtml", utf8 "text/html; charset=utf-8"),
  (utf8 ".svg", utf8 "image/svg+xml"),
  (utf8 ".text", utf8 "text/plain; charset=utf-8"),
  (utf8 ".tif", utf8 "image/tiff"),
  (utf8 ".tiff", utf8 "image/tiff"),
  (utf8 ".txt", utf8 "text/plain; charset=utf-8"),
  (utf8 ".vtt", utf8 "text/vtt; charset=utf-8"),
  (utf8 ".wasm", utf8 "application/wasm"),
  (utf8 ".wav", utf8 "audio/wav"),
  (utf8 ".webm", utf8 "audio/webm"),
  (utf8 ".webp", utf8 "image/webp"),
  (utf8 ".xbl", utf8 "text/xml; charset=utf-8"),
  (utf8 ".xbm", utf8 "image/x-xbitmap"),
  (utf8 ".xht", utf8 "application/xhtml+xml"),
  (utf8 ".xhtml", utf8 "application/xhtml+xml"),
  (utf8 ".xls", utf8 "application/vnd.ms-excel"),
  (utf8 ".xlsx", utf8 "application/vnd.openxmlformats-officedocument.spreadsheetml.sheet"),
  (utf8 ".xml", utf8 "text/xml; charset=utf-8"),
  (utf8 ".xsl", utf8 "text/xml; charset=utf-8"),
  (utf8 ".zip", utf8 "application/zip")]

/-- Plain text. -/
def plainText : Bytes := utf8 "text/plain; charset=utf-8"

/-- Markup for browsers. -/
def markup : Bytes := utf8 "text/html; charset=utf-8"

/-- Anything. -/
def binary : Bytes := utf8 "application/octet-stream"

/-- The ending of a name: its last dot and what follows, within its last part. -/
def ending (name : Bytes) : Bytes :=
  let last := (name.reverse.takeWhile (· != byte '/')).reverse
  if last.contains (byte '.') then
    byte '.' :: (last.reverse.takeWhile (· != byte '.')).reverse
  else []

/-- How many bytes of a file are looked at. -/
def sniffed : Nat := 512

/-- The blanks that may stand before markup. -/
def isLeadingBlank (b : UInt8) : Bool := b == 9 || b == 10 || b == 12 || b == 13 || b == 32

/-- The tags that markup may begin with, in upper case. -/
def openingTags : List Bytes :=
  [utf8 "<!DOCTYPE HTML", utf8 "<HTML", utf8 "<HEAD", utf8 "<SCRIPT", utf8 "<IFRAME", utf8 "<H1",
    utf8 "<DIV", utf8 "<FONT", utf8 "<TABLE", utf8 "<A", utf8 "<STYLE", utf8 "<TITLE", utf8 "<B",
    utf8 "<BODY", utf8 "<BR", utf8 "<P", utf8 "<!--"]

/-- Whether a text begins with a tag, in any letter case, and the tag ends there. -/
def beginsWithTag (s tag : Bytes) : Bool :=
  let front := Bytes.lower (s.take tag.length)
  let next := s[tag.length]?
  front = Bytes.lower tag && (next == some (byte ' ') || next == some (byte '>'))

/-! ## Signatures -/

/-- A beginning: bytes that must be there, and places for any byte. -/
abbrev Signature := List (Option UInt8)

namespace Signature

/-- These bytes. -/
def exactly (s : Bytes) : Signature := s.map some

/-- So many bytes, whatever they are. -/
def anything (n : Nat) : Signature := List.replicate n none

/-- Whether contents begin this way. -/
def begins : Signature → Bytes → Bool
  | [], _ => true
  | _ :: _, [] => false
  | expected :: more, b :: rest => (expected.all (· == b)) && begins more rest

end Signature

open Signature in
/-- Beginnings of texts, images and sounds that give their type away, in the order in which they are
tried. -/
def signatures : List (Signature × Bytes) := [
  (exactly (utf8 "%PDF-"), utf8 "application/pdf"),
  (exactly (utf8 "%!PS-Adobe-"), utf8 "application/postscript"),
  (exactly [0xFE, 0xFF] ++ anything 2, utf8 "text/plain; charset=utf-16be"),
  (exactly [0xFF, 0xFE] ++ anything 2, utf8 "text/plain; charset=utf-16le"),
  (exactly [0xEF, 0xBB, 0xBF] ++ anything 1, utf8 "text/plain; charset=utf-8"),
  (exactly [0, 0, 1, 0], utf8 "image/x-icon"),
  (exactly [0, 0, 2, 0], utf8 "image/x-icon"),
  (exactly (utf8 "BM"), utf8 "image/bmp"),
  (exactly (utf8 "GIF87a"), utf8 "image/gif"),
  (exactly (utf8 "GIF89a"), utf8 "image/gif"),
  (exactly (utf8 "RIFF") ++ anything 4 ++ exactly (utf8 "WEBPVP"), utf8 "image/webp"),
  (exactly [0x89, 0x50, 0x4E, 0x47, 0x0D, 0x0A, 0x1A, 0x0A], utf8 "image/png"),
  (exactly [0xFF, 0xD8, 0xFF], utf8 "image/jpeg"),
  (exactly (utf8 "FORM") ++ anything 4 ++ exactly (utf8 "AIFF"), utf8 "audio/aiff"),
  (exactly (utf8 "ID3"), utf8 "audio/mpeg"),
  (exactly (utf8 "OggS\x00"), utf8 "application/ogg"),
  (exactly (utf8 "MThd\x00\x00\x00\x06"), utf8 "audio/midi"),
  (exactly (utf8 "RIFF") ++ anything 4 ++ exactly (utf8 "AVI "), utf8 "video/avi"),
  (exactly (utf8 "RIFF") ++ anything 4 ++ exactly (utf8 "WAVE"), utf8 "audio/wave")]

open Signature in
/-- Beginnings of films, fonts and archives, which are tried after those of boxed films. -/
def laterSignatures : List (Signature × Bytes) := [
  (exactly [0x1A, 0x45, 0xDF, 0xA3], utf8 "video/webm"),
  (anything 34 ++ exactly (utf8 "LP"), utf8 "application/vnd.ms-fontobject"),
  (exactly [0, 1, 0, 0], utf8 "font/ttf"),
  (exactly (utf8 "OTTO"), utf8 "font/otf"),
  (exactly (utf8 "ttcf"), utf8 "font/collection"),
  (exactly (utf8 "wOFF"), utf8 "font/woff"),
  (exactly (utf8 "wOF2"), utf8 "font/woff2"),
  (exactly [0x1F, 0x8B, 8], utf8 "application/x-gzip"),
  (exactly (utf8 "PK\x03\x04"), utf8 "application/zip"),
  (exactly (utf8 "Rar!\x1a\x07\x00"), utf8 "application/x-rar-compressed"),
  (exactly (utf8 "Rar!\x1a\x07\x01\x00"), utf8 "application/x-rar-compressed"),
  (exactly [0, 0x61, 0x73, 0x6D], utf8 "application/wasm")]

/-- Whether a film format is among the brands from the third word of a box on; the fourth word is a
version and no brand. -/
def namesFilm (size : Nat) (s : Bytes) : Bool :=
  ((List.range (size / 4)).filter fun i => i == 2 || 4 ≤ i).any fun i =>
    (s.drop (4 * i)).take 3 = utf8 "mp4"

/-- Whether contents begin with a box of whole words, its size in front, that names a film
format. -/
def isBoxedFilm (s : Bytes) : Bool :=
  let size := (s.take 4).foldl (fun n b => n * 256 + b.toNat) 0
  if 12 ≤ s.length ∧ size ≤ s.length ∧ size % 4 = 0 ∧ (s.drop 4).take 4 = utf8 "ftyp" then
    namesFilm size s
  else false

/-- A byte that does not occur in text. -/
def isBinaryByte (b : UInt8) : Bool :=
  b ≤ 8 || b == 11 || (14 ≤ b && b ≤ 26) || (28 ≤ b && b ≤ 31)

/-- The type that a beginning gives away. -/
def ofSignature? (s : Bytes) : Option Bytes :=
  let found (table : List (Signature × Bytes)) : Option Bytes :=
    (table.find? fun g => Signature.begins g.1 s).map Prod.snd
  match found signatures with
  | some t => some t
  | none => if isBoxedFilm s then some (utf8 "video/mp4") else found laterSignatures

/-- The type the contents give away. -/
def ofContents (contents : Bytes) : Bytes :=
  let s := contents.take sniffed
  let text := s.dropWhile isLeadingBlank
  if openingTags.any (beginsWithTag text) then markup
  else if (utf8 "<?xml").isPrefixOf text then utf8 "text/xml; charset=utf-8"
  else
    match ofSignature? s with
    | some t => t
    | none => if text.any isBinaryByte then binary else plainText

/-- What a file is served as. -/
def ofFile (name contents : Bytes) : Bytes :=
  match byEnding.lookup (foldCase (ending name)) with
  | some t => t
  | none => ofContents contents

end ContentType
end Scriptlet
