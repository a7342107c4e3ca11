import Slideshow.Encoding.Table
import Slideshow.Encoding.Utf16
import Slideshow.Failure
import Slideshow.Text.Blank

/-! # Encodings of source files

An encoding is found by its label. Bytes are read as units, each a character or a mark of damage,
and damage is shown as the replacement character. A byte order mark at the front decides the
encoding, whatever the label says.
-/
namespace Slideshow

inductive Encoding.Form
  | utf8
  | utf16 (bigEndian : Bool)
  /-- ASCII, and the characters of the bytes from 128. -/
  | table (upper : Text)
  /-- ASCII, and a private character for each byte from 128. -/
  | userDefined
  /-- Encodings that are not read at all. -/
  | refused
  /-- Encodings of several bytes, of which only the ASCII part is read. -/
  | eastAsian
  deriving DecidableEq, Repr

structure Encoding where
  name : Text
  form : Encoding.Form
  labels : List Text
  deriving DecidableEq, Repr

namespace Encoding

def utf8 : Encoding :=
 ⟨"UTF-8", .utf8,
    ["unicode-1-1-utf-8", "unicode11utf8", "unicode20utf8", "utf-8", "utf8", "x-unicode20utf8"]⟩

def utf16 (bigEndian : Bool) : Encoding :=
  if bigEndian then ⟨"UTF-16BE", .utf16 true, ["unicodefffe", "utf-16be"]⟩
  else ⟨"UTF-16LE", .utf16 false, ["csunicode", "iso-10646-ucs-2", "ucs-2", "unicode",
    "unicodefeff", "utf-16", "utf-16le"]⟩

def windows1252 : Encoding :=
  ⟨"windows-1252", .table Table.windows1252,
    ["ansi_x3.4-1968", "ascii", "cp1252", "cp819", "csisolatin1", "ibm819", "iso-8859-1",
      "iso-ir-100", "iso8859-1", "iso88591", "iso_8859-1", "iso_8859-1:1987", "l1", "latin1",
      "us-ascii", "windows-1252", "x-cp1252"]⟩

/-- Every encoding that a label names. -/
def all : List Encoding := [
  utf8,
  ⟨"IBM866", .table Table.ibm866,
    ["866", "cp866", "csibm866", "ibm866"]⟩,
  ⟨"ISO-8859-2", .table Table.iso88592,
    ["csisolatin2", "iso-8859-2", "iso-ir-101", "iso8859-2", "iso88592", "iso_8859-2",
      "iso_8859-2:1987", "l2", "latin2"]⟩,
  ⟨"ISO-8859-3", .table Table.iso88593,
    ["csisolatin3", "iso-8859-3", "iso-ir-109", "iso8859-3", "iso88593", "iso_8859-3",
      "iso_8859-3:1988", "l3", "latin3"]⟩,
  ⟨"ISO-8859-4", .table Table.iso88594,
    ["csisolatin4", "iso-8859-4", "iso-ir-110", "iso8859-4", "iso88594", "iso_8859-4",
      "iso_8859-4:1988", "l4", "latin4"]⟩,
  ⟨"ISO-8859-5", .table Table.iso88595,
    ["csisolatincyrillic", "cyrillic", "iso-8859-5", "iso-ir-144", "iso8859-5", "iso88595",
      "iso_8859-5", "iso_8859-5:1988"]⟩,
  ⟨"ISO-8859-6", .table Table.iso88596,
    ["arabic", "asmo-708", "csiso88596e", "csiso88596i", "csisolatinarabic", "ecma-114",
      "iso-8859-6", "iso-8859-6-e", "iso-8859-6-i", "iso-ir-127", "iso8859-6", "iso88596",
      "iso_8859-6", "iso_8859-6:1987"]⟩,
  ⟨"ISO-8859-7", .table Table.iso88597,
    ["csisolatingreek", "ecma-118", "elot_928", "greek", "greek8", "iso-8859-7", "iso-ir-126",
      "iso8859-7", "iso88597", "iso_8859-7", "iso_8859-7:1987", "sun_eu_greek"]⟩,
  ⟨"ISO-8859-8", .table Table.iso88598,
    ["csiso88598e", "csisolatinhebrew", "hebrew", "iso-8859-8", "iso-8859-8-e", "iso-ir-138",
      "iso8859-8", "iso88598", "iso_8859-8", "iso_8859-8:1988", "visual"]⟩,
  ⟨"ISO-8859-8-I", .table Table.iso88598,
    ["csiso88598i", "iso-8859-8-i", "logical"]⟩,
  ⟨"ISO-8859-10", .table Table.iso885910,
    ["csisolatin6", "iso-8859-10", "iso-ir-157", "iso8859-10", "iso885910", "l6", "latin6"]⟩,
  ⟨"ISO-8859-13", .table Table.iso885913,
    ["iso-8859-13", "iso8859-13", "iso885913"]⟩,
  ⟨"ISO-8859-14", .table Table.iso885914,
    ["iso-8859-14", "iso8859-14", "iso885914"]⟩,
  ⟨"ISO-8859-15", .table Table.iso885915,
    ["csisolatin9", "iso-8859-15", "iso8859-15", "iso885915", "iso_8859-15", "l9"]⟩,
  ⟨"ISO-8859-16", .table Table.iso885916,
    ["iso-8859-16"]⟩,
  ⟨"KOI8-R", .table Table.koi8R,
    ["cskoi8r", "koi", "koi8", "koi8-r", "koi8_r"]⟩,
  ⟨"KOI8-U", .table Table.koi8U,
    ["koi8-ru", "koi8-u"]⟩,
  ⟨"macintosh", .table Table.macintosh,
    ["csmacintosh", "mac", "macintosh", "x-mac-roman"]⟩,
  ⟨"windows-874", .table Table.windows874,
    ["dos-874", "iso-8859-11", "iso8859-11", "iso885911", "tis-620", "windows-874"]⟩,
  ⟨"windows-1250", .table Table.windows1250,
    ["cp1250", "windows-1250", "x-cp1250"]⟩,
  ⟨"windows-1251", .table Table.windows1251,
    ["cp1251", "windows-1251", "x-cp1251"]⟩,
  windows1252,
  ⟨"windows-1253", .table Table.windows1253,
    ["cp1253", "windows-1253", "x-cp1253"]⟩,
  ⟨"windows-1254", .table Table.windows1254,
    ["cp1254", "csisolatin5", "iso-8859-9", "iso-ir-148", "iso8859-9", "iso88599", "iso_8859-9",
      "iso_8859-9:1989", "l5", "latin5", "windows-1254", "x-cp1254"]⟩,
  ⟨"windows-1255", .table Table.windows1255,
    ["cp1255", "windows-1255", "x-cp1255"]⟩,
  ⟨"windows-1256", .table Table.windows1256,
    ["cp1256", "windows-1256", "x-cp1256"]⟩,
  ⟨"windows-1257", .table Table.windows1257,
    ["cp1257", "windows-1257", "x-cp1257"]⟩,
  ⟨"windows-1258", .table Table.windows1258,
    ["cp1258", "windows-1258", "x-cp1258"]⟩,
  ⟨"x-mac-cyrillic", .table Table.xMacCyrillic,
    ["x-mac-cyrillic", "x-mac-ukrainian"]⟩,
  ⟨"GBK", .eastAsian,
    ["chinese", "csgb2312", "csiso58gb231280", "gb2312", "gb_2312", "gb_2312-80", "gbk",
      "iso-ir-58", "x-gbk"]⟩,
  ⟨"gb18030", .eastAsian,
    ["gb18030"]⟩,
  ⟨"Big5", .eastAsian,
    ["big5", "big5-hkscs", "cn-big5", "csbig5", "x-x-big5"]⟩,
  ⟨"EUC-JP", .eastAsian,
    ["cseucpkdfmtjapanese", "euc-jp", "x-euc-jp"]⟩,
  ⟨"ISO-2022-JP", .eastAsian,
    ["csiso2022jp", "iso-2022-jp"]⟩,
  ⟨"Shift_JIS", .eastAsian,
    ["csshiftjis", "ms932", "ms_kanji", "shift-jis", "shift_jis", "sjis", "windows-31j", "x-sjis"]⟩,
  ⟨"EUC-KR", .eastAsian,
    ["cseuckr", "csksc56011987", "euc-kr", "iso-ir-149", "korean", "ks_c_5601-1987",
      "ks_c_5601-1989", "ksc5601", "ksc_5601", "windows-949"]⟩,
  utf16 true,
  utf16 false,
  ⟨"x-user-defined", .userDefined,
    ["x-user-defined"]⟩,
  ⟨"replacement", .refused,
    ["csiso2022kr", "hz-gb-2312", "iso-2022-cn", "iso-2022-cn-ext", "iso-2022-kr", "replacement"]⟩]

/-- The white space that may surround a label. -/
def isLabelBlank (c : Char) : Bool :=
  c = '\t' || c = '\n' || c = '\x0c' || c = '\r' || c = ' '

/-- The encoding that a label names, in any case. -/
def ofLabel? (label : Text) : Option Encoding :=
  let inner := ((label.dropWhile isLabelBlank).reverse.dropWhile isLabelBlank).reverse
  let small := inner.map Char.toLower
  all.find? (small ∈ ·.labels)

/-- A label may be spelt with underscores for hyphens, or with underscores that mean nothing. -/
def resolve? (label : Text) : Option Encoding :=
  let label := Text.trim label
  ofLabel? label <|> ofLabel? (Text.replaceChar '_' "-" label) <|>
    ofLabel? (Text.replaceChar '_' [] label)

def resolve (label : Text) : Except Failure Encoding :=
  match resolve? label with
  | some e => .ok e
  | none => .error (.unknownEncoding (Text.trim label))

/-- The characters of one byte each, by a function for the bytes from 128. -/
def unitsBy (upper : UInt8 → Option Char) (bytes : Bytes) : List (Option Char) :=
  bytes.map fun b => if b < 128 then some (Char.ofNat b.toNat) else upper b

/-- The units of some bytes. -/
def Form.units : Form → Bytes → List (Option Char)
  | .utf8, bytes => Utf8.units bytes
  | .utf16 bigEndian, bytes => Utf16.units bigEndian bytes
  | .table upper, bytes =>
    unitsBy (fun b => upper[b.toNat - 128]?.filter (· ≠ '\uFFFD')) bytes
  | .userDefined, bytes => unitsBy (fun b => some (Char.ofNat (0xF780 + (b.toNat - 128)))) bytes
  | .refused, bytes => if bytes = [] then [] else [none]
  | .eastAsian, bytes => unitsBy (fun _ => none) bytes

/-- The encoding that a byte order mark announces, and the bytes after the mark. -/
def marked? : Bytes → Option (Encoding × Bytes)
  | 0xEF :: 0xBB :: 0xBF :: rest => some (utf8, rest)
  | 0xFF :: 0xFE :: rest => some (utf16 false, rest)
  | 0xFE :: 0xFF :: rest => some (utf16 true, rest)
  | _ => none

/-- A source text, the encoding that was used to read it, and whether damage was found. -/
structure Decoded where
  text : Text
  encoding : Encoding
  malformed : Bool
  deriving DecidableEq, Repr

/-- Bytes read in an encoding, unless they carry a byte order mark. -/
def decode (e : Encoding) (bytes : Bytes) : Decoded :=
  let (e, bytes) := (marked? bytes).getD (e, bytes)
  let units := e.form.units bytes
  ⟨units.map (·.getD '\uFFFD'), e, units.any Option.isNone⟩

/-- The text of a source. Without a known encoding it is UTF-8, or windows-1252 if it is no
well-formed UTF-8. -/
def decodeSource (bytes : Bytes) : Option Encoding → Decoded
  | some e => e.decode bytes
  | none =>
    let decoded := utf8.decode bytes
    if decoded.malformed then { windows1252.decode bytes with malformed := true } else decoded

end Encoding

end Slideshow
