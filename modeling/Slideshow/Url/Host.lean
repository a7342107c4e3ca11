import Slideshow.Text.Case
import Slideshow.Url.Percent
import Slideshow.Url.Punycode

/-! # Hosts of URLs

A host is an IPv6 address in brackets, an IPv4 address if it ends in a number, or a domain. One
host may be written in many ways, and one of them is its usual form.
-/
namespace Slideshow.Url
open Text

inductive Host
  | domain (name : Text)
  | ipv4 (address : Nat)
  /-- An IPv6 address as it is written between the brackets. -/
  | ipv6 (address : Text)
  deriving DecidableEq, Repr

/-- The value of digits of a base; nothing if another character occurs. -/
def valueIn? (base : Nat) (s : Text) : Option Nat :=
  s.foldlM (fun n c => ((hexValue? c).filter (· < base)).map (base * n + ·)) 0

/-- A part of an IPv4 address: hexadecimal, octal or decimal. -/
def ipv4Part? (s : Text) : Option Nat :=
  match s with
  | [] => none
  | '0' :: 'x' :: rest => valueIn? 16 rest
  | '0' :: 'X' :: rest => valueIn? 16 rest
  | '0' :: d :: rest => valueIn? 8 (d :: rest)
  | s => valueIn? 10 s

/-- The parts between the dots; one dot at the end adds no part. -/
def dotted (s : Text) : List Text :=
  let parts := pieces '.' s
  if 1 < parts.length ∧ parts.getLast? = some [] then parts.dropLast else parts

def endsInNumber (s : Text) : Bool :=
  match (dotted s).getLast? with
  | none | some [] => false
  | some part => part.all Char.isDigit || (ipv4Part? part).isSome

/-- The address that up to four numbers make: each is a byte, but the last fills up the rest. -/
def ipv4OfNumbers? (numbers : List Nat) : Option Nat :=
  if numbers.length ≤ 4 && numbers.dropLast.all (· ≤ 255) &&
      numbers.getLastD 0 < Nat.pow 256 (5 - numbers.length) then
    some (numbers.dropLast.zipIdx.foldl (fun a p => a + p.1 * Nat.pow 256 (3 - p.2))
      (numbers.getLastD 0))
  else none

def ipv4? (s : Text) : Option Nat := ((dotted s).mapM ipv4Part?).bind ipv4OfNumbers?

/-- The four bytes of an address in decimal. -/
def writtenIpv4 (address : Nat) : Text :=
  List.intercalate ['.'] ([16777216, 65536, 256, 1].map fun unit => decimal (address / unit % 256))

/-- A decimal byte without leading zeros. -/
def isIpv4Byte (s : Text) : Bool :=
  s.length ≤ 3 && (s.length ≤ 1 || s.head? ≠ some '0') && s ≠ [] && s.all Char.isDigit
    && ((value? s).getD 256) ≤ 255

/-- The number of 16-bit pieces that colon separated groups make; the last group may be an IPv4
address, which makes two. -/
def ipv6Pieces? (s : Text) : Option Nat :=
  if s = [] then some 0
  else
    let groups := pieces ':' s
    let isGroup : Text → Bool := fun g => g ≠ [] && g.length ≤ 4 && g.all (hexValue? · |>.isSome)
    let last := groups.getLastD []
    if !groups.dropLast.all isGroup then none
    else if isGroup last then some groups.length
    else
      let parts := pieces '.' last
      if parts.length = 4 && parts.all isIpv4Byte then some (groups.length + 1) else none

/-- Eight pieces, or fewer around one double colon. -/
def isIpv6 (s : Text) : Bool :=
  match cutAt? "::" s with
  | none => ipv6Pieces? s = some 8
  | some (before, after) =>
    match ipv6Pieces? before, ipv6Pieces? after with
    | some m, some n => m + n ≤ 7 && (before = [] || !before.contains '.')
    | _, _ => false

/-- The address between brackets, if the host starts with one. -/
def bracketed? (s : Text) : Option (Option Text) :=
  (dropAffix? "[" s).map fun s => dropEnding? "]" s

def isForbiddenInDomain (c : Char) : Bool :=
  c.toNat ≤ 32 || c.toNat = 127 ||
    c ∈ ['#', '%', '/', ':', '<', '>', '?', '@', '[', '\\', ']', '^', '|']

/-- A label of a domain in small letters and in ASCII. -/
def asciiLabel (label : Text) : Text :=
  if label.all Punycode.isAscii then label else "xn--" ++ Punycode.encode label

def asciiName (domain : Text) : Text :=
  List.intercalate ['.'] ((pieces '.' (lower domain)).map asciiLabel)

namespace Host

/-- The host of a domain, or of an address if the domain ends in a number. -/
def ofDomain? (domain : Text) : Option Host :=
  let name := asciiName domain
  if name = [] || name.any isForbiddenInDomain || domain.contains '\uFFFD' then none
  else if endsInNumber name then ipv4 <$> ipv4? name
  else some (.domain name)

/-- A host of a scheme that knows domains and addresses. -/
def read? (s : Text) : Option Host :=
  match bracketed? s with
  | some address => (address.filter isIpv6).map fun a => ipv6 (a.map Char.toLower)
  | none => ofDomain? ((Utf8.units (decodeBytes s)).map (·.getD '\uFFFD'))

/-- The usual form of a host. -/
def written : Host → Text
  | domain name => name
  | ipv4 address => writtenIpv4 address
  | ipv6 address => "[" ++ address ++ "]"

end Host

def isHost (s : Text) : Bool := (Host.read? s).isSome

/-- A host of any other scheme. -/
def isOpaqueHost (s : Text) : Bool :=
  match bracketed? s with
  | some address => address.any isIpv6
  | none => !s.any fun c => c.toNat = 0 || c = ' ' ||
      c ∈ ['#', '/', ':', '<', '>', '?', '@', '[', '\\', ']', '^', '|']

end Slideshow.Url
