import Slideshow.Markdown.Inline
import Slideshow.Markdown.Line
import Slideshow.Text.Blank
import Slideshow.Text.Punctuation

/-! # Addresses in plain text

An address that starts with a scheme or with `www.`, and an address of mail, become links without
any mark. Punctuation at the end of an address belongs to the sentence around it.
-/
namespace Slideshow.Markdown.Autolink
open Text

/-- A reversed address without the punctuation at its end: closing marks of sentences, entities,
and parentheses that were not opened in it. -/
def trimReversed : Text → Text
  | [] => []
  | c :: s =>
    if c ∈ ['?', '!', '.', ',', ':', '*', '_', '~', '\'', '"'] then trimReversed s
    else if c = ';' then
      match s.takeWhile Char.isAlpha, _rest : s.dropWhile Char.isAlpha with
      | _ :: _, '&' :: t => trimReversed t
      | _, _ => trimReversed s
    else if c = ')' ∧ s.count '(' ≤ s.count ')' then trimReversed s
    else c :: s
termination_by s => s.length
decreasing_by
  · simp
  · have h := (List.dropWhile_suffix Char.isAlpha (l := s)).length_le
    rw [_rest] at h
    simp at h ⊢
    omega
  · simp
  · simp

/-- An address as far as it goes in a text. -/
def extent (s : Text) : Text :=
  (trimReversed ((s.takeWhile fun c => !isWhite c && c ≠ '<').reverse)).reverse

def isHostPart (c : Char) : Bool := c = '_' || c = '.' || c = '-' || !(isBlank c || isPunctuation c)

/-- Whether a text starts with the name of a host, which has no underscore in its last two parts.
A name that is not short has two parts. -/
def startsWithHost (short : Bool) (s : Text) : Bool :=
  let parts := (pieces '.' (s.takeWhile isHostPart)).reverse
  (parts.take 2).all ('_' ∉ ·) && (short || 2 ≤ parts.length)

/-- An address: the number of characters before the place where it was found, the text that is
shown, and the target. -/
structure Match where
  behind : Nat
  shown : Text
  url : Text

/-- An address with a scheme, at its colon. -/
def url? (before s : Text) : Option Match :=
  let scheme := (before.takeWhile Char.isAlpha).reverse
  let known := scheme = "http" || scheme = "https" || scheme = "ftp"
  if known && (dropAffix? "://" s).any (startsWithHost true) then
    let shown := scheme ++ extent s
    some ⟨scheme.length, shown, shown⟩
  else none

def www? (before s : Text) : Option Match :=
  let free := before.head?.all fun c => isWhite c || c ∈ ['*', '_', '~', '(', '[']
  if free && (dropAffix? "www." s).isSome && startsWithHost false s then
    some ⟨0, extent s, "http://" ++ extent s⟩
  else none

/-- The host of an address of mail: a dot counts only before a letter or digit. -/
def mailHost : Text → Text
  | [] => []
  | c :: s =>
    if c.isAlphanum || c = '@' || c = '-' || c = '_'
        || (c = '.' && s.head?.any Char.isAlphanum) then c :: mailHost s
    else []

/-- An address of mail, at its sign. -/
def mail? (before s : Text) : Option Match :=
  let name := (before.takeWhile fun c => c.isAlphanum || c ∈ ['.', '+', '-', '_']).reverse
  match s with
  | '@' :: s =>
    let host := mailHost s
    if name ≠ [] ∧ (before.drop name.length).head? ≠ some '/' ∧ '@' ∉ host ∧ '.' ∈ host
        ∧ host.getLast?.any Char.isAlpha then
      let shown := name ++ (trimReversed ('@' :: host).reverse).reverse
      some ⟨name.length, shown, "mailto:" ++ shown⟩
    else none
  | _ => none

/-- The address that is recognised at the front of a text, by the characters before it. -/
def find? (before s : Text) : Option Match :=
  match s.head? with
  | some ':' => url? before s
  | some 'w' => www? before s
  | some '@' => mail? before s
  | _ => none

def texts (t : Text) : List Inline := if t = [] then [] else [.text t]

/-- A text with its addresses as links. `before` holds the characters since the last link,
nearest first, and the first `n` characters are taken already. -/
def links (before : Text) : Nat → Text → List Inline
  | _, [] => texts before.reverse
  | n + 1, _ :: s => links before n s
  | 0, c :: s =>
    match find? before (c :: s) with
    | some m => texts (before.drop m.behind).reverse
        ++ .link m.url [] [.text m.shown] :: links [] (m.shown.length - m.behind - 1) s
    | none => links (c :: before) 0 s

mutual

/-- Inline content with its addresses as links. There are no links inside links. -/
def ofInline : Inline → List Inline
  | .text t => links [] 0 t
  | .styled style body => [.styled style (ofInlines body)]
  | i => [i]

def ofInlines : List Inline → List Inline
  | [] => []
  | i :: rest => ofInline i ++ ofInlines rest

end

end Slideshow.Markdown.Autolink
