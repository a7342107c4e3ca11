import Slideshow.Text.Word
import Slideshow.Text.Blank
import Slideshow.Text.Numeral

/-! # Headings in HTML text

Two kinds of headings matter to a slide: the first heading, which titles it, and the heading that
announces presenter notes. Each is recognised in the text alone.
-/
namespace Slideshow.Markup
open Text

/-- A digit from one to six. -/
def headingDigit? (c : Char) : Option Nat :=
  if '1' ≤ c ∧ c ≤ '6' then some (c.toNat - 48) else none

/-- The level of a heading element by its name in small letters; leading zeros are allowed. -/
def levelOfName? (name : Text) : Option Nat := do
  let digits ← dropAffix? "h" name
  (value? digits).filter fun n => 1 ≤ n && n ≤ 6

/-- A heading element: its digit, the rest of its open tag, the text up to the first close tag of
a heading, and the digit of that tag. -/
structure Heading where
  digit : Char
  attributes : Text
  inner : Text
  closingDigit : Char
  deriving DecidableEq, Repr

def Heading.source (h : Heading) : Text :=
  "<h" ++ h.digit :: h.attributes ++ ['>'] ++ h.inner ++ "</h" ++ [h.closingDigit, '>']

def Heading.level (h : Heading) : Nat := h.digit.toNat - 48

def Heading.title (h : Heading) : Text := trim h.inner

/-- The close tag of a heading at the front of a text. -/
def closing? (s : Text) : Option (Char × Text) := do
  match ← dropAffix? "</h" s with
  | d :: '>' :: rest => (headingDigit? d).map fun _ => (d, rest)
  | _ => none

theorem eq_of_closing? {s rest : Text} {d : Char} (h : closing? s = some (d, rest)) :
    s = "</h" ++ [d, '>'] ++ rest := by
  simp only [closing?, Option.bind_eq_bind, Option.bind_eq_some_iff, dropAffix?_eq_some_iff] at h
  obtain ⟨t, rfl, h⟩ := h
  split at h
  · obtain ⟨_, -, hq⟩ := Option.map_eq_some_iff.1 h
    simp only [Prod.mk.injEq] at hq
    obtain ⟨rfl, rfl⟩ := hq
    simp
  · simp at h

/-- The text before the first close tag of a heading, its digit, and the text after it. -/
def cutAtClosing? : Text → Option (Text × Char × Text)
  | [] => none
  | c :: s =>
    match closing? (c :: s) with
    | some (d, rest) => some ([], d, rest)
    | none => (cutAtClosing? s).map fun p => (c :: p.1, p.2)

theorem eq_of_cutAtClosing? {s inner rest : Text} {d : Char}
    (h : cutAtClosing? s = some (inner, d, rest)) :
    s = inner ++ "</h" ++ [d, '>'] ++ rest := by
  induction s generalizing inner with
  | nil => simp [cutAtClosing?] at h
  | cons c s ih =>
    simp only [cutAtClosing?] at h
    split at h
    · next e r hr =>
      simp only [Option.some.injEq, Prod.mk.injEq] at h
      obtain ⟨rfl, rfl, rfl⟩ := h
      simpa using eq_of_closing? hr
    · obtain ⟨⟨b, a⟩, hp, hq⟩ := Option.map_eq_some_iff.1 h
      simp only [Prod.mk.injEq] at hq
      obtain ⟨rfl, rfl⟩ := hq
      simp [ih hp]

/-- The heading element at the front of a text, and the text after it. -/
def Heading.read? (s : Text) : Option (Heading × Text) := do
  match ← dropAffix? "<h" s with
  | [] => none
  | digit :: s =>
    if (headingDigit? digit).isNone || s.head?.any isWord then none
    else
      let attributes := s.takeWhile (· ≠ '>')
      let s ← dropAffix? ">" (s.dropWhile (· ≠ '>'))
      let (inner, closingDigit, rest) ← cutAtClosing? s
      some (⟨digit, attributes, inner, closingDigit⟩, rest)

theorem Heading.eq_source_append_of_read? {s rest : Text} {h : Heading}
    (hr : Heading.read? s = some (h, rest)) : s = h.source ++ rest := by
  simp only [Heading.read?, Option.bind_eq_bind, Option.bind_eq_some_iff,
    dropAffix?_eq_some_iff] at hr
  obtain ⟨t, rfl, hr⟩ := hr
  split at hr
  · simp at hr
  · next digit t =>
    split at hr
    · simp at hr
    simp only [Option.bind_eq_some_iff, dropAffix?_eq_some_iff] at hr
    obtain ⟨u, hu, ⟨inner, d, r⟩, hc, hr⟩ := hr
    simp only [Option.some.injEq, Prod.mk.injEq] at hr
    obtain ⟨rfl, rfl⟩ := hr
    have e := List.takeWhile_append_dropWhile (l := t) (p := fun c => decide (c ≠ '>'))
    rw [hu, eq_of_cutAtClosing? hc] at e
    conv => lhs; rw [← e]
    simp [Heading.source]

/-- The text before the first heading element, the heading, and the text after it. -/
def Heading.find? : Text → Option (Text × Heading × Text)
  | [] => none
  | c :: s =>
    match Heading.read? (c :: s) with
    | some (h, rest) => some ([], h, rest)
    | none => (Heading.find? s).map fun p => (c :: p.1, p.2)

theorem Heading.eq_of_find? {s before after : Text} {h : Heading}
    (hf : Heading.find? s = some (before, h, after)) : s = before ++ h.source ++ after := by
  induction s generalizing before with
  | nil => simp [Heading.find?] at hf
  | cons c s ih =>
    simp only [Heading.find?] at hf
    split at hf
    · next g r hr =>
      simp only [Option.some.injEq, Prod.mk.injEq] at hf
      obtain ⟨rfl, rfl, rfl⟩ := hf
      simpa using Heading.eq_source_append_of_read? hr
    · obtain ⟨⟨b, a⟩, hp, hq⟩ := Option.map_eq_some_iff.1 hf
      simp only [Prod.mk.injEq] at hq
      obtain ⟨rfl, rfl⟩ := hq
      simp [ih hp]

/-- Whether a character is a small letter in any case; the long s counts as an s. -/
def isCaseOf (letter c : Char) : Bool := c.toLower = letter || letter = 's' && c = 'ſ'

/-- What follows a word that is written in any case. -/
def dropWord? : Text → Text → Option Text
  | [], s => some s
  | _ :: _, [] => none
  | letter :: word, c :: s => if isCaseOf letter c then dropWord? word s else none

/-- What follows the words "presenter notes" and the white space around them. -/
def afterNotesWords? (s : Text) : Option Text := do
  let s ← dropWord? "presenter" (trimLeft s)
  if s.head?.any isBlank then (dropWord? "notes" (trimLeft s)).map trimLeft else none

/-- The text after a heading at the front that reads "presenter notes". -/
def notesHeading? (s : Text) : Option Text := do
  match ← dropWord? "<h" s with
  | [] => none
  | digit :: s =>
    let _ ← headingDigit? digit
    let s ← dropAffix? ">" (s.dropWhile (· ≠ '>'))
    let s ← afterNotesWords? s
    match ← dropWord? "</h" s with
    | d :: '>' :: rest => (headingDigit? d).map fun _ => rest
    | _ => none

/-- The text before the first heading that reads "presenter notes", and the text after it. -/
def cutAtNotes? : Text → Option (Text × Text)
  | [] => none
  | c :: s =>
    match notesHeading? (c :: s) with
    | some rest => some ([], rest)
    | none => (cutAtNotes? s).map fun p => (c :: p.1, p.2)

end Slideshow.Markup
