import Slideshow.Text.Word
import Slideshow.Text.Numeral
import Slideshow.Text.Blank
import Slideshow.Text.Case
import Slideshow.Encoding.Utf8

/-! # Lines of reStructuredText

What one line, or one line and its neighbours, can open. Lines carry no line break, no tab and no
white space at their end.
-/
namespace Slideshow.Restructured
open Text

/-- The lines of a document: tabs stand for eight spaces and trailing white space for nothing. -/
def linesOf (source : Text) : List Text :=
  (lines source).map fun l => trimRight (replaceChar '\t' "        " l)

/-- The number of leading spaces. -/
def indent (line : Text) : Nat := (line.takeWhile (· = ' ')).length

theorem eq_space_of_mem_take {n : Nat} {line : Text} (h : n ≤ indent line) :
    ∀ c ∈ line.take n, c = ' ' := by
  intro c hc
  have htake : line.take n = (line.takeWhile (· = ' ')).take n := by
    conv => lhs; rw [← List.takeWhile_append_dropWhile (l := line) (p := (· = ' '))]
    exact List.take_append_of_le_length h
  rw [htake] at hc
  simpa using List.all_eq_true.1 List.all_takeWhile c (List.take_subset n _ hc)

/-- At least so many characters, all the same ASCII punctuation. -/
def isAdornment (least : Nat) (line : Text) : Bool :=
  match line with
  | [] => false
  | c :: rest =>
    33 ≤ c.toNat && c.toNat ≤ 126 && !c.isAlphanum && least ≤ line.length && rest.all (· = c)

/-- The look of a section title: its adornment, and whether it has one above, too. -/
structure Style where
  adornment : Char
  overlined : Bool
  deriving DecidableEq, Repr

/-- The rank of a style among those met so far, and those met from now on. -/
def rankOf (styles : List Style) (style : Style) : Nat × List Style :=
  match styles.idxOf? style with
  | some i => (i + 1, styles)
  | none => (styles.length + 1, styles ++ [style])

/-- The start of a list item. Its text may be continued on lines indented by its width. -/
structure Marker where
  /-- The bullet, or nothing for a number. -/
  bullet : Option Char
  width : Nat
  content : Text
  deriving DecidableEq, Repr

def bulletMarker? (line : Text) : Option Marker :=
  match line with
  | c :: ' ' :: rest =>
    let content := rest.dropWhile (· = ' ')
    if (c = '-' || c = '*' || c = '+') && content ≠ [] then
      some ⟨some c, line.length - content.length, content⟩
    else none
  | _ => none

/-- The number of a numbered item: a number sign, or digits. -/
def numberLabel (line : Text) : Text :=
  if line.head? = some '#' then ['#'] else line.takeWhile isDigit

/-- A number counts as wide as its UTF-8 form. -/
def numberMarker? (line : Text) : Option Marker := do
  let label := numberLabel line
  let rest ← dropAffix? "." (line.drop label.length)
  let content := rest.dropWhile (· = ' ')
  let first ← content.head?
  if label ≠ [] && content.length < rest.length && !isBlank first then
    some ⟨none, (Utf8.encode label).length + 1 + (rest.length - content.length), content⟩
  else none

def marker? (line : Text) : Option Marker := bulletMarker? line <|> numberMarker? line

/-- What can stand in front of the text of a list item, digits apart. -/
def markerChars : List Char := ['-', '*', '+', '#', '.', ' ']

theorem exists_numberLabel_append (line : Text) :
    ∃ rest, line = numberLabel line ++ rest ∧ ∀ c ∈ numberLabel line, isDigit c ∨ c = '#' := by
  unfold numberLabel
  split
  · next h =>
    obtain ⟨rest, rfl⟩ := List.head?_eq_some_iff.1 h
    exact ⟨rest, rfl, fun c hc => .inr (List.mem_singleton.1 hc)⟩
  · exact ⟨_, List.takeWhile_append_dropWhile.symm,
      fun c hc => .inl (List.all_eq_true.1 List.all_takeWhile c hc)⟩

/-- Spaces in front of a text, and their number in either measure. -/
theorem exists_spaces_append (s : Text) :
    ∃ spaces, s = spaces ++ s.dropWhile (· = ' ') ∧ (∀ c ∈ spaces, c = ' ') ∧
      (Utf8.encode spaces).length = s.length - (s.dropWhile (· = ' ')).length := by
  have hsplit := List.takeWhile_append_dropWhile (l := s) (p := fun c => decide (c = ' '))
  have hspaces : ∀ c ∈ s.takeWhile (fun c => decide (c = ' ')), c = ' ' := fun c hc => by
    simpa using List.all_eq_true.1 List.all_takeWhile c hc
  refine ⟨_, hsplit.symm, hspaces, ?_⟩
  have hlength := congrArg List.length hsplit
  rw [List.length_append] at hlength
  rw [Utf8.length_encode_of_ascii fun c hc => by rw [hspaces c hc]; decide]
  omega

/-- A marker stands in front of the text of its item and is as wide as its UTF-8 form. -/
theorem exists_front_of_marker? {line : Text} {m : Marker} (h : marker? line = some m) :
    ∃ front, line = front ++ m.content ∧ front ≠ [] ∧ (Utf8.encode front).length = m.width ∧
      ∀ c ∈ front, isDigit c ∨ c ∈ markerChars := by
  simp only [marker?, Option.orElse_eq_orElse, Option.orElse_eq_or, Option.or_eq_some_iff] at h
  rcases h with h | ⟨-, h⟩
  · unfold bulletMarker? at h
    split at h
    · next c rest =>
      simp only at h
      split at h
      · next hb =>
        obtain rfl := Option.some.inj h
        simp only [Bool.and_eq_true, Bool.or_eq_true, decide_eq_true_eq] at hb
        obtain ⟨spaces, hrest, hspaces, hwidth⟩ := exists_spaces_append rest
        have hbullet : c ∈ markerChars ∧ c.utf8Size = 1 := by
          rcases hb.1 with (rfl | rfl) | rfl <;> decide
        have hle := (List.dropWhile_suffix (fun d => decide (d = ' ')) (l := rest)).length_le
        refine ⟨c :: ' ' :: spaces, by simpa using hrest, by simp, ?_, ?_⟩
        · rw [Utf8.length_encode_cons, Utf8.length_encode_cons, hwidth, hbullet.2]
          simp only [List.length_cons, show ' '.utf8Size = 1 by decide]
          omega
        · intro d hd
          simp only [List.mem_cons] at hd
          rcases hd with rfl | rfl | hd
          · exact .inr hbullet.1
          · exact .inr (by decide)
          · exact .inr (by rw [hspaces d hd]; decide)
      · simp at h
    · simp at h
  · simp only [numberMarker?, Option.bind_eq_bind, Option.bind_eq_some_iff] at h
    obtain ⟨rest, hr, first, -, h⟩ := h
    split at h
    · obtain rfl := Option.some.inj h
      obtain ⟨spaces, hrest, hspaces, hwidth⟩ := exists_spaces_append rest
      obtain ⟨behind, hline, hlabel⟩ := exists_numberLabel_append line
      have hbehind : behind = "." ++ rest := by
        rw [dropAffix?_eq_some_iff] at hr
        rw [← hr]
        conv => rhs; arg 2; rw [hline]
        exact List.drop_left.symm
      refine ⟨numberLabel line ++ '.' :: spaces, ?_, by simp, ?_, ?_⟩
      · conv => lhs; rw [hline, hbehind]
        simpa using hrest
      · rw [Utf8.encode_append, List.length_append, Utf8.length_encode_cons, hwidth,
          show '.'.utf8Size = 1 by decide]
        exact (Nat.add_assoc ..).symm
      · intro d hd
        simp only [List.mem_append, List.mem_cons] at hd
        rcases hd with hd | rfl | hd
        · exact (hlabel d hd).imp_right fun hhash => by rw [hhash]; decide
        · exact .inr (by decide)
        · exact .inr (by rw [hspaces d hd]; decide)
    · simp at h

/-- What a line that is not blank opens. -/
inductive Opening
  /-- A title and the lines after its adornment. -/
  | title (style : Style) (text : Text) (rest : List Text)
  | transition
  | markup (text : Text)
  | quote
  | list (bullet : Option Char)
  | paragraph
  deriving DecidableEq, Repr

/-- A title between two equal adornments. -/
def overlinedTitle? (line : Text) (rest : List Text) : Option (Style × Text × List Text) :=
  match line, rest with
  | c :: _, title :: under :: rest =>
    if isAdornment 2 line && trim title ≠ [] && under = line then
      some (⟨c, true⟩, trim title, rest)
    else none
  | _, _ => none

/-- A title above an adornment that is no shorter. -/
def underlinedTitle? (line : Text) (rest : List Text) : Option (Style × Text × List Text) :=
  match rest with
  | (c :: under) :: rest =>
    if indent line = 0 && !isAdornment 2 line && isAdornment 2 (c :: under)
        && line.length ≤ (c :: under).length then
      some (⟨c, false⟩, trim line, rest)
    else none
  | _ => none

/-- What a line opens; `fresh` says that no text stands right above it. -/
def Opening.of (fresh : Bool) (line : Text) (rest : List Text) : Opening :=
  match overlinedTitle? line rest <|> underlinedTitle? line rest with
  | some (style, text, rest) => .title style text rest
  | none =>
    if isAdornment 4 line && fresh && rest.head?.all (· = []) then .transition
    else match dropAffix? ".. " line with
    | some text => .markup text
    | none =>
      if 0 < indent line then .quote
      else match marker? line with
      | some m => .list m.bullet
      | none => .paragraph

/-- A directive: its name in small letters, its argument, its options and its content. -/
structure Directive where
  name : Text
  argument : Text
  options : List (Text × Text)
  content : List Text
  deriving DecidableEq, Repr

/-- A field such as `:alt: a cat`. -/
def option? (line : Text) : Option (Text × Text) := do
  let rest ← dropAffix? ":" line
  let (key, value) ← cutAt? ":" rest
  let key := trim key
  if key = [] || ' ' ∈ key then none else some (key, trim value)

/-- The directive that explicit markup writes; comments and targets are none. -/
def Directive.of? (text : Text) (body : List Text) : Option Directive := do
  let first ← text.head?
  if !first.isAlpha then none
  let isName : Char → Bool := fun c => isWord c || c = '-'
  let argument ← dropAffix? "::" (text.dropWhile isName)
  let options := body.map option? |>.takeWhile Option.isSome
  some {
    name := lower (text.takeWhile isName)
    argument := trim argument
    options := options.filterMap id
    content := (body.drop options.length).dropWhile (· = []) }

end Slideshow.Restructured
