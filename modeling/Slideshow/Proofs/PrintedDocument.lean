import Slideshow.Proofs.CharacterClasses
import Slideshow.Restructured.Block
import Slideshow.Restructured.Line

/-!
# Printed documents

A grammar of nested documents: paragraphs of one plain line, lists and quotes. A document is printed
with one blank line between its parts; the lines of an item hang behind its marker and the lines of a
quote are indented by four. Beside the printer stands the HTML that a document means.
-/
namespace Slideshow.Restructured
open Text

inductive Part
  | paragraph (text : Text)
  | list (numbered : Bool) (items : List (List Part))
  | quote (body : List Part)
  deriving Repr

/-- A word character that is neither a digit nor an underscore, as every letter is. -/
def isLetter (c : Char) : Bool := isWord c && !isDigit c && c ≠ '_'

/-- A line that starts with a letter, ends in no white space and holds no inline markup; two colons
at its end would announce a literal block. -/
def isPlainLine (t : Text) : Bool :=
  t.head?.any isLetter && !t.getLast?.any isBlank && '\n' ∉ t && '\t' ∉ t && '*' ∉ t && '`' ∉ t
    && dropEnding? "::" t = none

namespace Part

def isParagraph : Part → Bool
  | paragraph _ => true
  | _ => false

/-- What may stand behind a part: a quote only behind a paragraph, and behind a list a paragraph. -/
def mayPrecede : Part → Part → Bool
  | paragraph _, _ => true
  | list _ _, next => next.isParagraph
  | quote _, paragraph _ => true
  | quote _, list _ _ => true
  | quote _, quote _ => false

end Part

mutual

/-- Lists and quotes are not empty, and their bodies start with a paragraph. -/
def Part.isDocument : Part → Bool
  | .paragraph t => isPlainLine t
  | .list _ items => !items.isEmpty && areBodies items
  | .quote body => body.head?.any Part.isParagraph && isDocument body

def isDocument : List Part → Bool
  | [] => true
  | p :: ps => p.isDocument && ps.head?.all p.mayPrecede && isDocument ps

def areBodies : List (List Part) → Bool
  | [] => true
  | body :: bodies => body.head?.any Part.isParagraph && isDocument body && areBodies bodies

end

/-! ## The printed form -/

/-- A line moved to the right; a blank line stays blank. -/
def shifted (n : Nat) (line : Text) : Text := if line = [] then [] else List.replicate n ' ' ++ line

/-- The marker of the item with a number. -/
def markerOf (numbered : Bool) (number : Nat) : Text :=
  if numbered then decimal number ++ ". " else "- "

/-- Lines that hang behind a marker. -/
def hanging (marker : Text) : List Text → List Text
  | [] => []
  | l :: ls => (marker ++ l) :: ls.map (shifted marker.length)

mutual

def Part.lines : Part → List Text
  | .paragraph t => [t]
  | .list numbered items => itemLines numbered 1 items
  | .quote body => (printedLines body).map (shifted 4)

/-- The lines of a document, with one blank line between its parts. -/
def printedLines : List Part → List Text
  | [] => []
  | p :: ps => p.lines ++ if ps.isEmpty then [] else [] :: printedLines ps

/-- The lines of items that are numbered from a number on. -/
def itemLines (numbered : Bool) (number : Nat) : List (List Part) → List Text
  | [] => []
  | item :: items =>
    hanging (markerOf numbered number) (printedLines item) ++ itemLines numbered (number + 1) items

end

def printed (ps : List Part) : Text := unlines (printedLines ps)

/-! ## What it means -/

mutual

def Part.html : Part → Text
  | .paragraph t => "<p>" ++ escaped t ++ "</p>\n"
  | .list true items => "<ol>\n" ++ itemsHtml items ++ "</ol>\n"
  | .list false items => "<ul>\n" ++ itemsHtml items ++ "</ul>\n"
  | .quote body => "<blockquote>\n" ++ documentHtml body ++ "</blockquote>\n"

def documentHtml : List Part → Text
  | [] => []
  | p :: ps => p.html ++ documentHtml ps

/-- The text of an item that is one paragraph stands in it alone; the parts of any other item are
kept, without the white space behind them. -/
def itemsHtml : List (List Part) → Text
  | [] => []
  | [.paragraph t] :: items => "<li>" ++ escaped t ++ "</li>\n" ++ itemsHtml items
  | item :: items => "<li>" ++ trimRight (documentHtml item) ++ "</li>\n" ++ itemsHtml items

end

/-! ## Lines of a document -/

/-- A line with no break in it, no tab and no white space at its end is read as it stands. -/
structure IsClean (l : Text) : Prop where
  noBreak : '\n' ∉ l
  noTab : '\t' ∉ l
  ending : l.getLast?.any isBlank = false

theorem IsClean.nil : IsClean [] := ⟨by simp, by simp, rfl⟩

theorem IsClean.behind {t : Text} (h : IsClean t) (ht : t ≠ []) {front : Text}
    (hbreak : '\n' ∉ front) (htab : '\t' ∉ front) : IsClean (front ++ t) where
  noBreak := by simp [hbreak, h.noBreak]
  noTab := by simp [htab, h.noTab]
  ending := by
    have hend := h.ending
    rw [List.getLast?_append]
    cases hl : t.getLast? with
    | none => exact absurd (List.getLast?_eq_none_iff.1 hl) ht
    | some c => simpa [hl] using hend

theorem IsClean.shifted {t : Text} (h : IsClean t) (n : Nat) : IsClean (shifted n t) := by
  unfold Restructured.shifted
  split
  · exact .nil
  · next ht => exact h.behind ht (by simp [List.mem_replicate]) (by simp [List.mem_replicate])

/-- A blank line, or a line with a letter; with no break in it and no white space at its end. -/
structure IsPrinted (l : Text) : Prop where
  letter : l = [] ∨ ∃ c ∈ l, isLetter c
  noBreak : '\n' ∉ l
  noTab : '\t' ∉ l
  ending : l.getLast?.any isBlank = false

theorem IsPrinted.clean {l : Text} (h : IsPrinted l) : IsClean l := ⟨h.noBreak, h.noTab, h.ending⟩

theorem isPlainLine_iff {t : Text} : isPlainLine t ↔ ∃ c s, t = c :: s ∧ isLetter c ∧
    t.getLast?.any isBlank = false ∧ '\n' ∉ t ∧ '\t' ∉ t ∧ '*' ∉ t ∧ '`' ∉ t ∧
      dropEnding? "::" t = none := by
  cases t with
  | nil => simp [isPlainLine]
  | cons c s =>
    simp only [isPlainLine, Bool.and_eq_true, decide_eq_true_eq, Bool.not_eq_true', List.head?_cons,
      Option.any_some, and_assoc]
    constructor
    · intro h
      exact ⟨c, s, rfl, h⟩
    · rintro ⟨_, _, he, h⟩
      obtain ⟨rfl, rfl⟩ := List.cons.inj he
      exact h

theorem IsPrinted.of_plain {t : Text} (h : isPlainLine t) : IsPrinted t := by
  obtain ⟨c, s, rfl, hc, hend, hbreak, htab, -⟩ := isPlainLine_iff.1 h
  exact ⟨.inr ⟨c, by simp, hc⟩, hbreak, htab, hend⟩

theorem IsPrinted.nil : IsPrinted [] := ⟨.inl rfl, by simp, by simp, rfl⟩

/-- A printed line stays one behind a margin or a marker. -/
theorem IsPrinted.behind {t : Text} (h : IsPrinted t) (ht : t ≠ []) {front : Text}
    (hbreak : '\n' ∉ front) (htab : '\t' ∉ front) : IsPrinted (front ++ t) := by
  obtain ⟨c, hc, hl⟩ := h.letter.resolve_left ht
  have hclean := h.clean.behind ht hbreak htab
  exact ⟨.inr ⟨c, by simp [hc], hl⟩, hclean.noBreak, hclean.noTab, hclean.ending⟩

theorem IsPrinted.shifted {t : Text} (h : IsPrinted t) (n : Nat) : IsPrinted (shifted n t) := by
  unfold Restructured.shifted
  split
  · exact .nil
  · next ht => exact h.behind ht (by simp [List.mem_replicate]) (by simp [List.mem_replicate])

theorem isDigit_of_mem_decimal {n : Nat} {c : Char} (h : c ∈ decimal n) : c.isDigit :=
  Nat.isDigit_of_mem_toDigits (by decide) (by decide) h

theorem not_mem_markerOf {c : Char} (hd : c.isDigit = false) (hc : c ∉ ['.', ' ', '-'])
    (numbered : Bool) (number : Nat) : c ∉ markerOf numbered number := by
  simp only [List.mem_cons, not_or] at hc
  unfold markerOf
  split
  · intro h
    rcases List.mem_append.1 h with h | h
    · simp [isDigit_of_mem_decimal h] at hd
    · simp at h
      tauto
  · simp
    tauto

theorem IsPrinted.marked {t : Text} (h : IsPrinted t) (ht : t ≠ []) (numbered : Bool)
    (number : Nat) : IsPrinted (markerOf numbered number ++ t) :=
  h.behind ht (not_mem_markerOf (by decide) (by decide) numbered number)
    (not_mem_markerOf (by decide) (by decide) numbered number)

/-- A body starts with the line of its first paragraph. -/
theorem printedLines_of_body {ps : List Part} (hp : ps.head?.any Part.isParagraph)
    (h : isDocument ps) :
    ∃ t qs, ps = .paragraph t :: qs ∧ isPlainLine t ∧ isDocument qs ∧
      printedLines ps = t :: if qs.isEmpty then [] else [] :: printedLines qs := by
  cases ps with
  | nil => simp at hp
  | cons p qs =>
    simp only [isDocument, Bool.and_eq_true] at h
    cases p with
    | paragraph t => exact ⟨t, qs, rfl, h.1.1, h.2, rfl⟩
    | list numbered items => simp [Part.isParagraph] at hp
    | quote body => simp [Part.isParagraph] at hp

theorem ne_nil_of_isPlainLine {t : Text} (h : isPlainLine t) : t ≠ [] := by
  obtain ⟨c, s, rfl, -⟩ := isPlainLine_iff.1 h
  simp

mutual

theorem isPrinted_of_mem_lines : (p : Part) → p.isDocument → ∀ l ∈ p.lines, IsPrinted l
  | .paragraph t, h, l, hl => by
    obtain rfl : l = t := by simpa [Part.lines] using hl
    exact .of_plain h
  | .list numbered items, h, l, hl => by
    simp only [Part.isDocument, Bool.and_eq_true] at h
    exact isPrinted_of_mem_itemLines numbered 1 items h.2 l hl
  | .quote body, h, l, hl => by
    simp only [Part.isDocument, Bool.and_eq_true] at h
    obtain ⟨k, hk, rfl⟩ := List.mem_map.1 hl
    exact (isPrinted_of_mem_printedLines body h.2 k hk).shifted 4

theorem isPrinted_of_mem_printedLines : (ps : List Part) → isDocument ps →
    ∀ l ∈ printedLines ps, IsPrinted l
  | [], _, l, hl => by simp [printedLines] at hl
  | p :: ps, h, l, hl => by
    simp only [isDocument, Bool.and_eq_true] at h
    rw [printedLines, List.mem_append] at hl
    rcases hl with hl | hl
    · exact isPrinted_of_mem_lines p h.1.1 l hl
    · split at hl
      · simp at hl
      · rcases List.mem_cons.1 hl with rfl | hl
        · exact .nil
        · exact isPrinted_of_mem_printedLines ps h.2 l hl

theorem isPrinted_of_mem_itemLines (numbered : Bool) (number : Nat) :
    (items : List (List Part)) → areBodies items → ∀ l ∈ itemLines numbered number items, IsPrinted l
  | [], _, l, hl => by simp [itemLines] at hl
  | item :: items, h, l, hl => by
    simp only [areBodies, Bool.and_eq_true] at h
    obtain ⟨⟨hp, hd⟩, hs⟩ := h
    rw [itemLines, List.mem_append] at hl
    rcases hl with hl | hl
    · have hitem := isPrinted_of_mem_printedLines item hd
      obtain ⟨t, qs, -, ht, -, he⟩ := printedLines_of_body hp hd
      rw [he] at hitem hl
      rcases List.mem_cons.1 hl with rfl | hl
      · exact (hitem t (by simp)).marked (ne_nil_of_isPlainLine ht) numbered number
      · obtain ⟨k, hk, rfl⟩ := List.mem_map.1 hl
        exact (hitem k (by simp only [List.mem_cons]; exact .inr hk)).shifted _
    · exact isPrinted_of_mem_itemLines numbered (number + 1) items hs l hl

end

end Slideshow.Restructured
