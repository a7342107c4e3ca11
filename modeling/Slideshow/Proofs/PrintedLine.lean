import Slideshow.Proofs.PrintedDocument
import Slideshow.Proofs.BlockEquations

/-!
# How printed lines are read

What a line of a printed document opens, and how an indented block or a list is taken off the front
of the lines: exactly the lines that were moved to the right, moved back.
-/
namespace Slideshow.Restructured
open Text

/-! ## Openings -/

theorem not_adornment_of_isLetter {c : Char} (h : isLetter c) :
    (33 ≤ c.toNat && c.toNat ≤ 126 && !c.isAlphanum) = false := by
  simp only [isLetter, Bool.and_eq_true, decide_eq_true_eq] at h
  obtain ⟨⟨hw, -⟩, hu⟩ := h
  simp only [isWord] at hw
  split at hw
  · have hc : c.isAlphanum := by simpa [hu] using hw
    simp [hc]
  · next hs =>
    have hbig : ¬c.toNat ≤ 126 := by omega
    simp [hbig]

/-- A line with a letter is no adornment. -/
theorem isAdornment_of_isPrinted {l : Text} (h : IsPrinted l) (n : Nat) :
    isAdornment n l = false := by
  cases l with
  | nil => rfl
  | cons c l =>
    obtain ⟨d, hd, hl⟩ := h.letter.resolve_left (by simp)
    cases ha : isAdornment n (c :: l) with
    | false => rfl
    | true =>
      simp only [isAdornment, Bool.and_eq_true, List.all_eq_true, decide_eq_true_eq] at ha
      have hsame : d = c := by
        rcases List.mem_cons.1 hd with hd | hd
        · exact hd
        · exact ha.2 d hd
      have hyes : (33 ≤ c.toNat && c.toNat ≤ 126 && !c.isAlphanum) = true := by
        simp only [Bool.and_eq_true, decide_eq_true_eq]
        exact ha.1.1
      rw [← hsame, not_adornment_of_isLetter hl] at hyes
      simp at hyes

/-- Above a printed line, or the end, there is no title and no transition. -/
theorem opening_of_head {line : Text} {rest : List Text} (hl : IsPrinted line)
    (hr : ∀ l, rest.head? = some l → IsPrinted l) (hm : dropAffix? ".. " line = none)
    (fresh : Bool) :
    Opening.of fresh line rest =
      if 0 < indent line then .quote
      else match marker? line with
        | some m => .list m.bullet
        | none => .paragraph := by
  have hline := isAdornment_of_isPrinted hl
  have hover : overlinedTitle? line rest = none := by
    unfold overlinedTitle?
    split
    · simp [hline]
    · rfl
  have hunder : underlinedTitle? line rest = none := by
    unfold underlinedTitle?
    split
    · next c under rest =>
      have := isAdornment_of_isPrinted (hr (c :: under) rfl) 2
      simp [this]
    · rfl
  simp only [Opening.of, hover, hunder, hline, hm]
  rfl

/-- Between printed lines there is no title and no transition. -/
theorem opening_of_isPrinted {line : Text} {rest : List Text} (hl : IsPrinted line)
    (hr : ∀ l ∈ rest, IsPrinted l) (hm : dropAffix? ".. " line = none) (fresh : Bool) :
    Opening.of fresh line rest =
      if 0 < indent line then .quote
      else match marker? line with
        | some m => .list m.bullet
        | none => .paragraph :=
  opening_of_head hl (fun l h => hr l (List.mem_of_head? h)) hm fresh

theorem isLetter_ne {c d : Char} (hc : isLetter c) (hd : isLetter d = false) : c ≠ d := by
  rintro rfl
  simp [hc] at hd

theorem isBlank_of_isLetter {c : Char} (h : isLetter c) : isBlank c = false := by
  simp only [isLetter, Bool.and_eq_true] at h
  exact isBlank_of_isWord h.1.1

theorem indent_cons {c : Char} (h : c ≠ ' ') (s : Text) : indent (c :: s) = 0 := by
  simp [indent, h]

theorem indent_shifted (n : Nat) {c : Char} (h : c ≠ ' ') (s : Text) :
    indent (List.replicate n ' ' ++ c :: s) = n := by
  rw [indent, takeWhile_run (by simp [List.mem_replicate]) (by simpa using h), List.length_replicate]

theorem le_indent_shifted (n : Nat) (l : Text) : n ≤ indent (List.replicate n ' ' ++ l) := by
  rw [indent, List.takeWhile_append_of_pos (by simp [List.mem_replicate]), List.length_append,
    List.length_replicate]
  omega

/-- A line that starts with a letter carries no marker. -/
theorem marker?_plain {c : Char} (h : isLetter c) (s : Text) : marker? (c :: s) = none := by
  have hdash : c ≠ '-' := isLetter_ne h (by decide)
  have hstar : c ≠ '*' := isLetter_ne h (by decide)
  have hplus : c ≠ '+' := isLetter_ne h (by decide)
  have hhash : c ≠ '#' := isLetter_ne h (by decide)
  have hdot : '.' ≠ c := (isLetter_ne h (by decide)).symm
  have hdigit : isDigit c = false := by
    simp only [isLetter, Bool.and_eq_true, Bool.not_eq_true'] at h
    exact h.1.2
  have hbullet : bulletMarker? (c :: s) = none := by
    unfold bulletMarker?
    split
    · next d rest he =>
      obtain rfl : c = d := (List.cons.inj he).1
      simp [hdash, hstar, hplus]
    · rfl
  have hlabel : numberLabel (c :: s) = [] := by
    simp [numberLabel, hhash, hdigit]
  simp [marker?, hbullet, numberMarker?, hlabel, dropAffix?, hdot]

/-- A line that starts with a letter opens a paragraph, if there is no adornment under it. -/
theorem opening_of_isLetter {c : Char} {s : Text} {rest : List Text} (hc : isLetter c)
    (hp : IsPrinted (c :: s)) (hr : ∀ l, rest.head? = some l → IsPrinted l) (fresh : Bool) :
    Opening.of fresh (c :: s) rest = .paragraph := by
  have hdot : '.' ≠ c := (isLetter_ne hc (by decide)).symm
  have hspace : c ≠ ' ' := isLetter_ne hc (by decide)
  rw [opening_of_head hp hr (by simp [dropAffix?, hdot]), marker?_plain hc, indent_cons hspace]
  rfl

theorem opening_plain_of_head {t : Text} {rest : List Text} (ht : isPlainLine t)
    (hr : ∀ l, rest.head? = some l → IsPrinted l) (fresh : Bool) :
    Opening.of fresh t rest = .paragraph := by
  have hp := IsPrinted.of_plain ht
  obtain ⟨c, s, rfl, hc, -⟩ := isPlainLine_iff.1 ht
  exact opening_of_isLetter hc hp hr fresh

theorem opening_plain {t : Text} {rest : List Text} (ht : isPlainLine t)
    (hr : ∀ l ∈ rest, IsPrinted l) (fresh : Bool) : Opening.of fresh t rest = .paragraph :=
  opening_plain_of_head ht (fun l h => hr l (List.mem_of_head? h)) fresh

theorem opening_shifted {l : Text} {rest : List Text} (hl : IsPrinted l) (hne : l ≠ [])
    (hr : ∀ l ∈ rest, IsPrinted l) (fresh : Bool) :
    Opening.of fresh (shifted 4 l) rest = .quote := by
  have hp := hl.shifted 4
  have hs : shifted 4 l = List.replicate 4 ' ' ++ l := by simp [shifted, hne]
  have hi : 0 < indent (shifted 4 l) := by
    have := le_indent_shifted 4 l
    rw [hs]
    omega
  rw [opening_of_isPrinted hp hr ?_, if_pos hi]
  rw [hs]
  simp [List.replicate_succ, dropAffix?]

/-! ## Markers -/

theorem isDigit_of_ascii {c : Char} (h : c.isDigit) : isDigit c := by
  have hc := isDigit_iff.1 h
  have hs : c.toNat < 128 := by omega
  simp [isDigit, hs, h]

/-- The bullet of a list, which tells it from a list of another kind. -/
def bulletOf (numbered : Bool) : Option Char := if numbered then none else some '-'

private theorem decimal_ne_nil (n : Nat) : decimal n ≠ [] := Nat.toDigits_ne_nil

private theorem numberLabel_decimal (number : Nat) {rest : Text}
    (h : rest.head?.any isDigit = false) : numberLabel (decimal number ++ rest) = decimal number := by
  obtain ⟨d, ds, hd⟩ := List.exists_cons_of_ne_nil (decimal_ne_nil number)
  have hhash : d ≠ '#' := by
    rintro rfl
    simpa using isDigit_of_mem_decimal (n := number) (c := '#') (by simp [hd])
  rw [numberLabel, if_neg (by simp [hd, hhash])]
  exact takeWhile_run (fun d hd => isDigit_of_ascii (isDigit_of_mem_decimal hd)) h

/-- A line that starts with a digit is not bulleted. -/
private theorem bulletMarker?_digit {d : Char} (hd : d.isDigit) (s : Text) :
    bulletMarker? (d :: s) = none := by
  have hno : (d = '-' || d = '*' || d = '+') = false := by
    cases hb : (d = '-' || d = '*' || d = '+' : Bool) with
    | false => rfl
    | true =>
      simp only [Bool.or_eq_true, decide_eq_true_eq] at hb
      rcases hb with (rfl | rfl) | rfl <;> simp at hd
  unfold bulletMarker?
  split
  · next e rest he =>
    obtain rfl : d = e := (List.cons.inj he).1
    simp only [hno, Bool.false_and, Bool.false_eq_true, if_false]
  · rfl

/-- A marker is read off the line of a paragraph. -/
theorem marker?_marked {t : Text} (ht : isPlainLine t) (numbered : Bool) (number : Nat) :
    marker? (markerOf numbered number ++ t) =
      some ⟨bulletOf numbered, (markerOf numbered number).length, t⟩ := by
  obtain ⟨c, s, rfl, hc, -⟩ := isPlainLine_iff.1 ht
  have hspace : c ≠ ' ' := isLetter_ne hc (by decide)
  cases numbered with
  | false => simp [marker?, bulletMarker?, markerOf, bulletOf, hspace]
  | true =>
    have hline : markerOf true number ++ c :: s = decimal number ++ '.' :: ' ' :: c :: s := by
      simp [markerOf]
    have hlength : (markerOf true number).length = (decimal number).length + 2 := by
      simp [markerOf]
    have hbullet : bulletMarker? (decimal number ++ '.' :: ' ' :: c :: s) = none := by
      obtain ⟨d, ds, hd⟩ := List.exists_cons_of_ne_nil (decimal_ne_nil number)
      rw [hd, List.cons_append]
      exact bulletMarker?_digit (isDigit_of_mem_decimal (n := number) (by simp [hd])) _
    have hlabel := @numberLabel_decimal number ('.' :: ' ' :: c :: s) rfl
    have hdot : dropAffix? "." ('.' :: ' ' :: c :: s) = some (' ' :: c :: s) := by
      simp [dropAffix?]
    have hcontent : (' ' :: c :: s).dropWhile (· = ' ') = c :: s := by simp [hspace]
    have hwidth : (Utf8.encode (decimal number)).length = (decimal number).length :=
      Utf8.length_encode_of_ascii fun d hd => by
        have := isDigit_iff.1 (isDigit_of_mem_decimal hd)
        omega
    rw [hline, marker?, hbullet, hlength]
    simp only [numberMarker?, hlabel, List.drop_left, hdot, hcontent, Option.bind_eq_bind,
      Option.bind_some, List.head?_cons, isBlank_of_isLetter hc, hwidth, bulletOf]
    simp [decimal_ne_nil]

theorem head_markerOf (numbered : Bool) (number : Nat) :
    ∃ c s, markerOf numbered number = c :: s ∧ (c = '-' ∨ c.isDigit) := by
  cases numbered with
  | false => exact ⟨'-', [' '], by simp [markerOf], .inl rfl⟩
  | true =>
    obtain ⟨d, ds, hd⟩ := List.exists_cons_of_ne_nil (decimal_ne_nil number)
    exact ⟨d, ds ++ ". ", by simp [markerOf, hd],
      .inr (isDigit_of_mem_decimal (n := number) (by simp [hd]))⟩

theorem indent_marked (numbered : Bool) (number : Nat) (t : Text) :
    indent (markerOf numbered number ++ t) = 0 := by
  obtain ⟨c, s, hm, hc⟩ := head_markerOf numbered number
  have hspace : c ≠ ' ' := by
    rintro rfl
    simp at hc
  rw [hm, List.cons_append, indent_cons hspace]

theorem opening_marked {t : Text} {rest : List Text} (ht : isPlainLine t)
    (hr : ∀ l ∈ rest, IsPrinted l) (numbered : Bool) (number : Nat) (fresh : Bool) :
    Opening.of fresh (markerOf numbered number ++ t) rest = .list (bulletOf numbered) := by
  have hp := (IsPrinted.of_plain ht).marked (ne_nil_of_isPlainLine ht) numbered number
  have hdots : dropAffix? ".. " (markerOf numbered number ++ t) = none := by
    obtain ⟨c, s, hm, hc⟩ := head_markerOf numbered number
    have hdot : '.' ≠ c := by
      rintro rfl
      simp at hc
    simp [hm, dropAffix?, hdot]
  rw [opening_of_isPrinted hp hr hdots, marker?_marked ht, indent_marked]
  rfl

/-! ## Lines moved to the right -/

theorem shifted_eq_nil_iff {n : Nat} {l : Text} : shifted n l = [] ↔ l = [] := by
  unfold shifted
  split <;> simp_all

theorem drop_shifted (n : Nat) (l : Text) : (shifted n l).drop n = l := by
  unfold shifted
  split
  · next h => simp [h]
  · simp

theorem le_indent_of_shifted (n : Nat) {l : Text} (h : l ≠ []) : n ≤ indent (shifted n l) := by
  rw [shifted, if_neg h]
  exact le_indent_shifted n l

/-- Nothing follows, or a blank line and then a line without a margin. -/
def IsOutside (tail : List Text) : Prop :=
  tail = [] ∨ ∃ l rest, tail = [] :: l :: rest ∧ l ≠ [] ∧ indent l = 0

/-- The last of some lines is not blank. -/
def EndsInText (ls : List Text) : Prop := ∃ l, ls.getLast? = some l ∧ l ≠ []

private theorem withoutBlankEnd_append {ls blanks : List Text} (h : EndsInText ls)
    (hb : ∀ l ∈ blanks, l = []) : withoutBlankEnd (ls ++ blanks) = ls := by
  obtain ⟨l, hl, hne⟩ := h
  rw [withoutBlankEnd, List.reverse_append, dropWhile_run, List.reverse_reverse]
  · intro k hk
    simpa using hb k (List.mem_reverse.1 hk)
  · simpa [List.head?_reverse, hl] using hne

theorem EndsInText.map_shifted {ls : List Text} (h : EndsInText ls) (n : Nat) :
    EndsInText (ls.map (shifted n)) := by
  obtain ⟨l, hl, hne⟩ := h
  exact ⟨shifted n l, by simp [List.getLast?_map, hl], by rwa [Ne, shifted_eq_nil_iff]⟩

/-- Some line that is not blank has no margin. -/
def TouchesMargin (ls : List Text) : Prop := ∃ l ∈ ls, l ≠ [] ∧ indent l = 0

private theorem margin_shifted (n : Nat) {ls : List Text} (h : TouchesMargin ls) :
    margin (ls.map (shifted n)) = n := by
  obtain ⟨l, hl, hne, hzero⟩ := h
  have hi : indent (shifted n l) = n := by
    obtain ⟨c, s, rfl⟩ := List.exists_cons_of_ne_nil hne
    have hc : c ≠ ' ' := by
      rintro rfl
      simp [indent] at hzero
    rw [shifted, if_neg hne, indent_shifted n hc s]
  have hmin : (((ls.map (shifted n)).filter (· ≠ [])).map indent).min? = some n := by
    rw [List.min?_eq_some_iff]
    constructor
    · refine List.mem_map.2 ⟨shifted n l, List.mem_filter.2 ⟨List.mem_map_of_mem hl, ?_⟩, hi⟩
      simpa [shifted_eq_nil_iff] using hne
    · intro k hk
      obtain ⟨m, hm, rfl⟩ := List.mem_map.1 hk
      simp only [List.mem_filter, decide_eq_true_eq] at hm
      obtain ⟨j, -, rfl⟩ := List.mem_map.1 hm.1
      exact le_indent_of_shifted n fun h => hm.2 (shifted_eq_nil_iff.2 h)
  rw [margin, hmin]
  rfl

theorem isInside_shifted {n : Nat} (hn : 0 < n) (l : Text) : isInside (shifted n l) := by
  by_cases hl : l = []
  · simp [isInside, shifted, hl]
  · have := le_indent_of_shifted n hl
    have hpos : 0 < indent (shifted n l) := by omega
    simp [isInside, hpos]

/-- An indented block is taken off as the lines that were moved to the right, moved back, if one of
them touches the margin then: deeper lines keep what they have beyond it. -/
theorem indented_map_shifted {n : Nat} {ls tail : List Text} (hn : 0 < n) (hm : TouchesMargin ls)
    (hend : EndsInText ls) (htail : IsOutside tail) :
    indented (ls.map (shifted n) ++ tail) = ls ∧
      afterIndented (ls.map (shifted n) ++ tail) = tail.dropWhile (· = []) := by
  have hinside : ∀ l ∈ ls.map (shifted n), isInside l := by
    intro l hl
    obtain ⟨k, -, rfl⟩ := List.mem_map.1 hl
    exact isInside_shifted hn k
  have hblank : (∀ l ∈ tail.takeWhile isInside, l = []) ∧
      tail.dropWhile isInside = tail.dropWhile (· = []) := by
    rcases htail with rfl | ⟨l, rest, rfl, hl, hi⟩
    · simp
    · simp [isInside, hl, hi]
  constructor
  · rw [indented, List.takeWhile_append_of_pos hinside]
    simp only [withoutBlankEnd_append (hend.map_shifted n) hblank.1, margin_shifted n hm,
      List.map_map]
    simp only [Function.comp_def, drop_shifted, List.map_id']
  · rw [afterIndented, List.dropWhile_append_of_pos hinside, hblank.2]

/-- Lines whose first touches the margin. -/
theorem indented_shifted {n : Nat} (hn : 0 < n) {c : Char} {s : Text} {ls tail : List Text}
    (hc : c ≠ ' ') (hend : EndsInText ((c :: s) :: ls)) (htail : IsOutside tail) :
    indented (((c :: s) :: ls).map (shifted n) ++ tail) = (c :: s) :: ls ∧
      afterIndented (((c :: s) :: ls).map (shifted n) ++ tail) = tail.dropWhile (· = []) :=
  indented_map_shifted hn ⟨c :: s, by simp, by simp, indent_cons hc s⟩ hend htail

/-- Whether the first line that is not blank belongs to an item of a width. -/
private theorem find?_shifted {n : Nat} {ls : List Text} (h : ∃ l ∈ ls, l ≠ []) (after : List Text) :
    ((ls.map (shifted n) ++ after).find? (· ≠ [])).any (n ≤ indent ·) := by
  obtain ⟨l, hl, hne⟩ := h
  rw [List.find?_append]
  cases hf : (ls.map (shifted n)).find? (· ≠ []) with
  | none =>
    have := List.find?_eq_none.1 hf (shifted n l) (List.mem_map_of_mem hl)
    simp [shifted_eq_nil_iff, hne] at this
  | some k =>
    obtain ⟨j, -, rfl⟩ := List.mem_map.1 (List.mem_of_find?_eq_some hf)
    have hk : shifted n j ≠ [] := by simpa using List.find?_some hf
    simpa using le_indent_of_shifted n fun hj => hk (shifted_eq_nil_iff.2 hj)

/-- The lines that continue an item are taken off, moved back. -/
theorem continuation_shifted {n : Nat} {ls after : List Text}
    (hend : ls = [] ∨ EndsInText ls)
    (hafter : (after.find? (· ≠ [])).any (n ≤ indent ·) = false) :
    continuation n (ls.map (shifted n) ++ after) = (ls, after) := by
  induction ls with
  | nil =>
    cases after with
    | nil => rfl
    | cons a as => simp only [List.map_nil, List.nil_append, continuation, continues, hafter]; rfl
  | cons l ls ih =>
    obtain ⟨k, hk, hne⟩ := hend.resolve_left (by simp)
    have hcont : continues n (shifted n l) (ls.map (shifted n) ++ after) := by
      rw [continues]
      exact find?_shifted (n := n) ⟨k, List.mem_of_getLast? hk, hne⟩ after
    have hls : ls = [] ∨ EndsInText ls := by
      cases ls with
      | nil => exact .inl rfl
      | cons m ls => exact .inr ⟨k, by simpa using hk, hne⟩
    simp only [List.map_cons, List.cons_append, continuation, hcont, if_true, ih hls, drop_shifted]

end Slideshow.Restructured
