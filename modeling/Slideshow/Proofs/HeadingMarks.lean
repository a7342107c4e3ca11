import Slideshow.Markup.Tag
import Slideshow.Proofs.NotesBoundary
import Mathlib.Data.List.Basic

/-!
# Where headings are read

The headings that matter to a slide are found by trying every place of a text. Such a place holds a
mark, the start of an open or close tag of a heading, and has a bracket behind it. What is read
there is settled by the letters up to that bracket and by what is read behind it.
-/
namespace Slideshow.Markup
open Text

/-! ## Marks -/

/-- A word in any case and a digit from one to six. -/
def isNumbered (word s : Text) : Bool :=
  (dropWord? word s).any fun v => v.head?.any fun d => (headingDigit? d).isSome

/-- The start of an open or close tag of a heading, in any case. -/
def startsMark (s : Text) : Bool := isNumbered "<h" s || isNumbered "</h" s

def holdsMark : Text → Bool
  | [] => false
  | c :: s => startsMark (c :: s) || holdsMark s

theorem isNumbered_cons (letter c : Char) (word s : Text) :
    isNumbered (letter :: word) (c :: s) = (isCaseOf letter c && isNumbered word s) := by
  cases h : isCaseOf letter c <;> simp [isNumbered, dropWord?, h]

theorem isNumbered_append {word s : Text} (h : isNumbered word s) (u : Text) :
    isNumbered word (s ++ u) := by
  obtain ⟨v, hv, hdigit⟩ := (Option.any_eq_true ..).1 h
  rw [isNumbered, dropWord?_append hv]
  cases v with
  | nil => simp at hdigit
  | cons d v => exact hdigit

/-- A character that is neither in the word nor a digit ends what is looked at. -/
theorem isNumbered_stop {word : Text} {c : Char} (hword : ∀ l ∈ word, isCaseOf l c = false)
    (hc : headingDigit? c = none) (s u : Text) :
    isNumbered word (s ++ c :: u) = isNumbered word s := by
  rw [isNumbered, dropWord?_stop hword, isNumbered]
  cases dropWord? word s with
  | none => rfl
  | some v =>
    cases v with
    | nil => simp [hc]
    | cons d v => rfl

theorem startsMark_of_append {s u : Text} (h : startsMark (s ++ u) = false) :
    startsMark s = false := by
  rw [startsMark, Bool.or_eq_false_iff] at h ⊢
  exact ⟨Bool.eq_false_iff.2 fun hs => Bool.eq_false_iff.1 h.1 (isNumbered_append hs u),
    Bool.eq_false_iff.2 fun hs => Bool.eq_false_iff.1 h.2 (isNumbered_append hs u)⟩

theorem startsMark_cons (c : Char) (s : Text) :
    startsMark (c :: s) = (isCaseOf '<' c && (isNumbered ['h'] s || isNumbered ['/', 'h'] s)) := by
  rw [startsMark, ofString_eq, ofString_eq, Bool.and_or_distrib_left]
  exact congrArg₂ or (isNumbered_cons ..) (isNumbered_cons ..)

theorem startsMark_of_ne {c : Char} (hc : c ≠ '<') (s : Text) : startsMark (c :: s) = false := by
  rw [startsMark_cons, not_isCaseOf (by decide) hc, Bool.false_and]

/-- What ends plain text, a comment or a tag is no part of a mark that has begun. -/
theorem startsMark_stop {c : Char} (hc : c = '<' ∨ c = '-' ∨ c = '>') (a : Char) (s u : Text) :
    startsMark (a :: (s ++ c :: u)) = startsMark (a :: s) := by
  have hletters : isCaseOf 'h' c = false ∧ isCaseOf '/' c = false ∧ headingDigit? c = none := by
    rcases hc with rfl | rfl | rfl <;> decide
  obtain ⟨hh, hslash, hdigit⟩ := hletters
  rw [startsMark_cons, startsMark_cons, isNumbered_stop (by simpa using hh) hdigit,
    isNumbered_stop (by simpa using ⟨hslash, hh⟩) hdigit]

/-- Marks in plain text end before the next bracket. -/
theorem startsMark_takeWhile (c : Char) (s : Text) :
    startsMark (c :: s.takeWhile (· ≠ '<')) = startsMark (c :: s) := by
  conv => rhs; rw [← List.takeWhile_append_dropWhile (l := s) (p := fun c => decide (c ≠ '<'))]
  cases hd : s.dropWhile (· ≠ '<') with
  | nil => rw [List.append_nil]
  | cons d v =>
    obtain rfl : d = '<' := by
      have hnot := List.head?_dropWhile_not (fun c => decide (c ≠ '<')) s
      rw [hd] at hnot
      simpa using hnot
    rw [startsMark_stop (.inl rfl)]

/-! ## The first place that is read -/

section Scan
variable {β : Type} {read : Text → Option β}

/-- The text before the first place that is read, and what is read there. -/
def scan (read : Text → Option β) : Text → Option (Text × β)
  | [] => none
  | c :: s =>
    match read (c :: s) with
    | some b => some ([], b)
    | none => (scan read s).map fun p => (c :: p.1, p.2)

theorem scan_of_read {s : Text} (hs : s ≠ []) {b : β} (h : read s = some b) :
    scan read s = some ([], b) := by
  obtain ⟨c, s, rfl⟩ := List.exists_cons_of_ne_nil hs
  rw [scan, h]

theorem scan_cons_of_none {c : Char} {s : Text} (h : read (c :: s) = none) :
    scan read (c :: s) = (scan read s).map fun p => (c :: p.1, p.2) := by
  rw [scan, h]

theorem exists_append_of_scan {s : Text} {p : Text × β} (h : scan read s = some p) :
    ∃ u, s = p.1 ++ u := by
  induction s generalizing p with
  | nil => simp [scan] at h
  | cons c s ih =>
    cases hread : read (c :: s) with
    | some b' =>
      rw [scan, hread] at h
      obtain rfl := Option.some.inj h
      exact ⟨c :: s, rfl⟩
    | none =>
      rw [scan_cons_of_none hread] at h
      obtain ⟨q, hscan, rfl⟩ := Option.map_eq_some_iff.1 h
      obtain ⟨u, hu⟩ := ih hscan
      exact ⟨u, congrArg (c :: ·) hu⟩

/-- What is read only where a mark starts and a bracket closes it. -/
structure ReadsMarks (read : Text → Option β) : Prop where
  startsMark : ∀ {s : Text} {b : β}, read s = some b → startsMark s
  closes : ∀ {s : Text} {b : β}, read s = some b → '>' ∈ s

namespace ReadsMarks

theorem scan_eq_none (h : ReadsMarks read) {s : Text} (hs : '>' ∉ s) : scan read s = none := by
  induction s with
  | nil => rfl
  | cons c s ih =>
    have hread : read (c :: s) = none := by
      rw [Option.eq_none_iff_forall_ne_some]
      exact fun b hb => hs (h.closes hb)
    rw [scan_cons_of_none hread, ih fun hm => hs (List.mem_cons_of_mem c hm), Option.map_none]

theorem scan_cons (h : ReadsMarks read) {c : Char} {s : Text}
    (hc : Markup.startsMark (c :: s) = false) :
    scan read (c :: s) = (scan read s).map fun p => (c :: p.1, p.2) := by
  refine scan_cons_of_none ?_
  rw [Option.eq_none_iff_forall_ne_some]
  intro b hb
  simp [h.startsMark hb] at hc

theorem scan_letters (h : ReadsMarks read) {w : Text} (hw : '<' ∉ w) (s : Text) :
    scan read (w ++ s) = (scan read s).map fun p => (w ++ p.1, p.2) := by
  induction w with
  | nil => simp
  | cons c w ih =>
    rw [List.mem_cons, not_or] at hw
    rw [List.cons_append, h.scan_cons (startsMark_of_ne (Ne.symm hw.1) _), ih hw.2, Option.map_map]
    rfl

theorem scan_unmarked (h : ReadsMarks read) {b : Text} (hb : holdsMark b = false) {c : Char}
    (hc : c = '-' ∨ c = '>') (s : Text) :
    scan read (b ++ c :: s) = (scan read (c :: s)).map fun p => (b ++ p.1, p.2) := by
  induction b with
  | nil => simp
  | cons a b ih =>
    rw [holdsMark, Bool.or_eq_false_iff] at hb
    have ha : Markup.startsMark (a :: (b ++ c :: s)) = false := by
      rw [startsMark_stop (.inr hc), hb.1]
    rw [List.cons_append, h.scan_cons ha, ih hb.2, Option.map_map]
    rfl

/-- A comment whose body holds no mark is passed over. -/
theorem scan_comment (h : ReadsMarks read) {b : Text} (hb : holdsMark b = false) (s : Text) :
    scan read ((Token.comment b).source ++ s) =
      (scan read s).map fun p => ((Token.comment b).source ++ p.1, p.2) := by
  have hopen : ∀ u, Markup.startsMark ('<' :: (['!', '-', '-'] ++ u)) = false := fun u => by
    rw [startsMark_cons, List.cons_append, isNumbered_cons, isNumbered_cons]
    rfl
  have hsource : ∀ u, (Token.comment b).source ++ u =
      '<' :: (['!', '-', '-'] ++ (b ++ '-' :: (['-', '>'] ++ u))) := by
    simp [Token.source]
  have hend : scan read ('-' :: (['-', '>'] ++ s)) =
      (scan read s).map fun p => ('-' :: (['-', '>'] ++ p.1), p.2) :=
    h.scan_letters (w := ['-', '-', '>']) (by decide) s
  rw [hsource, h.scan_cons (hopen _), h.scan_letters (by decide),
    h.scan_unmarked hb (.inl rfl), hend]
  simp [hsource, Function.comp_def]

end ReadsMarks

end Scan

theorem cutAtNotes?_eq_scan (s : Text) : cutAtNotes? s = scan notesHeading? s := by
  induction s with
  | nil => rfl
  | cons c s ih =>
    rw [cutAtNotes?, scan, ih]
    cases notesHeading? (c :: s) <;> rfl

theorem cutAtClosing?_eq_scan (s : Text) : cutAtClosing? s = scan closing? s := by
  induction s with
  | nil => rfl
  | cons c s ih =>
    rw [cutAtClosing?, scan, ih]
    cases closing? (c :: s) <;> rfl

theorem Heading.find?_eq_scan (s : Text) : Heading.find? s = scan Heading.read? s := by
  induction s with
  | nil => rfl
  | cons c s ih =>
    rw [Heading.find?, scan, ih]
    cases Heading.read? (c :: s) <;> rfl

/-! ## Close tags and notes headings -/

theorem readsMarks_notesHeading? : ReadsMarks notesHeading? where
  startsMark {s rest} h := by
    simp only [notesHeading?, Option.bind_eq_bind, Option.bind_eq_some_iff] at h
    obtain ⟨v, hv, h⟩ := h
    cases v with
    | nil => simp at h
    | cons d v =>
      obtain ⟨n, hn, -⟩ := Option.bind_eq_some_iff.1 h
      have hopen : isNumbered "<h" s := by
        rw [isNumbered, hv]
        simp [hn]
      rw [Markup.startsMark, hopen, Bool.true_or]
  closes h := by
    obtain ⟨m, rfl, -⟩ := exists_of_notesHeading? h
    simp

theorem closing?_eq_some_iff {s rest : Text} {d : Char} :
    closing? s = some (d, rest) ↔
      s = ['<', '/', 'h', d] ++ '>' :: rest ∧ (headingDigit? d).isSome := by
  constructor
  · intro h
    obtain rfl : s = ['<', '/', 'h', d] ++ '>' :: rest := by simpa using eq_of_closing? h
    refine ⟨rfl, ?_⟩
    cases hd : headingDigit? d with
    | some n => rfl
    | none => simp [closing?, dropAffix?, hd] at h
  · rintro ⟨rfl, hd⟩
    obtain ⟨n, hn⟩ := Option.isSome_iff_exists.1 hd
    simp [closing?, dropAffix?, hn]

theorem readsMarks_closing? : ReadsMarks closing? where
  startsMark {s p} h := by
    obtain ⟨rfl, hd⟩ := closing?_eq_some_iff.1 h
    simp [Markup.startsMark, isNumbered, dropWord?, hd, isCaseOf]
  closes {s p} h := by
    obtain ⟨rfl, -⟩ := closing?_eq_some_iff.1 h
    simp

/-! ## What is read up to a bracket -/

theorem dropAffix?_stop {affix : Text} {c : Char} (hc : c ∉ affix) (u s : Text) :
    dropAffix? affix (u ++ c :: s) = (dropAffix? affix u).map (· ++ c :: s) := by
  induction affix generalizing u with
  | nil => rfl
  | cons a affix ih =>
    rw [List.mem_cons, not_or] at hc
    cases u with
    | nil => simp [dropAffix?, Ne.symm hc.1]
    | cons b u => by_cases hb : a = b <;> simp [dropAffix?, hb, ih hc.2]

/-- The digit of the close tag of a heading, up to its bracket. -/
def closingTag? (x : Text) : Option Char := do
  match ← dropAffix? "</h" x with
  | [d] => (headingDigit? d).map fun _ => d
  | _ => none

theorem closing?_tag {x : Text} (hx : '>' ∉ x) (s : Text) :
    closing? (x ++ '>' :: s) = (closingTag? x).map fun d => (d, s) := by
  have hstop : dropAffix? "</h" (x ++ '>' :: s) = (dropAffix? "</h" x).map (· ++ '>' :: s) :=
    dropAffix?_stop (by simp) x s
  have hnone : headingDigit? '>' = none := by decide
  cases hv : dropAffix? "</h" x with
  | none =>
    rw [hv, Option.map_none] at hstop
    simp only [closing?, closingTag?, hstop, hv]
    rfl
  | some v =>
    rw [hv, Option.map_some] at hstop
    simp only [closing?, closingTag?, hstop, hv, Option.bind_eq_bind, Option.bind_some]
    rw [dropAffix?_eq_some_iff] at hv
    rcases v with _ | ⟨d, _ | ⟨e, v⟩⟩
    · rw [List.nil_append, Option.map_none]
      split
      · next hd =>
        obtain ⟨rfl, -⟩ := List.cons.inj hd
        rw [hnone, Option.map_none]
      · rfl
    · simp [Function.comp_def]
    · have he : e ≠ '>' := by
        rintro rfl
        simp [hv] at hx
      simp [he]

/-- The digit and the attributes of the open tag of a heading, up to its bracket. -/
def headingTag? (x : Text) : Option (Char × Text) := do
  match ← dropAffix? "<h" x with
  | [] => none
  | digit :: attributes =>
    if (headingDigit? digit).isNone || attributes.head?.any isWord then none
    else some (digit, attributes)

/-- A heading is its open tag, up to its bracket, and what is found behind it. -/
theorem Heading.read?_tag {x : Text} (hx : '>' ∉ x) (s : Text) :
    Heading.read? (x ++ '>' :: s) = (headingTag? x).bind fun p =>
      (cutAtClosing? s).map fun q => (⟨p.1, p.2, q.1, q.2.1⟩, q.2.2) := by
  have hstop : dropAffix? "<h" (x ++ '>' :: s) = (dropAffix? "<h" x).map (· ++ '>' :: s) :=
    dropAffix?_stop (by simp) x s
  have hnone : headingDigit? '>' = none := by decide
  cases hv : dropAffix? "<h" x with
  | none =>
    rw [hv, Option.map_none] at hstop
    simp only [Heading.read?, headingTag?, hstop, hv]
    rfl
  | some v =>
    rw [hv, Option.map_some] at hstop
    simp only [Heading.read?, headingTag?, hstop, hv, Option.bind_eq_bind, Option.bind_some]
    rw [dropAffix?_eq_some_iff] at hv
    cases v with
    | nil => simp [hnone]
    | cons d v =>
      have hattributes : ∀ c ∈ v, decide (c ≠ '>') := fun c hc => by
        refine decide_eq_true fun he => hx ?_
        rw [hv, ← he]
        exact List.mem_append_right _ (List.mem_cons_of_mem d hc)
      have hhead : (v ++ '>' :: s).head?.any isWord = v.head?.any isWord := by
        cases v with
        | nil => simp [show isWord '>' = false by decide]
        | cons c v => rfl
      have hend : ('>' :: s).head?.any (fun c => decide (c ≠ '>')) = false := by simp
      have hclose : dropAffix? ">" ('>' :: s) = some s := by simp [dropAffix?]
      rw [List.cons_append]
      simp only [hhead, takeWhile_run hattributes hend, dropWhile_run hattributes hend, hclose,
        Option.bind_some]
      split
      · rfl
      · cases cutAtClosing? s <;> rfl

theorem Heading.readsMarks_read? : ReadsMarks Heading.read? where
  startsMark {s p} h := by
    simp only [Heading.read?, Option.bind_eq_bind, Option.bind_eq_some_iff,
      dropAffix?_eq_some_iff] at h
    obtain ⟨v, rfl, h⟩ := h
    cases v with
    | nil => simp at h
    | cons d v =>
      cases hd : headingDigit? d with
      | none => simp [hd] at h
      | some n => simp [Markup.startsMark, isNumbered, dropWord?, isCaseOf, hd]
  closes {s p} h := by
    rw [Heading.eq_source_append_of_read? h]
    simp [Heading.source]

end Slideshow.Markup
