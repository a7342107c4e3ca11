import Slideshow.Proofs.DocumentMeaning
import Slideshow.Proofs.NotesWords

/-!
# Documents of sections

A section has an underlined title and paragraphs of one line each. The level of a section is the
place of its adornment among those of the document, in the order in which they are first met.
-/
namespace Slideshow.Restructured
open Text Markup

structure Section where
  title : Text
  adornment : Char
  paragraphs : List Text
  deriving Repr

/-- The line of the HTML of a paragraph. -/
def paragraphHtml (t : Text) : Text := "<p>" ++ escaped t ++ "</p>"

/-- A punctuation character of ASCII. -/
def isAdornmentChar (c : Char) : Bool := 33 ≤ c.toNat && c.toNat ≤ 126 && !c.isAlphanum

namespace Section

/-- Plain lines under a plain title that does not announce presenter notes. -/
def isWellFormed (s : Section) : Bool :=
  isPlainLine s.title && !announcesNotes s.title && isAdornmentChar s.adornment
    && s.paragraphs.all isPlainLine

/-! ## The printed form -/

/-- An adornment that is as long as the title, but not shorter than four characters. -/
def underline (s : Section) : Text := List.replicate (max 4 s.title.length) s.adornment

def lines (s : Section) : List Text := s.title :: s.underline :: s.paragraphs.flatMap ([[], ·])

/-! ## What it means -/

/-- The level among the adornments of a document; the sixth stands for all deeper ones. -/
def level (adornments : List Char) (s : Section) : Nat :=
  min (adornments.idxOf s.adornment + 1) 6

def heading (adornments : List Char) (s : Section) : Text :=
  "<h" ++ decimal (s.level adornments) ++ ">" ++ escaped s.title
    ++ "</h" ++ decimal (s.level adornments) ++ ">"

def body (s : Section) : List Text := s.paragraphs.map paragraphHtml

/-- The lines of the HTML of a section. -/
def html (adornments : List Char) (s : Section) : List Text := s.heading adornments :: s.body

def blocks (adornments : List Char) (s : Section) : List Block :=
  .title (adornments.idxOf s.adornment + 1) s.title :: s.paragraphs.map .paragraph

end Section

/-- The lines of some sections, with one blank line between them. -/
def sectionLines : List Section → List Text
  | [] => []
  | s :: ss => s.lines ++ if ss.isEmpty then [] else [] :: sectionLines ss

def printedSections (ss : List Section) : Text := unlines (sectionLines ss)

/-- The adornments of some sections, each at its first place. -/
def adornmentsOf (ss : List Section) : List Char := (ss.map (·.adornment)).eraseDups

/-! ## Things in the order in which they are met -/

section Met
variable {α : Type} [BEq α] [LawfulBEq α]

/-- What is known after one more thing was met. -/
def met (known : List α) (a : α) : List α := if a ∈ known then known else known ++ [a]

theorem mem_met (known : List α) (a : α) : a ∈ met known a := by
  unfold met
  split
  · assumption
  · simp

theorem foldl_met (known as : List α) :
    as.foldl met known = known ++ (as.filter (· ∉ known)).eraseDups := by
  induction as generalizing known with
  | nil => simp
  | cons a as ih =>
    rw [List.foldl_cons, ih, met]
    split
    · next ha => simp [ha]
    · next ha =>
      have hfilter : as.filter (· ∉ known ++ [a]) =
          (as.filter (· ∉ known)).filter (fun b => !b == a) := by
        rw [List.filter_filter]
        refine List.filter_congr fun b _ => ?_
        by_cases hb : b = a <;> simp [hb]
      rw [hfilter, List.filter_cons_of_pos (by simpa using ha), List.eraseDups_cons,
        List.append_assoc]
      rfl

theorem mem_foldl_met {a : α} {as : List α} (h : a ∈ as) (known : List α) :
    a ∈ as.foldl met known := by
  rw [foldl_met]
  by_cases ha : a ∈ known <;> simp [ha, h]

/-- What is known keeps its place. -/
theorem idxOf_foldl_met {a : α} {known : List α} (h : a ∈ known) (as : List α) :
    (as.foldl met known).idxOf a = known.idxOf a := by
  rw [foldl_met, List.idxOf_append_of_mem h]

end Met

/-- The rank of a style is its place among those known when it is met. -/
theorem rankOf_eq (known : List Style) (style : Style) :
    rankOf known style = ((met known style).idxOf style + 1, met known style) := by
  rw [rankOf, met]
  cases h : known.idxOf? style with
  | none =>
    have hnot : style ∉ known := List.idxOf?_eq_none_iff.1 h
    simp [hnot, List.idxOf_append_of_notMem]
  | some i =>
    have hmem : style ∈ known := by
      by_contra hnot
      simp [List.idxOf?_eq_none_iff.2 hnot] at h
    simp [hmem, List.idxOf_eq_getD_idxOf?, h]

/-- The styles of underlined titles. -/
def underlinedStyles (cs : List Char) : List Style := cs.map (⟨·, false⟩)

private theorem idxOf_underlinedStyles (known : List Char) (c : Char) :
    (underlinedStyles known).idxOf ⟨c, false⟩ = known.idxOf c := by
  induction known with
  | nil => rfl
  | cons d known ih =>
    rw [underlinedStyles] at ih ⊢
    by_cases hd : d = c
    · simp [hd]
    · have hne : (⟨d, false⟩ : Style) ≠ ⟨c, false⟩ := by simpa using hd
      rw [List.map_cons, List.idxOf_cons_ne _ hne, List.idxOf_cons_ne _ hd, ih]

theorem rankOf_underlined (known : List Char) (c : Char) :
    rankOf (underlinedStyles known) ⟨c, false⟩ =
      ((met known c).idxOf c + 1, underlinedStyles (met known c)) := by
  have hmet : met (underlinedStyles known) ⟨c, false⟩ = underlinedStyles (met known c) := by
    unfold met underlinedStyles
    by_cases hc : c ∈ known <;> simp [hc]
  rw [rankOf_eq, hmet, idxOf_underlinedStyles]

/-! ## Reading a section -/

namespace Section
variable {s : Section}

theorem isWellFormed_iff : s.isWellFormed ↔ isPlainLine s.title ∧ announcesNotes s.title = false ∧
    isAdornmentChar s.adornment ∧ ∀ t ∈ s.paragraphs, isPlainLine t := by
  simp [isWellFormed, and_assoc]

theorem underline_eq (s : Section) :
    s.underline = s.adornment :: List.replicate (max 4 s.title.length - 1) s.adornment := by
  rw [← List.replicate_succ, underline]
  congr
  omega

theorem isAdornment_underline (h : s.isWellFormed) : isAdornment 2 s.underline := by
  obtain ⟨-, -, hc, -⟩ := isWellFormed_iff.1 h
  simp only [isAdornmentChar, Bool.and_eq_true, decide_eq_true_eq] at hc
  simp [underline_eq, isAdornment, hc]

theorem opening_title (h : s.isWellFormed) (fresh : Bool) (rest : List Text) :
    Opening.of fresh s.title (s.underline :: rest) = .title ⟨s.adornment, false⟩ s.title rest := by
  obtain ⟨ht, -, -, -⟩ := isWellFormed_iff.1 h
  have hunder := isAdornment_underline h
  have htitle := isAdornment_of_isPrinted (IsPrinted.of_plain ht) 2
  have hlen : s.title.length ≤ s.underline.length := by
    rw [underline, List.length_replicate]
    omega
  have hover : overlinedTitle? s.title (s.underline :: rest) = none := by
    unfold overlinedTitle?
    split
    · simp [htitle]
    · rfl
  have hindent : indent s.title = 0 := by
    obtain ⟨c, t, he, hc, -⟩ := isPlainLine_iff.1 ht
    rw [he, indent_cons (isLetter_ne hc (by decide))]
  rw [underline_eq] at hunder hlen hover ⊢
  simp only [Opening.of, hover, underlinedTitle?, hindent, htitle, hunder, hlen, trim_plain ht]
  rfl

end Section

/-- Nothing follows, or a blank line. -/
def StopsHere (ls : List Text) : Prop := ls.head?.all (· = [])

private theorem stopsHere_paragraphs (ts : List Text) {rest : List Text} (h : StopsHere rest) :
    StopsHere (ts.flatMap ([[], ·]) ++ rest) := by
  cases ts with
  | nil => exact h
  | cons t ts => simp [StopsHere]

/-- Paragraphs with a blank line before each of them are read as paragraphs. -/
theorem blocks_paragraphs {ts : List Text} (h : ∀ t ∈ ts, isPlainLine t) {rest : List Text}
    (hrest : StopsHere rest) (styles : List Style) (fresh : Bool) :
    blocks styles false fresh (ts.flatMap ([[], ·]) ++ rest) =
      ((blocks styles false false rest).1,
        ts.map .paragraph ++ (blocks styles false false rest).2) := by
  induction ts generalizing fresh with
  | nil =>
    cases rest with
    | nil => simp
    | cons l rest =>
      obtain rfl : l = [] := by simpa [StopsHere] using hrest
      simp
  | cons t ts ih =>
    have ht := h t (by simp)
    have hts := ih (fun k hk => h k (List.mem_cons_of_mem t hk)) false
    have hstop := stopsHere_paragraphs ts hrest
    rw [List.flatMap_cons, List.append_assoc]
    generalize ts.flatMap ([[], ·]) ++ rest = behind at hts hstop ⊢
    have hopen := opening_plain_of_head ht (fun l (hl : behind.head? = some l) => by
      obtain rfl : l = [] := by simpa [StopsHere, hl] using hstop
      exact .nil) true
    have hcut : behind.takeWhile (· ≠ []) = [] ∧ behind.dropWhile (· ≠ []) = behind := by
      cases behind with
      | nil => simp
      | cons l behind =>
        obtain rfl : l = [] := by simpa [StopsHere] using hstop
        simp
    rw [List.cons_append, blocks_blank, List.cons_append, List.nil_append,
      blocks_paragraph (ne_nil_of_isPlainLine ht) (by simp) hopen, hcut.1, hcut.2,
      paragraphOf_plain ht, hts]
    rfl

/-- The lines of sections are read as titles and paragraphs; a title has the rank of its adornment
among those that are known in the end. -/
theorem blocks_sectionLines {ss : List Section} (h : ∀ s ∈ ss, s.isWellFormed) (known : List Char)
    (fresh : Bool) :
    let all := (ss.map (·.adornment)).foldl met known
    blocks (underlinedStyles known) false fresh (sectionLines ss) =
      (underlinedStyles all, ss.flatMap (·.blocks all)) := by
  induction ss generalizing known fresh with
  | nil => simp [sectionLines]
  | cons s ss ih =>
    have hs := h s (by simp)
    have hss := ih fun k hk => h k (List.mem_cons_of_mem s hk)
    obtain ⟨ht, -, -, hparagraphs⟩ := Section.isWellFormed_iff.1 hs
    set tail : List Text := if ss.isEmpty then [] else [] :: sectionLines ss with htail
    have hstop : StopsHere tail := by
      rw [htail]
      split <;> simp [StopsHere]
    have hbehind : ∀ styles, blocks styles false false tail =
        blocks styles false true (sectionLines ss) := by
      intro styles
      rw [htail]
      cases ss with
      | nil => simp [sectionLines]
      | cons k ss => simp
    have hlines : sectionLines (s :: ss) =
        s.title :: s.underline :: (s.paragraphs.flatMap ([[], ·]) ++ tail) := rfl
    intro all
    have hrank : all.idxOf s.adornment = (met known s.adornment).idxOf s.adornment :=
      idxOf_foldl_met (mem_met known s.adornment) _
    rw [hlines, blocks_title (ne_nil_of_isPlainLine ht) (by simp) (Section.opening_title hs fresh _),
      rankOf_underlined, blocks_paragraphs hparagraphs hstop, hbehind, hss (met known s.adornment) true,
      List.flatMap_cons, Section.blocks, hrank]
    rfl

/-! ## The whole document -/

theorem mem_sectionLines {ss : List Section} {l : Text} (h : l ∈ sectionLines ss) :
    l = [] ∨ ∃ s ∈ ss, l = s.title ∨ l = s.underline ∨ l ∈ s.paragraphs := by
  induction ss with
  | nil => simp [sectionLines] at h
  | cons s ss ih =>
    simp only [sectionLines, Section.lines, List.mem_append, List.mem_cons, List.mem_flatMap] at h
    rcases h with (rfl | rfl | ⟨t, ht, rfl | rfl | h⟩) | h
    · exact .inr ⟨s, by simp, .inl rfl⟩
    · exact .inr ⟨s, by simp, .inr (.inl rfl)⟩
    · exact .inl rfl
    · exact .inr ⟨s, by simp, .inr (.inr ht)⟩
    · simp at h
    · split at h
      · simp at h
      · rcases List.mem_cons.1 h with rfl | h
        · exact .inl rfl
        · rcases ih h with rfl | ⟨k, hk, h⟩
          · exact .inl rfl
          · exact .inr ⟨k, by simp [hk], h⟩

/-- The characters of an underline are neither white space nor breaks. -/
private theorem Section.of_mem_underline {s : Section} (h : s.isWellFormed) {c : Char}
    (hc : c ∈ s.underline) : c ≠ '\n' ∧ c ≠ '\t' ∧ isBlank c = false := by
  obtain ⟨-, -, ha, -⟩ := Section.isWellFormed_iff.1 h
  obtain rfl : c = s.adornment := List.eq_of_mem_replicate hc
  simp only [isAdornmentChar, Bool.and_eq_true, decide_eq_true_eq] at ha
  have hblank : isBlank s.adornment = false := by
    rw [Bool.eq_false_iff]
    intro hb
    have hwide := wideBlanks_ge
    rcases isBlank_iff.1 hb with hb | hb | hb
    · omega
    · omega
    · have := hwide _ hb
      omega
  refine ⟨?_, ?_, hblank⟩
  · intro he
    simp [he, show isBlank '\n' by decide] at hblank
  · intro he
    simp [he, show isBlank '\t' by decide] at hblank

private theorem endsInText_section {s : Section} (h : s.isWellFormed) : EndsInText s.lines := by
  obtain ⟨-, -, -, hparagraphs⟩ := Section.isWellFormed_iff.1 h
  rcases List.eq_nil_or_concat s.paragraphs with hp | ⟨ts, t, hp⟩
  · refine ⟨s.underline, by simp [Section.lines, hp], ?_⟩
    rw [Section.underline, Ne, List.replicate_eq_nil_iff]
    omega
  · rw [List.concat_eq_append] at hp
    have ht := hparagraphs t (by simp [hp])
    have hlines : s.lines = (s.title :: s.underline :: ts.flatMap ([[], ·]) ++ [[]]) ++ [t] := by
      simp [Section.lines, hp]
    exact ⟨t, by rw [hlines, List.getLast?_concat], ne_nil_of_isPlainLine ht⟩

private theorem endsInText_sectionLines {s : Section} {ss : List Section}
    (h : ∀ k ∈ s :: ss, k.isWellFormed) : EndsInText (sectionLines (s :: ss)) := by
  induction ss generalizing s with
  | nil => simpa [sectionLines] using endsInText_section (h s (by simp))
  | cons k ss ih =>
    have hrest := ih fun m hm => h m (List.mem_cons_of_mem s hm)
    rw [sectionLines]
    exact (hrest.append [[]]).append s.lines

/-- Sections are read line by line as they were printed. -/
theorem linesOf_printedSections {ss : List Section} (h : ∀ s ∈ ss, s.isWellFormed) :
    linesOf (printedSections ss) = sectionLines ss := by
  refine linesOf_unlines (fun l hl => ?_) ?_
  · rcases mem_sectionLines hl with rfl | ⟨s, hs, hl⟩
    · exact .nil
    · obtain ⟨ht, -, -, hparagraphs⟩ := Section.isWellFormed_iff.1 (h s hs)
      rcases hl with rfl | rfl | hl
      · exact (IsPrinted.of_plain ht).clean
      · refine ⟨fun hc => (Section.of_mem_underline (h s hs) hc).1 rfl,
          fun hc => (Section.of_mem_underline (h s hs) hc).2.1 rfl, ?_⟩
        cases hlast : s.underline.getLast? with
        | none => rfl
        | some c => exact (Section.of_mem_underline (h s hs) (List.mem_of_getLast? hlast)).2.2
      · exact (IsPrinted.of_plain (hparagraphs l hl)).clean
  · cases ss with
    | nil => rfl
    | cons s ss =>
      obtain ⟨l, hl, hne⟩ := endsInText_sectionLines h
      simpa [hl] using hne

/-- The blocks of some sections, with the ranks that their adornments have in the document. -/
theorem ofSource_printedSections {ss : List Section} (h : ∀ s ∈ ss, s.isWellFormed) :
    Block.ofSource (printedSections ss) = ss.flatMap (·.blocks (adornmentsOf ss)) := by
  have hall : (ss.map (·.adornment)).foldl met [] = adornmentsOf ss := by
    simp [foldl_met, adornmentsOf]
  have hblocks := blocks_sectionLines h [] true
  rw [hall] at hblocks
  rw [Block.ofSource, linesOf_printedSections h]
  exact congrArg Prod.snd hblocks

end Slideshow.Restructured
