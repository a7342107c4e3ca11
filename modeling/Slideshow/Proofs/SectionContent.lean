import Slideshow.Slide.Extract
import Slideshow.Proofs.SectionFragments
import Slideshow.Proofs.UntouchedContent

/-!
# The heading and the content of a slide of sections

The lines of a slide hold nothing that a pass looks for and no notes heading: what an angle bracket
starts there is the tag of a heading, the tag of a paragraph with a letter behind it, or a close tag.
So a slide is taken apart into the heading of its section and the lines behind it.
-/
namespace Slideshow.Restructured
open Text Markup Forest

/-! ## What the angle brackets of a line start -/

/-- The front of a text is neither something that a pass looks for nor a notes heading. -/
structure IsInert (u : Text) : Prop where
  code : dropAffix? "<pre" u = none
  image : dropAffix? "<img" u = none
  directive : dropAffix? "<p>." u = none
  notes : notesHeading? u = none

private theorem notesHeading?_of_ne {c : Char} (hc : isCaseOf 'h' c = false) (s : Text) :
    notesHeading? ('<' :: c :: s) = none := by
  simp [notesHeading?, dropWord?, hc]

private theorem isInert_closing (s : Text) : IsInert ('<' :: '/' :: s) where
  code := by simp [dropAffix?]
  image := by simp [dropAffix?]
  directive := by simp [dropAffix?]
  notes := notesHeading?_of_ne (by decide) s

private theorem escapedChar_of_isLetter {c : Char} (h : isLetter c) : escapedChar c = [c] := by
  have hamp : c ≠ '&' := isLetter_ne h (by decide)
  have hlt : c ≠ '<' := isLetter_ne h (by decide)
  have hgt : c ≠ '>' := isLetter_ne h (by decide)
  unfold escapedChar
  split
  · exact absurd rfl hamp
  · exact absurd rfl hlt
  · exact absurd rfl hgt
  · rfl

/-- A plain line still starts with its letter when it is escaped. -/
theorem head_escaped {t : Text} (h : isPlainLine t) : ∃ c s, escaped t = c :: s ∧ isLetter c := by
  obtain ⟨c, s, rfl, hc, -⟩ := isPlainLine_iff.1 h
  exact ⟨c, escaped s, by rw [escaped_cons, escapedChar_of_isLetter hc]; rfl, hc⟩

private theorem bracket_not_mem_escaped (t : Text) : '<' ∉ escaped t :=
  fun h => (mem_escaped h).1 rfl

theorem atBrackets_paragraphHtml {t : Text} (h : isPlainLine t) :
    AtBrackets IsInert (paragraphHtml t) := by
  obtain ⟨c, s, hs, hc⟩ := head_escaped h
  have hdot : '.' ≠ c := (isLetter_ne hc (by decide)).symm
  have hline : paragraphHtml t = '<' :: ('p' :: '>' :: escaped t ++ '<' :: '/' :: ['p', '>']) := by
    simp [paragraphHtml]
  rw [hline]
  refine .bracket (.append (.of_not_mem (by simp [bracket_not_mem_escaped]))
    (.bracket (.of_not_mem (by simp)) fun tail => ?_)) fun tail => ?_
  · exact isInert_closing _
  · refine ⟨?_, ?_, ?_, ?_⟩
    · simp [dropAffix?]
    · simp [dropAffix?]
    · simp [dropAffix?, hs, hdot]
    · exact notesHeading?_of_ne (by decide) _

/-- The heading of a section announces no notes. -/
theorem atBrackets_heading {s : Section} (h : s.isWellFormed) (adornments : List Char) :
    AtBrackets IsInert (s.heading adornments) := by
  obtain ⟨-, hnotes, -, -⟩ := Section.isWellFormed_iff.1 h
  have hname := Section.headingLevel?_name adornments s
  have hdigits : '<' ∉ decimal (s.level adornments) := fun hd => by
    simpa using isDigit_of_mem_decimal hd
  have hline : s.heading adornments = '<' :: ('h' :: decimal (s.level adornments) ++ '>' ::
      escaped s.title ++ '<' :: '/' :: ('h' :: decimal (s.level adornments) ++ ['>'])) := by
    simp [Section.heading]
  have hread : ∀ tail, notesHeading? (s.heading adornments ++ tail) = none := by
    intro tail
    have helement := @notesHeading?_element _ [] [.text (escaped s.title)] _ hname (by simp [isInTag])
      (by simp [isWellFormed, Node.isWellFormed, bracket_not_mem_escaped]) tail
    simp [plainText?, announcesNotes_escaped hnotes, html, Node.html, opened, closed] at helement
    simpa [Section.heading] using helement
  rw [hline] at hread ⊢
  refine .bracket (.append (.of_not_mem (by simp [bracket_not_mem_escaped, hdigits]))
    (.bracket (.of_not_mem (by simp [hdigits])) fun tail => ?_)) fun tail => ?_
  · exact isInert_closing _
  · refine ⟨?_, ?_, ?_, ?_⟩
    · simp [dropAffix?]
    · simp [dropAffix?]
    · simp [dropAffix?]
    · exact hread tail

theorem atBrackets_unlines {P : Text → Prop} {ls : List Text} (h : ∀ l ∈ ls, AtBrackets P l) :
    AtBrackets P (unlines ls) := by
  induction ls with
  | nil => exact .of_not_mem (by simp)
  | cons l ls ih =>
    have hl := h l (by simp)
    cases ls with
    | nil => simpa using hl
    | cons k ls =>
      have hrest := ih fun m hm => h m (List.mem_cons_of_mem l hm)
      rw [unlines_cons]
      exact hl.append (.append (.of_not_mem (s := ['\n']) (by simp)) hrest)

theorem isUntouched_of_atBrackets {s : Text} (h : AtBrackets IsInert s) : IsUntouched s := by
  have hno : ∀ affix rest : Text, affix = '<' :: rest →
      (∀ u, IsInert u → dropAffix? affix u = none) → occursIn affix s = false := by
    rintro _ rest rfl hinert
    rw [Bool.eq_false_iff]
    intro hyes
    obtain ⟨before, after, hs⟩ := occursIn_iff.1 hyes
    have hu := hinert _ (h before (rest ++ after) (by simpa using hs) [])
    simp [dropAffix?, dropAffix?_append] at hu
  exact ⟨hno _ "pre" (by simp) fun u hu => hu.code, hno _ "img" (by simp) fun u hu => hu.image,
    hno _ "p>." (by simp) fun u hu => hu.directive⟩

theorem cutAtNotes?_of_atBrackets {s : Text} (h : AtBrackets IsInert s) : cutAtNotes? s = none := by
  induction s with
  | nil => rfl
  | cons c s ih =>
    have hs : AtBrackets IsInert s := fun before after he => h (c :: before) after (by rw [he]; rfl)
    have hfirst : notesHeading? (c :: s) = none := by
      by_cases hc : c = '<'
      · subst hc
        simpa using (h [] s rfl []).notes
      · simp [notesHeading?, dropWord?, not_isCaseOf (by decide) hc]
    rw [cutAtNotes?, hfirst, ih hs]
    rfl

/-! ## The slide of a fragment -/

/-- The first close tag of a heading behind text is where the text ends. -/
theorem cutAtClosing?_text {t : Text} (ht : '<' ∉ t) {d : Char} (hd : (headingDigit? d).isSome)
    (rest : Text) :
    cutAtClosing? (t ++ '<' :: '/' :: 'h' :: d :: '>' :: rest) = some (t, d, rest) := by
  induction t with
  | nil =>
    obtain ⟨n, hn⟩ := Option.isSome_iff_exists.1 hd
    simp [cutAtClosing?, closing?, dropAffix?, hn]
  | cons c t ih =>
    simp only [List.mem_cons, not_or] at ht
    have hno : closing? (c :: (t ++ '<' :: '/' :: 'h' :: d :: '>' :: rest)) = none := by
      simp [closing?, dropAffix?, ht.1]
    rw [List.cons_append, cutAtClosing?, hno, ih ht.2]
    rfl

/-- Escaped text ends in white space only if the text does. -/
theorem trim_escaped {t : Text} (h : isPlainLine t) : trim (escaped t) = escaped t := by
  obtain ⟨_, _, ht, -, hend, -⟩ := isPlainLine_iff.1 h
  obtain ⟨c, s, hs, hc⟩ := head_escaped h
  have hleft : trimLeft (escaped t) = escaped t := by
    rw [hs, trimLeft, List.dropWhile_cons, if_neg (by simp [isBlank_of_isLetter hc])]
  have hright : (escaped t).getLast?.any isBlank = false := by
    rcases List.eq_nil_or_concat t with rfl | ⟨u, d, rfl⟩
    · simp at ht
    · rw [List.concat_eq_append] at hend ⊢
      have hd : isBlank d = false := by simpa using hend
      obtain ⟨front, e, he, hblank⟩ :
          ∃ front e, escapedChar d = front ++ [e] ∧ isBlank e = false := by
        unfold escapedChar
        split
        · exact ⟨"&amp", ';', by simp, by decide⟩
        · exact ⟨"&lt", ';', by simp, by decide⟩
        · exact ⟨"&gt", ';', by simp, by decide⟩
        · exact ⟨[], d, rfl, hd⟩
      rw [escaped_append, show escaped [d] = front ++ [e] by simp [he], ← List.append_assoc,
        List.getLast?_concat]
      exact hblank
  rw [trim, hleft, trimRight_eq_self hright]

section Slide
variable {adornments : List Char} {p : Section × List Section}

private theorem headingDigit?_level (s : Section) :
    ∃ d, decimal (s.level adornments) = [d] ∧ headingDigit? d = some (s.level adornments) := by
  have hall : [1, 2, 3, 4, 5, 6].all (fun k => decimal k = [Char.ofNat (48 + k)] &&
      headingDigit? (Char.ofNat (48 + k)) = some k) := by cbv
  have hlevel := List.all_eq_true.1 hall _ (s.level_mem adornments)
  simp only [Bool.and_eq_true, decide_eq_true_eq] at hlevel
  exact ⟨_, hlevel⟩

/-- The heading at the front of a slide. -/
theorem find?_heading {s : Section} (h : s.isWellFormed) (rest : Text) :
    ∃ g : Heading, Heading.find? (s.heading adornments ++ rest) = some ([], g, rest) ∧
      g.title = escaped s.title ∧ g.level = s.level adornments ∧
      g.source = s.heading adornments := by
  obtain ⟨ht, -, -, -⟩ := Section.isWellFormed_iff.1 h
  obtain ⟨d, hd, hdigit⟩ := @headingDigit?_level adornments s
  refine ⟨⟨d, [], escaped s.title, d⟩, ?_, trim_escaped ht, ?_, ?_⟩
  · have hline : s.heading adornments ++ rest =
        '<' :: 'h' :: d :: '>' :: (escaped s.title ++ '<' :: '/' :: 'h' :: d :: '>' :: rest) := by
      simp [Section.heading, hd]
    have hread : Heading.read? (s.heading adornments ++ rest) =
        some (⟨d, [], escaped s.title, d⟩, rest) := by
      have hclose := cutAtClosing?_text (bracket_not_mem_escaped s.title) (d := d)
        (by simp [hdigit]) rest
      rw [hline]
      simp [Heading.read?, dropAffix?, hdigit, hclose, show isWord '>' = false by decide]
    rw [hline] at hread ⊢
    rw [Heading.find?, hread]
  · rw [headingDigit?_eq] at hdigit
    split at hdigit
    · simpa [Heading.level] using hdigit
    · simp at hdigit
  · simp [Heading.source, Section.heading, hd]

theorem atBrackets_slideLines (h : ∀ s ∈ p.1 :: p.2, s.isWellFormed) {l : Text}
    (hl : l ∈ slideLines adornments p) : AtBrackets IsInert l := by
  rw [slideLines_eq, List.mem_flatMap] at hl
  obtain ⟨s, hs, hl⟩ := hl
  obtain ⟨-, -, -, hparagraphs⟩ := Section.isWellFormed_iff.1 (h s hs)
  rw [Section.html, List.mem_cons, Section.body, List.mem_map] at hl
  rcases hl with rfl | ⟨t, ht, rfl⟩
  · exact atBrackets_heading (h s hs) adornments
  · exact atBrackets_paragraphHtml (hparagraphs t ht)

/-- A fragment of lines is taken apart into its heading and the other lines. -/
theorem ofFragment_slideLines (h : ∀ s ∈ p.1 :: p.2, s.isWellFormed) (showNotes : Bool) :
    Slide.ofFragment (unlines (slideLines adornments p)) showNotes = {
      title := some (escaped p.1.title)
      level := some (p.1.level adornments)
      header := some (p.1.heading adornments)
      content := unlines (contentLines adornments p) } := by
  have hnotes : cutAtNotes? (unlines (slideLines adornments p)) = none :=
    cutAtNotes?_of_atBrackets (atBrackets_unlines fun l hl => atBrackets_slideLines h hl)
  obtain ⟨behind, hlines, hbehind⟩ : ∃ behind, unlines (slideLines adornments p) =
      p.1.heading adornments ++ behind ∧ trim behind = unlines (contentLines adornments p) := by
    have htagged : ∀ l ∈ contentLines adornments p, IsTagged l := fun l hl =>
      @isTagged_slideLines adornments p l (List.mem_cons_of_mem _ hl)
    rw [slideLines]
    cases hcontent : contentLines adornments p with
    | nil => exact ⟨[], by simp, rfl⟩
    | cons l ls =>
      refine ⟨['\n'] ++ unlines (l :: ls), by rw [unlines_cons]; rfl, ?_⟩
      rw [trim_blank_append (by decide)]
      exact (IsTagged.unlines (by simp) (hcontent ▸ htagged)).trim_eq
  obtain ⟨g, hfind, htitle, hlevel, hsource⟩ :=
    @find?_heading adornments p.1 (h p.1 (by simp)) behind
  have hjoin : Slide.joinContent [] behind = unlines (contentLines adornments p) := by
    rw [Slide.joinContent, hbehind]
    rfl
  rw [hlines] at hnotes ⊢
  simp only [Slide.ofFragment, hnotes, hfind, htitle, hlevel, hsource, hjoin, ite_self]

end Slide

end Slideshow.Restructured
