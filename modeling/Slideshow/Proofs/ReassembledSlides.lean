import Slideshow.Proofs.AnchoredText
import Slideshow.Proofs.SlideParts

/-!
# Slides put together again

The parts of a slide, each on a line of its own, are a fragment again. It makes the same slide, if no
text stands in front of the heading: the parts have lost only white space at their ends, and between
two of them neither a heading of the slide nor one that announces notes is made or hidden by another
amount of white space.
-/
namespace Slideshow
open Text Markup

namespace Markup

/-! ## White space around a text -/

section Scan
variable {β : Type} {read : Text → Option β}

theorem isSome_scan_cons (c : Char) (s : Text) :
    (scan read (c :: s)).isSome = ((read (c :: s)).isSome || (scan read s).isSome) := by
  cases hread : read (c :: s) with
  | some b => simp [scan, hread]
  | none => simp [scan_cons_of_none hread]

variable {P : Text → Prop} {rest : β → Text} (h : ReadsShortest P read rest)
  (hend : ∀ {m}, P m → ∃ t, m = t ++ ['>'])
include h hend

/-- Text behind the last closing bracket is not read. -/
theorem ReadsShortest.isSome_append {w : Text} (hw : '>' ∉ w) (s : Text) :
    (read (s ++ w)).isSome = (read s).isSome := by
  rw [Bool.eq_iff_iff]
  constructor
  · intro hsome
    obtain ⟨b, hb⟩ := Option.isSome_iff_exists.1 hsome
    obtain ⟨m, hm, hP, -⟩ := h.sound hb
    obtain ⟨t, rfl⟩ := hend hP
    rcases List.append_eq_append_iff.1 hm with ⟨u, hu, rfl⟩ | ⟨u, rfl, -⟩
    · rcases List.eq_nil_or_concat u with rfl | ⟨u, c, rfl⟩
      · rw [List.append_nil] at hu
        simpa [hu] using h.complete [] hP
      · rw [List.concat_eq_append, ← List.append_assoc] at hu
        obtain rfl : '>' = c := by simpa using (List.append_inj' hu rfl).2
        simp at hw
    · exact h.complete u hP
  · intro hsome
    obtain ⟨b, hb⟩ := Option.isSome_iff_exists.1 hsome
    obtain ⟨m, rfl, hP, -⟩ := h.sound hb
    rw [List.append_assoc]
    exact h.complete _ hP

/-- White space around a text changes nothing of what is found in it. -/
theorem ReadsShortest.isSome_scan_blank (hmarks : ReadsMarks read) {w v : Text}
    (hw : isAllBlank w) (hv : isAllBlank v) (s : Text) :
    (scan read (w ++ (s ++ v))).isSome = (scan read s).isSome := by
  have hclose : '>' ∉ v := not_mem_of_isAllBlank hv (by decide)
  rw [hmarks.scan_letters (not_mem_of_isAllBlank hw isBlank_bracket), Option.isSome_map]
  induction s with
  | nil => rw [List.nil_append, hmarks.scan_eq_none hclose, scan]
  | cons c s ih =>
    rw [List.cons_append, isSome_scan_cons, isSome_scan_cons, ih, ← List.cons_append,
      h.isSome_append hend hclose]

end Scan

theorem Heading.exists_bracket (h : Heading) : ∃ t, h.source = t ++ ['>'] :=
  ⟨"<h" ++ h.digit :: h.attributes ++ ['>'] ++ h.inner ++ "</h" ++ [h.closingDigit], by
    simp [Heading.source]⟩

theorem IsHeadingElement.exists_bracket {m : Text} (h : IsHeadingElement m) : ∃ t, m = t ++ ['>'] := by
  obtain ⟨_, inner, @⟨attributes, _, d, e, _, _⟩⟩ := h
  exact ⟨"<h" ++ d :: attributes ++ '>' :: inner ++ "</h" ++ [e], by simp⟩

theorem IsNotesHeading.exists_bracket {m : Text} (h : IsNotesHeading m) : ∃ t, m = t ++ ['>'] := by
  obtain @⟨opening, attributes, inner, closing, _, _, d, e, _⟩ := h
  exact ⟨opening ++ d :: attributes ++ '>' :: inner ++ closing ++ [e], by simp⟩

/-! ## White space behind a bracket -/

theorem afterNotes?_blank {w : Text} (hw : isAllBlank w) (s : Text) :
    afterNotes? (w ++ s) = afterNotes? s := by
  rw [afterNotes?, afterNotes?, afterNotesWords?, afterNotesWords?, trimLeft, trimLeft,
    List.dropWhile_append_of_pos (List.all_eq_true.1 hw)]

theorem isSome_afterNotes?_bracket (y s t : Text) :
    (afterNotes? (y ++ '>' :: s)).isSome = (afterNotes? (y ++ '>' :: t)).isSome := by
  by_cases hy : '>' ∈ y
  · obtain ⟨x, z, rfl, hx⟩ := List.eq_append_cons_of_mem hy
    rw [List.append_assoc, List.append_assoc, List.cons_append, List.cons_append, afterNotes?_tag hx,
      afterNotes?_tag hx (z ++ '>' :: t), Option.isSome_map, Option.isSome_map]
  · rw [afterNotes?_tag hy, afterNotes?_tag hy t, Option.isSome_map, Option.isSome_map]

section Respaced
variable {w : Text} (hw : isAllBlank w)
include hw

/-- The words of a notes heading stand behind any amount of white space. -/
theorem isSome_notesHeading?_respaced (s t : Text) :
    (notesHeading? (s ++ '>' :: (w ++ t))).isSome = (notesHeading? (s ++ '>' :: t)).isSome := by
  by_cases hs : '>' ∈ s
  · obtain ⟨x, y, rfl, hx⟩ := List.eq_append_cons_of_mem hs
    simp only [List.append_assoc, List.cons_append]
    rw [notesHeading?_tag hx, notesHeading?_tag hx]
    split
    · exact isSome_afterNotes?_bracket y (w ++ t) t
    · rfl
  · rw [notesHeading?_tag hs, notesHeading?_tag hs, afterNotes?_blank hw]

theorem isSome_cutAtNotes?_respaced (s t : Text) :
    (cutAtNotes? (s ++ '>' :: (w ++ t))).isSome = (cutAtNotes? (s ++ '>' :: t)).isSome := by
  rw [cutAtNotes?_eq_scan, cutAtNotes?_eq_scan]
  induction s with
  | nil =>
    have hblank : '<' ∉ '>' :: w :=
      List.not_mem_cons_of_ne_of_not_mem (by decide) (not_mem_of_isAllBlank hw isBlank_bracket)
    have hleft := readsMarks_notesHeading?.scan_letters hblank t
    have hright := readsMarks_notesHeading?.scan_letters (w := ['>']) (by decide) t
    rw [List.cons_append] at hleft
    rw [List.singleton_append] at hright
    rw [List.nil_append, List.nil_append, hleft, hright, Option.isSome_map, Option.isSome_map]
  | cons c s ih =>
    have hread := isSome_notesHeading?_respaced hw (c :: s) t
    rw [List.cons_append, List.cons_append] at hread ⊢
    rw [isSome_scan_cons, isSome_scan_cons, ih, hread]

end Respaced

/-! ## Another notes heading at the end -/

/-- The heading that announces the notes of a slide that is put together. -/
def notesMark : Text := "<h2>Presenter Notes</h2>"

/-- An open tag of a heading that is not ended would take in the next one. -/
def LeavesHeadingOpen (s : Text) : Prop := ∃ z, z <:+ s ∧ '>' ∉ z ∧ startsHeading z

theorem notesHeading?_notesMark (r : Text) : notesHeading? (notesMark ++ r) = some r := by
  have hread : notesHeading? notesMark = some [] := by cbv
  obtain ⟨m, hm, -, hany⟩ := exists_of_notesHeading? hread
  simpa [hm] using hany r

theorem startsHeading_append {z : Text} (h : startsHeading z) (u : Text) : startsHeading (z ++ u) :=
  isNumbered_append h u

theorem startsHeading_break (z u : Text) : startsHeading (z ++ '\n' :: u) = startsHeading z :=
  isNumbered_stop (by simp; decide) (by decide) z u

/-- No notes heading starts in front of another one and ends in it. -/
theorem notesHeading?_append_notesMark {s : Text} (hs : notesHeading? s = none)
    (hopen : '>' ∉ s → ¬startsHeading s) (r : Text) :
    notesHeading? (s ++ '\n' :: (notesMark ++ r)) = none := by
  by_cases hclose : '>' ∈ s
  · obtain ⟨x, y, rfl, hx⟩ := List.eq_append_cons_of_mem hclose
    have hends : ClosesNothing ('\n' :: (notesMark ++ r)) :=
      .inr ⟨'h', "2>Presenter Notes</h2>" ++ r, by
        simp [trimLeft, notesMark, show isBlank '\n' = true by decide, isBlank_bracket], by decide⟩
    have hsome := isSome_notesHeading?_append hx hends y
    rw [hs] at hsome
    rw [List.append_assoc, List.cons_append]
    simpa using hsome
  · have htag : '>' ∉ s ++ '\n' :: ("<h2" : Text) := by
      simpa using hclose
    have hsplit : s ++ '\n' :: (notesMark ++ r) =
        (s ++ '\n' :: "<h2") ++ '>' :: ("Presenter Notes</h2>" ++ r) := by simp [notesMark]
    rw [hsplit, notesHeading?_tag htag, startsHeading_break, if_neg (hopen hclose)]

/-- Notes are announced behind a text that announces none and leaves no tag of a heading open. -/
theorem cutAtNotes?_notesMark {s : Text} (hs : cutAtNotes? s = none) (hopen : ¬LeavesHeadingOpen s)
    (r : Text) : cutAtNotes? (s ++ '\n' :: (notesMark ++ r)) = some (s ++ ['\n'], r) := by
  rw [cutAtNotes?_eq_scan] at hs ⊢
  induction s with
  | nil =>
    have hmark : scan notesHeading? (notesMark ++ r) = some ([], r) :=
      scan_of_read (by simp [notesMark]) (notesHeading?_notesMark r)
    have hbreak := readsMarks_notesHeading?.scan_letters (w := ['\n']) (by decide) (notesMark ++ r)
    rw [hmark] at hbreak
    exact hbreak
  | cons c s ih =>
    have hnone : notesHeading? (c :: s) = none ∧ scan notesHeading? s = none := by
      have hsome := @isSome_scan_cons _ notesHeading? c s
      rw [hs] at hsome
      simpa using hsome.symm
    have hread := notesHeading?_append_notesMark hnone.1
      (fun hclose hstart => hopen ⟨c :: s, List.suffix_rfl, hclose, hstart⟩) r
    have hsuffix : ¬LeavesHeadingOpen s := by
      rintro ⟨z, hz, hopened⟩
      exact hopen ⟨z, hz.trans (List.suffix_cons c s), hopened⟩
    have hrest := ih hnone.2 hsuffix
    rw [List.cons_append] at hread ⊢
    rw [scan_cons_of_none hread, hrest]
    rfl

/-- In front of the first notes heading there is no other, and no tag of a heading is left open. -/
theorem of_cutAtNotes? {s before after : Text} (h : cutAtNotes? s = some (before, after)) :
    cutAtNotes? before = none ∧ ¬LeavesHeadingOpen before := by
  rw [cutAtNotes?_eq_scan] at h ⊢
  obtain ⟨u, rfl, hu, hnone⟩ := exists_of_scan h
  constructor
  · cases hscan : scan notesHeading? before with
    | none => rfl
    | some p =>
      obtain ⟨x, rest⟩ := p
      obtain ⟨v, rfl, hv, -⟩ := exists_of_scan hscan
      obtain ⟨m, rfl, hm⟩ := notesHeading?_eq_some_iff.1 hv
      have hne := readsShortest_notesHeading?.ne_nil hm
      have hread := hnone x (m ++ rest ++ u) (by simp) (by
        have := List.length_pos_iff.2 hne
        simp
        omega)
      rw [notesHeading?_eq_some_iff.2 ⟨m, List.append_assoc m rest u, hm⟩] at hread
      simp at hread
  · rintro ⟨z, ⟨x, rfl⟩, hz, hstart⟩
    obtain ⟨tag, v, rfl, htag⟩ := List.eq_append_cons_of_mem (readsMarks_notesHeading?.closes hu)
    rw [notesHeading?_tag htag] at hu
    have hne : z ≠ [] := by
      rintro rfl
      simp [startsHeading, dropWord?] at hstart
    have hread := hnone x (z ++ tag ++ '>' :: v) (by simp) (by
      have := List.length_pos_iff.2 hne
      simp
      omega)
    have hafter : afterNotes? v = some after := by
      split at hu
      · exact hu
      · simp at hu
    rw [notesHeading?_tag (by simp [hz, htag]), if_pos (startsHeading_append hstart tag), hafter] at hread
    simp at hread

/-- Text around that holds no closing bracket behind does not end an open tag. -/
theorem LeavesHeadingOpen.within {s v : Text} (h : LeavesHeadingOpen s) (hv : '>' ∉ v) (x : Text) :
    LeavesHeadingOpen (x ++ (s ++ v)) := by
  obtain ⟨z, ⟨y, rfl⟩, hz, hstart⟩ := h
  exact ⟨z ++ v, ⟨x ++ y, by simp⟩, by simp [hz, hv], startsHeading_append hstart v⟩

/-- An open tag that is not ended stands behind the last closing bracket. -/
theorem LeavesHeadingOpen.of_append {x s : Text} (h : LeavesHeadingOpen (x ++ '>' :: '\n' :: s)) :
    LeavesHeadingOpen s := by
  obtain ⟨z, hz, hclose, hstart⟩ := h
  have hbehind : '>' :: '\n' :: s <:+ x ++ '>' :: '\n' :: s := List.suffix_append x _
  rcases List.suffix_or_suffix_of_suffix hz hbehind with hshort | hlong
  · rcases List.suffix_cons_iff.1 hshort with rfl | hshort
    · simp at hclose
    rcases List.suffix_cons_iff.1 hshort with rfl | hshort
    · have hnone : startsHeading ('\n' :: s) = startsHeading [] := startsHeading_break [] s
      rw [hnone] at hstart
      simp [startsHeading, dropWord?] at hstart
    · exact ⟨z, hshort, hclose, hstart⟩
  · exact absurd (hlong.subset (by simp)) hclose

/-! ## The heading at the front -/

/-- A close tag of a heading has no other bracket, so none starts in front of another one and ends in
it. -/
theorem closing?_append_eq_none {s : Text} (h : closing? s = none) (hs : s ≠ []) (r : Text) :
    closing? (s ++ '<' :: '/' :: r) = none := by
  by_cases hclose : '>' ∈ s
  · obtain ⟨x, y, rfl, hx⟩ := List.eq_append_cons_of_mem hclose
    rw [List.append_assoc, List.cons_append]
    rw [closing?_tag hx, Option.map_eq_none_iff] at h ⊢
    exact h
  · rw [Option.eq_none_iff_forall_ne_some]
    rintro ⟨d, rest⟩ hread
    obtain ⟨heq, hd⟩ := closing?_eq_some_iff.1 hread
    have hdigit : '<' ≠ d := by
      rintro rfl
      simp [show headingDigit? '<' = none by decide] at hd
    rcases s with _ | ⟨a, _ | ⟨b, _ | ⟨c, _ | ⟨d', _ | ⟨x, s⟩⟩⟩⟩⟩
    · exact hs rfl
    · simp at heq
    · simp at heq
    · simp [hdigit] at heq
    · simp at heq
    · simp_all

/-- The text before the first close tag of a heading holds none. -/
theorem cutAtClosing?_eq_some_iff {s inner rest : Text} {e : Char} :
    cutAtClosing? s = some (inner, e, rest) ↔ s = inner ++ '<' :: '/' :: 'h' :: e :: '>' :: rest ∧
      (headingDigit? e).isSome ∧ cutAtClosing? inner = none := by
  constructor
  · intro h
    have hs : s = inner ++ '<' :: '/' :: 'h' :: e :: '>' :: rest := by simpa using eq_of_cutAtClosing? h
    rw [cutAtClosing?_eq_scan] at h ⊢
    obtain ⟨u, hu, hread, hnone⟩ := exists_of_scan h
    obtain rfl := List.append_cancel_left (hs.symm.trans hu)
    refine ⟨hs, (closing?_eq_some_iff.1 hread).2, ?_⟩
    cases hscan : scan closing? inner with
    | none => rfl
    | some p =>
      obtain ⟨x, d, y⟩ := p
      obtain ⟨v, rfl, hv, -⟩ := exists_of_scan hscan
      obtain ⟨rfl, hd⟩ := closing?_eq_some_iff.1 hv
      have hearlier := hnone x _ (by rw [hs, List.append_assoc]) (by simp)
      rw [closing?_eq_some_iff.2 ⟨by simp; rfl, hd⟩] at hearlier
      simp at hearlier
  · rintro ⟨rfl, he, hnone⟩
    rw [cutAtClosing?_eq_scan] at hnone ⊢
    induction inner with
    | nil =>
      have hread : closing? ('<' :: '/' :: 'h' :: e :: '>' :: rest) = some (e, rest) :=
        closing?_eq_some_iff.2 ⟨rfl, he⟩
      exact scan_of_read (by simp) hread
    | cons c inner ih =>
      have hsome := @isSome_scan_cons _ closing? c inner
      rw [hnone] at hsome
      obtain ⟨hfirst, hrest⟩ : closing? (c :: inner) = none ∧ scan closing? inner = none := by
        simpa using hsome.symm
      have hread := closing?_append_eq_none hfirst (by simp) ('h' :: e :: '>' :: rest)
      rw [List.cons_append] at hread ⊢
      rw [scan_cons_of_none hread, ih hrest]
      rfl

/-- A heading is read from its own text alone. -/
theorem Heading.read?_eq_some_iff {s rest : Text} {h : Heading} :
    Heading.read? s = some (h, rest) ↔ s = h.source ++ rest ∧ (headingDigit? h.digit).isSome ∧
      h.attributes.head?.any isWord = false ∧ '>' ∉ h.attributes ∧
      (headingDigit? h.closingDigit).isSome ∧ cutAtClosing? h.inner = none := by
  constructor
  · intro hread
    have hs := Heading.eq_source_append_of_read? hread
    obtain ⟨x, v, rfl, hx⟩ := List.eq_append_cons_of_mem (Heading.readsMarks_read?.closes hread)
    rw [Heading.read?_tag hx] at hread
    obtain ⟨⟨d, attributes⟩, htag, hread⟩ := Option.bind_eq_some_iff.1 hread
    obtain ⟨⟨inner, e, u⟩, hcut, hq⟩ := Option.map_eq_some_iff.1 hread
    obtain ⟨rfl, rfl⟩ := Prod.mk.inj hq
    obtain ⟨rfl, hd, hend⟩ := headingTag?_eq_some_iff.1 htag
    obtain ⟨-, he, hinner⟩ := cutAtClosing?_eq_some_iff.1 hcut
    exact ⟨hs, hd, hend, fun hm => hx (by simp [hm]), he, hinner⟩
  · rintro ⟨rfl, hd, hend, hattributes, he, hinner⟩
    have htag : headingTag? ("<h" ++ h.digit :: h.attributes) = some (h.digit, h.attributes) :=
      headingTag?_eq_some_iff.2 ⟨rfl, hd, hend⟩
    have hx : '>' ∉ "<h" ++ h.digit :: h.attributes := by
      simp [bracket_ne_of_digit hd, hattributes]
    have hcut : cutAtClosing? (h.inner ++ '<' :: '/' :: 'h' :: h.closingDigit :: '>' :: rest) =
        some (h.inner, h.closingDigit, rest) := cutAtClosing?_eq_some_iff.2 ⟨rfl, he, hinner⟩
    have hsource : h.source ++ rest = ("<h" ++ h.digit :: h.attributes) ++
        '>' :: (h.inner ++ '<' :: '/' :: 'h' :: h.closingDigit :: '>' :: rest) := by
      simp [Heading.source]
    rw [hsource, Heading.read?_tag hx, htag, Option.bind_some, hcut, Option.map_some]

end Markup

/-! ## Slides -/

namespace Fragment

/-- No text stands in front of the first heading, if there is one in front of the notes. -/
def headingIsFirst (fragment : Text) : Bool :=
  (Heading.find? (shown fragment)).all fun p => isAllBlank p.1

end Fragment

namespace Slide

/-- The parts of a slide, each on a line of its own: the heading, the content, and a heading that
announces notes in front of these. -/
def reassembled (s : Slide) : Text :=
  unlines (s.header.toList ++ s.content ::
    (s.rawNotes.map fun notes => [notesMark, notes]).getD [])

/-- The heading and the content. -/
def reassembledShown (s : Slide) : Text := unlines (s.header.toList ++ [s.content])

theorem reassembled_withNotes (presenter raw : Option Text) (s : Slide) :
    (s.withNotes presenter raw).reassembled = s.reassembledShown ++
      (raw.map fun notes => '\n' :: (notesMark ++ '\n' :: notes)).getD [] := by
  cases hheader : s.header <;> cases raw <;>
    simp [reassembled, reassembledShown, withNotes, hheader, unlines_cons]

theorem ofFragment_of_none {fragment : Text} (h : cutAtNotes? fragment = none) (showNotes : Bool) :
    ofFragment fragment showNotes = (ofShown fragment).withNotes none none := by
  rw [ofFragment_eq]
  simp [Fragment.shown, Fragment.notes, h]

theorem ofFragment_of_some {fragment shown notes : Text}
    (h : cutAtNotes? fragment = some (shown, notes)) (showNotes : Bool) :
    ofFragment fragment showNotes = (ofShown shown).withNotes
      (if showNotes then some (trim notes) else none) (some (trim notes)) := by
  rw [ofFragment_eq]
  simp [Fragment.shown, Fragment.notes, h]

theorem joinContent_blank {before : Text} (h : isAllBlank before) (after : Text) :
    joinContent before after = trim after := by
  have hnil : trim before = [] := by
    rw [← List.append_nil before, trim_blank_append h]
    rfl
  simp [joinContent, hnil]

section Shown
variable {shown : Text}

theorem reassembledShown_of_none (h : Heading.find? shown = none) :
    (ofShown shown).reassembledShown = trim shown := by
  simp [ofShown, h, reassembledShown]

theorem reassembledShown_of_blank {before after : Text} {heading : Heading}
    (h : Heading.find? shown = some (before, heading, after)) (hblank : isAllBlank before) :
    (ofShown shown).reassembledShown = heading.source ++ '\n' :: trim after := by
  simp [ofShown, h, reassembledShown, joinContent_blank hblank, unlines_cons]

variable (hfirst : (Heading.find? shown).all fun p => isAllBlank p.1)
include hfirst

/-- The heading and the content make the same slide, with or without white space behind them. -/
theorem ofShown_reassembledShown {v : Text} (hv : isAllBlank v) :
    ofShown ((ofShown shown).reassembledShown ++ v) = ofShown shown := by
  cases hfind : Heading.find? shown with
  | none =>
    obtain ⟨w, u, hshown, hw, hu⟩ := exists_eq_append_trim shown
    have hsame : Heading.find? (trim shown ++ v) = none := by
      have houter := readsShortest_read?.isSome_scan_blank IsHeadingElement.exists_bracket
        Heading.readsMarks_read? hw hu (trim shown)
      have hinner := readsShortest_read?.isSome_scan_blank IsHeadingElement.exists_bracket
        Heading.readsMarks_read? (w := []) rfl hv (trim shown)
      rw [← List.append_assoc, ← hshown, ← Heading.find?_eq_scan, hfind] at houter
      rw [← houter, List.nil_append, ← Heading.find?_eq_scan] at hinner
      simpa using hinner
    rw [reassembledShown_of_none hfind]
    simp only [ofShown, hsame, hfind, trim_append_blank hv, trim_trim]
  | some p =>
    obtain ⟨before, heading, after⟩ := p
    have hblank : isAllBlank before := by simpa [hfind] using hfirst
    obtain ⟨u, hu, hread, -⟩ := exists_of_scan ((Heading.find?_eq_scan shown).symm.trans hfind)
    have hsource := Heading.eq_source_append_of_read? hread
    subst hsource
    have hsame : Heading.find? (heading.source ++ '\n' :: (trim after ++ v)) =
        some ([], heading, '\n' :: (trim after ++ v)) := by
      rw [Heading.find?_eq_scan]
      exact scan_of_read (by simp [Heading.source])
        (Heading.read?_eq_some_iff.2 ⟨rfl, (Heading.read?_eq_some_iff.1 hread).2⟩)
    have hcontent : trim ('\n' :: (trim after ++ v)) = trim after := by
      rw [show '\n' :: (trim after ++ v) = ['\n'] ++ (trim after ++ v) from rfl,
        trim_blank_append (by decide), trim_append_blank hv, trim_trim]
    rw [reassembledShown_of_blank hfind hblank, List.append_assoc, List.cons_append]
    simp only [ofShown, hsame, hfind, joinContent_blank hblank, @joinContent_blank [] rfl,
      hcontent]

theorem cutAtNotes?_reassembledShown (hnone : cutAtNotes? shown = none) :
    cutAtNotes? (ofShown shown).reassembledShown = none := by
  have hblank : ∀ {w v s : Text}, isAllBlank w → isAllBlank v →
      (cutAtNotes? (w ++ (s ++ v))).isSome = (cutAtNotes? s).isSome := by
    intro w v s hw hv
    rw [cutAtNotes?_eq_scan, cutAtNotes?_eq_scan]
    exact readsShortest_notesHeading?.isSome_scan_blank IsNotesHeading.exists_bracket
      readsMarks_notesHeading? hw hv s
  cases hfind : Heading.find? shown with
  | none =>
    obtain ⟨w, u, hshown, hw, hu⟩ := exists_eq_append_trim shown
    have hsame := hblank hw hu (s := trim shown)
    rw [← List.append_assoc, ← hshown, hnone] at hsame
    rw [reassembledShown_of_none hfind]
    simpa using hsame.symm
  | some p =>
    obtain ⟨before, heading, after⟩ := p
    have hbefore : isAllBlank before := by simpa [hfind] using hfirst
    obtain ⟨w, u, hafter, hw, hu⟩ := exists_eq_append_trim after
    obtain ⟨front, hfront⟩ := heading.exists_bracket
    have hshown : shown = before ++ (front ++ '>' :: (w ++ trim after) ++ u) := by
      rw [Heading.eq_of_find? hfind, hfront]
      conv => lhs; rw [hafter]
      simp
    have hparts : heading.source ++ '\n' :: trim after = front ++ '>' :: (['\n'] ++ trim after) := by
      simp [hfront]
    have hsame : (cutAtNotes? (front ++ '>' :: (['\n'] ++ trim after))).isSome =
        (cutAtNotes? shown).isSome := by
      rw [isSome_cutAtNotes?_respaced (by decide), ← isSome_cutAtNotes?_respaced hw, hshown,
        hblank hbefore hu]
    rw [hnone, ← hparts] at hsame
    rw [reassembledShown_of_blank hfind hbefore]
    simpa using hsame

theorem not_leavesHeadingOpen_reassembledShown (hopen : ¬LeavesHeadingOpen shown) :
    ¬LeavesHeadingOpen (ofShown shown).reassembledShown := by
  have hclose : ∀ {v : Text}, isAllBlank v → '>' ∉ v := fun hv =>
    not_mem_of_isAllBlank hv (by decide)
  refine fun h => hopen ?_
  cases hfind : Heading.find? shown with
  | none =>
    obtain ⟨w, u, hshown, -, hu⟩ := exists_eq_append_trim shown
    rw [reassembledShown_of_none hfind] at h
    rw [hshown, List.append_assoc]
    exact h.within (hclose hu) w
  | some p =>
    obtain ⟨before, heading, after⟩ := p
    obtain ⟨w, u, hafter, -, hu⟩ := exists_eq_append_trim after
    obtain ⟨front, hfront⟩ := heading.exists_bracket
    rw [reassembledShown_of_blank hfind (by simpa [hfind] using hfirst), hfront, List.append_assoc,
      List.singleton_append] at h
    rw [Heading.eq_of_find? hfind, hafter, List.append_assoc w, ← List.append_assoc]
    exact h.of_append.within (hclose hu) _

end Shown

/-- A slide whose heading came first is made again from its parts. -/
theorem ofFragment_reassembled {fragment : Text} (hfirst : Fragment.headingIsFirst fragment)
    (showNotes : Bool) :
    ofFragment (ofFragment fragment showNotes).reassembled showNotes =
      ofFragment fragment showNotes := by
  cases hcut : cutAtNotes? fragment with
  | none =>
    have hblank : (Heading.find? fragment).all fun p => isAllBlank p.1 := by
      simpa [Fragment.headingIsFirst, Fragment.shown, hcut] using hfirst
    have hsame := ofShown_reassembledShown hblank (v := []) rfl
    rw [List.append_nil] at hsame
    rw [ofFragment_of_none hcut, reassembled_withNotes, Option.map_none, Option.getD_none,
      List.append_nil, ofFragment_of_none (cutAtNotes?_reassembledShown hblank hcut), hsame]
  | some p =>
    obtain ⟨shown, notes⟩ := p
    have hblank : (Heading.find? shown).all fun p => isAllBlank p.1 := by
      simpa [Fragment.headingIsFirst, Fragment.shown, hcut] using hfirst
    obtain ⟨hnone, hopen⟩ := of_cutAtNotes? hcut
    have hmark := cutAtNotes?_notesMark (cutAtNotes?_reassembledShown hblank hnone)
      (not_leavesHeadingOpen_reassembledShown hblank hopen) ('\n' :: trim notes)
    have htrim : trim ('\n' :: trim notes) = trim notes :=
      (trim_blank_append (w := ['\n']) (by decide) _).trans (trim_trim notes)
    rw [ofFragment_of_some hcut, reassembled_withNotes, Option.map_some, Option.getD_some,
      ofFragment_of_some hmark, htrim, ofShown_reassembledShown hblank (v := ['\n']) (by decide)]

/-- A heading behind white space, content with a tag that is not ended, and notes with a heading. -/
def unevenFragment : Text :=
  " \n<h2 id=\"a\"> A <b>\n b </h4>\t<h3> c <i \n\n<H3>\tpresenter\nNotes </h1>\n e <h1>f</h1> \n"

theorem ofFragment_unevenFragment : Fragment.headingIsFirst unevenFragment ∧
    (ofFragment unevenFragment true).reassembled =
      "<h2 id=\"a\"> A <b>\n b </h4>\n<h3> c <i\n<h2>Presenter Notes</h2>\ne <h1>f</h1>" ∧
    ofFragment (ofFragment unevenFragment true).reassembled true = ofFragment unevenFragment true := by
  have hfirst : Fragment.headingIsFirst unevenFragment := by cbv
  refine ⟨hfirst, ?_, ofFragment_reassembled hfirst true⟩
  cbv

end Slide

end Slideshow
