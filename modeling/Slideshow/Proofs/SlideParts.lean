import Slideshow.Proofs.HiddenNotes
import Slideshow.Proofs.NodeReading

/-!
# The parts of a fragment

A fragment is put together from what stands before the heading of its slide, this heading, what
follows it, the heading that announces notes, and the notes. Each of the two headings is said here
without its reader: it is the leftmost part of a certain form, and the shortest that starts there.
The fields of the slide are these parts without the white space around them, and nothing behind the
notes heading reaches any field but the notes.
-/
namespace Slideshow.Markup
open Text

/-! ## The first part of a kind -/

/-- Of the parts of a text with a property the leftmost, and the shortest of those that start there. -/
structure IsFirst (P : Text → Prop) (before part after : Text) : Prop where
  holds : P part
  leftmost : ∀ x m y, x ++ m ++ y = before ++ part ++ after → P m → before.length ≤ x.length
  shortest : ∀ m y, m ++ y = part ++ after → P m → part.length ≤ m.length

/-- A text with a part that has a property. -/
def Holds (P : Text → Prop) (s : Text) : Prop := ∃ m, m <:+: s ∧ P m

section Scan
variable {β : Type} {read : Text → Option β}

/-- Nothing is read before the first place that is read. -/
theorem exists_of_scan {s before : Text} {b : β} (h : scan read s = some (before, b)) :
    ∃ u, s = before ++ u ∧ read u = some b ∧
      ∀ x v, s = x ++ v → x.length < before.length → read v = none := by
  induction s generalizing before with
  | nil => simp [scan] at h
  | cons c s ih =>
    cases hread : read (c :: s) with
    | some b' =>
      rw [scan, hread] at h
      obtain ⟨rfl, rfl⟩ := Prod.mk.inj (Option.some.inj h)
      exact ⟨c :: s, rfl, hread, by simp⟩
    | none =>
      rw [scan_cons_of_none hread] at h
      obtain ⟨⟨before, b'⟩, hscan, hq⟩ := Option.map_eq_some_iff.1 h
      obtain ⟨rfl, rfl⟩ := Prod.mk.inj hq
      obtain ⟨u, rfl, hu, hnone⟩ := ih hscan
      refine ⟨u, rfl, hu, fun x v hx hlt => ?_⟩
      cases x with
      | nil => rwa [← show c :: (before ++ u) = v from hx]
      | cons d x => exact hnone x v (List.cons.inj hx).2 (by simpa using hlt)

theorem read_eq_none_of_scan {s : Text} (h : scan read s = none) {x v : Text} (hs : s = x ++ v)
    (hv : v ≠ []) : read v = none := by
  induction s generalizing x with
  | nil => exact absurd (List.append_eq_nil_iff.1 hs.symm).2 hv
  | cons c s ih =>
    cases hread : read (c :: s) with
    | some b => simp [scan, hread] at h
    | none =>
      rw [scan_cons_of_none hread, Option.map_eq_none_iff] at h
      cases x with
      | nil => rwa [← show c :: s = v from hs]
      | cons d x => exact ih h (List.cons.inj hs).2

/-- Texts are read if they start with a part that has a property, and then past the shortest one. -/
structure ReadsShortest (P : Text → Prop) (read : Text → Option β) (rest : β → Text) : Prop where
  ne_nil : ∀ {m}, P m → m ≠ []
  sound : ∀ {s b}, read s = some b →
    ∃ m, s = m ++ rest b ∧ P m ∧ ∀ m' y, s = m' ++ y → P m' → m.length ≤ m'.length
  complete : ∀ {m} y, P m → (read (m ++ y)).isSome

namespace ReadsShortest
variable {P : Text → Prop} {rest : β → Text} (h : ReadsShortest P read rest)
include h

theorem isFirst_of_scan {s before : Text} {b : β} (hs : scan read s = some (before, b)) :
    ∃ m, s = before ++ m ++ rest b ∧ IsFirst P before m (rest b) := by
  obtain ⟨u, rfl, hu, hnone⟩ := exists_of_scan hs
  obtain ⟨m, rfl, hm, hshort⟩ := h.sound hu
  refine ⟨m, by rw [List.append_assoc], hm, fun x m' y he hm' => ?_, fun m' y he => hshort m' y he.symm⟩
  by_contra hlt
  have hread := hnone x (m' ++ y) (by simpa using he.symm) (by omega)
  simpa [hread] using h.complete y hm'

theorem not_holds_of_scan {s : Text} (hs : scan read s = none) : ¬Holds P s := by
  rintro ⟨m, ⟨x, y, rfl⟩, hm⟩
  have hread := read_eq_none_of_scan hs (List.append_assoc x m y) (by simp [h.ne_nil hm])
  simpa [hread] using h.complete y hm

end ReadsShortest

end Scan

/-! ## Notes headings -/

/-- A word in any case. -/
def IsCased (word a : Text) : Prop := List.Forall₂ (fun letter c => isCaseOf letter c) word a

/-- A heading whose words are "presenter" and "notes", in any case and with tags of any levels. -/
inductive IsNotesHeading : Text → Prop
  | intro {opening attributes inner closing a b : Text} {d e : Char} (hopening : IsCased "<h" opening)
    (hdigit : (headingDigit? d).isSome) (hattributes : '>' ∉ attributes)
    (hwords : words inner = [a, b]) (hpresenter : IsCased "presenter" a) (hnotes : IsCased "notes" b)
    (hclosing : IsCased "</h" closing) (hdigit' : (headingDigit? e).isSome) :
    IsNotesHeading (opening ++ d :: attributes ++ '>' :: inner ++ closing ++ [e, '>'])

theorem dropWord?_eq_some_iff {word s rest : Text} :
    dropWord? word s = some rest ↔ ∃ a, s = a ++ rest ∧ IsCased word a := by
  induction word generalizing s with
  | nil => simp [dropWord?, IsCased]
  | cons letter word ih =>
    cases s with
    | nil => simp [dropWord?, IsCased, List.forall₂_cons_left_iff]
    | cons c s =>
      by_cases hc : isCaseOf letter c
      · rw [dropWord?, if_pos hc, ih]
        constructor
        · rintro ⟨a, rfl, ha⟩
          exact ⟨c :: a, rfl, .cons hc ha⟩
        · rintro ⟨a, he, ha⟩
          cases ha with
          | cons _ ha =>
            obtain ⟨rfl, rfl⟩ := List.cons.inj he
            exact ⟨_, rfl, ha⟩
      · rw [dropWord?, if_neg hc]
        simp only [reduceCtorEq, false_iff, not_exists, not_and]
        rintro a he ha
        cases ha with
        | cons hc' _ =>
          obtain ⟨rfl, -⟩ := List.cons.inj he
          exact hc hc'

theorem announcesNotes_iff {t : Text} : announcesNotes t ↔
    ∃ a b, words t = [a, b] ∧ IsCased "presenter" a ∧ IsCased "notes" b := by
  have hcased : ∀ {word a : Text}, dropWord? word a = some [] ↔ IsCased word a := by
    simp [dropWord?_eq_some_iff]
  unfold announcesNotes
  split
  · next a b hwords => simp [hwords, hcased]
  · next hno =>
    simp only [Bool.false_eq_true, false_iff, not_exists, not_and]
    exact fun a b hwords => absurd hwords (hno a b)

theorem isCaseOf_iff_eq {a c : Char} (ha : a.isLower = false) (hself : isCaseOf a a) :
    isCaseOf a c ↔ c = a := by
  refine ⟨fun h => ?_, fun h => h ▸ hself⟩
  by_contra hne
  simp [not_isCaseOf ha hne] at h

theorem isCased_opening_iff {opening : Text} :
    IsCased "<h" opening ↔ ∃ h, opening = ['<', h] ∧ isCaseOf 'h' h := by
  have hbracket : ∀ c, isCaseOf '<' c ↔ c = '<' := fun c => isCaseOf_iff_eq (by decide) (by decide)
  simp [IsCased, List.forall₂_cons_left_iff, hbracket, and_comm]

theorem isCased_closing_iff {closing : Text} :
    IsCased "</h" closing ↔ ∃ h, closing = ['<', '/', h] ∧ isCaseOf 'h' h := by
  have hbracket : ∀ c, isCaseOf '<' c ↔ c = '<' := fun c => isCaseOf_iff_eq (by decide) (by decide)
  have hslash : ∀ c, isCaseOf '/' c ↔ c = '/' := fun c => isCaseOf_iff_eq (by decide) (by decide)
  simp [IsCased, List.forall₂_cons_left_iff, hbracket, hslash, and_comm]

theorem bracket_ne_of_digit {d : Char} (h : (headingDigit? d).isSome) : '>' ≠ d := by
  rintro rfl
  exact absurd h (by decide)

/-- Exactly the notes headings are read. -/
theorem notesHeading?_eq_some_iff {s rest : Text} :
    notesHeading? s = some rest ↔ ∃ m, s = m ++ rest ∧ IsNotesHeading m := by
  constructor
  · intro h
    obtain ⟨tag, v, rfl, htag⟩ := List.eq_append_cons_of_mem (readsMarks_notesHeading?.closes h)
    rw [notesHeading?_tag htag] at h
    split at h
    · next hstart =>
      obtain ⟨w, hw, hdigit⟩ := (Option.any_eq_true ..).1 hstart
      obtain ⟨opening, rfl, hopening⟩ := dropWord?_eq_some_iff.1 hw
      obtain ⟨inner, l, e, rfl, hinner, hl, he⟩ := afterNotes?_eq_some_iff.1 h
      obtain ⟨a, b, hwords, ha, hb⟩ := announcesNotes_iff.1 hinner
      cases w with
      | nil => simp at hdigit
      | cons d attributes =>
        have hattributes : '>' ∉ attributes := fun hm => htag (by simp [hm])
        exact ⟨opening ++ d :: attributes ++ '>' :: inner ++ ['<', '/', l] ++ [e, '>'], by simp,
          .intro hopening (by simpa using hdigit) hattributes hwords ha hb
            (isCased_closing_iff.2 ⟨l, rfl, hl⟩) he⟩
    · simp at h
  · rintro ⟨_, rfl, @⟨opening, attributes, inner, closing, a, b, d, e, hopening, hdigit, hattributes,
      hwords, ha, hb, hclosing, he⟩⟩
    obtain ⟨l, rfl, hl⟩ := isCased_closing_iff.1 hclosing
    have hword : dropWord? "<h" (opening ++ d :: attributes) = some (d :: attributes) :=
      dropWord?_eq_some_iff.2 ⟨opening, rfl, hopening⟩
    have htag : '>' ∉ opening ++ d :: attributes := by
      obtain ⟨k, rfl, hk⟩ := isCased_opening_iff.1 hopening
      have hk' : '>' ≠ k := by
        rintro rfl
        exact absurd hk (by decide)
      simp [hk', bracket_ne_of_digit hdigit, hattributes]
    have hstart : startsHeading (opening ++ d :: attributes) := by
      rw [startsHeading, hword]
      simpa using hdigit
    have hafter : afterNotes? (inner ++ ['<', '/', l, e, '>'] ++ rest) = some rest :=
      afterNotes?_eq_some_iff.2 ⟨inner, l, e, rfl, announcesNotes_iff.2 ⟨a, b, hwords, ha, hb⟩, hl, he⟩
    have hread := notesHeading?_tag htag (inner ++ ['<', '/', l, e, '>'] ++ rest)
    rw [if_pos hstart, hafter] at hread
    simpa using hread

/-- Where one notes heading ends no other one does that starts at the same place. -/
theorem readsShortest_notesHeading? : ReadsShortest IsNotesHeading notesHeading? id where
  ne_nil hm := by
    cases hm
    simp
  sound {s rest} h := by
    obtain ⟨m, rfl, hm⟩ := notesHeading?_eq_some_iff.1 h
    refine ⟨m, rfl, hm, fun m' y hs hm' => ?_⟩
    have hsame := notesHeading?_eq_some_iff.2 ⟨m', hs, hm'⟩
    rw [h] at hsame
    obtain rfl := Option.some.inj hsame
    exact (congrArg List.length (List.append_cancel_right hs)).le
  complete y hm := by rw [notesHeading?_eq_some_iff.2 ⟨_, rfl, hm⟩, Option.isSome_some]

/-! ## Headings that title a slide -/

/-- A heading element: its level is that of its open tag, and its inner text ends before a close tag
of any level. -/
inductive IsHeading : Text → Nat → Text → Prop
  | intro {attributes inner : Text} {d e : Char} {level : Nat} (hdigit : headingDigit? d = some level)
    (hend : attributes.head?.any isWord = false) (hattributes : '>' ∉ attributes)
    (hdigit' : (headingDigit? e).isSome) :
    IsHeading ("<h" ++ d :: attributes ++ '>' :: inner ++ "</h" ++ [e, '>']) level inner

theorem IsHeading.level_bounds {m inner : Text} {level : Nat} (h : IsHeading m level inner) :
    1 ≤ level ∧ level ≤ 6 := by
  obtain @⟨_, _, d, _, _, hdigit, -⟩ := h
  rw [headingDigit?] at hdigit
  split at hdigit
  · next hd =>
    obtain rfl := Option.some.inj hdigit
    have hlow : 49 ≤ d.toNat := hd.1
    have hhigh : d.toNat ≤ 54 := hd.2
    omega
  · simp at hdigit

/-- A text that is a heading element. -/
def IsHeadingElement (m : Text) : Prop := ∃ level inner, IsHeading m level inner

theorem headingTag?_eq_some_iff {x attributes : Text} {d : Char} :
    headingTag? x = some (d, attributes) ↔ x = "<h" ++ d :: attributes ∧ (headingDigit? d).isSome ∧
      attributes.head?.any isWord = false := by
  simp only [headingTag?, Option.bind_eq_bind, Option.bind_eq_some_iff, dropAffix?_eq_some_iff]
  constructor
  · rintro ⟨v, rfl, h⟩
    cases v with
    | nil => simp at h
    | cons d' v =>
      dsimp only at h
      split at h
      · simp at h
      · next hno =>
        obtain ⟨rfl, rfl⟩ := Prod.mk.inj (Option.some.inj h)
        simpa [Option.isSome_iff_ne_none] using hno
  · rintro ⟨rfl, hd, hend⟩
    refine ⟨_, rfl, ?_⟩
    obtain ⟨n, hn⟩ := Option.isSome_iff_exists.1 hd
    simp [hn, hend]

theorem bracket_not_mem_tag {d : Char} {attributes : Text} {level : Nat}
    (hdigit : headingDigit? d = some level) (hattributes : '>' ∉ attributes) :
    '>' ∉ "<h" ++ d :: attributes := by
  simp [bracket_ne_of_digit (hdigit ▸ rfl : (headingDigit? d).isSome), hattributes]

/-- What is read as a heading is a heading element, and no shorter one starts at the same place: its
inner text would hold a close tag. -/
theorem Heading.of_read? {s rest : Text} {h : Heading} (hr : Heading.read? s = some (h, rest)) :
    IsHeading h.source h.level h.inner ∧
      ∀ m y, s = m ++ y → IsHeadingElement m → h.source.length ≤ m.length := by
  obtain ⟨x, v, rfl, hx⟩ := List.eq_append_cons_of_mem (Heading.readsMarks_read?.closes hr)
  rw [Heading.read?_tag hx] at hr
  obtain ⟨⟨d, attributes⟩, htag, hr⟩ := Option.bind_eq_some_iff.1 hr
  obtain ⟨⟨inner, e, r⟩, hcut, hr⟩ := Option.map_eq_some_iff.1 hr
  obtain ⟨rfl, rfl⟩ := Prod.mk.inj hr
  obtain ⟨rfl, hdigit, hend⟩ := headingTag?_eq_some_iff.1 htag
  rw [cutAtClosing?_eq_scan] at hcut
  obtain ⟨u, rfl, hu, hnone⟩ := exists_of_scan hcut
  obtain ⟨level, hlevel⟩ := Option.isSome_iff_exists.1 hdigit
  have hattributes : '>' ∉ attributes := fun hm => hx (by simp [hm])
  constructor
  · obtain rfl : level = d.toNat - 48 := by
      rw [headingDigit?] at hlevel
      split at hlevel
      · exact (Option.some.inj hlevel).symm
      · simp at hlevel
    have hheading := @IsHeading.intro attributes inner d e _ hlevel hend hattributes
      (closing?_eq_some_iff.1 hu).2
    simpa [Heading.source, Heading.level] using hheading
  · rintro m y hs ⟨_, inner', @⟨attributes', _, d', e', _, hdigit', -, hattributes', he'⟩⟩
    have hx' := bracket_not_mem_tag hdigit' hattributes'
    have hsplit : ("<h" ++ d :: attributes) ++ '>' :: (inner ++ u) =
        ("<h" ++ d' :: attributes') ++ '>' :: (inner' ++ (['<', '/', 'h', e'] ++ '>' :: y)) := by
      simpa using hs
    obtain ⟨hopen, hinner⟩ := (Forest.append_bracket_inj hx hx').1 hsplit
    have hclose : closing? (['<', '/', 'h', e'] ++ '>' :: y) = some (e', y) :=
      closing?_eq_some_iff.2 ⟨rfl, he'⟩
    have hle : inner.length ≤ inner'.length := by
      by_contra hlt
      have hno := hnone inner' _ hinner (by omega)
      rw [hclose] at hno
      simp at hno
    have hopen := congrArg List.length hopen
    simp only [Heading.source, List.length_append, List.length_cons, List.length_nil] at hopen ⊢
    omega

theorem readsShortest_read? : ReadsShortest IsHeadingElement Heading.read? Prod.snd where
  ne_nil hm := by
    obtain ⟨_, _, hm⟩ := hm
    cases hm
    simp
  sound {s b} hr := by
    obtain ⟨hh, hshort⟩ := Heading.of_read? hr
    exact ⟨b.1.source, Heading.eq_source_append_of_read? hr, ⟨_, _, hh⟩, hshort⟩
  complete {m} y hm := by
    obtain ⟨_, inner, @⟨attributes, _, d, e, _, hdigit, hend, hattributes, he⟩⟩ := hm
    have htag : headingTag? ("<h" ++ d :: attributes) = some (d, attributes) :=
      headingTag?_eq_some_iff.2 ⟨rfl, hdigit ▸ rfl, hend⟩
    have hread := Heading.read?_tag (bracket_not_mem_tag hdigit hattributes)
      (inner ++ (['<', '/', 'h', e] ++ '>' :: y))
    rw [htag, Option.bind_some, cutAtClosing?_eq_scan] at hread
    have hclose : closing? (['<', '/', 'h', e] ++ '>' :: y) = some (e, y) :=
      closing?_eq_some_iff.2 ⟨rfl, he⟩
    have hcut : scan closing? (inner ++ (['<', '/', 'h', e] ++ '>' :: y)) ≠ none := fun hnone => by
      rw [read_eq_none_of_scan hnone rfl (by simp)] at hclose
      simp at hclose
    obtain ⟨q, hq⟩ := Option.ne_none_iff_exists'.1 hcut
    rw [hq, Option.map_some] at hread
    have hsource : "<h" ++ d :: attributes ++ '>' :: inner ++ "</h" ++ [e, '>'] ++ y =
        "<h" ++ d :: attributes ++ '>' :: (inner ++ (['<', '/', 'h', e] ++ '>' :: y)) := by simp
    rw [hsource, hread, Option.isSome_some]

end Slideshow.Markup

namespace Slideshow
open Text Markup

/-! ## The slide of a fragment -/

namespace Slide

/-- A slide that is made of the parts of a fragment, the notes heading and what is behind it left out:
without the first heading and the white space around the rest. -/
structure IsTitledBy (s : Slide) (before header after : Text) : Prop where
  header_eq : (header = [] ∧ after = [] ∧ ¬Holds IsHeadingElement before ∧
      s.header = none ∧ s.title = none ∧ s.level = none) ∨
    (IsFirst IsHeadingElement before header after ∧ s.header = some header ∧
      ∃ level inner, IsHeading header level inner ∧ 1 ≤ level ∧ level ≤ 6 ∧
        s.level = some level ∧ s.title = some (trim inner))
  content_eq : s.content =
    if trim before ≠ [] ∧ trim after ≠ [] then trim before ++ "\n" ++ trim after
    else trim before ++ trim after

/-- A slide with the notes behind the first notes heading of a fragment, if there is one. -/
structure HasNotesOf (s : Slide) (showNotes : Bool) (shown heading notes : Text) : Prop where
  rawNotes_eq : (heading = [] ∧ notes = [] ∧ ¬Holds IsNotesHeading shown ∧ s.rawNotes = none) ∨
    (IsFirst IsNotesHeading shown heading notes ∧ s.rawNotes = some (trim notes))
  presenterNotes_eq : s.presenterNotes = if showNotes then s.rawNotes else none

theorem joinContent_eq (before after : Text) : joinContent before after =
    if trim before ≠ [] ∧ trim after ≠ [] then trim before ++ "\n" ++ trim after
    else trim before ++ trim after := by
  simp only [joinContent]
  by_cases hbefore : trim before = []
  · simp [hbefore]
  by_cases hafter : trim after = []
  · simp [hbefore, hafter]
  · simp [hbefore, hafter]

theorem isTitledBy_ofShown (shown : Text) : ∃ before header after,
    shown = before ++ header ++ after ∧ (ofShown shown).IsTitledBy before header after := by
  have hscan := Heading.find?_eq_scan shown
  rw [ofShown, hscan]
  cases h : scan Heading.read? shown with
  | none =>
    have hnone := readsShortest_read?.not_holds_of_scan h
    have hnil : trim [] = [] := rfl
    exact ⟨shown, [], [], by simp, .inl ⟨rfl, rfl, hnone, rfl, rfl, rfl⟩, by simp [hnil]⟩
  | some p =>
    obtain ⟨before, heading, after⟩ := p
    obtain ⟨m, hparts, hfirst⟩ := readsShortest_read?.isFirst_of_scan h
    obtain rfl : m = heading.source := by
      have hfind := Heading.eq_of_find? (hscan.trans h)
      rw [hparts] at hfind
      exact List.append_cancel_left (List.append_cancel_right hfind)
    obtain ⟨u, -, hread, -⟩ := exists_of_scan h
    have hheading := (Heading.of_read? hread).1
    exact ⟨before, heading.source, after, hparts, .inr ⟨hfirst, rfl, heading.level, heading.inner,
      hheading, hheading.level_bounds.1, hheading.level_bounds.2, rfl, rfl⟩, joinContent_eq before after⟩

/-- A fragment consists of the parts that its slide shows, of the heading that announces its notes and
of the notes. Whatever the notes are, the slide shows the same. -/
theorem ofFragment_parts (fragment : Text) (showNotes : Bool) : ∃ before header after heading notes,
    fragment = before ++ header ++ after ++ heading ++ notes ∧
    (ofFragment fragment showNotes).IsTitledBy before header after ∧
    (ofFragment fragment showNotes).HasNotesOf showNotes (before ++ header ++ after) heading notes ∧
    (heading = [] ∨ ∀ other showNotes',
      ofFragment (before ++ header ++ after ++ heading ++ other) showNotes' =
        (ofFragment fragment showNotes).withNotes (if showNotes' then some (trim other) else none)
          (some (trim other))) := by
  obtain ⟨before, header, after, hshown, htitled⟩ := isTitledBy_ofShown (Fragment.shown fragment)
  rw [ofFragment_eq]
  have hscan := cutAtNotes?_eq_scan fragment
  cases h : scan notesHeading? fragment with
  | none =>
    have hcut := hscan.trans h
    have hfragment : Fragment.shown fragment = fragment := by simp [Fragment.shown, hcut]
    have hnotes : Fragment.notes fragment = none := by simp [Fragment.notes, hcut]
    have hnone := readsShortest_notesHeading?.not_holds_of_scan h
    rw [hfragment] at hshown
    refine ⟨before, header, after, [], [], by simpa using hshown, ⟨htitled.1, htitled.2⟩,
      ⟨.inl ⟨rfl, rfl, hshown ▸ hnone, hnotes⟩, rfl⟩, .inl rfl⟩
  | some p =>
    obtain ⟨shown, notes⟩ := p
    have hcut := hscan.trans h
    obtain ⟨heading, hparts, hfirst⟩ := readsShortest_notesHeading?.isFirst_of_scan h
    rw [id_eq] at hparts hfirst
    obtain rfl : shown = before ++ header ++ after := by simpa [Fragment.shown, hcut] using hshown
    have hnotes : Fragment.notes fragment = some (trim notes) := by simp [Fragment.notes, hcut]
    refine ⟨before, header, after, heading, notes, hparts, ⟨htitled.1, htitled.2⟩,
      ⟨.inr ⟨hfirst, hnotes⟩, rfl⟩, .inr fun other showNotes' => ?_⟩
    have hown : cutAtNotes? (before ++ header ++ after ++ (heading ++ notes)) =
        some (before ++ header ++ after, notes) := by
      rw [← List.append_assoc, ← hparts, hcut]
    have hother := cutAtNotes?_append hown other
    rw [ofFragment_eq, List.append_assoc _ heading]
    simp only [Fragment.shown, Fragment.notes, hother, hcut, Option.map_some, Option.getD_some]
    rfl

end Slide

end Slideshow
