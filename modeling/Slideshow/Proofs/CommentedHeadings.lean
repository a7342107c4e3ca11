import Slideshow.Proofs.CommentBodies
import Slideshow.Proofs.HeadingMarks
import Slideshow.Proofs.HiddenNotes

/-!
# Slides of documents with other comments

A slide is read from the text of its fragment, comments and all. Where comments and plain text hold
no marks of headings, the bodies of the comments do not matter: the same headings are found. A
heading in a comment is found as well, though, and then the slides differ.
-/
namespace Slideshow
open Text

namespace Markup

/-! ## Texts with the same headings -/

/-- Two texts of the same letters, but for comments that hold no marks of headings. A mark stands in
the letters up to a closing bracket, which are the same on both sides. -/
inductive SameHeadings : Text → Text → Prop
  | last {x : Text} (hx : '>' ∉ x) : SameHeadings x x
  | letter {c : Char} {s t : Text} (hs : startsMark (c :: s) = false)
    (ht : startsMark (c :: t) = false) (h : SameHeadings s t) : SameHeadings (c :: s) (c :: t)
  | tag {x s t : Text} (hx : '>' ∉ x) (h : SameHeadings s t) :
    SameHeadings (x ++ '>' :: s) (x ++ '>' :: t)
  | comment {b c s t : Text} (hb : occursIn "-->" b = false) (hc : occursIn "-->" c = false)
    (hmark : holdsMark b = false) (hmark' : holdsMark c = false) (h : SameHeadings s t) :
    SameHeadings ((Token.comment b).source ++ s) ((Token.comment c).source ++ t)

section Results
variable {α β γ δ : Type} {r : α → β → Prop} {a : Option α} {b : Option β}

theorem rel_iff : Option.Rel r a b ↔
    a = none ∧ b = none ∨ ∃ p q, a = some p ∧ b = some q ∧ r p q := by
  constructor
  · rintro (h | _)
    · exact .inr ⟨_, _, rfl, rfl, h⟩
    · exact .inl ⟨rfl, rfl⟩
  · rintro (⟨rfl, rfl⟩ | ⟨p, q, rfl, rfl, h⟩)
    · exact .none
    · exact .some h

theorem rel_map {r' : γ → δ → Prop} {f : α → γ} {g : β → δ} (h : Option.Rel r a b)
    (hfg : ∀ p q, r p q → r' (f p) (g q)) : Option.Rel r' (a.map f) (b.map g) := by
  cases h with
  | none => exact .none
  | some h => exact .some (hfg _ _ h)

end Results

/-- What is found in a tag or behind it; `y` is the text that is passed over. -/
theorem rel_scan_tag {β : Type} {read : Text → Option β} {R : β → β → Prop}
    {S T : Text → Text → Prop} (hread : ReadsMarks read) {y x s t : Text} (hx : '>' ∉ y ++ x)
    (htag : ∀ z, z <:+ x → Option.Rel R (read (z ++ '>' :: s)) (read (z ++ '>' :: t)))
    (hrest : Option.Rel (fun p q => T p.1 q.1 ∧ R p.2 q.2) (scan read s) (scan read t))
    (hfront : ∀ z, '>' ∉ z → S z z)
    (hjoin : ∀ u v, T u v → S (y ++ x ++ '>' :: u) (y ++ x ++ '>' :: v)) :
    Option.Rel (fun p q => S (y ++ p.1) (y ++ q.1) ∧ R p.2 q.2)
      (scan read (x ++ '>' :: s)) (scan read (x ++ '>' :: t)) := by
  induction x generalizing y with
  | nil =>
    have hbracket : ∀ u, startsMark ('>' :: u) = false := startsMark_of_ne (by decide)
    rw [List.nil_append, List.nil_append, hread.scan_cons (hbracket s),
      hread.scan_cons (hbracket t)]
    exact rel_map hrest fun p q hpq => ⟨by simpa using hjoin _ _ hpq.1, hpq.2⟩
  | cons c x ih =>
    have hhere := htag (c :: x) List.suffix_rfl
    rw [List.cons_append, List.cons_append] at hhere ⊢
    rcases rel_iff.1 hhere with ⟨hs, ht⟩ | ⟨a, b, hs, ht, hab⟩
    · rw [scan_cons_of_none hs, scan_cons_of_none ht]
      have hmore := @ih (y ++ [c]) (by simpa using hx)
        (fun z hz => htag z (hz.trans (List.suffix_cons c x))) (by simpa using hjoin)
      exact rel_map hmore fun p q hpq => by simpa using hpq
    · rw [scan_of_read (List.cons_ne_nil _ _) hs, scan_of_read (List.cons_ne_nil _ _) ht]
      have hy : '>' ∉ y := fun hm => hx (List.mem_append_left _ hm)
      exact .some ⟨by simpa using hfront y hy, hab⟩

namespace SameHeadings
variable {s t : Text}

theorem sameOutsideComments (h : SameHeadings s t) : SameOutsideComments s t := by
  induction h with
  | @last x _ => exact .refl x
  | @letter c _ _ _ _ _ ih => exact .letter c ih
  | @tag x s t _ _ ih => exact .append x (.letter '>' ih)
  | comment hb hc _ _ _ ih => exact .comment hb hc ih

theorem trimLeft (h : SameHeadings s t) : SameHeadings (trimLeft s) (trimLeft t) := by
  induction h with
  | @last x hx =>
    exact .last fun hm => hx ((List.dropWhile_suffix isBlank).subset hm)
  | @letter c s t hs ht h ih =>
    simp only [Text.trimLeft, List.dropWhile_cons] at ih ⊢
    split
    · exact ih
    · exact .letter hs ht h
  | @tag x s t hx h _ =>
    rw [trimLeft_append_cons (by decide), trimLeft_append_cons (by decide)]
    exact .tag (fun hm => hx ((List.dropWhile_suffix isBlank).subset hm)) h
  | comment hb hc hmark hmark' h _ =>
    rw [trimLeft_comment, trimLeft_comment]
    exact .comment hb hc hmark hmark' h

theorem trimRight (h : SameHeadings s t) : SameHeadings (trimRight s) (trimRight t) := by
  induction h with
  | @last x hx => exact .last fun hm => hx ((trimRight_initial x).subset hm)
  | @letter c s t hs ht h ih =>
    have hfront : ∀ {u : Text}, startsMark (c :: u) = false →
        startsMark (c :: Text.trimRight u) = false := by
      intro u hu
      obtain ⟨v, hv⟩ := trimRight_initial u
      rw [← hv, ← List.cons_append] at hu
      exact startsMark_of_append hu
    simp only [trimRight_cons, ih.sameOutsideComments.eq_nil_iff]
    split
    · exact .last (by simp)
    · exact .letter (hfront hs) (hfront ht) ih
  | @tag x s t hx h ih =>
    rw [trimRight_bracket, trimRight_bracket]
    exact .tag hx ih
  | comment hb hc hmark hmark' _ ih =>
    rw [trimRight_comment, trimRight_comment]
    exact .comment hb hc hmark hmark' ih

theorem trim (h : SameHeadings s t) : SameHeadings (trim s) (trim t) :=
  h.trimLeft.trimRight

/-! ### The first heading -/

section Scan
variable {β : Type} {read : Text → Option β} {R : β → β → Prop}

/-- What is found in texts with the same headings is found at the same place. -/
theorem rel_scan (h : SameHeadings s t) (hread : ReadsMarks read)
    (htag : ∀ {x s t : Text}, '>' ∉ x → SameHeadings s t →
      Option.Rel R (read (x ++ '>' :: s)) (read (x ++ '>' :: t))) :
    Option.Rel (fun p q => SameHeadings p.1 q.1 ∧ R p.2 q.2) (scan read s) (scan read t) := by
  induction h with
  | last hx =>
    rw [hread.scan_eq_none hx]
    exact .none
  | @letter c s t hs ht _ ih =>
    rw [hread.scan_cons hs, hread.scan_cons ht]
    have hfront : ∀ {u : Text} {p : Text × β}, startsMark (c :: u) = false → scan read u = some p →
        startsMark (c :: p.1) = false := by
      intro u p hu hp
      obtain ⟨v, hv⟩ := exists_append_of_scan hp
      rw [hv, ← List.cons_append] at hu
      exact startsMark_of_append hu
    rcases rel_iff.1 ih with ⟨hps, hqt⟩ | ⟨p, q, hps, hqt, hpq⟩
    · rw [hps, hqt]
      exact .none
    · rw [hps, hqt]
      exact .some ⟨.letter (hfront hs hps) (hfront ht hqt) hpq.1, hpq.2⟩
  | @tag x s t hx h ih =>
    have hfound := rel_scan_tag (S := SameHeadings) (y := []) hread hx
      (fun z hz => htag (fun hm => hx (hz.subset hm)) h) ih (fun z hz => .last hz)
      fun u v huv => .tag hx huv
    simpa using hfound
  | comment hb hc hmark hmark' _ ih =>
    rw [hread.scan_comment hmark, hread.scan_comment hmark']
    exact rel_map ih fun p q hpq => ⟨.comment hb hc hmark hmark' hpq.1, hpq.2⟩

end Scan

theorem rel_cutAtNotes? (h : SameHeadings s t) :
    Option.Rel (fun p q => SameHeadings p.1 q.1 ∧ SameOutsideComments p.2 q.2)
      (cutAtNotes? s) (cutAtNotes? t) := by
  rw [cutAtNotes?_eq_scan, cutAtNotes?_eq_scan]
  refine h.rel_scan readsMarks_notesHeading? fun {x s t} hx h => ?_
  rw [notesHeading?_tag hx, notesHeading?_tag hx]
  split
  · exact h.sameOutsideComments.rel_afterNotes?
  · exact .none

theorem rel_cutAtClosing? (h : SameHeadings s t) :
    Option.Rel (fun p q => SameHeadings p.1 q.1 ∧ p.2.1 = q.2.1 ∧ SameHeadings p.2.2 q.2.2)
      (cutAtClosing? s) (cutAtClosing? t) := by
  rw [cutAtClosing?_eq_scan, cutAtClosing?_eq_scan]
  refine h.rel_scan (R := fun p q => p.1 = q.1 ∧ SameHeadings p.2 q.2) readsMarks_closing?
    fun {x s t} hx h => ?_
  rw [closing?_tag hx, closing?_tag hx]
  cases closingTag? x with
  | none => exact .none
  | some d => exact .some ⟨rfl, h⟩

end SameHeadings

/-- Two headings that differ in comments between their tags. -/
structure Heading.SameOutsideComments (h g : Heading) : Prop where
  digit : h.digit = g.digit
  attributes : h.attributes = g.attributes
  inner : Markup.SameOutsideComments h.inner g.inner
  closingDigit : h.closingDigit = g.closingDigit

theorem SameHeadings.rel_find? {s t : Text} (h : SameHeadings s t) :
    Option.Rel (fun p q => SameHeadings p.1 q.1 ∧
      p.2.1.SameOutsideComments q.2.1 ∧ SameOutsideComments p.2.2 q.2.2)
      (Heading.find? s) (Heading.find? t) := by
  rw [Heading.find?_eq_scan, Heading.find?_eq_scan]
  refine h.rel_scan (R := fun p q => p.1.SameOutsideComments q.1 ∧ SameOutsideComments p.2 q.2)
    Heading.readsMarks_read? fun {x s t} hx h => ?_
  rw [Heading.read?_tag hx, Heading.read?_tag hx]
  cases headingTag? x with
  | none => exact .none
  | some p =>
    refine rel_map h.rel_cutAtClosing? fun q r hqr => ⟨⟨rfl, rfl, ?_, hqr.2.1⟩, ?_⟩
    · exact hqr.1.sameOutsideComments
    · exact hqr.2.2.sameOutsideComments

theorem Heading.SameOutsideComments.level {h g : Heading} (hg : h.SameOutsideComments g) :
    h.level = g.level := by
  rw [Heading.level, Heading.level, hg.digit]

theorem Heading.SameOutsideComments.title {h g : Heading} (hg : h.SameOutsideComments g) :
    Markup.SameOutsideComments h.title g.title :=
  hg.inner.trim

theorem Heading.SameOutsideComments.source {h g : Heading} (hg : h.SameOutsideComments g) :
    Markup.SameOutsideComments h.source g.source := by
  rw [Heading.source, Heading.source, hg.digit, hg.attributes, hg.closingDigit]
  exact ((hg.inner.append _).append₂ (.refl _)).append₂ (.refl _)

end Markup

/-! ## Slides -/

/-- Texts that are cut alike at their notes are shown alike. -/
theorem Fragment.rel_shown {S N : Text → Text → Prop} {f g : Text} (h : S f g)
    (hcut : Option.Rel (fun p q => S p.1 q.1 ∧ N p.2 q.2) (Markup.cutAtNotes? f)
      (Markup.cutAtNotes? g)) : S (shown f) (shown g) := by
  rw [shown, shown]
  rcases Markup.rel_iff.1 hcut with ⟨hf, hg⟩ | ⟨p, q, hf, hg, hpq, -⟩
  · rw [hf, hg]
    exact h
  · rw [hf, hg]
    exact hpq

namespace Slide
open Markup

/-- Two slides that differ in the bodies of comments. -/
structure SameOutsideComments (s t : Slide) : Prop where
  number : s.number = t.number
  title : Option.Rel Markup.SameOutsideComments s.title t.title
  level : s.level = t.level
  header : Option.Rel Markup.SameOutsideComments s.header t.header
  content : Markup.SameOutsideComments s.content t.content
  presenterNotes : Option.Rel Markup.SameOutsideComments s.presenterNotes t.presenterNotes
  classes : s.classes = t.classes
  source : s.source = t.source
  rawNotes : Option.Rel Markup.SameOutsideComments s.rawNotes t.rawNotes

/-- Parts without comments are the same. -/
theorem eq_of_rel {a b : Option Text} (h : Option.Rel Markup.SameOutsideComments a b)
    (ha : ∀ u ∈ a, occursIn "<!--" u = false) : b = a := by
  cases h with
  | none => rfl
  | some h => rw [h.eq_of_not_occursIn (ha _ rfl)]

theorem SameOutsideComments.title_eq {s t : Slide} (h : s.SameOutsideComments t)
    (hs : ∀ u ∈ s.title, occursIn "<!--" u = false) : t.title = s.title :=
  eq_of_rel h.title hs

theorem SameOutsideComments.header_eq {s t : Slide} (h : s.SameOutsideComments t)
    (hs : ∀ u ∈ s.header, occursIn "<!--" u = false) : t.header = s.header :=
  eq_of_rel h.header hs

theorem sameOutsideComments_joinContent {s t u v : Text} (hst : Markup.SameOutsideComments s t)
    (huv : Markup.SameOutsideComments u v) :
    Markup.SameOutsideComments (joinContent s u) (joinContent t v) := by
  simp only [joinContent, hst.trim.eq_nil_iff, huv.trim.eq_nil_iff]
  split
  · exact huv.trim
  split
  · exact hst.trim
  · rw [List.append_assoc, List.append_assoc]
    exact hst.trim.append₂ (.append _ huv.trim)

/-- Text that is shown, with the same heading or none. -/
theorem sameOutsideComments_ofShown {f g : Text} (h : SameHeadings f g) :
    (ofShown f).SameOutsideComments (ofShown g) := by
  have hfind := h.rel_find?
  simp only [ofShown]
  rcases rel_iff.1 hfind with ⟨hf, hg⟩ | ⟨p, q, hf, hg, hbefore, hheading, hafter⟩
  · rw [hf, hg]
    exact {
      number := rfl
      title := .none
      level := rfl
      header := .none
      content := h.sameOutsideComments.trim
      presenterNotes := .none
      classes := rfl
      source := rfl
      rawNotes := .none }
  · rw [hf, hg]
    exact {
      number := rfl
      title := .some hheading.title
      level := congrArg some hheading.level
      header := .some hheading.source
      content := sameOutsideComments_joinContent hbefore.sameOutsideComments hafter
      presenterNotes := .none
      classes := rfl
      source := rfl
      rawNotes := .none }

/-- Slides of texts with the same headings differ in the bodies of comments. -/
theorem sameOutsideComments_ofFragment {f g : Text} (h : SameHeadings f g) (showNotes : Bool) :
    (ofFragment f showNotes).SameOutsideComments (ofFragment g showNotes) := by
  have hcut := h.rel_cutAtNotes?
  have hshown : SameHeadings (Fragment.shown f) (Fragment.shown g) := Fragment.rel_shown h hcut
  have hnotes : Option.Rel Markup.SameOutsideComments (Fragment.notes f) (Fragment.notes g) :=
    rel_map hcut fun p q hpq => hpq.2.trim
  have hslide := sameOutsideComments_ofShown hshown
  rw [ofFragment_eq, ofFragment_eq]
  cases showNotes with
  | true => exact { hslide with presenterNotes := hnotes, rawNotes := hnotes }
  | false => exact { hslide with presenterNotes := .none, rawNotes := hnotes }

end Slide

/-! ## Documents whose headings are in their tags -/

namespace Markup

/-- Comments and plain text hold no marks of headings. -/
def headingsInTags (s : Text) : Bool :=
  (tokens s).all fun
    | .tag _ => true
    | .comment u | .plain u => !holdsMark u

/-- No comment among some tokens holds a mark, and no plain text starts one. -/
def marksInTags : List Token → Bool
  | [] => true
  | .tag _ :: ts => marksInTags ts
  | .comment u :: ts => !holdsMark u && marksInTags ts
  | .plain u :: ts => !startsMark (u ++ spell ts) && marksInTags ts

/-- The letters up to the next bracket are plain. -/
theorem headingsInTags_run (s : Text) : headingsInTags s =
    (!holdsMark (s.takeWhile (· ≠ '<')) && headingsInTags (s.dropWhile (· ≠ '<'))) := by
  cases s with
  | nil => rfl
  | cons c s =>
    by_cases hc : c = '<'
    · subst hc
      rfl
    · rw [headingsInTags, Forest.tokens_plain hc, List.takeWhile_cons_of_pos (by simpa using hc),
        List.dropWhile_cons_of_pos (by simpa using hc)]
      rfl

theorem headingsInTags_cons {c : Char} {s : Text} (hread : Token.ofMarkup? (c :: s) = none) :
    headingsInTags (c :: s) = (!startsMark (c :: s) && headingsInTags s) := by
  rw [headingsInTags_run s, headingsInTags, Forest.tokens_of_ofMarkup?_eq_none hread,
    List.all_cons, ← startsMark_takeWhile, ← Bool.and_assoc, ← Bool.not_or]
  rfl

/-- Read token by token, a text has its headings in its tags if it has its marks there. -/
theorem IsReadBack.headingsInTags_spell {ts : List Token} (h : IsReadBack ts) :
    headingsInTags (spell ts) = marksInTags ts := by
  induction h with
  | nil => simp [headingsInTags, tokens, marksInTags]
  | @letter c ts hread _ ih =>
    rw [marksInTags, ← ih, spell_cons]
    exact headingsInTags_cons hread
  | @markup t ts hread h ih =>
    rw [spell_cons, headingsInTags, Forest.tokens_markup hread, List.all_cons]
    cases t with
    | tag t => rw [marksInTags, ← ih, Bool.true_and, headingsInTags]
    | comment u => rw [marksInTags, ← ih, headingsInTags]
    | plain u =>
      obtain ⟨c, rfl, hc⟩ := (IsReadBack.markup hread h).eq_singleton_of_plain
      simp [Token.source, hc] at hread

theorem marksInTags_of_append {ts us : List Token} (h : marksInTags (ts ++ us)) :
    marksInTags ts ∧ marksInTags us := by
  induction ts with
  | nil => exact ⟨rfl, h⟩
  | cons t ts ih =>
    cases t with
    | tag t => exact ih h
    | comment u =>
      rw [List.cons_append, marksInTags, Bool.and_eq_true] at h
      rw [marksInTags, Bool.and_eq_true]
      exact ⟨⟨h.1, (ih h.2).1⟩, (ih h.2).2⟩
    | plain u =>
      rw [List.cons_append, marksInTags, Bool.and_eq_true, Bool.not_eq_true', spell_append,
        ← List.append_assoc] at h
      rw [marksInTags, Bool.and_eq_true, Bool.not_eq_true']
      exact ⟨⟨startsMark_of_append h.1, (ih h.2).1⟩, (ih h.2).2⟩

theorem marksInTags_of_infix {ts us : List Token} (h : us <:+: ts) (hts : marksInTags ts) :
    marksInTags us := by
  obtain ⟨before, after, rfl⟩ := h
  exact (marksInTags_of_append (marksInTags_of_append hts).1).2

/-- The same tokens but for comments have the same headings. -/
theorem IsReadBack.sameHeadings {ts us : List Token} (hread : IsReadBack ts)
    (hsame : List.Forall₂ SameToken ts us) (hts : marksInTags ts)
    (hus : marksInTags us) : SameHeadings (spell ts) (spell us) := by
  induction hsame with
  | nil => exact .last (by simp)
  | @cons t u ts us htoken _ ih =>
    cases htoken with
    | comment hb hc =>
      rw [marksInTags, Bool.and_eq_true, Bool.not_eq_true'] at hts hus
      exact .comment hb hc hts.1 hus.1 (ih hread.tail hts.2 hus.2)
    | same =>
      cases t with
      | comment body =>
        have hb := hread.occursIn_of_comment
        rw [marksInTags, Bool.and_eq_true, Bool.not_eq_true'] at hts hus
        exact .comment hb hb hts.1 hus.1 (ih hread.tail hts.2 hus.2)
      | plain u =>
        obtain ⟨c, rfl, -⟩ := hread.eq_singleton_of_plain
        rw [marksInTags, Bool.and_eq_true, Bool.not_eq_true'] at hts hus
        exact .letter hts.1 hus.1 (ih hread.tail hts.2 hus.2)
      | tag tag =>
        obtain ⟨s, rest, htag⟩ := hread.exists_read?
        obtain ⟨c, v, hsource, hv, -⟩ := Tag.source_of_read? htag
        have hbracket : '>' ∉ '<' :: c :: v := by simpa using hv
        have hspell : ∀ r, spell (.tag tag :: r) = '<' :: c :: v ++ '>' :: spell r := fun r => by
          simp [Token.source, hsource]
        rw [hspell, hspell]
        exact .tag hbracket (ih hread.tail hts hus)

end Markup

/-! ## Slides of documents -/

namespace Fragment
open Markup

/-- A document with other bodies in its comments has the same fragments but for comments. If the
marks of its headings are in its tags, comments are inert for slides too: the same headings title
them, the same heading parts off their notes, and all their parts are the same but for comments. -/
theorem slides_of_sameButComments {html other : Text} (h : SameButComments html other)
    (level : Nat) :
    List.Forall₂ SameButComments (split html level) (split other level) ∧
      (headingsInTags html → headingsInTags other → ∀ showNotes,
        List.Forall₂ Slide.SameOutsideComments
          ((split html level).map fun f => Slide.ofFragment f showNotes)
          ((split other level).map fun f => Slide.ofFragment f showNotes)) := by
  refine ⟨forall₂_split h level, fun hhtml hother showNotes => ?_⟩
  obtain ⟨ts, us, hts, hus, rfl, rfl, hsame⟩ := h.exists_tokens
  have hpieces := isSegmented_segments level hts
  have hpieces' := isSegmented_segments level hus
  rw [hts.headingsInTags_spell] at hhtml
  rw [hus.headingsInTags_spell] at hother
  rw [split_spell level hts, split_spell level hus, List.forall₂_map_left_iff,
    List.forall₂_map_right_iff]
  refine forall₂_segmentTexts (forall₂_segments hts hsame .nil level 0) fun p hp q hq hpq => ?_
  have hmarks := marksInTags_of_infix (hpieces.isInfix p hp) hhtml
  have hmarks' := marksInTags_of_infix (hpieces'.isInfix q hq) hother
  have hheadings := (hpieces.isReadBack hts p hp).sameHeadings hpq hmarks hmarks'
  exact Slide.sameOutsideComments_ofFragment hheadings.trim showNotes

/-- A comment in front of a heading. -/
def remarked (remark : Text) : List Token :=
  [.comment remark, .tag ⟨false, "h1", [], false⟩, .plain ['T'], .tag ⟨true, "h1", [], false⟩]

theorem isReadBack_remarked {remark : Text} (h : occursIn "-->" remark = false) :
    IsReadBack (remarked remark) :=
  .markup (ofMarkup?_comment h _) (.markup (by cbv) (.letter (by cbv) (.markup (by cbv) .nil)))

theorem sameButComments_remarked {b c : Text} (hb : occursIn "-->" b = false)
    (hc : occursIn "-->" c = false) :
    SameButComments (spell (remarked b)) (spell (remarked c)) :=
  (isReadBack_remarked hb).sameButComments
    (.cons (.comment hb hc) (List.forall₂_same.2 fun t _ => .same t))

theorem slides_remarked : SameButComments (spell (remarked "old")) (spell (remarked "new")) ∧
    headingsInTags (spell (remarked "old")) ∧ headingsInTags (spell (remarked "new")) ∧
      List.Forall₂ SameButComments (split (spell (remarked "old")) 1)
        (split (spell (remarked "new")) 1) ∧
      List.Forall₂ Slide.SameOutsideComments
        ((split (spell (remarked "old")) 1).map fun f => Slide.ofFragment f true)
        ((split (spell (remarked "new")) 1).map fun f => Slide.ofFragment f true) := by
  have hsame := sameButComments_remarked (b := "old") (c := "new") (by cbv) (by cbv)
  have hold : headingsInTags (spell (remarked "old")) := by
    rw [(isReadBack_remarked (by cbv)).headingsInTags_spell]
    cbv
  have hnew : headingsInTags (spell (remarked "new")) := by
    rw [(isReadBack_remarked (by cbv)).headingsInTags_spell]
    cbv
  obtain ⟨hsplit, hslides⟩ := slides_of_sameButComments hsame 1
  exact ⟨hsame, hold, hnew, hsplit, hslides hold hnew true⟩

/-- A heading in a comment titles the slide, and another body of the comment leaves the title to the
heading behind it. -/
theorem title_of_commentedHeading :
    SameButComments (spell (remarked "<h1>Old</h1>")) (spell (remarked "old")) ∧
      split (spell (remarked "<h1>Old</h1>")) 1 = ["<!--<h1>Old</h1>--><h1>T</h1>"] ∧
      split (spell (remarked "old")) 1 = ["<!--old--><h1>T</h1>"] ∧
      (Slide.ofFragment "<!--<h1>Old</h1>--><h1>T</h1>" true).title = some "Old" ∧
      (Slide.ofFragment "<!--old--><h1>T</h1>" true).title = some "T" := by
  refine ⟨sameButComments_remarked (by cbv) (by cbv), ?_, ?_, by cbv, by cbv⟩
  · rw [split_spell 1 (isReadBack_remarked (by cbv))]
    cbv
  · rw [split_spell 1 (isReadBack_remarked (by cbv))]
    cbv

end Fragment

end Slideshow
