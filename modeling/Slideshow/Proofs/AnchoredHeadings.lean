import Slideshow.Proofs.AnchoredText

/-!
# Slides of anchored documents

A heading announces notes by the words that fill it. An anchor in front of these words hides them, so
no heading of an anchored document announces notes, and what stood behind such a heading is shown.
Where no heading announces notes the anchors do not matter: the document is cut at the same places
and its slides are the same but for the anchors.
-/
namespace Slideshow
open Text

namespace Markup

/-! ## Headings that announce notes -/

/-- Whether the open tag of a heading starts a notes heading. -/
def holdsNotesHeading : List Token → Bool
  | [] => false
  | t :: ts => isHeadingTag t && (notesHeading? (spell (t :: ts))).isSome || holdsNotesHeading ts

/-- A heading of a document announces notes. -/
def hasNotesHeading (html : Text) : Bool := holdsNotesHeading (tokens html)

/-- Not the open tag of a heading, or one that holds no bracket inside. -/
def isBare (t : Token) : Bool := !isHeadingTag t || '<' ∉ t.source.tail

/-- No open tag of a heading holds another bracket. -/
def hasBareHeadings (html : Text) : Bool := (tokens html).all isBare

theorem holdsNotesHeading_letters (s : Text) (ts : List Token) :
    holdsNotesHeading (letters s ++ ts) = holdsNotesHeading ts := by
  induction s with
  | nil => rfl
  | cons c s ih => exact ih

theorem holdsNotesHeading_inLetters (ts : List Token) :
    holdsNotesHeading (inLetters ts) = holdsNotesHeading ts := by
  induction ts with
  | nil => rfl
  | cons t ts ih =>
    cases t with
    | plain s => exact (holdsNotesHeading_letters s (inLetters ts)).trans ih
    | comment body => exact ih
    | tag tag =>
      have hspell : spell (inLetters (.tag tag :: ts)) = spell (.tag tag :: ts) :=
        spell_inLetters _
      simp only [inLetters, List.flatMap_cons, List.singleton_append] at hspell ih ⊢
      rw [holdsNotesHeading, holdsNotesHeading, hspell, ih]

theorem all_isBare_inLetters (ts : List Token) :
    (inLetters ts).all isBare = ts.all isBare := by
  induction ts with
  | nil => rfl
  | cons t ts ih =>
    rw [← List.singleton_append, inLetters_append, List.all_append, List.all_append, ih]
    congr 1
    cases t with
    | plain s => simp [inLetters, letters, isBare, isHeadingTag]
    | comment body => rfl
    | tag tag => rfl

section Read
variable {t : Token} {ts us : List Token}

theorem IsReadBack.hasNotesHeading_spell (h : IsReadBack ts) :
    hasNotesHeading (spell ts) = holdsNotesHeading ts := by
  rw [hasNotesHeading, ← holdsNotesHeading_inLetters, h.inLetters_tokens]

theorem IsReadBack.hasBareHeadings_spell (h : IsReadBack ts) :
    hasBareHeadings (spell ts) = ts.all isBare := by
  rw [hasBareHeadings, ← all_isBare_inLetters, h.inLetters_tokens]

/-- A heading announces notes by what stands behind its open tag. -/
theorem notesHeading?_of_isHeadingTag (hread : IsReadBack (t :: ts)) (ht : isHeadingTag t)
    (s : Text) : notesHeading? (t.source ++ s) = afterNotes? s := by
  obtain ⟨c, u, hsource, hclose, -, hstart⟩ := exists_of_isHeadingTag hread ht
  rw [hsource, List.append_assoc, List.singleton_append, notesHeading?_tag hclose, if_pos hstart]

theorem holdsNotesHeading_heading_iff (hread : IsReadBack (t :: ts)) (ht : isHeadingTag t) :
    holdsNotesHeading (t :: ts) = false ↔
      afterNotes? (spell ts) = none ∧ holdsNotesHeading ts = false := by
  rw [holdsNotesHeading, ht, Bool.true_and, Bool.or_eq_false_iff, spell_cons,
    notesHeading?_of_isHeadingTag hread ht, Option.isSome_eq_false_iff, Option.isNone_iff_eq_none]

theorem holdsNotesHeading_of_append (h : holdsNotesHeading (ts ++ us) = false) :
    holdsNotesHeading ts = false ∧ holdsNotesHeading us = false := by
  induction ts with
  | nil => exact ⟨rfl, h⟩
  | cons t ts ih =>
    rw [List.cons_append, holdsNotesHeading, Bool.or_eq_false_iff] at h
    obtain ⟨hhere, hrest⟩ := h
    refine ⟨?_, (ih hrest).2⟩
    rw [holdsNotesHeading, (ih hrest).1, Bool.or_false]
    cases ht : isHeadingTag t with
    | false => rfl
    | true =>
      rw [ht, Bool.true_and, Option.isSome_eq_false_iff, Option.isNone_iff_eq_none] at hhere
      rw [Bool.true_and, Option.isSome_eq_false_iff, Option.isNone_iff_eq_none]
      cases hs : notesHeading? (spell (t :: ts)) with
      | none => rfl
      | some rest =>
        obtain ⟨m, hm, -, hany⟩ := exists_of_notesHeading? hs
        have hmore := hany (rest ++ spell us)
        rw [← List.cons_append, spell_append, hm, List.append_assoc, List.cons_append, hmore] at hhere
        simp at hhere

theorem holdsNotesHeading_of_isInfix (h : us <:+: ts) (hts : holdsNotesHeading ts = false) :
    holdsNotesHeading us = false := by
  obtain ⟨before, after, rfl⟩ := h
  exact (holdsNotesHeading_of_append (holdsNotesHeading_of_append hts).1).2

/-- Behind an anchor no heading announces notes. -/
theorem AnchoredTokens.holdsNotesHeading_eq_false (hread : IsReadBack ts)
    (h : AnchoredTokens ts us) : holdsNotesHeading us = false := by
  induction h with
  | nil => rfl
  | @heading t attributes ts us ht ha _ ih =>
    have hnone : notesHeading? (spell (t :: (anchorTokens attributes ++ us))) = none := by
      rw [spell_cons, notesHeading?_of_isHeadingTag hread ht, spell_append, spell_anchorTokens,
        afterNotes?_anchor]
    have hanchor : ∀ vs, holdsNotesHeading (anchorTokens attributes ++ vs) =
        holdsNotesHeading vs := fun vs => by
      have hno := isHeadingTag_anchorTokens attributes
      simp only [anchorTokens, List.forall_mem_cons] at hno
      simp only [anchorTokens, List.cons_append, holdsNotesHeading, hno.1, hno.2.1,
        Bool.false_and, Bool.false_or, List.nil_append]
    rw [holdsNotesHeading, hnone, hanchor, ih hread.tail]
    simp
  | other ht _ ih =>
    rw [holdsNotesHeading, ht, ih hread.tail]
    rfl

/-- The texts of anchored tokens. -/
theorem AnchoredTokens.anchoring {strict : Prop} (hread : IsReadBack ts)
    (h : AnchoredTokens ts us) (hnotes : holdsNotesHeading ts = false)
    (hbare : strict → ∀ t ∈ ts, isBare t) : Anchoring strict (spell ts) (spell us) := by
  induction h with
  | nil => exact .last (by simp)
  | @heading t attributes ts us ht ha _ ih =>
    obtain ⟨c, u, hsource, hclose, hc, -⟩ := exists_of_isHeadingTag hread ht
    obtain ⟨hnone, hnotes⟩ := (holdsNotesHeading_heading_iff hread ht).1 hnotes
    have hopen : OpensTag strict ('<' :: c :: u) := by
      refine ⟨[], c, u, rfl, hc, fun hstrict => ?_⟩
      have hinside := hbare hstrict t List.mem_cons_self
      simp [isBare, ht, hsource] at hinside
      exact hinside.2
    have hrest := ih hread.tail hnotes fun hstrict u hu =>
      hbare hstrict u (List.mem_cons_of_mem t hu)
    rw [spell_cons, spell_cons, spell_append, spell_anchorTokens, hsource, List.append_assoc,
      List.append_assoc, List.singleton_append, List.singleton_append]
    exact .tag hclose (.anchored hopen hnone ha) hrest
  | @other t ts us ht _ ih =>
    rw [holdsNotesHeading, ht, Bool.false_and, Bool.false_or] at hnotes
    have hrest := ih hread.tail hnotes fun hstrict u hu =>
      hbare hstrict u (List.mem_cons_of_mem t hu)
    exact hrest.append t.source

end Read

end Markup

/-! ## Fragments -/

namespace Fragment
open Markup Forest

section Anchored
variable {ts us ps qs : List Token}

theorem all_isVacantToken_of_anchored (h : AnchoredTokens ts us) :
    us.all isVacantToken = ts.all isVacantToken := by
  induction h with
  | nil => rfl
  | @heading t _ _ _ ht _ _ _ =>
    have htag : isVacantToken t = false := by
      cases t with
      | tag tag => rfl
      | comment body => simp [isHeadingTag] at ht
      | plain s => simp [isHeadingTag] at ht
    rw [List.all_cons, List.all_cons, htag, Bool.false_and, Bool.false_and]
  | other _ _ ih => rw [List.all_cons, List.all_cons, ih]

/-- A heading is no rule. -/
theorem isRule_of_isHeadingTag {t : Token} (ht : isHeadingTag t) (depth : Nat) :
    isRule depth t = false := by
  unfold isHeadingTag at ht
  split at ht
  · next c d attributes slash =>
    simp only [Bool.and_eq_true] at ht
    have hd : d.toLower ≠ 'r' := by
      have hdigit : 49 ≤ d.toNat ∧ d.toNat ≤ 54 := by
        by_contra hno
        simp [headingDigit?_eq, hno] at ht
      have hupper : d.isUpper = false := by
        rw [← Bool.not_eq_true, isUpper_iff]
        omega
      rw [toLower_of_not_isUpper hupper]
      rintro rfl
      simp at hdigit
    simp [isRule, elementName, hd]
  · simp at ht

/-- An anchor joins the segment under way. -/
theorem segments_anchor {attributes : Text} (ha : isAnchorText attributes) (level depth : Nat)
    (pending rest : List Token) :
    segments level depth pending (anchorTokens attributes ++ rest) =
      segments level depth (pending ++ anchorTokens attributes) rest := by
  have hlevel : levelOfName? "a" = none := by cbv
  have hsmall : smallName "a" = ("a" : Text) := by cbv
  have helement : isElement "a" attributes := by
    obtain ⟨-, -, -, hend⟩ := isAnchorText_iff.1 ha
    have hslash : dropEnding? "/" attributes = none := by
      rw [Option.eq_none_iff_forall_ne_some]
      intro u hu
      rw [dropEnding?_eq_some_iff] at hu
      simp [hu] at hend
    rw [isElement, hsmall, hslash]
    cbv
  have hrule : isRule depth (.tag (openTag "a" attributes)) = false := by
    rw [isRule, elementName_openTag, hsmall]
    simp
  have hstart : ∀ ts, startsSlide level depth ts (.tag (openTag "a" attributes)) = false := by
    intro ts
    simp only [startsSlide, opensSlide, elementName_openTag, hsmall, hlevel, Option.any_none,
      Bool.false_and, Bool.and_false]
  have hdepth : depthBehind depth (.tag (openTag "a" attributes)) = depth + 1 := by
    rw [depthBehind, openTag_closing, depthInside_openTag helement]
    rfl
  rw [anchorTokens, List.cons_append, segments_join hrule (by rw [hstart, Bool.false_and]), hdepth,
    List.cons_append, segments_join rfl rfl, List.append_assoc]
  rfl

/-- Where no heading announces notes, anchored documents are cut at the same places. -/
theorem forall₂_segments_of_anchored (hread : IsReadBack ts) (h : AnchoredTokens ts us)
    (hnotes : holdsNotesHeading ts = false) (hpending : AnchoredTokens ps qs) (level depth : Nat) :
    List.Forall₂ AnchoredTokens (segments level depth ps ts) (segments level depth qs us) := by
  induction h generalizing depth ps qs with
  | nil => exact .cons hpending .nil
  | @heading t attributes ts us ht ha h ih =>
    obtain ⟨hnone, hrest⟩ := (holdsNotesHeading_heading_iff hread ht).1 hnotes
    have hstarts : startsSlide level depth (anchorTokens attributes ++ us) t =
        startsSlide level depth ts t := by
      apply startsSlide_congr hread
      rw [hnone, spell_append, spell_anchorTokens, afterNotes?_anchor]
    have halone : AnchoredTokens [t] ([t] ++ anchorTokens attributes) := by
      simpa using AnchoredTokens.heading ht ha .nil
    rw [segments, segments, isRule_of_isHeadingTag ht, hstarts,
      all_isVacantToken_of_anchored hpending]
    simp only [Bool.false_eq_true, if_false, segments_anchor ha, List.append_assoc]
    split
    · exact .cons hpending (ih hread.tail hrest halone _)
    · exact ih hread.tail hrest (hpending.append halone) _
  | @other t ts us ht h ih =>
    have hrest := holdsNotesHeading_of_isInfix (List.suffix_cons t ts).isInfix hnotes
    have htexts : Anchoring False (spell ts) (spell us) :=
      h.anchoring hread.tail hrest False.elim
    have hstarts : startsSlide level depth us t = startsSlide level depth ts t := by
      apply startsSlide_congr hread
      rcases rel_iff.1 htexts.rel_afterNotes? with ⟨hs, hu⟩ | ⟨p, q, hs, hu, -⟩
      · rw [hs, hu]
      · rw [hs, hu]
        rfl
    have halone : AnchoredTokens [t] [t] := .other ht .nil
    rw [segments, segments, hstarts, all_isVacantToken_of_anchored hpending]
    split
    · exact .cons hpending (ih hread.tail hrest .nil _)
    split
    · exact .cons hpending (ih hread.tail hrest halone _)
    · exact ih hread.tail hrest (hpending.append halone) _

end Anchored

end Fragment

/-! ## Slides -/

namespace Slide
open Markup

/-- Two slides that are the same but for anchors. In titles, and in content that is not compared
strictly, white space around an anchor may be missing on the other side. -/
structure SameButAnchors (strict : Prop) (s t : Slide) : Prop where
  number : s.number = t.number
  title : Option.Rel (Markup.SameButAnchors False) s.title t.title
  level : s.level = t.level
  header : Option.Rel (Markup.SameButAnchors True) s.header t.header
  content : Markup.SameButAnchors strict s.content t.content
  presenterNotes : Option.Rel (Markup.SameButAnchors True) s.presenterNotes t.presenterNotes
  classes : s.classes = t.classes
  source : s.source = t.source
  rawNotes : Option.Rel (Markup.SameButAnchors True) s.rawNotes t.rawNotes

section Anchored
variable {strict : Prop} {s t u v : Text}

theorem sameButAnchors_joinContent (hst : Anchoring strict s t)
    (huv : InFront strict (¬strict) u v) :
    Markup.SameButAnchors strict (joinContent s u) (joinContent t v) := by
  cases huv with
  | empty h =>
    simp only [joinContent, hst.trim.eq_nil_iff, h.trim.eq_nil_iff]
    split
    · exact h.trim.sameButAnchors
    split
    · exact hst.trim.sameButAnchors
    · rw [List.append_assoc, List.append_assoc]
      exact hst.trim.sameButAnchors.append₂ (.append _ h.trim.sameButAnchors)
  | @anchored attributes u v hloose ha h =>
    obtain ⟨w, hw, htrim⟩ := exists_trim_anchor attributes v
    have hne : trim (anchor attributes ++ v) ≠ [] := by
      rw [htrim, anchor_append]
      simp
    have hbehind : ∀ {b r : Text}, isAllBlank b → Markup.SameButAnchors strict r (trim v) →
        Markup.SameButAnchors strict r (b ++ trim (anchor attributes ++ v)) := by
      intro b r hb hr
      rw [htrim]
      exact .anchor ha hb hw (fun hstrict => absurd hstrict hloose) hr
    have hafter : Markup.SameButAnchors strict (trim u) (trim (anchor attributes ++ v)) :=
      hbehind (b := []) rfl h.trim.sameButAnchors
    simp only [joinContent, hst.trim.eq_nil_iff, if_neg hne]
    split
    · exact hafter
    split
    · next hu =>
      -- The other slide has nothing behind its heading, and no line break there either.
      have hnone : Markup.SameButAnchors strict [] (trim v) := by
        rw [h.trim.eq_nil_iff.1 hu]
        exact .nil
      have hbreak := hst.trim.sameButAnchors.append₂ (hbehind (b := ['\n']) (by decide) hnone)
      simpa using hbreak
    · rw [List.append_assoc, List.append_assoc]
      exact hst.trim.sameButAnchors.append₂ (.append _ hafter)

/-- Text that is shown, with the same heading or none. -/
theorem sameButAnchors_ofShown (h : Anchoring strict s t) :
    (ofShown s).SameButAnchors strict (ofShown t) := by
  simp only [ofShown]
  rcases rel_iff.1 h.rel_find? with ⟨hs, ht⟩ | ⟨p, q, hs, ht, hbefore, hheading, hafter⟩
  · rw [hs, ht]
    exact {
      number := rfl
      title := .none
      level := rfl
      header := .none
      content := h.trim.sameButAnchors
      presenterNotes := .none
      classes := rfl
      source := rfl
      rawNotes := .none }
  · rw [hs, ht]
    exact {
      number := rfl
      title := .some hheading.title
      level := congrArg some hheading.level
      header := .some hheading.source
      content := sameButAnchors_joinContent hbefore hafter
      presenterNotes := .none
      classes := rfl
      source := rfl
      rawNotes := .none }

/-- The notes of both texts begin at the same place. -/
theorem sameButAnchors_ofFragment (h : Anchoring strict s t) (showNotes : Bool) :
    (ofFragment s showNotes).SameButAnchors strict (ofFragment t showNotes) := by
  have hcut := h.rel_cutAtNotes?
  have hshown : Anchoring strict (Fragment.shown s) (Fragment.shown t) :=
    Fragment.rel_shown h hcut
  have hnotes : Option.Rel (Markup.SameButAnchors True) (Fragment.notes s) (Fragment.notes t) :=
    rel_map hcut fun p q hpq => hpq.2.trim.sameButAnchors
  have hslide := sameButAnchors_ofShown hshown
  rw [ofFragment_eq, ofFragment_eq]
  cases showNotes with
  | true => exact { hslide with presenterNotes := hnotes, rawNotes := hnotes }
  | false => exact { hslide with presenterNotes := .none, rawNotes := hnotes }

end Anchored

end Slide

/-! ## Slides of documents -/

namespace Fragment
open Markup

/-- No heading of an anchored document announces notes. If none of the document without its anchors
does either, both have the same slides but for the anchors: as many of them, with notes in one where
there are notes in the other, and the same notes and content. White space around an anchor differs
only in titles, unless the open tag of a heading holds another bracket. -/
theorem slides_of_anchored {html other : Text} (h : Anchored html other) :
    hasNotesHeading other = false ∧ (hasNotesHeading html = false → ∀ level,
      List.Forall₂ (fun f g => SameButAnchors True f g ∧ ∀ showNotes,
        (Slide.ofFragment f showNotes).SameButAnchors (hasBareHeadings html)
          (Slide.ofFragment g showNotes)) (split html level) (split other level)) := by
  obtain ⟨ts, rfl, hts⟩ := exists_isReadBack html
  obtain ⟨us, hanchored, rfl⟩ := (anchored_spell_iff hts).1 h
  have hus := hanchored.isReadBack hts
  rw [hus.hasNotesHeading_spell, hts.hasNotesHeading_spell, hts.hasBareHeadings_spell]
  refine ⟨hanchored.holdsNotesHeading_eq_false hts, fun hnotes level => ?_⟩
  have hpieces := isSegmented_segments level hts
  rw [split_spell level hts, split_spell level hus]
  refine forall₂_segmentTexts_of_vacant (fun _ _ => all_isVacantToken_of_anchored)
    (forall₂_segments_of_anchored hts hanchored hnotes .nil level 0) fun p hp q _ hpq => ?_
  have hpart := hpieces.isInfix p hp
  have htext := hpq.anchoring (hpieces.isReadBack hts p hp) (holdsNotesHeading_of_isInfix hpart hnotes)
    fun hall t ht => List.all_eq_true.1 hall t (hpart.subset ht)
  exact ⟨htext.trim.sameButAnchors, Slide.sameButAnchors_ofFragment htext.trim⟩

/-- A heading, and another heading with a letter behind it. -/
def twoHeadings (heading : Text) : List Token :=
  .tag ⟨false, "h1", [], false⟩ :: .plain ['T'] :: .tag ⟨true, "h1", [], false⟩ ::
    .tag ⟨false, "h1", [], false⟩ :: (letters heading ++ [.tag ⟨true, "h1", [], false⟩, .plain ['n']])

/-- The same document with anchors. -/
def linkedHeadings (heading : Text) : List Token :=
  .tag ⟨false, "h1", [], false⟩ :: (anchorTokens " id=t" ++
    .plain ['T'] :: .tag ⟨true, "h1", [], false⟩ :: .tag ⟨false, "h1", [], false⟩ ::
      (anchorTokens " id=n" ++
        (letters heading ++ [.tag ⟨true, "h1", [], false⟩, .plain ['n']])))

theorem anchoredTokens_twoHeadings (heading : Text) :
    AnchoredTokens (twoHeadings heading) (linkedHeadings heading) := by
  refine .heading (by cbv) (by cbv) (.other rfl (.other (by cbv) (.heading (by cbv) (by cbv) ?_)))
  exact anchoredTokens_letters_iff.2 ⟨_, rfl, .other (by cbv) (.other rfl .nil)⟩

theorem isReadBack_twoHeadings {heading : Text} (h : '<' ∉ heading) :
    IsReadBack (twoHeadings heading) := by
  have hopen : Token.ofMarkup? "<h1>" = some (.tag ⟨false, "h1", [], false⟩, []) := by cbv
  have hclose : Token.ofMarkup? "</h1>" = some (.tag ⟨true, "h1", [], false⟩, []) := by cbv
  have hletter : ∀ {c : Char} {ts : List Token}, c ≠ '<' → IsReadBack ts →
      IsReadBack (.plain [c] :: ts) := fun {c ts} hc hts =>
    hts.letters_append (w := [c]) (by simpa using hc.symm)
  refine .markup (Token.ofMarkup?_source_append hopen _) (hletter (by decide) ?_)
  refine .markup (Token.ofMarkup?_source_append hclose _) ?_
  refine .markup (Token.ofMarkup?_source_append hopen _) (.letters_append h ?_)
  exact .markup (Token.ofMarkup?_source_append hclose _) (hletter (by decide) .nil)

theorem anchored_twoHeadings {heading : Text} (h : '<' ∉ heading) :
    Anchored (spell (twoHeadings heading)) (spell (linkedHeadings heading)) :=
  (anchored_spell_iff (isReadBack_twoHeadings h)).2 ⟨_, anchoredTokens_twoHeadings heading, rfl⟩

theorem slides_of_linkedHeadings :
    Anchored (spell (twoHeadings "Now")) (spell (linkedHeadings "Now")) ∧
      hasNotesHeading (spell (twoHeadings "Now")) = false ∧
      hasNotesHeading (spell (linkedHeadings "Now")) = false ∧
      List.Forall₂ (fun f g => SameButAnchors True f g ∧ ∀ showNotes,
        (Slide.ofFragment f showNotes).SameButAnchors
          (hasBareHeadings (spell (twoHeadings "Now"))) (Slide.ofFragment g showNotes))
        (split (spell (twoHeadings "Now")) 1) (split (spell (linkedHeadings "Now")) 1) := by
  have hno : '<' ∉ ("Now" : Text) := by simp
  have hnotes : hasNotesHeading (spell (twoHeadings "Now")) = false := by
    rw [(isReadBack_twoHeadings hno).hasNotesHeading_spell]
    cbv
  obtain ⟨hother, hslides⟩ := slides_of_anchored (anchored_twoHeadings hno)
  exact ⟨anchored_twoHeadings hno, hnotes, hother, hslides hnotes 1⟩

/-- An anchor in a notes heading makes the heading start a slide that shows the notes. -/
theorem notes_of_linkedHeadings :
    Anchored (spell (twoHeadings "Presenter Notes")) (spell (linkedHeadings "Presenter Notes")) ∧
      split (spell (twoHeadings "Presenter Notes")) 1 =
        ["<h1>T</h1><h1>Presenter Notes</h1>n"] ∧
      split (spell (linkedHeadings "Presenter Notes")) 1 =
        ["<h1><a id=t></a>T</h1>", "<h1><a id=n></a>Presenter Notes</h1>n"] ∧
      (Slide.ofFragment "<h1>T</h1><h1>Presenter Notes</h1>n" true).presenterNotes = some "n" ∧
      (Slide.ofFragment "<h1><a id=n></a>Presenter Notes</h1>n" true).presenterNotes = none ∧
      (Slide.ofFragment "<h1><a id=n></a>Presenter Notes</h1>n" true).content = "n" := by
  have hno : '<' ∉ ("Presenter Notes" : Text) := by simp
  have hread := isReadBack_twoHeadings hno
  refine ⟨anchored_twoHeadings hno, ?_, ?_, by cbv, by cbv, by cbv⟩
  · rw [split_spell 1 hread]
    cbv
  · rw [split_spell 1 ((anchoredTokens_twoHeadings _).isReadBack hread)]
    cbv

end Fragment

end Slideshow
