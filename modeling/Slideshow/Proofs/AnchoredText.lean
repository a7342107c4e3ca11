import Slideshow.Proofs.CommentedHeadings
import Slideshow.Proofs.InsertedAnchors

/-!
# Texts with anchors behind open tags

Up to each closing bracket an anchored text has the letters of the text without its anchors. The
headings that matter to a slide are read from such letters, and an anchor holds no mark of one, so
they are found at the same places as long as no heading in front of an anchor announces notes.
-/
namespace Slideshow.Markup
open Text

/-! ## Behind an open tag -/

/-- The letters up to a closing bracket open a tag that ends there. If that is strict, no other
bracket stands in the tag. -/
def OpensTag (strict : Prop) (x : Text) : Prop :=
  ∃ y c v, x = y ++ '<' :: c :: v ∧ c.isAlpha ∧ (strict → '<' ∉ v)

/-- What is put in behind a closing bracket: nothing, or behind an open tag an anchor. The text that
follows does not announce notes. -/
inductive IsGap (strict : Prop) (x s : Text) : Text → Prop
  | empty : IsGap strict x s []
  | anchored {attributes : Text} (hx : OpensTag strict x) (hs : afterNotes? s = none)
    (ha : isAnchorText attributes) : IsGap strict x s (anchor attributes)

/-- Two texts of the same letters, but for what is put in behind closing brackets. -/
inductive Anchoring (strict : Prop) : Text → Text → Prop
  | last {x : Text} (hx : '>' ∉ x) : Anchoring strict x x
  | tag {x g s t : Text} (hx : '>' ∉ x) (hg : IsGap strict x s g) (h : Anchoring strict s t) :
    Anchoring strict (x ++ '>' :: s) (x ++ '>' :: (g ++ t))

/-- A text holds its first closing bracket at one place. -/
private theorem eq_of_bracket {x y s t : Text} (hx : '>' ∉ x) (hy : '>' ∉ y)
    (h : x ++ '>' :: s = y ++ '>' :: t) : x = y := by
  have htake := congrArg (List.takeWhile fun c => decide (c ≠ '>')) h
  rwa [(Forest.read_inside hx s).1, (Forest.read_inside hy t).1] at htake

/-- A notes heading is read from the letters up to its bracket. -/
theorem afterNotes?_tag {x : Text} (hx : '>' ∉ x) (s : Text) :
    afterNotes? (x ++ '>' :: s) = (afterNotes? (x ++ ['>'])).map fun _ => s := by
  have hany : ∀ {u rest : Text}, afterNotes? (x ++ '>' :: u) = some rest →
      ∀ r, afterNotes? (x ++ '>' :: r) = some r := by
    intro u rest h
    obtain ⟨w, n, d, he, -, -, hclose, hmore⟩ := exists_of_afterNotes? h
    obtain rfl := eq_of_bracket hx hclose he
    exact hmore
  cases h : afterNotes? (x ++ ['>']) with
  | some rest => exact hany h s
  | none =>
    cases hs : afterNotes? (x ++ '>' :: s) with
    | none => rfl
    | some rest => simp [hany hs []] at h

/-- An anchor is no word. -/
theorem afterNotes?_anchor (attributes s : Text) :
    afterNotes? (anchor attributes ++ s) = none := by
  cases h : afterNotes? (anchor attributes ++ s) with
  | none => rfl
  | some rest =>
    obtain ⟨w, n, d, he, hw, -⟩ := exists_of_afterNotes? h
    rw [anchor_append] at he
    cases w with
    | nil => simp at he
    | cons c w =>
      obtain ⟨rfl, -⟩ := List.cons.inj he
      simp at hw

theorem afterNotes?_eq_none_of_append {s u : Text} (h : afterNotes? (s ++ u) = none) :
    afterNotes? s = none := by
  cases hs : afterNotes? s with
  | none => rfl
  | some rest =>
    obtain ⟨w, n, d, rfl, -, -, -, hany⟩ := exists_of_afterNotes? hs
    have hmore := hany (rest ++ u)
    rw [List.append_assoc, List.cons_append, hmore] at h
    simp at h

namespace OpensTag
variable {strict : Prop} {x : Text}

theorem append (u : Text) (h : OpensTag strict x) : OpensTag strict (u ++ x) := by
  obtain ⟨y, c, v, rfl, hc, hv⟩ := h
  exact ⟨u ++ y, c, v, by simp, hc, hv⟩

theorem trimLeft (h : OpensTag strict x) : OpensTag strict (trimLeft x) := by
  obtain ⟨y, c, v, rfl, hc, hv⟩ := h
  exact ⟨Text.trimLeft y, c, v, trimLeft_append_cons isBlank_bracket y _, hc, hv⟩

/-- The close tag of a notes heading opens no tag. -/
theorem afterNotes?_eq_none (h : OpensTag strict x) (hx : '>' ∉ x) :
    afterNotes? (x ++ ['>']) = none := by
  cases hs : afterNotes? (x ++ ['>']) with
  | none => rfl
  | some rest =>
    obtain ⟨w, n, d, he, hw, htag, hclose, -⟩ := exists_of_afterNotes? hs
    obtain rfl := eq_of_bracket hx hclose he
    obtain ⟨y, c, v, he', hc, -⟩ := h
    obtain ⟨-, -, hfront⟩ := (List.append_cons_inj_of_notMem hw htag).1 he'
    obtain rfl : '/' = c := (List.cons.inj hfront).1
    simp at hc

/-- No close tag of a heading ends where a tag without another bracket does. -/
theorem closingTag?_eq_none (h : OpensTag strict x) (hstrict : strict) {z : Text}
    (hz : z <:+ x) : closingTag? z = none := by
  cases hd : closingTag? z with
  | none => rfl
  | some d =>
    obtain ⟨rfl, hz'⟩ : z = ['<', '/', 'h', d] ∧ '<' ∉ ['/', 'h', d] := by
      simp only [closingTag?, Option.bind_eq_bind, Option.bind_eq_some_iff,
        dropAffix?_eq_some_iff] at hd
      obtain ⟨v, rfl, hv⟩ := hd
      split at hv
      · next e =>
        obtain ⟨n, hn, rfl⟩ := Option.map_eq_some_iff.1 hv
        have he : '<' ≠ e := by
          rintro rfl
          simp [show headingDigit? '<' = none by decide] at hn
        exact ⟨by simp, by simp [he]⟩
      · simp at hv
    obtain ⟨y, c, v, rfl, hc, hv⟩ := h
    have htag : '<' ∉ c :: v := by
      have hne : '<' ≠ c := by
        rintro rfl
        simp at hc
      simp [hne, hv hstrict]
    -- Each of the two ends of the text holds one bracket, so they are the same.
    rcases List.suffix_or_suffix_of_suffix hz (List.suffix_append y _) with hs | hs
    · rcases List.suffix_cons_iff.1 hs with heq | hs
      · obtain rfl : '/' = c := (List.cons.inj (List.cons.inj heq).2).1
        simp at hc
      · exact absurd (hs.subset (by simp)) htag
    · rcases List.suffix_cons_iff.1 hs with heq | hs
      · obtain rfl : c = '/' := (List.cons.inj (List.cons.inj heq).2).1
        simp at hc
      · exact absurd (hs.subset (by simp)) hz'

end OpensTag

section Gap
variable {strict : Prop} {x s t g : Text}

namespace IsGap

theorem append (u : Text) (h : IsGap strict x s g) : IsGap strict (u ++ x) s g := by
  cases h with
  | empty => exact .empty
  | anchored hx hs ha => exact .anchored (hx.append u) hs ha

theorem trimLeft (h : IsGap strict x s g) : IsGap strict (trimLeft x) s g := by
  cases h with
  | empty => exact .empty
  | anchored hx hs ha => exact .anchored hx.trimLeft hs ha

theorem of_append {u : Text} (h : IsGap strict x (s ++ u) g) : IsGap strict x s g := by
  cases h with
  | empty => exact .empty
  | anchored hx hs ha => exact .anchored hx (afterNotes?_eq_none_of_append hs) ha

theorem trimRight_append (h : IsGap strict x s g) (t : Text) :
    trimRight (g ++ t) = g ++ trimRight t := by
  cases h with
  | empty => rfl
  | anchored _ _ _ => exact trimRight_anchor _ t

theorem sameButAnchors {strict' : Prop} (h : IsGap strict x s g)
    (hst : SameButAnchors strict' s t) : SameButAnchors strict' s (g ++ t) := by
  cases h with
  | empty => exact hst
  | anchored _ _ ha => exact hst.insert ha

/-- An anchor holds no mark of a heading. -/
theorem scan_append {β : Type} {read : Text → Option β} (hread : ReadsMarks read)
    (h : IsGap strict x s g) (t : Text) :
    scan read (g ++ t) = (scan read t).map fun p => (g ++ p.1, p.2) := by
  cases h with
  | empty => simp
  | @anchored attributes _ _ ha =>
    obtain ⟨-, hopen, -, -⟩ := isAnchorText_iff.1 ha
    have hmark : ∀ u, startsMark ('<' :: (['a'] ++ u)) = false := fun u => by
      rw [startsMark_cons, List.cons_append, isNumbered_cons, isNumbered_cons]
      rfl
    have hmark' : ∀ u, startsMark ('<' :: (['/', 'a', '>'] ++ u)) = false := fun u => by
      rw [startsMark_cons, List.cons_append, isNumbered_cons, isNumbered_cons, List.cons_append,
        isNumbered_cons]
      rfl
    have hanchor : ∀ u, anchor attributes ++ u =
        '<' :: (['a'] ++ (attributes ++ ['>']) ++ '<' :: (['/', 'a', '>'] ++ u)) := fun u => by
      simp [anchor_append]
    rw [hanchor, hread.scan_cons (by simpa using hmark _), hread.scan_letters (by simpa using hopen),
      hread.scan_cons (hmark' t), hread.scan_letters (by decide)]
    simp [hanchor, Function.comp_def]

end IsGap

namespace Anchoring

theorem letter (c : Char) (h : Anchoring strict s t) : Anchoring strict (c :: s) (c :: t) := by
  by_cases hc : c = '>'
  · subst hc
    exact .tag (x := []) (g := []) (by simp) .empty h
  · cases h with
    | last hx => exact .last (by simp [hx, Ne.symm hc])
    | @tag x g s t hx hg h =>
      exact .tag (x := c :: x) (by simp [hx, Ne.symm hc]) (hg.append [c]) h

theorem append (u : Text) (h : Anchoring strict s t) : Anchoring strict (u ++ s) (u ++ t) := by
  induction u with
  | nil => exact h
  | cons c u ih => exact ih.letter c

theorem sameButAnchors {strict' : Prop} (h : Anchoring strict s t) :
    SameButAnchors strict' s t := by
  induction h with
  | @last x _ => exact .refl x
  | @tag x g s t _ hg _ ih => exact .append x (.letter '>' (hg.sameButAnchors ih))

theorem eq_nil_iff (h : Anchoring strict s t) : s = [] ↔ t = [] := by
  cases h with
  | last _ => rfl
  | tag _ _ _ => simp

/-! ### White space -/

theorem trimLeft (h : Anchoring strict s t) : Anchoring strict (trimLeft s) (trimLeft t) := by
  cases h with
  | last hx => exact .last fun hm => hx ((List.dropWhile_suffix isBlank).subset hm)
  | tag hx hg h =>
    rw [trimLeft_append_cons (by decide), trimLeft_append_cons (by decide)]
    exact .tag (fun hm => hx ((List.dropWhile_suffix isBlank).subset hm)) hg.trimLeft h

theorem trimRight (h : Anchoring strict s t) : Anchoring strict (trimRight s) (trimRight t) := by
  induction h with
  | @last x hx => exact .last fun hm => hx ((trimRight_initial x).subset hm)
  | @tag x g s t hx hg _ ih =>
    obtain ⟨v, hv⟩ := trimRight_initial s
    have hg' := hg
    rw [← hv] at hg'
    rw [trimRight_bracket, trimRight_bracket, hg.trimRight_append]
    exact .tag hx hg'.of_append ih

theorem trim (h : Anchoring strict s t) : Anchoring strict (trim s) (trim t) :=
  h.trimLeft.trimRight

/-! ### The first heading -/

/-- Behind an open tag no close tag of a notes heading ends. -/
theorem rel_afterNotes? (h : Anchoring strict s t) :
    Option.Rel (Anchoring strict) (afterNotes? s) (afterNotes? t) := by
  cases h with
  | last hx =>
    cases hs : afterNotes? s with
    | none => exact .none
    | some rest =>
      obtain ⟨w, n, d, rfl, -⟩ := exists_of_afterNotes? hs
      simp at hx
  | @tag x g s t hx hg h =>
    rw [afterNotes?_tag hx s, afterNotes?_tag hx (g ++ t)]
    cases hg with
    | empty =>
      cases afterNotes? (x ++ ['>']) with
      | none => exact .none
      | some _ => exact .some h
    | anchored hopen _ _ =>
      rw [hopen.afterNotes?_eq_none hx]
      exact .none

/-- What is found in two texts is found at the same place. -/
theorem rel_scan {β : Type} {read : Text → Option β} {R : β → β → Prop}
    (h : Anchoring strict s t) (hread : ReadsMarks read)
    (htag : ∀ {x g s t z : Text}, '>' ∉ x → z <:+ x → IsGap strict x s g → Anchoring strict s t →
      Option.Rel R (read (z ++ '>' :: s)) (read (z ++ '>' :: (g ++ t)))) :
    Option.Rel (fun p q => Anchoring strict p.1 q.1 ∧ R p.2 q.2) (scan read s) (scan read t) := by
  induction h with
  | last hx =>
    rw [hread.scan_eq_none hx]
    exact .none
  | @tag x g s t hx hg h ih =>
    have hrest : Option.Rel (fun p q => Anchoring strict (x ++ '>' :: p.1) (x ++ '>' :: q.1) ∧
        R p.2 q.2) (scan read s) (scan read (g ++ t)) := by
      rw [hg.scan_append hread]
      rcases rel_iff.1 ih with ⟨hs, ht⟩ | ⟨p, q, hs, ht, hpq, hR⟩
      · rw [hs, ht]
        exact .none
      · obtain ⟨u, rfl⟩ := exists_append_of_scan hs
        rw [hs, ht]
        exact .some ⟨.tag hx hg.of_append hpq, hR⟩
    have hfound := rel_scan_tag (S := Anchoring strict)
      (T := fun u v => Anchoring strict (x ++ '>' :: u) (x ++ '>' :: v)) (y := []) hread hx
      (fun z hz => htag hx hz hg h) hrest (fun z hz => .last hz) fun u v huv => huv
    simpa using hfound

end Anchoring

end Gap

/-! ## Headings -/

/-- A text that starts with an anchor, if that is allowed, and goes on as the other text does. -/
inductive InFront (strict allowed : Prop) : Text → Text → Prop
  | empty {s t : Text} (h : Anchoring strict s t) : InFront strict allowed s t
  | anchored {attributes s t : Text} (hallowed : allowed) (ha : isAnchorText attributes)
    (h : Anchoring strict s t) : InFront strict allowed s (anchor attributes ++ t)

/-- White space in front is trimmed on one side only. -/
private theorem exists_trimRight_eq (s : Text) : ∃ w, isAllBlank w ∧ trimRight s = w ++ trim s := by
  induction s with
  | nil => exact ⟨[], rfl, rfl⟩
  | cons c s ih =>
    obtain ⟨w, hw, htrim⟩ := ih
    by_cases hc : isBlank c
    · have hsame : trim (c :: s) = trim s := trim_blank_append (w := [c]) (by simp [isAllBlank, hc]) s
      rw [trimRight_cons, hsame]
      split
      · next hnil =>
        rw [hnil.1] at htrim
        exact ⟨[], rfl, by simpa using (List.append_eq_nil_iff.1 htrim.symm).2.symm⟩
      · exact ⟨c :: w, by simpa [isAllBlank, hc] using hw, by rw [htrim, List.cons_append]⟩
    · exact ⟨[], rfl, by simp [trim, trimLeft, hc]⟩

theorem exists_trim_anchor (attributes s : Text) :
    ∃ w, isAllBlank w ∧ trim (anchor attributes ++ s) = anchor attributes ++ (w ++ trim s) := by
  obtain ⟨w, hw, htrim⟩ := exists_trimRight_eq s
  exact ⟨w, hw, by rw [trim, trimLeft_anchor, trimRight_anchor, htrim]⟩

section Headings
variable {strict : Prop} {x s t g : Text}

theorem InFront.sameButAnchors {strict' allowed : Prop} (h : InFront strict allowed s t) :
    SameButAnchors strict' s t := by
  cases h with
  | empty h => exact h.sameButAnchors
  | anchored _ ha h => exact h.sameButAnchors.insert ha

theorem InFront.trim {strict' allowed : Prop} (h : InFront strict allowed s t)
    (hstrict : strict' → ¬allowed) : SameButAnchors strict' (trim s) (trim t) := by
  cases h with
  | empty h => exact h.trim.sameButAnchors
  | @anchored attributes s t hallowed ha h =>
    obtain ⟨w, hw, htrim⟩ := exists_trim_anchor attributes t
    rw [htrim]
    exact .anchor (v := []) ha rfl hw (fun hs => absurd hallowed (hstrict hs))
      h.trim.sameButAnchors

namespace IsGap

theorem inFront (hg : IsGap strict x s g) (h : Anchoring strict s t) :
    InFront strict True s (g ++ t) := by
  cases hg with
  | empty => exact .empty h
  | anchored _ _ ha => exact .anchored trivial ha h

/-- Behind a close tag of a heading there is no anchor, unless the close tag stands in a tag. -/
theorem inFront_of_closingTag? (hg : IsGap strict x s g) (h : Anchoring strict s t) {z : Text}
    (hz : z <:+ x) {d : Char} (hd : closingTag? z = some d) :
    InFront strict (¬strict) s (g ++ t) := by
  cases hg with
  | empty => exact .empty h
  | anchored hx _ ha =>
    refine .anchored (fun hstrict => ?_) ha h
    simp [hx.closingTag?_eq_none hstrict hz] at hd

theorem rel_afterNotes? (hg : IsGap strict x s g) (h : Anchoring strict s t) :
    Option.Rel (Anchoring strict) (afterNotes? s) (afterNotes? (g ++ t)) := by
  cases hg with
  | empty => exact h.rel_afterNotes?
  | anchored _ hs _ =>
    rw [hs, afterNotes?_anchor]
    exact .none

end IsGap

theorem Anchoring.rel_cutAtNotes? (h : Anchoring strict s t) :
    Option.Rel (fun p q => Anchoring strict p.1 q.1 ∧ Anchoring strict p.2 q.2)
      (cutAtNotes? s) (cutAtNotes? t) := by
  rw [cutAtNotes?_eq_scan, cutAtNotes?_eq_scan]
  refine h.rel_scan readsMarks_notesHeading? fun {x g s t z} hx hz hg h => ?_
  have hz' : '>' ∉ z := fun hm => hx (hz.subset hm)
  rw [notesHeading?_tag hz', notesHeading?_tag hz']
  split
  · exact hg.rel_afterNotes? h
  · exact .none

theorem Anchoring.rel_cutAtClosing? (h : Anchoring strict s t) :
    Option.Rel (fun p q => Anchoring strict p.1 q.1 ∧ p.2.1 = q.2.1 ∧
      InFront strict (¬strict) p.2.2 q.2.2) (cutAtClosing? s) (cutAtClosing? t) := by
  rw [cutAtClosing?_eq_scan, cutAtClosing?_eq_scan]
  refine h.rel_scan (R := fun p q => p.1 = q.1 ∧ InFront strict (¬strict) p.2 q.2)
    readsMarks_closing? fun {x g s t z} hx hz hg h => ?_
  have hz' : '>' ∉ z := fun hm => hx (hz.subset hm)
  rw [closing?_tag hz', closing?_tag hz']
  cases hd : closingTag? z with
  | none => exact .none
  | some d => exact .some ⟨rfl, hg.inFront_of_closingTag? h hz hd⟩

theorem IsGap.rel_cutAtClosing? (hg : IsGap strict x s g) (h : Anchoring strict s t) :
    Option.Rel (fun p q => InFront strict True p.1 q.1 ∧ p.2.1 = q.2.1 ∧
      InFront strict (¬strict) p.2.2 q.2.2) (cutAtClosing? s) (cutAtClosing? (g ++ t)) := by
  have hskip : cutAtClosing? (g ++ t) = (cutAtClosing? t).map fun p => (g ++ p.1, p.2) := by
    rw [cutAtClosing?_eq_scan, cutAtClosing?_eq_scan, hg.scan_append readsMarks_closing?]
  rw [hskip]
  rcases rel_iff.1 h.rel_cutAtClosing? with ⟨hs, ht⟩ | ⟨p, q, hs, ht, hinner, hrest⟩
  · rw [hs, ht]
    exact .none
  · have hs' := hs
    rw [cutAtClosing?_eq_scan] at hs'
    obtain ⟨u, rfl⟩ := exists_append_of_scan hs'
    rw [hs, ht]
    exact .some ⟨hg.of_append.inFront hinner, hrest⟩

/-- Two headings that differ in anchors between their tags. -/
structure Heading.SameButAnchors (h g : Heading) : Prop where
  digit : h.digit = g.digit
  attributes : h.attributes = g.attributes
  inner : ∃ strict, InFront strict True h.inner g.inner
  closingDigit : h.closingDigit = g.closingDigit

theorem Anchoring.rel_find? (h : Anchoring strict s t) :
    Option.Rel (fun p q => Anchoring strict p.1 q.1 ∧ p.2.1.SameButAnchors q.2.1 ∧
      InFront strict (¬strict) p.2.2 q.2.2) (Heading.find? s) (Heading.find? t) := by
  rw [Heading.find?_eq_scan, Heading.find?_eq_scan]
  refine h.rel_scan
    (R := fun p q => p.1.SameButAnchors q.1 ∧ InFront strict (¬strict) p.2 q.2)
    Heading.readsMarks_read? fun {x g s t z} hx hz hg h => ?_
  have hz' : '>' ∉ z := fun hm => hx (hz.subset hm)
  rw [Heading.read?_tag hz', Heading.read?_tag hz']
  cases headingTag? z with
  | none => exact .none
  | some p =>
    refine rel_map (hg.rel_cutAtClosing? h) fun q r hqr => ⟨⟨rfl, rfl, ?_, hqr.2.1⟩, hqr.2.2⟩
    exact ⟨strict, hqr.1⟩

theorem Heading.SameButAnchors.level {h g : Heading} (hg : h.SameButAnchors g) :
    h.level = g.level := by
  rw [Heading.level, Heading.level, hg.digit]

theorem Heading.SameButAnchors.title {h g : Heading} (hg : h.SameButAnchors g) :
    Markup.SameButAnchors False h.title g.title := by
  obtain ⟨strict, hinner⟩ := hg.inner
  exact hinner.trim False.elim

theorem Heading.SameButAnchors.source {h g : Heading} (hg : h.SameButAnchors g) :
    Markup.SameButAnchors True h.source g.source := by
  obtain ⟨strict, hinner⟩ := hg.inner
  rw [Heading.source, Heading.source, hg.digit, hg.attributes, hg.closingDigit]
  exact ((hinner.sameButAnchors.append _).append₂ (.refl _)).append₂ (.refl _)

end Headings

end Slideshow.Markup
