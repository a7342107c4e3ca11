import Slideshow.Proofs.FragmentSplitting

/-!
# Other bodies in comments

Two documents are the same but for their comments if they are read piece by piece as the same
markup, the same letters that open none, and comments with any bodies. Such documents are cut at the
same places, and their fragments are again the same but for their comments.
-/
namespace Slideshow
open Text

namespace Markup

/-! ## Documents -/

/-- Two documents that are read alike; where one has a comment the other one has a comment. -/
inductive SameButComments : Text → Text → Prop
  | nil : SameButComments [] []
  | letter {c : Char} {s t : Text} (hread : Token.ofMarkup? (c :: s) = none)
    (h : SameButComments s t) : SameButComments (c :: s) (c :: t)
  | markup {token : Token} {s t : Text}
    (hread : Token.ofMarkup? (token.source ++ s) = some (token, s)) (h : SameButComments s t) :
    SameButComments (token.source ++ s) (token.source ++ t)
  | comment {b c s t : Text} (hb : occursIn "-->" b = false) (hc : occursIn "-->" c = false)
    (h : SameButComments s t) :
    SameButComments ((Token.comment b).source ++ s) ((Token.comment c).source ++ t)

theorem ofMarkup?_comment {b : Text} (hb : occursIn "-->" b = false) (s : Text) :
    Token.ofMarkup? ((Token.comment b).source ++ s) = some (.comment b, s) := by
  have hcomment : comment? ((Token.comment b).source ++ s) = some (b, s) :=
    Forest.comment?_commented hb s
  rw [Token.ofMarkup?, hcomment]
  rfl

namespace SameButComments
variable {s t : Text}

theorem eq_or_occursIn (h : SameButComments s t) : s = t ∨ occursIn "-->" s := by
  induction h with
  | nil => exact .inl rfl
  | @letter c s t _ _ ih =>
    rcases ih with rfl | h
    · exact .inl rfl
    · exact .inr (occursIn_mono (List.suffix_cons c s).isInfix h)
  | @markup token s t _ _ ih =>
    rcases ih with rfl | h
    · exact .inl rfl
    · exact .inr (occursIn_mono (List.suffix_append token.source s).isInfix h)
  | @comment b c s t _ _ _ _ =>
    exact .inr (occursIn_iff.2 ⟨"<!--" ++ b, s, by simp [Token.source]⟩)

/-- The letters in front of the next bracket. -/
theorem exists_bracket (h : SameButComments s t) : ∃ w x y, s = w ++ x ∧ t = w ++ y ∧
    SameButComments x y ∧ x.head?.all (· = '<') ∧ y.head?.all (· = '<') := by
  induction h with
  | nil => exact ⟨[], [], [], rfl, rfl, .nil, by simp⟩
  | @letter c s t hread h ih =>
    by_cases hc : c = '<'
    · exact ⟨[], c :: s, c :: t, rfl, rfl, .letter hread h, by simp [hc]⟩
    · obtain ⟨w, x, y, rfl, rfl, hxy⟩ := ih
      exact ⟨c :: w, x, y, rfl, rfl, hxy⟩
  | @markup token s t hread h _ =>
    obtain ⟨inner, hinner⟩ := Token.source_of_markup? hread
    exact ⟨[], _, _, rfl, rfl, .markup hread h, by simp [hinner]⟩
  | comment hb hc h _ => exact ⟨[], _, _, rfl, rfl, .comment hb hc h, by simp [Token.source]⟩

/-- What opens no markup opens none in front of other comments. -/
theorem ofMarkup?_eq_none (h : SameButComments s t) {c : Char}
    (hread : Token.ofMarkup? (c :: s) = none) : Token.ofMarkup? (c :: t) = none := by
  obtain ⟨w, x, y, rfl, rfl, hxy, hx, hy⟩ := h.exists_bracket
  have hclose : occursIn "-->" x → '>' ∈ x := fun hend => by
    obtain ⟨before, after, rfl⟩ := occursIn_iff.1 hend
    simp
  refine Token.ofMarkup?_replace_behind hx hy (hxy.eq_or_occursIn.imp_right hclose) ?_ hread
  intro hend
  rcases hxy.eq_or_occursIn with rfl | hsame
  · exact hend
  · exact hsame

theorem symm (h : SameButComments s t) : SameButComments t s := by
  induction h with
  | nil => exact .nil
  | letter hread h ih => exact .letter (h.ofMarkup?_eq_none hread) ih
  | markup hread _ ih => exact .markup (Token.ofMarkup?_source_append hread _) ih
  | comment hb hc _ ih => exact .comment hc hb ih

end SameButComments

/-! ## Lists of tokens -/

/-- The same token, or two comments. -/
inductive SameToken : Token → Token → Prop
  | same (t : Token) : SameToken t t
  | comment {b c : Text} (hb : occursIn "-->" b = false) (hc : occursIn "-->" c = false) :
    SameToken (.comment b) (.comment c)

theorem SameButComments.exists_tokens {s t : Text} (h : SameButComments s t) : ∃ ts us,
    IsReadBack ts ∧ IsReadBack us ∧ spell ts = s ∧ spell us = t ∧
      List.Forall₂ SameToken ts us := by
  induction h with
  | nil => exact ⟨[], [], .nil, .nil, rfl, rfl, .nil⟩
  | @letter c s t hread h ih =>
    obtain ⟨ts, us, hts, hus, rfl, rfl, hsame⟩ := ih
    exact ⟨.plain [c] :: ts, .plain [c] :: us, .letter hread hts,
      .letter (h.ofMarkup?_eq_none hread) hus, rfl, rfl, .cons (.same _) hsame⟩
  | @markup token s t hread h ih =>
    obtain ⟨ts, us, hts, hus, rfl, rfl, hsame⟩ := ih
    exact ⟨token :: ts, token :: us, .markup hread hts,
      .markup (Token.ofMarkup?_source_append hread _) hus, rfl, rfl, .cons (.same _) hsame⟩
  | @comment b c s t hb hc h ih =>
    obtain ⟨ts, us, hts, hus, rfl, rfl, hsame⟩ := ih
    exact ⟨.comment b :: ts, .comment c :: us, .markup (ofMarkup?_comment hb _) hts,
      .markup (ofMarkup?_comment hc _) hus, rfl, rfl, .cons (.comment hb hc) hsame⟩

theorem IsReadBack.sameButComments {ts us : List Token} (h : IsReadBack ts)
    (hsame : List.Forall₂ SameToken ts us) : SameButComments (spell ts) (spell us) := by
  induction hsame with
  | nil => exact .nil
  | cons htoken hrest ih =>
    cases htoken with
    | comment hb hc => exact .comment hb hc (ih h.tail)
    | same token =>
      cases h with
      | markup hread h => exact .markup hread (ih h)
      | letter hread h => exact .letter hread (ih h)

/-! ## Texts -/

/-- Two texts of the same letters, but for the bodies of comments. -/
inductive SameOutsideComments : Text → Text → Prop
  | nil : SameOutsideComments [] []
  | letter (c : Char) {s t : Text} (h : SameOutsideComments s t) :
    SameOutsideComments (c :: s) (c :: t)
  | comment {b c s t : Text} (hb : occursIn "-->" b = false) (hc : occursIn "-->" c = false)
    (h : SameOutsideComments s t) :
    SameOutsideComments ((Token.comment b).source ++ s) ((Token.comment c).source ++ t)

theorem trimLeft_comment (body s : Text) :
    trimLeft ((Token.comment body).source ++ s) = (Token.comment body).source ++ s := by
  simp [trimLeft, Token.source, isBlank_bracket]

theorem trimRight_comment (body s : Text) :
    trimRight ((Token.comment body).source ++ s) = (Token.comment body).source ++ trimRight s := by
  simpa [Token.source] using trimRight_bracket ("<!--" ++ body ++ "--") s

namespace SameOutsideComments
variable {s t : Text}

theorem append (u : Text) (h : SameOutsideComments s t) :
    SameOutsideComments (u ++ s) (u ++ t) := by
  induction u with
  | nil => exact h
  | cons c u ih => exact .letter c ih

theorem refl (s : Text) : SameOutsideComments s s := by
  have h := append s .nil
  rwa [List.append_nil] at h

theorem append₂ {u v : Text} (h : SameOutsideComments s t) (huv : SameOutsideComments u v) :
    SameOutsideComments (s ++ u) (t ++ v) := by
  induction h with
  | nil => exact huv
  | letter c _ ih => exact .letter c ih
  | comment hb hc _ ih =>
    rw [List.append_assoc, List.append_assoc]
    exact .comment hb hc ih

theorem symm (h : SameOutsideComments s t) : SameOutsideComments t s := by
  induction h with
  | nil => exact .nil
  | letter c _ ih => exact .letter c ih
  | comment hb hc _ ih => exact .comment hc hb ih

theorem eq_nil_iff (h : SameOutsideComments s t) : s = [] ↔ t = [] := by
  cases h with
  | nil => simp
  | letter => simp
  | comment => simp [Token.source]

/-- Without comments the texts are the same. -/
theorem eq_of_not_occursIn (h : SameOutsideComments s t) (hs : occursIn "<!--" s = false) :
    t = s := by
  induction h with
  | nil => rfl
  | @letter c s t _ ih =>
    have htail : occursIn "<!--" s = false :=
      Bool.eq_false_iff.2 fun h =>
        Bool.eq_false_iff.1 hs (occursIn_mono (List.suffix_cons c s).isInfix h)
    rw [ih htail]
  | @comment b c s t _ _ _ _ =>
    have hopen : occursIn "<!--" ((Token.comment b).source ++ s) :=
      occursIn_iff.2 ⟨[], b ++ "-->" ++ s, by simp [Token.source]⟩
    exact absurd hopen (Bool.eq_false_iff.1 hs)

/-- Letters in front that open no comment are the same. -/
theorem exists_of_append {w : Text} (hw : '<' ∉ w) (h : SameOutsideComments (w ++ s) t) :
    ∃ r, t = w ++ r ∧ SameOutsideComments s r := by
  induction w generalizing t with
  | nil => exact ⟨t, rfl, h⟩
  | cons c w ih =>
    simp only [List.mem_cons, not_or] at hw
    rw [List.cons_append] at h
    generalize hs : c :: (w ++ s) = x at h
    cases h with
    | nil => simp at hs
    | letter d h =>
      obtain ⟨rfl, rfl⟩ := List.cons.inj hs
      obtain ⟨r, rfl, hr⟩ := ih hw.2 h
      exact ⟨r, rfl, hr⟩
    | comment hb hc h =>
      simp [Token.source, Ne.symm hw.1] at hs

/-- A bracket that opens no comment is the same. -/
theorem exists_of_bracket {c : Char} (hc : c ≠ '!') (h : SameOutsideComments ('<' :: c :: s) t) :
    ∃ r, t = '<' :: r ∧ SameOutsideComments (c :: s) r := by
  generalize hs : '<' :: c :: s = x at h
  cases h with
  | nil => simp at hs
  | letter d h =>
    obtain ⟨rfl, rfl⟩ := List.cons.inj hs
    exact ⟨_, rfl, h⟩
  | comment hb hc' h =>
    simp [Token.source, hc] at hs

/-! ### White space -/

theorem trimLeft (h : SameOutsideComments s t) :
    SameOutsideComments (trimLeft s) (trimLeft t) := by
  induction h with
  | nil => exact .nil
  | @letter c s t h ih =>
    simp only [Text.trimLeft, List.dropWhile_cons] at ih ⊢
    split
    · exact ih
    · exact .letter c h
  | comment hb hc h _ =>
    rw [trimLeft_comment, trimLeft_comment]
    exact .comment hb hc h

theorem trimRight (h : SameOutsideComments s t) :
    SameOutsideComments (trimRight s) (trimRight t) := by
  induction h with
  | nil => exact .nil
  | @letter c s t h ih =>
    simp only [trimRight_cons, ih.eq_nil_iff]
    split
    · exact .nil
    · exact .letter c ih
  | comment hb hc _ ih =>
    rw [trimRight_comment, trimRight_comment]
    exact .comment hb hc ih

theorem trim (h : SameOutsideComments s t) : SameOutsideComments (trim s) (trim t) :=
  h.trimLeft.trimRight

/-- What follows the words of a notes heading and its close tag. -/
theorem exists_afterNotes? (h : SameOutsideComments s t) {rest : Text}
    (hs : afterNotes? s = some rest) :
    ∃ rest', afterNotes? t = some rest' ∧ SameOutsideComments rest rest' := by
  obtain ⟨w, n, d, rfl, hwords, hname, -, hany⟩ := exists_of_afterNotes? hs
  have hclose : '<' ∉ ['/', n, d, '>'] := by simpa using hname
  simp only [List.append_assoc, List.cons_append, List.nil_append] at h hany
  obtain ⟨tag, rfl, htag⟩ := h.exists_of_append hwords
  obtain ⟨name, rfl, hname⟩ := htag.exists_of_bracket (by decide)
  obtain ⟨rest', rfl, hrest⟩ := exists_of_append (w := ['/', n, d, '>']) hclose hname
  exact ⟨rest', hany rest', hrest⟩

theorem rel_afterNotes? (h : SameOutsideComments s t) :
    Option.Rel SameOutsideComments (afterNotes? s) (afterNotes? t) := by
  cases hs : afterNotes? s with
  | some rest =>
    obtain ⟨rest', ht, hrest⟩ := h.exists_afterNotes? hs
    rw [ht]
    exact .some hrest
  | none =>
    cases ht : afterNotes? t with
    | none => exact .none
    | some rest =>
      obtain ⟨rest', hs', -⟩ := h.symm.exists_afterNotes? ht
      simp [hs] at hs'

end SameOutsideComments

theorem SameButComments.sameOutsideComments {s t : Text} (h : SameButComments s t) :
    SameOutsideComments s t := by
  induction h with
  | nil => exact .nil
  | @letter c _ _ _ _ ih => exact .letter c ih
  | @markup token _ _ _ _ ih => exact ih.append token.source
  | comment hb hc _ ih => exact .comment hb hc ih

namespace SameButComments
variable {s t : Text}

theorem trimLeft (h : SameButComments s t) : SameButComments (trimLeft s) (trimLeft t) := by
  induction h with
  | nil => exact .nil
  | @letter c s t hread h ih =>
    simp only [Text.trimLeft, List.dropWhile_cons] at ih ⊢
    split
    · exact ih
    · exact .letter hread h
  | @markup token s t hread h _ =>
    obtain ⟨inner, hinner⟩ := Token.source_of_markup? hread
    have hsource : ∀ u, Text.trimLeft (token.source ++ u) = token.source ++ u := fun u => by
      simp [Text.trimLeft, hinner, isBlank_bracket]
    rw [hsource, hsource]
    exact .markup hread h
  | comment hb hc h _ =>
    rw [trimLeft_comment, trimLeft_comment]
    exact .comment hb hc h

theorem trimRight (h : SameButComments s t) : SameButComments (trimRight s) (trimRight t) := by
  induction h with
  | nil => exact .nil
  | @letter c s t hread h ih =>
    have hfront : Token.ofMarkup? (c :: Text.trimRight s) = none := by
      obtain ⟨v, hv⟩ := trimRight_initial s
      rw [← hv, ← List.cons_append] at hread
      exact Token.ofMarkup?_eq_none_of_append hread
    simp only [trimRight_cons, ih.sameOutsideComments.eq_nil_iff]
    split
    · exact .nil
    · exact .letter hfront ih
  | @markup token s t hread h ih =>
    obtain ⟨inner, hinner⟩ := Token.source_of_markup? hread
    have hsource : ∀ u, Text.trimRight (token.source ++ u) = token.source ++ Text.trimRight u := by
      intro u
      simpa [hinner] using trimRight_bracket ('<' :: inner) u
    rw [hsource, hsource]
    exact .markup (Token.ofMarkup?_source_append hread _) ih
  | comment hb hc _ ih =>
    rw [trimRight_comment, trimRight_comment]
    exact .comment hb hc ih

theorem trim (h : SameButComments s t) : SameButComments (trim s) (trim t) :=
  h.trimLeft.trimRight

end SameButComments

end Markup

/-! ## Fragments -/

namespace Fragment
open Markup

section Same
variable {t u : Token} {ts us ps qs : List Token}

theorem isVacantToken_eq (h : SameToken t u) : isVacantToken u = isVacantToken t := by
  cases h <;> rfl

theorem all_isVacantToken_eq (h : List.Forall₂ SameToken ts us) :
    us.all isVacantToken = ts.all isVacantToken := by
  induction h with
  | nil => rfl
  | cons ht _ ih => rw [List.all_cons, List.all_cons, isVacantToken_eq ht, ih]

theorem depthBehind_eq (h : SameToken t u) (depth : Nat) :
    depthBehind depth u = depthBehind depth t := by
  cases h <;> rfl

theorem isRule_eq (h : SameToken t u) (depth : Nat) : isRule depth u = isRule depth t := by
  cases h <;> rfl

/-- Whether a heading starts a slide is seen from whether it announces notes. -/
theorem startsSlide_congr (hread : IsReadBack (t :: ts))
    (h : (afterNotes? (spell us)).isSome = (afterNotes? (spell ts)).isSome) (level depth : Nat) :
    startsSlide level depth us t = startsSlide level depth ts t := by
  cases t with
  | comment body => rfl
  | plain s => rfl
  | tag tag =>
    obtain ⟨s, r, htag⟩ := hread.exists_read?
    obtain ⟨c, v, hsource, hv, -⟩ := Tag.source_of_read? htag
    have hbracket : '>' ∉ '<' :: c :: v := by simpa using hv
    have hnotes : ∀ rest, notesHeading? (spell (.tag tag :: rest)) =
        if startsHeading ('<' :: c :: v) then afterNotes? (spell rest) else none := fun rest => by
      simpa [Token.source, hsource] using notesHeading?_tag hbracket (spell rest)
    have hopens : opensSlide level tag us = opensSlide level tag ts := by
      rw [opensSlide, opensSlide, hnotes, hnotes]
      cases startsHeading ('<' :: c :: v) with
      | false => rfl
      | true => simp only [if_true, ← Option.not_isSome, h]
    simp only [startsSlide, hopens]

/-- Whether a heading announces notes is seen outside the comments behind it. -/
theorem startsSlide_eq (hread : IsReadBack (t :: ts)) (h : SameToken t u)
    (hrest : List.Forall₂ SameToken ts us) (level depth : Nat) :
    startsSlide level depth us u = startsSlide level depth ts t := by
  cases h with
  | comment => rfl
  | same t =>
    refine startsSlide_congr hread ?_ level depth
    have hsame := (hread.tail.sameButComments hrest).sameOutsideComments.rel_afterNotes?
    generalize afterNotes? (spell ts) = x at hsame
    generalize afterNotes? (spell us) = y at hsame
    cases hsame <;> rfl

/-- Documents that are the same but for comments are cut at the same places. -/
theorem forall₂_segments (hread : IsReadBack ts) (h : List.Forall₂ SameToken ts us)
    (hpending : List.Forall₂ SameToken ps qs) (level depth : Nat) :
    List.Forall₂ (List.Forall₂ SameToken) (segments level depth ps ts)
      (segments level depth qs us) := by
  induction h generalizing depth ps qs with
  | nil => exact .cons hpending .nil
  | cons ht hrest ih =>
    rw [segments, segments, isRule_eq ht, startsSlide_eq hread ht hrest, depthBehind_eq ht,
      all_isVacantToken_eq hpending]
    split
    · exact .cons hpending (ih hread.tail .nil _)
    split
    · exact .cons hpending (ih hread.tail (.cons ht .nil) _)
    · exact ih hread.tail (List.rel_append hpending (.cons ht .nil)) _

/-- Segments of which the same ones are vacant have as many texts. -/
theorem forall₂_segmentTexts_of_vacant {R : Text → Text → Prop}
    {T : List Token → List Token → Prop} {pss qss : List (List Token)}
    (hT : ∀ p q, T p q → q.all isVacantToken = p.all isVacantToken) (h : List.Forall₂ T pss qss)
    (hR : ∀ p ∈ pss, ∀ q ∈ qss, T p q → R (trim (spell p)) (trim (spell q))) :
    List.Forall₂ R (segmentTexts pss) (segmentTexts qss) := by
  induction h with
  | nil => exact .nil
  | @cons p q pss qss hpq _ ih =>
    have hrest := ih fun p hp q hq => hR p (List.mem_cons_of_mem _ hp) q (List.mem_cons_of_mem _ hq)
    rw [segmentTexts_cons, segmentTexts_cons, hT p q hpq]
    split
    · exact hrest
    · exact .cons (hR p List.mem_cons_self q List.mem_cons_self hpq) hrest

theorem forall₂_segmentTexts {R : Text → Text → Prop} {pss qss : List (List Token)}
    (h : List.Forall₂ (List.Forall₂ SameToken) pss qss)
    (hR : ∀ p ∈ pss, ∀ q ∈ qss, List.Forall₂ SameToken p q → R (trim (spell p)) (trim (spell q))) :
    List.Forall₂ R (segmentTexts pss) (segmentTexts qss) :=
  forall₂_segmentTexts_of_vacant (fun _ _ => all_isVacantToken_eq) h hR

end Same

/-- Documents that are the same but for comments have as many fragments, and these are the same but
for comments. -/
theorem forall₂_split {html other : Text} (h : SameButComments html other) (level : Nat) :
    List.Forall₂ SameButComments (split html level) (split other level) := by
  obtain ⟨ts, us, hts, hus, rfl, rfl, hsame⟩ := h.exists_tokens
  rw [split_spell level hts, split_spell level hus]
  have hread := (isSegmented_segments level hts).isReadBack hts
  exact forall₂_segmentTexts (forall₂_segments hts hsame .nil level 0)
    fun p hp _ _ hpq => ((hread p hp).sameButComments hpq).trim

end Fragment

end Slideshow
