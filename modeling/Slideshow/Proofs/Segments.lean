import Slideshow.Proofs.ReadBackMarkup
import Slideshow.Proofs.ForestSplitting

/-!
# Segments of a document

A document is cut at its rules and at the headings that start slides. Its segments are lists of
tokens that stand one after the other, each of them cut no further, each but the last one with all
its elements closed. The fragments are the texts of the segments that are not vacant.
-/
namespace Slideshow.Fragment
open Text Markup Forest

/-! ## What one token does -/

/-- White space or a comment. -/
def isVacantToken : Token → Bool
  | .comment _ => true
  | .tag _ => false
  | .plain s => isAllBlank s

/-- The depth behind a token. -/
def depthBehind (depth : Nat) : Token → Nat
  | .tag t => if t.closing then depth - 1 else depthInside depth t
  | _ => depth

/-- A rule outside all elements. -/
def isRule (depth : Nat) : Token → Bool
  | .tag t => depth = 0 && !t.closing && elementName t = ("hr" : Text)
  | _ => false

/-- A heading outside all elements that starts a slide. -/
def startsSlide (level depth : Nat) (rest : List Token) : Token → Bool
  | .tag t => depth = 0 && !t.closing && opensSlide level t rest
  | _ => false

/-- The segments of a sequence of tokens at a depth; `pending` is the segment under way. -/
def segments (level depth : Nat) (pending : List Token) : List Token → List (List Token)
  | [] => [pending]
  | t :: rest =>
    if isRule depth t then pending :: segments level (depthBehind depth t) [] rest
    else if startsSlide level depth rest t && !pending.all isVacantToken then
      pending :: segments level (depthBehind depth t) [t] rest
    else segments level (depthBehind depth t) (pending ++ [t]) rest

private theorem uncommented_cons {c : Char} {s : Text} (h : comment? (c :: s) = none) :
    uncommented (c :: s) = c :: uncommented s := by
  rw [uncommented]
  split
  · next hc => simp [h] at hc
  · rfl

private theorem uncommented_comment {s body rest : Text} (h : comment? s = some (body, rest)) :
    uncommented s = uncommented rest := by
  cases s with
  | nil => simp [comment?, dropAffix?] at h
  | cons c s =>
    rw [uncommented]
    split
    · next hc => simp_all
    · next hc => simp [h] at hc

theorem isVacant_spell {ts : List Token} (h : IsReadBack ts) :
    isVacant (spell ts) = ts.all isVacantToken := by
  have hnone : ∀ {s : Text}, Token.ofMarkup? s = none → comment? s = none := by
    intro s hs
    simp only [Token.ofMarkup?, Option.orElse_eq_orElse, Option.orElse_eq_or, Option.or_eq_none_iff,
      Option.map_eq_none_iff] at hs
    exact hs.1
  induction h with
  | nil => simp [isVacant, uncommented, isAllBlank]
  | @markup t ts hread h ih =>
    have hsource := Token.source_of_markup? hread
    simp only [Token.ofMarkup?, Option.orElse_eq_orElse, Option.orElse_eq_or, Option.or_eq_some_iff,
      Option.map_eq_some_iff, Prod.mk.injEq] at hread
    rcases hread with ⟨⟨body, rest⟩, hc, rfl, rfl⟩ | ⟨hc, ⟨tag, rest⟩, -, rfl, rfl⟩
    · rw [spell_cons, isVacant, uncommented_comment hc, List.all_cons, ← ih]
      rfl
    · obtain ⟨inner, hinner⟩ := hsource
      rw [Option.map_eq_none_iff, hinner, List.cons_append] at hc
      rw [spell_cons, isVacant, hinner, List.cons_append, uncommented_cons hc]
      simp [isAllBlank, isBlank_bracket, isVacantToken]
  | @letter c ts hread h ih =>
    rw [spell_cons, List.all_cons, ← ih]
    simp [isVacant, Token.source, uncommented_cons (hnone hread), isVacantToken, isAllBlank]

/-- A cut token is cut at the same places as text. -/
theorem cut_cons (level depth : Nat) (pending : Text) (t : Token) (rest : List Token) :
    cut level depth pending (t :: rest) =
      if isRule depth t then pending :: cut level (depthBehind depth t) [] rest
      else if startsSlide level depth rest t && !isVacant pending then
        pending :: cut level (depthBehind depth t) t.source rest
      else cut level (depthBehind depth t) (pending ++ t.source) rest := by
  cases t with
  | comment body => rfl
  | plain s => rfl
  | tag t => 
    rw [cut]
    cases hc : t.closing with
    | true => simp [isRule, startsSlide, depthBehind, hc, Token.source]
    | false =>
      by_cases hd : depth = 0
      · simp [isRule, startsSlide, depthBehind, hc, hd, Token.source]
      · simp [isRule, startsSlide, depthBehind, hc, hd, Token.source]

theorem cut_spell (level depth : Nat) {pending ts : List Token} (h : IsReadBack (pending ++ ts)) :
    cut level depth (spell pending) ts = (segments level depth pending ts).map spell := by
  induction ts generalizing depth pending with
  | nil => rfl
  | cons t ts ih =>
    have hmore : IsReadBack (pending ++ [t] ++ ts) := by simpa using h
    have hjoin := ih (depthBehind depth t) hmore
    have halone := @ih (depthBehind depth t) [t] h.of_append_right
    have hnone := @ih (depthBehind depth t) [] hmore.of_append_right
    simp only [spell_append, spell_cons, spell_nil, List.append_nil] at hjoin halone hnone
    rw [cut_cons, segments, isVacant_spell h.of_append_left]
    split
    · rw [hnone, List.map_cons]
    · split
      · rw [halone, List.map_cons]
      · exact hjoin

/-- Plain text is cut as its characters are. -/
private theorem cut_tokens (level depth : Nat) (pending : Text) {ts : List Token}
    (h : IsReadBack ts) :
    cut level depth pending (tokens (spell ts)) = cut level depth pending ts := by
  induction h generalizing depth pending with
  | nil => simp [tokens]
  | @markup t ts hread h ih =>
    rw [spell_cons, tokens_markup hread, cut_cons, cut_cons]
    have hstarts : startsSlide level depth (tokens (spell ts)) t = startsSlide level depth ts t := by
      cases t with
      | comment body => rfl
      | plain s => rfl
      | tag t => simp only [startsSlide, opensSlide, spell_cons, spell_tokens]
    rw [hstarts, ih, ih, ih]
  | @letter c ts hread h ih =>
    rw [spell_cons, Token.source, List.singleton_append, tokens_of_ofMarkup?_eq_none hread,
      cut_cons, cut_cons]
    simp only [isRule, startsSlide, depthBehind, Token.source, Bool.false_and, Bool.false_eq_true,
      if_false]
    rw [← ih, cut_plain (pending ++ [c]), List.append_assoc]
    rfl

theorem cut_eq_segments (level : Nat) {ts : List Token} (h : IsReadBack ts) :
    cut level 0 [] (tokens (spell ts)) = (segments level 0 [] ts).map spell := by
  rw [cut_tokens level 0 [] h]
  have hnone : IsReadBack ([] ++ ts) := h
  exact cut_spell level 0 hnone

/-! ## Tokens behind a segment -/

/-- The depth behind some tokens. -/
def depthAfter (depth : Nat) (ts : List Token) : Nat := ts.foldl depthBehind depth

/-- A token that may end the segment under way. -/
def mayCut (level depth : Nat) (rest : List Token) (t : Token) : Bool :=
  isRule depth t || startsSlide level depth rest t

/-- What may end a segment is an open tag. -/
theorem source_of_mayCut {level depth : Nat} {t : Token} {rest : List Token}
    (h : IsReadBack (t :: rest)) (hcut : mayCut level depth rest t) :
    ∃ c u, t.source = '<' :: c :: (u ++ ['>']) ∧ c ≠ '/' := by
  cases t with
  | comment body => simp [mayCut, isRule, startsSlide] at hcut
  | plain s => simp [mayCut, isRule, startsSlide] at hcut
  | tag t =>
    have hopen : t.closing = false := by
      cases hc : t.closing with
      | false => rfl
      | true => simp [mayCut, isRule, startsSlide, hc] at hcut
    obtain ⟨s, r, hread⟩ := h.exists_read?
    obtain ⟨c, u, ht, -, hc⟩ := Tag.source_of_read? hread
    refine ⟨c, u, ht, ?_⟩
    rintro rfl
    simpa using hc hopen

theorem closesNothing_of_mayCut {level depth : Nat} {t : Token} {rest : List Token}
    (h : IsReadBack (t :: rest)) (hcut : mayCut level depth rest t) :
    ClosesNothing (spell (t :: rest)) := by
  obtain ⟨c, u, ht, hc⟩ := source_of_mayCut h hcut
  refine .inr ⟨c, u ++ '>' :: spell rest, ?_, hc⟩
  simp [spell_cons, ht, trimLeft, isBlank_bracket]

/-- Whether a heading starts a slide does not depend on tokens that close nothing. -/
theorem startsSlide_append {t : Token} {q r : List Token} (h : IsReadBack (t :: q))
    (hr : ClosesNothing (spell r)) (level depth : Nat) :
    startsSlide level depth (q ++ r) t = startsSlide level depth q t := by
  cases t with
  | comment body => rfl
  | plain s => rfl
  | tag t =>
    obtain ⟨s, rest, hread⟩ := h.exists_read?
    obtain ⟨c, u, ht, hu, -⟩ := Tag.source_of_read? hread
    have hbracket : '>' ∉ '<' :: c :: u := by simpa using hu
    have hnotes := isSome_notesHeading?_append hbracket hr (spell q)
    have hopens : opensSlide level t (q ++ r) = opensSlide level t q := by
      simp only [opensSlide, spell_cons, spell_append, Token.source, ht]
      simp only [List.cons_append, List.append_assoc, List.nil_append] at hnotes ⊢
      rw [← Option.not_isSome, ← Option.not_isSome, hnotes]
    simp only [startsSlide, hopens]

/-- Tokens that close nothing are cut as if those in front of them stood alone. -/
theorem segments_append {p r : List Token} (h : IsReadBack p) (hr : ClosesNothing (spell r))
    (level depth : Nat) (pending : List Token) :
    ∃ done current, segments level depth pending p = done ++ [current] ∧
      segments level depth pending (p ++ r) =
        done ++ segments level (depthAfter depth p) current r := by
  induction p generalizing depth pending with
  | nil => exact ⟨[], pending, rfl, rfl⟩
  | cons t p ih =>
    have hstarts := startsSlide_append h hr level depth
    have hp := h.tail
    rw [List.cons_append, segments, segments, hstarts]
    split
    · obtain ⟨done, current, hdone, hcurrent⟩ := ih hp (depthBehind depth t) []
      exact ⟨pending :: done, current, by rw [hdone]; rfl, by rw [hcurrent]; rfl⟩
    · split
      · obtain ⟨done, current, hdone, hcurrent⟩ := ih hp (depthBehind depth t) [t]
        exact ⟨pending :: done, current, by rw [hdone]; rfl, by rw [hcurrent]; rfl⟩
      · exact ih hp (depthBehind depth t) (pending ++ [t])

/-- Tokens that are cut no further. -/
def IsOneSegment (level : Nat) (p : List Token) : Prop := segments level 0 [] p = [p]

inductive IsSegmented (level : Nat) : List Token → List (List Token) → Prop
  | last {p : List Token} : IsOneSegment level p → IsSegmented level p [p]
  | rule {p rest : List Token} {t : Token} {ps : List (List Token)} :
    IsOneSegment level p → depthAfter 0 p = 0 → isRule 0 t → IsSegmented level rest ps →
      IsSegmented level (p ++ t :: rest) (p :: ps)
  | heading {p rest : List Token} {t : Token} {ps : List (List Token)} :
    IsOneSegment level p → depthAfter 0 p = 0 → startsSlide level 0 rest t →
      p.all isVacantToken = false → IsSegmented level (t :: rest) ps →
      IsSegmented level (p ++ t :: rest) (p :: ps)

theorem depthBehind_of_isRule {depth : Nat} {t : Token} (h : isRule depth t) :
    depth = 0 ∧ depthBehind depth t = 0 := by
  cases t with
  | comment body => simp [isRule] at h
  | plain s => simp [isRule] at h
  | tag t =>
    simp only [isRule, Bool.and_eq_true, decide_eq_true_eq, Bool.not_eq_true'] at h
    obtain ⟨⟨rfl, hopen⟩, hname⟩ := h
    have hvoid : elementName t ∈ voidElements := by simp [hname, voidElements]
    simp [depthBehind, hopen, depthInside, hvoid]

theorem eq_zero_of_startsSlide {level depth : Nat} {t : Token} {rest : List Token}
    (h : startsSlide level depth rest t) : depth = 0 := by
  cases t with
  | comment body => simp [startsSlide] at h
  | plain s => simp [startsSlide] at h
  | tag t =>
    simp only [startsSlide, Bool.and_eq_true, decide_eq_true_eq] at h
    exact h.1.1

theorem isVacantToken_of_mayCut {level depth : Nat} {t : Token} {rest : List Token}
    (h : mayCut level depth rest t) : isVacantToken t = false := by
  cases t with
  | comment body => simp [mayCut, isRule, startsSlide] at h
  | plain s => simp [mayCut, isRule, startsSlide] at h
  | tag t => rfl

section Steps
variable {level depth : Nat} {pending rest : List Token} {t : Token}

theorem segments_rule (h : isRule depth t) :
    segments level depth pending (t :: rest) = pending :: segments level 0 [] rest := by
  rw [segments, if_pos h, (depthBehind_of_isRule h).2]

theorem segments_heading (hr : isRule depth t = false) (hs : startsSlide level depth rest t)
    (hp : pending.all isVacantToken = false) :
    segments level depth pending (t :: rest) = pending :: segments level depth [] (t :: rest) := by
  rw [segments, segments]
  simp [hr, hs, hp]

theorem segments_join (hr : isRule depth t = false)
    (hs : (startsSlide level depth rest t && !pending.all isVacantToken) = false) :
    segments level depth pending (t :: rest) =
      segments level (depthBehind depth t) (pending ++ [t]) rest := by
  rw [segments, if_neg (by simp [hr]), if_neg (by simp [hs])]

end Steps

/-- The first segment ends where the tokens do, or before a rule or a heading that closes it. -/
private theorem segments_first (level depth : Nat) (pending : List Token) {ts : List Token}
    (h : IsReadBack ts) :
    segments level depth pending ts = [pending ++ ts] ∨ ∃ q t rest, ts = q ++ t :: rest ∧
      segments level depth pending q = [pending ++ q] ∧ depthAfter depth q = 0 ∧
        (isRule 0 t ∧ segments level depth pending ts = (pending ++ q) :: segments level 0 [] rest ∨
          startsSlide level 0 rest t ∧ (pending ++ q).all isVacantToken = false ∧
            segments level depth pending ts = (pending ++ q) :: segments level 0 [] (t :: rest)) := by
  induction ts generalizing depth pending with
  | nil => exact .inl (by rw [segments, List.append_nil])
  | cons t ts ih =>
    cases hr : isRule depth t with
    | true =>
      obtain ⟨rfl, -⟩ := depthBehind_of_isRule hr
      exact .inr ⟨[], t, ts, rfl, by simp [segments], rfl, .inl ⟨hr, by simp [segments_rule hr]⟩⟩
    | false =>
      cases hs : startsSlide level depth ts t && !pending.all isVacantToken with
      | true =>
        simp only [Bool.and_eq_true, Bool.not_eq_true'] at hs
        obtain rfl := eq_zero_of_startsSlide hs.1
        exact .inr ⟨[], t, ts, rfl, by simp [segments], rfl,
          .inr ⟨hs.1, by simpa using hs.2, by simp [segments_heading hr hs.1 hs.2]⟩⟩
      | false =>
        rw [segments_join hr hs]
        rcases ih (depthBehind depth t) (pending ++ [t]) h.tail with
          hone | ⟨q, u, rest, rfl, hq, hd, hcut⟩
        · exact .inl (by simpa using hone)
        · have hread : IsReadBack (u :: rest) := h.tail.of_append_right
          have hmay : mayCut level 0 rest u := by
            rcases hcut with ⟨hrule, -⟩ | ⟨hstart, -⟩
            · simp [mayCut, hrule]
            · simp [mayCut, hstart]
          have hfront : IsReadBack (t :: q) := by
            rw [← List.cons_append] at h
            exact h.of_append_left
          rw [startsSlide_append hfront (closesNothing_of_mayCut hread hmay)] at hs
          refine .inr ⟨t :: q, u, rest, rfl, ?_, hd, ?_⟩
          · simpa [segments_join hr hs] using hq
          · simpa using hcut

/-- The segments of a document are its segments. -/
theorem isSegmented_segments (level : Nat) {ts : List Token} (h : IsReadBack ts) :
    IsSegmented level ts (segments level 0 [] ts) := by
  induction hn : ts.length using Nat.strong_induction_on generalizing ts with
  | _ n ih =>
    subst hn
    rcases segments_first level 0 [] h with hone | ⟨q, t, rest, rfl, hq, hd, hcut⟩
    · rw [List.nil_append] at hone
      rw [hone]
      exact .last hone
    · rw [List.nil_append] at hq hcut
      rcases hcut with ⟨hrule, hsegments⟩ | ⟨hstart, hvacant, hsegments⟩
      · rw [hsegments]
        exact .rule hq hd hrule (ih rest.length (by simp; omega) h.of_append_right.tail rfl)
      · rw [hsegments]
        refine .heading hq hd hstart hvacant (ih (t :: rest).length ?_ h.of_append_right rfl)
        have hne : q ≠ [] := by
          rintro rfl
          simp at hvacant
        have := List.length_pos_iff.2 hne
        simp only [List.length_append]
        omega

theorem IsSegmented.isInfix {level : Nat} {ts : List Token} {ps : List (List Token)}
    (hseg : IsSegmented level ts ps) : ∀ p ∈ ps, p <:+: ts := by
  induction hseg with
  | last _ => simp
  | @rule p rest t ps _ _ _ _ ih =>
    intro q hq
    rcases List.mem_cons.1 hq with rfl | hq
    · exact (List.prefix_append q (t :: rest)).isInfix
    · exact (ih q hq).trans ((List.suffix_cons t rest).trans (List.suffix_append p _)).isInfix
  | @heading p rest t ps _ _ _ _ _ ih =>
    intro q hq
    rcases List.mem_cons.1 hq with rfl | hq
    · exact (List.prefix_append q (t :: rest)).isInfix
    · exact (ih q hq).trans (List.suffix_append p _).isInfix

theorem IsSegmented.isReadBack {level : Nat} {ts : List Token} {ps : List (List Token)}
    (hseg : IsSegmented level ts ps) (h : IsReadBack ts) : ∀ p ∈ ps, IsReadBack p := by
  intro p hp
  obtain ⟨us, vs, rfl⟩ := hseg.isInfix p hp
  exact h.of_append_left.of_append_right

theorem IsSegmented.isOneSegment {level : Nat} {ts : List Token} {ps : List (List Token)}
    (hseg : IsSegmented level ts ps) : ∀ p ∈ ps, IsOneSegment level p := by
  induction hseg with
  | last hone => simpa using hone
  | rule hone _ _ _ ih => simpa using ⟨hone, ih⟩
  | heading hone _ _ _ _ ih => simpa using ⟨hone, ih⟩

/-! ## White space around a document -/

@[simp] theorem depthAfter_letters (depth : Nat) (w : Text) : depthAfter depth (letters w) = depth := by
  induction w with
  | nil => rfl
  | cons c w ih => exact ih

theorem depthAfter_append (depth : Nat) (ts us : List Token) :
    depthAfter depth (ts ++ us) = depthAfter (depthAfter depth ts) us :=
  List.foldl_append

@[simp] theorem all_letters (w : Text) : (letters w).all isVacantToken = isAllBlank w := by
  simp [letters, isAllBlank, isVacantToken, Function.comp_def]

section Blank
variable {w : Text}

theorem segments_letters (level depth : Nat) (w : Text) (pending ts : List Token) :
    segments level depth pending (letters w ++ ts) =
      segments level depth (pending ++ letters w) ts := by
  induction w generalizing pending with
  | nil => simp [letters]
  | cons c w ih =>
    have hplain : segments level depth pending (letters (c :: w) ++ ts) =
        segments level depth (pending ++ [.plain [c]]) (letters w ++ ts) := rfl
    rw [hplain, ih, List.append_assoc]
    rfl

/-- White space before the segment under way stays there. -/
private theorem segments_blank_pending (level depth : Nat) (hw : isAllBlank w)
    (pending ts : List Token) : ∃ first others, segments level depth pending ts = first :: others ∧
      segments level depth (letters w ++ pending) ts = (letters w ++ first) :: others := by
  induction ts generalizing depth pending with
  | nil => exact ⟨pending, [], rfl, rfl⟩
  | cons t ts ih =>
    rw [segments, segments, List.all_append, all_letters, hw, Bool.true_and]
    split
    · exact ⟨pending, _, rfl, rfl⟩
    · split
      · exact ⟨pending, _, rfl, rfl⟩
      · rw [List.append_assoc]
        exact ih (depthBehind depth t) (pending ++ [t])

/-- White space before a document stays in its first segment. -/
theorem segments_blank_append (level : Nat) (hw : isAllBlank w) (ts : List Token) :
    ∃ first others, segments level 0 [] ts = first :: others ∧
      segments level 0 [] (letters w ++ ts) = (letters w ++ first) :: others := by
  obtain ⟨first, others, hfirst, hmore⟩ := segments_blank_pending level 0 hw [] ts
  rw [List.append_nil] at hmore
  exact ⟨first, others, hfirst, by rw [segments_letters, List.nil_append, hmore]⟩

/-- White space after a document stays in its last segment. -/
theorem segments_append_blank (level : Nat) (hw : isAllBlank w) {ts : List Token}
    (h : IsReadBack ts) : ∃ done last, segments level 0 [] ts = done ++ [last] ∧
      segments level 0 [] (ts ++ letters w) = done ++ [last ++ letters w] := by
  have hnone : ClosesNothing (spell (letters w)) := by
    left
    rw [spell_letters, trimLeft, ← List.append_nil w,
      List.dropWhile_append_of_pos (List.all_eq_true.1 hw)]
    rfl
  obtain ⟨done, last, hdone, hmore⟩ := segments_append h hnone level 0 []
  have hend := segments_letters level (depthAfter 0 ts) w last []
  rw [List.append_nil, segments] at hend
  exact ⟨done, last, hdone, by rw [hmore, hend]⟩

end Blank

/-- The texts of the segments that are not vacant. -/
def segmentTexts (ps : List (List Token)) : List Text :=
  (ps.filter fun p => !p.all isVacantToken).map fun p => trim (spell p)

@[simp] theorem segmentTexts_cons (p : List Token) (ps : List (List Token)) :
    segmentTexts (p :: ps) =
      if p.all isVacantToken then segmentTexts ps else trim (spell p) :: segmentTexts ps := by
  cases h : p.all isVacantToken <;> simp [segmentTexts, h]

@[simp] theorem segmentTexts_append (ps qs : List (List Token)) :
    segmentTexts (ps ++ qs) = segmentTexts ps ++ segmentTexts qs := by
  simp [segmentTexts]

/-- The fragments of a document are the texts of its segments. -/
theorem split_spell (level : Nat) {ts : List Token} (h : IsReadBack ts) :
    split (spell ts) level = segmentTexts (segments level 0 [] ts) := by
  have hread := (isSegmented_segments level h).isReadBack h
  rw [split, cut_eq_segments level h, List.filter_map, List.map_map, segmentTexts]
  congr 1
  refine List.filter_congr fun p hp => ?_
  rw [Function.comp_apply, isVacant_spell (hread p hp)]

/-- White space around a document is not seen in its fragments. -/
theorem segmentTexts_blank_append (level : Nat) {w : Text} (hw : isAllBlank w) (ts : List Token) :
    segmentTexts (segments level 0 [] (letters w ++ ts)) = segmentTexts (segments level 0 [] ts) := by
  obtain ⟨first, others, hfirst, hmore⟩ := segments_blank_append level hw ts
  simp only [hfirst, hmore, segmentTexts_cons, List.all_append, all_letters, hw, Bool.true_and,
    spell_append, spell_letters, trim_blank_append hw]

theorem segmentTexts_append_blank (level : Nat) {w : Text} (hw : isAllBlank w) {ts : List Token}
    (h : IsReadBack ts) :
    segmentTexts (segments level 0 [] (ts ++ letters w)) = segmentTexts (segments level 0 [] ts) := by
  obtain ⟨done, last, hdone, hmore⟩ := segments_append_blank level hw h
  simp only [hdone, hmore, segmentTexts_append, segmentTexts_cons, List.all_append, all_letters, hw,
    Bool.and_true, spell_append, spell_letters, trim_append_blank hw]

end Slideshow.Fragment
