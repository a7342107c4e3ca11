import Slideshow.Proofs.Segments

/-!
# Splitting fragments again

Fragments are canonical: none of them is cut further, and put together with rules between them they
are found again. A deeper split level cuts each fragment for itself.
-/
namespace Slideshow.Fragment
open Text Markup

/-! ## White space around a fragment -/

section Trim
variable {level : Nat} {ts : List Token}

/-- White space around a document is read character by character. -/
theorem exists_trimmed (h : IsReadBack ts) : ∃ w us v, ts = letters w ++ us ++ letters v ∧
    IsReadBack us ∧ spell us = trim (spell ts) ∧ isAllBlank w ∧ isAllBlank v := by
  obtain ⟨w, v, hs, hw, hv⟩ := exists_eq_append_trim (spell ts)
  rw [List.append_assoc] at hs
  obtain ⟨us, rfl, hus⟩ := h.eq_letters_append hs (not_mem_of_isAllBlank hw isBlank_bracket)
  obtain ⟨vs, rfl, hvs⟩ :=
    h.of_append_right.eq_append_letters hus (not_mem_of_isAllBlank hv (by decide))
  exact ⟨w, vs, v, by rw [List.append_assoc], h.of_append_right.of_append_left, hvs, hw, hv⟩

/-- White space around a document is not seen by its fragments. -/
theorem split_trim (s : Text) (level : Nat) : split (trim s) level = split s level := by
  obtain ⟨ts, rfl, h⟩ := exists_isReadBack s
  obtain ⟨w, us, v, rfl, hread, htrim, hw, hv⟩ := exists_trimmed h
  rw [← htrim, split_spell level h, split_spell level hread, List.append_assoc,
    segmentTexts_blank_append level hw, segmentTexts_append_blank level hv hread]

end Trim

/-! ## A deeper level -/

theorem startsSlide_mono {level deeper depth : Nat} {t : Token} {rest : List Token}
    (h : level ≤ deeper) (hs : startsSlide level depth rest t) :
    startsSlide deeper depth rest t := by
  cases t with
  | comment body => simp [startsSlide] at hs
  | plain s => simp [startsSlide] at hs
  | tag t =>
    simp only [startsSlide, opensSlide, Bool.and_eq_true] at hs ⊢
    obtain ⟨hopen, hlevel, hnotes⟩ := hs
    refine ⟨hopen, ?_, hnotes⟩
    cases hl : levelOfName? (elementName t) with
    | none => simp [hl] at hlevel
    | some n =>
      have hn : n ≤ level := by simpa [hl] using hlevel
      simpa using hn.trans h

/-- A rule is no heading. -/
theorem isRule_of_startsSlide {level depth : Nat} {t : Token} {rest : List Token}
    (h : startsSlide level depth rest t) : isRule depth t = false := by
  cases t with
  | comment body => rfl
  | plain s => rfl
  | tag t =>
    cases hname : decide (elementName t = ("hr" : Text)) with
    | true =>
      rw [decide_eq_true_eq] at hname
      have hlevel : levelOfName? "hr" = none := by cbv
      simp only [startsSlide, opensSlide, hname, hlevel, Option.any_none, Bool.false_and,
        Bool.and_false, Bool.false_eq_true] at h
    | false => simp only [isRule, hname, Bool.and_false]

/-- Tokens that are one segment at a level are cut, at any level, into segments that are not vacant,
unless they are vacant themselves. -/
private theorem all_segments_of_oneSegment {level deeper depth : Nat} {pending p : List Token}
    (h : segments level depth pending p = [pending ++ p]) (current : List Token)
    (hv : (current ++ p).all isVacantToken = false) :
    ∀ g ∈ segments deeper depth current p, g.all isVacantToken = false := by
  induction p generalizing depth pending current with
  | nil => simpa [segments] using hv
  | cons t p ih =>
    cases hr : isRule depth t with
    | true => simp [segments_rule hr] at h
    | false =>
      cases hs : startsSlide level depth p t && !pending.all isVacantToken with
      | true =>
        simp only [Bool.and_eq_true, Bool.not_eq_true'] at hs
        simp [segments_heading hr hs.1 hs.2] at h
      | false =>
        rw [segments_join hr hs] at h
        have hrest : segments level (depthBehind depth t) (pending ++ [t]) p =
            [pending ++ [t] ++ p] := by simpa using h
        rw [segments, if_neg (by simp [hr])]
        split
        · next hd =>
          simp only [Bool.and_eq_true, Bool.not_eq_true'] at hd
          have ht : isVacantToken t = false :=
            isVacantToken_of_mayCut (show mayCut deeper depth p t by simp [mayCut, hd.1])
          intro g hg
          rcases List.mem_cons.1 hg with rfl | hg
          · exact hd.2
          · exact ih hrest [t] (by simp [ht]) g hg
        · exact ih hrest (current ++ [t]) (by simpa using hv)

/-- At a deeper level each segment is cut for itself. -/
theorem segments_flatMap {level deeper : Nat} (h : level ≤ deeper) {ts : List Token}
    {ps : List (List Token)} (hseg : IsSegmented level ts ps) (hread : IsReadBack ts) :
    segments deeper 0 [] ts = ps.flatMap (segments deeper 0 []) := by
  induction hseg with
  | last _ => simp
  | @rule p rest t ps hone hd hrule hseg ih =>
    have hbehind : IsReadBack (t :: rest) := hread.of_append_right
    have hcut : mayCut deeper 0 rest t := by simp [mayCut, hrule]
    obtain ⟨done, current, hdone, hcurrent⟩ :=
      segments_append hread.of_append_left (closesNothing_of_mayCut hbehind hcut) deeper 0 []
    rw [hcurrent, hd, segments_rule hrule, ih hbehind.tail, List.flatMap_cons, hdone]
    simp
  | @heading p rest t ps hone hd hstart hv hseg ih =>
    have hbehind : IsReadBack (t :: rest) := hread.of_append_right
    have hdeeper := startsSlide_mono h hstart
    have hcut : mayCut deeper 0 rest t := by simp [mayCut, hdeeper]
    obtain ⟨done, current, hdone, hcurrent⟩ :=
      segments_append hread.of_append_left (closesNothing_of_mayCut hbehind hcut) deeper 0 []
    have hmem : current ∈ segments deeper 0 [] p := by simp [hdone]
    have hnone := all_segments_of_oneSegment hone [] hv current hmem
    rw [hcurrent, hd, segments_heading (isRule_of_startsSlide hdeeper) hdeeper hnone, ih hbehind,
      List.flatMap_cons, hdone]
    simp

/-- White space and comments are not cut. -/
private theorem segments_of_vacant {level depth : Nat} {ts : List Token}
    (h : ts.all isVacantToken) (pending : List Token) :
    segments level depth pending ts = [pending ++ ts] := by
  induction ts generalizing depth pending with
  | nil => rw [segments, List.append_nil]
  | cons t ts ih =>
    simp only [List.all_cons, Bool.and_eq_true] at h
    have hcut : mayCut level depth ts t = false := by
      by_contra hc
      rw [Bool.not_eq_false] at hc
      simp [isVacantToken_of_mayCut hc] at h
    simp only [mayCut, Bool.or_eq_false_iff] at hcut
    rw [segments_join hcut.1 (by simp [hcut.2]), ih h.2, List.append_assoc]
    rfl

/-- The fragments of a level, each cut at another level, are the segments cut at that level. -/
private theorem flatMap_split (deeper : Nat) {ps : List (List Token)}
    (h : ∀ p ∈ ps, IsReadBack p) : (segmentTexts ps).flatMap (split · deeper) =
      segmentTexts (ps.flatMap (segments deeper 0 [])) := by
  induction ps with
  | nil => rfl
  | cons p ps ih =>
    have hrest := ih fun q hq => h q (List.mem_cons_of_mem p hq)
    have hp := split_spell deeper (h p List.mem_cons_self)
    rw [segmentTexts_cons, List.flatMap_cons, segmentTexts_append, ← hrest, ← hp]
    split
    · next hv => simp [hp, segments_of_vacant hv, hv, segmentTexts]
    · rw [List.flatMap_cons, split_trim]

/-- A deeper level cuts each fragment of a level for itself. -/
theorem split_eq_flatMap_split {level deeper : Nat} (h : level ≤ deeper) (html : Text) :
    split html deeper = (split html level).flatMap (split · deeper) := by
  obtain ⟨ts, rfl, hread⟩ := exists_isReadBack html
  have hseg := isSegmented_segments level hread
  rw [split_spell deeper hread, split_spell level hread, segments_flatMap h hseg hread,
    flatMap_split deeper (hseg.isReadBack hread)]

/-- A heading below another one, a rule in a comment, and a bracket that opens nothing. -/
def nestedHeadings : List Token :=
  [.tag ⟨false, "h1", [], false⟩, .plain ['A'], .tag ⟨true, "h1", [], false⟩, .comment "<hr>",
    .tag ⟨false, "h2", [], false⟩, .plain ['B'], .tag ⟨true, "h2", [], false⟩, .plain ['<']]

theorem split_nestedHeadings : 1 ≤ 2 ∧
    split (spell nestedHeadings) 2 = (split (spell nestedHeadings) 1).flatMap (split · 2) ∧
      split (spell nestedHeadings) 1 = ["<h1>A</h1><!--<hr>--><h2>B</h2><"] ∧
        split (spell nestedHeadings) 2 = ["<h1>A</h1><!--<hr>-->", "<h2>B</h2><"] := by
  have h : IsReadBack nestedHeadings :=
    .markup (by cbv) (.letter (by cbv) (.markup (by cbv) (.markup (by cbv) (.markup (by cbv)
      (.letter (by cbv) (.markup (by cbv) (.letter (by cbv) .nil)))))))
  refine ⟨by decide, split_eq_flatMap_split (by decide) (spell nestedHeadings), ?_, ?_⟩
  · rw [split_spell 1 h]
    cbv
  · rw [split_spell 2 h]
    cbv

/-! ## Rules between fragments -/

/-- A rule on a line of its own, as tokens. -/
def ruleLine : List Token :=
  letters ['\n'] ++ .tag ⟨false, "hr", [' '], true⟩ :: letters ['\n']

theorem spell_ruleLine : spell ruleLine = "\n<hr />\n" := by
  simp [ruleLine, Token.source, Tag.source]

theorem isReadBack_ruleLine {ts : List Token} (h : IsReadBack ts) :
    IsReadBack (ruleLine ++ ts) := by
  have hrule : Token.ofMarkup? "<hr />" = some (.tag ⟨false, "hr", [' '], true⟩, []) := by
    cbv
  rw [ruleLine, List.append_assoc]
  refine .letters_append (by decide) (.markup ?_ (.letters_append (by decide) h))
  exact Token.ofMarkup?_source_append hrule (spell (letters ['\n'] ++ ts))

/-- A rule behind closed elements ends the segment in front of it. -/
private theorem segmentTexts_ruleLine {level : Nat} {us js : List Token} (h : IsReadBack us)
    (hone : IsOneSegment level us) (hd : depthAfter 0 us = 0)
    (hv : us.all isVacantToken = false) :
    segmentTexts (segments level 0 [] (us ++ (ruleLine ++ js))) =
      trim (spell us) :: segmentTexts (segments level 0 [] js) := by
  have hblank : isAllBlank ['\n'] := by decide
  have hclose : ClosesNothing (spell (ruleLine ++ js)) := by
    right
    rw [spell_append, spell_ruleLine]
    refine ⟨'h', "r />\n" ++ spell js, ?_, by decide⟩
    simp [trimLeft, isBlank_bracket, show isBlank '\n' by decide]
  obtain ⟨done, current, hdone, hmore⟩ := segments_append h hclose level 0 []
  obtain ⟨rfl, rfl⟩ : done = [] ∧ current = us := by
    rw [hone] at hdone
    cases done with
    | nil => simpa using hdone.symm
    | cons g done => simp at hdone
  have hrule : isRule 0 (.tag ⟨false, "hr", [' '], true⟩) := by simp [isRule, elementName]
  rw [hmore, hd, ruleLine, List.append_assoc, segments_letters, List.cons_append,
    segments_rule hrule]
  simp only [List.nil_append, segmentTexts_cons, List.all_append, hv, Bool.false_and, spell_append,
    spell_letters, trim_append_blank hblank, segmentTexts_blank_append level hblank]
  rfl

/-- Tokens that spell some texts with rules between them, and whose fragments are these texts. -/
structure IsRejoined (level : Nat) (texts : List Text) (js : List Token) : Prop where
  isReadBack : IsReadBack js
  spell_eq : spell js = List.intercalate "\n<hr />\n" texts
  segmentTexts_eq : segmentTexts (segments level 0 [] js) = texts

/-- A segment without the white space around it is cut no further. -/
private theorem IsOneSegment.of_blank {level : Nat} {us : List Token} {w v : Text}
    (hw : isAllBlank w) (hv : isAllBlank v) (h : IsReadBack us)
    (hone : IsOneSegment level (letters w ++ us ++ letters v)) : IsOneSegment level us := by
  rw [IsOneSegment, List.append_assoc] at hone
  obtain ⟨first, others, hfirst, hmore⟩ := segments_blank_append level hw (us ++ letters v)
  obtain ⟨done, last, hdone, hlast⟩ := segments_append_blank level hv h
  rw [hmore, List.cons.injEq, List.append_cancel_left_eq] at hone
  rw [hone.1, hone.2, hlast] at hfirst
  rw [IsOneSegment, hdone]
  cases done with
  | nil => simpa using hfirst
  | cons g done => simp at hfirst

/-- The end of a comment starts with a hyphen. -/
private theorem occursIn_of_append {x s : Text} (hx : '-' ∉ x) (h : occursIn "-->" (x ++ s)) :
    occursIn "-->" s := by
  induction x with
  | nil => exact h
  | cons c x ih =>
    simp only [List.mem_cons, not_or] at hx
    refine ih hx.2 ?_
    simpa [occursIn, cutAt?, dropAffix?, hx.1] using h

/-- A segment without the white space around it is its own fragment. -/
private theorem exists_isRejoined_singleton {level : Nat} {p : List Token} (h : IsReadBack p)
    (hone : IsOneSegment level p) (hv : p.all isVacantToken = false) :
    ∃ w us v, p = letters w ++ us ++ letters v ∧ isAllBlank v ∧ IsOneSegment level us ∧
      us.all isVacantToken = false ∧ IsRejoined level [trim (spell p)] us := by
  obtain ⟨w, us, v, rfl, hus, htrim, hw, hv'⟩ := exists_trimmed h
  have hone' := hone.of_blank hw hv' hus
  have hvacant : us.all isVacantToken = false := by simpa [hw, hv'] using hv
  refine ⟨w, us, v, rfl, hv', hone', hvacant, hus, ?_, ?_⟩
  · rw [List.intercalate_singleton, htrim]
  · rw [hone', ← htrim, segmentTexts_cons, hvacant, htrim, trim_trim]
    rfl

/-- A segment joins what stands behind it. -/
private theorem exists_isRejoined_cons {level : Nat} {p rest js : List Token} {t : Token}
    {texts : List Text} (h : IsReadBack (p ++ t :: rest)) (hone : IsOneSegment level p)
    (hd : depthAfter 0 p = 0) (hcut : mayCut level 0 rest t) (hv : p.all isVacantToken = false)
    (hjs : IsRejoined level texts js)
    (hend : occursIn "-->" (spell js) → occursIn "-->" (spell (t :: rest))) :
    ∃ ks, IsRejoined level (trim (spell p) :: texts) ks ∧
      (occursIn "-->" (spell ks) → occursIn "-->" (spell (p ++ t :: rest))) := by
  obtain ⟨w, us, v, rfl, hv', hone', hvacant, hus⟩ :=
    exists_isRejoined_singleton h.of_append_left hone hv
  have hfront : spell us <:+: spell (letters w ++ us ++ letters v ++ t :: rest) :=
    ⟨w, v ++ spell (t :: rest), by simp⟩
  have hbehind : spell (t :: rest) <:+: spell (letters w ++ us ++ letters v ++ t :: rest) :=
    ⟨w ++ spell us ++ v, [], by simp⟩
  by_cases htexts : texts = []
  · subst htexts
    exact ⟨us, hus, occursIn_mono hfront⟩
  have hdepth : depthAfter 0 us = 0 := by simpa [depthAfter_append] using hd
  have hruleEnd : occursIn "-->" (spell (ruleLine ++ js)) → occursIn "-->" (spell (t :: rest)) := by
    intro ho
    rw [spell_append, spell_ruleLine] at ho
    exact hend (occursIn_of_append (by simp) ho)
  have hapart : StandsApart (spell (ruleLine ++ js)) := by
    rw [spell_append, spell_ruleLine]
    simp [StandsApart, show isBlank '\n' by decide]
  obtain ⟨c, u, ht, -⟩ := source_of_mayCut h.of_append_right hcut
  have hfirst : spell us = trim (spell (letters w ++ us ++ letters v)) := by
    rw [hus.spell_eq, List.intercalate_singleton]
  refine ⟨us ++ (ruleLine ++ js), ⟨?_, ?_, ?_⟩, fun ho => ?_⟩
  · -- The bracket that ended the segment is now that of the rule.
    have hread : IsReadBack (us ++ (letters v ++ t :: rest)) := by
      have hread := h
      simp only [List.append_assoc] at hread
      exact hread.of_append_right
    refine hread.replace (isReadBack_ruleLine hjs.isReadBack) ?_ hapart ?_ fun ho => ?_
    · cases v with
      | nil => simp [StandsApart, ht]
      | cons c v =>
        have hc : isBlank c := List.all_eq_true.1 hv' c List.mem_cons_self
        simp [StandsApart, hc]
    · simp [ht]
    · exact occursIn_mono ⟨v, [], by simp⟩ (hruleEnd ho)
  · rw [List.intercalate_cons_of_ne_nil htexts, ← hfirst, ← hjs.spell_eq, ← spell_ruleLine]
    simp only [spell_append, List.append_assoc]
  · rw [segmentTexts_ruleLine hus.isReadBack hone' hdepth hvacant, hjs.segmentTexts_eq, hfirst,
      trim_trim]
  · rw [spell_append, occursIn_append_of_standsApart hapart, Bool.or_eq_true] at ho
    rcases ho with ho | ho
    · exact occursIn_mono hfront ho
    · exact occursIn_mono hbehind (hruleEnd ho)

/-- The fragments of a document with rules between them are read back and found again. -/
theorem exists_isRejoined {level : Nat} {ts : List Token} {ps : List (List Token)}
    (hseg : IsSegmented level ts ps) (h : IsReadBack ts) :
    ∃ js, IsRejoined level (segmentTexts ps) js ∧
      (occursIn "-->" (spell js) → occursIn "-->" (spell ts)) := by
  induction hseg with
  | @last p hone =>
    cases hv : p.all isVacantToken with
    | true =>
      refine ⟨[], ⟨.nil, ?_, ?_⟩, fun ho => ?_⟩
      · simp [segmentTexts, hv]
      · simp [segments, segmentTexts, hv]
      · simp [occursIn, cutAt?] at ho
    | false =>
      obtain ⟨w, us, v, rfl, -, -, -, hus⟩ := exists_isRejoined_singleton h hone hv
      have hpart : spell us <:+: spell (letters w ++ us ++ letters v) := ⟨w, v, by simp⟩
      rw [segmentTexts_cons, hv]
      exact ⟨us, hus, occursIn_mono hpart⟩
  | @rule p rest t ps hone hd hrule hseg ih =>
    obtain ⟨js, hjs, hend⟩ := ih h.of_append_right.tail
    have hrest : spell rest <:+: spell (t :: rest) := ⟨t.source, [], by simp⟩
    have hmore : spell (t :: rest) <:+: spell (p ++ t :: rest) := ⟨spell p, [], by simp⟩
    have hcut : mayCut level 0 rest t := by simp [mayCut, hrule]
    rw [segmentTexts_cons]
    cases hv : p.all isVacantToken with
    | true => exact ⟨js, hjs, fun ho => occursIn_mono (hrest.trans hmore) (hend ho)⟩
    | false =>
      exact exists_isRejoined_cons h hone hd hcut hv hjs fun ho => occursIn_mono hrest (hend ho)
  | @heading p rest t ps hone hd hstart hv hseg ih =>
    obtain ⟨js, hjs, hend⟩ := ih h.of_append_right
    have hcut : mayCut level 0 rest t := by simp [mayCut, hstart]
    rw [segmentTexts_cons, hv]
    exact exists_isRejoined_cons h hone hd hcut hv hjs hend

/-- No fragment is cut further, and fragments with rules between them are found again. -/
theorem split_fragments (html : Text) (level : Nat) :
    (∀ f ∈ split html level, split f level = [f]) ∧
      split (List.intercalate "\n<hr />\n" (split html level)) level = split html level := by
  obtain ⟨ts, rfl, h⟩ := exists_isReadBack html
  have hseg := isSegmented_segments level h
  rw [split_spell level h]
  constructor
  · intro f hf
    simp only [segmentTexts, List.mem_map, List.mem_filter, Bool.not_eq_true'] at hf
    obtain ⟨p, ⟨hp, hv⟩, rfl⟩ := hf
    have hone : segments level 0 [] p = [p] := hseg.isOneSegment p hp
    rw [split_trim, split_spell level (hseg.isReadBack h p hp), hone, segmentTexts_cons, hv]
    rfl
  · obtain ⟨js, hjs, -⟩ := exists_isRejoined hseg h
    rw [← hjs.spell_eq, split_spell level hjs.isReadBack, hjs.segmentTexts_eq]

end Slideshow.Fragment
