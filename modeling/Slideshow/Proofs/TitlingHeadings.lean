import Slideshow.Proofs.ReassembledSlides
import Slideshow.Proofs.Segments

/-!
# Headings that title the slides they start

Two readers look at the heading that starts a slide: the one that cuts the document reads the name of its
tag, in letters of any case, the one that titles the slide reads its text. They agree on the headings that
are written plainly, and on no others.
-/
namespace Slideshow
open Text Markup Forest Fragment

/-! ## Tags that are read -/

namespace Markup

/-- A tag that is spelled by its name and by what stands between the name and its bracket. -/
structure Tag.IsSpelledBy (t : Tag) (inside : Text) : Prop where
  isName : isName t.name
  isInTag : isInTag inside
  source_eq : t.source =
    '<' :: ((if t.closing then ['/'] else []) ++ (t.name ++ inside ++ ['>']))

theorem Tag.exists_isSpelledBy {s rest : Text} {t : Tag} (h : Tag.read? s = some (t, rest)) :
    ∃ inside, t.IsSpelledBy inside := by
  have key : ∀ {closing : Bool} {v : Text}, Tag.readNamed? closing v = some (t, rest) →
      ∃ inside, t.IsSpelledBy inside := by
    intro closing v hv
    have hsource := Tag.eq_source_append_of_readNamed? hv
    obtain ⟨name, inside, hn, hi, rfl⟩ := eq_append_of_readNamed? hv
    rw [readNamed?_eq hn hi] at hv
    obtain ⟨rfl, rfl⟩ : closing = t.closing ∧ name = t.name := by
      split at hv <;> obtain ⟨rfl, -⟩ := Prod.mk.inj (Option.some.inj hv) <;> exact ⟨rfl, rfl⟩
    refine ⟨inside, hn, hi, (List.append_left_inj rest).1 ?_⟩
    rw [← hsource]
    simp
  simp only [Tag.read?, Option.bind_eq_bind, Option.bind_eq_some_iff] at h
  obtain ⟨v, -, h⟩ := h
  split at h
  · exact key h
  · exact key h

theorem Token.read?_of_ofMarkup? {s rest : Text} {t : Tag}
    (h : Token.ofMarkup? s = some (.tag t, rest)) : Tag.read? s = some (t, rest) := by
  simp only [Token.ofMarkup?, Option.orElse_eq_orElse, Option.orElse_eq_or, Option.or_eq_some_iff,
    Option.map_eq_some_iff, Prod.mk.injEq] at h
  rcases h with ⟨p, -, htag, -⟩ | ⟨-, ⟨tag, u⟩, hread, htag, rfl⟩
  · simp at htag
  · obtain rfl := Token.tag.inj htag
    exact hread

theorem exists_read?_of_mem_tokens {s : Text} {t : Tag} (h : .tag t ∈ tokens s) :
    ∃ u rest, Tag.read? u = some (t, rest) := by
  fun_induction tokens s with
  | case1 => simp at h
  | case2 c u token rest hread ih =>
    rcases List.mem_cons.1 h with rfl | h
    · exact ⟨_, _, Token.read?_of_ofMarkup? hread⟩
    · exact ih h
  | case3 c u hread ih =>
    rcases List.mem_cons.1 h with heq | h
    · simp at heq
    · exact ih h

theorem Tag.IsSpelledBy.bracket_not_mem {t : Tag} {inside : Text} (h : t.IsSpelledBy inside) :
    '>' ∉ t.name ++ inside := by
  have hname : '>' ∉ t.name := not_mem_name h.isName rfl
  simp [hname, (isInTag_iff.1 h.isInTag).2]

theorem exists_isSpelledBy_of_mem_tokens {s : Text} {t : Tag} (h : .tag t ∈ tokens s) :
    ∃ inside, t.IsSpelledBy inside := by
  obtain ⟨_, _, hread⟩ := exists_read?_of_mem_tokens h
  exact Tag.exists_isSpelledBy hread

theorem tokens_textElement {name attributes content : Text} {c : Char} (hn : isName name)
    (ha : isInTag attributes) (hc : '<' ∉ c :: content) :
    tokens (opened name attributes ++ (c :: content ++ closed name)) =
      [.tag (openTag name attributes), .plain (c :: content), .tag (closeTag name)] := by
  have hclosed := tokens_closed hn []
  rw [List.mem_cons, not_or] at hc
  have hrun : ∀ d ∈ content, decide (d ≠ '<') := fun d hd => by
    simpa using fun he : d = '<' => hc.2 (he ▸ hd)
  have hend : (closed name).head?.any (fun d => decide (d ≠ '<')) = false := by simp [closed]
  rw [List.append_nil, tokens] at hclosed
  rw [tokens_opened hn ha, List.cons_append, tokens_plain (Ne.symm hc.1), takeWhile_run hrun hend,
    dropWhile_run hrun hend, hclosed]

/-! ## Names of headings -/

/-- A digit is its own small letter and that of no other character. -/
theorem toLower_eq_digit_iff {c d : Char} (h : (headingDigit? d).isSome) : c.toLower = d ↔ c = d := by
  have hcode : 49 ≤ d.toNat ∧ d.toNat ≤ 54 := by
    rw [headingDigit?_eq] at h
    split at h
    · assumption
    · simp at h
  constructor
  · refine fun hc => eq_of_toLower_eq hc (Bool.eq_false_iff.2 fun hl => ?_)
    have := isLower_iff.1 hl
    omega
  · rintro rfl
    refine toLower_of_not_isUpper (Bool.eq_false_iff.2 fun hu => ?_)
    have := isUpper_iff.1 hu
    omega

/-- The names of two headings agree in small letters, and one of them is all that is in its tag. -/
theorem eq_of_map_toLower {name inside : Text} {d e : Char} (hd : (headingDigit? d).isSome)
    (hsplit : name ++ inside = ['h', e])
    (hname : name.map Char.toLower = ['h', d].map Char.toLower) :
    e = d ∧ name = ['h', d] ∧ inside = [] := by
  have hlength : name.length = 2 := by simpa using congrArg List.length hname
  have hsplit : name ++ inside = ['h', e] ++ [] := hsplit
  obtain ⟨rfl, rfl⟩ := List.append_inj hsplit hlength
  have hlower : e.toLower = d.toLower := by simpa using hname
  rw [(toLower_eq_digit_iff hd).2 rfl, toLower_eq_digit_iff hd] at hlower
  simp [hlower]

theorem headingDigit?_of_levelOfName? {d : Char} {k : Nat}
    (h : levelOfName? (['h', d].map Char.toLower) = some k) : headingDigit? d = some k := by
  have hdrop : dropAffix? "h" (['h', d].map Char.toLower) = some [d.toLower] := by
    simp [dropAffix?, show Char.toLower 'h' = 'h' by decide]
  have hz : [d.toLower].head? ≠ some '0' := fun hz => by
    obtain hz : d.toLower = '0' := by simpa using hz
    rw [levelOfName?, hdrop, hz] at h
    exact absurd h (by simp [value?, Option.filter])
  rw [levelOfName?, hdrop, Option.bind_eq_bind, Option.bind_some, level_eq_headingDigit? hz] at h
  have hdigit : headingDigit? d.toLower = some k := h
  rwa [← (toLower_eq_digit_iff (hdigit ▸ rfl)).1 rfl] at hdigit

/-! ## The text of a heading -/

/-- What is trimmed off holds no bracket. -/
theorem bracket_not_mem_of_trim_eq {s u : Text} (h : trim (s ++ u) = trim s) : '<' ∉ u := by
  have hcount : ∀ v : Text, (trim v).count '<' = v.count '<' := fun v => by
    obtain ⟨w, x, hv, hw, hx⟩ := exists_eq_append_trim v
    have hnone : ∀ {b : Text}, isAllBlank b → b.count '<' = 0 := fun hb =>
      List.count_eq_zero.2 (not_mem_of_isAllBlank hb isBlank_bracket)
    conv => rhs; rw [hv]
    simp [hnone hw, hnone hx]
  have hsame := congrArg (List.count '<') h
  rw [hcount, hcount, List.count_append] at hsame
  exact List.count_eq_zero.1 (by omega)

/-- Two texts that trim to the same end in front of the same bracket. -/
theorem append_bracket_inj_of_trim_eq {a b u v : Text} (htrim : trim a = trim b)
    (h : a ++ '<' :: u = b ++ '<' :: v) : a = b ∧ u = v := by
  have key : ∀ {a u v w : Text}, '<' :: u = w ++ '<' :: v → trim (a ++ w) = trim a → w = [] := by
    intro a u v w hw htrim
    cases w with
    | nil => rfl
    | cons x w =>
      obtain rfl : '<' = x := (List.cons.inj hw).1
      exact absurd List.mem_cons_self (bracket_not_mem_of_trim_eq htrim)
  rcases List.append_eq_append_iff.1 h with ⟨w, rfl, hw⟩ | ⟨w, rfl, hw⟩
  · obtain rfl := key hw htrim.symm
    exact ⟨by simp, (List.cons.inj hw).2⟩
  · obtain rfl := key hw htrim
    exact ⟨by simp, (List.cons.inj hw).2.symm⟩

theorem cutAtClosing?_eq_none_iff {s : Text} :
    cutAtClosing? s = none ↔ ∀ e, (headingDigit? e).isSome → ¬closed ['h', e] <:+: s := by
  rw [cutAtClosing?_eq_scan]
  constructor
  · rintro h e he ⟨x, y, rfl⟩
    have hread := read_eq_none_of_scan h (List.append_assoc x _ y) (by simp [closed])
    rw [closing?_eq_some_iff.2 ⟨by simp [closed]; rfl, he⟩] at hread
    simp at hread
  · intro h
    rw [Option.eq_none_iff_forall_ne_some]
    rintro ⟨x, e, y⟩ hscan
    obtain ⟨u, rfl, hu, -⟩ := exists_of_scan hscan
    obtain ⟨rfl, he⟩ := closing?_eq_some_iff.1 hu
    exact h e he ⟨x, y, by simp [closed]⟩

end Markup

/-! ## Titles -/

namespace Fragment

theorem shown_isPrefix (fragment : Text) : shown fragment <+: fragment := by
  unfold shown
  cases h : cutAtNotes? fragment with
  | none => exact List.prefix_rfl
  | some p =>
    rw [cutAtNotes?_eq_scan] at h
    obtain ⟨u, hu⟩ := exists_append_of_scan h
    exact ⟨u, hu.symm⟩

/-- What is at the front of a fragment is shown if no notes heading starts in it. -/
theorem isPrefix_shown_iff {fragment s : Text} (hs : s <+: fragment) : s <+: shown fragment ↔
    ∀ x m y, fragment = x ++ m ++ y → IsNotesHeading m → s.length ≤ x.length := by
  unfold shown
  cases hcut : cutAtNotes? fragment with
  | none =>
    refine ⟨fun _ x m y hparts hm => ?_, fun _ => hs⟩
    rw [cutAtNotes?_eq_scan] at hcut
    exact absurd ⟨m, ⟨x, y, hparts.symm⟩, hm⟩ (readsShortest_notesHeading?.not_holds_of_scan hcut)
  | some p =>
    obtain ⟨before, notes⟩ := p
    rw [cutAtNotes?_eq_scan] at hcut
    obtain ⟨heading, hfragment, hfirst⟩ := readsShortest_notesHeading?.isFirst_of_scan hcut
    rw [Option.map_some, Option.getD_some]
    constructor
    · exact fun hbefore x m y hparts hm =>
        hbefore.length_le.trans (hfirst.leftmost x m y (hparts.symm.trans hfragment) hm)
    · refine fun h => List.prefix_of_prefix_length_le hs ?_ (h _ _ _ hfragment hfirst.holds)
      exact ⟨heading ++ id notes, by rw [hfragment, List.append_assoc]⟩

end Fragment

namespace Slide

/-- A slide whose heading stands first in a fragment and has a text and a level. -/
structure IsTitledWith (s : Slide) (fragment inner : Text) (level : Nat) : Prop where
  level_eq : s.level = some level
  header : ∃ header, s.header = some header ∧ header <+: fragment
  title_eq : s.title = some (trim inner)

/-- A heading at the front of a fragment that is written plainly: its name is a small letter and one
digit, its close tag is that name and nothing else, no heading is closed in its text, and no notes
heading starts in it. -/
structure IsPlainHeading (fragment : Text) (opening closing : Tag) (inner : Text) : Prop where
  name_eq : ∃ digit, opening.name = ['h', digit]
  closing_eq : closing.source = closed opening.name
  closesNone : ∀ digit, (headingDigit? digit).isSome → ¬closed ['h', digit] <:+: inner
  notes : ∀ x m y, fragment = x ++ m ++ y → IsNotesHeading m →
    (opening.source ++ inner ++ closing.source).length ≤ x.length

/-- The heading stands first if it is read at the front of what is shown. -/
theorem isTitledWith_iff_read? {fragment inner : Text} {k : Nat} (showNotes : Bool) :
    IsTitledWith (ofFragment fragment showNotes) fragment inner k ↔
      ∃ h rest, Heading.read? (Fragment.shown fragment) = some (h, rest) ∧ h.level = k ∧
        trim h.inner = trim inner := by
  have hfront := Fragment.shown_isPrefix fragment
  rw [ofFragment_eq]
  constructor
  · rintro ⟨hlevel, ⟨header, hheader, hprefix⟩, htitle⟩
    cases hfind : Heading.find? (Fragment.shown fragment) with
    | none => simp [ofShown, withNotes, hfind] at hheader
    | some p =>
      obtain ⟨before, h, after⟩ := p
      simp only [ofShown, withNotes, hfind, Option.some.injEq] at hlevel hheader htitle
      subst hheader
      have hshown : Fragment.shown fragment = before ++ (h.source ++ after) := by
        simpa using Heading.eq_of_find? hfind
      obtain ⟨u, -, hread, -⟩ := exists_of_scan ((Heading.find?_eq_scan _).symm.trans hfind)
      -- the text of the heading is at the front of the fragment, so it is read there already
      obtain ⟨after', hafter⟩ : h.source <+: Fragment.shown fragment :=
        List.prefix_of_prefix_length_le hprefix hfront (by simp [hshown]; omega)
      have hsame := Heading.read?_eq_some_iff.2 ⟨hafter.symm, (Heading.read?_eq_some_iff.1 hread).2⟩
      exact ⟨h, after', hsame, hlevel, htitle⟩
  · rintro ⟨h, rest, hread, hlevel, htitle⟩
    have hshown := Heading.eq_source_append_of_read? hread
    have hfind : Heading.find? (Fragment.shown fragment) = some ([], h, rest) := by
      rw [Heading.find?_eq_scan]
      exact scan_of_read (by simp [hshown, Heading.source]) hread
    have hprefix : h.source <+: fragment := (List.prefix_append _ rest).trans (hshown ▸ hfront)
    simp only [ofShown, hfind]
    exact ⟨congrArg some hlevel, ⟨h.source, rfl, hprefix⟩, congrArg some htitle⟩

section Titles
variable {fragment : Text} {t c : Tag} {ts rest : List Token} {k : Nat}
  (htokens : tokens fragment = .tag t :: (ts ++ .tag c :: rest)) (hopen : t.closing = false)
  (hlevel : levelOfName? (elementName t) = some k) (hclose : c.closing)
  (hname : elementName c = elementName t)
include htokens

theorem isPrefix_heading : t.source ++ spell ts ++ c.source <+: fragment := by
  refine ⟨spell rest, ?_⟩
  conv => rhs; rw [← spell_tokens fragment, htokens]
  simp [spell_cons, spell_append, Token.source]

include hopen

include hlevel in
theorem isTitledWith_of_isPlainHeading (h : IsPlainHeading fragment t c (spell ts))
    (showNotes : Bool) :
    IsTitledWith (ofFragment fragment showNotes) fragment (spell ts) k := by
  obtain ⟨inside, hopening⟩ :=
    exists_isSpelledBy_of_mem_tokens (t := t) (s := fragment) (by simp [htokens])
  obtain ⟨hend, hattributes⟩ := isInTag_iff.1 hopening.isInTag
  obtain ⟨after, hshown⟩ :=
    (Fragment.isPrefix_shown_iff (isPrefix_heading htokens)).2 h.notes
  obtain ⟨d, hd⟩ := h.name_eq
  rw [elementName, hd] at hlevel
  have hdigit := headingDigit?_of_levelOfName? hlevel
  have hheading : t.source ++ spell ts ++ c.source =
      (⟨d, inside, spell ts, d⟩ : Heading).source := by
    simp [hopening.source_eq, h.closing_eq, Heading.source, hopen, hd, closed]
  refine (isTitledWith_iff_read? showNotes).2 ⟨⟨d, inside, spell ts, d⟩, after,
    Heading.read?_eq_some_iff.2 ⟨by rw [← hheading, hshown], ?_⟩, ?_, rfl⟩
  · simp [hdigit, hend, hattributes, cutAtClosing?_eq_none_iff.2 h.closesNone]
  · rw [headingDigit?_eq] at hdigit
    simpa [Heading.level] using (Option.ite_none_right_eq_some.1 hdigit).2

include hclose hname in
theorem isPlainHeading_of_isTitledWith {showNotes : Bool}
    (h : IsTitledWith (ofFragment fragment showNotes) fragment (spell ts) k) :
    IsPlainHeading fragment t c (spell ts) := by
  obtain ⟨h, after, hread, -, htitle⟩ := (isTitledWith_iff_read? showNotes).1 h
  obtain ⟨inside, hopening⟩ :=
    exists_isSpelledBy_of_mem_tokens (t := t) (s := fragment) (by simp [htokens])
  obtain ⟨inside', hclosing⟩ :=
    exists_isSpelledBy_of_mem_tokens (t := c) (s := fragment) (by simp [htokens])
  obtain ⟨hsource, hdigit, hend, hattributes, hdigit', hinner⟩ := Heading.read?_eq_some_iff.1 hread
  obtain ⟨hidden, hfragment⟩ := Fragment.shown_isPrefix fragment
  -- both readings of the fragment
  have hboth : ('<' :: (t.name ++ inside)) ++ '>' :: (spell ts ++ (c.source ++ spell rest)) =
      ("<h" ++ h.digit :: h.attributes) ++
        '>' :: (h.inner ++ '<' :: '/' :: 'h' :: h.closingDigit :: '>' :: (after ++ hidden)) := by
    calc _ = spell (tokens fragment) := by
          simp [htokens, spell_cons, spell_append, Token.source, hopening.source_eq, hopen]
      _ = _ := by
          rw [spell_tokens, ← hfragment, hsource]
          simp [Heading.source]
  have hopened : '>' ∉ '<' :: (t.name ++ inside) := by
    simpa using hopening.bracket_not_mem
  have hfound : '>' ∉ "<h" ++ h.digit :: h.attributes := by
    simp [bracket_ne_of_digit hdigit, hattributes]
  obtain ⟨htag, hbehind⟩ := (append_bracket_inj hopened hfound).1 hboth
  -- the name of the open tag is a letter and a digit
  have hread := headingTag?_opened hopening.isName hopening.isInTag
  rw [htag, headingTag?_eq_some_iff.2 ⟨rfl, hdigit, hend⟩] at hread
  obtain ⟨digit, htitled, heq⟩ := Option.map_eq_some_iff.1 hread.symm
  obtain ⟨rfl, rfl⟩ := Prod.mk.inj heq
  have hopenname := (titleDigit?_eq_some_iff.1 htitled).1
  -- the close tag is the one that ends the heading
  simp only [hclosing.source_eq, hclose, if_true, List.cons_append, List.nil_append] at hbehind
  obtain ⟨hinner', hrest⟩ := append_bracket_inj_of_trim_eq htitle.symm hbehind
  have hclosed : (c.name ++ inside') ++ '>' :: spell rest =
      ['h', h.closingDigit] ++ '>' :: (after ++ hidden) := by
    simpa using hrest
  obtain ⟨hcsplit, -⟩ := (append_bracket_inj hclosing.bracket_not_mem
    (by simp [bracket_ne_of_digit hdigit'])).1 hclosed
  rw [elementName, elementName, hopenname] at hname
  obtain ⟨hdigits, hclosename, rfl⟩ := eq_of_map_toLower hdigit hcsplit hname
  have hcsource : c.source = closed t.name := by
    simp [hclosing.source_eq, hclose, hclosename, hopenname, closed]
  have hprefix : t.source ++ spell ts ++ c.source <+: Fragment.shown fragment := by
    refine ⟨after, ?_⟩
    rw [hsource, hcsource]
    simp [hopening.source_eq, hopen, hopenname, hinner', Heading.source, closed, hdigits]
  exact ⟨⟨_, hopenname⟩, hcsource, cutAtClosing?_eq_none_iff.1 (hinner' ▸ hinner),
    (Fragment.isPrefix_shown_iff (isPrefix_heading htokens)).1 hprefix⟩

end Titles

/-- A fragment starts with the open tag of a heading, in letters of any case and with any attributes,
and the heading's close tag stands somewhere behind it. The slide has this heading's level, header and
title if and only if the heading is written plainly. -/
theorem isTitledWith_iff {fragment : Text} {t c : Tag} {ts rest : List Token} {k : Nat}
    (htokens : tokens fragment = .tag t :: (ts ++ .tag c :: rest)) (hopen : t.closing = false)
    (hlevel : levelOfName? (elementName t) = some k) (hclose : c.closing)
    (hname : elementName c = elementName t) (showNotes : Bool) :
    IsTitledWith (ofFragment fragment showNotes) fragment (spell ts) k ↔
      IsPlainHeading fragment t c (spell ts) :=
  ⟨isPlainHeading_of_isTitledWith htokens hopen hclose hname,
    fun h => isTitledWith_of_isPlainHeading htokens hopen hlevel h showNotes⟩

theorem isTitledWith_plainHeading :
    tokens "<h2 id=\"a\"> T</h2>" =
      .tag (openTag "h2" " id=\"a\"") :: ([.plain " T"] ++ .tag (closeTag "h2") :: []) ∧
    levelOfName? (elementName (openTag "h2" " id=\"a\"")) = some 2 ∧
    elementName (closeTag "h2") = elementName (openTag "h2" " id=\"a\"") ∧
    IsTitledWith (ofFragment "<h2 id=\"a\"> T</h2>" true) "<h2 id=\"a\"> T</h2>"
      (spell [.plain " T"]) 2 := by
  have htokens : tokens "<h2 id=\"a\"> T</h2>" =
      .tag (openTag "h2" " id=\"a\"") :: ([.plain " T"] ++ .tag (closeTag "h2") :: []) := by
    simpa [opened, closed] using
      @tokens_textElement "h2" " id=\"a\"" "T" ' ' (by cbv) (by cbv) (by simp)
  have hlevel : levelOfName? (elementName (openTag "h2" " id=\"a\"")) = some 2 := by cbv
  have hname : elementName (closeTag "h2") = elementName (openTag "h2" " id=\"a\"") := by cbv
  have hinner : cutAtClosing? (spell [.plain " T"]) = none := by cbv
  have hshown : Fragment.shown "<h2 id=\"a\"> T</h2>" = "<h2 id=\"a\"> T</h2>" := by cbv
  have hprefix : (openTag "h2" " id=\"a\"").source ++ spell [.plain " T"] ++ (closeTag "h2").source <+:
      Fragment.shown "<h2 id=\"a\"> T</h2>" := hshown ▸ ⟨[], by cbv⟩
  refine ⟨htokens, hlevel, hname, (isTitledWith_iff htokens (by simp) hlevel rfl hname true).2 ?_⟩
  exact ⟨⟨'2', by simp⟩, by simp, cutAtClosing?_eq_none_iff.1 hinner,
    (Fragment.isPrefix_shown_iff (isPrefix_heading htokens)).1 hprefix⟩

/-- A heading in capitals starts a slide and does not title it. -/
theorem not_isTitledWith_capitalHeading :
    Fragment.split "<H1>T</H1>" 1 = [("<H1>T</H1>" : Text)] ∧
    tokens "<H1>T</H1>" = .tag (openTag "H1" []) :: ([.plain "T"] ++ .tag (closeTag "H1") :: []) ∧
    opensSlide 1 (openTag "H1" []) [.plain "T", .tag (closeTag "H1")] ∧
    levelOfName? (elementName (openTag "H1" [])) = some 1 ∧
    elementName (closeTag "H1") = elementName (openTag "H1" []) ∧
    ¬IsTitledWith (ofFragment "<H1>T</H1>" true) "<H1>T</H1>" (spell [.plain "T"]) 1 := by
  have htokens : tokens "<H1>T</H1>" =
      .tag (openTag "H1" []) :: ([.plain "T"] ++ .tag (closeTag "H1") :: []) := by
    simpa [opened, closed] using
      @tokens_textElement "H1" [] [] 'T' (by cbv) (by cbv) (by simp)
  have hlevel : (ofFragment "<H1>T</H1>" true).level = none := by cbv
  refine ⟨?_, htokens, by cbv, by cbv, by cbv, fun h => ?_⟩
  · have hcut : cut 1 0 [] (tokens "<H1>T</H1>") = [("<H1>T</H1>" : Text)] := by
      rw [htokens]
      cbv
    have hvacant : isVacant "<H1>T</H1>" = false := by
      simpa [opened] using isVacant_opened (show isName "H1" by cbv) [] "T</H1>"
    have htrim : trim "<H1>T</H1>" = "<H1>T</H1>" := by cbv
    rw [Fragment.split, hcut, List.filter_singleton, hvacant, Bool.not_false, cond_true,
      List.map_singleton, htrim]
  · have htitled := h.level_eq
    rw [hlevel] at htitled
    simp at htitled

end Slide

end Slideshow
