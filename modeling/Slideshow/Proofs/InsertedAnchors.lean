import Slideshow.Proofs.CommentBodies

/-!
# Anchors in headings

An anchor is an element without content that links go to. In an anchored document one stands behind
the open tag of each heading. Its tags are read as tags and all other markup is read as before, for
an anchor ends no comment that the document does not end itself.
-/
namespace Slideshow.Markup
open Text Forest

/-! ## Anchors -/

/-- What may stand behind the name of an anchor: nothing that continues the name, that starts or ends
a tag, or that is part of the end of the tag or of a comment. -/
def isAnchorText (s : Text) : Bool :=
  s.head?.all isBlank && '<' ∉ s && '>' ∉ s && s.getLast?.all fun c => c ≠ '/' && c ≠ '-'

def anchor (attributes : Text) : Text := opened "a" attributes ++ closed "a"

/-- An anchor as it is read. -/
def anchorTokens (attributes : Text) : List Token :=
  [.tag (openTag "a" attributes), .tag (closeTag "a")]

@[simp] theorem spell_anchorTokens (attributes : Text) :
    spell (anchorTokens attributes) = anchor attributes := by
  simp [anchorTokens, anchor, Token.source]

section Anchor
variable {attributes : Text}

theorem isAnchorText_iff : isAnchorText attributes ↔ attributes.head?.all isBlank ∧
    '<' ∉ attributes ∧ '>' ∉ attributes ∧
      attributes.getLast?.all fun c => c ≠ '/' && c ≠ '-' := by
  simp [isAnchorText, and_assoc]

theorem isInTag_of_isAnchorText (ha : isAnchorText attributes) : isInTag attributes := by
  obtain ⟨hfront, -, hclose, -⟩ := isAnchorText_iff.1 ha
  refine isInTag_iff.2 ⟨?_, hclose⟩
  cases attributes with
  | nil => rfl
  | cons c s =>
    cases hword : isWord c with
    | false => simpa using hword
    | true => simp [isBlank_of_isWord hword] at hfront

/-- An anchor up to each of its two brackets. -/
theorem anchor_append (attributes s : Text) : anchor attributes ++ s =
    '<' :: 'a' :: attributes ++ '>' :: (['<', '/', 'a'] ++ '>' :: s) := by
  simp [anchor, opened, closed]

theorem isReadBack_anchorTokens (ha : isAnchorText attributes) {ts : List Token}
    (h : IsReadBack ts) : IsReadBack (anchorTokens attributes ++ ts) := by
  have hname : isName "a" := by cbv
  have hclosed : Token.ofMarkup? (closed "a" ++ spell ts) = some (.tag (closeTag "a"), spell ts) := by
    have hread := read?_closed hname (spell ts)
    have hno : comment? (closed "a" ++ spell ts) = none := by
      rw [closed_eq]
      exact comment?_cons_of_ne (by decide) _
    rw [Token.ofMarkup?, hno, hread]
    rfl
  have hopened : ∀ u, Token.ofMarkup? (opened "a" attributes ++ u) =
      some (.tag (openTag "a" attributes), u) := fun u => by
    have hread := read?_opened hname (isInTag_of_isAnchorText ha) u
    rw [Token.ofMarkup?, comment?_opened hname, hread]
    rfl
  refine .markup ?_ (.markup ?_ h)
  · rw [Token.source, openTag_source]
    exact hopened _
  · rw [Token.source, closeTag_source]
    exact hclosed

theorem trimRight_anchor (attributes s : Text) :
    trimRight (anchor attributes ++ s) = anchor attributes ++ trimRight s := by
  rw [anchor_append, anchor_append, trimRight_bracket, trimRight_bracket]

theorem trimLeft_anchor (attributes s : Text) :
    trimLeft (anchor attributes ++ s) = anchor attributes ++ s := by
  rw [anchor_append]
  simp [trimLeft, isBlank_bracket]

/-- A bracket ends a comment only with two hyphens in front of it. -/
private theorem occursIn_bracket {x : Text} (hx : '>' ∉ x) (hend : x.getLast?.all (· ≠ '-'))
    (s : Text) : occursIn "-->" (x ++ '>' :: s) = occursIn "-->" s := by
  have hskip : ∀ {c : Char} {u : Text}, dropAffix? "-->" (c :: u) = none →
      occursIn "-->" (c :: u) = occursIn "-->" u := fun h => by
    simp only [occursIn, cutAt?, h, Option.isSome_map]
  induction x with
  | nil => exact hskip (by simp [dropAffix?])
  | cons c x ih =>
    rw [List.mem_cons, not_or] at hx
    have hrest : x.getLast?.all (· ≠ '-') := by
      cases x with
      | nil => rfl
      | cons d x => simpa using hend
    rw [List.cons_append, ← ih hx.2 hrest]
    refine hskip ?_
    rcases x with _ | ⟨d, _ | ⟨e, x⟩⟩
    · have hc : '-' ≠ c := by
        rintro rfl
        simp at hend
      simp [dropAffix?, hc]
    · have hd : '-' ≠ d := by
        rintro rfl
        simp at hend
      simp [dropAffix?, hd]
    · have he : '>' ≠ e := by
        rintro rfl
        simp at hx
      simp [dropAffix?, he]

/-- An anchor holds no end of a comment. -/
theorem occursIn_anchor (ha : isAnchorText attributes) (s : Text) :
    occursIn "-->" (anchor attributes ++ s) = occursIn "-->" s := by
  obtain ⟨-, -, hclose, hend⟩ := isAnchorText_iff.1 ha
  have hopen : ('<' :: 'a' :: attributes).getLast?.all (· ≠ '-') := by
    cases attributes with
    | nil => decide
    | cons c u =>
      rw [List.getLast?_cons_cons, List.getLast?_cons_cons]
      cases hlast : (c :: u).getLast? with
      | none => rfl
      | some d =>
        simp only [hlast, Option.all_some, Bool.and_eq_true, decide_eq_true_eq] at hend
        simpa using hend.2
  rw [anchor_append, occursIn_bracket (by simp [hclose]) hopen,
    occursIn_bracket (by decide) (by decide)]

end Anchor

/-! ## Anchored documents -/

/-- The open tag of a heading: the name is an h in any case and a digit from one to six. -/
def isHeadingTag : Token → Bool
  | .tag ⟨false, [c, d], _, _⟩ => isCaseOf 'h' c && (headingDigit? d).isSome
  | _ => false

theorem isHeadingTag_anchorTokens (attributes : Text) :
    ∀ t ∈ anchorTokens attributes, isHeadingTag t = false := by
  have hopen : isHeadingTag (.tag (openTag "a" attributes)) = false := by
    unfold openTag
    split <;> simp [isHeadingTag]
  simpa [anchorTokens, closeTag, isHeadingTag] using hopen

/-- The same tokens with an anchor behind the open tag of each heading. -/
inductive AnchoredTokens : List Token → List Token → Prop
  | nil : AnchoredTokens [] []
  | heading {t : Token} {attributes : Text} {ts us : List Token} (ht : isHeadingTag t)
    (ha : isAnchorText attributes) (h : AnchoredTokens ts us) :
    AnchoredTokens (t :: ts) (t :: (anchorTokens attributes ++ us))
  | other {t : Token} {ts us : List Token} (ht : isHeadingTag t = false)
    (h : AnchoredTokens ts us) : AnchoredTokens (t :: ts) (t :: us)

/-- A document and the same document with an anchor directly behind the open tag of each heading. -/
def Anchored (html other : Text) : Prop := ∃ us, AnchoredTokens (tokens html) us ∧ spell us = other

/-- Up to its bracket the open tag of a heading is a bracket, a letter, and what follows it. -/
theorem exists_of_isHeadingTag {t : Token} {ts : List Token} (hread : IsReadBack (t :: ts))
    (ht : isHeadingTag t) : ∃ c u, t.source = '<' :: c :: u ++ ['>'] ∧ '>' ∉ '<' :: c :: u ∧
      c.isAlpha ∧ startsHeading ('<' :: c :: u) := by
  cases t with
  | comment body => simp [isHeadingTag] at ht
  | plain s => simp [isHeadingTag] at ht
  | tag tag =>
    obtain ⟨s, rest, htag⟩ := hread.exists_read?
    obtain ⟨c, u, hsource, hclose, halpha⟩ := Tag.source_of_read? htag
    rcases tag with ⟨closing, name, attributes, slash⟩
    unfold isHeadingTag at ht
    split at ht
    · next a b _ _ heq =>
      obtain ⟨rfl, rfl, rfl, rfl⟩ := Tag.mk.inj (Token.tag.inj heq)
      obtain ⟨rfl, v, rfl⟩ : a = c ∧ ∃ v, u = b :: v := by
        have hfront : a :: b :: attributes ++ (if slash then ['/'] else []) ++ ['>'] =
            c :: (u ++ ['>']) := by simpa [Tag.source] using hsource
        cases u with
        | nil => simp at hfront
        | cons e u =>
          obtain ⟨rfl, rfl, -⟩ : a = c ∧ b = e ∧ _ := by simpa using hfront
          exact ⟨rfl, u, rfl⟩
      simp only [Bool.and_eq_true] at ht
      refine ⟨a, b :: v, hsource, by simpa using hclose, halpha rfl, ?_⟩
      simp [startsHeading, dropWord?, show isCaseOf '<' '<' by decide, ht.1, ht.2]
    · simp at ht

namespace AnchoredTokens
variable {ts us vs ws : List Token}

theorem append (h : AnchoredTokens ts us) (hmore : AnchoredTokens vs ws) :
    AnchoredTokens (ts ++ vs) (us ++ ws) := by
  induction h with
  | nil => exact hmore
  | heading ht ha _ ih =>
    rw [List.cons_append, List.cons_append, List.append_assoc]
    exact .heading ht ha ih
  | other ht _ ih => exact .other ht ih

theorem eq_or_mem (hread : IsReadBack ts) (h : AnchoredTokens ts us) :
    spell ts = spell us ∨ '>' ∈ spell ts := by
  induction h with
  | nil => exact .inl rfl
  | heading ht ha _ _ =>
    obtain ⟨c, u, hsource, -⟩ := exists_of_isHeadingTag hread ht
    exact .inr (by simp [hsource])
  | other ht _ ih =>
    rcases ih hread.tail with heq | hm
    · exact .inl (by rw [spell_cons, spell_cons, heq])
    · exact .inr (List.mem_append_right _ hm)

/-- The letters in front of the next bracket. -/
theorem exists_bracket (hread : IsReadBack ts) (h : AnchoredTokens ts us) :
    ∃ w vs ws, spell ts = w ++ spell vs ∧ spell us = w ++ spell ws ∧ IsReadBack vs ∧
      AnchoredTokens vs ws ∧ (spell vs).head?.all (· = '<') ∧ (spell ws).head?.all (· = '<') := by
  induction h with
  | nil => exact ⟨[], [], [], rfl, rfl, .nil, .nil, rfl, rfl⟩
  | @heading t attributes ts us ht ha h _ =>
    obtain ⟨c, u, hsource, -⟩ := exists_of_isHeadingTag hread ht
    exact ⟨[], _, _, rfl, rfl, hread, .heading ht ha h, by simp [hsource], by simp [hsource]⟩
  | @other t ts us ht h ih =>
    cases hread with
    | markup hmarkup hread =>
      obtain ⟨inner, hinner⟩ := Token.source_of_markup? hmarkup
      exact ⟨[], _, _, rfl, rfl, .markup hmarkup hread, .other ht h, by simp [hinner],
        by simp [hinner]⟩
    | @letter c _ hletter hread =>
      by_cases hc : c = '<'
      · exact ⟨[], _, _, rfl, rfl, .letter hletter hread, .other ht h, by simp [hc, Token.source],
          by simp [hc, Token.source]⟩
      · obtain ⟨w, vs, ws, hs, hu, hmore⟩ := ih hread
        exact ⟨c :: w, vs, ws, by simp [hs, Token.source], by simp [hu, Token.source], hmore⟩

end AnchoredTokens

/-! ## Texts with anchors -/

/-- Two texts of the same letters, but for anchors in the second one. If that is not strict, there may
be white space around an anchor that the first text does not have. -/
inductive SameButAnchors (strict : Prop) : Text → Text → Prop
  | nil : SameButAnchors strict [] []
  | letter (c : Char) {s t : Text} (h : SameButAnchors strict s t) :
    SameButAnchors strict (c :: s) (c :: t)
  | anchor {attributes v w s t : Text} (ha : isAnchorText attributes) (hv : isAllBlank v)
    (hw : isAllBlank w) (hnone : strict → v = [] ∧ w = []) (h : SameButAnchors strict s t) :
    SameButAnchors strict s (v ++ (anchor attributes ++ (w ++ t)))

namespace SameButAnchors
variable {strict : Prop} {s t : Text}

theorem append (u : Text) (h : SameButAnchors strict s t) :
    SameButAnchors strict (u ++ s) (u ++ t) := by
  induction u with
  | nil => exact h
  | cons c u ih => exact .letter c ih

theorem refl (s : Text) : SameButAnchors strict s s := by
  have h : SameButAnchors strict (s ++ []) (s ++ []) := append s .nil
  rwa [List.append_nil] at h

theorem append₂ {u v : Text} (h : SameButAnchors strict s t) (huv : SameButAnchors strict u v) :
    SameButAnchors strict (s ++ u) (t ++ v) := by
  induction h with
  | nil => exact huv
  | letter c _ ih => exact .letter c ih
  | anchor ha hv hw hnone _ ih =>
    simp only [List.append_assoc]
    exact .anchor ha hv hw hnone ih

/-- An anchor with no white space around it. -/
theorem insert {attributes : Text} (ha : isAnchorText attributes) (h : SameButAnchors strict s t) :
    SameButAnchors strict s (Markup.anchor attributes ++ t) :=
  anchor (v := []) (w := []) ha rfl rfl (fun _ => ⟨rfl, rfl⟩) h

/-- Letters in front that open no tag stand in front of both texts. -/
private theorem exists_of_append {w : Text} (hw : '<' ∉ w) (h : SameButAnchors True s (w ++ t)) :
    ∃ r, s = w ++ r := by
  induction w generalizing s with
  | nil => exact ⟨s, rfl⟩
  | cons c w ih =>
    simp only [List.mem_cons, not_or] at hw
    rw [List.cons_append] at h
    generalize ht : c :: (w ++ t) = x at h
    cases h with
    | nil => simp at ht
    | letter d h =>
      obtain ⟨rfl, rfl⟩ := List.cons.inj ht
      obtain ⟨r, rfl⟩ := ih hw.2 h
      exact ⟨r, rfl⟩
    | anchor _ _ _ hnone _ =>
      obtain ⟨rfl, rfl⟩ := hnone trivial
      rw [List.nil_append, anchor_append] at ht
      simp [Ne.symm hw.1] at ht

/-- Anchors put no end of a comment into a text. -/
theorem occursIn (h : SameButAnchors True s t) (ht : occursIn "-->" t) : occursIn "-->" s := by
  induction h with
  | nil => exact ht
  | @letter c s t h ih =>
    obtain ⟨before, after, hafter⟩ := occursIn_iff.1 ht
    cases before with
    | nil =>
      obtain ⟨rfl, rfl⟩ : c = '-' ∧ t = ['-', '>'] ++ after := by simpa using hafter
      obtain ⟨r, rfl⟩ := h.exists_of_append (by decide)
      exact occursIn_iff.2 ⟨[], r, by simp⟩
    | cons d before =>
      obtain ⟨-, rfl⟩ : c = d ∧ t = before ++ "-->" ++ after := by simpa using hafter
      exact occursIn_mono (List.suffix_cons c s).isInfix (ih (occursIn_iff.2 ⟨before, after, rfl⟩))
  | anchor ha _ _ hnone _ ih =>
    obtain ⟨rfl, rfl⟩ := hnone trivial
    rw [List.nil_append, List.nil_append, occursIn_anchor ha] at ht
    exact ih ht

end SameButAnchors

namespace AnchoredTokens
variable {ts us : List Token}

theorem sameButAnchors {strict : Prop} (h : AnchoredTokens ts us) :
    SameButAnchors strict (spell ts) (spell us) := by
  induction h with
  | nil => exact .nil
  | @heading t _ _ _ _ ha _ ih =>
    rw [spell_cons, spell_cons, spell_append, spell_anchorTokens]
    exact (ih.insert ha).append t.source
  | @other t _ _ _ _ ih => exact ih.append t.source

/-- What opens no markup opens none in front of anchored headings. -/
private theorem ofMarkup?_eq_none {c : Char} (hread : IsReadBack ts) (h : AnchoredTokens ts us)
    (hc : Token.ofMarkup? (c :: spell ts) = none) : Token.ofMarkup? (c :: spell us) = none := by
  obtain ⟨w, vs, ws, hs, hu, hread', h', hx, hy⟩ := h.exists_bracket hread
  rw [hs] at hc
  rw [hu]
  exact Token.ofMarkup?_replace_behind hx hy (h'.eq_or_mem hread')
    h'.sameButAnchors.occursIn hc

theorem isReadBack (hread : IsReadBack ts) (h : AnchoredTokens ts us) : IsReadBack us := by
  induction h with
  | nil => exact .nil
  | @heading t attributes ts us ht ha h ih =>
    have hrest := isReadBack_anchorTokens ha (ih hread.tail)
    cases hread with
    | markup hmarkup _ => exact .markup (Token.ofMarkup?_source_append hmarkup _) hrest
    | letter _ _ => simp [isHeadingTag] at ht
  | other ht h ih =>
    cases hread with
    | markup hmarkup hread => exact .markup (Token.ofMarkup?_source_append hmarkup _) (ih hread)
    | letter hletter hread => exact .letter (h.ofMarkup?_eq_none hread hletter) (ih hread)

end AnchoredTokens

/-! ## Letter by letter -/

/-- Plain text taken apart into its letters. -/
def inLetters (ts : List Token) : List Token :=
  ts.flatMap fun
    | .plain s => letters s
    | t => [t]

@[simp] theorem inLetters_append (ts us : List Token) :
    inLetters (ts ++ us) = inLetters ts ++ inLetters us :=
  List.flatMap_append

@[simp] theorem spell_inLetters (ts : List Token) : spell (inLetters ts) = spell ts := by
  have hsource : ∀ t, spell (inLetters [t]) = t.source := fun t => by
    cases t <;> simp [inLetters, Token.source]
  induction ts with
  | nil => rfl
  | cons t ts ih =>
    rw [← List.singleton_append, inLetters_append, spell_append, spell_append, hsource, ih]
    simp

/-- The tokens of a text that is read back are the same, letter by letter. -/
theorem IsReadBack.inLetters_tokens {ts : List Token} (h : IsReadBack ts) :
    inLetters (tokens (spell ts)) = ts := by
  induction h with
  | nil => simp [tokens, inLetters]
  | @markup t ts hread h ih =>
    rw [spell_cons, tokens_markup hread]
    cases t with
    | plain s =>
      obtain ⟨c, rfl, hno⟩ := (IsReadBack.markup hread h).eq_singleton_of_plain
      simp [Token.source, hno] at hread
    | comment body => exact congrArg (Token.comment body :: ·) ih
    | tag tag => exact congrArg (Token.tag tag :: ·) ih
  | @letter c ts hread h ih =>
    have hrun : ∀ s : Text, letters (s.takeWhile (· ≠ '<')) ++
        inLetters (tokens (s.dropWhile (· ≠ '<'))) = inLetters (tokens s) := by
      intro s
      cases s with
      | nil => rfl
      | cons d s =>
        by_cases hd : d = '<'
        · subst hd
          rfl
        · rw [tokens_plain hd, List.takeWhile_cons_of_pos (by simpa using hd),
            List.dropWhile_cons_of_pos (by simpa using hd)]
          rfl
    rw [spell_cons, Token.source, List.singleton_append, tokens_of_ofMarkup?_eq_none hread]
    exact congrArg (Token.plain [c] :: ·) ((hrun (spell ts)).trans ih)

theorem anchoredTokens_letters_iff {s : Text} {ts us : List Token} :
    AnchoredTokens (letters s ++ ts) us ↔ ∃ vs, us = letters s ++ vs ∧ AnchoredTokens ts vs := by
  induction s generalizing us with
  | nil => simp [letters]
  | cons c s ih =>
    constructor
    · intro h
      cases h with
      | heading ht _ _ => simp [isHeadingTag] at ht
      | other _ h =>
        obtain ⟨vs, rfl, hvs⟩ := ih.1 h
        exact ⟨vs, rfl, hvs⟩
    · rintro ⟨vs, rfl, hvs⟩
      exact .other rfl (ih.2 ⟨vs, rfl, hvs⟩)

namespace AnchoredTokens
variable {ts us : List Token}

theorem exists_inLetters (h : AnchoredTokens ts us) :
    ∃ vs, AnchoredTokens (inLetters ts) vs ∧ spell vs = spell us := by
  induction h with
  | nil => exact ⟨[], .nil, rfl⟩
  | @heading t attributes ts us ht ha _ ih =>
    obtain ⟨vs, hvs, hspell⟩ := ih
    cases t with
    | comment body => simp [isHeadingTag] at ht
    | plain s => simp [isHeadingTag] at ht
    | tag tag => exact ⟨_, .heading ht ha hvs, by simp [hspell]⟩
  | @other t ts us ht _ ih =>
    obtain ⟨vs, hvs, hspell⟩ := ih
    cases t with
    | comment body => exact ⟨_, .other ht hvs, by simp [hspell]⟩
    | plain s =>
      exact ⟨_, anchoredTokens_letters_iff.2 ⟨vs, rfl, hvs⟩, by simp [hspell, Token.source]⟩
    | tag tag => exact ⟨_, .other ht hvs, by simp [hspell]⟩

theorem exists_of_inLetters {vs : List Token} (h : AnchoredTokens (inLetters ts) vs) :
    ∃ us, AnchoredTokens ts us ∧ spell us = spell vs := by
  induction ts generalizing vs with
  | nil =>
    cases h
    exact ⟨[], .nil, rfl⟩
  | cons t ts ih =>
    cases t with
    | plain s =>
      obtain ⟨ws, rfl, hws⟩ := anchoredTokens_letters_iff.1 h
      obtain ⟨us, hus, hspell⟩ := ih hws
      exact ⟨.plain s :: us, .other rfl hus, by simp [hspell, Token.source]⟩
    | comment body =>
      cases h with
      | heading ht _ _ => simp [isHeadingTag] at ht
      | other ht h =>
        obtain ⟨us, hus, hspell⟩ := ih h
        exact ⟨_, .other ht hus, by simp [hspell]⟩
    | tag tag =>
      cases h with
      | heading ht ha h =>
        obtain ⟨us, hus, hspell⟩ := ih h
        exact ⟨_, .heading ht ha hus, by simp [hspell]⟩
      | other ht h =>
        obtain ⟨us, hus, hspell⟩ := ih h
        exact ⟨_, .other ht hus, by simp [hspell]⟩

end AnchoredTokens

/-- Anchored documents by the tokens that are read back. -/
theorem anchored_spell_iff {ts : List Token} (h : IsReadBack ts) {other : Text} :
    Anchored (spell ts) other ↔ ∃ us, AnchoredTokens ts us ∧ spell us = other := by
  have hletters := h.inLetters_tokens
  constructor
  · rintro ⟨us, hus, rfl⟩
    obtain ⟨vs, hvs, hspell⟩ := hus.exists_inLetters
    rw [hletters] at hvs
    exact ⟨vs, hvs, hspell⟩
  · rintro ⟨vs, hvs, rfl⟩
    rw [← hletters] at hvs
    exact hvs.exists_of_inLetters

end Slideshow.Markup
