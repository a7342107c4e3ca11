import Slideshow.Proofs.Forest

/-!
# Markup that is read back

Tokens are read back from a text if each piece of markup and each character that opens none is read
at its own place. What markup is read as does not depend on the text behind it. A bracket that
opens none may come to open some when that text changes; it does not if the new text starts apart
and ends no comment that the old one did not end.
-/
namespace Slideshow.Markup
open Text Forest

/-! ## Markup and the text behind it -/

/-- A tag that was read consists of a name and of what stands inside it. -/
theorem eq_append_of_readNamed? {closing : Bool} {s rest : Text} {t : Tag}
    (h : Tag.readNamed? closing s = some (t, rest)) :
    ∃ name inside, isName name ∧ isInTag inside ∧ s = name ++ (inside ++ '>' :: rest) := by
  simp only [Tag.readNamed?] at h
  split at h
  · simp at h
  next hn =>
  simp only [Bool.or_eq_true, Bool.not_eq_true', not_or, Bool.not_eq_false, Bool.not_eq_true] at hn
  simp only [Option.bind_eq_bind, Option.bind_eq_some_iff, dropAffix?_eq_some_iff] at h
  obtain ⟨r, hr, h⟩ := h
  have hrest : r = rest := by split at h <;> simp_all
  have hname := List.takeWhile_append_dropWhile (l := s) (p := Char.isAlphanum)
  have hinside := List.takeWhile_append_dropWhile (l := s.dropWhile Char.isAlphanum)
    (p := fun c => decide (c ≠ '>'))
  have hbracket : (">" : Text) ++ r = '>' :: rest := by simp [hrest]
  rw [hr, hbracket] at hinside
  refine ⟨s.takeWhile Char.isAlphanum,
    (s.dropWhile Char.isAlphanum).takeWhile fun c => decide (c ≠ '>'), ?_, ?_, ?_⟩
  · simp only [isName, hn.1, Bool.true_and]
    exact List.all_takeWhile
  · refine isInTag_iff.2 ⟨?_, fun hm => ?_⟩
    · cases hd : s.dropWhile Char.isAlphanum with
      | nil => rfl
      | cons c u =>
        have hc : isWord c = false := by simpa [hd] using hn.2
        by_cases hb : c = '>' <;> simp [hb, hc]
    · simpa using List.all_eq_true.1 List.all_takeWhile '>' hm
  · rw [hinside, hname]

/-- A tag is read as the same tag, whatever stands behind it. -/
theorem Tag.read?_source_append {s rest : Text} {t : Tag} (h : Tag.read? s = some (t, rest))
    (u : Text) : Tag.read? (t.source ++ u) = some (t, u) := by
  have hsource := Tag.eq_source_append_of_read? h
  have key : ∀ {closing : Bool} {v : Text}, Tag.readNamed? closing v = some (t, rest) →
      ∃ c w, c ≠ '/' ∧ v = c :: w ++ rest ∧
        Tag.readNamed? closing (c :: w ++ u) = some (t, u) := by
    intro closing v hv
    obtain ⟨name, inside, hn, hi, rfl⟩ := eq_append_of_readNamed? hv
    obtain ⟨c, w, rfl, hc, -⟩ := isName_iff.1 hn
    refine ⟨c, w ++ (inside ++ ['>']), ?_, by simp, ?_⟩
    · rintro rfl
      simp at hc
    · rw [readNamed?_eq hn hi] at hv
      have happ : c :: (w ++ (inside ++ ['>'])) ++ u = c :: w ++ (inside ++ '>' :: u) := by simp
      rw [happ, readNamed?_eq hn hi]
      split at hv <;> simp_all
  simp only [Tag.read?, Option.bind_eq_bind, Option.bind_eq_some_iff, dropAffix?_eq_some_iff] at h
  obtain ⟨v, rfl, h⟩ := h
  split at h
  · next v' hv' =>
    rw [dropAffix?_eq_some_iff] at hv'
    subst hv'
    obtain ⟨c, w, -, rfl, hw⟩ := key h
    have ht : t.source = ("<" : Text) ++ (("/" : Text) ++ (c :: w)) :=
      (List.append_cancel_right (by simpa using hsource)).symm
    simp only [Tag.read?, ht, List.append_assoc, dropAffix?_append, Option.bind_eq_bind,
      Option.bind_some, hw]
  · obtain ⟨c, w, hc, rfl, hw⟩ := key h
    have ht : t.source = ("<" : Text) ++ (c :: w) :=
      (List.append_cancel_right (by simpa using hsource)).symm
    have hopen : dropAffix? "/" (c :: w ++ u) = none := by
      simp [dropAffix?, hc.symm]
    simp only [Tag.read?, ht, List.append_assoc, dropAffix?_append, Option.bind_eq_bind,
      Option.bind_some, hopen, hw]

/-- The text before the first place of a pattern does not hold it. -/
theorem occursIn_of_cutAt? {pattern s before after : Text} (hp : pattern ≠ [])
    (h : cutAt? pattern s = some (before, after)) : occursIn pattern before = false := by
  have hnil : occursIn pattern [] = false := by simp [occursIn, cutAt?, hp]
  induction s generalizing before with
  | nil => simp [cutAt?, hp] at h
  | cons c s ih =>
    simp only [cutAt?] at h
    split at h
    · simp only [Option.some.injEq, Prod.mk.injEq] at h
      rw [← h.1, hnil]
    · next hdrop =>
      obtain ⟨⟨b, a⟩, hcut, hq⟩ := Option.map_eq_some_iff.1 h
      simp only [Prod.mk.injEq] at hq
      obtain ⟨rfl, rfl⟩ := hq
      have hnone : dropAffix? pattern (c :: b) = none := by
        rw [Option.eq_none_iff_forall_ne_some] at hdrop ⊢
        intro rest hrest
        rw [dropAffix?_eq_some_iff] at hrest
        refine hdrop (rest ++ pattern ++ a) ?_
        rw [dropAffix?_eq_some_iff, eq_append_of_cutAt? hcut, ← List.cons_append,
          ← List.cons_append, hrest]
        simp
      have hb := ih hcut
      simp only [occursIn] at hb ⊢
      simpa [cutAt?, hnone] using hb

theorem occursIn_of_comment? {s body rest : Text} (h : comment? s = some (body, rest)) :
    occursIn "-->" body = false := by
  simp only [comment?, Option.bind_eq_bind, Option.bind_eq_some_iff] at h
  obtain ⟨v, -, hcut⟩ := h
  exact occursIn_of_cutAt? (by simp) hcut

/-- A comment is read as the same comment, whatever stands behind it. -/
private theorem comment?_source_append {s body rest : Text} (h : comment? s = some (body, rest))
    (u : Text) : comment? ((Token.comment body).source ++ u) = some (body, u) :=
  comment?_commented (occursIn_of_comment? h) u

private theorem comment?_of_read? {s rest : Text} {t : Tag} (h : Tag.read? s = some (t, rest)) :
    comment? s = none := by
  cases hc : comment? s with
  | none => rfl
  | some p =>
    have hs := eq_source_append_of_comment? hc
    have hno : Tag.read? s = none := by
      simp [hs, Token.source, Tag.read?, Tag.readNamed?, dropAffix?]
    simp [hno] at h

/-- Markup is read as the same markup, whatever stands behind it. -/
theorem Token.ofMarkup?_source_append {s rest : Text} {t : Token}
    (h : Token.ofMarkup? s = some (t, rest)) (u : Text) :
    Token.ofMarkup? (t.source ++ u) = some (t, u) := by
  simp only [ofMarkup?, Option.orElse_eq_orElse, Option.orElse_eq_or, Option.or_eq_some_iff,
    Option.map_eq_some_iff, Prod.mk.injEq] at h
  rcases h with ⟨⟨body, r⟩, hp, rfl, rfl⟩ | ⟨-, ⟨tag, r⟩, hp, rfl, rfl⟩
  · rw [ofMarkup?, comment?_source_append hp u]
    rfl
  · have hread := Tag.read?_source_append hp u
    have hcomment := comment?_of_read? hread
    simp [ofMarkup?, source, hcomment, hread]

/-- A text that opens no markup opens none when it is cut short. -/
theorem Token.ofMarkup?_eq_none_of_append {s u : Text} (h : Token.ofMarkup? (s ++ u) = none) :
    Token.ofMarkup? s = none := by
  cases hs : Token.ofMarkup? s with
  | none => rfl
  | some p =>
    obtain ⟨t, rest⟩ := p
    have hmore := Token.ofMarkup?_source_append hs (rest ++ u)
    rw [← List.append_assoc, ← Token.eq_source_append_of_markup? hs, h] at hmore
    simp at hmore

/-- A tag ends at its first closing bracket, and an open tag starts with its name. -/
theorem Tag.source_of_read? {s rest : Text} {t : Tag} (h : Tag.read? s = some (t, rest)) :
    ∃ c u, t.source = '<' :: c :: (u ++ ['>']) ∧ '>' ∉ c :: u ∧ (t.closing = false → c.isAlpha) := by
  have hsource := Tag.eq_source_append_of_read? h
  have hclosing : ∀ {closing v}, Tag.readNamed? closing v = some (t, rest) → t.closing = closing := by
    intro closing v hv
    obtain ⟨name, inside, hn, hi, rfl⟩ := eq_append_of_readNamed? hv
    rw [readNamed?_eq hn hi] at hv
    have htag := congrArg (Option.map fun p => p.1.closing) hv
    split at htag <;> simpa using htag.symm
  have hnone : ∀ {name inside : Text}, isName name → isInTag inside → '>' ∉ name ++ inside := by
    intro name inside hn hi hm
    rcases List.mem_append.1 hm with hm | hm
    · obtain ⟨-, -, -, -, hall⟩ := isName_iff.1 hn
      simpa using hall '>' hm
    · exact (isInTag_iff.1 hi).2 hm
  simp only [Tag.read?, Option.bind_eq_bind, Option.bind_eq_some_iff, dropAffix?_eq_some_iff] at h
  obtain ⟨v, rfl, h⟩ := h
  split at h
  · next v' hv' =>
    rw [dropAffix?_eq_some_iff] at hv'
    obtain ⟨name, inside, hn, hi, rfl⟩ := eq_append_of_readNamed? h
    refine ⟨'/', name ++ inside, ?_, by simpa using hnone hn hi, ?_⟩
    · have ht : '<' :: '/' :: (name ++ inside ++ ['>']) ++ rest = t.source ++ rest := by
        rw [← hsource, hv']
        simp
      exact (List.append_cancel_right ht).symm
    · simp [hclosing h]
  · obtain ⟨name, inside, hn, hi, rfl⟩ := eq_append_of_readNamed? h
    have hinner := hnone hn hi
    obtain ⟨c, u, rfl, hc, -⟩ := isName_iff.1 hn
    refine ⟨c, u ++ inside, ?_, by simpa using hinner, fun _ => hc⟩
    have ht : '<' :: c :: (u ++ inside ++ ['>']) ++ rest = t.source ++ rest := by
      rw [← hsource]
      simp
    exact (List.append_cancel_right ht).symm

/-- Markup stands between angle brackets. -/
theorem Token.source_of_markup? {s rest : Text} {t : Token}
    (h : Token.ofMarkup? s = some (t, rest)) : ∃ inner, t.source = '<' :: (inner ++ ['>']) := by
  simp only [ofMarkup?, Option.orElse_eq_orElse, Option.orElse_eq_or, Option.or_eq_some_iff,
    Option.map_eq_some_iff, Prod.mk.injEq] at h
  rcases h with ⟨⟨body, r⟩, -, rfl, rfl⟩ | ⟨-, ⟨t, r⟩, hp, rfl, rfl⟩
  · exact ⟨"!--" ++ (body ++ "--"), by simp [source]⟩
  · obtain ⟨c, u, ht, -⟩ := Tag.source_of_read? hp
    exact ⟨c :: u, ht⟩

/-! ## Another text behind a bracket -/

/-- The name of a tag stands at the front, up to its end. -/
def startsTag (s : Text) : Bool :=
  let s := (dropAffix? "/" s).getD s
  s.head?.any Char.isAlpha && !(s.dropWhile Char.isAlphanum).head?.any isWord

/-- Nothing, or white space or a bracket: what continues neither a name nor the start or the end of
a comment. -/
def StandsApart (s : Text) : Prop := s.head?.all fun c => isBlank c || c = '<'

private theorem isSome_closing (s : Text) :
    (dropAffix? ">" (s.dropWhile (· ≠ '>'))).isSome = decide ('>' ∈ s) := by
  induction s with
  | nil => simp [dropAffix?]
  | cons c s ih =>
    by_cases hc : c = '>'
    · simp [hc, dropAffix?]
    · simpa [hc, Ne.symm hc] using ih

private theorem isSome_readNamed? (closing : Bool) (s : Text) :
    (Tag.readNamed? closing s).isSome =
      (s.head?.any Char.isAlpha && !(s.dropWhile Char.isAlphanum).head?.any isWord && '>' ∈ s) := by
  have hhead : (s.takeWhile Char.isAlphanum).head?.any Char.isAlpha = s.head?.any Char.isAlpha := by
    cases s with
    | nil => rfl
    | cons c s => by_cases h : c.isAlphanum <;> simp_all [Char.isAlphanum]
  have hmem : '>' ∈ s.dropWhile Char.isAlphanum ↔ '>' ∈ s := by
    conv => rhs; rw [← List.takeWhile_append_dropWhile (l := s) (p := Char.isAlphanum)]
    rw [List.mem_append]
    refine ⟨.inr, fun h => h.resolve_left fun hm => ?_⟩
    simpa using List.all_eq_true.1 List.all_takeWhile '>' hm
  have hclose := isSome_closing (s.dropWhile Char.isAlphanum)
  rw [decide_eq_decide.2 hmem] at hclose
  simp only [Tag.readNamed?, hhead]
  split
  · next h =>
    simp only [Bool.or_eq_true, Bool.not_eq_true'] at h
    rcases h with h | h <;> simp [h]
  · next h =>
    simp only [Bool.or_eq_true, Bool.not_eq_true', not_or, Bool.not_eq_false,
      Bool.not_eq_true] at h
    rw [h.1, h.2, ← hclose]
    cases dropAffix? ">" ((s.dropWhile Char.isAlphanum).dropWhile (· ≠ '>')) with
    | none => rfl
    | some rest => split <;> simp_all

theorem isSome_read? (s : Text) : (Tag.read? ('<' :: s)).isSome = (startsTag s && '>' ∈ s) := by
  have hbracket : dropAffix? "<" ('<' :: s) = some s := by simp [dropAffix?]
  simp only [Tag.read?, hbracket, Option.bind_eq_bind, Option.bind_some, startsTag]
  cases hslash : dropAffix? "/" s with
  | none => exact isSome_readNamed? false s
  | some rest =>
    rw [dropAffix?_eq_some_iff] at hslash
    simp [isSome_readNamed?, hslash]

section Apart
variable {s x y : Text}

private theorem standsApart_cons {c : Char} (h : StandsApart (c :: y)) :
    c.isAlphanum = false ∧ isWord c = false ∧ c ∉ ['/', '!', '-', '>'] := by
  have hc : isBlank c ∨ c = '<' := by simpa [StandsApart] using h
  rcases hc with hc | rfl
  · have hword : isWord c = false := by
      cases hw : isWord c with
      | false => rfl
      | true => simp [isBlank_of_isWord hw] at hc
    have halpha : c.isAlphanum = false := by
      cases ha : c.isAlphanum with
      | false => rfl
      | true => simp [isBlank_of_isAlphanum ha] at hc
    refine ⟨halpha, hword, fun hm => ?_⟩
    have hno : ['/', '!', '-', '>'].all (!isBlank ·) := by decide
    simpa [hc] using List.all_eq_true.1 hno c hm
  · exact ⟨by decide, by decide, by decide⟩

private theorem startsName_append (hy : StandsApart y) (s : Text) :
    ((s ++ y).head?.any Char.isAlpha && !((s ++ y).dropWhile Char.isAlphanum).head?.any isWord) =
      (s.head?.any Char.isAlpha && !(s.dropWhile Char.isAlphanum).head?.any isWord) := by
  have hend : ∀ s : Text, ((s ++ y).dropWhile Char.isAlphanum).head?.any isWord =
      (s.dropWhile Char.isAlphanum).head?.any isWord := by
    intro s
    induction s with
    | nil =>
      cases y with
      | nil => rfl
      | cons c y =>
        obtain ⟨ha, hw, -⟩ := standsApart_cons hy
        simp [ha, hw]
    | cons c s ih => by_cases hc : c.isAlphanum <;> simp [hc, ih]
  cases s with
  | nil =>
    cases y with
    | nil => rfl
    | cons c y =>
      obtain ⟨ha, -⟩ := standsApart_cons hy
      have hc : c.isAlpha = false := by
        cases h : c.isAlpha with
        | false => rfl
        | true => simp [Char.isAlphanum, h] at ha
      simp [hc]
  | cons c s => rw [hend, List.cons_append, List.head?_cons, List.head?_cons]

/-- What stands apart continues no mark of a tag or a comment. -/
private theorem dropAffix?_append_of_standsApart (hy : StandsApart y) {mark : Text}
    (hm : mark ⊆ ['/', '!', '-', '>']) (s : Text) :
    dropAffix? mark (s ++ y) = (dropAffix? mark s).map (· ++ y) := by
  induction mark generalizing s with
  | nil => rfl
  | cons a mark ih =>
    obtain ⟨ha, hmark⟩ := List.cons_subset.1 hm
    cases s with
    | nil =>
      cases y with
      | nil => rfl
      | cons c y =>
        obtain ⟨-, -, hc⟩ := standsApart_cons hy
        have hne : a ≠ c := by
          rintro rfl
          exact hc ha
        simp [dropAffix?, hne]
    | cons c s => by_cases hc : a = c <;> simp [dropAffix?, hc, ih hmark]

/-- What stands apart does not change whether a name ends. -/
private theorem startsTag_append (hy : StandsApart y) (s : Text) :
    startsTag (s ++ y) = startsTag s := by
  have hslash : (dropAffix? "/" (s ++ y)).getD (s ++ y) = (dropAffix? "/" s).getD s ++ y := by
    rw [dropAffix?_append_of_standsApart hy (by simp)]
    cases dropAffix? "/" s <;> rfl
  simp only [startsTag, hslash, startsName_append hy]

/-- The end of a comment does not reach into what stands apart. -/
theorem occursIn_append_of_standsApart (hy : StandsApart y) (s : Text) :
    occursIn "-->" (s ++ y) = (occursIn "-->" s || occursIn "-->" y) := by
  rw [Bool.eq_iff_iff, Bool.or_eq_true]
  constructor
  · intro h
    obtain ⟨before, after, he⟩ := occursIn_iff.1 h
    rw [List.append_assoc] at he
    rcases List.append_eq_append_iff.1 he with ⟨m, rfl, hm⟩ | ⟨m, rfl, hm⟩
    · exact .inr (occursIn_iff.2 ⟨m, after, by rw [hm, List.append_assoc]⟩)
    · left
      have hne : ∀ c z, y = c :: z → c ≠ '-' ∧ c ≠ '>' := by
        rintro c z rfl
        obtain ⟨-, -, hc⟩ := standsApart_cons hy
        simp only [List.mem_cons, not_or] at hc
        exact ⟨hc.2.2.1, hc.2.2.2.1⟩
      rcases m with _ | ⟨a, _ | ⟨b, _ | ⟨c, m⟩⟩⟩
      · exact absurd rfl (hne '-' ('-' :: '>' :: after) (by simpa using hm.symm)).1
      · have := hne '-' ('>' :: after) (by simp_all)
        simp at this
      · have := hne '>' after (by simp_all)
        simp at this
      · obtain ⟨rfl, rfl, rfl, -⟩ : '-' = a ∧ '-' = b ∧ '>' = c ∧ after = m ++ y := by
          simpa using hm
        exact occursIn_iff.2 ⟨before, m, by simp⟩
  · rintro (h | h)
    · obtain ⟨before, after, rfl⟩ := occursIn_iff.1 h
      exact occursIn_iff.2 ⟨before, after ++ y, by simp⟩
    · obtain ⟨before, after, rfl⟩ := occursIn_iff.1 h
      exact occursIn_iff.2 ⟨s ++ before, after, by simp⟩

/-- What a bracket opens: a comment that ends, or a tag that ends. -/
private theorem isSome_ofMarkup? (s : Text) : (Token.ofMarkup? ('<' :: s)).isSome =
    ((dropAffix? "!--" s).any (occursIn "-->" ·) || (startsTag s && '>' ∈ s)) := by
  have hcomment : (comment? ('<' :: s)).isSome = (dropAffix? "!--" s).any (occursIn "-->" ·) := by
    have hbracket : dropAffix? "<!--" ('<' :: s) = dropAffix? "!--" s := by simp [dropAffix?]
    rw [comment?, hbracket]
    cases dropAffix? "!--" s <;> rfl
  simp [Token.ofMarkup?, hcomment, isSome_read?]

/-- A bracket that opens no markup opens none before another text, if both texts stand apart. -/
theorem Token.ofMarkup?_replace (hx : StandsApart x) (hy : StandsApart y) (hclose : '>' ∈ x)
    (hend : occursIn "-->" y → occursIn "-->" x) {s : Text}
    (h : Token.ofMarkup? ('<' :: (s ++ x)) = none) :
    Token.ofMarkup? ('<' :: (s ++ y)) = none := by
  have hmark : ("!--" : Text) ⊆ ['/', '!', '-', '>'] := by simp
  rw [← Option.not_isSome_iff_eq_none, isSome_ofMarkup?, startsTag_append hx,
    dropAffix?_append_of_standsApart hx hmark, Bool.not_eq_true, Bool.or_eq_false_iff] at h
  obtain ⟨hcomment, htag⟩ := h
  have hname : startsTag s = false := by simpa [hclose] using htag
  rw [← Option.not_isSome_iff_eq_none, isSome_ofMarkup?, startsTag_append hy,
    dropAffix?_append_of_standsApart hy hmark, hname, Bool.not_eq_true]
  cases hs : dropAffix? "!--" s with
  | none => rfl
  | some rest =>
    simp only [hs, Option.map_some, Option.any_some, occursIn_append_of_standsApart hx,
      Bool.or_eq_false_iff] at hcomment
    have hrest : occursIn "-->" y = false :=
      Bool.eq_false_iff.2 fun hy' => Bool.eq_false_iff.1 hcomment.2 (hend hy')
    simp only [Option.map_some, Option.any_some, occursIn_append_of_standsApart hy, hcomment.1,
      hrest]
    rfl

/-- The same for any character and the letters behind it, in front of texts that start with a
bracket. -/
theorem Token.ofMarkup?_replace_behind {c : Char} (hx : x.head?.all (· = '<'))
    (hy : y.head?.all (· = '<')) (hclose : x = y ∨ '>' ∈ x)
    (hend : occursIn "-->" y → occursIn "-->" x) (h : Token.ofMarkup? (c :: (s ++ x)) = none) :
    Token.ofMarkup? (c :: (s ++ y)) = none := by
  have hapart : ∀ {z : Text}, z.head?.all (· = '<') → StandsApart z := by
    intro z hz
    cases z with
    | nil => rfl
    | cons d z =>
      obtain rfl : d = '<' := by simpa using hz
      rfl
  by_cases hc : c = '<'
  · subst hc
    rcases hclose with rfl | hclose
    · exact h
    · exact Token.ofMarkup?_replace (hapart hx) (hapart hy) hclose hend h
  · simp [Token.ofMarkup?, comment?_of_ne hc, Tag.read?, dropAffix?, Ne.symm hc]

end Apart

/-! ## Lists of tokens -/

/-- Each piece of markup and each character that opens none is read at its own place. -/
inductive IsReadBack : List Token → Prop
  | nil : IsReadBack []
  | markup {t : Token} {ts : List Token} :
    Token.ofMarkup? (t.source ++ spell ts) = some (t, spell ts) → IsReadBack ts →
      IsReadBack (t :: ts)
  | letter {c : Char} {ts : List Token} :
    Token.ofMarkup? (c :: spell ts) = none → IsReadBack ts → IsReadBack (.plain [c] :: ts)

@[simp] theorem spell_nil : spell [] = [] := rfl

@[simp] theorem spell_cons (t : Token) (ts : List Token) : spell (t :: ts) = t.source ++ spell ts :=
  rfl

@[simp] theorem spell_append (ts us : List Token) : spell (ts ++ us) = spell ts ++ spell us :=
  List.flatMap_append

/-- Plain text, character by character. -/
def letters (s : Text) : List Token := s.map fun c => .plain [c]

@[simp] theorem spell_letters (s : Text) : spell (letters s) = s := by
  induction s with
  | nil => rfl
  | cons c s ih => simpa [letters, Token.source] using ih

theorem exists_isReadBack (s : Text) : ∃ ts, spell ts = s ∧ IsReadBack ts := by
  induction hn : s.length using Nat.strong_induction_on generalizing s with
  | _ n ih =>
    cases s with
    | nil => exact ⟨[], rfl, .nil⟩
    | cons c s =>
      cases hmarkup : Token.ofMarkup? (c :: s) with
      | none =>
        obtain ⟨ts, hts, hread⟩ := ih s.length (by simp [← hn]) s rfl
        exact ⟨.plain [c] :: ts, by simp [hts, Token.source], .letter (hts ▸ hmarkup) hread⟩
      | some p =>
        obtain ⟨t, rest⟩ := p
        have hs := Token.eq_source_append_of_markup? hmarkup
        have hpos := List.length_pos_iff.2 (Token.source_ne_nil_of_markup? hmarkup)
        have hlen := congrArg List.length hs
        rw [List.length_append, hn] at hlen
        obtain ⟨ts, hts, hread⟩ := ih rest.length (by omega) rest rfl
        exact ⟨t :: ts, by simp [hts, hs], .markup (by rw [hts, ← hs, hmarkup]) hread⟩

namespace IsReadBack
variable {ts us vs : List Token}

theorem tail {t : Token} (h : IsReadBack (t :: ts)) : IsReadBack ts := by
  cases h with
  | markup _ h => exact h
  | letter _ h => exact h

theorem of_append_right (h : IsReadBack (us ++ vs)) : IsReadBack vs := by
  induction us with
  | nil => exact h
  | cons t us ih => exact ih h.tail

/-- Letters that are no brackets are read one by one. -/
theorem letters_append {w : Text} (hw : '<' ∉ w) (h : IsReadBack ts) :
    IsReadBack (letters w ++ ts) := by
  induction w with
  | nil => exact h
  | cons c w ih =>
    rw [List.mem_cons, not_or] at hw
    refine .letter ?_ (ih hw.2)
    simp [Token.ofMarkup?, comment?_of_ne (Ne.symm hw.1), Tag.read?, dropAffix?, hw.1]

/-- Tokens in front are read back without those behind them. -/
theorem of_append_left (h : IsReadBack (us ++ vs)) : IsReadBack us := by
  induction us with
  | nil => exact .nil
  | cons t us ih =>
    rw [List.cons_append] at h
    cases h with
    | markup hread h => exact .markup (Token.ofMarkup?_source_append hread (spell us)) (ih h)
    | letter hread h =>
      rw [spell_append, ← List.cons_append] at hread
      exact .letter (Token.ofMarkup?_eq_none_of_append hread) (ih h)

/-- Tokens in front are read back with others behind them. -/
theorem replace (h : IsReadBack (us ++ vs)) (hts : IsReadBack ts) (hvs : StandsApart (spell vs))
    (hapart : StandsApart (spell ts)) (hclose : '>' ∈ spell vs)
    (hend : occursIn "-->" (spell ts) → occursIn "-->" (spell vs)) : IsReadBack (us ++ ts) := by
  induction us with
  | nil => exact hts
  | cons t us ih =>
    rw [List.cons_append] at h ⊢
    cases h with
    | markup hread h =>
      refine .markup ?_ (ih h)
      exact Token.ofMarkup?_source_append hread (spell (us ++ ts))
    | @letter c _ hread h =>
      refine .letter ?_ (ih h)
      by_cases hc : c = '<'
      · subst hc
        rw [spell_append] at hread ⊢
        exact Token.ofMarkup?_replace hvs hapart hclose hend hread
      · simp [Token.ofMarkup?, comment?_of_ne hc, Tag.read?, dropAffix?, Ne.symm hc]

/-- A comment that is read back does not hold its end. -/
theorem occursIn_of_comment {body : Text} (h : IsReadBack (.comment body :: ts)) :
    occursIn "-->" body = false := by
  cases h with
  | markup hread _ =>
    simp only [Token.ofMarkup?, Option.orElse_eq_orElse, Option.orElse_eq_or, Option.or_eq_some_iff,
      Option.map_eq_some_iff, Prod.mk.injEq] at hread
    rcases hread with ⟨p, hp, hbody, -⟩ | ⟨-, p, -, hp, -⟩
    · obtain rfl := Token.comment.inj hbody
      exact occursIn_of_comment? hp
    · simp at hp

/-- Plain text that is read back is a letter that opens no markup. -/
theorem eq_singleton_of_plain {u : Text} (h : IsReadBack (.plain u :: ts)) :
    ∃ c, u = [c] ∧ Token.ofMarkup? (c :: spell ts) = none := by
  cases h with
  | markup hread _ =>
    simp only [Token.ofMarkup?, Option.orElse_eq_orElse, Option.orElse_eq_or, Option.or_eq_some_iff,
      Option.map_eq_some_iff, Prod.mk.injEq] at hread
    rcases hread with ⟨p, -, hp, -⟩ | ⟨-, p, -, hp, -⟩ <;> simp at hp
  | letter hread _ => exact ⟨_, rfl, hread⟩

/-- A tag that is read back is read. -/
theorem exists_read? {t : Tag} (h : IsReadBack (.tag t :: ts)) :
    ∃ s rest, Tag.read? s = some (t, rest) := by
  cases h with
  | markup hread _ =>
    simp only [Token.ofMarkup?, Option.orElse_eq_orElse, Option.orElse_eq_or, Option.or_eq_some_iff,
      Option.map_eq_some_iff, Prod.mk.injEq] at hread
    rcases hread with ⟨p, -, hp, -⟩ | ⟨-, ⟨tag, rest⟩, hread, htag, -⟩
    · simp at hp
    · obtain rfl : tag = t := Token.tag.inj htag
      exact ⟨_, rest, hread⟩

theorem eq_nil_of_spell (h : IsReadBack ts) (hs : spell ts = []) : ts = [] := by
  cases h with
  | nil => rfl
  | markup hread _ =>
    have := Token.source_ne_nil_of_markup? hread
    simp_all
  | letter _ _ => simp [Token.source] at hs

/-- Characters in front that are no brackets are read one by one. -/
theorem eq_letters_append {w s : Text} (h : IsReadBack ts) (hs : spell ts = w ++ s)
    (hw : '<' ∉ w) : ∃ us, ts = letters w ++ us ∧ spell us = s := by
  induction w generalizing ts with
  | nil => exact ⟨ts, rfl, hs⟩
  | cons c w ih =>
    simp only [List.mem_cons, not_or] at hw
    cases h with
    | nil => simp at hs
    | @markup t ts hread h =>
      obtain ⟨inner, hinner⟩ := Token.source_of_markup? hread
      simp [hinner, hw.1] at hs
    | @letter d ts _ h =>
      obtain ⟨rfl, htail⟩ : d = c ∧ spell ts = w ++ s := by simpa [Token.source] using hs
      obtain ⟨us, rfl, hus⟩ := ih h htail hw.2
      exact ⟨us, rfl, hus⟩

/-- Characters at the end that close no markup are read one by one. -/
theorem eq_append_letters {w s : Text} (h : IsReadBack ts) (hs : spell ts = s ++ w)
    (hw : '>' ∉ w) : ∃ us, ts = us ++ letters w ∧ spell us = s := by
  induction h generalizing s w with
  | nil =>
    obtain ⟨rfl, rfl⟩ : s = [] ∧ w = [] := by simpa using hs
    exact ⟨[], rfl, rfl⟩
  | @markup t ts hread h ih =>
    obtain ⟨inner, hinner⟩ := Token.source_of_markup? hread
    obtain ⟨m, rfl, hm⟩ : ∃ m, s = t.source ++ m ∧ spell ts = m ++ w := by
      rw [spell_cons] at hs
      rcases List.append_eq_append_iff.1 hs with ⟨m, hsm, hm⟩ | ⟨m, hsm, hm⟩
      · exact ⟨m, hsm, hm⟩
      · rcases List.eq_nil_or_concat m with rfl | ⟨m, c, rfl⟩
        · exact ⟨[], by simp [hsm], by simp [hm]⟩
        · rw [hinner, List.concat_eq_append, ← List.append_assoc, ← List.cons_append] at hsm
          have hc : '>' = c := by simpa using (List.append_inj' hsm rfl).2
          simp [hm, ← hc] at hw
    obtain ⟨us, rfl, rfl⟩ := ih hm hw
    exact ⟨t :: us, rfl, rfl⟩
  | @letter c ts hread h ih =>
    cases s with
    | nil =>
      cases w with
      | nil => simp [Token.source] at hs
      | cons d w =>
        obtain ⟨rfl, htail⟩ : c = d ∧ spell ts = [] ++ w := by simpa [Token.source] using hs
        obtain ⟨us, rfl, hus⟩ := ih htail fun hm => hw (List.mem_cons_of_mem c hm)
        obtain rfl := h.of_append_left.eq_nil_of_spell hus
        exact ⟨[], rfl, rfl⟩
    | cons d s =>
      obtain ⟨rfl, htail⟩ : c = d ∧ spell ts = s ++ w := by simpa [Token.source] using hs
      obtain ⟨us, rfl, rfl⟩ := ih htail hw
      exact ⟨.plain [c] :: us, rfl, rfl⟩

end IsReadBack

end Slideshow.Markup
