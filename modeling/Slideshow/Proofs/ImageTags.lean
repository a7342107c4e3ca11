import Slideshow.Pass.Image
import Slideshow.Proofs.PatternParts

/-!
# Image tags

An image is read from a few characters behind an angle bracket, whatever follows them. In a text whose
tags settle whether they are images before they end, parts can be cut out and put together at tags, and
no image comes up that was in none of the parts.
-/
namespace Slideshow
open Text

/-! ## What a tag holds -/

namespace Text
variable {s t w : Text}

/-- The text behind an angle bracket up to the end of the tag, or up to the next bracket. -/
def tagAt : Text → Text
  | [] => []
  | c :: s => if c = '<' then [] else if c = '>' then ['>'] else c :: tagAt s

theorem tagAt_initial (s : Text) : tagAt s <+: s := by
  fun_induction tagAt s with
  | case1 => exact List.prefix_refl _
  | case2 s => exact List.nil_prefix
  | case3 s => exact List.prefix_cons_inj '>' |>.2 List.nil_prefix
  | case4 c s _ _ ih => exact List.prefix_cons_inj c |>.2 ih

theorem tagAt_append_initial (s t : Text) : tagAt s <+: tagAt (s ++ t) := by
  fun_induction tagAt s with
  | case1 => exact List.nil_prefix
  | case2 s => exact List.nil_prefix
  | case3 s => simp [tagAt]
  | case4 c s hopen hclose ih =>
    rw [List.cons_append, tagAt, if_neg hopen, if_neg hclose]
    exact List.prefix_cons_inj c |>.2 ih

theorem bracket_not_mem_tagAt (s : Text) : '<' ∉ tagAt s := by
  fun_induction tagAt s with
  | case1 => simp
  | case2 s => simp
  | case3 s => simp
  | case4 c s hopen hclose ih => simp [ih, Ne.symm hopen]

/-- A tag that something other than its end follows is not over. -/
theorem not_mem_of_tagAt {tag : Text} {c : Char} (h : tag ++ [c] <+: tagAt s) : '>' ∉ tag := by
  fun_induction tagAt s generalizing tag with
  | case1 => simp at h
  | case2 s => simp at h
  | case3 s => cases tag <;> simp at h ⊢
  | case4 d s hopen hclose ih =>
    cases tag with
    | nil => simp
    | cons e tag =>
      rw [List.cons_append, List.cons_prefix_cons] at h
      obtain ⟨rfl, h⟩ := h
      simp [Ne.symm hclose, ih h]

theorem tagAt_eq_self (h : '<' ∉ s) (h' : '>' ∉ s) : tagAt s = s := by
  induction s with
  | nil => rfl
  | cons c s ih =>
    simp only [List.mem_cons, not_or] at h h'
    rw [tagAt, if_neg (Ne.symm h.1), if_neg (Ne.symm h'.1), ih h.2 h'.2]

/-- What stands in a tag stands in it whatever follows. -/
theorem initial_tagAt_append {tag more : Text} (h : tag <+: tagAt (tag ++ more)) (t : Text) :
    tag <+: tagAt (tag ++ t) := by
  induction tag with
  | nil => exact List.nil_prefix
  | cons c tag ih =>
    rw [List.cons_append, tagAt] at h ⊢
    by_cases hopen : c = '<'
    · simp [hopen] at h
    rw [if_neg hopen] at h ⊢
    by_cases hclose : c = '>'
    · rw [if_pos hclose] at h ⊢
      exact h
    · rw [if_neg hclose, List.cons_prefix_cons] at h
      rw [if_neg hclose, List.cons_prefix_cons]
      exact ⟨rfl, ih h.2⟩

/-- A tag that ends in a text is not changed by what follows the text. -/
theorem tagAt_append_of_mem (h : '<' ∈ s ∨ '>' ∈ s) (t : Text) : tagAt (s ++ t) = tagAt s := by
  fun_induction tagAt s with
  | case1 => simp at h
  | case2 s => simp [tagAt]
  | case3 s => simp [tagAt]
  | case4 c s hopen hclose ih =>
    rw [List.cons_append, tagAt, if_neg hopen, if_neg hclose,
      ih (by simpa [Ne.symm hopen, Ne.symm hclose] using h)]

theorem tagAt_append_bracket (s t : Text) : tagAt (s ++ '<' :: t) = tagAt s := by
  fun_induction tagAt s with
  | case1 => simp [tagAt]
  | case2 s => simp [tagAt]
  | case3 s => simp [tagAt]
  | case4 c s hopen hclose ih => rw [List.cons_append, tagAt, if_neg hopen, if_neg hclose, ih]

/-- A part of a tag that ends with no white space is not changed by white space behind it. -/
theorem initial_tagAt_of_blank {tag : Text} (hw : isAllBlank w)
    (hlast : tag.getLast?.any isBlank = false) (h : tag <+: tagAt (s ++ w)) : tag <+: tagAt s := by
  by_cases hmem : '<' ∈ s ∨ '>' ∈ s
  · rwa [tagAt_append_of_mem hmem] at h
  · rw [not_or] at hmem
    rw [tagAt_eq_self hmem.1 hmem.2]
    obtain ⟨rest, hrest⟩ := h.trans (tagAt_initial _)
    rcases List.append_eq_append_iff.1 hrest with ⟨more, rfl, -⟩ | ⟨more, rfl, rfl⟩
    · exact List.prefix_append tag more
    · cases more.eq_nil_or_concat with
      | inl hnil => simp [hnil]
      | inr hmore =>
        obtain ⟨more, c, rfl⟩ := hmore
        have hblank : isBlank c := List.all_eq_true.1 hw c (by simp)
        simp [← List.append_assoc, hblank] at hlast

end Text

/-! ## Reading an image -/

theorem Text.dropAffix?_append_of_le {key s : Text} (h : key.length ≤ s.length) (t : Text) :
    dropAffix? key (s ++ t) = (dropAffix? key s).map (· ++ t) := by
  induction key generalizing s with
  | nil => rfl
  | cons a key ih =>
    cases s with
    | nil => simp at h
    | cons c s =>
      by_cases hac : a = c
      · simp [dropAffix?, hac, ih (Nat.le_of_succ_le_succ h)]
      · simp [dropAffix?_cons_ne hac]

namespace Pass
variable {i : Image} {s rest opening : Text} {before : Char}

/-- An address starts at the same place whatever it is, and in front of it nothing ends the tag. -/
theorem cutAtAddress?_opening (h : cutAtAddress? before s = some (opening, rest)) :
    '>' ∉ opening ∧ ∀ t, cutAtAddress? before (opening ++ "src=\"" ++ t) = some (opening, t) := by
  induction s generalizing before opening with
  | nil => simp [cutAtAddress?] at h
  | cons c s ih =>
    rw [cutAtAddress?] at h
    split at h
    · next hread =>
      obtain ⟨rfl, rfl⟩ := Prod.mk.inj (Option.some.inj h)
      refine ⟨by simp, fun t => ?_⟩
      have hbefore : ¬isWord before := fun hb => by simp [hb] at hread
      have hkey : ([] : Text) ++ "src=\"" ++ t = 's' :: ("rc=\"" ++ t) := by simp
      rw [hkey, cutAtAddress?, if_neg hbefore, ← hkey, List.nil_append, dropAffix?_append]
    · next hread =>
      split at h
      · simp at h
      next hclose =>
      obtain ⟨⟨front, behind⟩, hcut, hfront⟩ := Option.map_eq_some_iff.1 h
      obtain ⟨rfl, rfl⟩ := Prod.mk.inj hfront
      obtain ⟨hmem, hall⟩ := ih hcut
      refine ⟨by simp [hmem, Ne.symm hclose], fun t => ?_⟩
      have hlength : ("src=\"" : Text).length ≤ (c :: (front ++ "src=\"")).length := by simp
      have hnone : (if isWord before then none else dropAffix? "src=\"" (c :: (front ++ "src=\""))) =
          none := by
        split at hread
        · next hb => rw [if_pos hb]
        · next hb =>
          rw [eq_append_of_cutAtAddress? hcut, ← List.cons_append, dropAffix?_append_of_le hlength,
            Option.map_eq_none_iff] at hread
          rw [if_neg hb, hread]
      have hnone' : (if isWord before then none
          else dropAffix? "src=\"" (c :: (front ++ "src=\"" ++ t))) = none := by
        split at hnone
        · next hb => rw [if_pos hb]
        · next hb => rw [if_neg hb, ← List.cons_append, dropAffix?_append_of_le hlength, hnone]; rfl
      rw [List.cons_append, List.cons_append, cutAtAddress?, hnone']
      simp only [if_neg hclose, hall t, Option.map_some]

/-- What is read of an image, and what is not. -/
theorem Image.of_read? (h : Image.pattern.read? s = some (i, rest)) :
    '>' ∉ i.opening ∧ '"' ∉ i.address ∧ ∀ address t, '"' ∉ address →
      Image.pattern.read? (({ i with address := address } : Image).spell ++ t) =
        some ({ i with address := address }, t) := by
  simp only [Image.pattern, Option.bind_eq_bind, Option.bind_eq_some_iff, dropAffix?_eq_some_iff] at h
  obtain ⟨u, rfl, h⟩ := h
  split at h
  · simp at h
  next hhead =>
  simp only [Option.bind_eq_some_iff, dropAffix?_eq_some_iff] at h
  obtain ⟨⟨opening, v⟩, hcut, r, -, h⟩ := h
  obtain ⟨rfl, rfl⟩ := Prod.mk.inj (Option.some.inj h)
  obtain ⟨hmem, hall⟩ := cutAtAddress?_opening hcut
  refine ⟨hmem, fun hq => by simpa using List.mem_takeWhile_imp hq, fun address t ha => ?_⟩
  have hhead' : ¬(opening ++ "src=\"" ++ (address ++ '"' :: t)).head?.any isWord := by
    rw [eq_append_of_cutAtAddress? hcut] at hhead
    cases opening <;> simpa using hhead
  have hspell : ({ opening, address } : Image).spell ++ t =
      "<img" ++ (opening ++ "src=\"" ++ (address ++ '"' :: t)) := by simp [Image.spell]
  simp only [Image.pattern, Option.bind_eq_bind, hspell, dropAffix?_append, Option.bind_some, hhead',
    hall]
  rw [takeWhile_run (ne_of_not_mem ha) (by simp), dropWhile_run (ne_of_not_mem ha) (by simp)]
  simp [dropAffix?]

theorem Image.read?_append (h : Image.pattern.read? s = some (i, rest)) (t : Text) :
    Image.pattern.read? (s ++ t) = some (i, rest ++ t) := by
  obtain ⟨-, haddress, hall⟩ := Image.of_read? h
  rw [Image.pattern.eq_append_of_read? h, List.append_assoc]
  exact hall i.address (rest ++ t) haddress

/-- Every image starts with an angle bracket and a small i. -/
theorem startsWith_image : Image.pattern.StartsWith ('<' :: "img") := by
  intro s hs
  have hs : dropAffix? "<img" s = none := by simpa using hs
  simp only [Image.pattern, Option.bind_eq_bind, hs, Option.bind_none]

/-! ## Images in a text -/

/-- An image that is read somewhere in a text. -/
def Image.StandsIn (i : Image) (s : Text) : Prop :=
  ∃ before after rest, s = before ++ after ∧ Image.pattern.read? after = some (i, rest)

theorem Image.StandsIn.of_isInfix (h : i.StandsIn s) {t : Text} (hst : s <:+: t) : i.StandsIn t := by
  obtain ⟨before, after, rest, rfl, hread⟩ := h
  obtain ⟨front, back, rfl⟩ := hst
  exact ⟨front ++ before, after ++ back, rest ++ back, by simp, Image.read?_append hread back⟩

/-- Whether a tag is an image is settled, whatever follows, and if so it is one of some kind. -/
structure Settles (Q : Image → Prop) (tag : Text) : Prop where
  read?_append : ∀ t, Image.pattern.read? (tag ++ t) =
    (Image.pattern.read? tag).map fun p => (p.1, p.2 ++ t)
  kind : ∀ i rest, Image.pattern.read? tag = some (i, rest) → Q i

/-- Behind every angle bracket it is settled whether there is an image, before the tag ends and before
anything else begins in it, and not by white space. -/
def SettlesImages (Q : Image → Prop) (s : Text) : Prop :=
  ∀ before after, s = before ++ '<' :: after →
    ∃ tag, tag <+: tagAt after ∧ tag.getLast?.any isBlank = false ∧ Settles Q ('<' :: tag)

/-- A text settles its images, of whatever kind. -/
abbrev IsSettled (s : Text) : Prop := SettlesImages (fun _ => True) s

/-- A tag of another name is no image. -/
theorem settles_of_name (Q : Image → Prop) {tag : Text} (h : ∀ t, dropAffix? "img" (tag ++ t) = none) :
    Settles Q ('<' :: tag) := by
  have hnone : ∀ t, Image.pattern.read? ('<' :: (tag ++ t)) = none := fun t =>
    startsWith_image _ (by simpa [dropAffix?] using h t)
  have hself := hnone []
  rw [List.append_nil] at hself
  exact ⟨fun t => by rw [List.cons_append, hnone, hself]; rfl, fun i rest hi => by simp [hself] at hi⟩

/-- A tag that is an image to its end. -/
theorem settles_spell {Q : Image → Prop} (hread : Image.pattern.read? s = some (i, rest))
    {address : Text} (ha : '"' ∉ address) (hQ : Q { i with address := address }) :
    Settles Q ({ i with address := address } : Image).spell := by
  have hall := (Image.of_read? hread).2.2 address
  have hself := hall [] ha
  rw [List.append_nil] at hself
  refine ⟨fun t => by rw [hall t ha, hself]; rfl, fun j r hj => ?_⟩
  obtain ⟨rfl, -⟩ := Prod.mk.inj (Option.some.inj (hself.symm.trans hj))
  exact hQ

namespace SettlesImages
variable {Q Q' : Image → Prop} {t w : Text}

theorem of_not_mem (h : '<' ∉ s) : SettlesImages Q s := by
  rintro before after rfl
  simp at h

theorem of_isSuffix (h : SettlesImages Q s) (ht : t <:+ s) : SettlesImages Q t := by
  obtain ⟨front, rfl⟩ := ht
  intro before after he
  exact h (front ++ before) after (by rw [he, List.append_assoc])

/-- One more angle bracket in front. -/
theorem bracket (h : SettlesImages Q s) {tag : Text} (htag : tag <+: tagAt s)
    (hlast : tag.getLast?.any isBlank = false) (hsettles : Settles Q ('<' :: tag)) :
    SettlesImages Q ('<' :: s) := by
  intro before after he
  cases before with
  | nil =>
    obtain rfl := (List.cons.inj he).2
    exact ⟨tag, htag, hlast, hsettles⟩
  | cons c before => exact h before after (List.cons.inj he).2

/-- A tag whose name starts like no image. -/
theorem tag {c : Char} (h : SettlesImages Q (c :: s)) (himage : c ≠ 'i') (hopen : c ≠ '<')
    (hblank : isBlank c = false) : SettlesImages Q ('<' :: c :: s) := by
  refine h.bracket ?_ (by simpa using hblank) (@settles_of_name Q [c] fun t => ?_)
  · rw [tagAt, if_neg hopen]
    split
    · next he => rw [he]
    · exact List.prefix_append [c] (tagAt s)
  · simp [dropAffix?, Ne.symm himage]

theorem cons (h : SettlesImages Q s) {c : Char} (hc : c ≠ '<') : SettlesImages Q (c :: s) := by
  intro before after he
  cases before with
  | nil => exact absurd (List.cons.inj he).1 hc
  | cons d before => exact h before after (List.cons.inj he).2

theorem append (hs : SettlesImages Q s) (ht : SettlesImages Q t) : SettlesImages Q (s ++ t) := by
  intro before after he
  rcases List.append_eq_append_iff.1 he with ⟨more, rfl, hmore⟩ | ⟨more, rfl, hmore⟩
  · exact ht more after hmore
  · cases more with
    | nil => exact ht [] after hmore.symm
    | cons c more =>
      obtain ⟨rfl, rfl⟩ := List.cons.inj hmore
      obtain ⟨tag, htag, hlast, hsettles⟩ := hs before more rfl
      exact ⟨tag, htag.trans (tagAt_append_initial more t), hlast, hsettles⟩

/-- A text may be cut off where its tags are left as they are. -/
theorem of_append (h : SettlesImages Q (s ++ t))
    (hcut : ∀ before after, s = before ++ '<' :: after → ∀ tag, tag.getLast?.any isBlank = false →
      tag <+: tagAt (after ++ t) → tag <+: tagAt after) : SettlesImages Q s := by
  intro before after he
  obtain ⟨tag, htag, hlast, hsettles⟩ := h before (after ++ t) (by simp [he])
  exact ⟨tag, hcut before after he tag hlast htag, hlast, hsettles⟩

/-- A text may be cut off in front of a tag. -/
theorem before_bracket (h : SettlesImages Q (s ++ '<' :: t)) : SettlesImages Q s :=
  h.of_append fun _ after _ tag _ htag => by rwa [tagAt_append_bracket] at htag

/-- A text may be cut off behind a tag. -/
theorem behind_tag (h : SettlesImages Q (s ++ '>' :: t)) : SettlesImages Q (s ++ ['>']) := by
  rw [← List.singleton_append, ← List.append_assoc] at h
  refine h.of_append fun before after he tag _ htag => ?_
  have hclose : '>' ∈ after := by
    have hlast := congrArg List.getLast? he
    rw [List.getLast?_concat, List.getLast?_append_cons] at hlast
    cases after with
    | nil => simp at hlast
    | cons c after => exact List.mem_of_getLast? (by simpa using hlast.symm)
  rwa [tagAt_append_of_mem (.inr hclose)] at htag

theorem trimRight (h : SettlesImages Q s) : SettlesImages Q (trimRight s) := by
  obtain ⟨v, hs, hv⟩ := exists_eq_append_trimRight s
  rw [hs] at h
  exact h.of_append fun _ _ _ _ hlast htag => initial_tagAt_of_blank hv hlast htag

theorem trim (h : SettlesImages Q s) : SettlesImages Q (trim s) :=
  (h.of_isSuffix (List.dropWhile_suffix isBlank)).trimRight

/-- An image at the front is read within the tag there. -/
theorem exists_tag (h : SettlesImages Q s) (hread : Image.pattern.read? s = some (i, rest)) :
    ∃ tag more, s = '<' :: (tag ++ more) ∧ tag <+: tagAt (tag ++ more) ∧ Settles Q ('<' :: tag) ∧
      ∃ r, Image.pattern.read? ('<' :: tag) = some (i, r) := by
  have hs := Image.pattern.eq_append_of_read? hread
  obtain ⟨after, rfl⟩ : ∃ after, s = '<' :: after :=
    ⟨"img" ++ i.opening ++ "src=\"" ++ i.address ++ "\"" ++ rest, by
      simpa [Image.pattern, Image.spell] using hs⟩
  obtain ⟨tag, htag, -, hsettles⟩ := h [] after rfl
  obtain ⟨more, rfl⟩ := htag.trans (tagAt_initial after)
  refine ⟨tag, more, rfl, htag, hsettles, ?_⟩
  rw [← List.cons_append, hsettles.read?_append] at hread
  obtain ⟨⟨j, r⟩, hj, he⟩ := Option.map_eq_some_iff.1 hread
  obtain ⟨rfl, -⟩ := Prod.mk.inj he
  exact ⟨r, hj⟩

/-- The images of a text are of the kind that its tags settle. -/
theorem kind_of_standsIn (h : SettlesImages Q s) (hi : i.StandsIn s) : Q i := by
  obtain ⟨before, after, rest, rfl, hread⟩ := hi
  obtain ⟨tag, more, -, -, hsettles, r, hr⟩ :=
    (h.of_isSuffix (List.suffix_append before after)).exists_tag hread
  exact hsettles.kind i r hr

theorem imp (h : SettlesImages Q s) (hQ : ∀ i : Image, i.StandsIn s → Q' i) : SettlesImages Q' s := by
  rintro before after rfl
  obtain ⟨tag, htag, hlast, hsettles⟩ := h before after rfl
  refine ⟨tag, htag, hlast, hsettles.read?_append, fun i rest hread => hQ i ?_⟩
  obtain ⟨more, rfl⟩ := htag.trans (tagAt_initial after)
  exact ⟨before, _, _, rfl, Image.read?_append hread more⟩

/-- An image that stands at the front has no angle bracket behind its own. -/
theorem brackets_not_mem (h : SettlesImages Q s) (hread : Image.pattern.read? s = some (i, rest)) :
    '<' ∉ i.opening ∧ '<' ∉ i.address ∧ '>' ∉ i.address := by
  obtain ⟨tag, more, -, htag, -, r, hr⟩ := h.exists_tag hread
  have hspell := Image.pattern.eq_append_of_read? hr
  have hparts : tag = "img" ++ i.opening ++ "src=\"" ++ i.address ++ ['"'] ++ r := by
    simpa [Image.pattern, Image.spell] using hspell
  have hopen : '<' ∉ tag := fun hmem => bracket_not_mem_tagAt _ (htag.subset hmem)
  have hclose : '>' ∉ ("img" ++ i.opening ++ "src=\"" ++ i.address : Text) :=
    not_mem_of_tagAt (c := '"') ((List.prefix_append _ r).trans (hparts ▸ htag))
  rw [hparts] at hopen
  simp only [List.mem_append, not_or] at hopen hclose
  exact ⟨hopen.1.1.1.1.2, hopen.1.1.2, hclose.2⟩

/-- Parts that start with an angle bracket may be replaced by what settles its own images. -/
theorem replace {α : Type} {p : Pattern α} {key : Text} (hp : p.StartsWith ('<' :: key)) {f : α → Text}
    (h : SettlesImages Q s)
    (hpart : ∀ u a rest, u <:+ s → p.read? u = some (a, rest) → SettlesImages Q' (f a))
    (htag : ∀ tag more, p.read? ('<' :: (tag ++ more)) = none → Settles Q ('<' :: tag) →
      Settles Q' ('<' :: tag)) : SettlesImages Q' (p.replace f s) := by
  have hkept : ∀ (front behind : Text), '<' ∉ front →
      p.replace f (front ++ behind) = front ++ p.replace f behind :=
    fun front behind hfront => hp.replace_append hfront behind
  unfold Pattern.replace at hkept ⊢
  fun_induction p.split s with
  | case1 => exact of_not_mem (by simp)
  | case2 c t a rest hread ih =>
    rw [List.flatMap_cons]
    have hsuffix : rest <:+ c :: t := ⟨p.spell a, (p.eq_append_of_read? hread).symm⟩
    exact (hpart _ a rest (List.suffix_refl _) hread).append
      (ih (h.of_isSuffix hsuffix) fun u b r hu => hpart u b r (hu.trans hsuffix))
  | case3 c t hread ih =>
    rw [List.flatMap_cons]
    have hsuffix := List.suffix_cons c t
    have hrest := ih (h.of_isSuffix hsuffix) fun u b r hu => hpart u b r (hu.trans hsuffix)
    by_cases hc : c = '<'
    · subst hc
      obtain ⟨tag, htag', hlast, hsettles⟩ := h [] t rfl
      obtain ⟨more, rfl⟩ := htag'.trans (tagAt_initial t)
      refine hrest.bracket ?_ hlast (htag tag more hread hsettles)
      rw [hkept tag more fun hmem => bracket_not_mem_tagAt _ (htag'.subset hmem)]
      exact initial_tagAt_append htag' _
    · exact hrest.cons hc

end SettlesImages

end Pass

end Slideshow
