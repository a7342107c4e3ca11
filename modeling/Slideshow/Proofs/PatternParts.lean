import Slideshow.Text.Pattern
import Slideshow.Proofs.QuotedForest

/-!
# Patterns that start with an angle bracket

A pattern that starts with an angle bracket finds nothing in a text whose angle brackets start
something else, whatever follows the text. So a sequence of texts is split one text after the other,
and a part that one of them starts with is replaced without a look at the others.
-/
namespace Slideshow
open Text Forest

/-! ## Keys -/

namespace Text
variable {key s r : Text} {c : Char}

/-- A key does not reach over a character that it does not have. -/
theorem dropAffix?_append_cons (hc : c ∉ key) (s r : Text) :
    dropAffix? key (s ++ c :: r) = (dropAffix? key s).map (· ++ c :: r) := by
  induction key generalizing s with
  | nil => rfl
  | cons a key ih =>
    obtain ⟨hac, hkey⟩ := not_or.1 (mt List.mem_cons.2 hc)
    cases s with
    | nil => simp [dropAffix?, Ne.symm hac]
    | cons d s =>
      by_cases had : a = d
      · simp [dropAffix?, had, ih hkey]
      · simp [dropAffix?, had]

theorem dropAffix?_bracket_of_not_occursIn (h : occursIn ('<' :: key) ('<' :: s) = false) :
    dropAffix? key s = none := by
  rw [Option.eq_none_iff_forall_ne_some]
  intro rest hrest
  have hyes : occursIn ('<' :: key) ('<' :: s) :=
    occursIn_iff.2 ⟨[], rest, by simp [dropAffix?_eq_some_iff.1 hrest]⟩
  simp [h] at hyes

/-- A key that does not occur in a text does not start in it either, in front of a character that the
key does not have. -/
theorem atBrackets_append_cons (h : occursIn ('<' :: key) s = false) (hc : c ∉ key)
    (hr : AtBrackets (dropAffix? ('<' :: key) · = none) (c :: r)) :
    AtBrackets (dropAffix? ('<' :: key) · = none) (s ++ c :: r) := by
  intro before after he tail
  rcases List.append_eq_append_iff.1 he with ⟨more, rfl, hmore⟩ | ⟨more, rfl, hmore⟩
  · exact hr more after hmore tail
  · cases more with
    | nil => exact hr [] after hmore.symm tail
    | cons d more =>
      obtain ⟨rfl, rfl⟩ := List.cons.inj hmore
      have hmono : occursIn ('<' :: key) ('<' :: more) = false := by
        rw [Bool.eq_false_iff] at h ⊢
        exact fun hyes => h (occursIn_mono (List.suffix_append before _).isInfix hyes)
      have hnone := dropAffix?_bracket_of_not_occursIn hmono
      simp [dropAffix?, dropAffix?_append_cons hc, hnone]

/-- A text is cut at the first key if the key has no angle bracket but its first character. -/
theorem cutAt?_append_key (h : occursIn ('<' :: key) s = false) (hkey : '<' ∉ key) (r : Text) :
    cutAt? ('<' :: key) (s ++ '<' :: (key ++ r)) = some (s, r) := by
  induction s with
  | nil => simp [cutAt?, dropAffix?, dropAffix?_append]
  | cons c s ih =>
    have hrest : occursIn ('<' :: key) s = false := by
      rw [Bool.eq_false_iff] at h ⊢
      exact fun hyes => h (occursIn_mono (List.suffix_cons c s).isInfix hyes)
    have hnone : dropAffix? ('<' :: key) (c :: (s ++ '<' :: (key ++ r))) = none := by
      by_cases hc : '<' = c
      · subst hc
        simp [dropAffix?, dropAffix?_append_cons hkey, dropAffix?_bracket_of_not_occursIn h]
      · exact dropAffix?_cons_ne hc key _
    simp [cutAt?, hnone, ih hrest]

theorem atBrackets_flatMap {ι : Type} {P : Text → Prop} {bs : List ι} {f : ι → Text}
    (h : ∀ b ∈ bs, AtBrackets P (f b)) : AtBrackets P (bs.flatMap f) := by
  induction bs with
  | nil => exact .of_not_mem (by simp)
  | cons b bs ih =>
    rw [List.flatMap_cons]
    exact (h b (by simp)).append (ih fun c hc => h c (List.mem_cons_of_mem b hc))

theorem occursIn_eq_false_of_atBrackets (h : AtBrackets (dropAffix? ('<' :: key) · = none) s) :
    occursIn ('<' :: key) s = false := by
  rw [Bool.eq_false_iff]
  intro hyes
  obtain ⟨before, after, rfl⟩ := occursIn_iff.1 hyes
  have hnone := h before (key ++ after) (by simp) []
  simp [dropAffix?, dropAffix?_append] at hnone

end Text

/-! ## Splitting one text after the other -/

namespace Pattern
variable {α : Type} (p : Pattern α)

theorem split_of_read? {s rest : Text} {a : α} (h : p.read? s = some (a, rest)) :
    p.split s = .inr a :: p.split rest := by
  cases s with
  | nil =>
    have hspell := List.append_eq_nil_iff.1 (p.eq_append_of_read? h).symm
    exact absurd hspell.1 (p.spell_ne_nil a)
  | cons c t =>
    rw [split]
    split
    · next b r hr =>
      obtain ⟨rfl, rfl⟩ := Prod.mk.inj (Option.some.inj (hr.symm.trans h))
      rfl
    · next hr => simp [hr] at h

theorem split_of_read?_eq_none {c : Char} {t : Text} (h : p.read? (c :: t) = none) :
    p.split (c :: t) = .inl c :: p.split t := by
  rw [split]
  split
  · next hr => simp [hr] at h
  · rfl

/-- The characters and parts of a text of some length at most. -/
def splitWithin : Nat → Text → List (Char ⊕ α)
  | n + 1, c :: t =>
    match p.read? (c :: t) with
    | some (a, rest) => .inr a :: splitWithin n rest
    | none => .inl c :: splitWithin n t
  | _, _ => []

theorem split_eq_splitWithin (n : Nat) {s : Text} (h : s.length ≤ n) :
    p.split s = p.splitWithin n s := by
  induction n generalizing s with
  | zero =>
    obtain rfl : s = [] := List.length_eq_zero_iff.1 (Nat.le_zero.1 h)
    rw [split, splitWithin]
    simp
  | succ n ih =>
    cases s with
    | nil => rw [split, splitWithin]; simp
    | cons c t =>
      rw [splitWithin]
      split
      · next a rest hread =>
        have hlength := congrArg List.length (p.eq_append_of_read? hread)
        have hspell := List.length_pos_iff.2 (p.spell_ne_nil a)
        rw [List.length_append] at hlength
        rw [p.split_of_read? hread, ih (by omega)]
      · next hread =>
        rw [p.split_of_read?_eq_none hread, ih (Nat.le_of_succ_le_succ h)]

/-- A text splits into a part at its front, if there is one, and the characters of the rest, whatever
follows. -/
def Splits (s : Text) (part : Option α) (rest : Text) : Prop :=
  ∀ t, p.split (s ++ t) = part.toList.map .inr ++ rest.map .inl ++ p.split t

/-- All that a pattern reads starts with a key. -/
def StartsWith (key : Text) : Prop := ∀ s, dropAffix? key s = none → p.read? s = none

namespace Splits
variable {p} {key : Text}

theorem of_atBrackets (hp : p.StartsWith ('<' :: key)) {s : Text}
    (h : AtBrackets (dropAffix? ('<' :: key) · = none) s) : p.Splits s none s := by
  intro t
  induction s with
  | nil => rfl
  | cons c s ih =>
    have hs : AtBrackets (dropAffix? ('<' :: key) · = none) s :=
      fun before after he => h (c :: before) after (by rw [he]; rfl)
    have hnone : p.read? (c :: (s ++ t)) = none := by
      refine hp _ ?_
      by_cases hc : '<' = c
      · subst hc
        exact h [] s rfl t
      · exact dropAffix?_cons_ne hc key _
    rw [List.cons_append, p.split_of_read?_eq_none hnone, ih hs]
    rfl

/-- A part in front of characters. -/
theorem of_read? {s rest : Text} {a : α} (h : ∀ t, p.read? (s ++ t) = some (a, rest ++ t))
    (hrest : p.Splits rest none rest) : p.Splits s (some a) rest := by
  intro t
  rw [p.split_of_read? (h t), hrest t]
  rfl

/-- A character that no part starts with. -/
theorem cons {c : Char} {s : Text} (h : ∀ t, p.read? (c :: s ++ t) = none) (hs : p.Splits s none s) :
    p.Splits (c :: s) none (c :: s) := by
  intro t
  have hsplit : p.split (c :: (s ++ t)) = .inl c :: p.split (s ++ t) :=
    p.split_of_read?_eq_none (h t)
  rw [List.cons_append, hsplit, hs t]
  rfl

section Sequence
variable {ι : Type} {bs : List ι} {f rest : ι → Text} {part : ι → Option α}
  (h : ∀ b ∈ bs, p.Splits (f b) (part b) (rest b))
include h

theorem split_flatMap : p.split (bs.flatMap f) =
    bs.flatMap fun b => (part b).toList.map .inr ++ (rest b).map .inl := by
  induction bs with
  | nil =>
    rw [List.flatMap_nil, List.flatMap_nil, split]
  | cons b bs ih =>
    rw [List.flatMap_cons, List.flatMap_cons, h b (by simp),
      ih fun c hc => h c (List.mem_cons_of_mem b hc)]

theorem replace_flatMap (g : α → Text) : p.replace g (bs.flatMap f) =
    bs.flatMap fun b => ((part b).map g).getD [] ++ rest b := by
  rw [replace, split_flatMap h, List.flatMap_assoc]
  refine congrArg (bs.flatMap ·) (funext fun b => ?_)
  cases part b <;> simp [List.flatMap_map, image]

theorem parts_flatMap : p.parts (bs.flatMap f) = bs.filterMap part := by
  rw [parts, split_flatMap h, List.filterMap_flatMap, List.filterMap_eq_flatMap_toList]
  refine congrArg (bs.flatMap ·) (funext fun b => ?_)
  cases part b <;> simp [List.filterMap_map, Function.comp_def]

end Sequence

end Splits

/-- A part is read somewhere in the text. -/
theorem exists_read?_of_mem_parts {s : Text} {a : α} (h : a ∈ p.parts s) :
    ∃ before after rest, s = before ++ after ∧ p.read? after = some (a, rest) := by
  rw [parts] at h
  fun_induction p.split s with
  | case1 => simp at h
  | case2 c t b rest hread ih =>
    rw [List.filterMap_cons, Sum.getRight?_inr, List.mem_cons] at h
    rcases h with rfl | h
    · exact ⟨[], _, rest, rfl, hread⟩
    · obtain ⟨before, after, rest', rfl, hread'⟩ := ih h
      exact ⟨p.spell b ++ before, after, rest', by rw [p.eq_append_of_read? hread, List.append_assoc],
        hread'⟩
  | case3 c t hread ih =>
    rw [List.filterMap_cons, Sum.getRight?_inl] at h
    obtain ⟨before, after, rest', rfl, hread'⟩ := ih h
    exact ⟨c :: before, after, rest', rfl, hread'⟩

/-! ## Replacements -/

section Replace
variable {p} {f : α → Text} {key s rest : Text} {a : α} {c : Char}

theorem replace_of_read? (h : p.read? s = some (a, rest)) :
    p.replace f s = f a ++ p.replace f rest := by
  rw [replace, p.split_of_read? h]
  rfl

theorem replace_of_read?_eq_none (h : p.read? (c :: s) = none) :
    p.replace f (c :: s) = c :: p.replace f s := by
  rw [replace, p.split_of_read?_eq_none h]
  rfl

theorem replace_nil : p.replace f [] = [] := by
  rw [replace, split]
  rfl

theorem parts_of_read? (h : p.read? s = some (a, rest)) : p.parts s = a :: p.parts rest := by
  rw [parts, p.split_of_read? h]
  rfl

theorem parts_of_read?_eq_none (h : p.read? (c :: s) = none) : p.parts (c :: s) = p.parts s := by
  rw [parts, p.split_of_read?_eq_none h]
  rfl

theorem StartsWith.read?_cons_ne (hp : p.StartsWith ('<' :: key)) (hc : c ≠ '<') (s : Text) :
    p.read? (c :: s) = none :=
  hp _ (dropAffix?_cons_ne hc.symm key s)

/-- Characters other than angle brackets are left as they are. -/
theorem StartsWith.replace_append (hp : p.StartsWith ('<' :: key)) {front : Text}
    (hfront : '<' ∉ front) (s : Text) : p.replace f (front ++ s) = front ++ p.replace f s := by
  induction front with
  | nil => rfl
  | cons c front ih =>
    rw [List.mem_cons, not_or] at hfront
    rw [List.cons_append, replace_of_read?_eq_none (hp.read?_cons_ne (Ne.symm hfront.1) _), ih hfront.2,
      List.cons_append]

theorem StartsWith.parts_append (hp : p.StartsWith ('<' :: key)) {front : Text} (hfront : '<' ∉ front)
    (s : Text) : p.parts (front ++ s) = p.parts s := by
  induction front with
  | nil => rfl
  | cons c front ih =>
    rw [List.mem_cons, not_or] at hfront
    rw [List.cons_append, parts_of_read?_eq_none (hp.read?_cons_ne (Ne.symm hfront.1) _), ih hfront.2]

end Replace

end Pattern

end Slideshow
