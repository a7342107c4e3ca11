import Slideshow.Proofs.SelfContainedPasses

/-!
# Parts that are rewritten

Where the parts of a text are replaced by texts that themselves start with an angle bracket, no part
comes up that was none before. So what a pattern finds in the new text is what it finds in the
replacements. An image whose address is replaced is found again, with the new address up to its first
quote.
-/
namespace Slideshow
open Text Forest

/-- Whether a character is met in a text. -/
theorem Text.dropAffix?_dropWhile_eq_none_iff {c : Char} {s : Text} :
    dropAffix? [c] (s.dropWhile (· ≠ c)) = none ↔ c ∉ s := by
  induction s with
  | nil => simp [dropAffix?]
  | cons d s ih =>
    by_cases hd : d = c
    · simp [hd, dropAffix?]
    · simpa [hd, Ne.symm hd] using ih

/-! ## Patterns -/

namespace Pattern
variable {α : Type} {p : Pattern α} {f : α → Text} {key s rest : Text} {a : α} {c : Char}

theorem StartsWith.head_of_read? (hp : p.StartsWith ('<' :: key))
    (h : p.read? (c :: s) = some (a, rest)) : c = '<' := by
  by_contra hc
  simp [hp.read?_cons_ne hc] at h

theorem StartsWith.head?_replace (hp : p.StartsWith ('<' :: key))
    (hf : ∀ a, (f a).head? = some '<') (s : Text) : (p.replace f s).head? = s.head? := by
  cases s with
  | nil => rw [replace_nil]
  | cons c s =>
    cases hread : p.read? (c :: s) with
    | some found =>
      obtain ⟨a, rest⟩ := found
      rw [replace_of_read? hread, List.head?_append, hf, hp.head_of_read? hread]
      rfl
    | none =>
      rw [replace_of_read?_eq_none hread]
      rfl

/-- Whether a text starts with a key that has no angle bracket is not changed. -/
theorem StartsWith.dropAffix?_replace (hp : p.StartsWith ('<' :: key))
    (hf : ∀ a, (f a).head? = some '<') {affix : Text} (haffix : '<' ∉ affix) (s : Text) :
    dropAffix? affix (p.replace f s) = (dropAffix? affix s).map (p.replace f) := by
  induction affix generalizing s with
  | nil => rfl
  | cons d affix ih =>
    obtain ⟨hd, haffix⟩ := not_or.1 (mt List.mem_cons.2 haffix)
    cases s with
    | nil => simp [replace_nil, dropAffix?]
    | cons c s =>
      cases hread : p.read? (c :: s) with
      | some found =>
        obtain ⟨a, rest⟩ := found
        obtain rfl := hp.head_of_read? hread
        obtain ⟨t, ht⟩ := List.head?_eq_some_iff.1 (hf a)
        rw [replace_of_read? hread, ht, List.cons_append, dropAffix?_cons_ne (Ne.symm hd),
          dropAffix?_cons_ne (Ne.symm hd)]
        rfl
      | none =>
        rw [replace_of_read?_eq_none hread]
        by_cases hdc : d = c
        · simp [dropAffix?, hdc, ih haffix]
        · simp [dropAffix?_cons_ne hdc]

/-- The same of a key that starts with an angle bracket, if neither a part nor what replaces it starts
with that key. -/
theorem StartsWith.dropAffix?_replace_bracket (hp : p.StartsWith ('<' :: key))
    (hf : ∀ a, (f a).head? = some '<') {affix : Text} (haffix : '<' ∉ affix)
    (hpart : ∀ t, p.read? ('<' :: (affix ++ t)) = none)
    (himage : ∀ a t, dropAffix? ('<' :: affix) (f a ++ t) = none) (s : Text) :
    dropAffix? ('<' :: affix) (p.replace f s) = (dropAffix? ('<' :: affix) s).map (p.replace f) := by
  cases s with
  | nil => simp [replace_nil, dropAffix?]
  | cons c s =>
    cases hread : p.read? (c :: s) with
    | some found =>
      obtain ⟨a, rest⟩ := found
      rw [replace_of_read? hread, himage, eq_comm, Option.map_eq_none_iff,
        Option.eq_none_iff_forall_ne_some]
      intro t ht
      rw [dropAffix?_eq_some_iff.1 ht, List.cons_append, hpart] at hread
      cases hread
    | none =>
      rw [replace_of_read?_eq_none hread]
      by_cases hc : '<' = c
      · subst hc
        simp [dropAffix?, hp.dropAffix?_replace hf haffix]
      · simp [dropAffix?_cons_ne hc]

/-- Where no part is replaced by a character, it comes from the text. -/
theorem mem_of_mem_replace (hf : ∀ s a rest, p.read? s = some (a, rest) → c ∉ f a)
    (h : c ∈ p.replace f s) : c ∈ s := by
  induction s using Pattern.split.induct p with
  | case1 => rwa [replace_nil] at h
  | case2 d t a rest hread ih =>
    rw [replace_of_read? hread] at h
    rw [p.eq_append_of_read? hread]
    exact List.mem_append_right _ (ih ((List.mem_append.1 h).resolve_left (hf _ a rest hread)))
  | case3 d t hread ih =>
    rw [replace_of_read?_eq_none hread, List.mem_cons] at h
    exact List.mem_cons.2 (h.imp_right ih)

section Rewriting
variable {k : α → List (Char ⊕ α)}
  (hletter : ∀ c s, p.read? (c :: s) = none → p.read? (c :: p.replace f s) = none)
  (hpart : ∀ s a rest, p.read? s = some (a, rest) → ∀ t, p.split (f a ++ t) = k a ++ p.split t)
include hletter hpart

/-- What a new text splits into. -/
theorem split_replace (s : Text) :
    p.split (p.replace f s) = (p.split s).flatMap (Sum.elim (fun c => [.inl c]) k) := by
  fun_induction p.split s with
  | case1 => rw [replace_nil, split]; rfl
  | case2 c t a rest hread ih =>
    rw [replace_of_read? hread, hpart _ a rest hread, ih]
    rfl
  | case3 c t hread ih =>
    rw [replace_of_read?_eq_none hread, p.split_of_read?_eq_none (hletter c t hread), ih]
    rfl

theorem parts_replace (s : Text) :
    p.parts (p.replace f s) = (p.parts s).flatMap fun a => (k a).filterMap Sum.getRight? := by
  rw [parts, split_replace hletter hpart, List.filterMap_flatMap, parts]
  induction p.split s with
  | nil => rfl
  | cons x xs ih =>
    rw [List.flatMap_cons, ih]
    cases x with
    | inl c => rfl
    | inr a => rfl

/-- Parts that are replaced by what is left as it is are replaced once. -/
theorem replace_replace
    (hfixed : ∀ s a rest, p.read? s = some (a, rest) → (k a).flatMap (image f) = f a) (s : Text) :
    p.replace f (p.replace f s) = p.replace f s := by
  calc
    p.replace f (p.replace f s) = (p.split s).flatMap fun x =>
        (Sum.elim (fun c => [.inl c]) k x).flatMap (image f) := by
      rw [replace, split_replace hletter hpart, List.flatMap_assoc]
    _ = p.replace f s := by
      rw [replace]
      fun_induction p.split s with
      | case1 => rfl
      | case2 c t a rest hread ih =>
        rw [List.flatMap_cons, List.flatMap_cons, ih]
        exact congrArg (· ++ _) (hfixed _ a rest hread)
      | case3 c t hread ih =>
        rw [List.flatMap_cons, List.flatMap_cons, ih]
        rfl

end Rewriting

end Pattern

/-! ## Images -/

namespace Pass
variable {before c : Char} {s rest : Text} {i : Image} {g : Image → Text}

/-- An image with another address, as it is spelled. -/
def Image.readdressed (g : Image → Text) (i : Image) : Text := ({ i with address := g i } : Image).spell

theorem Image.head?_readdressed (g : Image → Text) (i : Image) :
    (i.readdressed g).head? = some '<' := by
  simp [Image.readdressed, Image.spell]

/-- Behind the first address attribute there is no quote, if there is one at all. -/
def HasNoAddress (before : Char) (s : Text) : Prop :=
  ∀ opening rest, cutAtAddress? before s = some (opening, rest) → '"' ∉ rest

/-- An address attribute that is not the end of a longer word. -/
def atAddress? (before : Char) (s : Text) : Option Text :=
  if isWord before then none else dropAffix? "src=\"" s

theorem cutAtAddress?_cons (before c : Char) (s : Text) : cutAtAddress? before (c :: s) =
    match atAddress? before (c :: s) with
    | some rest => some ([], rest)
    | none => if c = '>' then none else (cutAtAddress? c s).map fun p => (c :: p.1, p.2) := rfl

theorem hasNoAddress_of_atAddress? (h : atAddress? before (c :: s) = some rest) :
    HasNoAddress before (c :: s) ↔ '"' ∉ rest := by
  simp [HasNoAddress, cutAtAddress?_cons, h]

theorem hasNoAddress_cons (h : atAddress? before (c :: s) = none) :
    HasNoAddress before (c :: s) ↔ c = '>' ∨ HasNoAddress c s := by
  by_cases hclose : c = '>'
  · subst hclose
    simp [HasNoAddress, cutAtAddress?_cons, h]
  · simp only [HasNoAddress, cutAtAddress?_cons, h, hclose, if_false, false_or]
    constructor
    · intro hall opening rest hcut
      exact hall (c :: opening) rest (by rw [hcut]; rfl)
    · intro hall opening rest hcut
      obtain ⟨⟨front, behind⟩, hfront, he⟩ := Option.map_eq_some_iff.1 hcut
      obtain ⟨rfl, rfl⟩ := Prod.mk.inj he
      exact hall front behind hfront

theorem hasNoAddress_cons_ne (hkey : c ≠ 's') (hclose : c ≠ '>') :
    HasNoAddress before (c :: s) ↔ HasNoAddress c s := by
  have hnone : atAddress? before (c :: s) = none := by
    rw [atAddress?]
    split
    · rfl
    · simp [dropAffix?_cons_ne hkey.symm]
  rw [hasNoAddress_cons hnone, or_iff_right hclose]

theorem Image.read?_eq_none_iff : Image.pattern.read? s = none ↔
    ∀ t, dropAffix? "<img" s = some t → t.head?.any isWord ∨ HasNoAddress 'g' t := by
  have hquote : ("\"" : Text) = ['"'] := by simp
  simp only [Image.pattern, Option.bind_eq_bind, Option.bind_eq_none_iff]
  refine forall₂_congr fun t _ => ?_
  split
  · next hword => simp [hword]
  · next hword =>
    rw [or_iff_right hword]
    simp only [HasNoAddress, Option.bind_eq_none_iff, Prod.forall, reduceCtorEq, imp_false,
      ← Option.eq_none_iff_forall_ne_some, hquote, dropAffix?_dropWhile_eq_none_iff]

/-- An image has an address for every tag that starts in front of it. -/
theorem not_hasNoAddress_of_read? (h : Image.pattern.read? s = some (i, rest)) :
    ¬HasNoAddress before s := by
  intro hnone
  have hread : Image.pattern.read? s = none := by
    rw [Image.read?_eq_none_iff]
    intro t ht
    obtain rfl := dropAffix?_eq_some_iff.1 ht
    right
    simpa [hasNoAddress_cons_ne] using hnone
  simp [h] at hread

theorem replace_of_quote_not_mem (h : '"' ∉ s) (f : Image → Text) : Image.pattern.replace f s = s := by
  refine Image.pattern.replace_of_parts_eq_nil (List.eq_nil_iff_forall_not_mem.2 fun i hi => ?_)
  obtain ⟨before, after, rest, rfl, hread⟩ := Image.standsIn_of_mem_parts hi
  simp [Image.pattern.eq_append_of_read? hread, Image.pattern, Image.spell] at h

theorem HasNoAddress.replace (h : HasNoAddress before s) :
    HasNoAddress before (Image.pattern.replace (Image.readdressed g) s) := by
  induction s using Pattern.split.induct Image.pattern generalizing before with
  | case1 => rwa [Pattern.replace_nil]
  | case2 c t i rest hread ih => exact absurd h (not_hasNoAddress_of_read? hread)
  | case3 c t hread ih =>
    cases hkey : atAddress? before (c :: t) with
    | some rest =>
      have hrest := (hasNoAddress_of_atAddress? hkey).1 h
      have hkept : Image.pattern.replace (Image.readdressed g) (c :: t) = c :: t := by
        rw [atAddress?, Option.ite_none_left_eq_some, dropAffix?_eq_some_iff] at hkey
        rw [hkey.2, startsWith_image.replace_append (by simp), replace_of_quote_not_mem hrest]
      rwa [hkept]
    | none =>
      rw [hasNoAddress_cons hkey] at h
      have hnone : atAddress? before (c :: Image.pattern.replace (Image.readdressed g) t) = none := by
        rw [atAddress?, ite_eq_left_iff] at hkey ⊢
        intro hword
        rw [← Pattern.replace_of_read?_eq_none hread,
          startsWith_image.dropAffix?_replace (Image.head?_readdressed g) (by simp), hkey hword]
        rfl
      rw [Pattern.replace_of_read?_eq_none hread, hasNoAddress_cons hnone]
      exact h.imp_right ih

theorem Image.read?_cons_replace (h : Image.pattern.read? (c :: s) = none) :
    Image.pattern.read? (c :: Image.pattern.replace (Image.readdressed g) s) = none := by
  rw [Image.read?_eq_none_iff] at h ⊢
  intro t ht
  obtain ⟨rfl, hs⟩ : c = '<' ∧ Image.pattern.replace (Image.readdressed g) s = "img" ++ t := by
    simpa using dropAffix?_eq_some_iff.1 ht
  have hdrop := startsWith_image.dropAffix?_replace (Image.head?_readdressed g)
    (show '<' ∉ ("img" : Text) by simp) s
  rw [hs, dropAffix?_append] at hdrop
  obtain ⟨u, hu, rfl⟩ := Option.map_eq_some_iff.1 hdrop.symm
  obtain rfl := dropAffix?_eq_some_iff.1 hu
  rw [startsWith_image.head?_replace (Image.head?_readdressed g)]
  exact (h u (by simp [dropAffix?])).imp_right HasNoAddress.replace

/-- What stands between the first quote of an address and the quote behind the address. -/
def addressRest (address : Text) : Text := ((address ++ ['"']).dropWhile (· ≠ '"')).tail

theorem takeWhile_append_addressRest (address : Text) :
    address.takeWhile (· ≠ '"') ++ '"' :: addressRest address = address ++ ['"'] := by
  induction address with
  | nil => rfl
  | cons c address ih =>
    by_cases hc : c = '"'
    · simp [addressRest, hc]
    · simpa [addressRest, hc] using ih

theorem mem_addressRest {address : Text} (h : c ∈ addressRest address) :
    c ∈ address.dropWhile (· ≠ '"') ∨ c = '"' := by
  induction address with
  | nil => simp [addressRest] at h
  | cons d address ih =>
    by_cases hd : d = '"'
    · simpa [addressRest, hd, or_assoc, or_comm] using h
    · simpa [addressRest, hd] using ih (by simpa [addressRest, hd] using h)

theorem Image.readdressed_eq (g : Image → Text) (i : Image) : i.readdressed g =
    ({ i with address := (g i).takeWhile (· ≠ '"') } : Image).spell ++ addressRest (g i) := by
  calc
    i.readdressed g = "<img" ++ i.opening ++ "src=\"" ++ (g i ++ ['"']) := by
      simp [Image.readdressed, Image.spell]
    _ = _ := by
      rw [← takeWhile_append_addressRest]
      simp [Image.spell]

/-- An image with another address is found again, with the address up to its first quote. -/
theorem Image.split_readdressed (h : Image.pattern.read? s = some (i, rest))
    (hbracket : '<' ∉ (g i).dropWhile (· ≠ '"')) (t : Text) :
    Image.pattern.split (i.readdressed g ++ t) =
      .inr { i with address := (g i).takeWhile (· ≠ '"') } :: (addressRest (g i)).map .inl ++
        Image.pattern.split t := by
  have hquote : '"' ∉ (g i).takeWhile (· ≠ '"') := fun hmem => by
    simpa using List.mem_takeWhile_imp hmem
  have hrest : '<' ∉ addressRest (g i) := fun hmem => (mem_addressRest hmem).elim hbracket (by simp)
  rw [Image.readdressed_eq, List.append_assoc,
    Image.pattern.split_of_read? ((Image.of_read? h).2.2 _ _ hquote),
    Pattern.Splits.of_atBrackets startsWith_image (.of_not_mem hrest) t]
  rfl

section Rewriting
variable (hbracket : ∀ s i rest, Image.pattern.read? s = some (i, rest) →
  '<' ∉ (g i).dropWhile (· ≠ '"'))
include hbracket

/-- The images of a text whose addresses have been replaced. -/
theorem Image.parts_readdressed (s : Text) :
    Image.pattern.parts (Image.pattern.replace (Image.readdressed g) s) =
      (Image.pattern.parts s).map fun i => { i with address := (g i).takeWhile (· ≠ '"') } := by
  rw [Pattern.parts_replace (fun _ _ => Image.read?_cons_replace)
    fun s i rest hread => Image.split_readdressed hread (hbracket s i rest hread),
    List.map_eq_flatMap]
  refine congrArg (List.flatMap · _) (funext fun i => ?_)
  simp [List.filterMap_map, Function.comp_def]

/-- Addresses that are left as they are when they are met again are replaced once. -/
theorem Image.replace_readdressed (hfixed : ∀ s i rest, Image.pattern.read? s = some (i, rest) →
      g { i with address := (g i).takeWhile (· ≠ '"') } = (g i).takeWhile (· ≠ '"')) (s : Text) :
    Image.pattern.replace (Image.readdressed g) (Image.pattern.replace (Image.readdressed g) s) =
      Image.pattern.replace (Image.readdressed g) s := by
  refine Pattern.replace_replace (fun _ _ => Image.read?_cons_replace)
    (fun s i rest hread => Image.split_readdressed hread (hbracket s i rest hread))
    (fun s i rest hread => ?_) s
  have himage : Pattern.image (Image.readdressed g)
      (.inr { i with address := (g i).takeWhile (· ≠ '"') }) =
        ({ i with address := (g i).takeWhile (· ≠ '"') } : Image).spell := by
    rw [Pattern.image, Image.readdressed, hfixed s i rest hread]
  have hrest : ((addressRest (g i)).map Sum.inl).flatMap (Pattern.image (Image.readdressed g)) =
      addressRest (g i) := by
    simp [List.flatMap_map, Pattern.image]
  rw [List.flatMap_cons, himage, hrest, ← Image.readdressed_eq]

end Rewriting

end Pass

end Slideshow
