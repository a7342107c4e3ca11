import Slideshow.Outline
import Slideshow.Proofs.OutlineParents
import Mathlib

/-!
# Dashes among the sections

A slide without a title, or one whose heading is too deep, stands in the outline as a dash on level
one. A dash takes part in the outline like any other entry, so it gathers the deeper sections right
behind it: what is below an entry is the run of deeper entries that follows it.
-/
namespace Slideshow.Outline

open Node (entriesOf parentsOf)

/-! ## The entries below an entry -/

/-- The entry at a place stands below the one at place `k`, by the places of the parents. -/
inductive IsBelow (parents : List (Option Nat)) (k : Nat) : Nat → Prop
  | child {i : Nat} : parents[i]? = some (some k) → IsBelow parents k i
  | deeper {i j : Nat} : IsBelow parents k j → parents[i]? = some (some j) → IsBelow parents k i

private theorem exists_parent {es : List Entry} {i : Nat} {e : Entry} (h : es[i]? = some e) :
    ∃ p, (parentsOf none 0 (ofEntries es))[i]? = some p ∧ IsLastBelow e.level (es.take i) p :=
  ⟨_, getElem?_parentsOf_built h, isLastBelow_openBelow _ _⟩

private theorem exists_entry_of_parent {es : List Entry} {i : Nat} {p : Option Nat}
    (h : (parentsOf none 0 (ofEntries es))[i]? = some p) :
    ∃ e, es[i]? = some e ∧ IsLastBelow e.level (es.take i) p := by
  have hlen : (parentsOf none 0 (ofEntries es)).length = es.length := by
    rw [length_parentsOf]
    exact congrArg List.length (entriesOf_built es)
  have hi : i < es.length := by
    rw [← hlen]
    exact (List.getElem?_eq_some_iff.1 h).1
  have he : es[i]? = some es[i] := List.getElem?_eq_getElem hi
  obtain ⟨q, hq, hlast⟩ := exists_parent he
  rw [h] at hq
  cases Option.some.inj hq
  exact ⟨es[i], he, hlast⟩

/-- The parent is an earlier entry of a lower level, and those between are not lower. -/
private theorem isLastBelow_take_iff {es : List Entry} {level i j : Nat} :
    IsLastBelow level (es.take i) (some j) ↔ j < i ∧ (∃ e, es[j]? = some e ∧ e.level < level) ∧
      ∀ m e, j < m → m < i → es[m]? = some e → level ≤ e.level := by
  have hget : ∀ m e, (es.take i)[m]? = some e ↔ m < i ∧ es[m]? = some e := by
    intro m e
    rw [List.getElem?_take]
    split <;> simp [*]
  simp only [IsLastBelow, hget]
  constructor
  · rintro ⟨⟨e, ⟨hj, he⟩, hlevel⟩, hbetween⟩
    exact ⟨hj, ⟨e, he, hlevel⟩, fun m f hjm hm hf => hbetween m f hjm ⟨hm, hf⟩⟩
  · rintro ⟨hj, ⟨e, he, hlevel⟩, hbetween⟩
    exact ⟨⟨e, ⟨hj, he⟩, hlevel⟩, fun m f hjm hf => hbetween m f hjm hf.1 hf.2⟩

/-- From the place behind a parent on, all entries up to its child are deeper than the parent. -/
private theorem exists_deeper_of_parent {es : List Entry} {i j : Nat}
    (h : (parentsOf none 0 (ofEntries es))[i]? = some (some j)) :
    j < i ∧ ∃ e, es[j]? = some e ∧
      ∀ m, j < m → m ≤ i → ∃ f, es[m]? = some f ∧ e.level < f.level := by
  obtain ⟨g, hg, hlast⟩ := exists_entry_of_parent h
  obtain ⟨hji, ⟨e, he, hlow⟩, hbetween⟩ := isLastBelow_take_iff.1 hlast
  refine ⟨hji, e, he, fun m hjm hmi => ?_⟩
  rcases Nat.lt_or_eq_of_le hmi with hlt | rfl
  · have hm : m < es.length := Nat.lt_trans hlt (List.getElem?_eq_some_iff.1 hg).1
    have hlevel := hbetween m es[m] hjm hlt (List.getElem?_eq_getElem hm)
    exact ⟨es[m], List.getElem?_eq_getElem hm, Nat.lt_of_lt_of_le hlow hlevel⟩
  · exact ⟨g, hg, hlow⟩

/-- Below an entry is the run of entries behind it that have higher levels. -/
theorem isBelow_iff {es : List Entry} {k i : Nat} {e : Entry} (hk : es[k]? = some e) :
    IsBelow (parentsOf none 0 (ofEntries es)) k i ↔
      k < i ∧ ∀ m, k < m → m ≤ i → ∃ f, es[m]? = some f ∧ e.level < f.level := by
  constructor
  · intro h
    induction h with
    | child hi =>
      obtain ⟨hki, e', he', hrun⟩ := exists_deeper_of_parent hi
      cases Option.some.inj (hk.symm.trans he')
      exact ⟨hki, hrun⟩
    | @deeper i j _ hi ih =>
      obtain ⟨hkj, hrun⟩ := ih
      obtain ⟨hji, g, hg, hdeeper⟩ := exists_deeper_of_parent hi
      obtain ⟨g', hg', hj⟩ := hrun j hkj (Nat.le_refl j)
      cases Option.some.inj (hg.symm.trans hg')
      refine ⟨Nat.lt_trans hkj hji, fun m hkm hmi => ?_⟩
      rcases Nat.lt_or_ge j m with hjm | hmj
      · obtain ⟨f, hf, hlevel⟩ := hdeeper m hjm hmi
        exact ⟨f, hf, Nat.lt_trans hj hlevel⟩
      · exact hrun m hkm hmj
  · intro h
    -- the parent of `i` is at `k` or behind it, since the entry at `k` is lower than that at `i`
    induction i using Nat.strong_induction_on with
    | _ i ih =>
      obtain ⟨hki, hrun⟩ := h
      obtain ⟨f, hf, hlow⟩ := hrun i hki (Nat.le_refl i)
      obtain ⟨p, hp, hlast⟩ := exists_parent hf
      cases p with
      | none =>
        have hmem : e ∈ es.take i := List.mem_of_getElem? (i := k) (by
          rw [List.getElem?_take_of_lt hki]
          exact hk)
        have := hlast e hmem
        omega
      | some j =>
        obtain ⟨hji, -, hbetween⟩ := isLastBelow_take_iff.1 hlast
        rcases Nat.lt_trichotomy j k with hjk | rfl | hkj
        · have := hbetween k e hjk hki hk
          omega
        · exact .child hp
        · exact .deeper (ih j hji ⟨hkj, fun m hkm hmj => hrun m hkm (by omega)⟩) hp

/-! ## Sections and dashes -/

/-- A slide is a section of a level: it has a title, and its heading is not too deep. -/
def IsSection (deepest : Nat) (s : Slide) (level : Nat) : Prop :=
  s.displayTitle.isSome ∧ s.level = some level ∧ level ≤ deepest

/-- A slide that is no section stands in the outline as a dash. -/
def IsDash (deepest : Nat) (s : Slide) : Prop := ∀ level, ¬IsSection deepest s level

/-- The place of the last section whose level is lower than the given one. -/
def IsLastSectionBelow (deepest level : Nat) (slides : List Slide) : Option Nat → Prop
  | none => ∀ s ∈ slides, ∀ l, IsSection deepest s l → level ≤ l
  | some j => (∃ s l, slides[j]? = some s ∧ IsSection deepest s l ∧ l < level) ∧
      ∀ m s l, j < m → slides[m]? = some s → IsSection deepest s l → level ≤ l

/-- The place of the last dash. -/
def IsLastDash (deepest : Nat) (slides : List Slide) (j : Nat) : Prop :=
  (∃ s, slides[j]? = some s ∧ IsDash deepest s) ∧
    ∀ m s, j < m → slides[m]? = some s → ¬IsDash deepest s

section
variable {deepest : Nat} {s : Slide}

theorem level_entryOf_of_isSection {level : Nat} (h : IsSection deepest s level) :
    (entryOf deepest s).level = level := by
  obtain ⟨htitle, hlevel, hle⟩ := h
  obtain ⟨title, htitle⟩ := Option.isSome_iff_exists.1 htitle
  simp [entryOf, htitle, hlevel, hle]

theorem entryOf_of_isDash (h : IsDash deepest s) : entryOf deepest s = ⟨"-", 1, s.number⟩ := by
  unfold entryOf
  split
  · next title level htitle hlevel =>
    rw [if_neg]
    intro hle
    exact h level ⟨by simp [htitle], hlevel, hle⟩
  · rfl

theorem isSection_or_isDash (deepest : Nat) (s : Slide) :
    IsSection deepest s (entryOf deepest s).level ∨ IsDash deepest s := by
  by_cases h : ∃ level, IsSection deepest s level
  · obtain ⟨level, h⟩ := h
    rw [level_entryOf_of_isSection h]
    exact .inl h
  · exact .inr (not_exists.1 h)

/-- An entry above level one is that of a section. -/
theorem isSection_of_one_lt (h : 1 < (entryOf deepest s).level) :
    IsSection deepest s (entryOf deepest s).level := by
  rcases isSection_or_isDash deepest s with hs | hs
  · exact hs
  · rw [entryOf_of_isDash hs] at h
    exact absurd h (Nat.lt_irrefl 1)

end

/-! ## The parent of a section -/

theorem isLastBelow_unique {level : Nat} {es : List Entry} {p q : Option Nat}
    (hp : IsLastBelow level es p) (hq : IsLastBelow level es q) : p = q := by
  have hlast : ∀ {i j : Nat}, IsLastBelow level es (some i) → IsLastBelow level es (some j) →
      i ≤ j := by
    intro i j hi hj
    obtain ⟨⟨e, he, hlow⟩, -⟩ := hi
    by_contra hlt
    have := hj.2 i e (by omega) he
    omega
  have hnone : ∀ {i : Nat}, IsLastBelow level es none → ¬IsLastBelow level es (some i) := by
    intro i hall hi
    obtain ⟨⟨e, he, hlow⟩, -⟩ := hi
    have := hall e (List.mem_of_getElem? he)
    omega
  cases p with
  | none =>
    cases q with
    | none => rfl
    | some j => exact absurd hq (hnone hp)
  | some i =>
    cases q with
    | none => exact absurd hp (hnone hq)
    | some j => rw [Nat.le_antisymm (hlast hp hq) (hlast hq hp)]

/-- Of the places that have a property, one is the last. -/
private theorem exists_last {n j : Nat} {P : Nat → Prop} (hj : j < n) (h : P j) :
    ∃ k, j ≤ k ∧ k < n ∧ P k ∧ ∀ m, k < m → m < n → ¬P m := by
  classical
  have hle : j ≤ n - 1 := by omega
  refine ⟨Nat.findGreatest P (n - 1), Nat.le_findGreatest hle h, ?_, Nat.findGreatest_spec hle h, ?_⟩
  · have := Nat.findGreatest_le (P := P) (n - 1)
    omega
  · intro m hm hlt
    exact Nat.findGreatest_is_greatest hm (by omega)

section
variable {deepest level : Nat} {slides : List Slide}

theorem exists_isLastSectionBelow (deepest level : Nat) (slides : List Slide) :
    ∃ p, IsLastSectionBelow deepest level slides p := by
  by_cases h : ∃ (j : Nat) (s : Slide) (l : Nat), slides[j]? = some s ∧ IsSection deepest s l ∧ l < level
  · obtain ⟨j, hj⟩ := h
    have hlt : j < slides.length := by
      obtain ⟨s, l, hs, -⟩ := hj
      exact (List.getElem?_eq_some_iff.1 hs).1
    obtain ⟨k, -, -, hk, hlast⟩ := exists_last (P := fun j => ∃ s l, slides[j]? = some s ∧
      IsSection deepest s l ∧ l < level) hlt hj
    refine ⟨some k, hk, fun m s l hkm hs hsection => ?_⟩
    by_contra hlow
    exact hlast m hkm (List.getElem?_eq_some_iff.1 hs).1 ⟨s, l, hs, hsection, by omega⟩
  · refine ⟨none, fun s hs l hsection => ?_⟩
    obtain ⟨j, hj⟩ := List.mem_iff_getElem?.1 hs
    by_contra hlow
    exact h ⟨j, s, l, hj, hsection, by omega⟩

theorem exists_isLastDash {m : Nat} {s : Slide} (hm : slides[m]? = some s)
    (hs : IsDash deepest s) : ∃ k, m ≤ k ∧ IsLastDash deepest slides k := by
  obtain ⟨k, hmk, -, hk, hlast⟩ := exists_last (P := fun k => ∃ s, slides[k]? = some s ∧
    IsDash deepest s) (List.getElem?_eq_some_iff.1 hm).1 ⟨s, hm, hs⟩
  exact ⟨k, hmk, hk, fun l t hkl ht hdash =>
    hlast l hkl (List.getElem?_eq_some_iff.1 ht).1 ⟨t, ht, hdash⟩⟩

/-- The last section below a level is the last entry below it if no dash behind it is as low. -/
theorem IsLastSectionBelow.isLastBelow {q : Option Nat}
    (h : IsLastSectionBelow deepest level slides q)
    (hdash : level ≤ 1 ∨ ∀ m s, slides[m]? = some s → IsDash deepest s → ∃ j, q = some j ∧ m < j) :
    IsLastBelow level (slides.map (entryOf deepest)) q := by
  -- a dash is at least as high as the level, or it stands before the section
  have hlevel : ∀ m s, slides[m]? = some s → (∀ l, IsSection deepest s l → level ≤ l) →
      (∀ j, q = some j → j < m) → level ≤ (entryOf deepest s).level := by
    intro m s hs hsection hbehind
    rcases isSection_or_isDash deepest s with hsec | hdsh
    · exact hsection _ hsec
    · rcases hdash with hlow | hdash
      · rw [entryOf_of_isDash hdsh]
        exact hlow
      · obtain ⟨j, hq, hmj⟩ := hdash m s hs hdsh
        have := hbehind j hq
        omega
  cases q with
  | none =>
    intro e he
    obtain ⟨s, hs, rfl⟩ := List.mem_map.1 he
    obtain ⟨m, hm⟩ := List.mem_iff_getElem?.1 hs
    exact hlevel m s hm (h s hs) (by simp)
  | some j =>
    obtain ⟨⟨s, l, hs, hsection, hlow⟩, hlast⟩ := h
    refine ⟨⟨entryOf deepest s, by simp [hs], ?_⟩, ?_⟩
    · rw [level_entryOf_of_isSection hsection]
      exact hlow
    · intro m e hjm he
      obtain ⟨t, ht, rfl⟩ := Option.map_eq_some_iff.1 (List.getElem?_map .. ▸ he)
      exact hlevel m t ht (fun l => hlast m t l hjm ht) (by simpa using hjm)

/-- Behind the last section below a level, the last dash is the last entry below it. -/
theorem IsLastDash.isLastBelow {q : Option Nat} {k : Nat} (h : IsLastDash deepest slides k)
    (hq : IsLastSectionBelow deepest level slides q) (hbehind : ∀ j, q = some j → j ≤ k)
    (hlevel : 1 < level) : IsLastBelow level (slides.map (entryOf deepest)) (some k) := by
  obtain ⟨⟨s, hs, hdash⟩, hlast⟩ := h
  refine ⟨⟨entryOf deepest s, by simp [hs], ?_⟩, ?_⟩
  · rw [entryOf_of_isDash hdash]
    exact hlevel
  · intro m e hkm he
    obtain ⟨t, ht, rfl⟩ := Option.map_eq_some_iff.1 (List.getElem?_map .. ▸ he)
    rcases isSection_or_isDash deepest t with hsection | hdash
    · cases q with
      | none => exact hq t (List.mem_of_getElem? ht) _ hsection
      | some j =>
        have := hbehind j rfl
        exact hq.2 m t _ (by omega) ht hsection
    · exact absurd hdash (hlast m t hkm ht)

end

/-- In the outline of slides, every section stands below the last section of a lower level, unless
it is above level one and a dash stands between them; then it stands below the last dash. Below a
dash is the run of sections above level one right behind it. -/
theorem parents_ofSlides (deepest : Nat) (slides : List Slide) :
    let parents := parentsOf none 0 (ofSlides deepest slides)
    entriesOf (ofSlides deepest slides) = slides.map (entryOf deepest) ∧
      (∀ i s level, slides[i]? = some s → IsSection deepest s level →
        ∃ parent lower, parents[i]? = some parent ∧
          IsLastSectionBelow deepest level (slides.take i) lower ∧
          (parent = lower ↔ level ≤ 1 ∨ ∀ m t, (slides.take i)[m]? = some t → IsDash deepest t →
            ∃ j, lower = some j ∧ m < j) ∧
          (parent ≠ lower → ∃ k, parent = some k ∧ IsLastDash deepest (slides.take i) k)) ∧
      ∀ k s, slides[k]? = some s → IsDash deepest s → ∀ i, IsBelow parents k i ↔
        k < i ∧ ∀ m, k < m → m ≤ i →
          ∃ t level, slides[m]? = some t ∧ IsSection deepest t level ∧ 1 < level := by
  intro parents
  refine ⟨entriesOf_built _, ?_, ?_⟩
  · intro i s level hs hsection
    have he : (slides.map (entryOf deepest))[i]? = some (entryOf deepest s) := by simp [hs]
    obtain ⟨parent, hparent, hlast⟩ := exists_parent he
    rw [level_entryOf_of_isSection hsection, ← List.map_take] at hlast
    obtain ⟨lower, hlower⟩ := exists_isLastSectionBelow deepest level (slides.take i)
    by_cases hnear : level ≤ 1 ∨ ∀ m t, (slides.take i)[m]? = some t → IsDash deepest t →
        ∃ j, lower = some j ∧ m < j
    · have heq := isLastBelow_unique hlast (hlower.isLastBelow hnear)
      exact ⟨parent, lower, hparent, hlower, by simp [heq, hnear], fun h => absurd heq h⟩
    · -- some dash is behind the section, so the last one is
      simp only [not_or, not_forall, Nat.not_le] at hnear
      obtain ⟨hlevel, m, t, ht, hdash, hbefore⟩ := hnear
      obtain ⟨k, hmk, hk⟩ := exists_isLastDash ht hdash
      have hbehind : ∀ j, lower = some j → j ≤ k := by
        intro j hj
        by_contra hlt
        exact hbefore ⟨j, hj, by omega⟩
      have heq := isLastBelow_unique hlast (hk.isLastBelow hlower hbehind hlevel)
      have hne : parent ≠ lower := by
        rintro rfl
        rw [heq] at hlower
        obtain ⟨⟨u, l, hu, hsec, -⟩, -⟩ := hlower
        obtain ⟨⟨v, hv, hdsh⟩, -⟩ := hk
        cases Option.some.inj (hu.symm.trans hv)
        exact hdsh l hsec
      refine ⟨parent, lower, hparent, hlower, ?_, fun _ => ⟨k, heq, hk⟩⟩
      simp only [hne, false_iff, not_or, Nat.not_le]
      exact ⟨hlevel, fun h => hbefore (h m t ht hdash)⟩
  · intro k s hs hdash i
    have hk : (slides.map (entryOf deepest))[k]? = some ⟨"-", 1, s.number⟩ := by
      rw [← entryOf_of_isDash hdash]
      simp [hs]
    rw [show parents = parentsOf none 0 (ofEntries (slides.map (entryOf deepest))) from rfl,
      isBelow_iff hk]
    refine and_congr_right fun _ => forall_congr' fun m => imp_congr_right fun _ =>
      imp_congr_right fun _ => ?_
    constructor
    · rintro ⟨f, hf, hlevel⟩
      obtain ⟨t, ht, rfl⟩ := Option.map_eq_some_iff.1 (List.getElem?_map .. ▸ hf)
      exact ⟨t, _, ht, isSection_of_one_lt hlevel, hlevel⟩
    · rintro ⟨t, level, ht, hsection, hlevel⟩
      refine ⟨entryOf deepest t, by simp [ht], ?_⟩
      rw [level_entryOf_of_isSection hsection]
      exact hlevel

/-- A section, a slide that shows an image only, and a deeper section. -/
def interrupted : List Slide :=
  [{ number := 1, title := some "A", level := some 1, header := some "<h1>A</h1>" },
    { number := 2, content := "<p><img src=\"a.png\" /></p>" },
    { number := 3, title := some "B", level := some 2, header := some "<h2>B</h2>" }]

theorem isSection_interrupted :
    IsSection 2 interrupted[0] 1 ∧ IsDash 2 interrupted[1] ∧ IsSection 2 interrupted[2] 2 := by
  refine ⟨⟨by decide +kernel, rfl, by decide⟩, ?_, ⟨by decide +kernel, rfl, by decide⟩⟩
  intro level h
  exact absurd h.1 (by decide)

theorem parents_of_interrupted :
    ∃ parent lower, (parentsOf none 0 (ofSlides 2 interrupted))[2]? = some parent ∧
      IsLastSectionBelow 2 2 (interrupted.take 2) lower ∧ parent ≠ lower := by
  obtain ⟨-, hparents, -⟩ := parents_ofSlides 2 interrupted
  obtain ⟨parent, lower, hparent, hlower, hiff, -⟩ :=
    hparents 2 interrupted[2] 2 rfl isSection_interrupted.2.2
  refine ⟨parent, lower, hparent, hlower, fun h => ?_⟩
  rcases hiff.1 h with hlevel | hdash
  · exact absurd hlevel (by decide)
  · -- the dash at place one would stand before a section at a later place
    obtain ⟨j, rfl, hj⟩ := hdash 1 interrupted[1] rfl isSection_interrupted.2.1
    obtain ⟨s, l, hs, -⟩ := hlower.1
    have : j < 2 := (List.getElem?_eq_some_iff.1 hs).1
    omega

/-- The deeper section stands below the dash of the image, not below the section before it. -/
theorem interrupted_section_below_dash :
    IsSection 2 interrupted[2] 2 ∧ IsDash 2 interrupted[1] ∧
      ¬(∃ parent, (parentsOf none 0 (ofSlides 2 interrupted))[2]? = some parent ∧
        IsLastSectionBelow 2 2 (interrupted.take 2) parent) ∧
      IsBelow (parentsOf none 0 (ofSlides 2 interrupted)) 1 2 := by
  have hparent : (parentsOf none 0 (ofSlides 2 interrupted))[2]? = some (some 1) := by
    decide +kernel
  refine ⟨isSection_interrupted.2.2, isSection_interrupted.2.1, ?_, .child hparent⟩
  rintro ⟨parent, hp, hlast⟩
  cases Option.some.inj (hparent.symm.trans hp)
  obtain ⟨s, l, hs, hsection, -⟩ := hlast.1
  cases Option.some.inj (show some interrupted[1] = some s from hs)
  exact isSection_interrupted.2.1 l hsection

end Slideshow.Outline
