import Slideshow.Markup.Heading
import Slideshow.Slide.Extract
import Slideshow.Proofs.OutlineParents

/-!
# Depths in an outline

An entry goes below an entry of a lower level only, so levels grow along every path of an outline. A
path is no longer than the level at its end, and the levels of an outline of slides are bounded.
-/
namespace Slideshow.Outline

mutual

/-- The entries of a node with their depths, parents before children. -/
def Node.depths (depth : Nat) : Node → List (Nat × Entry)
  | .mk e cs => (depth, e) :: Node.depthsOf (depth + 1) cs

def Node.depthsOf (depth : Nat) : List Node → List (Nat × Entry)
  | [] => []
  | n :: ns => n.depths depth ++ Node.depthsOf depth ns

end

mutual

/-- The level of a node is above a bound, and those below the node are above its own. -/
def Node.IsAbove (bound : Nat) : Node → Prop
  | .mk e cs => bound < e.level ∧ Node.AreAbove e.level cs

def Node.AreAbove (bound : Nat) : List Node → Prop
  | [] => True
  | n :: ns => n.IsAbove bound ∧ Node.AreAbove bound ns

end

open Node (entriesOf depthsOf IsAbove AreAbove)

mutual

theorem map_snd_depths (depth : Nat) : (n : Node) → (n.depths depth).map Prod.snd = n.entries
  | .mk e cs => by simp [Node.depths, Node.entries, map_snd_depthsOf (depth + 1) cs]

theorem map_snd_depthsOf (depth : Nat) :
    (ns : List Node) → (depthsOf depth ns).map Prod.snd = entriesOf ns
  | [] => rfl
  | n :: ns => by simp [depthsOf, entriesOf, map_snd_depths depth n, map_snd_depthsOf depth ns]

end

mutual

/-- A node all of whose parents have lower levels is not deeper than its level. -/
theorem depth_le_of_isAbove {bound depth : Nat} (hdepth : depth ≤ bound + 1) : (n : Node) →
    n.IsAbove bound → ∀ p ∈ n.depths depth, p.1 ≤ p.2.level
  | .mk e cs, ⟨hlevel, hbelow⟩, p, hp => by
    rcases List.mem_cons.1 hp with rfl | hp
    · exact Nat.le_trans hdepth hlevel
    · exact depth_le_of_areAbove (Nat.succ_le_succ (Nat.le_trans hdepth hlevel)) cs hbelow p hp

theorem depth_le_of_areAbove {bound depth : Nat} (hdepth : depth ≤ bound + 1) : (ns : List Node) →
    AreAbove bound ns → ∀ p ∈ depthsOf depth ns, p.1 ≤ p.2.level
  | [], _, p, hp => by simp [depthsOf] at hp
  | n :: ns, ⟨hn, hns⟩, p, hp => by
    rcases List.mem_append.1 hp with hp | hp
    · exact depth_le_of_isAbove hdepth n hn p hp
    · exact depth_le_of_areAbove hdepth ns hns p hp

end

/-! ## Adding an entry -/

theorem areAbove_append {bound : Nat} {ns ms : List Node} :
    AreAbove bound (ns ++ ms) ↔ AreAbove bound ns ∧ AreAbove bound ms := by
  induction ns with
  | nil => simp [AreAbove]
  | cons n ns ih => simp [AreAbove, ih, and_assoc]

theorem areAbove_spine_extended {bound : Nat} (outer : List Branch) {parent : Branch}
    {shut : List Branch} {e : Entry} (h : AreAbove bound (spine (outer ++ parent :: shut)))
    (hparent : parent.entry.level < e.level) :
    AreAbove bound (spine (extended outer parent shut e)) := by
  induction outer generalizing bound with
  | nil =>
    obtain ⟨⟨hlevel, hbelow⟩, -⟩ := h
    exact ⟨⟨hlevel, areAbove_append.2 ⟨hbelow, ⟨hparent, trivial⟩, trivial⟩⟩, trivial⟩
  | cons b outer ih =>
    obtain ⟨⟨hlevel, hbelow⟩, -⟩ := h
    obtain ⟨hchildren, hrest⟩ := areAbove_append.1 hbelow
    exact ⟨⟨hlevel, areAbove_append.2 ⟨hchildren, ih hrest⟩⟩, trivial⟩

/-- The entry that a new one goes below is the first that stays open, so it has a lower level. -/
theorem areAbove_add {b : Builder} (h : AreAbove 0 b.nodes) {e : Entry} (he : 0 < e.level) :
    AreAbove 0 (b.add e).nodes := by
  cases hd : b.path.dropWhile (e.level ≤ ·.entry.level) with
  | nil =>
    rw [Builder.nodes] at h
    rw [Builder.add_root hd, Builder.nodes]
    exact areAbove_append.2 ⟨h, ⟨he, trivial⟩, trivial⟩
  | cons parent outer =>
    obtain ⟨hpath, hroots, hnew⟩ := Builder.add_below hd
    have hparent : parent.entry.level < e.level := by
      have := List.head?_dropWhile_not (fun c : Branch => decide (e.level ≤ c.entry.level)) b.path
      simpa [hd] using this
    rw [Builder.nodes, close_eq_spine, hpath] at h
    obtain ⟨hclosed, hopen⟩ := areAbove_append.1 h
    rw [Builder.nodes, hroots, close_eq_spine, hnew]
    exact areAbove_append.2 ⟨hclosed, areAbove_spine_extended _ hopen hparent⟩

/-- Levels grow along the paths of an outline. -/
theorem areAbove_ofEntries {es : List Entry} (h : ∀ e ∈ es, 0 < e.level) :
    AreAbove 0 (ofEntries es) := by
  suffices hadd : ∀ b : Builder, AreAbove 0 b.nodes → AreAbove 0 (es.foldl Builder.add b).nodes from
    hadd {} trivial
  induction es with
  | nil => exact fun b hb => hb
  | cons e es ih =>
    exact fun b hb => ih (fun f hf => h f (List.mem_cons_of_mem e hf)) _
      (areAbove_add hb (h e (by simp)))

end Slideshow.Outline

/-! ## The levels of slides -/

namespace Slideshow.Markup

theorem toNat_of_headingDigit? {c : Char} {n : Nat} (h : headingDigit? c = some n) :
    49 ≤ c.toNat := by
  rw [headingDigit?] at h
  split at h
  · next hc => exact UInt32.le_iff_toNat_le.1 (Char.le_def.1 hc.1)
  · simp at h

theorem Heading.one_le_level_of_read? {s rest : Text} {h : Heading}
    (hr : Heading.read? s = some (h, rest)) : 1 ≤ h.level := by
  simp only [Heading.read?, Option.bind_eq_bind, Option.bind_eq_some_iff] at hr
  obtain ⟨t, -, hr⟩ := hr
  split at hr
  · simp at hr
  · next digit t =>
    cases hdigit : headingDigit? digit with
    | none => simp [hdigit] at hr
    | some n =>
      have hcode := toNat_of_headingDigit? hdigit
      split at hr
      · simp at hr
      · simp only [Option.bind_eq_some_iff, Option.some.injEq, Prod.mk.injEq] at hr
        obtain ⟨u, -, found, -, rfl, -⟩ := hr
        simp only [Heading.level]
        omega

/-- The level of a heading is at least one. -/
theorem Heading.one_le_level_of_find? {s before after : Text} {h : Heading}
    (hf : Heading.find? s = some (before, h, after)) : 1 ≤ h.level := by
  induction s generalizing before with
  | nil => simp [Heading.find?] at hf
  | cons c s ih =>
    simp only [Heading.find?] at hf
    split at hf
    · next g r hr =>
      simp only [Option.some.injEq, Prod.mk.injEq] at hf
      obtain ⟨-, rfl, -⟩ := hf
      exact Heading.one_le_level_of_read? hr
    · obtain ⟨⟨b, g, a⟩, hp, hq⟩ := Option.map_eq_some_iff.1 hf
      simp only [Prod.mk.injEq] at hq
      obtain ⟨-, rfl, rfl⟩ := hq
      exact ih hp

end Slideshow.Markup

namespace Slideshow

theorem Slide.one_le_level_of_ofFragment {fragment : Text} {showNotes : Bool} {level : Nat}
    (h : (Slide.ofFragment fragment showNotes).level = some level) : 1 ≤ level := by
  simp only [Slide.ofFragment] at h
  split at h
  · next hfind =>
    rw [← Option.some.inj h]
    exact Markup.Heading.one_le_level_of_find? hfind
  · simp at h

/-- The entry of a slide has a level from one to the deepest one, or level one. -/
theorem Outline.level_entryOf (deepest : Nat) {s : Slide}
    (h : ∀ level, s.level = some level → 1 ≤ level) :
    1 ≤ (Outline.entryOf deepest s).level ∧ (Outline.entryOf deepest s).level ≤ max 1 deepest := by
  unfold Outline.entryOf
  split
  · next title level _ hlevel =>
    split
    · next hle => exact ⟨h level hlevel, Nat.le_trans hle (Nat.le_max_right 1 deepest)⟩
    · exact ⟨Nat.le_refl 1, Nat.le_max_left 1 deepest⟩
  · exact ⟨Nat.le_refl 1, Nat.le_max_left 1 deepest⟩

theorem Outline.number_entryOf (deepest : Nat) (s : Slide) :
    (Outline.entryOf deepest s).number = s.number := by
  unfold Outline.entryOf
  split
  · split <;> rfl
  · rfl

end Slideshow
