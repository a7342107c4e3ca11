import Slideshow.Outline
import Slideshow.Text.Basic
import Mathlib

/-!
# Parents in an outline

The outline of a sequence of entries keeps all of them in order, and the parent of an entry is the
latest entry before it that has a lower level. The open entries are what decides this: for every
level, the innermost open entry below that level is the latest entry below it.
-/
namespace Slideshow.Outline

mutual

/-- The places of the parents of the entries of a node, in the order of the entries. The node itself
stands at `place`, below `parent`. -/
def Node.parents (parent : Option Nat) (place : Nat) : Node → List (Option Nat)
  | .mk _ cs => parent :: Node.parentsOf (some place) (place + 1) cs

def Node.parentsOf (parent : Option Nat) (place : Nat) : List Node → List (Option Nat)
  | [] => []
  | n :: ns => n.parents parent place ++ Node.parentsOf parent (place + n.entries.length) ns

end

/-- The place of the last entry whose level is lower than the given one. -/
def IsLastBelow (level : Nat) (es : List Entry) : Option Nat → Prop
  | none => ∀ e ∈ es, level ≤ e.level
  | some j => (∃ e, es[j]? = some e ∧ e.level < level) ∧
      ∀ k e, j < k → es[k]? = some e → level ≤ e.level

open Node (entriesOf parentsOf)

theorem entriesOf_append (ns ms : List Node) :
    entriesOf (ns ++ ms) = entriesOf ns ++ entriesOf ms := by
  induction ns with
  | nil => rfl
  | cons n ns ih => simp [entriesOf, ih]

theorem parentsOf_append (parent : Option Nat) (place : Nat) (ns ms : List Node) :
    parentsOf parent place (ns ++ ms) =
      parentsOf parent place ns ++ parentsOf parent (place + (entriesOf ns).length) ms := by
  induction ns generalizing place with
  | nil => rfl
  | cons n ns ih => simp [parentsOf, entriesOf, ih, Nat.add_assoc]

mutual

theorem length_parents (parent : Option Nat) (place : Nat) :
    (n : Node) → (n.parents parent place).length = n.entries.length
  | .mk e cs => by simp [Node.parents, Node.entries, length_parentsOf (some place) (place + 1) cs]

theorem length_parentsOf (parent : Option Nat) (place : Nat) :
    (ns : List Node) → (parentsOf parent place ns).length = (entriesOf ns).length
  | [] => rfl
  | n :: ns => by
    simp [parentsOf, entriesOf, length_parents parent place n,
      length_parentsOf parent (place + n.entries.length) ns]

end

/-! ## Branches from the outside in -/

/-- The nodes that nested branches form, outermost first. -/
def spine : List Branch → List Node
  | [] => []
  | b :: bs => [.mk b.entry (b.children ++ spine bs)]

theorem close_eq_spine (path : List Branch) : close path = spine path.reverse := by
  have h : ∀ bs : List Branch,
      spine bs = bs.foldr (fun b below => [.mk b.entry (b.children ++ below)]) [] := by
    intro bs
    induction bs with
    | nil => rfl
    | cons b bs ih => simp [spine, ih]
  rw [h, close, List.foldl_eq_foldr_reverse]

/-- The number of entries in a branch. -/
def Branch.size (b : Branch) : Nat := 1 + (entriesOf b.children).length

/-- The places and levels of the entries of nested branches, outermost first. -/
def marks (place : Nat) : List Branch → List (Nat × Nat)
  | [] => []
  | b :: bs => (place, b.entry.level) :: marks (place + b.size) bs

/-- The place behind some branches. -/
def placeAfter (place : Nat) (bs : List Branch) : Nat := place + (bs.map Branch.size).sum

theorem marks_append (place : Nat) (bs cs : List Branch) :
    marks place (bs ++ cs) = marks place bs ++ marks (placeAfter place bs) cs := by
  induction bs generalizing place with
  | nil => rfl
  | cons b bs ih => simp [marks, ih, placeAfter, Nat.add_assoc]

theorem map_snd_marks (place : Nat) (bs : List Branch) :
    (marks place bs).map Prod.snd = bs.map (·.entry.level) := by
  induction bs generalizing place with
  | nil => rfl
  | cons b bs ih => simp [marks, ih]

theorem length_entriesOf_spine (place : Nat) (bs : List Branch) :
    place + (entriesOf (spine bs)).length = placeAfter place bs := by
  induction bs generalizing place with
  | nil => rfl
  | cons b bs ih =>
    have := ih (place + b.size)
    simp only [placeAfter, List.map_cons, List.sum_cons, spine, entriesOf, Node.entries,
      entriesOf_append, Branch.size, List.length_append, List.length_cons,
      List.length_nil] at this ⊢
    omega

section Extend
variable (outer : List Branch) (parent : Branch) (shut : List Branch) (e : Entry)

/-- The branches after an entry closed the inner ones and went below `parent`. -/
abbrev extended : List Branch :=
  outer ++ [⟨parent.entry, parent.children ++ spine shut⟩, ⟨e, []⟩]

private theorem entriesOf_extended :
    entriesOf (spine (extended outer parent shut e)) =
      entriesOf (spine (outer ++ parent :: shut)) ++ [e] := by
  induction outer with
  | nil => simp [spine, entriesOf, Node.entries, entriesOf_append]
  | cons b outer ih => simpa [spine, entriesOf, Node.entries, entriesOf_append] using ih

private theorem parentsOf_extended (above : Option Nat) (place : Nat) :
    parentsOf above place (spine (extended outer parent shut e)) =
      parentsOf above place (spine (outer ++ parent :: shut)) ++ [some (placeAfter place outer)] := by
  induction outer generalizing above place with
  | nil => simp [spine, parentsOf, Node.parents, parentsOf_append, placeAfter]
  | cons b outer ih =>
    simpa [spine, parentsOf, Node.parents, parentsOf_append, placeAfter, Branch.size,
      Nat.add_assoc] using ih (some place) (place + b.size)

private theorem marks_extended (place : Nat) :
    marks place (extended outer parent shut e) =
      marks place (outer ++ [parent]) ++
        [(placeAfter place (outer ++ parent :: shut), e.level)] := by
  have hs := length_entriesOf_spine 0 shut
  simp only [placeAfter] at hs
  simp only [extended, marks_append, marks, placeAfter, List.map_append, List.map_cons,
    List.sum_append, List.sum_cons, Branch.size, entriesOf_append, List.length_append]
  simp
  omega

end Extend

/-! ## Adding an entry -/

namespace Builder

/-- The places and levels of the open entries, innermost first. -/
def openMarks (b : Builder) : List (Nat × Nat) :=
  (marks (entriesOf b.roots).length b.path.reverse).reverse

/-- The place of the innermost open entry that is lower than a level. -/
def openBelow (b : Builder) (level : Nat) : Option Nat :=
  (b.openMarks.dropWhile (level ≤ ·.2)).head?.map Prod.fst

/-- An entry that closes all open ones is a root. -/
theorem add_root {b : Builder} {e : Entry}
    (h : b.path.dropWhile (e.level ≤ ·.entry.level) = []) :
    b.add e = { roots := b.roots ++ close b.path, path := [⟨e, []⟩] } := by
  have hall : b.path.takeWhile (e.level ≤ ·.entry.level) = b.path := by
    have := List.takeWhile_append_dropWhile (l := b.path)
      (p := fun c : Branch => decide (e.level ≤ c.entry.level))
    rwa [h, List.append_nil] at this
  simp only [add, h, hall]

/-- Otherwise it goes below the innermost open entry that stays open. -/
theorem add_below {b : Builder} {e : Entry} {parent : Branch} {outer : List Branch}
    (h : b.path.dropWhile (e.level ≤ ·.entry.level) = parent :: outer) :
    let shut := b.path.takeWhile (e.level ≤ ·.entry.level)
    b.path.reverse = outer.reverse ++ parent :: shut.reverse ∧ (b.add e).roots = b.roots ∧
      (b.add e).path.reverse = extended outer.reverse parent shut.reverse e := by
  intro shut
  have hsplit := List.takeWhile_append_dropWhile (l := b.path)
    (p := fun c : Branch => decide (e.level ≤ c.entry.level))
  rw [h] at hsplit
  refine ⟨?_, ?_, ?_⟩
  · rw [← hsplit]
    simp [shut]
  · simp only [add, h]
  · simp [add, h, close_eq_spine, shut]

/-- The marks of the open entries that stay open when an entry of a level arrives. -/
private theorem openMarks_dropWhile (b : Builder) (level : Nat) :
    b.openMarks.dropWhile (level ≤ ·.2) =
      (marks (entriesOf b.roots).length
        (b.path.dropWhile (level ≤ ·.entry.level)).reverse).reverse := by
  have hsplit := List.takeWhile_append_dropWhile (l := b.path)
    (p := fun c : Branch => decide (level ≤ c.entry.level))
  have hshut : ∀ place, ∀ m ∈ (marks place
      (b.path.takeWhile (level ≤ ·.entry.level)).reverse).reverse, decide (level ≤ m.2) := by
    intro place m hm
    have hl : m.2 ∈ (b.path.takeWhile (level ≤ ·.entry.level)).reverse.map (·.entry.level) := by
      rw [← map_snd_marks place]
      exact List.mem_map_of_mem (List.mem_reverse.1 hm)
    obtain ⟨c, hc, hcl⟩ := List.mem_map.1 hl
    have := List.all_eq_true.1 List.all_takeWhile c (List.mem_reverse.1 hc)
    rwa [← hcl]
  rw [openMarks]
  conv => lhs; rw [← hsplit]
  rw [List.reverse_append, marks_append, List.reverse_append]
  refine Text.dropWhile_run (hshut _) ?_
  cases hd : b.path.dropWhile (level ≤ ·.entry.level) with
  | nil => rfl
  | cons parent outer =>
    have hp := List.head?_dropWhile_not (fun c : Branch => decide (level ≤ c.entry.level)) b.path
    simp only [hd, List.head?_cons] at hp
    simpa [marks_append, marks] using hp

theorem entriesOf_add (b : Builder) (e : Entry) :
    entriesOf (b.add e).nodes = entriesOf b.nodes ++ [e] := by
  cases hd : b.path.dropWhile (e.level ≤ ·.entry.level) with
  | nil => simp [add_root hd, nodes, close_eq_spine, spine, entriesOf_append, entriesOf, Node.entries]
  | cons parent outer =>
    obtain ⟨hpath, hroots, hnew⟩ := add_below hd
    rw [nodes, nodes, hroots, close_eq_spine, close_eq_spine, hnew, hpath, entriesOf_append,
      entriesOf_append, entriesOf_extended, List.append_assoc]

theorem parentsOf_add (b : Builder) (e : Entry) :
    parentsOf none 0 (b.add e).nodes = parentsOf none 0 b.nodes ++ [b.openBelow e.level] := by
  have hmarks := openMarks_dropWhile b e.level
  cases hd : b.path.dropWhile (e.level ≤ ·.entry.level) with
  | nil =>
    rw [hd] at hmarks
    simp [add_root hd, nodes, close_eq_spine, spine, parentsOf_append, parentsOf, Node.parents,
      openBelow, hmarks, marks]
  | cons parent outer =>
    rw [hd] at hmarks
    obtain ⟨hpath, hroots, hnew⟩ := add_below hd
    rw [nodes, nodes, hroots, close_eq_spine, close_eq_spine, hnew, hpath, parentsOf_append,
      parentsOf_append, parentsOf_extended, List.append_assoc, openBelow, hmarks]
    simp [marks_append, marks]

theorem openMarks_add (b : Builder) (e : Entry) :
    (b.add e).openMarks =
      ((entriesOf b.nodes).length, e.level) :: b.openMarks.dropWhile (e.level ≤ ·.2) := by
  rw [openMarks_dropWhile]
  cases hd : b.path.dropWhile (e.level ≤ ·.entry.level) with
  | nil => simp [add_root hd, openMarks, marks, nodes]
  | cons parent outer =>
    obtain ⟨hpath, hroots, hnew⟩ := add_below hd
    rw [openMarks, hroots, hnew, marks_extended, ← hpath, ← length_entriesOf_spine, nodes,
      close_eq_spine, entriesOf_append, List.length_append]
    simp

end Builder

/-! ## A whole run -/

/-- The builder after some entries. -/
def built (es : List Entry) : Builder := es.foldl Builder.add {}

theorem built_concat (es : List Entry) (e : Entry) : built (es ++ [e]) = (built es).add e := by
  simp [built]

theorem entriesOf_built (es : List Entry) : entriesOf (built es).nodes = es := by
  induction es using List.reverseRecOn with
  | nil => rfl
  | append_singleton es e ih => rw [built_concat, Builder.entriesOf_add, ih]

theorem isLastBelow_concat {level : Nat} {es : List Entry} {e : Entry} {p : Option Nat}
    (h : IsLastBelow level es p) (he : level ≤ e.level) : IsLastBelow level (es ++ [e]) p := by
  cases p with
  | none =>
    intro f hf
    rcases List.mem_append.1 hf with hf | hf
    · exact h f hf
    · obtain rfl : f = e := by simpa using hf
      exact he
  | some j =>
    obtain ⟨⟨f, hf, hlow⟩, hlast⟩ := h
    have hj : j < es.length := (List.getElem?_eq_some_iff.1 hf).1
    refine ⟨⟨f, by rw [List.getElem?_append_left hj, hf], hlow⟩, ?_⟩
    intro k g hk hg
    rcases Nat.lt_or_ge k es.length with hlt | hge
    · rw [List.getElem?_append_left hlt] at hg
      exact hlast k g hk hg
    · rw [List.getElem?_append_right hge] at hg
      obtain rfl : g = e := by simpa using List.mem_of_getElem? hg
      exact he

theorem isLastBelow_length {level : Nat} (es : List Entry) {e : Entry} (he : e.level < level) :
    IsLastBelow level (es ++ [e]) (some es.length) := by
  refine ⟨⟨e, by simp, he⟩, ?_⟩
  intro k f hk hf
  have := (List.getElem?_eq_some_iff.1 hf).1
  simp only [List.length_append, List.length_cons, List.length_nil] at this
  omega

private theorem dropWhile_dropWhile_of_imp {α : Type} {p q : α → Bool} (h : ∀ a, p a → q a)
    (xs : List α) : (xs.dropWhile p).dropWhile q = xs.dropWhile q := by
  induction xs with
  | nil => rfl
  | cons x xs ih =>
    cases hp : p x with
    | true => simp [hp, h x hp, ih]
    | false => simp [hp]

/-- The open entries decide every level: the innermost one below it is the last one below it. An
entry that was closed is never missed, since a later one has a level as low. -/
theorem isLastBelow_openBelow (es : List Entry) (level : Nat) :
    IsLastBelow level es ((built es).openBelow level) := by
  induction es using List.reverseRecOn with
  | nil => exact fun e he => absurd he (by simp)
  | append_singleton es e ih =>
    rw [built_concat, Builder.openBelow, Builder.openMarks_add, entriesOf_built]
    by_cases hl : level ≤ e.level
    · have hdrop : ((built es).openMarks.dropWhile (e.level ≤ ·.2)).dropWhile (level ≤ ·.2) =
          (built es).openMarks.dropWhile (level ≤ ·.2) := by
        refine dropWhile_dropWhile_of_imp ?_ _
        intro m hm
        simp only [decide_eq_true_eq] at hm ⊢
        omega
      simp only [List.dropWhile_cons, hl, decide_true, if_true, hdrop]
      exact isLastBelow_concat ih hl
    · simp only [List.dropWhile_cons, hl, decide_false, Bool.false_eq_true, if_false,
        List.head?_cons, Option.map_some]
      exact isLastBelow_length es (by omega)

theorem getElem?_parentsOf_built {es : List Entry} {i : Nat} {e : Entry} (h : es[i]? = some e) :
    (parentsOf none 0 (built es).nodes)[i]? = some ((built (es.take i)).openBelow e.level) := by
  induction es using List.reverseRecOn with
  | nil => simp at h
  | append_singleton es f ih =>
    have hlen : (parentsOf none 0 (built es).nodes).length = es.length := by
      rw [length_parentsOf, entriesOf_built]
    rw [built_concat, Builder.parentsOf_add]
    rcases Nat.lt_trichotomy i es.length with hi | hi | hi
    · rw [List.getElem?_append_left hi] at h
      rw [List.getElem?_append_left (by omega), List.take_append_of_le_length (by omega)]
      exact ih h
    · subst hi
      obtain rfl : f = e := by simpa using h
      rw [← hlen]
      simp [hlen]
    · rw [List.getElem?_eq_none (by simp; omega)] at h
      simp at h

/-- An outline holds its entries in their order. The parent of an entry is the last one before it
that has a lower level, and an entry is a root if there is none. -/
theorem entries_and_parents_ofEntries (es : List Entry) :
    entriesOf (ofEntries es) = es ∧ (parentsOf none 0 (ofEntries es)).length = es.length ∧
      ∀ i : Fin es.length, ∃ parent, (parentsOf none 0 (ofEntries es))[i.val]? = some parent ∧
        IsLastBelow es[i].level (es.take i) parent := by
  have hentries : entriesOf (ofEntries es) = es := entriesOf_built es
  refine ⟨hentries, by rw [length_parentsOf, hentries], ?_⟩
  rintro ⟨i, hi⟩
  exact ⟨(built (es.take i)).openBelow es[i].level,
    getElem?_parentsOf_built (List.getElem?_eq_getElem hi), isLastBelow_openBelow _ _⟩

example : parentsOf none 0 (ofEntries [⟨[], 1, 1⟩, ⟨[], 3, 2⟩, ⟨[], 2, 3⟩, ⟨[], 4, 4⟩, ⟨[], 0, 5⟩]) =
    [none, some 0, some 0, some 2, none] := rfl

end Slideshow.Outline
