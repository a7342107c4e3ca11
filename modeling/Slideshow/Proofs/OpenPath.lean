import Slideshow.Proofs.OutlineParents
import Mathlib.Data.List.DropRight

/-!
# The open path of an outline

An outline can also be built in place. The tree is whole at any time, and the open entries are told by
their places in it: from the outside in, the place of each among its siblings, with its level. An
entry goes to the end of the children at the end of that path, if each place leads on to a node. It
always does: the path runs along the last node of each list of siblings down to a node without
children. So building in place and building by branches come to the same.
-/
namespace Slideshow.Outline

/-- The nodes of an outline so far, and the places and levels of the open ones, outermost first. -/
structure Trail where
  roots : List Node := []
  opened : List (Nat × Nat) := []

namespace Trail

/-- The siblings at the end of some places; nothing if there is no node at one of them. -/
def siblingsAt? : List (Nat × Nat) → List Node → Option (List Node)
  | [], siblings => some siblings
  | (index, _) :: places, siblings => do
    let node ← siblings[index]?
    siblingsAt? places node.children

/-- One more node behind the siblings at the end of some places. -/
def push? (new : Node) : List (Nat × Nat) → List Node → Option (List Node)
  | [], siblings => some (siblings ++ [new])
  | (index, _) :: places, siblings => do
    let node ← siblings[index]?
    let children ← push? new places node.children
    some (siblings.set index (.mk node.entry children))

/-- What stays open when an entry of a level arrives. -/
def staying (level : Nat) (t : Trail) : List (Nat × Nat) := t.opened.rdropWhile (level ≤ ·.2)

def add? (t : Trail) (e : Entry) : Option Trail := do
  let places := t.staying e.level
  let siblings ← siblingsAt? places t.roots
  let roots ← push? (.mk e []) places t.roots
  some ⟨roots, places ++ [(siblings.length, e.level)]⟩

/-- The trail after some entries. -/
def ofEntries? (es : List Entry) : Option Trail := es.foldlM add? {}

/-- The open path is the right spine of the tree. -/
structure IsRightSpine (t : Trail) : Prop where
  /-- Each place is that of the last of its siblings, and its level is the level of that node. -/
  last : ∀ i (h : i < t.opened.length), ∃ before node,
    siblingsAt? (t.opened.take i) t.roots = some (before ++ [node]) ∧
      t.opened[i] = (before.length, node.entry.level)
  increasing : (t.opened.map (·.2)).Pairwise (· < ·)
  childless : siblingsAt? t.opened t.roots = some []

end Trail

open Trail (siblingsAt? push?)

/-! ## Branches and their places -/

/-- The places and levels of nested branches, outermost first, the first of them behind some
siblings. -/
def placesOf (before : Nat) : List Branch → List (Nat × Nat)
  | [] => []
  | b :: bs => (before, b.entry.level) :: placesOf b.children.length bs

/-- The closed nodes behind which the innermost branch stands. -/
def innermost (before : List Node) : List Branch → List Node
  | [] => before
  | b :: bs => innermost b.children bs

theorem innermost_append (before : List Node) (bs cs : List Branch) :
    innermost before (bs ++ cs) = innermost (innermost before bs) cs := by
  induction bs generalizing before with
  | nil => rfl
  | cons b bs ih => exact ih b.children

theorem placesOf_append (before : List Node) (bs cs : List Branch) :
    placesOf before.length (bs ++ cs) =
      placesOf before.length bs ++ placesOf (innermost before bs).length cs := by
  induction bs generalizing before with
  | nil => rfl
  | cons b bs ih => simp [placesOf, innermost, ih]

/-- The children of the last branch are not counted. -/
theorem placesOf_concat (before : List Node) (bs : List Branch) (b : Branch) :
    placesOf before.length (bs ++ [b]) =
      placesOf before.length bs ++ [((innermost before bs).length, b.entry.level)] :=
  placesOf_append before bs [b]

theorem innermost_concat (before : List Node) (bs : List Branch) (b : Branch) :
    innermost before (bs ++ [b]) = b.children := by
  rw [innermost_append]
  rfl

theorem length_placesOf (before : Nat) (bs : List Branch) :
    (placesOf before bs).length = bs.length := by
  induction bs generalizing before with
  | nil => rfl
  | cons b bs ih => simp [placesOf, ih]

theorem map_snd_placesOf (before : Nat) (bs : List Branch) :
    (placesOf before bs).map Prod.snd = bs.map (·.entry.level) := by
  induction bs generalizing before with
  | nil => rfl
  | cons b bs ih => simp [placesOf, ih]

/-- The places of the outer branches lead to the closed nodes in front of the inner ones. -/
theorem siblingsAt?_placesOf (before : List Node) (bs cs : List Branch) :
    siblingsAt? (placesOf before.length bs) (before ++ spine (bs ++ cs)) =
      some (innermost before bs ++ spine cs) := by
  induction bs generalizing before with
  | nil => rfl
  | cons b bs ih =>
    simpa [placesOf, siblingsAt?, spine, Node.children, innermost] using ih b.children

theorem push?_placesOf (before : List Node) (outer : List Branch) (parent : Branch)
    (shut : List Branch) (e : Entry) :
    push? (.mk e []) (placesOf before.length (outer ++ [parent]))
        (before ++ spine (outer ++ parent :: shut)) =
      some (before ++ spine (extended outer parent shut e)) := by
  induction outer generalizing before with
  | nil => simp [placesOf, push?, spine, extended, Node.children, Node.entry]
  | cons b outer ih =>
    have hb := ih b.children
    simp only [extended] at hb ⊢
    simp [placesOf, push?, spine, Node.children, Node.entry, hb]

/-! ## Building in place -/

namespace Builder

/-- The outline as it stands and the places of the open entries in it. -/
def trail (b : Builder) : Trail := ⟨b.nodes, placesOf b.roots.length b.path.reverse⟩

theorem nodes_eq (b : Builder) : b.nodes = b.roots ++ spine b.path.reverse := by
  rw [nodes, close_eq_spine]

theorem staying_trail (b : Builder) (level : Nat) :
    b.trail.staying level =
      placesOf b.roots.length (b.path.dropWhile (level ≤ ·.entry.level)).reverse := by
  have hsplit := List.takeWhile_append_dropWhile (l := b.path)
    (p := fun c : Branch => decide (level ≤ c.entry.level))
  rw [Trail.staying, trail, List.rdropWhile]
  conv => lhs; rw [← hsplit]
  rw [List.reverse_append, placesOf_append, List.reverse_append, Text.dropWhile_run,
    List.reverse_reverse]
  · intro p hp
    have hl : p.2 ∈ (b.path.takeWhile (level ≤ ·.entry.level)).reverse.map (·.entry.level) := by
      rw [← map_snd_placesOf]
      exact List.mem_map_of_mem (List.mem_reverse.1 hp)
    obtain ⟨c, hc, hcl⟩ := List.mem_map.1 hl
    have := List.all_eq_true.1 List.all_takeWhile c (List.mem_reverse.1 hc)
    rwa [← hcl]
  · cases hd : b.path.dropWhile (level ≤ ·.entry.level) with
    | nil => rfl
    | cons parent outer =>
      have hp := List.head?_dropWhile_not (fun c : Branch => decide (level ≤ c.entry.level)) b.path
      simp only [hd, List.head?_cons] at hp
      simpa [placesOf_append, placesOf] using hp

/-- The siblings of an entry that goes below a parent are the children of the parent, closed ones and
the one that the inner branches form. -/
private theorem siblings_extended (before : List Node) (outer : List Branch) (parent : Branch)
    (shut : List Branch) (e : Entry) :
    siblingsAt? (placesOf before.length (outer ++ [parent]))
        (before ++ spine (outer ++ parent :: shut)) = some (parent.children ++ spine shut) ∧
      siblingsAt? (placesOf before.length (outer ++ [parent]))
        (before ++ spine (extended outer parent shut e)) =
          some (parent.children ++ spine shut ++ [.mk e []]) ∧
      placesOf before.length (extended outer parent shut e) =
        placesOf before.length (outer ++ [parent]) ++
          [((parent.children ++ spine shut).length, e.level)] := by
  have hsame : placesOf before.length (outer ++ [parent]) = placesOf before.length
      (outer ++ [⟨parent.entry, parent.children ++ spine shut⟩]) := by
    rw [placesOf_concat, placesOf_concat]
  have hsplit : extended outer parent shut e =
      outer ++ [⟨parent.entry, parent.children ++ spine shut⟩] ++ [⟨e, []⟩] := by simp [extended]
  refine ⟨?_, ?_, ?_⟩
  · have hat := siblingsAt?_placesOf before (outer ++ [parent]) shut
    rwa [innermost_concat, List.append_assoc, List.singleton_append] at hat
  · rw [hsame, hsplit, siblingsAt?_placesOf, innermost_concat]
    rfl
  · rw [hsame, hsplit, placesOf_concat _ _ ⟨e, []⟩, innermost_concat]

/-- An entry is added in place as it is added by branches: it goes to the end of the siblings at the
end of what stays open. -/
theorem trail_add (b : Builder) (e : Entry) :
    b.trail.add? e = some (b.add e).trail ∧ ∃ siblings,
      siblingsAt? (b.trail.staying e.level) b.trail.roots = some siblings ∧
      siblingsAt? (b.trail.staying e.level) (b.add e).trail.roots = some (siblings ++ [.mk e []]) ∧
      (b.add e).trail.opened = b.trail.staying e.level ++ [(siblings.length, e.level)] := by
  suffices h : ∃ siblings,
      push? (.mk e []) (b.trail.staying e.level) b.trail.roots = some (b.add e).trail.roots ∧
      siblingsAt? (b.trail.staying e.level) b.trail.roots = some siblings ∧
      siblingsAt? (b.trail.staying e.level) (b.add e).trail.roots = some (siblings ++ [.mk e []]) ∧
      (b.add e).trail.opened = b.trail.staying e.level ++ [(siblings.length, e.level)] by
    obtain ⟨siblings, hpush, hat, hbehind, hopened⟩ := h
    refine ⟨?_, siblings, hat, hbehind, hopened⟩
    simp only [Trail.add?, hat, hpush, Option.bind_eq_bind, Option.bind_some, ← hopened]
  rw [staying_trail]
  cases hd : b.path.dropWhile (e.level ≤ ·.entry.level) with
  | nil =>
    have hnodes : (b.add e).trail.roots = b.nodes ++ [.mk e []] := by
      simp [add_root hd, trail, nodes, close_eq_spine, spine]
    refine ⟨b.nodes, ?_, rfl, ?_, ?_⟩
    · rw [hnodes]
      rfl
    · rw [hnodes]
      rfl
    · simp [add_root hd, trail, nodes, placesOf]
  | cons parent outer =>
    obtain ⟨hpath, hroots, hnew⟩ := add_below hd
    obtain ⟨hat, hbehind, hplaces⟩ := siblings_extended b.roots outer.reverse parent
      (b.path.takeWhile (e.level ≤ ·.entry.level)).reverse e
    simp only [trail, nodes_eq, hroots, hnew, hpath, List.reverse_cons]
    exact ⟨_, push?_placesOf _ _ _ _ _, hat, hbehind, hplaces⟩

/-- Every place on the trail is that of the last of some siblings. -/
theorem last_trail (b : Builder) (i : Nat) (h : i < b.trail.opened.length) : ∃ before node,
    siblingsAt? (b.trail.opened.take i) b.trail.roots = some (before ++ [node]) ∧
      b.trail.opened[i] = (before.length, node.entry.level) := by
  have hi : i < b.path.reverse.length := by
    rw [← length_placesOf b.roots.length]
    exact h
  obtain ⟨outer, c, inner, hsplit, rfl⟩ : ∃ outer c inner,
      b.path.reverse = outer ++ c :: inner ∧ outer.length = i :=
    ⟨_, _, _, (List.take_append_drop i _).symm.trans (by rw [List.drop_eq_getElem_cons hi]),
      List.length_take_of_le (Nat.le_of_lt hi)⟩
  have hopened : b.trail.opened = placesOf b.roots.length outer ++
      ((innermost b.roots outer).length, c.entry.level) :: placesOf c.children.length inner := by
    rw [trail, hsplit, placesOf_append]
    rfl
  have hlength := length_placesOf b.roots.length outer
  refine ⟨innermost b.roots outer, .mk c.entry (c.children ++ spine inner), ?_, ?_⟩
  · rw [hopened, List.take_left' hlength, trail, nodes_eq, hsplit]
    exact siblingsAt?_placesOf b.roots outer (c :: inner)
  · simp only [hopened, ← hlength]
    simp [Node.entry]

/-- What holds of a builder at all times: levels rise along the open entries, and the innermost one
has no children. -/
structure IsGrown (b : Builder) : Prop where
  increasing : b.path.Pairwise fun inner outer => outer.entry.level < inner.entry.level
  childless : innermost b.roots b.path.reverse = []

theorem isGrown_add {b : Builder} (h : b.IsGrown) (e : Entry) : (b.add e).IsGrown := by
  cases hd : b.path.dropWhile (e.level ≤ ·.entry.level) with
  | nil =>
    rw [add_root hd]
    exact ⟨List.pairwise_singleton _ _, rfl⟩
  | cons parent outer =>
    have hkept : (parent :: outer).Pairwise
        fun inner outer => outer.entry.level < inner.entry.level := by
      rw [← hd]
      exact h.increasing.sublist (List.dropWhile_suffix _).sublist
    have hparent : parent.entry.level < e.level := by
      have hp := List.head?_dropWhile_not (fun c : Branch => decide (e.level ≤ c.entry.level)) b.path
      simpa [hd] using hp
    obtain ⟨-, -, hnew⟩ := add_below hd
    refine ⟨?_, ?_⟩
    · have houter := (List.pairwise_cons.1 hkept).1
      simp only [add, hd, List.pairwise_cons, List.forall_mem_cons]
      exact ⟨⟨hparent, fun c hc => Nat.lt_trans (houter c hc) hparent⟩, houter,
        (List.pairwise_cons.1 hkept).2⟩
    · rw [hnew, extended, List.append_cons, innermost_concat]

theorem isRightSpine_trail {b : Builder} (h : b.IsGrown) : b.trail.IsRightSpine := by
  refine ⟨b.last_trail, ?_, ?_⟩
  · rw [trail, map_snd_placesOf, List.map_reverse, List.pairwise_reverse, List.pairwise_map]
    exact h.increasing
  · have hat := siblingsAt?_placesOf b.roots b.path.reverse []
    rw [List.append_nil, h.childless] at hat
    rw [trail, nodes_eq]
    exact hat

end Builder

/-! ## A whole run -/

theorem isGrown_built (es : List Entry) : (built es).IsGrown := by
  induction es using List.reverseRecOn with
  | nil => exact ⟨List.Pairwise.nil, rfl⟩
  | append_singleton es e ih =>
    rw [built_concat]
    exact Builder.isGrown_add ih e

theorem ofEntries?_eq (es : List Entry) : Trail.ofEntries? es = some (built es).trail := by
  induction es using List.reverseRecOn with
  | nil => rfl
  | append_singleton es e ih =>
    rw [Trail.ofEntries?] at ih ⊢
    rw [List.foldlM_append, ih, built_concat]
    simpa using (Builder.trail_add (built es) e).1

/-- Whatever entries arrive, building in place never meets a place without a node. The nodes are those
of the outline, the open path is its right spine, and one more entry is the last of the siblings at
the end of what stays open. -/
theorem isRightSpine_of_entries (es : List Entry) : ∃ t, Trail.ofEntries? es = some t ∧
    t = (built es).trail ∧ t.roots = ofEntries es ∧ t.IsRightSpine ∧
    ∀ e, ∃ siblings after, siblingsAt? (t.staying e.level) t.roots = some siblings ∧
      t.add? e = some after ∧
      siblingsAt? (t.staying e.level) after.roots = some (siblings ++ [.mk e []]) ∧
      after.opened = t.staying e.level ++ [(siblings.length, e.level)] := by
  refine ⟨_, ofEntries?_eq es, rfl, rfl, Builder.isRightSpine_trail (isGrown_built es), fun e => ?_⟩
  obtain ⟨hadd, siblings, hat, hbehind, hopened⟩ := (built es).trail_add e
  exact ⟨siblings, _, hat, hadd, hbehind, hopened⟩

/-- The third entry closes the second and becomes the second child of the first. -/
example : (Trail.ofEntries? [⟨[], 1, 1⟩, ⟨[], 3, 2⟩, ⟨[], 2, 3⟩, ⟨[], 4, 4⟩]).map (·.opened) =
    some [(0, 1), (1, 2), (0, 4)] := rfl

end Slideshow.Outline
