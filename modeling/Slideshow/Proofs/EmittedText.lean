import Slideshow.Template.Basic
import Mathlib

/-!
# What a template emits

The text that a template makes consists of characters of its own and of the values that are put in
between. A tag of the template is one whose angle brackets are its own; a value in it counts as one
piece, whatever characters it has.
-/
namespace Slideshow.Template
open Text

/-- Characters that stand in a template, and values that are put in. -/
abbrev Emitted := List (Char ⊕ Text)

/-- A text that stands in a template. -/
def own (t : Text) : Emitted := t.map .inl

/-- A value that is put in. -/
def put (t : Text) : Emitted := [.inr t]

/-- The text that is emitted. -/
def spelled (out : Emitted) : Text := out.flatMap (Sum.elim (fun c => [c]) id)

@[simp] theorem spelled_append (a b : Emitted) : spelled (a ++ b) = spelled a ++ spelled b :=
  List.flatMap_append

@[simp] theorem spelled_own (t : Text) : spelled (own t) = t := by
  simp [own, spelled, List.flatMap_map]

@[simp] theorem spelled_put (t : Text) : spelled (put t) = t := by simp [put, spelled]

namespace Node

mutual

/-- What a node emits. -/
def emit? (s : Scope) : Node → Option Emitted
  | text t => some (own t)
  | output e => (e.value? s).map fun v => put v.written
  | choice test yes no => (test.truth? s).bind fun b => if b then emitAll? s yes else emitAll? s no
  | loop name items body ifEmpty => ((items.value? s).bind items?).bind fun vs =>
    if vs.isEmpty then emitAll? s ifEmpty
    else ((turns s name vs).mapM fun s => emitAll? s body).map List.flatten

def emitAll? (s : Scope) : List Node → Option Emitted
  | [] => some []
  | n :: ns => (emit? s n).bind fun out => (emitAll? s ns).map (out ++ ·)

end

private theorem mapM_map_some {α β γ : Type} (f : α → Option β) (g : β → γ) (as : List α) :
    as.mapM (fun a => (f a).map g) = (as.mapM f).map (List.map g) := by
  induction as with
  | nil => rfl
  | cons a as ih =>
    rw [List.mapM_cons, List.mapM_cons, ih]
    cases f a <;> cases as.mapM f <;> rfl

theorem spelled_flatten (outs : List Emitted) :
    spelled outs.flatten = (outs.map spelled).flatten := by
  induction outs with
  | nil => rfl
  | cons out outs ih => simp [ih]

mutual

/-- A node makes the text of what it emits. -/
theorem fill?_eq (s : Scope) : (n : Node) → fill? s n = (emit? s n).map spelled
  | text t => by simp [fill?, emit?]
  | output e => by
    cases h : e.value? s <;> simp [fill?, emit?, h]
  | choice test yes no => by
    cases h : test.truth? s with
    | none => simp [fill?, emit?, h]
    | some b => cases b <;> simp [fill?, emit?, h, fillAll?_eq]
  | loop name items body ifEmpty => by
    have hbody : (fun s => fillAll? s body) = fun s => (emitAll? s body).map spelled :=
      funext fun s => fillAll?_eq s body
    cases h : (items.value? s).bind items? with
    | none => simp [fill?, emit?, h]
    | some vs =>
      simp only [fill?, emit?, h, Option.bind_some]
      split
      · exact fillAll?_eq s ifEmpty
      · rw [hbody, mapM_map_some, Option.map_map, Option.map_map]
        congr 1
        funext outs
        exact (spelled_flatten outs).symm

theorem fillAll?_eq (s : Scope) : (ns : List Node) → fillAll? s ns = (emitAll? s ns).map spelled
  | [] => rfl
  | n :: ns => by
    rw [fillAll?, emitAll?, fill?_eq s n, fillAll?_eq s ns]
    cases emit? s n <;> cases emitAll? s ns <;> simp

end

/-! ### Names in a scope -/

end Node

theorem Turn.find?_of_ne {name : Text} (h : name ≠ "loop") (t : Turn) (keys : List Text) :
    t.find? ⟨name, keys⟩ = if name = t.name then t.item.walk? keys else none := by
  simp only [Turn.find?, Path.mk.injEq, h, false_and, if_false]

/-- The scope of a turn of a loop. -/
def Scope.push (s : Scope) (t : Turn) : Scope := { s with turns := t :: s.turns }

/-- A name stands for a value: every path that the value can follow is answered by it. -/
def Scope.Names (s : Scope) (name : Text) (v : Value) : Prop :=
  ∀ keys w, v.walk? keys = some w → s.find? ⟨name, keys⟩ = some w

namespace Scope.Names
variable {s : Scope} {name : Text} {v : Value}

theorem of_values {values : List (Text × Value)} (h : values.lookup name = some v) :
    Names ⟨[], values⟩ name v := by
  intro keys w hw
  simp [find?, h, hw]

/-- A turn of a loop names its item. -/
theorem push_self (t : Turn) (h : t.name ≠ "loop") : (s.push t).Names t.name t.item := by
  intro keys w hw
  have ht : t.find? ⟨t.name, keys⟩ = some w := by rw [t.find?_of_ne h, if_pos rfl, hw]
  simp [find?, push, ht]

/-- Names around a loop go on to stand for their values. -/
theorem push (h : s.Names name v) {t : Turn} (ht : name ≠ t.name) (hloop : name ≠ "loop") :
    (s.push t).Names name v := by
  intro keys w hw
  have hnone : t.find? ⟨name, keys⟩ = none := by rw [t.find?_of_ne hloop, if_neg ht]
  have := h keys w hw
  simpa [find?, Scope.push, hnone] using this

end Scope.Names

/-! ### What the nodes of a page emit -/

namespace Node
variable {s : Scope} {p : Path} {v : Value}

/-- Nodes emit one after the other what each of them emits. -/
theorem emitAll?_of_forall₂ {ns : List Node} {outs : List Emitted}
    (h : List.Forall₂ (fun n out => emit? s n = some out) ns outs) :
    emitAll? s ns = some outs.flatten := by
  induction h with
  | nil => rfl
  | cons hn _ ih => rw [emitAll?, hn, ih, List.flatten_cons, Option.bind_some, Option.map_some]

theorem emitAll?_singleton (s : Scope) (n : Node) : emitAll? s [n] = emit? s n := by
  cases h : emit? s n <;> simp [emitAll?, h]

theorem emitAll?_append {ms ns : List Node} {a b : Emitted} (hms : emitAll? s ms = some a)
    (hns : emitAll? s ns = some b) : emitAll? s (ms ++ ns) = some (a ++ b) := by
  induction ms generalizing a with
  | nil =>
    obtain rfl : [] = a := Option.some.inj hms
    exact hns
  | cons m ms ih =>
    rw [emitAll?] at hms
    obtain ⟨c, hc, hms⟩ := Option.bind_eq_some_iff.1 hms
    obtain ⟨e, he, rfl⟩ := Option.map_eq_some_iff.1 hms
    simp [emitAll?, hc, ih he]

theorem emit?_output (h : s.find? p = some v) : emit? s (.output (.path p)) = some (put v.written) := by
  simp [emit?, Expr.value?, h]

theorem emit?_choice (h : s.find? p = some v) (yes no : List Node) :
    emit? s (.choice (.path p) yes no) = if v.isTrue then emitAll? s yes else emitAll? s no := by
  simp [emit?, Expr.truth?, h]

private theorem mapM_eq_some_map {α β : Type} {f : α → Option β} {g : α → β} {as : List α}
    (h : ∀ a ∈ as, f a = some (g a)) : as.mapM f = some (as.map g) := by
  induction as with
  | nil => rfl
  | cons a as ih =>
    rw [List.mapM_cons, h a (by simp), ih fun b hb => h b (List.mem_cons_of_mem a hb)]
    rfl

/-- A loop emits what its body emits for the items, if that does not depend on the count of turns. -/
theorem emit?_loop {α : Type} {items : List α} (value : α → Value) {name : Text} {body : List Node}
    {f : α → Emitted} (h : s.find? p = some (.list (items.map value)))
    (hbody : ∀ a ∈ items, ∀ index count,
      emitAll? (s.push ⟨name, value a, index, count⟩) body = some (f a)) :
    emit? s (.loop name (.path p) body []) = some (items.flatMap f) := by
  simp only [emit?, Expr.value?, h, items?, Option.bind_some]
  cases hitems : items with
  | nil => rfl
  | cons b bs =>
    rw [← hitems]
    have hturns : turns s name (items.map value) = items.zipIdx.map fun p =>
        s.push ⟨name, value p.1, p.2, (items.map value).length⟩ := by
      simp [turns, List.zipIdx_map, Scope.push]
    have hemitted : (turns s name (items.map value)).mapM (fun s => emitAll? s body) =
        some (items.map f) := by
      have hfst : items.map f = items.zipIdx.map fun p => f p.1 := by
        conv => lhs; rw [← List.zipIdx_map_fst 0 items, List.map_map]
        rfl
      rw [hturns, List.mapM_map, hfst]
      exact mapM_eq_some_map fun p hp => hbody p.1 (List.fst_mem_of_mem_zipIdx hp) _ _
    rw [if_neg (by simp [hitems]), hemitted, Option.map_some, List.flatMap_def]

end Node

/-! ### Tags -/

/-- The tags found so far, each without its brackets, and the one under way. -/
structure Scan where
  tags : List Emitted := []
  inside : Option Emitted := none

def Scan.add (s : Scan) (x : Char ⊕ Text) : Scan :=
  match s.inside with
  | none => if x = .inl '<' then { s with inside := some [] } else s
  | some tag =>
    if x = .inl '>' then ⟨s.tags ++ [tag], none⟩ else { s with inside := some (tag ++ [x]) }

def scan (out : Emitted) : Scan := out.foldl Scan.add {}

/-- The tags of a template in what it emits, in their order. -/
def tags (out : Emitted) : List Emitted := (scan out).tags

/-- No tag is open at the end. -/
def IsWhole (out : Emitted) : Prop := (scan out).inside = none

theorem foldl_add (before : List Emitted) (inside : Option Emitted) (out : Emitted) :
    out.foldl Scan.add ⟨before, inside⟩ =
      ⟨before ++ (out.foldl Scan.add ⟨[], inside⟩).tags,
        (out.foldl Scan.add ⟨[], inside⟩).inside⟩ := by
  induction out generalizing before inside with
  | nil => simp
  | cons x out ih =>
    have hadd : Scan.add ⟨before, inside⟩ x =
        ⟨before ++ (Scan.add ⟨[], inside⟩ x).tags, (Scan.add ⟨[], inside⟩ x).inside⟩ := by
      cases inside <;> simp only [Scan.add] <;> split <;> simp
    rw [List.foldl_cons, List.foldl_cons, hadd, ih]
    conv => rhs; rw [ih]
    simp

theorem scan_append {a : Emitted} (ha : IsWhole a) (b : Emitted) :
    scan (a ++ b) = ⟨tags a ++ tags b, (scan b).inside⟩ := by
  have h := foldl_add (scan a).tags none b
  rw [← ha] at h
  rw [scan, List.foldl_append]
  exact h.trans (by rw [ha]; rfl)

theorem tags_append {a : Emitted} (ha : IsWhole a) (b : Emitted) : tags (a ++ b) = tags a ++ tags b := by
  rw [tags, scan_append ha]

theorem IsWhole.append {a b : Emitted} (ha : IsWhole a) (hb : IsWhole b) : IsWhole (a ++ b) := by
  rw [IsWhole, scan_append ha]
  exact hb

/-- What stands between two brackets is one tag. -/
theorem scan_tag {inside : Emitted} (h : .inl '>' ∉ inside) :
    scan (.inl '<' :: inside ++ [.inl '>']) = ⟨[inside], none⟩ := by
  have hinside : ∀ read : Emitted,
      inside.foldl Scan.add ⟨[], some read⟩ = ⟨[], some (read ++ inside)⟩ := by
    induction inside with
    | nil => simp
    | cons x inside ih =>
      intro read
      have hx : Scan.add ⟨[], some read⟩ x = ⟨[], some (read ++ [x])⟩ :=
        if_neg fun hx => h (by simp [hx])
      rw [List.foldl_cons, hx, ih fun hmem => h (List.mem_cons_of_mem x hmem)]
      simp
  have hopen : Scan.add {} (.inl '<') = ⟨[], some []⟩ := rfl
  rw [scan, List.cons_append, List.foldl_cons, hopen, List.foldl_append, hinside]
  rfl

/-- The name of a tag: the characters of the template up to the first blank. -/
def tagName (tag : Emitted) : Text :=
  (tag.map (Sum.elim id fun _ => ' ')).takeWhile (· ≠ ' ')

/-- What follows some characters of the template at the front. -/
def dropOwn? : Text → Emitted → Option Emitted
  | [], out => some out
  | c :: t, .inl d :: out => if c = d then dropOwn? t out else none
  | _ :: _, _ => none

/-- The value of an attribute of a tag, between the quotes of the template. -/
def valueOf? (key : Text) : Emitted → Option Text
  | [] => none
  | x :: out =>
    match dropOwn? (" " ++ key ++ "=\"") (x :: out) with
    | some value => some (spelled (value.takeWhile (· ≠ .inl '"')))
    | none => valueOf? key out

/-- The values of an attribute in the tags of a name. -/
def valuesIn (name key : Text) (out : Emitted) : List (Option Text) :=
  ((tags out).filter (tagName · = name)).map (valueOf? key)

/-- Some output ends outside all tags, and an attribute has these values in its tags of a name. -/
structure Shows (name key : Text) (out : Emitted) (values : List (Option Text)) : Prop where
  isWhole : IsWhole out
  valuesIn : valuesIn name key out = values

namespace Shows
variable {name key : Text} {a b : Emitted} {us vs : List (Option Text)}

theorem nil : Shows name key [] [] := ⟨rfl, rfl⟩

theorem append (ha : Shows name key a us) (hb : Shows name key b vs) :
    Shows name key (a ++ b) (us ++ vs) := by
  refine ⟨ha.isWhole.append hb.isWhole, ?_⟩
  rw [← ha.valuesIn, ← hb.valuesIn, Template.valuesIn, tags_append ha.isWhole, List.filter_append,
    List.map_append]
  rfl

theorem put (t : Text) : Shows name key (put t) [] := ⟨rfl, rfl⟩

theorem flatMap {α : Type} {as : List α} {f : α → Emitted} {g : α → List (Option Text)}
    (h : ∀ a ∈ as, Shows name key (f a) (g a)) : Shows name key (as.flatMap f) (as.flatMap g) := by
  induction as with
  | nil => exact nil
  | cons a as ih =>
    rw [List.flatMap_cons, List.flatMap_cons]
    exact (h a (by simp)).append (ih fun b hb => h b (List.mem_cons_of_mem a hb))

theorem flatMap_nil {α : Type} {as : List α} {f : α → Emitted}
    (h : ∀ a ∈ as, Shows name key (f a) []) : Shows name key (as.flatMap f) [] := by
  have hnil : as.flatMap (fun _ => ([] : List (Option Text))) = [] :=
    List.flatMap_eq_nil_iff.2 fun _ _ => rfl
  exact hnil ▸ flatMap h

theorem flatten {outs : List Emitted} {values : List (List (Option Text))}
    (h : List.Forall₂ (Shows name key) outs values) :
    Shows name key outs.flatten values.flatten := by
  induction h with
  | nil => exact nil
  | cons hout _ ih => exact hout.append ih

/-- A tag shows the value of the attribute if it has the name. -/
theorem tag {inside : Emitted} (h : .inl '>' ∉ inside) :
    Shows name key (.inl '<' :: inside ++ [.inl '>'])
      (if tagName inside = name then [valueOf? key inside] else []) := by
  refine ⟨by rw [IsWhole, scan_tag h], ?_⟩
  rw [Template.valuesIn, tags, scan_tag h]
  by_cases hname : tagName inside = name <;> simp [hname]

end Shows

end Slideshow.Template
