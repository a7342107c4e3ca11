import Slideshow.Page.Standard
import Slideshow.Proofs.EmittedText

/-!
# What the built-in page emits

The page is put together from sections, one for each slide, from a list of three levels of the
outline, and from a frame without links. It always has a text, and the numbers in its sections and
its links are those of the slides and of the outline.
-/
namespace Slideshow
open Text Template
open Template.Node (emit? emitAll?)

theorem Outline.valuesOf_eq_map (ns : List Outline.Node) :
    Outline.Node.valuesOf ns = ns.map Outline.Node.value := by
  induction ns with
  | nil => rfl
  | cons n ns ih => rw [Outline.Node.valuesOf, ih, List.map_cons]

namespace Template

theorem written_number (n : Nat) : (Value.number n).written = decimal n := by
  simp [Value.written]

/-- The elements that links lead from and to. -/
def anchorNames : List Text := ["section", "a"]

/-- A text of a template has only whole tags, and none of a link or of what it leads to. -/
def isQuiet (t : Text) : Bool :=
  (scan (own t)).inside = none && (tags (own t)).all fun tag => tagName tag ∉ anchorNames

theorem Shows.of_isQuiet {t name : Text} (h : isQuiet t) (hname : name ∈ anchorNames) (key : Text) :
    Shows name key (own t) [] := by
  simp only [isQuiet, Bool.and_eq_true, decide_eq_true_eq, List.all_eq_true] at h
  refine ⟨h.1, ?_⟩
  rw [Template.valuesIn, List.filter_eq_nil_iff.2, List.map_nil]
  intro tag htag
  have := h.2 tag htag
  simp only [decide_eq_true_eq]
  rintro rfl
  exact this hname

/-- A value between two texts of the template, unless it is missing or empty. -/
def around (before after : Text) : Option Text → Emitted
  | some (c :: t) => [own before, put (c :: t), own after].flatten
  | _ => []

theorem Shows.around {name before after : Text} (hname : name ∈ anchorNames)
    (hbefore : isQuiet before) (hafter : isQuiet after) (t : Option Text) (key : Text) :
    Shows name key (around before after t) [] := by
  unfold Template.around
  split
  · exact flatten (.cons (of_isQuiet hbefore hname key)
      (.cons (.put _) (.cons (of_isQuiet hafter hname key) .nil)))
  · exact .nil

end Template

/-! ## What the parts of the page emit -/

namespace Page
variable {s : Scope}

theorem emit?_field {root : Text} {keys : List Text} {v : Value}
    (h : s.find? ⟨root, keys⟩ = some v) :
    emit? s (.output (field root keys)) = some (put v.written) :=
  Node.emit?_output h

theorem emit?_around (before after : Text) {root : Text} {keys : List Text} {t : Option Text}
    (h : s.find? ⟨root, keys⟩ = some (.option t)) :
    emit? s (.choice (field root keys) [.text before, .output (field root keys), .text after] []) =
      some (around before after t) := by
  rw [field, Node.emit?_choice h]
  obtain _ | _ | ⟨c, t⟩ := t
  · rfl
  · rfl
  · rw [if_pos (by rfl)]
    exact Node.emitAll?_of_forall₂
      (.cons (by rw [emit?]) (.cons (Node.emit?_output h) (.cons (by rw [emit?]) .nil)))

/-- What the page emits for some tags, one on a line. -/
def linesOf (ts : List Text) : Emitted := ts.flatMap fun t => [put t, own "\n"].flatten

theorem emit?_tagLines {name : Text} {ts : List Text}
    (h : s.find? ⟨name, []⟩ = some (.texts ts)) : emit? s (tagLines name) = some (linesOf ts) := by
  refine Node.emit?_loop Value.text h fun t _ index count => ?_
  have htag := Scope.Names.push_self (s := s) ⟨"tag", .text t, index, count⟩ (by simp) [] _ rfl
  exact Node.emitAll?_of_forall₂ (.cons (Node.emit?_output htag) (.cons (by rw [emit?]) .nil))

/-! ### Sections -/

/-- What stands between the brackets of the tag of a section. -/
def sectionTag (slide : Slide) : Emitted := [
  own "section class=\"slide",
  slide.classes.flatMap fun c => [own " ", put c].flatten,
  own "\" id=\"slide-",
  put (decimal slide.number),
  own "\""].flatten

/-- What the page emits behind that tag for a slide of a deck with some number of slides. -/
def sectionBody (count : Nat) (slide : Slide) : Emitted := [
  own "\n",
  around "<header>" "</header>\n" slide.header,
  own "<div class=\"content\">\n",
  put slide.content,
  own "\n</div>\n",
  around "<aside class=\"presenter-notes\">\n" "\n</aside>\n" slide.presenterNotes,
  own "<footer><span class=\"slide-number\">",
  put (decimal slide.number),
  own "/",
  put (decimal count),
  own "</span></footer>\n</section>\n"].flatten

def sectionOf (count : Nat) (slide : Slide) : Emitted :=
  (.inl '<' :: sectionTag slide ++ [.inl '>']) ++ sectionBody count slide

theorem emitAll?_slideSection {slide : Slide} {count : Nat} (hslide : s.Names "slide" slide.value)
    (hcount : s.Names "num_slides" (.number count)) :
    emitAll? s slideSection = some (sectionOf count slide) := by
  have htext : ∀ t, emit? s (.text t) = some (own t) := fun t => by rw [emit?]
  have hclasses : emit? s (.loop "class" (field "slide" ["classes"])
      [.text " ", .output (field "class" [])] []) =
        some (slide.classes.flatMap fun c => [own " ", put c].flatten) := by
    refine Node.emit?_loop Value.text (hslide _ _ (by cbv)) fun c _ index count => ?_
    have hclass := Scope.Names.push_self (s := s) ⟨"class", .text c, index, count⟩ (by simp) [] _ rfl
    exact Node.emitAll?_of_forall₂ (.cons (by rw [emit?]) (.cons (emit?_field hclass) .nil))
  have hnumber : emit? s (.output (field "slide" ["number"])) = some (put (decimal slide.number)) := by
    rw [← written_number]
    exact emit?_field (hslide _ _ (by cbv))
  have hcount : emit? s (.output (field "num_slides" [])) = some (put (decimal count)) := by
    rw [← written_number]
    exact emit?_field (hcount _ _ rfl)
  have hcontent : emit? s (.output (field "slide" ["content"])) = some (put slide.content) :=
    emit?_field (v := .text slide.content) (hslide _ _ (by cbv))
  have hheader := emit?_around "<header>" "</header>\n"
    (hslide ["header"] (.option slide.header) (by cbv))
  have hnotes := emit?_around "<aside class=\"presenter-notes\">\n" "\n</aside>\n"
    (hslide ["presenter_notes"] (.option slide.presenterNotes) (by cbv))
  have hopen : own "<section class=\"slide" = .inl '<' :: own "section class=\"slide" := by cbv
  have hclose : own "\">\n" = own "\"" ++ .inl '>' :: own "\n" := by cbv
  have hparts := @Node.emitAll?_of_forall₂ s slideSection _ (.cons (htext _) (.cons hclasses
    (.cons (htext _) (.cons hnumber (.cons (htext _) (.cons hheader (.cons (htext _) (.cons hcontent
    (.cons (htext _) (.cons hnotes (.cons (htext _) (.cons hnumber (.cons (htext _)
    (.cons hcount (.cons (htext _) .nil)))))))))))))))
  refine hparts.trans (congrArg some ?_)
  rw [hopen, hclose]
  simp only [sectionOf, sectionTag, sectionBody, List.flatten_cons, List.append_assoc,
    List.cons_append, List.nil_append, List.flatten_nil, List.append_nil]

theorem shows_sectionTag (slide : Slide) (name key : Text) :
    Shows name key (.inl '<' :: sectionTag slide ++ [.inl '>'])
      (if name = "section" then [valueOf? key (sectionTag slide)] else []) := by
  have hname : tagName (sectionTag slide) = "section" := by cbv
  have h : Shows name key (.inl '<' :: sectionTag slide ++ [.inl '>']) _ :=
    .tag (by simp [sectionTag, own, put])
  rw [hname] at h
  simpa only [eq_comm] using h

theorem valueOf?_sectionTag (slide : Slide) :
    valueOf? "id" (sectionTag slide) = some ("slide-" ++ decimal slide.number) := by
  have hname : ∀ rest, valueOf? "id" (own "section class=\"slide" ++ rest) = valueOf? "id" rest :=
    fun rest => by cbv
  have hclass : ∀ (c : Text) (rest : Emitted),
      valueOf? "id" ([own " ", put c].flatten ++ rest) = valueOf? "id" rest := fun c rest => by cbv
  have hclasses : ∀ (classes : List Text) (rest : Emitted),
      valueOf? "id" ((classes.flatMap fun c => [own " ", put c].flatten) ++ rest) =
        valueOf? "id" rest := by
    intro classes rest
    induction classes with
    | nil => rfl
    | cons c classes ih => rw [List.flatMap_cons, List.append_assoc, hclass, ih]
  have hid : valueOf? "id" (own "\" id=\"slide-" ++ (put (decimal slide.number) ++ (own "\"" ++ []))) =
      some (spelled (own "slide-" ++ put (decimal slide.number))) := by
    generalize decimal slide.number = number
    cbv
  rw [sectionTag, List.flatten_cons, hname, List.flatten_cons, hclasses]
  simp only [List.flatten_cons, List.flatten_nil]
  rw [hid, spelled_append, spelled_own, spelled_put]

section Anchors
variable {name : Text} (hname : name ∈ anchorNames) (key : Text)
include hname

theorem shows_sectionBody (count : Nat) (slide : Slide) :
    Shows name key (sectionBody count slide) [] :=
  .flatten (.cons (.of_isQuiet (by cbv) hname key) (.cons (.around hname (by cbv) (by cbv) _ key)
    (.cons (.of_isQuiet (by cbv) hname key) (.cons (.put _) (.cons (.of_isQuiet (by cbv) hname key)
    (.cons (.around hname (by cbv) (by cbv) _ key) (.cons (.of_isQuiet (by cbv) hname key)
    (.cons (.put _) (.cons (.of_isQuiet (by cbv) hname key) (.cons (.put _)
    (.cons (.of_isQuiet (by cbv) hname key) .nil)))))))))))

theorem shows_sectionOf (count : Nat) (slide : Slide) : Shows name key (sectionOf count slide)
    (if name = "section" then [valueOf? key (sectionTag slide)] else []) := by
  have h := (shows_sectionTag slide name key).append (shows_sectionBody hname key count slide)
  rwa [List.append_nil] at h

end Anchors

theorem shows_sections (count : Nat) (slides : List Slide) :
    Shows "section" "id" (slides.flatMap (sectionOf count))
        (slides.map fun slide => some ("slide-" ++ decimal slide.number)) ∧
      Shows "a" "href" (slides.flatMap (sectionOf count)) [] := by
  constructor
  · rw [List.map_eq_flatMap]
    refine .flatMap fun slide _ => ?_
    have h := shows_sectionOf List.mem_cons_self "id" count slide
    rwa [if_pos rfl, valueOf?_sectionTag] at h
  · refine .flatMap_nil fun slide _ => ?_
    have h := shows_sectionOf (List.mem_cons_of_mem _ List.mem_cons_self) "href" count slide
    rwa [if_neg (by simp)] at h

/-! ### The outline -/

/-- What stands between the brackets of a link to the slide of an entry. -/
def linkTag (e : Outline.Entry) : Emitted :=
  [own "a href=\"#slide-", put (decimal e.number), own "\""].flatten

/-- What the page emits for an entry with something below it. -/
def itemOf (e : Outline.Entry) (below : Emitted) : Emitted :=
  [own "<li>", .inl '<' :: linkTag e ++ [.inl '>'], put e.title, own "</a>", below,
    own "</li>\n"].flatten

/-- What the page emits for the nodes below an entry, down to a depth. -/
def listed : Nat → List Outline.Node → Emitted
  | 0, _ => []
  | depth + 1, ns =>
    if ns = [] then []
    else [own "\n<ul>\n", ns.flatMap fun n => itemOf n.entry (listed depth n.children),
      own "</ul>\n"].flatten

theorem emitAll?_entryItem {name : Text} {n : Outline.Node} {below : Template} {out : Emitted}
    (h : s.Names name n.value) (hbelow : emitAll? s below = some out) :
    emitAll? s (entryItem name below) = some (itemOf n.entry out) := by
  obtain ⟨e, children⟩ := n
  have htext : ∀ t, emit? s (.text t) = some (own t) := fun t => by rw [emit?]
  have hnumber : emit? s (.output (field name ["number"])) = some (put (decimal e.number)) := by
    rw [← written_number]
    exact emit?_field (h _ _ (by cbv))
  have htitle : emit? s (.output (field name ["title"])) = some (put e.title) :=
    emit?_field (v := .text e.title) (h _ _ (by cbv))
  have hopen : own "<li><a href=\"#slide-" = own "<li>" ++ .inl '<' :: own "a href=\"#slide-" := by
    cbv
  have hclose : own "\">" = own "\"" ++ [.inl '>'] := by cbv
  have hlink := Node.emitAll?_of_forall₂ (.cons (htext "<li><a href=\"#slide-") (.cons hnumber
    (.cons (htext "\">") (.cons htitle (.cons (htext "</a>") .nil)))))
  have hend := Node.emitAll?_of_forall₂ (.cons (htext "</li>\n") .nil)
  refine (Node.emitAll?_append (Node.emitAll?_append hlink hbelow) hend).trans (congrArg some ?_)
  rw [hopen, hclose]
  simp only [itemOf, linkTag, List.flatten_cons, List.flatten_nil, List.append_assoc,
    List.cons_append, List.nil_append, List.append_nil, Outline.Node.entry]

theorem emitAll?_entriesBelow {parent name : Text} {n : Outline.Node} {item : Template}
    {f : Outline.Node → Emitted} (h : s.Names parent n.value)
    (hitem : ∀ m ∈ n.children, ∀ index count,
      emitAll? (s.push ⟨name, m.value, index, count⟩) item = some (f m)) :
    emitAll? s (entriesBelow parent name item) = some (if n.children = [] then []
      else [own "\n<ul>\n", n.children.flatMap f, own "</ul>\n"].flatten) := by
  have hchildren : s.find? ⟨parent, ["children"]⟩ =
      some (.list (n.children.map Outline.Node.value)) := by
    rw [← Outline.valuesOf_eq_map]
    refine h _ _ ?_
    obtain ⟨e, children⟩ := n
    cbv
  have htext : ∀ t, emit? s (.text t) = some (own t) := fun t => by rw [emit?]
  have hloop := Node.emit?_loop Outline.Node.value hchildren hitem
  have hlist := Node.emitAll?_of_forall₂
    (.cons (htext "\n<ul>\n") (.cons hloop (.cons (htext "</ul>\n") .nil)))
  rw [entriesBelow, Node.emitAll?_singleton, field, Node.emit?_choice hchildren]
  by_cases hc : n.children = []
  · simp [Value.isTrue, emitAll?, hc]
  · rw [if_pos (by simpa [Value.isTrue] using hc), if_neg hc]
    exact hlist

theorem emitAll?_entryItem_listed {name inner : Text} {item : Template} {depth : Nat}
    (hinner : inner ≠ "loop")
    (hitem : ∀ (s : Scope) (m : Outline.Node), s.Names inner m.value →
      emitAll? s item = some (itemOf m.entry (listed depth m.children)))
    {n : Outline.Node} (h : s.Names name n.value) :
    emitAll? s (entryItem name (entriesBelow name inner item)) =
      some (itemOf n.entry (listed (depth + 1) n.children)) :=
  emitAll?_entryItem h (emitAll?_entriesBelow h fun m _ index count =>
    hitem _ m (Scope.Names.push_self ⟨inner, m.value, index, count⟩ hinner))

/-- What the page emits for an outline: three levels of it. -/
def navigationOf (ns : List Outline.Node) : Emitted := [
  own "<nav id=\"toc\" class=\"hidden\">\n<h2>Table of Contents</h2>\n<ul>\n",
  ns.flatMap fun n => itemOf n.entry (listed 2 n.children),
  own "</ul>\n</nav>\n"].flatten

theorem emitAll?_navigation {ns : List Outline.Node}
    (h : s.Names "toc" (.list (Outline.Node.valuesOf ns))) :
    emitAll? s navigation = some (navigationOf ns) := by
  have hroots : s.find? ⟨"toc", []⟩ = some (.list (ns.map Outline.Node.value)) := by
    rw [← Outline.valuesOf_eq_map]
    exact h _ _ rfl
  have hleaf : ∀ (s : Scope) (n : Outline.Node), s.Names "leaf" n.value →
      emitAll? s (entryItem "leaf" []) = some (itemOf n.entry (listed 0 n.children)) :=
    fun s n hn => emitAll?_entryItem hn (by rw [emitAll?]; rfl)
  have hsub : ∀ (s : Scope) (n : Outline.Node), s.Names "sub" n.value →
      emitAll? s (entryItem "sub" (entriesBelow "sub" "leaf" (entryItem "leaf" []))) =
        some (itemOf n.entry (listed 1 n.children)) :=
    fun s n hn => emitAll?_entryItem_listed (by simp) hleaf hn
  have htext : ∀ t, emit? s (.text t) = some (own t) := fun t => by rw [emit?]
  have hloop := Node.emit?_loop Outline.Node.value hroots fun n (_ : n ∈ ns) index count =>
    emitAll?_entryItem_listed (by simp) hsub
      (Scope.Names.push_self (s := s) ⟨"section", n.value, index, count⟩ (by simp))
  exact Node.emitAll?_of_forall₂ (.cons (htext _) (.cons hloop (.cons (htext _) .nil)))

/-- The entries of some nodes and those below them down to a depth, in pre-order. -/
def entriesWithin : Nat → List Outline.Node → List Outline.Entry
  | 0, _ => []
  | depth + 1, ns => ns.flatMap fun n => n.entry :: entriesWithin depth n.children

theorem shows_linkTag (e : Outline.Entry) (name key : Text) :
    Shows name key (.inl '<' :: linkTag e ++ [.inl '>'])
      (if name = "a" then [valueOf? key (linkTag e)] else []) := by
  have hname : tagName (linkTag e) = "a" := by cbv
  have h : Shows name key (.inl '<' :: linkTag e ++ [.inl '>']) _ :=
    .tag (by simp [linkTag, own, put])
  rw [hname] at h
  simpa only [eq_comm] using h

theorem valueOf?_linkTag (e : Outline.Entry) :
    valueOf? "href" (linkTag e) = some ("#slide-" ++ decimal e.number) := by
  have hvalue : valueOf? "href" (linkTag e) =
      some (spelled (own "#slide-" ++ put (decimal e.number))) := by
    rw [linkTag]
    generalize decimal e.number = number
    cbv
  rw [hvalue, spelled_append, spelled_own, spelled_put]

theorem shows_itemOf {name : Text} (hname : name ∈ anchorNames) {key : Text} {below : Emitted}
    {values : List (Option Text)} (h : Shows name key below values) (e : Outline.Entry) :
    Shows name key (itemOf e below)
      ((if name = "a" then [valueOf? key (linkTag e)] else []) ++ values) := by
  have hparts : Shows name key (itemOf e below)
      [[], if name = "a" then [valueOf? key (linkTag e)] else [], [], [], values, []].flatten :=
    .flatten (.cons (.of_isQuiet (by cbv) hname key) (.cons (shows_linkTag e name key)
      (.cons (.put _) (.cons (.of_isQuiet (by cbv) hname key) (.cons h
      (.cons (.of_isQuiet (by cbv) hname key) .nil))))))
  simpa only [List.flatten_cons, List.flatten_nil, List.nil_append, List.append_nil] using hparts

/-- Every entry of a list is the link of its item, before those below it. -/
theorem shows_listed {name : Text} (hname : name ∈ anchorNames) (key : Text) (depth : Nat)
    (ns : List Outline.Node) : Shows name key (listed depth ns)
      ((entriesWithin depth ns).flatMap fun e =>
        if name = "a" then [valueOf? key (linkTag e)] else []) := by
  induction depth generalizing ns with
  | zero => exact .nil
  | succ depth ih =>
    rw [listed]
    split
    · next hns =>
      rw [hns]
      exact .nil
    · have hitems := Shows.flatMap fun n (_ : n ∈ ns) => shows_itemOf hname (ih n.children) n.entry
      have hparts := Shows.flatten (.cons (.of_isQuiet (t := "\n<ul>\n") (by cbv) hname key)
        (.cons hitems (.cons (.of_isQuiet (t := "</ul>\n") (by cbv) hname key) .nil)))
      simpa only [entriesWithin, List.flatMap_assoc, List.flatMap_cons, List.flatten_cons,
        List.flatten_nil, List.nil_append, List.append_nil] using hparts

theorem shows_navigationOf {name : Text} (hname : name ∈ anchorNames) (key : Text)
    (ns : List Outline.Node) : Shows name key (navigationOf ns)
      ((entriesWithin 3 ns).flatMap fun e =>
        if name = "a" then [valueOf? key (linkTag e)] else []) := by
  have hitems := Shows.flatMap fun n (_ : n ∈ ns) =>
    shows_itemOf hname (shows_listed hname key 2 n.children) n.entry
  have hparts : Shows name key (navigationOf ns) [[], _, []].flatten :=
    .flatten (.cons (.of_isQuiet (by cbv) hname key) (.cons hitems
      (.cons (.of_isQuiet (by cbv) hname key) .nil)))
  simpa only [entriesWithin, List.flatMap_assoc, List.flatMap_cons, List.flatten_cons,
    List.flatten_nil, List.nil_append, List.append_nil] using hparts

theorem shows_navigation (ns : List Outline.Node) :
    Shows "section" "id" (navigationOf ns) [] ∧ Shows "a" "href" (navigationOf ns)
      ((entriesWithin 3 ns).map fun e => some ("#slide-" ++ decimal e.number)) := by
  constructor
  · have h := shows_navigationOf List.mem_cons_self "id" ns
    rwa [List.flatMap_eq_nil_iff.2 fun _ _ => if_neg (by simp)] at h
  · have h := shows_navigationOf (List.mem_cons_of_mem _ List.mem_cons_self) "href" ns
    simpa only [if_true, valueOf?_linkTag, ← List.map_eq_flatMap] using h

/-! ### The page -/

/-- A node emits something, and no links or what they lead to. -/
def IsFrame (s : Scope) (n : Template.Node) : Prop := ∃ out, emit? s n = some out ∧
  ∀ name ∈ anchorNames, ∀ key, Shows name key out []

theorem isFrame_text {t : Text} (h : isQuiet t) : IsFrame s (.text t) :=
  ⟨own t, by rw [emit?], fun _ hname key => .of_isQuiet h hname key⟩

theorem isFrame_tagLines {name : Text} {ts : List Text}
    (h : s.find? ⟨name, []⟩ = some (.texts ts)) : IsFrame s (tagLines name) :=
  ⟨linesOf ts, emit?_tagLines h, fun _ hname key => .flatMap_nil fun t _ =>
    .flatten (.cons (.put t) (.cons (.of_isQuiet (by cbv) hname key) .nil))⟩

theorem isFrame_title {t : Option Text} (h : s.find? ⟨"head_title", []⟩ = some (.option t)) :
    IsFrame s (.choice (field "head_title" [])
      [.output (.filtered (field "head_title" []) "striptags")] [.text "Untitled Presentation"]) := by
  have huntitled : isQuiet "Untitled Presentation" := by cbv
  have hnone := isFrame_text (s := s) huntitled
  rw [IsFrame, field, Node.emit?_choice h, Node.emitAll?_singleton, Node.emitAll?_singleton]
  obtain _ | _ | ⟨c, t⟩ := t
  · exact hnone
  · exact hnone
  · have hfilter : Filter.ofName? "striptags" = some .stripTags := by cbv
    refine ⟨put (brackets.replace (fun _ => []) (c :: t)), ?_, fun _ _ _ => .put _⟩
    rw [if_pos (by rfl), emit?, Expr.value?, Expr.value?, h, hfilter]
    rfl

theorem isFrame_flag {name t : Text} {b : Bool} (ht : isQuiet t)
    (h : s.find? ⟨name, []⟩ = some (.flag b)) : IsFrame s (.choice (field name []) [.text t] []) := by
  rw [IsFrame, field, Node.emit?_choice h, Node.emitAll?_singleton]
  cases b with
  | false => exact ⟨[], by rfl, fun _ _ _ => .nil⟩
  | true => exact isFrame_text (s := s) ht

theorem exists_emitAll?_of_isFrame {ns : Template} (h : ∀ n ∈ ns, IsFrame s n) :
    ∃ out, emitAll? s ns = some out ∧ ∀ name ∈ anchorNames, ∀ key, Shows name key out [] := by
  induction ns with
  | nil => exact ⟨[], by rw [emitAll?], fun _ _ _ => .nil⟩
  | cons n ns ih =>
    obtain ⟨a, ha, hshown⟩ := h n (by simp)
    obtain ⟨b, hb, hrest⟩ := ih fun m hm => h m (List.mem_cons_of_mem n hm)
    exact ⟨a ++ b, by rw [emitAll?, ha, hb]; rfl,
      fun name hname key => (hshown name hname key).append (hrest name hname key)⟩

section Standard
variable (p : Page)

theorem find?_value (name : Text) {v : Value} (h : p.values.lookup name = some v) :
    Scope.find? ⟨[], p.values⟩ ⟨name, []⟩ = some v := Scope.Names.of_values h [] v rfl

theorem exists_emitAll?_opening : ∃ out, emitAll? ⟨[], p.values⟩ opening = some out ∧
    ∀ name ∈ anchorNames, ∀ key, Shows name key out [] := by
  have hcss := isFrame_tagLines (find?_value p "css" (v := .texts p.css) (by cbv))
  have huserCss := isFrame_tagLines
    (find?_value p "user_css" (v := .texts p.userCss) (by cbv))
  refine exists_emitAll?_of_isFrame ?_
  simp only [opening, List.forall_mem_cons]
  exact ⟨isFrame_text (by cbv), isFrame_title (find?_value p _ (v := .option p.headTitle) (by cbv)),
    isFrame_text (by cbv), hcss, huserCss,
    isFrame_flag (by cbv) (find?_value p _ (v := .flag p.mathOutput) (by cbv)),
    isFrame_text (by cbv), by simp⟩

theorem exists_emitAll?_closing : ∃ out, emitAll? ⟨[], p.values⟩ closing = some out ∧
    ∀ name ∈ anchorNames, ∀ key, Shows name key out [] := by
  have hjs := isFrame_tagLines (find?_value p "js" (v := .texts p.js) (by cbv))
  have huserJs := isFrame_tagLines
    (find?_value p "user_js" (v := .texts p.userJs) (by cbv))
  refine exists_emitAll?_of_isFrame ?_
  simp only [closing, List.forall_mem_cons]
  exact ⟨hjs, huserJs, isFrame_text (by cbv), by simp⟩

theorem emit?_slides : emit? ⟨[], p.values⟩ (.loop "slide" (field "slides" []) slideSection []) =
    some (p.slides.flatMap (sectionOf p.slideCount)) := by
  refine Node.emit?_loop Slide.value (find?_value p "slides" (by cbv)) fun slide _ index count => ?_
  have hcount : Scope.Names ⟨[], p.values⟩ "num_slides" (.number p.slideCount) :=
    Scope.Names.of_values (by cbv)
  exact emitAll?_slideSection (Scope.Names.push_self _ (by simp)) (hcount.push (by simp) (by simp))

theorem emitAll?_slides : emitAll? ⟨[], p.values⟩ [.text "<div class=\"slides\">\n",
    .loop "slide" (field "slides" []) slideSection [], .text "</div>\n"] = some
      [own "<div class=\"slides\">\n", p.slides.flatMap (sectionOf p.slideCount),
        own "</div>\n"].flatten :=
  Node.emitAll?_of_forall₂
    (.cons (by rw [emit?]) (.cons (emit?_slides p) (.cons (by rw [emit?]) .nil)))

/-- The built-in page always has a text. Its sections are those of the slides, in their order, and its
links those of the outline within three levels. -/
theorem exists_emitAll?_standard : ∃ out, emitAll? ⟨[], p.values⟩ standard = some out ∧
    Shows "section" "id" out (p.slides.map fun slide => some ("slide-" ++ decimal slide.number)) ∧
    Shows "a" "href" out
      ((entriesWithin 3 p.outline).map fun e => some ("#slide-" ++ decimal e.number)) := by
  obtain ⟨first, hfirst, hshowsFirst⟩ := exists_emitAll?_opening p
  obtain ⟨last, hlast, hshowsLast⟩ := exists_emitAll?_closing p
  have hnavigation : emitAll? ⟨[], p.values⟩ navigation = some (navigationOf p.outline) :=
    emitAll?_navigation (Scope.Names.of_values (by cbv))
  refine ⟨_, Node.emitAll?_append (Node.emitAll?_append (Node.emitAll?_append hfirst hnavigation)
    (emitAll?_slides p)) hlast, ?_⟩
  -- Of both kinds of tags all others are in one part of the page only.
  have hall : ∀ {name key : Text} {links ids : List (Option Text)}, name ∈ anchorNames →
      Shows name key (navigationOf p.outline) links →
      Shows name key (p.slides.flatMap (sectionOf p.slideCount)) ids →
      Shows name key (first ++ navigationOf p.outline ++ [own "<div class=\"slides\">\n",
        p.slides.flatMap (sectionOf p.slideCount), own "</div>\n"].flatten ++ last) (links ++ ids) := by
    intro name key links ids hname hlinks hids
    have hdiv := Shows.flatten (.cons (.of_isQuiet (t := "<div class=\"slides\">\n") (by cbv) hname key)
      (.cons hids (.cons (.of_isQuiet (t := "</div>\n") (by cbv) hname key) .nil)))
    have hpage := (((hshowsFirst name hname key).append hlinks).append hdiv).append
      (hshowsLast name hname key)
    simpa only [List.flatten_cons, List.flatten_nil, List.nil_append, List.append_nil] using hpage
  constructor
  · exact hall List.mem_cons_self (shows_navigation _).1 (shows_sections _ _).1
  · have h := hall (List.mem_cons_of_mem _ List.mem_cons_self) (shows_navigation p.outline).2
      (shows_sections p.slideCount p.slides).2
    rwa [List.append_nil] at h

variable {p} in
theorem render_of_emitAll? {out : Emitted} (h : emitAll? ⟨[], p.values⟩ standard = some out) :
    p.render none = .ok (spelled out) := by
  have hfill : Template.fill? standard p.values = some (spelled out) := by
    rw [Template.fill?, Node.fillAll?_eq, h, Option.map_some]
  rw [render, fill, hfill]

end Standard

end Page

end Slideshow
