import Slideshow.Proofs.EmbeddedImages
import Slideshow.Proofs.FileUrls
import Slideshow.Proofs.PatternParts
import Slideshow.Proofs.StoreChanges

/-!
# Linked and embedded images

An image with a path for an address is linked as a URL and embedded as the contents of a file. The
URL denotes the decoded names of the address, the file is read at its names as they stand. For a
plain address these are the same names, and what the link shows is embedded.
-/
namespace Slideshow
open Text

/-! ## What a path leads to -/

namespace Store
variable {s : Store} {place names found : List Text}

/-- A name that is no silent one. -/
def isStep (name : Text) : Bool := name ≠ [] && name ≠ ("." : Text)

/-- Names that lead to an entry, one directory after the other. -/
inductive Reached (s : Store) : List Text → Prop
  | root : Reached s []
  | enter {place : List Text} {name : Text} (hplace : Reached s place) (hdirectory : s.isDirectoryAt place)
      (hname : Path.isName name) (hlength : (Utf8.encode name).length ≤ 255)
      (hfound : (s.get? (place ++ [name])).isSome) : Reached s (place ++ [name])

theorem Reached.dropLast (h : s.Reached place) : s.Reached place.dropLast := by
  cases h with
  | root => exact .root
  | enter hplace => rwa [List.dropLast_concat]

theorem Reached.isName (h : s.Reached place) : ∀ n ∈ place, Path.isName n := by
  induction h with
  | root => simp
  | enter _ _ hname _ _ ih =>
    intro n hn
    rcases List.mem_append.1 hn with hn | hn
    · exact ih n hn
    · exact List.mem_singleton.1 hn ▸ hname

/-- What a walk finds is reached. -/
theorem reached_of_walk (hplace : s.Reached place) (hslash : ∀ n ∈ names, '/' ∉ n)
    (h : s.walk place names = .ok found) : s.Reached found := by
  induction names generalizing place with
  | nil => exact Except.ok.inj h ▸ hplace
  | cons name names ih =>
    have hrest : ∀ n ∈ names, '/' ∉ n := fun n hn => hslash n (List.mem_cons_of_mem name hn)
    rw [walk] at h
    split at h
    · simp at h
    next hdirectory =>
    split at h
    · exact ih hplace hrest h
    next hstep =>
    split at h
    · exact ih hplace.dropLast hrest h
    next hup =>
    split at h
    · simp at h
    next hlength =>
    split at h
    · simp at h
    next e hfound =>
    have hname : Path.isName name := by
      rw [not_or] at hstep
      simp only [Path.isName, Bool.and_eq_true, decide_eq_true_eq, ne_eq]
      exact ⟨⟨⟨hstep.1, hslash name (by simp)⟩, hstep.2⟩, hup⟩
    exact ih (.enter hplace (by simpa using hdirectory) hname (Nat.le_of_not_lt hlength)
      (by simp [hfound])) hrest h

/-- Names that are reached lead there. -/
theorem Reached.walk_eq (h : s.Reached place) : s.walk [] place = .ok place := by
  induction h with
  | root => rfl
  | @enter place name _ hdirectory hname hlength hfound ih =>
    obtain ⟨e, he⟩ := Option.isSome_iff_exists.1 hfound
    simp only [Path.isName, Bool.and_eq_true, decide_eq_true_eq, ne_eq] at hname
    obtain ⟨⟨⟨hne, -⟩, hdot⟩, hup⟩ := hname
    have hstep : s.walk place [name] = .ok (place ++ [name]) := by
      rw [walk, if_neg (by simp [hdirectory]), if_neg (not_or.2 ⟨hne, hdot⟩), if_neg hup,
        if_neg (Nat.not_lt.2 hlength), he]
      rfl
    rw [walk_append, ih]
    exact hstep

theorem locate_ofNames (h : ∀ n ∈ names, Path.isName n) :
    s.locate (Path.ofNames names) = s.walk [] names := by
  have hroot : s.isDirectoryAt [] := by simp [isDirectoryAt, get?]
  by_cases hne : names = []
  · subst hne
    simp [Path.ofNames, locate, startOf, Path.isAbsolute, pieces, walk, hroot]
  · have hslash : Path.isAbsolute (Path.ofNames names) := by
      obtain ⟨n, rest, rfl⟩ := List.exists_cons_of_ne_nil hne
      simp [Path.ofNames, Path.isAbsolute]
    have hpath : Path.ofNames names ≠ [] := fun he => by simp [he, Path.isAbsolute] at hslash
    rw [locate, if_neg hpath, startOf, if_pos hslash, Path.pieces_ofNames h hne, walk]
    simp [hroot]

theorem followName_encode (place : List Text) (name : Text) :
    Path.followName (place.map Utf8.encode) (Utf8.encode name) =
      (if name = [] ∨ name = ("." : Text) then place
        else if name = (".." : Text) then place.dropLast else place ++ [name]).map Utf8.encode := by
  have hempty : Utf8.encode name = [] ↔ name = [] := Path.encode_eq_iff (m := [])
  have hdot : Utf8.encode name = [46] ↔ name = ("." : Text) := by
    rw [show ([46] : Bytes) = Utf8.encode "." by cbv, Path.encode_eq_iff]
  have hup : Utf8.encode name = [46, 46] ↔ name = (".." : Text) := by
    rw [show ([46, 46] : Bytes) = Utf8.encode ".." by cbv, Path.encode_eq_iff]
  rw [Path.followName, apply_ite (List.map Utf8.encode), apply_ite (List.map Utf8.encode)]
  simp only [hempty, hdot, hup, List.map_dropLast, List.map_append, List.map_singleton]

/-- A walk that succeeds ends where its names lead whatever exists. -/
theorem names_of_walk (h : s.walk place names = .ok found) :
    found.map Utf8.encode = Path.follow (place.map Utf8.encode) (names.map Utf8.encode) := by
  induction names generalizing place with
  | nil =>
    obtain rfl := Except.ok.inj h
    rfl
  | cons name names ih =>
    rw [List.map_cons, Path.follow, List.foldl_cons, followName_encode]
    rw [walk] at h
    split at h
    · simp at h
    split at h
    · next hsilent =>
      rw [if_pos hsilent]
      exact ih h
    next hstep =>
    rw [if_neg hstep]
    split at h
    · next hup =>
      rw [if_pos hup]
      exact ih h
    next hdown =>
    rw [if_neg hdown]
    split at h
    · simp at h
    split at h
    · simp at h
    · exact ih h

/-- Silent names may be left out where another one follows. -/
theorem walk_filter (hlast : ∀ n ∈ names.getLast?, isStep n) (place : List Text) :
    s.walk place (names.filter isStep) = s.walk place names := by
  induction names generalizing place with
  | nil => rfl
  | cons name names ih =>
    by_cases hne : names = []
    · subst hne
      rw [List.filter_cons, if_pos (hlast name rfl), List.filter_nil]
    · have hrest := ih fun n hn => hlast n (by rwa [List.getLast?_cons_of_ne_nil hne])
      by_cases hname : isStep name
      · rw [List.filter_cons, if_pos hname]
        simp only [walk, hrest]
      · have hsilent : name = [] ∨ name = ("." : Text) := by
          simpa [isStep, Classical.or_iff_not_imp_left] using hname
        rw [List.filter_cons, if_neg hname, hrest, walk, if_pos hsilent]
        split
        · next hfile =>
          obtain ⟨n, rest, rfl⟩ := List.exists_cons_of_ne_nil hne
          rw [walk, if_pos hfile]
        · rfl

end Store

/-! ## Plain addresses -/

namespace Url
variable {reference : Text}

/-- Text that says the same as a reference and as a path. -/
structure IsPlain (reference : Text) : Prop where
  settled : cleaned reference = reference
  plain : ∀ c ∈ reference, c ∉ (['%', '?', '#', '\\'] : List Char)

theorem decodeBytes_of_not_mem {s : Text} (h : '%' ∉ s) : decodeBytes s = Utf8.encode s := by
  induction s with
  | nil => simp [decodeBytes, Utf8.encode]
  | cons c s ih =>
    rw [List.mem_cons, not_or] at h
    rw [decodeBytes_cons (Ne.symm h.1), ih h.2]
    rfl

theorem IsPlain.isRooted_eq (h : IsPlain reference) : isRooted reference = Path.isAbsolute reference := by
  rw [isRooted, h.settled, Path.isAbsolute]
  cases reference with
  | nil => rfl
  | cons c s =>
    have hc := h.plain c (by simp)
    simp only [List.mem_cons, List.not_mem_nil, or_false, not_or] at hc
    simp [isSlash, hc]

theorem IsPlain.decoded_segments (h : IsPlain reference) :
    (segments reference).map decodeBytes = (pieces '/' reference).map Utf8.encode := by
  have hchars : ∀ c ∈ reference, c ≠ '%' ∧ c ≠ '?' ∧ c ≠ '#' ∧ c ≠ '\\' := fun c hc => by
    simpa using h.plain c hc
  have hpath : reference.takeWhile (fun c => decide (c ≠ '?') && decide (c ≠ '#')) = reference :=
    List.takeWhile_eq_self_iff.2 fun c hc => by simp [hchars c hc]
  have hslashes : reference.map (fun c => if c = '\\' then '/' else c) = reference := by
    conv => rhs; rw [← List.map_id reference]
    exact List.map_congr_left fun c hc => if_neg (hchars c hc).2.2.2
  rw [segments, h.settled, segmentsOf]
  dsimp only
  rw [hpath, hslashes]
  refine List.map_congr_left fun p hp => decodeBytes_of_not_mem fun hmem => ?_
  exact (hchars _ ((not_mem_of_mem_pieces hp).2 hmem)).1 rfl

end Url

namespace Path

/-- A path that never goes up and ends with a name. -/
structure IsDownward (p : Text) : Prop where
  noUp : ∀ n ∈ pieces '/' p, n ≠ (".." : Text)
  last : ∀ n ∈ (pieces '/' p).getLast?, Store.isStep n

theorem follow_filter (start : List Bytes) (names : List Text) :
    follow start ((names.filter Store.isStep).map Utf8.encode) = follow start (names.map Utf8.encode) := by
  induction names generalizing start with
  | nil => rfl
  | cons name names ih =>
    by_cases hname : Store.isStep name
    · rw [List.filter_cons, if_pos hname, List.map_cons, List.map_cons, follow, List.foldl_cons]
      exact ih _
    · have hsilent : Utf8.encode name = [] ∨ Utf8.encode name = [46] := by
        have : name = [] ∨ name = ("." : Text) := by
          simpa [Store.isStep, Classical.or_iff_not_imp_left] using hname
        rcases this with rfl | rfl
        · exact .inl rfl
        · exact .inr (by cbv)
      have hstay : followName start (Utf8.encode name) = start := by rw [followName, if_pos hsilent]
      rw [List.filter_cons, if_neg hname, ih, List.map_cons, follow, follow, List.foldl_cons, hstay]

theorem IsDownward.filter_pieces {p : Text} (h : IsDownward p) :
    ∀ n ∈ (pieces '/' p).filter Store.isStep, isName n := by
  intro n hn
  obtain ⟨hp, hstep⟩ := List.mem_filter.1 hn
  simp only [Store.isStep, Bool.and_eq_true, decide_eq_true_eq, ne_eq] at hstep
  simp only [isName, Bool.and_eq_true, decide_eq_true_eq, ne_eq]
  exact ⟨⟨⟨hstep.1, (not_mem_of_mem_pieces hp).1⟩, hstep.2⟩, h.noUp n hp⟩

end Path

/-! ## Images -/

/-- The file that a URL denotes, as a reader of the page finds it. -/
def Origin.Shows (o : Origin) (url : Text) (contents : Bytes) : Prop :=
  ∃ names : List Text, Url.fileNames? url = some (names.map Utf8.encode) ∧
    o.store.read (Path.ofNames names) = .ok contents

namespace Pass

/-- An image whose address is a reference: not empty, not within the page, no URL by itself. -/
def Image.isLocal (i : Image) : Bool :=
  i.address ≠ [] && i.address.head? ≠ some '#' && !Url.isAbsolute i.address

section Linked
variable {names : List Text} {i : Image}

theorem Image.exists_linked (hnames : ∀ n ∈ names, Path.isName n)
    (hdrive : ∀ n ∈ names.head?, Url.isDrive n = false) (hi : i.isLocal)
    (hreference : Url.IsPathReference i.address) :
    ∃ url, i.linked (Path.ofNames names) = { i with address := url } ∧
      Url.fileNames? url = some (Path.follow
        (if Url.isRooted i.address then [] else names.map Utf8.encode)
        ((Url.segments i.address).map Url.decodeBytes)) := by
  obtain ⟨url, hurl, hfile⟩ := Url.exists_resolve? hnames hdrive hreference
  simp only [Image.isLocal, Bool.and_eq_true, decide_eq_true_eq, Bool.not_eq_true', ne_eq] at hi
  refine ⟨url, ?_, hfile⟩
  rw [Image.linked, if_neg (by simp [hi]), hurl]
  rfl

theorem isAbsolute_join (address : Text) :
    Path.isAbsolute (Path.join (Path.ofNames names) address) := by
  rw [Path.join]
  split
  · assumption
  · cases names <;> split <;> simp [Path.ofNames, Path.isAbsolute]

/-- What is read at a path from a directory is a file that its names lead to. -/
theorem read_of_read_join {s : Store} {address : Text} {contents : Bytes}
    (h : s.read (Path.join (Path.ofNames names) address) = .ok contents) :
    ∃ found : List Text, found.map Utf8.encode = Path.namesOf (Path.join (Path.ofNames names) address) ∧
      s.read (Path.ofNames found) = .ok contents := by
  generalize hpath : Path.join (Path.ofNames names) address = path at h
  have habsolute : Path.isAbsolute path := hpath ▸ isAbsolute_join address
  cases hfound : s.locate path with
  | error fault => simp [Store.read, hfound, bind, Except.bind] at h
  | ok found =>
    have hwalk : s.walk [] (pieces '/' path) = .ok found := by
      rw [Store.locate] at hfound
      split at hfound
      · simp at hfound
      · rwa [Store.startOf, if_pos habsolute] at hfound
    have hreached := Store.reached_of_walk .root (fun n hn => (not_mem_of_mem_pieces hn).1) hwalk
    refine ⟨found, Store.names_of_walk hwalk, ?_⟩
    rw [Store.read, Store.locate_ofNames hreached.isName, hreached.walk_eq]
    rwa [Store.read, hfound] at h

/-- The names of a path that only goes down lead to what is read at it. -/
theorem read_join (hnames : ∀ n ∈ names, Path.isName n) {address : Text}
    (hdown : Path.IsDownward address) (s : Store) {found : List Text}
    (hfound : found.map Utf8.encode = Path.namesOf (Path.join (Path.ofNames names) address)) :
    s.read (Path.join (Path.ofNames names) address) = s.read (Path.ofNames found) := by
  have hsteps : names.filter Store.isStep = names := List.filter_eq_self.2 fun n hn => by
    have := hnames n hn
    simp only [Path.isName, Bool.and_eq_true] at this
    simp only [Store.isStep, Bool.and_eq_true]
    exact ⟨this.1.1.1, this.1.2⟩
  have hpieces : (pieces '/' (Path.join (Path.ofNames names) address)).filter Store.isStep =
      (if Path.isAbsolute address then [] else names) ++ (pieces '/' address).filter Store.isStep := by
    rw [Path.pieces_join hnames]
    split
    · rfl
    · rw [List.filter_append, List.filter_cons, if_neg (by simp [Store.isStep]), hsteps]
  have hlast : ∀ n ∈ (pieces '/' (Path.join (Path.ofNames names) address)).getLast?, Store.isStep n := by
    rw [Path.pieces_join hnames]
    split
    · exact hdown.last
    · rw [List.getLast?_append_of_ne_nil _ (pieces_ne_nil '/' address)]
      exact hdown.last
  have hall : ∀ n ∈ (pieces '/' (Path.join (Path.ofNames names) address)).filter Store.isStep,
      Path.isName n := by
    intro n hn
    rw [hpieces] at hn
    rcases List.mem_append.1 hn with hn | hn
    · split at hn
      · simp at hn
      · exact hnames n hn
    · exact hdown.filter_pieces n hn
  obtain rfl : found = (pieces '/' (Path.join (Path.ofNames names) address)).filter Store.isStep := by
    rw [Path.namesOf, ← Path.follow_filter, Path.follow_eq_append, List.nil_append] at hfound
    · exact List.map_injective_iff.2 (fun _ _ => Path.encode_eq_iff.1) hfound
    · intro n hn
      obtain ⟨m, hm, rfl⟩ := List.mem_map.1 hn
      exact Path.encode_of_isName (hall m hm)
  have habsolute := @isAbsolute_join names address
  have hpath : Path.join (Path.ofNames names) address ≠ [] := fun he => by
    simp [he, Path.isAbsolute] at habsolute
  rw [Store.read, Store.read, Store.locate_ofNames hall, Store.walk_filter hlast, Store.locate,
    if_neg hpath, Store.startOf, if_pos habsolute]

/-- An image that the linked page shows: its address is plain, and its URL denotes a file of a known
type. -/
structure Image.IsShown (origin : Origin) (names : List Text) (i : Image) : Prop where
  isLocal : i.isLocal
  reference : Url.IsPathReference i.address
  plain : Url.IsPlain i.address
  down : Path.IsDownward i.address
  file : ∃ contents, origin.Shows (i.linked (Path.ofNames names)).address contents
  known : (imageType? (Path.join (Path.ofNames names) i.address)).isSome

variable {origin : Origin} (hdirectory : origin.directory? = some (Path.ofNames names))
  (hnames : ∀ n ∈ names, Path.isName n) (hdrive : ∀ n ∈ names.head?, Url.isDrive n = false)

include hnames hdrive

/-- The names in the URL of a plain address are those of its path. -/
theorem Image.exists_linked_plain (hi : i.isLocal) (hreference : Url.IsPathReference i.address)
    (hplain : Url.IsPlain i.address) :
    ∃ url, i.linked (Path.ofNames names) = { i with address := url } ∧
      Url.fileNames? url = some (Path.namesOf (Path.join (Path.ofNames names) i.address)) := by
  obtain ⟨url, hurl, hfile⟩ := Image.exists_linked hnames hdrive hi hreference
  exact ⟨url, hurl, by rw [hfile, Path.namesOf_join hnames, hplain.isRooted_eq, hplain.decoded_segments]⟩

include hdirectory

/-- What the link shows is what embedding puts in its place. -/
theorem Image.IsShown.embedded_eq (h : i.IsShown origin names) : ∃ type contents,
    origin.Shows (i.linked (Path.ofNames names)).address contents ∧
      i.embedded origin = pure (i.inlined type contents) := by
  obtain ⟨url, hurl, hfile⟩ := Image.exists_linked_plain hnames hdrive h.isLocal h.reference h.plain
  obtain ⟨contents, hshows⟩ := h.file
  obtain ⟨type, htype⟩ := Option.isSome_iff_exists.1 h.known
  refine ⟨type, contents, hshows, ?_⟩
  obtain ⟨found, hfound, hread⟩ := hshows
  rw [hurl, hfile, Option.some.injEq] at hfound
  rw [← read_join hnames h.down origin.store hfound.symm] at hread
  have hlocal := h.isLocal
  simp only [Image.isLocal, Bool.and_eq_true, decide_eq_true_eq, Bool.not_eq_true', ne_eq] at hlocal
  have hhas : i.HasFile origin type contents := by
    rw [Image.HasFile, hdirectory]
    exact ⟨htype, hread⟩
  exact hhas.embedded_eq (by simp [Image.IsSelfContained, hlocal])

/-- An image is linked to the decoded names of its address and embedded from the names as they stand,
which is the same file if and only if these lead to the same place. They do for every plain address:
then a file that is embedded is the one that the link shows, and content whose images the linked page
shows is embedded without a message, each image with the file that its link shows. -/
theorem embedded_of_linked :
    (∀ i : Image, i.isLocal → Url.IsPathReference i.address →
      ∃ url, i.linked (Path.ofNames names) = { i with address := url } ∧
        (Url.fileNames? url = some (Path.namesOf (Path.join (Path.ofNames names) i.address)) ↔
          Path.follow (if Url.isRooted i.address then [] else names.map Utf8.encode)
              ((Url.segments i.address).map Url.decodeBytes) =
            Path.follow (if Path.isAbsolute i.address then [] else names.map Utf8.encode)
              ((pieces '/' i.address).map Utf8.encode)) ∧
        (Url.IsPlain i.address →
          Url.fileNames? url = some (Path.namesOf (Path.join (Path.ofNames names) i.address)) ∧
          ∀ contents, origin.store.read (Path.join (Path.ofNames names) i.address) = .ok contents →
            origin.Shows url contents)) ∧
      ∀ content, (∀ i ∈ Image.pattern.parts content, i.IsSelfContained ∨ i.IsShown origin names) →
        (embedImages true).run origin content =
            ⟨[], .ok ⟨Image.pattern.replace (fun i => (i.settled origin).spell) content, []⟩⟩ ∧
          ∀ i ∈ Image.pattern.parts content, i.isLocal → ∃ type contents,
            origin.Shows (i.linked (Path.ofNames names)).address contents ∧
              i.settled origin = i.inlined type contents := by
  refine ⟨fun i hi hreference => ?_, fun content hcontent => ?_⟩
  · obtain ⟨url, hurl, hfile⟩ := Image.exists_linked hnames hdrive hi hreference
    refine ⟨url, hurl, by rw [hfile, Path.namesOf_join hnames, Option.some.injEq], fun hplain => ?_⟩
    obtain ⟨url', hurl', hsame⟩ := Image.exists_linked_plain hnames hdrive hi hreference hplain
    obtain rfl : url = url' := congrArg Image.address (hurl.symm.trans hurl')
    refine ⟨hsame, fun contents hread => ?_⟩
    obtain ⟨found, hfound, hread⟩ := read_of_read_join hread
    exact ⟨found, hsame.trans (congrArg some hfound.symm), hread⟩
  · have hquiet : ∀ i ∈ Image.pattern.parts content, (i.embedded origin).messages = [] := by
      intro i hi
      rcases hcontent i hi with hself | hshown
      · rw [hself.embedded_eq origin]
        rfl
      · obtain ⟨type, contents, -, hembedded⟩ := hshown.embedded_eq hdirectory hnames hdrive
        rw [hembedded]
        rfl
    refine ⟨?_, fun i hi hlocal => ?_⟩
    · rw [run_embedImages, List.flatMap_eq_nil_iff.2 hquiet]
    · simp only [Image.isLocal, Bool.and_eq_true, decide_eq_true_eq, Bool.not_eq_true', ne_eq] at hlocal
      have hshown := (hcontent i hi).resolve_left (by simp [Image.IsSelfContained, hlocal])
      obtain ⟨type, contents, hshows, hembedded⟩ := hshown.embedded_eq hdirectory hnames hdrive
      exact ⟨type, contents, hshows, by rw [Image.settled, hembedded]; rfl⟩

end Linked

/-- An image beside its document. -/
def dotImage : Image := ⟨" ", "./dot.png"⟩

theorem isShown_dotImage : dotImage.IsShown (illustrated "dot.png") ["deck"] where
  isLocal := by cbv
  reference :=
    { noScheme := by cbv
      noHost := by
        intro a b rest hcleaned ha
        have hhead : Url.isSlash ((Url.cleaned dotImage.address).headD ' ') = false := by cbv
        rw [hcleaned] at hhead
        exact absurd ha (by simp [show Url.isSlash a = false from hhead])
      noDrive := by
        have hnone : (Url.segments dotImage.address).all fun s => !Url.isDrive s := by cbv
        simpa using hnone
      noGap := by
        have hnone : (Url.segments dotImage.address).all fun s => !Url.isDoubleDot s := by cbv
        exact .inl (by simpa using hnone) }
  plain :=
    { settled := by cbv
      plain := by
        have hnone : dotImage.address.all fun c => c ∉ (['%', '?', '#', '\\'] : List Char) := by cbv
        simpa only [List.all_eq_true, decide_eq_true_eq] using hnone }
  down :=
    { noUp := by
        have hnone : (pieces '/' dotImage.address).all fun n => n ≠ (".." : Text) := by cbv
        simpa only [List.all_eq_true, decide_eq_true_eq] using hnone
      last := by
        have hlast : (pieces '/' dotImage.address).getLast? = some "dot.png" := by cbv
        rw [hlast]
        rintro n ⟨⟩
        cbv }
  file := ⟨[120], ["deck", "dot.png"], by cbv, by cbv⟩
  known := by cbv

theorem embedded_of_linked_dotImage :
    (illustrated "dot.png").directory? = some (Path.ofNames ["deck"]) ∧
      (∀ n ∈ (["deck"] : List Text), Path.isName n) ∧
      (∀ n ∈ (["deck"] : List Text).head?, Url.isDrive n = false) ∧
      Image.pattern.parts dotImage.spell = [dotImage] ∧
      dotImage.IsShown (illustrated "dot.png") ["deck"] ∧
      ((embedImages true).run (illustrated "dot.png") dotImage.spell).messages = [] ∧
      ∃ type contents, (illustrated "dot.png").Shows "file:///deck/dot.png" contents ∧
        dotImage.settled (illustrated "dot.png") = dotImage.inlined type contents := by
  have hdirectory : (illustrated "dot.png").directory? = some (Path.ofNames ["deck"]) := by cbv
  have hnames : ∀ n ∈ (["deck"] : List Text), Path.isName n := List.all_eq_true.1 (by cbv)
  have hdrive : ∀ n ∈ (["deck"] : List Text).head?, Url.isDrive n = false := by
    rintro n ⟨⟩
    cbv
  have hparts : Image.pattern.parts dotImage.spell = [dotImage] := by
    rw [Pattern.parts, Pattern.split_eq_splitWithin _ 40 (by cbv)]
    cbv
  have hlinked : (dotImage.linked (Path.ofNames ["deck"])).address = "file:///deck/dot.png" := by cbv
  obtain ⟨hrun, hsettled⟩ := (embedded_of_linked hdirectory hnames hdrive).2 dotImage.spell
    (by rw [hparts]; exact fun i hi => .inr (List.mem_singleton.1 hi ▸ isShown_dotImage))
  obtain ⟨type, contents, hshows, hsame⟩ :=
    hsettled dotImage (by simp [hparts]) isShown_dotImage.isLocal
  rw [hlinked] at hshows
  exact ⟨hdirectory, hnames, hdrive, hparts, isShown_dotImage, by rw [hrun], type, contents, hshows, hsame⟩

/-- Content with an image whose name has an encoded space. -/
def encodedSpace : Text := "<p><img src=\"a%20b.png\"></p>"

/-- The link of an address with an encoded space shows the file of that name, which embedding does not
find. -/
theorem not_embedded_of_encodedSpace :
    (linkImages false).run (illustrated "a b.png") encodedSpace =
        pure ⟨"<p><img src=\"file:///deck/a%20b.png\"></p>", []⟩ ∧
      (illustrated "a b.png").Shows "file:///deck/a%20b.png" [120] ∧
      (embedImages true).run (illustrated "a b.png") encodedSpace =
        ⟨[⟨.warning, "Image not found: /deck/a%20b.png"⟩], .ok ⟨encodedSpace, []⟩⟩ := by
  have hsplit : Image.pattern.split encodedSpace = Image.pattern.splitWithin 40 encodedSpace :=
    Image.pattern.split_eq_splitWithin 40 (by cbv)
  refine ⟨?_, ⟨["deck", "a b.png"], by cbv, by cbv⟩, ?_⟩
  · simp only [linkImages, Pattern.replace, hsplit]
    cbv
  · rw [run_embedImages, Pattern.parts, Pattern.replace, hsplit]
    cbv

end Pass

end Slideshow
