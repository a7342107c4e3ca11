import Slideshow.Proofs.FileUrls

/-!
# What the URL of a reference holds

However a reference is spelled, the URL that it makes names its scheme first and has no angle bracket.
-/
namespace Slideshow
open Text

namespace Text

/-- A character that separates nothing is in one of the pieces. -/
theorem exists_mem_pieces {c d : Char} {s : Text} (hcd : c ≠ d) (h : c ∈ s) : ∃ p ∈ pieces d s, c ∈ p := by
  induction s with
  | nil => simp at h
  | cons a s ih =>
    rw [pieces]
    by_cases ha : a = d
    · obtain hc | hc := List.mem_cons.1 h
      · exact absurd (hc.trans ha) hcd
      · obtain ⟨p, hp, hcp⟩ := ih hc
        exact ⟨p, by simp [ha, hp], hcp⟩
    · obtain ⟨q, qs, hq⟩ := List.exists_cons_of_ne_nil (pieces_ne_nil d s)
      rw [if_neg ha, hq]
      obtain hc | hc := List.mem_cons.1 h
      · exact ⟨a :: q, by simp, by simp [hc]⟩
      · obtain ⟨p, hp, hcp⟩ := ih hc
        rw [hq] at hp
        obtain rfl | hp := List.mem_cons.1 hp
        · exact ⟨a :: p, by simp, List.mem_cons_of_mem a hcp⟩
        · exact ⟨p, by simp [hp], hcp⟩

end Text

namespace Url

/-- A character that begins or ends a tag. -/
def IsBracket (c : Char) : Prop := c = '<' ∨ c = '>'

section Brackets
variable {c : Char} (hc : IsBracket c)
include hc

/-! ## Hosts -/

theorem bracket_not_mem_of_isIpv4Byte {s : Text} (h : isIpv4Byte s) : c ∉ s := by
  simp only [isIpv4Byte, Bool.and_eq_true, List.all_eq_true] at h
  exact fun hmem => absurd (h.1.2 c hmem) (by rcases hc with rfl | rfl <;> decide)

theorem bracket_not_mem_of_ipv6Pieces? {s : Text} {n : Nat} (h : ipv6Pieces? s = some n) : c ∉ s := by
  intro hmem
  have hne : s ≠ [] := List.ne_nil_of_mem hmem
  obtain ⟨p, hp, hmem⟩ := exists_mem_pieces (d := ':') (by rcases hc with rfl | rfl <;> decide) hmem
  have hgroup : ∀ g : Text, c ∈ g →
      ¬(g ≠ [] && g.length ≤ 4 && g.all (hexValue? · |>.isSome)) := by
    intro g hg hall
    simp only [Bool.and_eq_true, List.all_eq_true] at hall
    exact absurd (hall.2 c hg) (by rcases hc with rfl | rfl <;> decide)
  rw [ipv6Pieces?, if_neg hne] at h
  dsimp only at h
  rw [← dropLast_append_getLastD (pieces_ne_nil ':' s), List.mem_append, List.mem_singleton] at hp
  split at h
  · simp at h
  next hfront =>
  obtain hp | rfl := hp
  · simp only [Bool.not_eq_true', Bool.not_eq_false, List.all_eq_true] at hfront
    exact hgroup p hmem (hfront p hp)
  · rw [if_neg (hgroup _ hmem)] at h
    split at h
    · next hparts =>
      simp only [Bool.and_eq_true, List.all_eq_true] at hparts
      obtain ⟨q, hq, hmem⟩ :=
        exists_mem_pieces (d := '.') (by rcases hc with rfl | rfl <;> decide) hmem
      exact bracket_not_mem_of_isIpv4Byte hc (hparts.2 q hq) hmem
    · simp at h

theorem bracket_not_mem_of_isIpv6 {s : Text} (h : isIpv6 s) : c ∉ s := by
  rw [isIpv6] at h
  split at h
  · exact bracket_not_mem_of_ipv6Pieces? hc (of_decide_eq_true h)
  · next before after hcut =>
    have colon : c ≠ ':' := by rcases hc with rfl | rfl <;> decide
    split at h
    · next m n hbefore hafter =>
      rw [eq_append_of_cutAt? hcut]
      simp [bracket_not_mem_of_ipv6Pieces? hc hbefore, bracket_not_mem_of_ipv6Pieces? hc hafter, colon]
    · simp at h

theorem bracket_not_mem_toLower {s : Text} (h : c ∉ s) : c ∉ s.map Char.toLower := by
  intro hmem
  obtain ⟨d, hd, he⟩ := List.mem_map.1 hmem
  obtain rfl := eq_of_toLower_eq he (by rcases hc with rfl | rfl <;> decide)
  exact h hd

theorem bracket_not_mem_written {s : Text} {host : Host} (h : Host.read? s = some host) :
    c ∉ host.written := by
  rw [Host.read?] at h
  split at h
  · obtain ⟨address, haddress, rfl⟩ := Option.map_eq_some_iff.1 h
    have hfree := bracket_not_mem_toLower hc
      (bracket_not_mem_of_isIpv6 hc (Option.filter_eq_some_iff.1 haddress).2)
    have hmarks : c ≠ '[' ∧ c ≠ ']' := by rcases hc with rfl | rfl <;> decide
    simpa [Host.written, hmarks] using hfree
  · simp only [Host.ofDomain?] at h
    split at h
    · simp at h
    next hname =>
    split at h
    · obtain ⟨address, -, rfl⟩ := Option.map_eq_some_iff.1 h
      intro hmem
      rcases mem_intercalate hmem with hmem | ⟨digits, hdigits, hmem⟩
      · exact absurd hmem (by rcases hc with rfl | rfl <;> decide)
      · obtain ⟨unit, -, rfl⟩ := List.mem_map.1 hdigits
        have hdigit : c.isDigit := Nat.isDigit_of_mem_toDigits (by decide) (by decide) hmem
        exact absurd hdigit (by rcases hc with rfl | rfl <;> decide)
    · obtain rfl := Option.some.inj h
      simp only [Bool.or_eq_true, not_or, List.any_eq_true, not_exists, not_and] at hname
      exact fun hmem => hname.1.2 c hmem (by rcases hc with rfl | rfl <;> decide)

theorem bracket_not_mem_writtenFileHost? {s host : Text} (h : writtenFileHost? s = some host) :
    c ∉ host := by
  rw [writtenFileHost?] at h
  split at h
  · obtain rfl := Option.some.inj h
    simp
  · obtain ⟨read, hread, rfl⟩ := Option.map_eq_some_iff.1 h
    split
    · simp
    · exact bracket_not_mem_written hc hread

/-! ## Paths and what follows them -/

theorem bracket_not_mem_encode {reserved : List Char} (h : c ∈ reserved) (t : Text) :
    c ∉ encode reserved t := by
  intro hmem
  have hplain : c ≠ '%' ∧ hexValue? c = none := by rcases hc with rfl | rfl <;> decide
  exact (mem_of_mem_encode hplain.1 hplain.2 hmem).2 h

theorem bracket_not_mem_writePath {segments : List Text} (h : ∀ s ∈ segments, c ∉ s) :
    c ∉ writePath segments := by
  have hslash : c ≠ '/' := by rcases hc with rfl | rfl <;> decide
  by_cases hne : segments = []
  · simp [hne, writePath, hslash]
  · exact not_mem_writePath hne hslash h

theorem bracket_not_mem_writeTail (s : Text) : c ∉ writeTail s := by
  have hquery := @bracket_not_mem_encode _ hc queryReserved (by rcases hc with rfl | rfl <;> decide)
  have hfragment := @bracket_not_mem_encode _ hc fragmentReserved (by
    rcases hc with rfl | rfl <;> decide)
  have hmarks : c ≠ '?' ∧ c ≠ '#' := by rcases hc with rfl | rfl <;> decide
  unfold writeTail
  dsimp only
  split <;> split <;> simp [hquery, hfragment, hmarks]

theorem bracket_not_mem_follow {segments done : List Text} (hdone : ∀ s ∈ done, c ∉ s)
    (h : ∀ s ∈ segments, c ∉ s) : ∀ s ∈ follow done segments, c ∉ s := by
  have hempty : ∀ {ts : List Text}, (∀ s ∈ ts, c ∉ s) → ∀ s ∈ ts ++ [[]], c ∉ s := by
    intro ts hts s hs
    rcases List.mem_append.1 hs with hs | hs
    · exact hts s hs
    · simp [List.mem_singleton.1 hs]
  have hstep : ∀ (done : List Text) s, (∀ s ∈ done, c ∉ s) → c ∉ s →
      ∀ t ∈ done ++ [if done = [] && isDrive s then [s.headD 'c', ':'] else s], c ∉ t := by
    intro done s hdone hs t ht
    rcases List.mem_append.1 ht with ht | ht
    · exact hdone t ht
    obtain rfl := List.mem_singleton.1 ht
    have hmarks : c ≠ 'c' ∧ c ≠ ':' := by rcases hc with rfl | rfl <;> decide
    split
    · cases s with
      | nil => simp [hmarks]
      | cons d s => simpa [hmarks] using (not_or.1 (mt List.mem_cons.2 hs)).1
    · exact hs
  fun_induction follow done segments with
  | case1 done => exact hempty hdone
  | case2 done last hdots => exact hempty fun s hs => hdone s (shortened_subset done hs)
  | case3 done last _ hdot => exact hempty hdone
  | case4 done last => exact hstep done last hdone (h last (by simp))
  | case5 done s rest _ hdots ih =>
    exact ih (fun t ht => hdone t (shortened_subset done ht)) fun t ht => h t (List.mem_cons_of_mem s ht)
  | case6 done s rest _ _ hdot ih => exact ih hdone fun t ht => h t (List.mem_cons_of_mem s ht)
  | case7 done s rest _ _ _ ih =>
    exact ih (hstep done s hdone (h s (by simp))) fun t ht => h t (List.mem_cons_of_mem s ht)

end Brackets

/-- A URL of a file without an angle bracket. -/
def IsFileUrl (url : Text) : Prop := ∃ rest, url = "file://" ++ rest ∧ ∀ c, IsBracket c → c ∉ rest

/-- The URL of a host and a path that is followed from some names, whatever the path holds. -/
theorem isFileUrl_written {host : Text} {start : List Text} (hhost : ∀ c, IsBracket c → c ∉ host)
    (hstart : ∀ c, IsBracket c → ∀ s ∈ start, c ∉ s) (segments : List Text) (tail : Text) :
    IsFileUrl ("file://" ++ host ++
      writePath (follow start (segments.map (encode pathReserved))) ++ writeTail tail) := by
  refine ⟨host ++ writePath (follow start (segments.map (encode pathReserved))) ++ writeTail tail,
    by simp, fun c hc => ?_⟩
  have hsegments : ∀ s ∈ segments.map (encode pathReserved), c ∉ s := by
    intro s hs
    obtain ⟨t, -, rfl⟩ := List.mem_map.1 hs
    exact bracket_not_mem_encode hc (by rcases hc with rfl | rfl <;> decide) t
  have hpath := bracket_not_mem_writePath hc (bracket_not_mem_follow hc (hstart c hc) hsegments)
  simp [hhost c hc, hpath, bracket_not_mem_writeTail hc]

theorem isFileUrl_of_resolve? {directory reference url : Text}
    (h : resolve? directory reference = some url) : IsFileUrl url := by
  simp only [resolve?] at h
  split at h
  · simp at h
  generalize hnames : segmentsOfNames
    ((pieces '/' directory).filter fun n => n ≠ [] && n ≠ ("." : Text)) = base at h
  have hbase : ∀ c, IsBracket c → ∀ s ∈ base, c ∉ s := by
    intro c hc s hs
    rw [← hnames] at hs
    obtain ⟨n, -, rfl⟩ := List.mem_map.1 hs
    exact bracket_not_mem_encode hc (by rcases hc with rfl | rfl <;> decide) n
  have hdrive : ∀ c, IsBracket c → ∀ s ∈ (base.take 1).filter isDrive, c ∉ s := fun c hc s hs =>
    hbase c hc s (List.mem_of_mem_take (List.mem_filter.1 hs).1)
  have hstart : ∀ tail, IsFileUrl ("file://" ++ writePath (base ++ [[]]) ++ writeTail tail) := by
    intro tail
    refine ⟨writePath (base ++ [[]]) ++ writeTail tail, by simp, fun c hc => ?_⟩
    have hpath : c ∉ writePath (base ++ [[]]) := bracket_not_mem_writePath hc fun s hs => by
      rcases List.mem_append.1 hs with hs | hs
      · exact hbase c hc s hs
      · simp [List.mem_singleton.1 hs]
    simp [hpath, bracket_not_mem_writeTail hc]
  split at h
  · obtain rfl := Option.some.inj h
    simpa [writeTail] using hstart []
  · obtain rfl := Option.some.inj h
    exact hstart _
  · obtain rfl := Option.some.inj h
    exact hstart _
  · split at h
    · split at h
      · split at h
        · obtain ⟨host, hhost, rfl⟩ := Option.map_eq_some_iff.1 h
          exact isFileUrl_written (fun c hc => bracket_not_mem_writtenFileHost? hc hhost) (by simp) _ _
        · obtain rfl := Option.some.inj h
          refine isFileUrl_written (by simp) (fun c hc s hs => ?_) _ _
          split at hs
          · simp at hs
          · exact hdrive c hc s hs
      · obtain rfl := Option.some.inj h
        exact isFileUrl_written (by simp) hdrive _ _
    split at h
    · obtain rfl := Option.some.inj h
      exact isFileUrl_written (by simp) (by simp) _ _
    · obtain rfl := Option.some.inj h
      exact isFileUrl_written (by simp) hbase _ _

theorem IsFileUrl.bracket_not_mem {url : Text} (h : IsFileUrl url) {c : Char} (hc : IsBracket c) :
    c ∉ url := by
  obtain ⟨rest, rfl, hrest⟩ := h
  have hscheme : c ∉ ("file://" : Text) := by
    rcases hc with rfl | rfl <;> simp
  rw [List.mem_append, not_or]
  exact ⟨hscheme, hrest c hc⟩

/-- What starts with the scheme of files is no reference below a directory. -/
theorem isSome_scheme?_file (rest : Text) : (scheme? (cleaned ("file://" ++ rest))).isSome := by
  have hmargin : ("file://" : Text).reverse.dropWhile (fun c => decide (c.toNat ≤ 32)) =
      ("file://" : Text).reverse := by cbv
  have hkept : ("file://" : Text).filter (fun c => c ≠ '\t' && c ≠ '\n' && c ≠ '\r') = "file://" := by
    cbv
  have hcleaned : ∃ kept, cleaned ("file://" ++ rest) = "file://" ++ kept := by
    have hfront : ("file://" ++ rest).dropWhile (fun c => decide (c.toNat ≤ 32)) = "file://" ++ rest := by
      simp
    simp only [cleaned]
    rw [hfront, List.reverse_append, List.dropWhile_append]
    split
    · refine ⟨[], ?_⟩
      rw [hmargin, List.reverse_reverse, hkept, List.append_nil]
    · rw [List.reverse_append, List.reverse_reverse, List.filter_append, hkept]
      exact ⟨_, rfl⟩
  obtain ⟨kept, hkept⟩ := hcleaned
  rw [hkept]
  cbv

theorem resolve?_file (directory rest : Text) : resolve? directory ("file://" ++ rest) = none := by
  rw [resolve?]
  exact if_pos (isSome_scheme?_file rest)

end Url

end Slideshow
