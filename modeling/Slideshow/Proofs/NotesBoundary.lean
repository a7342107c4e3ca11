import Slideshow.Proofs.NotesWords

/-!
# Where the presenter notes begin

A heading that announces presenter notes is read from its own text alone. So the first such heading of
a fragment stays the first one whatever is put behind it: a heading that started before it would have
to close two tags and go on.
-/
namespace Slideshow.Markup
open Text

/-- A notes heading ends with the second closing bracket, and nothing behind it matters. -/
theorem exists_of_notesHeading? {u rest : Text} (h : notesHeading? u = some rest) :
    ∃ m, u = m ++ '>' :: rest ∧ m.count '>' = 1 ∧
      ∀ r, notesHeading? (m ++ '>' :: r) = some r := by
  have hclose : '>' ∈ u := by
    simp only [notesHeading?, Option.bind_eq_bind, Option.bind_eq_some_iff] at h
    obtain ⟨v, hv, h⟩ := h
    obtain ⟨a, rfl, -⟩ := eq_append_of_dropWord? hv
    split at h
    · simp at h
    · next digit s =>
      simp only [Option.bind_eq_some_iff, dropAffix?_eq_some_iff] at h
      obtain ⟨-, -, w, hw, -⟩ := h
      have hmem : '>' ∈ s.dropWhile (· ≠ '>') := by
        rw [hw]
        simp
      simp [(List.dropWhile_suffix _).subset hmem]
  obtain ⟨tag, s, rfl, htag⟩ := List.eq_append_cons_of_mem hclose
  rw [notesHeading?_tag htag] at h
  split at h
  · next hstart =>
    obtain ⟨w, n, d, rfl, -, -, hclose, hany⟩ := exists_of_afterNotes? h
    refine ⟨tag ++ '>' :: (w ++ ['<', '/', n, d]), by simp, ?_, fun r => ?_⟩
    · rw [List.count_append, List.count_cons_self, List.count_eq_zero.2 htag,
        List.count_eq_zero.2 hclose]
    · rw [List.append_assoc, List.cons_append, notesHeading?_tag htag, if_pos hstart, hany]
  · simp at h

/-- The heading that parts shown text from notes. -/
theorem exists_of_cutAtNotes? {s before after : Text} (h : cutAtNotes? s = some (before, after)) :
    ∃ m, s = before ++ (m ++ '>' :: after) ∧ m.count '>' = 1 ∧
      ∀ r, notesHeading? (m ++ '>' :: r) = some r := by
  induction s generalizing before with
  | nil => simp [cutAtNotes?] at h
  | cons c s ih =>
    rw [cutAtNotes?] at h
    split at h
    · next rest hrest =>
      obtain ⟨rfl, rfl⟩ := Prod.mk.inj (Option.some.inj h)
      exact exists_of_notesHeading? hrest
    · obtain ⟨⟨b, a⟩, hcut, hq⟩ := Option.map_eq_some_iff.1 h
      obtain ⟨rfl, rfl⟩ := Prod.mk.inj hq
      obtain ⟨m, rfl, hm⟩ := ih hcut
      exact ⟨m, rfl, hm⟩

/-- A text that starts no notes heading starts none either with other notes behind a notes heading
in it: a heading that reached behind that one would hold a third closing bracket. -/
private theorem notesHeading?_eq_none_of_append {s m r : Text} (hm : m.count '>' = 1)
    (h : notesHeading? (s ++ (m ++ '>' :: r)) = none) (r' : Text) :
    notesHeading? (s ++ (m ++ '>' :: r')) = none := by
  rw [Option.eq_none_iff_forall_ne_some]
  intro rest hrest
  obtain ⟨n, hn, hcount, hany⟩ := exists_of_notesHeading? hrest
  have happ : (s ++ m ++ ['>']) ++ r' = (n ++ ['>']) ++ rest := by simpa using hn
  rcases List.append_eq_append_iff.1 happ with ⟨z, hz, -⟩ | ⟨z, hz, -⟩
  · rcases List.eq_nil_or_concat z with rfl | ⟨z, c, rfl⟩
    · have hsame := hany r
      have hfront : n ++ '>' :: r = s ++ (m ++ '>' :: r) := by
        simpa using congrArg (· ++ r) hz
      simp [hfront, h] at hsame
    · rw [List.concat_eq_append, ← List.append_assoc] at hz
      obtain ⟨rfl, -⟩ := List.append_inj' hz rfl
      simp only [List.count_append, List.count_singleton_self, hm] at hcount
      omega
  · have hsame := hany (z ++ r)
    have hfront : n ++ '>' :: (z ++ r) = s ++ (m ++ '>' :: r) := by
      simpa using (congrArg (· ++ r) hz).symm
    simp [hfront, h] at hsame

/-- The notes begin at the same place whatever they are. -/
theorem cutAtNotes?_append {shown heading notes : Text}
    (h : cutAtNotes? (shown ++ (heading ++ notes)) = some (shown, notes)) (notes' : Text) :
    cutAtNotes? (shown ++ (heading ++ notes')) = some (shown, notes') := by
  obtain ⟨m, hm, hcount, hany⟩ := exists_of_cutAtNotes? h
  obtain rfl : heading = m ++ ['>'] := by
    have := List.append_cancel_left hm
    exact List.append_cancel_right (by simpa using this)
  simp only [List.append_assoc, List.singleton_append] at h ⊢
  clear hm
  induction shown with
  | nil =>
    obtain ⟨c, s, hs⟩ : ∃ c s, m ++ '>' :: notes' = c :: s :=
      List.exists_cons_of_ne_nil (by simp)
    have hread := hany notes'
    rw [hs] at hread
    rw [List.nil_append, hs, cutAtNotes?, hread]
  | cons c shown ih =>
    rw [List.cons_append, cutAtNotes?] at h
    split at h
    · simp at h
    · next hnone =>
      obtain ⟨⟨b, a⟩, hcut, hq⟩ := Option.map_eq_some_iff.1 h
      obtain ⟨hb, rfl⟩ := Prod.mk.inj hq
      obtain rfl := (List.cons.inj hb).2
      have hnone' := notesHeading?_eq_none_of_append (s := c :: b) hcount hnone notes'
      rw [List.cons_append, cutAtNotes?, ← List.cons_append, hnone', ih hcut]
      rfl

end Slideshow.Markup
