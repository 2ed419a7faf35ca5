import Schemata.Proofs.Text.Upper

/-! Words between blanks. The words of a text hold no blanks, and words with single spaces between them are the words
    of the text they make. Lower case neither brings in blanks nor takes them away. -/

namespace Schemata

/-! ### Lower case and blanks -/

theorem toLower_of_isBlank {c : Char} (h : isBlank c = true) : c.toLower = c := by
  have hcodes : ∀ n ∈ blankCodes, (Char.ofNat n).toLower = Char.ofNat n := by decide
  have hc := hcodes c.toNat (toNat_mem_blankCodes h)
  rwa [Char.ofNat_toNat] at hc

theorem isBlank_toLower (c : Char) : isBlank c.toLower = isBlank c := by
  cases hc : isBlank c with
  | true => rw [toLower_of_isBlank hc, hc]
  | false =>
    by_cases hascii : c.toNat < 0x80
    · exact forall_ascii (P := fun c => isBlank c = false → isBlank c.toLower = false) (by decide) hascii hc
    · have hcode : ¬(c.val ≥ 'A'.val ∧ c.val ≤ 'Z'.val) := fun h =>
        hascii (Nat.lt_of_le_of_lt (UInt32.le_iff_toNat_le.mp h.2) (by decide))
      have hsame : c.toLower = c := dif_neg hcode
      rw [hsame, hc]

namespace Text

/-! ### The words of a text -/

theorem mem_words {s : Text} {c : Char} (h : c ∈ s) (hc : isBlank c = false) : ∃ w ∈ words s, c ∈ w := by
  have hpart : ∃ part ∈ s.splitOnP isBlank, c ∈ part := by
    induction s with
    | nil => cases h
    | cons x s ih =>
      rw [List.splitOnP_cons_eq_if_modifyHead]
      rcases List.mem_cons.mp h with rfl | h
      · rw [if_neg (by simp [hc])]
        rcases hs : s.splitOnP isBlank with _ | ⟨first, rest⟩
        · exact absurd hs (List.splitOnP_ne_nil _ _)
        · exact ⟨c :: first, List.mem_cons_self, List.mem_cons_self⟩
      · obtain ⟨part, hpart, hm⟩ := ih h
        split
        · exact ⟨part, List.mem_cons_of_mem _ hpart, hm⟩
        · rcases hs : s.splitOnP isBlank with _ | ⟨first, rest⟩
          · exact absurd hs (List.splitOnP_ne_nil _ _)
          · rw [hs] at hpart
            rcases List.mem_cons.mp hpart with rfl | hpart
            · exact ⟨x :: part, List.mem_cons_self, List.mem_cons_of_mem x hm⟩
            · exact ⟨part, List.mem_cons_of_mem _ hpart, hm⟩
  obtain ⟨part, hpart, hm⟩ := hpart
  refine ⟨part, List.mem_filter.mpr ⟨hpart, ?_⟩, hm⟩
  cases part with
  | nil => cases hm
  | cons => rfl

/-- A text without blanks, and not empty. -/
def IsSolid (w : Text) : Prop := w ≠ [] ∧ ∀ c ∈ w, isBlank c = false

instance (w : Text) : Decidable (IsSolid w) := inferInstanceAs (Decidable (_ ∧ _))

theorem isSolid_of_mem_words {s w : Text} (h : w ∈ words s) : IsSolid w := by
  obtain ⟨hpart, hne⟩ := List.mem_filter.mp h
  exact ⟨by simpa using hne, false_of_mem_splitOnP hpart⟩

theorem IsSolid.lower {w : Text} (h : IsSolid w) : IsSolid (lower w) := by
  refine ⟨by simpa [Text.lower] using h.1, fun c hc => ?_⟩
  obtain ⟨d, hd, rfl⟩ := List.mem_map.mp hc
  rw [isBlank_toLower, h.2 d hd]

theorem words_solid {w : Text} (h : IsSolid w) : words w = [w] := by
  rw [words, List.splitOnP_eq_singleton h.2]
  simp [h.1]

theorem words_append_space {w : Text} (h : IsSolid w) (s : Text) : words (w ++ ' ' :: s) = w :: words s := by
  rw [words, List.splitOnP_append_cons_of_forall_mem h.2 ' ' (by decide), List.filter_cons_of_pos (by simp [h.1])]
  rfl

/-- Words are read back from the text they make with single spaces between them. -/
theorem words_join {ws : List Text} (h : ∀ w ∈ ws, IsSolid w) : words (join " " ws) = ws := by
  induction ws with
  | nil => rfl
  | cons w ws ih =>
    obtain ⟨hw, hws⟩ := List.forall_mem_cons.mp h
    cases ws with
    | nil =>
      rw [join, List.intercalate_singleton]
      exact words_solid hw
    | cons second ws =>
      have hjoin : join " " (w :: second :: ws) = w ++ ' ' :: join " " (second :: ws) := by
        rw [join, List.intercalate_cons_cons, Text.ofString_eq, List.append_assoc]
        rfl
      rw [hjoin, words_append_space hw, ih hws]

theorem mem_join {sep part : Text} {parts : List Text} {c : Char} (hpart : part ∈ parts) (hc : c ∈ part) :
    c ∈ join sep parts := by
  induction parts with
  | nil => cases hpart
  | cons first rest ih =>
    cases rest with
    | nil =>
      rw [join, List.intercalate_singleton]
      exact List.mem_singleton.mp hpart ▸ hc
    | cons second rest =>
      rw [join, List.intercalate_cons_cons]
      rcases List.mem_cons.mp hpart with rfl | hpart
      · exact List.mem_append_left _ (List.mem_append_left _ hc)
      · exact List.mem_append_right _ (ih hpart)

theorem lower_join (ws : List Text) : lower (join " " ws) = join " " (ws.map lower) := by
  cases ws with
  | nil => rfl
  | cons w ws =>
    rw [List.map_cons, join_cons, join_cons, Text.ofString_eq, lower, List.map_append, List.map_flatMap,
      List.flatMap_map]
    rfl

end Text
end Schemata
