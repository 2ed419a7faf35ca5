import Schemata.Proofs.Text.Basic

/-! Upper-casing brings in no punctuation: each quote, comma or parenthesis of an upper-cased text stood in the text
    before. -/

namespace Schemata

/-- The characters that structure a list of clauses. -/
def punctuation : List Char := ['\'', '"', '(', ')', ',']

/-- What holds of all ASCII codes holds of each ASCII character. -/
theorem forall_ascii {P : Char → Prop} (h : ∀ n < 0x80, P (Char.ofNat n)) {c : Char} (hc : c.toNat < 0x80) : P c := by
  have hcode := h c.toNat hc
  rwa [Char.ofNat_toNat] at hcode

theorem toUpper_ascii : ∀ n < 0x80, (Char.ofNat n).toUpper ∈ punctuation → (Char.ofNat n).toUpper = Char.ofNat n := by
  decide

theorem upperExpansions_plain :
    ∀ e ∈ upperExpansions, ∀ code ∈ e.2, Char.ofNat code ∉ punctuation := by
  decide +kernel

theorem upperRuns_plain : ∀ r ∈ upperRuns, 0x2D ≤ r.target := by
  decide +kernel

theorem ofNat_not_mem_punctuation {n : Nat} (h : 0x2D ≤ n) : Char.ofNat n ∉ punctuation := by
  intro hm
  have hcode : ∀ c ∈ punctuation, 0 < c.toNat ∧ c.toNat < 0x2D := by simp [punctuation]
  have hn := hcode _ hm
  by_cases hv : n.isValidChar
  · have hnat : (Char.ofNat n).toNat = n := by
      rw [Char.ofNat, dif_pos hv]
      rfl
    omega
  · have hnat : (Char.ofNat n).toNat = 0 := by
      rw [Char.ofNat, dif_neg hv]
      rfl
    omega

theorem mem_of_lookup {n : Nat} {codes : List Nat} (h : upperExpansions.lookup n = some codes) :
    (n, codes) ∈ upperExpansions := by
  obtain ⟨_, _, hsplit, -⟩ := List.lookup_eq_some_iff.mp h
  exact hsplit ▸ List.mem_append_right _ List.mem_cons_self

/-- What holds of every character that an upper case may be holds of the upper case of `c`. -/
theorem forall_upperChar {P : Char → Prop} {c : Char} (hascii : c.toNat < 0x80 → P c.toUpper)
    (hexpansions : ∀ e ∈ upperExpansions, ∀ code ∈ e.2, P (Char.ofNat code))
    (hruns : ∀ r ∈ upperRuns, ∀ i < r.last - r.first + 1, P (Char.ofNat (r.target + i))) (hself : P c) :
    ∀ d ∈ upperChar c, P d := by
  intro d h
  unfold upperChar at h
  split at h
  · rename_i hcode
    exact List.mem_singleton.mp h ▸ hascii hcode
  · split at h
    · rename_i codes hlookup
      obtain ⟨code, hcode, rfl⟩ := List.mem_map.mp h
      exact hexpansions _ (mem_of_lookup hlookup) code hcode
    · obtain rfl := List.mem_singleton.mp h
      cases hrun : upperRuns.findSome? (·.upper? c.toNat) with
      | none => exact hself
      | some n =>
        obtain ⟨r, hr, hn⟩ := List.exists_of_findSome?_eq_some hrun
        unfold CaseRun.upper? at hn
        split at hn
        · rename_i hwithin
          cases hn
          simp only [Bool.and_eq_true, decide_eq_true_eq] at hwithin
          exact hruns r hr _ (by omega)
        · cases hn

theorem mem_upperChar {c d : Char} (h : d ∈ upperChar c) (hd : d ∈ punctuation) : d = c := by
  revert hd
  exact forall_upperChar (P := fun d => d ∈ punctuation → d = c)
    (forall_ascii (P := fun c => c.toUpper ∈ punctuation → c.toUpper = c) toUpper_ascii)
    (fun e he code hcode hd => absurd hd (upperExpansions_plain e he code hcode))
    (fun r hr i _ hd => absurd hd (ofNat_not_mem_punctuation (Nat.le_add_right_of_le (upperRuns_plain r hr))))
    (fun _ => rfl) d h

theorem upperChar_ne_nil (c : Char) : upperChar c ≠ [] := by
  have hexpansions : ∀ e ∈ upperExpansions, e.2 ≠ [] := by decide +kernel
  unfold upperChar
  split
  · exact List.cons_ne_nil _ _
  · split
    · rename_i codes hlookup
      exact fun hnil => hexpansions _ (mem_of_lookup hlookup) (List.map_eq_nil_iff.mp hnil)
    · exact List.cons_ne_nil _ _

theorem Text.mem_upper {s : Text} {d : Char} (h : d ∈ Text.upper s) (hd : d ∈ punctuation) : d ∈ s := by
  obtain ⟨c, hc, hm⟩ := List.mem_flatMap.mp h
  exact mem_upperChar hm hd ▸ hc

end Schemata
