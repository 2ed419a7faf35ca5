import Schemata.Proofs.Dialect.Fate

/-! The keywords of constraint lists and their spellings. A token is a keyword if its words are those of one of the
    keyword's phrases, up to the case of ASCII letters, whatever blanks stand between them. No words are phrases of two
    keywords. A token with a colon is no keyword but a key with its value. -/

namespace Schemata
namespace ConstraintToken

/-! ### Spelling -/

/-- The tokens that are plain words. -/
def keywords : List ConstraintToken := [primaryKey, notNull, unique, null, autoIncrement]

/-- The words that spell a keyword, in lower case. -/
def phrases : ConstraintToken → List (List Text)
  | primaryKey => [["primary", "key"], ["pk"]]
  | notNull => [["not", "null"]]
  | unique => [["unique"]]
  | null => [["null"]]
  | autoIncrement => [["increment"], ["auto_increment"], ["autoincrement"]]
  | default _ | reference _ | note | unknown _ => []

/-- The words of a token in lower case. -/
def folded (token : Text) : List Text := (Text.words token).map Text.lower

/-- The token spells a keyword, up to ASCII case and the blanks between its words. -/
def Spells (token : Text) (t : ConstraintToken) : Prop := folded token ∈ t.phrases

instance (token : Text) (t : ConstraintToken) : Decidable (Spells token t) := inferInstanceAs (Decidable (_ ∈ _))

theorem unambiguous_phrases :
    ∀ t ∈ keywords, ∀ phrase ∈ t.phrases, keywords.find? (fun t => phrase ∈ t.phrases) = some t := by decide +kernel

theorem Spells.mem_keywords {token : Text} {t : ConstraintToken} (h : Spells token t) : t ∈ keywords := by
  cases t with
  | primaryKey | notNull | unique | null | autoIncrement => decide
  | default | reference | note | unknown => cases h

/-- A token is compared to a phrase by its words. -/
theorem phrase_beq (token s : Text) (phrase : List Text) (hwords : Text.words s = phrase)
    (hs : Text.join " " phrase = s) :
    (Text.lower (Text.join " " (Text.words token)) == s) = decide (folded token = phrase) := by
  have hsolid : ∀ w ∈ folded token, Text.IsSolid w := fun w hw => by
    obtain ⟨v, hv, rfl⟩ := List.mem_map.mp hw
    exact (Text.isSolid_of_mem_words hv).lower
  have hfolded : Text.lower (Text.join " " (Text.words token)) = Text.join " " (folded token) := Text.lower_join _
  rw [hfolded, Bool.eq_iff_iff, beq_iff_eq, decide_eq_true_iff]
  constructor
  · intro heq
    rw [← Text.words_join hsolid, heq, hwords]
  · intro heq
    rw [heq, hs]

theorem word_beq (token w : Text) (hw : Text.words w = [w]) :
    (Text.lower (Text.join " " (Text.words token)) == w) = decide (folded token = [w]) :=
  phrase_beq token w [w] hw List.intercalate_singleton

/-- The keyword of a token is the one that it spells. -/
theorem keyword?_eq (token : Text) : keyword? token = keywords.find? fun t => decide (Spells token t) := by
  have hkey := phrase_beq token "primary key" ["primary", "key"] (by decide +kernel) (by decide +kernel)
  have hnot := phrase_beq token "not null" ["not", "null"] (by decide +kernel) (by decide +kernel)
  have hpk := word_beq token "pk" (by decide +kernel)
  have hunique := word_beq token "unique" (by decide +kernel)
  have hnull := word_beq token "null" (by decide +kernel)
  have hincrement := word_beq token "increment" (by decide +kernel)
  have hautoIncrement := word_beq token "auto_increment" (by decide +kernel)
  have hautoincrement := word_beq token "autoincrement" (by decide +kernel)
  have hkeyword : keyword? token =
      if Spells token primaryKey then some primaryKey
      else if Spells token notNull then some notNull
      else if Spells token unique then some unique
      else if Spells token null then some null
      else if Spells token autoIncrement then some autoIncrement
      else none := by
    simp only [keyword?, hkey, hnot, hpk, hunique, hnull, hincrement, hautoIncrement, hautoincrement, Spells, phrases,
      List.mem_cons, List.not_mem_nil, or_false, Bool.or_eq_true, decide_eq_true_eq, or_assoc]
  rw [hkeyword, keywords]
  simp only [List.find?_cons, List.find?_nil]
  repeat' split
  all_goals simp_all

theorem keyword?_eq_some_iff {token : Text} {t : ConstraintToken} : keyword? token = some t ↔ Spells token t := by
  rw [keyword?_eq]
  constructor
  · intro h
    simpa using List.find?_some h
  · intro h
    exact unambiguous_phrases t h.mem_keywords _ h

theorem keyed_not_mem_keywords (token : Text) : keyed token ∉ keywords := by
  unfold keyed
  split
  · simp [keywords]
  · dsimp only
    split
    · simp [keywords]
    · split <;> simp [keywords]

/-- A token says a keyword just if it spells it. -/
theorem classify_eq_iff {token : Text} {t : ConstraintToken} (ht : t ∈ keywords) :
    classify token = t ↔ Spells token t := by
  rw [← keyword?_eq_some_iff, classify]
  cases hkeyword : keyword? token with
  | some t' => exact (Option.some_inj (a := t')).symm
  | none =>
    refine iff_of_false ?_ (by simp)
    rintro rfl
    dsimp only at ht
    split at ht
    · simp [keywords] at ht
    · exact keyed_not_mem_keywords token ht

/-- Words in another case or with other blanks between them spell the same keyword. -/
theorem Spells.classify_congr {token token' : Text} {t : ConstraintToken} (h : Spells token t)
    (hfolded : folded token = folded token') : classify token = classify token' := by
  have h' : Spells token' t := by rwa [Spells, ← hfolded]
  rw [(classify_eq_iff h.mem_keywords).mpr h, (classify_eq_iff h.mem_keywords).mpr h']

/-! ### Keys -/

/-- A token `key: value`, its key up to ASCII case and the blanks around it. -/
def HasKey (token key : Text) : Prop :=
  ∃ written value, Text.cut? ':' token = some (written, value) ∧ Text.lower (Text.trim written) = key

theorem HasKey.unique {token key key' : Text} (h : HasKey token key) (h' : HasKey token key') : key = key' := by
  obtain ⟨written, value, hcut, hkey⟩ := h
  obtain ⟨written', value', hcut', hkey'⟩ := h'
  cases hcut.symm.trans hcut'
  exact hkey.symm.trans hkey'

theorem isToken_iff {token : Text} : Reference.isToken token = true ↔ HasKey token "ref" := by
  have hlower : Text.lower "ref" = ("ref" : Text) := by decide +kernel
  unfold Reference.isToken HasKey
  rcases Text.cut? ':' token with _ | ⟨written, value⟩
  · simp
  · simp [Text.sameFolded, hlower]

theorem keyword?_of_hasKey {token key : Text} (h : HasKey token key) : keyword? token = none := by
  obtain ⟨written, value, hcut, -⟩ := h
  refine keyword?_eq_none ?_
  rw [← Text.append_cut? hcut]
  exact List.mem_append_right _ List.mem_cons_self

/-- The key of references is the only one that is looked for first. -/
theorem isToken_of_hasKey {token key : Text} (h : HasKey token key) (hne : key ≠ "ref") :
    Reference.isToken token = false :=
  Bool.eq_false_iff.mpr fun href => hne (h.unique (isToken_iff.mp href))

theorem classify_of_note {token : Text} (h : HasKey token "note") : classify token = note := by
  obtain ⟨written, value, hcut, hkey⟩ := id h
  have hnote : ((("note" : Text) == ("default" : Text)) = false) := by decide +kernel
  rw [classify, keyword?_of_hasKey h]
  dsimp only
  rw [isToken_of_hasKey h (by decide +kernel), if_neg Bool.false_ne_true, keyed, hcut]
  simp [hkey, hnote]

/-- A token `key: value`, with its value as it is written. -/
def HasValue (token key value : Text) : Prop :=
  ∃ written, Text.cut? ':' token = some (written, value) ∧ Text.lower (Text.trim written) = key

theorem HasValue.hasKey {token key value : Text} (h : HasValue token key value) : HasKey token key := by
  obtain ⟨written, hcut, hkey⟩ := h
  exact ⟨written, value, hcut, hkey⟩

/-- A default is unknown if only blanks are written behind its key. -/
theorem classify_of_default {token value : Text} (h : HasValue token "default" value) :
    classify token = if IsBlank value then unknown token else default (.parse value) := by
  obtain ⟨written, hcut, hkey⟩ := id h
  have hnote : (("default" : Text) == ("note" : Text)) = false := by decide +kernel
  rw [classify, keyword?_of_hasKey h.hasKey]
  dsimp only
  rw [isToken_of_hasKey h.hasKey (by decide +kernel), if_neg Bool.false_ne_true, keyed, hcut]
  dsimp only
  rw [hkey, hnote]
  by_cases hblank : IsBlank value
  · simp [hblank, Text.allBlank_iff.mpr hblank]
  · have hfilled : Text.allBlank value = false := Bool.eq_false_iff.mpr fun h => hblank (Text.allBlank_iff.mp h)
    simp [hblank, hfilled]

/-- A token without effect on the clause of its column: `null`, a note or a reference. -/
def IsInert (token : Text) : Prop := Spells token null ∨ HasKey token "note" ∨ HasKey token "ref"

theorem IsInert.classify_cases {token : Text} (h : IsInert token) :
    classify token = null ∨ classify token = note ∨ classify token = reference token := by
  rcases h with hnull | hnote | href
  · exact .inl ((classify_eq_iff (by decide)).mpr hnull)
  · exact .inr (.inl (classify_of_note hnote))
  · exact .inr (.inr (classify_of_isToken (isToken_iff.mpr href)))

end ConstraintToken
end Schemata
