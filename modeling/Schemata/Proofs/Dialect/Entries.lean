import Schemata.Proofs.Dialect.References

/-! The entries of a body: its columns and references in their order. Behind each column stand the references that its
    own constraint list resolves to, one for each token that is accepted, and then the next column. So a reference
    belongs to the nearest column before it. -/

namespace Schemata

/-! ### Entries by columns -/

/-- The references that tokens of the column's constraint list resolve to, in the order of the tokens. -/
def Column.resolved (c : Column) : List Reference := c.listTokens.filterMap (Reference.resolve? c.name)

/-- A column and its references. -/
def Column.entries (c : Column) : List Finding := .column c :: c.resolved.map .reference

/-- What is found in a body and is not skipped, in order. -/
def TableBlock.entries (b : TableBlock) : List Finding := b.findings.filter fun f => f.skip?.isNone

/-- All tokens that resolve are taken for references. -/
theorem Column.resolved_eq_referenceTokens (c : Column) :
    c.resolved = c.referenceTokens.filterMap (Reference.resolve? c.name) := by
  rw [referenceTokens_eq, List.filterMap_filter, resolved]
  congr 1
  funext token
  split
  · rfl
  · rename_i hkey
    rw [Option.eq_none_iff_forall_ne_some]
    exact fun r hr => hkey (Reference.isToken_of_resolve? hr)

namespace Body
variable (table : Text)

theorem entries_columnFindings (c : Column) :
    (columnFindings table c).filter (fun f => f.skip?.isNone) = c.entries := by
  rw [columnFindings, List.filter_cons_of_pos (by rfl), Column.entries, Column.resolved_eq_referenceTokens]
  congr 1
  induction c.referenceTokens with
  | nil => rfl
  | cons token tokens ih =>
    rw [List.map_cons, List.filter_cons, ih, List.filterMap_cons, referenceFinding]
    cases Reference.resolve? c.name token <;> rfl

theorem entries_pieceFindings (piece : Nat × Piece ColumnShape) :
    (pieceFindings table piece).filter (fun f => f.skip?.isNone) =
      (columnAt piece).toList.flatMap Column.entries := by
  rcases piece with ⟨n, text | shape⟩
  · rw [pieceFindings, leftover]
    split <;> rfl
  · rw [columnAt, Option.toList_some, List.flatMap_singleton]
    exact entries_columnFindings table _

end Body

/-- The entries of a body are those of its columns, one column after the other. -/
theorem TableBlock.entries_eq (b : TableBlock) : b.entries = b.columns.flatMap Column.entries := by
  rw [entries, findings_eq_pieces, columns_eq_pieces, List.filter_flatMap, filterMap_eq_flatMap, List.flatMap_assoc]
  congr 1
  funext piece
  exact Body.entries_pieceFindings b.name piece

/-! ### The nearest column -/

/-- The last column among some findings. -/
def Finding.nearestColumn? (before : List Finding) : Option Column := (before.filterMap Finding.column?).getLast?

theorem Finding.columns_references (references : List Reference) :
    (references.map Finding.reference).filterMap Finding.column? = [] := by
  rw [List.filterMap_map, List.filterMap_eq_nil_iff]
  exact fun _ _ => rfl

/-- A finding in the entries of a column or behind them is the column, one of its references, or stands behind. -/
theorem Column.entries_split {c : Column} {rest before after : List Finding} {f : Finding}
    (h : c.entries ++ rest = before ++ f :: after) :
    (before = [] ∧ f = .column c ∧ after = c.resolved.map .reference ++ rest) ∨
      (∃ own r, before = .column c :: own ∧ own.filterMap Finding.column? = [] ∧ r ∈ c.resolved ∧ f = .reference r) ∨
      ∃ inside, before = c.entries ++ inside ∧ rest = inside ++ f :: after := by
  rw [entries, List.cons_append] at h
  cases before with
  | nil =>
    obtain ⟨hfirst, hafter⟩ := List.cons.inj h
    exact Or.inl ⟨rfl, hfirst.symm, hafter.symm⟩
  | cons first before =>
    obtain ⟨rfl, hbehind⟩ := List.cons.inj h
    rcases List.append_eq_append_iff.mp hbehind with ⟨inside, rfl, hrest⟩ | ⟨own, hown, hrest⟩
    · exact Or.inr (Or.inr ⟨inside, rfl, hrest⟩)
    · cases own with
      | nil =>
        rw [List.append_nil] at hown
        exact Or.inr (Or.inr ⟨[], by rw [List.append_nil, entries, hown], hrest.symm⟩)
      | cons x own =>
        obtain ⟨rfl, -⟩ := List.cons.inj hrest
        have hmem : f ∈ c.resolved.map Finding.reference := by
          rw [hown]
          exact List.mem_append_right _ List.mem_cons_self
        have hbefore : before.filterMap Finding.column? = [] := by
          have hnone := Finding.columns_references c.resolved
          rw [hown, List.filterMap_append] at hnone
          exact (List.append_eq_nil_iff.mp hnone).1
        obtain ⟨r, hr, rfl⟩ := List.mem_map.mp hmem
        exact Or.inr (Or.inl ⟨before, r, rfl, hbefore, hr, rfl⟩)

/-- Entries in which every reference belongs to the nearest column before it, and every column has its references right
    behind it: one for each token of its constraint list that resolves. -/
structure Anchored (entries : List Finding) : Prop where
  nearest : ∀ before r after, entries = before ++ .reference r :: after →
    ∃ c, Finding.nearestColumn? before = some c ∧ r.localColumn = c.name
  resolved : ∀ before c after, entries = before ++ .column c :: after →
    after.takeWhile (fun f => f.column?.isNone) = c.resolved.map .reference

namespace Anchored

theorem nil : Anchored [] where
  nearest before r after h := by simp at h
  resolved before c after h := by simp at h

/-- One more column in front keeps the entries of columns anchored. -/
theorem cons {columns : List Column} (h : Anchored (columns.flatMap Column.entries)) (c : Column) :
    Anchored ((c :: columns).flatMap Column.entries) where
  nearest before r after heq := by
    rw [List.flatMap_cons] at heq
    rcases Column.entries_split heq with ⟨-, hf, -⟩ | ⟨own, r', rfl, hown, hr', hf⟩ | ⟨inside, rfl, hrest⟩
    · cases hf
    · cases hf
      obtain ⟨token, -, hresolve⟩ := List.mem_filterMap.mp hr'
      refine ⟨c, ?_, (Reference.resolve?_isName hresolve).1⟩
      rw [Finding.nearestColumn?, List.filterMap_cons_some (f := Finding.column?) (b := c) rfl, hown]
      rfl
    · obtain ⟨c', hnearest, hlocal⟩ := h.nearest inside r after hrest
      refine ⟨c', ?_, hlocal⟩
      unfold Finding.nearestColumn? at hnearest ⊢
      rw [List.filterMap_append, List.getLast?_append, hnearest, Option.some_or]
  resolved before c' after heq := by
    rw [List.flatMap_cons] at heq
    rcases Column.entries_split heq with ⟨-, hf, rfl⟩ | ⟨own, r', -, -, -, hf⟩ | ⟨inside, -, hrest⟩
    · cases hf
      rw [List.takeWhile_append_of_pos]
      · cases columns with
        | nil => exact List.append_nil _
        | cons next columns => exact List.append_nil _
      · intro f hf
        obtain ⟨r, -, rfl⟩ := List.mem_map.mp hf
        rfl
    · cases hf
    · exact h.resolved inside c' after hrest

theorem flatMap_entries (columns : List Column) : Anchored (columns.flatMap Column.entries) := by
  induction columns with
  | nil => exact nil
  | cons c columns ih => exact ih.cons c

end Anchored

theorem TableBlock.anchored (b : TableBlock) : Anchored b.entries := b.entries_eq ▸ Anchored.flatMap_entries b.columns

end Schemata
