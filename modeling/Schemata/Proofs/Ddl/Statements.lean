import Schemata.Proofs.Text.Scan
import Schemata.Ddl.Compilation

/-! The statements of a compilation come from its blocks: each creates the table of a block, whose name is a word, from
    the clauses of the block's columns and references, if the table is absent. -/

namespace Schemata

theorem BlockShape.isName_of_read? {afterWord : Bool} {s r : Text} {b : BlockShape}
    (h : read? afterWord s = some (b, r)) : IsName b.name := by
  simp only [read?, Option.bind_eq_bind, Option.bind_eq_some_iff, Option.ite_none_left_eq_some, Bool.or_eq_true, not_or,
    List.isEmpty_iff] at h
  obtain ⟨_, -, _, -, ⟨_, _⟩, -, ⟨-, hname⟩, h⟩ := h
  cases h
  exact ⟨hname, fun _ => List.mem_takeWhile_imp⟩

namespace Outline

/-- A block stands at one of the places where a block is found. -/
theorem exists_hit_of_mem_place {line : Nat} {hits : List (Text × BlockShape)} {tail : Text} {b : TableBlock}
    (h : b ∈ (place line hits tail).blocks) : ∃ hit ∈ hits, b.name = hit.2.name := by
  induction hits generalizing line with
  | nil => cases h
  | cons hit hits ih =>
    rcases List.mem_cons.mp h with rfl | h
    · exact ⟨hit, List.mem_cons_self, rfl⟩
    · obtain ⟨hit', hmem, hname⟩ := ih h
      exact ⟨hit', List.mem_cons_of_mem hit hmem, hname⟩

theorem isName_of_mem_blocks {s : Text} {b : TableBlock} (h : b ∈ (read s).blocks) : IsName b.name := by
  obtain ⟨hit, hmem, hname⟩ := exists_hit_of_mem_place h
  obtain ⟨_, _, hread⟩ := BlockShape.pattern.read?_of_mem_hits hmem
  exact hname ▸ BlockShape.isName_of_read? hread

end Outline

namespace TableBlock
variable {b : TableBlock} {st : Statement}

/-- The clauses of a block's columns, and behind them those of its references. -/
def clauses (b : TableBlock) : List Text := b.columns.map Column.clause ++ b.references.map Reference.clause

theorem statement_eq (h : b.statement? = some st) : st = ⟨b.name, Statement.createTable b.name b.clauses⟩ := by
  unfold statement? Statement.emit? at h
  split at h <;> cases h
  rfl

end TableBlock

namespace Statement

/-- The text that creates a table if it is absent, whatever its list holds. -/
def createIfAbsent (table rest : Text) : Text := "CREATE TABLE IF NOT EXISTS " ++ table ++ "(" ++ rest

/-- A statement that creates its table if that is absent. -/
structure Creates (st : Statement) : Prop where
  name : IsName st.table
  sql : ∃ rest, st.sql = createIfAbsent st.table rest

end Statement

theorem TableBlock.sql_eq {b : TableBlock} {st : Statement} (h : b.statement? = some st) :
    st.sql = Statement.createIfAbsent b.name (Text.join ", " b.clauses ++ [')']) := by
  cases statement_eq h
  simp only [Statement.createTable, Statement.createIfAbsent, List.append_assoc, Text.ofString_eq]
  rfl

theorem exists_block_of_mem {text : Text} {st : Statement} (h : st ∈ (compile text).statements) :
    ∃ b ∈ (Outline.read text).blocks, b.statement? = some st :=
  List.mem_filterMap.mp h

theorem creates_of_mem {text : Text} {st : Statement} (h : st ∈ (compile text).statements) : st.Creates := by
  obtain ⟨b, hb, hst⟩ := exists_block_of_mem h
  refine ⟨?_, Text.join ", " b.clauses ++ [')'], ?_⟩
  · rw [TableBlock.statement_eq hst]
    exact Outline.isName_of_mem_blocks hb
  · rw [TableBlock.sql_eq hst, TableBlock.statement_eq hst]

end Schemata
