import Schemata.Proofs.Dialect.Lines

/-! How a schema may be written: tables, columns in them, and blanks around both. A layout carries the proofs that
    its names are words, its spaces blanks, and its sizes and constraint lists free of the characters that would end
    them. Beside the text of a layout stands what it declares, each column with the line on which it was written. -/

namespace Schemata

/-- The line on which a text goes on behind what is written so far. -/
def lineBehind (written : Text) : Nat := 1 + Text.newlines written

theorem lineBehind_append (a b : Text) : lineBehind (a ++ b) = lineBehind a + Text.newlines b := by
  unfold lineBehind
  rw [Text.newlines_append]
  omega

/-- Blanks that stay on their line. -/
def IsInline (s : Text) : Prop := ∀ c ∈ s, isBlank c = true ∧ c ≠ '\n'

instance (s : Text) : Decidable (IsInline s) :=
  decidable_of_iff (s.all (fun c => isBlank c && c != '\n') = true) (by simp [IsInline])

theorem IsInline.isBlank {s : Text} (h : IsInline s) : IsBlank s := fun c hc => (h c hc).1

/-- A column as it may be written. -/
structure ColumnLayout extends ColumnShape where
  name_isName : IsName name
  gap_ne_nil : gap ≠ []
  gap_inline : IsInline gap
  type_isName : IsName typeWord
  size_plain : ∀ text ∈ size, Text.Avoids [')', '}', '/', '\n'] text
  list_inline : ∀ l ∈ list, IsInline l.1
  list_plain : ∀ l ∈ list, Text.Avoids [']', '}', '\n'] l.2
  list_trim : ∀ l ∈ list, Text.trim l.2 = l.2

/-- The column that is declared when its layout stands on the given line. -/
def ColumnLayout.declared (c : ColumnLayout) (line : Nat) : Column :=
  ⟨c.name, c.declaredType, c.list.map Prod.snd, line⟩

/-- A body as it may be written: each column behind its blanks, and blanks at the end. -/
structure BodyLayout where
  columns : List (Text × ColumnLayout)
  tail : Text
  gap_blank : ∀ x ∈ columns, IsBlank x.1
  gap_ne_nil : ∀ x ∈ columns.tail, x.1 ≠ []
  tail_blank : IsBlank tail

namespace BodyLayout

def columnsText (columns : List (Text × ColumnLayout)) : Text := columns.flatMap fun (gap, c) => gap ++ c.render

def text (b : BodyLayout) : Text := columnsText b.columns ++ b.tail

/-- The columns of a body behind what is written before it. -/
def declared (written : Text) : List (Text × ColumnLayout) → List Column
  | [] => []
  | (gap, c) :: rest => c.declared (lineBehind (written ++ gap)) :: declared (written ++ gap ++ c.render) rest

end BodyLayout

/-- A table as it may be written. -/
structure TableLayout where
  lead : Text
  name : Text
  gap : Text
  body : BodyLayout
  lead_ne_nil : lead ≠ []
  lead_blank : IsBlank lead
  name_isName : IsName name
  gap_blank : IsBlank gap

namespace TableLayout

def shape (t : TableLayout) : BlockShape := ⟨t.lead, t.name, t.gap, t.body.text⟩

def text (t : TableLayout) : Text := t.shape.render

end TableLayout

/-- A schema as it may be written: each table behind its blanks, and blanks at the end. -/
structure SchemaLayout where
  tables : List (Text × TableLayout)
  tail : Text
  gap_blank : ∀ x ∈ tables, IsBlank x.1
  tail_blank : IsBlank tail

namespace SchemaLayout

def tablesText (tables : List (Text × TableLayout)) : Text := tables.flatMap fun (gap, t) => gap ++ t.text

def text (s : SchemaLayout) : Text := tablesText s.tables ++ s.tail

/-- The tables behind what is written before them, each with its columns. -/
def declaredBehind (written : Text) : List (Text × TableLayout) → List (TableBlock × List Column)
  | [] => []
  | (gap, t) :: rest =>
    let keyword := written ++ gap
    let body := keyword ++ t.shape.header
    (⟨t.name, t.body.text, lineBehind keyword, lineBehind body⟩, BodyLayout.declared body t.body.columns) ::
      declaredBehind (keyword ++ t.text) rest

def declared (s : SchemaLayout) : List (TableBlock × List Column) := declaredBehind [] s.tables

end SchemaLayout

/-! ### What the text of a layout cannot hold -/

namespace ColumnLayout

theorem not_mem_of_isName {s : Text} (h : IsName s) {c : Char} (hc : isWord c = false) : c ∉ s := fun hm => by
  rw [h.word c hm] at hc
  cases hc

theorem not_mem_declaredType (c : ColumnLayout) {x : Char} (hword : isWord x = false)
    (hopen : x ≠ '(') (hclose : x ≠ ')') (hsize : x ∈ [')', '}', '/', '\n']) : x ∉ c.declaredType := by
  unfold ColumnShape.declaredType
  rw [List.mem_append, not_or]
  refine ⟨not_mem_of_isName c.type_isName hword, ?_⟩
  cases hs : c.size with
  | none => simp
  | some size =>
    have hplain : x ∉ size := fun hm => c.size_plain size hs x hm hsize
    simp [ColumnShape.renderSize, Text.ofString_eq, hopen, hclose, hplain]

/-- The closing brace of the table and line feeds stand in no column. -/
theorem not_mem_render (c : ColumnLayout) {x : Char} (hx : x = '}' ∨ x = '\n') : x ∉ c.render := by
  have hword : isWord x = false := by rcases hx with rfl | rfl <;> decide
  have hgap : ∀ {s : Text}, IsInline s → x ∉ s := fun hs hm => by
    rcases hx with rfl | rfl
    · exact absurd (hs _ hm).1 (by decide)
    · exact (hs _ hm).2 rfl
  have htype : x ∉ c.declaredType := by
    apply c.not_mem_declaredType hword <;> rcases hx with rfl | rfl <;> decide
  unfold ColumnShape.render
  simp only [List.mem_append, not_or]
  refine ⟨⟨⟨not_mem_of_isName c.name_isName hword, hgap c.gap_inline⟩, htype⟩, ?_⟩
  cases hl : c.list with
  | none => simp
  | some list =>
    have hplain : x ∉ list.2 := fun hm => c.list_plain list hl x hm (by rcases hx with rfl | rfl <;> simp)
    have hbracket : x ≠ '[' ∧ x ≠ ']' := by rcases hx with rfl | rfl <;> decide
    simp [ColumnShape.renderList, Text.ofString_eq, hgap (c.list_inline list hl), hplain, hbracket]

end ColumnLayout

theorem BodyLayout.not_mem_text (b : BodyLayout) : '}' ∉ b.text := by
  have hblank : ∀ {s : Text}, IsBlank s → '}' ∉ s := fun hs hm => absurd (hs _ hm) (by decide)
  unfold BodyLayout.text BodyLayout.columnsText
  rw [List.mem_append, not_or]
  refine ⟨fun hm => ?_, hblank b.tail_blank⟩
  obtain ⟨⟨gap, c⟩, hc, hm⟩ := List.mem_flatMap.mp hm
  rcases List.mem_append.mp hm with hm | hm
  · exact hblank (b.gap_blank _ hc) hm
  · exact c.not_mem_render (Or.inl rfl) hm

end Schemata
