import Schemata.Proofs.Dialect.Findings
import Schemata.Proofs.Dialect.Gaps
import Schemata.Proofs.Dialect.Grammar
import Schemata.Proofs.Dialect.Layout

/-! Reading undoes writing: the text of a layout is read as exactly the tables and columns that were written, on the
    lines on which they were written, and nothing of it is left out but `ref:` tokens that name no remote column. -/

namespace Schemata

/-! ### One column -/

/-- What may stand behind a column: nothing, or blanks that no bracket follows. -/
structure AfterColumn (r : Text) : Prop where
  blank : ∀ c ∈ r.head?, isBlank c = true
  noList : Text.Stops (· == '[') (r.dropWhile isBlank)

namespace AfterColumn
variable {r : Text}

theorem stops {p : Char → Bool} (h : AfterColumn r) (hp : ∀ c, isBlank c = true → p c = false) : Text.Stops p r :=
  fun c hc => hp c (h.blank c hc)

theorem of_blank {g : Text} (hg : IsBlank g) : AfterColumn g where
  blank c hc := hg c (List.mem_of_mem_head? hc)
  noList := by
    rw [List.dropWhile_eq_nil_iff.mpr hg]
    exact Text.Stops.nil

theorem of_gap {g s : Text} (hg : IsBlank g) (hne : g ≠ []) (hs : IsName s) (r : Text) :
    AfterColumn (g ++ (s ++ r)) where
  blank c hc := by
    cases g with
    | nil => exact absurd rfl hne
    | cons x g =>
      cases hc
      exact hg c List.mem_cons_self
  noList := by
    rw [Text.dropWhile_run hg (Text.stops_blank_name hs)]
    rcases s with _ | ⟨x, s⟩
    · exact absurd rfl hs.ne_nil
    · refine Text.stops_cons.mpr (beq_eq_false_iff_ne.mpr ?_)
      rintro rfl
      exact absurd (hs.word _ List.mem_cons_self) (by decide)

/-- A comment takes nothing away that matters. -/
theorem of_isPrefix {t : Text} (h : AfterColumn r) (ht : t <+: r) : AfterColumn t := by
  obtain ⟨u, rfl⟩ := ht
  by_cases hblank : IsBlank t
  · exact of_blank hblank
  · have hhead : ∀ {a : Text} (b : Text) {c : Char}, c ∈ a.head? → c ∈ (a ++ b).head? := fun b c hc => by
      rw [List.head?_append, Option.mem_def.mp hc]
      rfl
    have hstop := h.noList
    rw [Text.dropWhile_append_of_not_all hblank] at hstop
    exact ⟨fun c hc => h.blank c (hhead u hc), fun c hc => hstop c (hhead u hc)⟩

end AfterColumn

namespace ColumnLayout
variable (c : ColumnLayout) {r : Text}

theorem stops_list (h : AfterColumn r) {p : Char → Bool} (hblank : ∀ x, isBlank x = true → p x = false)
    (hopen : p '[' = false) : Text.Stops p (c.list.elim [] ColumnShape.renderList ++ r) := by
  cases hl : c.list with
  | none => exact h.stops hblank
  | some list =>
    have hgap := (c.list_inline list hl).isBlank
    simp only [Option.elim_some, ColumnShape.renderList, Text.ofString_eq]
    cases hg : list.1 with
    | nil => exact Text.stops_cons.mpr hopen
    | cons x g =>
      rw [hg] at hgap
      exact Text.stops_cons.mpr (hblank x (hgap x List.mem_cons_self))

theorem proper : c.toColumnShape.Proper where
  name := c.name_isName
  gap_ne_nil := c.gap_ne_nil
  gap := c.gap_inline.isBlank
  typeWord := c.type_isName
  size size hs hm := c.size_plain size hs _ hm (by simp)
  list_gap list hl := (c.list_inline list hl).isBlank
  list list hl hm := c.list_plain list hl _ hm (by simp)

theorem takes (h : AfterColumn r) : c.toColumnShape.Takes r where
  word := by
    unfold ColumnShape.behindType
    cases c.size with
    | none => exact c.stops_list h (fun _ => isWord_of_isBlank) (by decide)
    | some size =>
      rw [Option.elim_some, ColumnShape.renderSize_append]
      exact Text.stops_cons.mpr (by decide)
  size hs size rest heq := by
    have hstop : Text.Stops (· == '(') (c.list.elim [] ColumnShape.renderList ++ r) :=
      c.stops_list h (fun x hx => by
        rw [beq_eq_false_iff_ne]
        rintro rfl
        exact absurd hx (by decide)) (by decide)
    rw [ColumnShape.renderSize_append, ColumnShape.behindType, hs, Option.elim_none, List.nil_append] at heq
    exact absurd (Text.stops_cons.mp (heq ▸ hstop)) (by decide)
  list hl gap list rest hgap heq := by
    have hstop := h.noList
    rw [← heq, ColumnShape.renderList_append, Text.dropWhile_run hgap (Text.stops_cons.mpr (by decide))] at hstop
    exact absurd (Text.stops_cons.mp hstop) (by decide)

/-- A written column is read back, whatever may stand behind it. -/
theorem read?_render (h : AfterColumn r) : ColumnShape.read? (c.render ++ r) = some (c.toColumnShape, r) :=
  ColumnShape.read?_iff.mpr ⟨c.proper, c.takes h, rfl⟩

/-! ### Columns and comments -/

theorem stripComment_append_of_not_mem {a : Text} (h : '/' ∉ a) (b : Bool) (s : Text) :
    stripComment b (a ++ s) = a ++ stripComment (a.foldl bracketsAfter b) s := by
  induction a generalizing b with
  | nil => rfl
  | cons x a ih =>
    obtain ⟨hx, ha⟩ := List.ne_and_not_mem_of_not_mem_cons h
    rw [List.cons_append, stripComment, if_neg (by simp [Ne.symm hx]), ih ha]
    rfl

/-- Between brackets no comment starts. -/
theorem stripComment_brackets {list : Text} (h : ']' ∉ list) (b : Bool) (s : Text) :
    stripComment b ('[' :: (list ++ ']' :: s)) = '[' :: (list ++ ']' :: stripComment false s) := by
  have hinside : ∀ {list : Text}, ']' ∉ list →
      stripComment true (list ++ ']' :: s) = list ++ ']' :: stripComment false s := fun {list} h => by
    induction list with
    | nil => simp [stripComment, bracketsAfter]
    | cons x list ih =>
      obtain ⟨hx, hlist⟩ := List.ne_and_not_mem_of_not_mem_cons h
      have hstay : bracketsAfter true x = true := by simp [bracketsAfter, Ne.symm hx]
      rw [List.cons_append, stripComment, if_neg (by simp), hstay, ih hlist]
      rfl
  rw [stripComment, if_neg (by simp)]
  show '[' :: stripComment true (list ++ ']' :: s) = _
  rw [hinside h]

/-- No comment starts inside a written column. -/
theorem stripComment_render (b : Bool) : ∃ b', ∀ s, stripComment b (c.render ++ s) = c.render ++ stripComment b' s := by
  have hname : '/' ∉ c.name := not_mem_of_isName c.name_isName (by decide)
  have hinline : ∀ {g : Text}, IsInline g → '/' ∉ g := fun hg hm => absurd (hg _ hm).1 (by decide)
  have htype : '/' ∉ c.declaredType :=
    c.not_mem_declaredType (by decide) (by decide) (by decide) (by simp)
  have hfront : '/' ∉ c.name ++ c.gap ++ c.declaredType := by
    simp only [List.mem_append, not_or]
    exact ⟨⟨hname, hinline c.gap_inline⟩, htype⟩
  unfold ColumnShape.render
  generalize c.name ++ c.gap ++ c.declaredType = front at hfront
  cases hl : c.list with
  | none =>
    refine ⟨front.foldl bracketsAfter b, fun s => ?_⟩
    rw [Option.elim_none, List.append_nil, stripComment_append_of_not_mem hfront]
  | some list =>
    have hplain : ']' ∉ list.2 := fun hm => c.list_plain _ hl _ hm (by simp)
    have hgap : '/' ∉ list.1 := hinline (c.list_inline _ hl)
    refine ⟨false, fun s => ?_⟩
    rw [Option.elim_some, List.append_assoc, List.append_assoc, ColumnShape.renderList_append,
      ColumnShape.renderList_append, stripComment_append_of_not_mem hfront, stripComment_append_of_not_mem hgap,
      stripComment_brackets hplain]

theorem column_eq_declared (line : Nat) : Body.column line c.toColumnShape = c.declared line := by
  unfold Body.column ColumnLayout.declared
  cases hl : c.list with
  | none => rfl
  | some list =>
    show (⟨c.name, c.declaredType, some (Text.trim list.2), line⟩ : Column) = _
    rw [c.list_trim list hl]
    rfl

end ColumnLayout

/-! ### A body -/

namespace Body
variable {table : Text}

/-- The findings of a text that goes on inside the given line. -/
def textFindings (table : Text) (inBrackets : Bool) (line : Nat) (s : Text) : List Finding :=
  match s.splitOn '\n' with
  | [] => []
  | first :: rest => lineFindings table line (stripComment inBrackets first) ++ linesFindings table (line + 1) rest

theorem textFindings_newline (b : Bool) (n : Nat) (s : Text) :
    textFindings table b n ('\n' :: s) = textFindings table false (n + 1) s := by
  unfold textFindings
  rw [List.splitOn_cons_eq_if_modifyHead, if_pos (beq_self_eq_true _)]
  rcases hs : s.splitOn '\n' with _ | ⟨first, rest⟩
  · exact absurd hs (List.splitOn_ne_nil _ _)
  · simp [stripComment, lineFindings_nil, linesFindings]

/-- Text without a line feed goes on the first line. -/
theorem textFindings_append {a : Text} (ha : '\n' ∉ a) (b : Bool) (n : Nat) {s first : Text} {rest : List Text}
    (hs : s.splitOn '\n' = first :: rest) :
    textFindings table b n (a ++ s) =
      lineFindings table n (stripComment b (a ++ first)) ++ linesFindings table (n + 1) rest := by
  unfold textFindings
  rw [Text.splitOn_append_of_not_mem ha, hs]
  rfl

theorem textFindings_blank {g : Text} (hg : IsBlank g) (b : Bool) (n : Nat) :
    ∃ b', ∀ s, textFindings table b n (g ++ s) = textFindings table b' (n + Text.newlines g) s := by
  induction g generalizing b n with
  | nil => exact ⟨b, fun s => rfl⟩
  | cons c g ih =>
    obtain ⟨hc, hrest⟩ := IsBlank.cons.mp hg
    by_cases hnl : c = '\n'
    · subst hnl
      obtain ⟨b', hb'⟩ := ih hrest false (n + 1)
      refine ⟨b', fun s => ?_⟩
      rw [List.cons_append, textFindings_newline, hb', Text.newlines, Text.newlines, List.count_cons_self]
      congr 1
      omega
    · obtain ⟨b', hb'⟩ := ih hrest b n
      refine ⟨b', fun s => ?_⟩
      have hline : textFindings table b n ([c] ++ (g ++ s)) = textFindings table b n (g ++ s) := by
        rcases hs : (g ++ s).splitOn '\n' with _ | ⟨first, rest⟩
        · exact absurd hs (List.splitOn_ne_nil _ _)
        · rw [textFindings_append (by simpa using Ne.symm hnl) b n hs]
          unfold textFindings
          rw [hs, List.singleton_append, stripComment_blank_cons hc, ← List.singleton_append,
            lineFindings_blank_append (IsBlank.cons.mpr ⟨hc, IsBlank.nil⟩)]
      have hcount : Text.newlines (c :: g) = Text.newlines g := List.count_cons_of_ne hnl
      rw [hcount, ← hb', ← hline]
      rfl

theorem textFindings_column (c : ColumnLayout) (b : Bool) (n : Nat) :
    ∃ b', ∀ s, AfterColumn s →
      textFindings table b n (c.render ++ s) = columnFindings table (c.declared n) ++ textFindings table b' n s := by
  obtain ⟨b', hb'⟩ := c.stripComment_render b
  refine ⟨b', fun s hs => ?_⟩
  rcases hsplit : s.splitOn '\n' with _ | ⟨first, rest⟩
  · exact absurd hsplit (List.splitOn_ne_nil _ _)
  · -- What remains of the line behind the column is a beginning of `s`.
    have hfirst : AfterColumn (stripComment b' first) := by
      refine hs.of_isPrefix ((stripComment_prefix_self b' first).trans ?_)
      have hjoin : ['\n'].intercalate (s.splitOn '\n') = s := List.intercalate_splitOn '\n'
      rw [hsplit] at hjoin
      cases rest with
      | nil => exact ⟨[], by simpa using hjoin⟩
      | cons second rest =>
        rw [List.intercalate_cons_cons] at hjoin
        exact ⟨_, by rw [← List.append_assoc]; exact hjoin⟩
    have hscan := ColumnShape.pattern.scan_read (b := false) (c.read?_render hfirst)
    rw [ColumnShape.scan_eq (endsInWord false _)] at hscan
    rw [textFindings_append (c.not_mem_render (Or.inr rfl)) b n hsplit, hb', lineFindings_eq]
    unfold textFindings
    rw [hsplit]
    show scanFindings table n (ColumnShape.pattern.scan false (c.render ++ stripComment b' first)) ++ _ =
      _ ++ (scanFindings table n (ColumnShape.pattern.scan false (stripComment b' first)) ++ _)
    rw [hscan]
    simp only [scanFindings, List.flatMap_cons, leftover_blank IsBlank.nil, List.nil_append, c.column_eq_declared,
      List.append_assoc]

theorem afterColumn_columnsText {columns : List (Text × ColumnLayout)} (hblank : ∀ x ∈ columns, IsBlank x.1)
    (hne : ∀ x ∈ columns, x.1 ≠ []) {tail : Text} (htail : IsBlank tail) :
    AfterColumn (BodyLayout.columnsText columns ++ tail) := by
  cases columns with
  | nil => exact AfterColumn.of_blank htail
  | cons x columns =>
    obtain ⟨gap, c⟩ := x
    have h := AfterColumn.of_gap (hblank _ List.mem_cons_self) (hne _ List.mem_cons_self) c.name_isName
      (c.gap ++ c.declaredType ++ c.list.elim [] ColumnShape.renderList ++ BodyLayout.columnsText columns ++ tail)
    simpa [BodyLayout.columnsText, ColumnShape.render] using h

theorem textFindings_columnsText {columns : List (Text × ColumnLayout)} (hblank : ∀ x ∈ columns, IsBlank x.1)
    (hne : ∀ x ∈ columns.tail, x.1 ≠ []) {tail : Text} (htail : IsBlank tail) (b : Bool) (written : Text) :
    textFindings table b (lineBehind written) (BodyLayout.columnsText columns ++ tail) =
      (BodyLayout.declared written columns).flatMap (columnFindings table) := by
  induction columns generalizing b written with
  | nil =>
    obtain ⟨b', hb'⟩ := @textFindings_blank table _ htail b (lineBehind written)
    have hnil := hb' []
    rw [List.append_nil] at hnil
    show textFindings table b (lineBehind written) tail = []
    rw [hnil]
    simp [textFindings, stripComment, lineFindings_nil, linesFindings]
  | cons x columns ih =>
    obtain ⟨gap, c⟩ := x
    obtain ⟨b₁, hb₁⟩ := @textFindings_blank table _ (hblank _ List.mem_cons_self) b (lineBehind written)
    obtain ⟨b₂, hb₂⟩ := @textFindings_column table c b₁ (lineBehind (written ++ gap))
    have hrest : ∀ y ∈ columns, IsBlank y.1 := fun y hy => hblank y (List.mem_cons_of_mem _ hy)
    have hline : lineBehind (written ++ gap ++ c.render) = lineBehind (written ++ gap) := by
      rw [lineBehind_append, Text.newlines_eq_zero (c.not_mem_render (Or.inr rfl)), Nat.add_zero]
    have htext : BodyLayout.columnsText ((gap, c) :: columns) ++ tail =
        gap ++ (c.render ++ (BodyLayout.columnsText columns ++ tail)) := by
      simp [BodyLayout.columnsText]
    rw [htext, hb₁, ← lineBehind_append, hb₂ _ (afterColumn_columnsText hrest hne htail), ← hline,
      ih hrest fun y hy => hne y (List.mem_of_mem_tail hy)]
    simp only [BodyLayout.declared, List.flatMap_cons, hline]

end Body

/-! ### What the findings of declared columns are -/

namespace TableBlock
variable {b : TableBlock} {columns : List Column}

theorem columns_of_findings (h : b.findings = columns.flatMap (Body.columnFindings b.name)) : b.columns = columns := by
  rw [TableBlock.columns_eq, h, List.filterMap_flatMap]
  simp only [Body.columns_columnFindings, List.flatMap_singleton']

/-- Of declared columns only malformed references are left out. -/
theorem skipped_of_findings (h : b.findings = columns.flatMap (Body.columnFindings b.name)) :
    b.skipped = columns.flatMap (Body.malformedReferences b.name) := by
  rw [TableBlock.skipped_eq, h, List.filterMap_flatMap]
  simp only [Body.skipped_columnFindings]

end TableBlock

/-! ### A schema -/

namespace TableLayout
variable (t : TableLayout)

/-- A written table is read back, whatever stands behind it. -/
theorem read?_text (r : Text) : BlockShape.read? false (t.text ++ r) = some (t.shape, r) := by
  have hproper : t.shape.Proper := ⟨t.lead_ne_nil, t.lead_blank, t.name_isName, t.gap_blank, t.body.not_mem_text⟩
  exact hproper.read?_render r

end TableLayout

namespace SchemaLayout

theorem scan_tablesText {tables : List (Text × TableLayout)} (hblank : ∀ x ∈ tables, IsBlank x.1) {tail : Text}
    (htail : IsBlank tail) :
    BlockShape.pattern.scan false (tablesText tables ++ tail) =
      ⟨tables.map fun (gap, t) => (gap, t.shape), tail⟩ := by
  induction tables with
  | nil => exact BlockShape.pattern_skipsBlanks.scan_blank htail false
  | cons x tables ih =>
    obtain ⟨gap, t⟩ := x
    have hgap : IsBlank gap := hblank _ List.mem_cons_self
    have htext : tablesText ((gap, t) :: tables) ++ tail = gap ++ (t.text ++ (tablesText tables ++ tail)) := by
      simp [tablesText]
    have hend : endsInWord false (BlockShape.pattern.render t.shape) = false := by
      show endsInWord false (t.shape.header ++ t.shape.body ++ Text.ofString "\x7d") = false
      rw [Text.ofString_eq]
      exact endsInWord_snoc _ _ '}'
    have hread : BlockShape.pattern.read? false (t.text ++ (tablesText tables ++ tail)) =
        some (t.shape, tablesText tables ++ tail) := t.read?_text _
    rw [htext, BlockShape.pattern_skipsBlanks.scan_append hgap, endsInWord_blank hgap,
      BlockShape.pattern.scan_read hread, hend, ih fun y hy => hblank y (List.mem_cons_of_mem _ hy)]
    simp [Scan.behind]

theorem place_tables {tables : List (Text × TableLayout)} (hblank : ∀ x ∈ tables, IsBlank x.1) {tail : Text}
    (htail : IsBlank tail) (written : Text) :
    Outline.place (lineBehind written) (tables.map fun (gap, t) => (gap, t.shape)) tail =
      ⟨(declaredBehind written tables).map Prod.fst, []⟩ := by
  induction tables generalizing written with
  | nil =>
    show (⟨[], (gapSkip? _ tail).toList⟩ : Outline) = _
    rw [gapSkip?_blank htail]
    rfl
  | cons x tables ih =>
    obtain ⟨gap, t⟩ := x
    rw [List.map_cons, Outline.place, gapSkip?_blank (hblank _ List.mem_cons_self), ← lineBehind_append,
      ← lineBehind_append, ← lineBehind_append]
    rw [show t.shape.render = t.text from rfl, ih fun y hy => hblank y (List.mem_cons_of_mem _ hy)]
    rfl

/-- Each declared table holds the declared columns. -/
theorem findings_of_mem_declared {tables : List (Text × TableLayout)} {written : Text} {b : TableBlock}
    {columns : List Column} (h : (b, columns) ∈ declaredBehind written tables) :
    b.findings = columns.flatMap (Body.columnFindings b.name) := by
  induction tables generalizing written with
  | nil => cases h
  | cons x tables ih =>
    obtain ⟨gap, t⟩ := x
    rcases List.mem_cons.mp h with h | h
    · cases h
      rw [TableBlock.findings_eq]
      show Body.linesFindings t.name _ (t.body.text.splitOn '\n') = _
      rw [← Body.textFindings_columnsText t.body.gap_blank t.body.gap_ne_nil t.body.tail_blank false]
      unfold Body.textFindings
      rcases hs : t.body.text.splitOn '\n' with _ | ⟨first, rest⟩
      · exact absurd hs (List.splitOn_ne_nil _ _)
      · rw [show BodyLayout.columnsText t.body.columns ++ t.body.tail = t.body.text from rfl, hs]
        rfl
    · exact ih h

/-- Reading undoes writing: the tables are those that were written and nothing stands outside them, and each body
    holds the columns that were written and leaves out nothing but malformed references. -/
theorem read_text (s : SchemaLayout) :
    Outline.read s.text = ⟨s.declared.map Prod.fst, []⟩ ∧
      ∀ b columns, (b, columns) ∈ s.declared →
        b.columns = columns ∧ b.skipped = columns.flatMap (Body.malformedReferences b.name) ∧
        ∀ skip ∈ b.skipped, skip.kind ≠ .malformedColumn := by
  refine ⟨?_, fun b columns h => ?_⟩
  · show Outline.place 1 _ _ = _
    rw [show s.text = tablesText s.tables ++ s.tail from rfl, scan_tablesText s.gap_blank s.tail_blank]
    exact place_tables s.gap_blank s.tail_blank []
  · have hfindings := findings_of_mem_declared h
    have hskipped := TableBlock.skipped_of_findings hfindings
    refine ⟨TableBlock.columns_of_findings hfindings, hskipped, fun skip hskip => ?_⟩
    rw [hskipped] at hskip
    obtain ⟨c, -, hskip⟩ := List.mem_flatMap.mp hskip
    obtain ⟨token, -, rfl⟩ := List.mem_map.mp hskip
    exact SkipKind.noConfusion

-- A layout with a body over two lines, a size and a constraint list.
example : ∃ s : SchemaLayout, s.text = "Table t \x7b\n id int\n\tprice decimal(10, 2) [not null]\x7d ".toList :=
  ⟨{ tables := [([], {
       lead := [' '], name := ['t'], gap := [' ']
       body := {
         columns := [
           (['\n', ' '], {
             name := ['i', 'd'], gap := [' '], typeWord := ['i', 'n', 't'], size := none, list := none
             name_isName := by decide, gap_ne_nil := by decide, gap_inline := by decide
             type_isName := by decide, size_plain := by decide, list_inline := by decide
             list_plain := by decide, list_trim := by decide }),
           (['\n', '\t'], {
             name := "price".toList, gap := [' '], typeWord := "decimal".toList, size := some "10, 2".toList
             list := some ([' '], "not null".toList)
             name_isName := by decide, gap_ne_nil := by decide, gap_inline := by decide
             type_isName := by decide, size_plain := by decide, list_inline := by decide
             list_plain := by decide, list_trim := by decide })]
         tail := [], gap_blank := by decide, gap_ne_nil := by decide, tail_blank := by decide }
       lead_ne_nil := by decide, lead_blank := by decide, name_isName := by decide
       gap_blank := by decide })]
     tail := [' '], gap_blank := by decide, tail_blank := by decide }, by cbv⟩

end SchemaLayout

end Schemata
