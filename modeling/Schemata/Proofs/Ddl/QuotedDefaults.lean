import Schemata.Proofs.Dialect.Phrases
import Schemata.Proofs.Dialect.RoundTrip
import Schemata.Proofs.Dialect.Tokens
import Schemata.Proofs.Sql.Lexing
import Schemata.Ddl.Compilation

/-! Quoted defaults on their way to a statement. The value between the quotes may hold whatever does not end the quotes,
    the brackets, the line or the table: commas, colons, slashes and keywords in it are part of the value, and the
    string in the statement reads as exactly this value. -/

namespace Schemata

/-! ### SQL strings -/

namespace Sql

/-- Reads the value of a string behind its opening quote, up to the first quote that is not doubled, and gives it with
    the rest. A doubled quote stands for one. -/
def readStringBody? : Text → Option (Text × Text)
  | [] => none
  | '\'' :: '\'' :: s => (readStringBody? s).map fun (value, rest) => ('\'' :: value, rest)
  | '\'' :: s => some ([], s)
  | c :: s => (readStringBody? s).map fun (value, rest) => (c :: value, rest)

/-- Reads a string in single quotes at the front of a text. -/
def readString? : Text → Option (Text × Text)
  | '\'' :: s => readStringBody? s
  | _ => none

theorem readStringBody?_doubled (value : Text) {rest : Text} (h : Text.Stops (· == '\'') rest) :
    readStringBody? (doubled value ++ '\'' :: rest) = some (value, rest) := by
  induction value with
  | nil =>
    show readStringBody? ('\'' :: rest) = some ([], rest)
    rw [readStringBody?]
    rintro s rfl
    exact absurd (Text.stops_cons.mp h) (by decide)
  | cons c value ih =>
    rw [doubled_cons]
    by_cases hc : c = '\''
    · subst hc
      show readStringBody? ('\'' :: '\'' :: (doubled value ++ '\'' :: rest)) = _
      rw [readStringBody?, ih]
      rfl
    · rw [if_neg (by simpa using hc), List.singleton_append, List.cons_append, readStringBody?, ih]
      · rfl
      · rintro s rfl
        exact absurd rfl hc
      · rintro rfl
        exact absurd rfl hc

/-- A string is read back as its value. -/
theorem readString?_sqlLiteral (value : Text) {rest : Text} (h : Text.Stops (· == '\'') rest) :
    readString? (sqlLiteral value ++ rest) = some (value, rest) := by
  rw [sqlLiteral_eq, List.cons_append, List.append_assoc]
  exact readStringBody?_doubled value h

end Sql

/-! ### The token of a quoted default -/

/-- A default in quotes. Its value holds none of the characters that end the quotes, the list, the table or the line. -/
structure QuotedDefault where
  quote : Char
  value : Text
  quote_mem : quote ∈ ['"', '\'']
  value_plain : Text.Avoids [quote, ']', '}', '\n'] value

namespace QuotedDefault
variable (d : QuotedDefault)

/-- The value in its quotes. -/
def quoted : Text := d.quote :: (d.value ++ [d.quote])

def token : Text := "default: " ++ d.quoted

theorem quote_eq : d.quote = '"' ∨ d.quote = '\'' := by
  simpa only [List.mem_cons, List.not_mem_nil, or_false] using d.quote_mem

theorem isBlank_quote : isBlank d.quote = false := by
  rcases d.quote_eq with h | h <;> rw [h] <;> decide

theorem not_mem_value : d.quote ∉ d.value := fun hm => d.value_plain _ hm List.mem_cons_self

theorem token_eq : d.token = ("default:" : Text) ++ ' ' :: d.quoted := by simp [token, Text.ofString_eq]

theorem trim_quoted : Text.trim d.quoted = d.quoted := by
  refine Text.trim_eq_self (Text.stops_cons.mpr d.isBlank_quote) ?_
  rw [quoted, List.reverse_cons, List.reverse_append]
  exact Text.stops_cons.mpr d.isBlank_quote

theorem trim_token : Text.trim d.token = d.token := by
  have hend : d.token.reverse = d.quote :: (("default: " : Text) ++ d.quote :: d.value).reverse := by
    simp [token, quoted]
  refine Text.trim_eq_self ?_ (hend ▸ Text.stops_cons.mpr d.isBlank_quote)
  rw [token, Text.ofString_eq]
  exact Text.stops_cons.mpr (by decide)

/-- The whole list is one token: no comma of the value separates. -/
theorem splitTokens_token : splitTokens d.token = [d.token] := by
  have hopens : (ListPlace.outside true).separates d.quote = false ∧
      (ListPlace.outside true).next d.quote = .inside d.quote := by
    rcases d.quote_eq with h | h <;> rw [h] <;> decide
  have hkey : (ListPlace.outside true).follow ("default: " : Text) = some (.outside true) := by
    rw [Text.ofString_eq]
    decide
  have hclose : (ListPlace.inside d.quote).follow [d.quote] = some (.outside false) := by
    simp [ListPlace.follow, ListPlace.separates, ListPlace.next]
  have hfollow : (ListPlace.outside true).follow d.token = some (.outside false) := by
    rw [token, ListPlace.follow_append hkey, quoted, ListPlace.follow, if_neg (by simp [hopens.1]), hopens.2,
      ListPlace.follow_append (ListPlace.follow_inside d.not_mem_value), hclose]
  exact splitTokens_single (by simp [token, quoted]) d.trim_token hfollow

/-! ### What the token says -/

theorem hasValue_key (value : Text) : ConstraintToken.HasValue (("default:" : Text) ++ value) "default" value := by
  refine ⟨"default".toList, ?_, by decide +kernel⟩
  rw [show (("default:" : Text) ++ value) = "default".toList ++ ':' :: value by rw [Text.ofString_eq]; rfl]
  exact Text.cut?_append (by decide) value

theorem isToken_key (value : Text) : Reference.isToken (("default:" : Text) ++ value) = false :=
  ConstraintToken.isToken_of_hasKey (hasValue_key value).hasKey (by decide +kernel)

theorem parse_quoted : DefaultValue.parse (' ' :: d.quoted) = .quoted d.value := by
  have htrim : Text.trim (' ' :: d.quoted) = d.quoted := by
    rw [← List.singleton_append, Text.trim_blank_append (by decide), d.trim_quoted]
  have henclosed : Text.enclosed? d.quoted = some (d.quote, d.value) := by simp [quoted, Text.enclosed?]
  rw [DefaultValue.parse, htrim, henclosed]
  rcases d.quote_eq with h | h <;> rw [h] <;> rfl

theorem readConstraints_token : readConstraints d.token = [.default (.quoted d.value)] := by
  have hfilled : ¬IsBlank (' ' :: d.quoted) := by
    intro h
    have hblank := h d.quote (by simp [quoted])
    rw [d.isBlank_quote] at hblank
    cases hblank
  rw [readConstraints, d.splitTokens_token, List.map_singleton, token_eq,
    ConstraintToken.classify_of_default (hasValue_key _), if_neg hfilled, d.parse_quoted]

/-! ### The column -/

section Column
variable {d} {c : Column} (hlist : c.constraints = some d.token)
include hlist

theorem clause_eq : c.clause = c.name ++ " " ++ Text.upper c.declaredType ++ " DEFAULT " ++ sqlLiteral d.value := by
  have hset : c.constraintSet = ⟨false, false, false, some (.quoted d.value), false⟩ := by
    rw [Column.constraintSet, Column.tokens, hlist, Option.elim_some, d.readConstraints_token]
    rfl
  have htype : sqlType c.declaredType c.constraintSet = Text.upper c.declaredType := by
    rw [hset]
    exact if_neg (by simp)
  have hclauses : c.constraintSet.clauses (isTextType c.declaredType) =
      [("DEFAULT " : Text) ++ sqlLiteral d.value] := by
    rw [hset]
    simp [ConstraintSet.clauses, ConstraintSet.clauses.word, DefaultValue.render]
  rw [Column.clause, htype, hclauses]
  simp [Text.join, Text.ofString_eq]

theorem unknown_eq_nil : c.unknown = [] := by
  rw [Column.unknown, Column.tokens, hlist, Option.elim_some, d.readConstraints_token]
  rfl

theorem referenceTokens_eq_nil : c.referenceTokens = [] := by
  rw [Column.referenceTokens, hlist, Option.elim_some, d.splitTokens_token, token_eq]
  exact List.filter_eq_nil_iff.mpr (by simp [isToken_key])

end Column

/-! ### The column as it is written -/

/-- The column of the given name and type with the default in its list. -/
def layout {column type : Text} (hcolumn : IsName column) (htype : IsName type) : ColumnLayout where
  name := column
  gap := [' ']
  typeWord := type
  size := none
  list := some ([' '], d.token)
  name_isName := hcolumn
  gap_ne_nil := by simp
  gap_inline := by decide
  type_isName := htype
  size_plain := by simp
  list_inline := by
    intro l hl
    cases hl
    show IsInline [' ']
    decide
  list_plain := by
    intro l hl c hc hplain
    cases hl
    simp only [token, quoted, Text.ofString_eq, List.mem_append, List.mem_cons, List.not_mem_nil, or_false] at hc
    have hquote : d.quote ∉ [']', '}', '\n'] := by rcases d.quote_eq with h | h <;> simp [h]
    rcases hc with hkey | rfl | hvalue | rfl
    · have hfree : Text.Avoids [']', '}', '\n'] "default: ".toList := by decide
      exact hfree c hkey hplain
    · exact hquote hplain
    · exact d.value_plain c hvalue (List.mem_cons_of_mem _ hplain)
    · exact hquote hplain
  list_trim := by
    intro l hl
    cases hl
    exact d.trim_token

end QuotedDefault

/-! ### A table of one column -/

/-- A table on one line, with one column. -/
def TableLayout.ofColumn {table : Text} (htable : IsName table) (c : ColumnLayout) : TableLayout where
  lead := [' ']
  name := table
  gap := [' ']
  body := {
    columns := [([' '], c)]
    tail := [' ']
    gap_blank := by
      intro x hx
      obtain rfl := List.mem_singleton.mp hx
      show IsBlank [' ']
      decide
    gap_ne_nil := by simp
    tail_blank := by decide }
  lead_ne_nil := by simp
  lead_blank := by decide
  name_isName := htable
  gap_blank := by decide

/-- A schema of one table and nothing around it. -/
def SchemaLayout.ofTable (t : TableLayout) : SchemaLayout where
  tables := [([], t)]
  tail := []
  gap_blank := by
    intro x hx
    obtain rfl := List.mem_singleton.mp hx
    exact IsBlank.nil
  tail_blank := IsBlank.nil

/-- A table whose only column has no references and no token that is left out is one statement. -/
theorem compile_ofColumn {table : Text} (htable : IsName table) (c : ColumnLayout)
    (hplain : ∀ line, (c.declared line).unknown = [] ∧ (c.declared line).referenceTokens = []) :
    ∃ line, compile (SchemaLayout.ofTable (.ofColumn htable c)).text =
      ⟨[⟨table, Statement.createTable table [(c.declared line).clause]⟩], []⟩ := by
  obtain ⟨b, line, hread, hname, hmem⟩ : ∃ (b : TableBlock) (line : Nat),
      Outline.read (SchemaLayout.ofTable (.ofColumn htable c)).text = ⟨[b], []⟩ ∧ b.name = table ∧
        (b, [c.declared line]) ∈ (SchemaLayout.ofTable (.ofColumn htable c)).declared := by
    refine ⟨_, _, ?_, ?_, List.mem_singleton.mpr rfl⟩
    · show Outline.place (lineBehind []) _ _ = _
      rw [SchemaLayout.text, SchemaLayout.scan_tablesText (SchemaLayout.gap_blank _) (SchemaLayout.tail_blank _)]
      exact SchemaLayout.place_tables (SchemaLayout.gap_blank _) (SchemaLayout.tail_blank _) []
    · rfl
  have hfindings := SchemaLayout.findings_of_mem_declared hmem
  obtain ⟨hunknown, hreferences⟩ := hplain line
  have hcolumns : b.columns = [c.declared line] := TableBlock.columns_of_findings hfindings
  have hskipped : b.skipped = [] := by
    rw [TableBlock.skipped_of_findings hfindings]
    simp [Body.malformedReferences, hreferences]
  have hforeign : b.references = [] := by
    rw [TableBlock.references_eq_flatMap, hcolumns]
    simp [hreferences]
  have hstatement : b.statement? = some ⟨table, Statement.createTable table [(c.declared line).clause]⟩ := by
    simp [TableBlock.statement?, Statement.emit?, hcolumns, hforeign, hname]
  refine ⟨line, ?_⟩
  rw [compile, hread]
  simp [Outline.statements, Outline.allSkipped, TableBlock.leftOut, TableBlock.unknownConstraints, TableBlock.emptySkip,
    hstatement, hskipped, hcolumns, hunknown, sortByLine]

/-- A quoted default stands in the statement as a string that is read as its value and ends right before the closing
    parenthesis, and nothing of the table is left out. -/
theorem compile_quotedDefault (d : QuotedDefault) {table column type : Text} (htable : IsName table)
    (hcolumn : IsName column) (htype : IsName type) :
    compile ("Table " ++ table ++ " \x7b " ++ column ++ " " ++ type ++ " [" ++ d.token ++ "] \x7d") =
        ⟨[⟨table, "CREATE TABLE IF NOT EXISTS " ++ table ++ "(" ++ column ++ " " ++ Text.upper type ++ " DEFAULT " ++
          sqlLiteral d.value ++ ")"⟩], []⟩ ∧
      Sql.readString? (sqlLiteral d.value ++ ")") = some (d.value, (")" : Text)) := by
  have htext : "Table " ++ table ++ " \x7b " ++ column ++ " " ++ type ++ " [" ++ d.token ++ "] \x7d" =
      (SchemaLayout.ofTable (.ofColumn htable (d.layout hcolumn htype))).text := by
    simp [SchemaLayout.text, SchemaLayout.ofTable, SchemaLayout.tablesText, TableLayout.text, TableLayout.shape,
      TableLayout.ofColumn, BlockShape.render, BlockShape.header, BodyLayout.text, BodyLayout.columnsText,
      QuotedDefault.layout, ColumnShape.render, ColumnShape.declaredType, ColumnShape.renderList, Text.ofString_eq]
  constructor
  · obtain ⟨line, hcompile⟩ := compile_ofColumn htable (d.layout hcolumn htype) fun line =>
      ⟨QuotedDefault.unknown_eq_nil rfl, QuotedDefault.referenceTokens_eq_nil rfl⟩
    rw [htext, hcompile, QuotedDefault.clause_eq rfl]
    simp [Statement.createTable, Text.join, ColumnLayout.declared, ColumnShape.declaredType, QuotedDefault.layout]
  · rw [Text.ofString_eq]
    exact Sql.readString?_sqlLiteral d.value (Text.stops_cons.mpr (by decide))

theorem compile_quotedDefault_delimiters :
    compile "Table t \x7b c varchar [default: \"a, unique: [it's // ref: > b.c\"] \x7d".toList =
        ⟨[⟨['t'], "CREATE TABLE IF NOT EXISTS t(c VARCHAR DEFAULT 'a, unique: [it''s // ref: > b.c')".toList⟩], []⟩ ∧
      Sql.readString? "'a, unique: [it''s // ref: > b.c')".toList =
        some ("a, unique: [it's // ref: > b.c".toList, [')']) := by
  have htable : IsName ['t'] := by decide
  have hcolumn : IsName ['c'] := by decide
  have htype : IsName "varchar".toList := by decide
  have h := compile_quotedDefault ⟨'"', "a, unique: [it's // ref: > b.c".toList, by decide, by decide⟩ htable hcolumn
    htype
  have hupper : Text.upper "varchar".toList = "VARCHAR".toList := by decide +kernel
  rw [hupper] at h
  simpa [QuotedDefault.token, QuotedDefault.quoted, Text.ofString_eq, sqlLiteral] using h

end Schemata
