import Schemata.Proofs.Dialect.Findings
import Schemata.Proofs.Dialect.Lines
import Schemata.Proofs.Text.Upper
import Schemata.Ddl.Compilation

/-! A statement can be read back into its clauses. A reader of the text between the outer parentheses follows quotes
    and parentheses only, and cuts at each `, ` outside both. Every clause leads it from the outermost place back
    there and holds no comma at that place, so the commas that are cut at are those that join the clauses. -/

namespace Schemata

/-! ### Reading clauses -/

/-- Where the reading of clauses stands: inside a quoted literal or not, and behind how many open parentheses. A quote
    written twice closes its literal and opens it again. -/
structure ClausePlace where
  quoted : Bool
  depth : Nat
  deriving DecidableEq, Repr

namespace ClausePlace

/-- Outside literals and parentheses. -/
def top : ClausePlace := ⟨false, 0⟩

def next (p : ClausePlace) (c : Char) : ClausePlace :=
  if c == '\'' then ⟨!p.quoted, p.depth⟩
  else if p.quoted then p
  else if c == '(' then ⟨false, p.depth + 1⟩
  else if c == ')' then ⟨false, p.depth - 1⟩
  else p

/-- The place behind a text, unless a comma of the text stands at the outermost place. -/
def follow (p : ClausePlace) : Text → Option ClausePlace
  | [] => some p
  | c :: s => if p = top ∧ c = ',' then none else (p.next c).follow s

end ClausePlace

/-- The pieces between the separators `, ` outside literals and parentheses, read from the given place. -/
def splitClauses : ClausePlace → Text → List Text
  | _, [] => [[]]
  | p, ',' :: ' ' :: s =>
    if p = .top then [] :: splitClauses .top s
    else (splitClauses p (' ' :: s)).modifyHead (',' :: ·)
  | p, c :: s => (splitClauses (p.next c) s).modifyHead (c :: ·)

theorem splitClauses_cons {p : ClausePlace} {c : Char} (h : ¬(p = .top ∧ c = ',')) (s : Text) :
    splitClauses p (c :: s) = (splitClauses (p.next c) s).modifyHead (c :: ·) := by
  by_cases hsep : ∃ t, c = ',' ∧ s = ' ' :: t
  · obtain ⟨t, rfl, rfl⟩ := hsep
    have hp : p ≠ .top := fun hp => h ⟨hp, rfl⟩
    have hnext : p.next ',' = p := by simp [ClausePlace.next]
    rw [splitClauses, if_neg hp, hnext]
  · rw [splitClauses]
    intro t hc hs
    exact hsep ⟨t, hc, hs⟩

theorem splitClauses_separator (s : Text) : splitClauses .top ((", " : Text) ++ s) = [] :: splitClauses .top s := by
  rw [Text.ofString_eq]
  show splitClauses .top (',' :: ' ' :: s) = _
  rw [splitClauses, if_pos rfl]

namespace ClausePlace

theorem follow_cons {p : ClausePlace} {c : Char} (h : ¬(p = .top ∧ c = ',')) (s : Text) :
    p.follow (c :: s) = (p.next c).follow s := if_neg h

theorem follow_append {p q : ClausePlace} {a : Text} (h : p.follow a = some q) (b : Text) :
    p.follow (a ++ b) = q.follow b := by
  induction a generalizing p with
  | nil =>
    cases h
    rfl
  | cons c a ih =>
    rw [follow, Option.ite_none_left_eq_some] at h
    rw [List.cons_append, follow_cons h.1, ih h.2]

theorem splitClauses_append {p q : ClausePlace} {a : Text} (h : p.follow a = some q) (s : Text) :
    splitClauses p (a ++ s) = (splitClauses q s).modifyHead (a ++ ·) := by
  induction a generalizing p with
  | nil =>
    cases h
    show splitClauses q s = (splitClauses q s).modifyHead id
    rw [List.modifyHead_id, id]
  | cons c a ih =>
    rw [follow, Option.ite_none_left_eq_some] at h
    rw [List.cons_append, splitClauses_cons h.1, ih h.2, List.modifyHead_modifyHead]
    rfl

/-- Text without quotes, parentheses and outer commas leaves the place as it is. -/
theorem follow_plain {p : ClausePlace} {a : Text} (h : Text.Avoids ['\'', '(', ')'] a) (hcomma : p = top → ',' ∉ a) :
    p.follow a = some p := by
  induction a with
  | nil => rfl
  | cons c a ih =>
    have hc := h c List.mem_cons_self
    have hnext : p.next c = p := by
      simp only [List.mem_cons, List.not_mem_nil, or_false, not_or] at hc
      simp [next, hc]
    rw [follow_cons, hnext]
    · exact ih (fun x hx => h x (List.mem_cons_of_mem c hx)) fun hp hm => hcomma hp (List.mem_cons_of_mem c hm)
    · rintro ⟨hp, rfl⟩
      exact hcomma hp List.mem_cons_self

/-- The characters that guide the reader stand in no name. -/
theorem avoids_name {a : Text} (h : IsName a) : Text.Avoids ['\'', '(', ')', ','] a := fun c hc hm => by
  have hword := h.word c hc
  simp only [List.mem_cons, List.not_mem_nil, or_false] at hm
  rcases hm with rfl | rfl | rfl | rfl <;> exact absurd hword (by decide)

theorem follow_name {p : ClausePlace} {a : Text} (h : IsName a) : p.follow a = some p :=
  follow_plain (fun c hc hm => avoids_name h c hc (List.mem_append_left [','] hm))
    fun _ hm => avoids_name h ',' hm (List.mem_append_right ['\'', '(', ')'] List.mem_cons_self)

theorem follow_join {p : ClausePlace} {sep : Text} (hsep : p.follow sep = some p) {parts : List Text}
    (h : ∀ part ∈ parts, p.follow part = some p) : p.follow (Text.join sep parts) = some p := by
  induction parts with
  | nil => rfl
  | cons part parts ih =>
    have hpart := h part List.mem_cons_self
    cases parts with
    | nil => rwa [Text.join, List.intercalate_singleton]
    | cons part' parts =>
      rw [Text.join, List.intercalate_cons_cons, List.append_assoc, follow_append hpart, follow_append hsep]
      exact ih fun x hx => h x (List.mem_cons_of_mem _ hx)

end ClausePlace

/-- Clauses joined by `, ` are read back one by one. -/
theorem splitClauses_join {clauses : List Text} (hne : clauses ≠ [])
    (h : ∀ clause ∈ clauses, ClausePlace.top.follow clause = some .top) :
    splitClauses .top (Text.join ", " clauses) = clauses := by
  induction clauses with
  | nil => exact absurd rfl hne
  | cons clause clauses ih =>
    have hclause := ClausePlace.splitClauses_append (h clause List.mem_cons_self)
    cases clauses with
    | nil =>
      rw [Text.join, List.intercalate_singleton, ← List.append_nil clause, hclause]
      simp [splitClauses]
    | cons clause' clauses =>
      have hrest := ih (List.cons_ne_nil _ _) fun x hx => h x (List.mem_cons_of_mem _ hx)
      rw [Text.join] at hrest ⊢
      rw [List.intercalate_cons_cons, List.append_assoc, hclause, splitClauses_separator, hrest, List.modifyHead_cons,
        List.append_nil]

/-! ### Defaults and types -/

namespace ClausePlace
variable (depth : Nat)

/-- A literal is closed behind its value, whatever the value is: the quotes inside come in pairs. -/
theorem follow_sqlLiteral (value : Text) : follow ⟨false, depth⟩ (sqlLiteral value) = some ⟨false, depth⟩ := by
  have hopen : follow ⟨false, depth⟩ ("'" : Text) = some ⟨true, depth⟩ := by
    rw [Text.ofString_eq]
    simp [follow, next]
  have hvalue : follow ⟨true, depth⟩ (value.flatMap fun c => if c == '\'' then ['\'', '\''] else [c]) =
      some ⟨true, depth⟩ := by
    induction value with
    | nil => rfl
    | cons c value ih =>
      rw [List.flatMap_cons, follow_append (q := ⟨true, depth⟩), ih]
      by_cases hc : c = '\'' <;> simp [hc, follow, next, top]
  have hclose : follow ⟨true, depth⟩ ("'" : Text) = some ⟨false, depth⟩ := by
    rw [Text.ofString_eq]
    simp [follow, next, top]
  rw [sqlLiteral, List.append_assoc, follow_append hopen, follow_append hvalue, hclose]

end ClausePlace

/-- Whether the parentheses of a text are closed in pairs, and each comma stands inside some, when the text starts
    behind the given number of open ones. -/
def enclosedFrom : Nat → Text → Bool
  | depth, [] => depth == 0
  | depth, c :: s =>
    if c == '(' then enclosedFrom (depth + 1) s
    else if c == ')' then depth != 0 && enclosedFrom (depth - 1) s
    else (depth != 0 || c != ',') && enclosedFrom depth s

theorem ClausePlace.follow_enclosed {value : Text} (hquote : '\'' ∉ value) {depth : Nat}
    (h : enclosedFrom depth value = true) : follow ⟨false, depth⟩ value = some top := by
  induction value generalizing depth with
  | nil =>
    rw [enclosedFrom, beq_iff_eq] at h
    rw [h]
    rfl
  | cons c value ih =>
    obtain ⟨hc, hvalue⟩ := List.ne_and_not_mem_of_not_mem_cons hquote
    have hc : c ≠ '\'' := hc.symm
    unfold enclosedFrom at h
    split at h
    · rename_i hopen
      rw [beq_iff_eq] at hopen
      subst hopen
      rw [follow_cons fun hp => absurd hp.2 (by decide)]
      exact ih hvalue h
    · split at h
      · rename_i hclose
        rw [beq_iff_eq] at hclose
        subst hclose
        rw [follow_cons fun hp => absurd hp.2 (by decide)]
        exact ih hvalue (Bool.and_eq_true_iff.mp h).2
      · rename_i hopen hclose
        rw [Bool.and_eq_true, Bool.or_eq_true, bne_iff_ne, bne_iff_ne] at h
        have hcomma : ¬((⟨false, depth⟩ : ClausePlace) = .top ∧ c = ',') := fun ⟨hp, he⟩ => by
          rcases h.1 with hd | hd
          · exact hd (congrArg ClausePlace.depth hp)
          · exact hd he
        have hnext : next ⟨false, depth⟩ c = ⟨false, depth⟩ := by simp_all [next]
        rw [follow_cons hcomma, hnext]
        exact ih hvalue h.2

theorem Column.clause_eq (c : Column) :
    c.clause = c.name ++ (' ' :: sqlType c.declaredType c.constraintSet ++
      (c.constraintSet.clauses (isTextType c.declaredType)).flatMap (' ' :: ·)) := by
  rw [clause, Text.join_cons, List.flatMap_cons, Text.ofString_eq]
  rfl

/-- The text of a default that is emitted as it is written. -/
def DefaultValue.verbatim? (textLike : Bool) : DefaultValue → Option Text
  | quoted _ => none
  | expression value => some value
  | bare value => if textLike then none else some value

namespace Column

def verbatimDefault? (c : Column) : Option Text :=
  c.constraintSet.default?.bind (·.verbatim? (isTextType c.declaredType))

/-- The text between the parentheses of the type. -/
def size? (c : Column) : Option Text := (Text.cut? '(' c.declaredType).map fun (_, closed) => closed.dropLast

/-- What is asked of the texts that reach the statement as they are: a size has no quote and no parenthesis, and a
    default emitted verbatim has no quote, closed parentheses only, and its commas inside them. -/
structure Splittable (c : Column) : Prop where
  size : ∀ size ∈ c.size?, Text.Avoids ['\'', '(', ')'] size
  quote : ∀ value ∈ c.verbatimDefault?, '\'' ∉ value
  enclosed : ∀ value ∈ c.verbatimDefault?, enclosedFrom 0 value = true

theorem splittable_iff {c : Column} :
    c.Splittable ↔ (∀ size ∈ c.size?, Text.Avoids ['\'', '(', ')'] size) ∧
      ∀ value ∈ c.verbatimDefault?, '\'' ∉ value ∧ enclosedFrom 0 value = true :=
  ⟨fun h => ⟨h.size, fun value hv => ⟨h.quote value hv, h.enclosed value hv⟩⟩,
    fun h => ⟨h.1, fun value hv => (h.2 value hv).1, fun value hv => (h.2 value hv).2⟩⟩

instance (c : Column) : Decidable c.Splittable := decidable_of_iff' _ splittable_iff

end Column

/-! ### Clauses of columns and references -/

theorem ConstraintSet.eq_of_mem_word {present : Bool} {keyword clause : Text}
    (h : clause ∈ clauses.word present keyword) : clause = keyword := by
  unfold clauses.word at h
  split at h
  · exact List.mem_singleton.mp h
  · cases h

/-- A constraint clause is made of keywords, or it is a default. -/
theorem ConstraintSet.mem_clauses {set : ConstraintSet} {textLike : Bool} {clause : Text}
    (h : clause ∈ set.clauses textLike) :
    clause ∈ (["PRIMARY KEY", "NOT NULL", "UNIQUE", "AUTOINCREMENT"] : List Text) ∨
      ∃ value ∈ set.default?, clause = "DEFAULT " ++ value.render textLike := by
  simp only [clauses, List.mem_append] at h
  rcases h with (((h | h) | h) | h) | h
  · exact .inl (by simp [eq_of_mem_word h])
  · exact .inl (by simp [eq_of_mem_word h])
  · exact .inl (by simp [eq_of_mem_word h])
  · obtain ⟨value, hvalue, rfl⟩ := Option.map_eq_some_iff.mp (Option.mem_toList.mp h)
    exact .inr ⟨value, hvalue, rfl⟩
  · exact .inl (by simp [eq_of_mem_word h])

namespace ClausePlace

/-- Upper-casing brings in nothing to follow. -/
theorem follow_upper {p : ClausePlace} {a : Text} (h : Text.Avoids ['\'', '(', ')'] a) (hcomma : p = top → ',' ∉ a) :
    p.follow (Text.upper a) = some p := by
  have hsub : ['\'', '(', ')'] ⊆ punctuation := by simp [punctuation]
  refine follow_plain (fun c hc hm => ?_) fun hp hm => ?_
  · exact h c (Text.mem_upper hc (hsub hm)) hm
  · exact hcomma hp (Text.mem_upper hm (by simp [punctuation]))

/-- A type closes the parenthesis of its size. -/
theorem follow_declaredType {shape : ColumnShape} (hproper : shape.Proper)
    (hsize : ∀ size ∈ shape.size, Text.Avoids ['\'', '(', ')'] size) :
    top.follow (Text.upper shape.declaredType) = some top := by
  have hword : top.follow (Text.upper shape.typeWord) = some top :=
    follow_upper (fun c hc hm => avoids_name hproper.typeWord c hc (List.mem_append_left [','] hm))
      fun _ hm => avoids_name hproper.typeWord ',' hm (List.mem_append_right ['\'', '(', ')'] List.mem_cons_self)
  unfold ColumnShape.declaredType Text.upper at *
  rw [List.flatMap_append, follow_append hword]
  cases hs : shape.size with
  | none => rfl
  | some size =>
    have hopen : top.follow (List.flatMap upperChar ("(" : Text)) = some ⟨false, 1⟩ := by
      rw [Text.ofString_eq]
      decide
    have hinside : follow ⟨false, 1⟩ (List.flatMap upperChar size) = some ⟨false, 1⟩ :=
      follow_upper (hsize size hs) fun hp => absurd hp (by decide)
    have hclose : follow ⟨false, 1⟩ (List.flatMap upperChar (")" : Text)) = some top := by
      rw [Text.ofString_eq]
      decide
    rw [Option.elim_some, ColumnShape.renderSize, List.flatMap_append, List.flatMap_append, List.append_assoc,
      follow_append hopen, follow_append hinside, hclose]

theorem follow_verbatim {value : DefaultValue} {textLike : Bool}
    (hquote : ∀ text ∈ value.verbatim? textLike, '\'' ∉ text)
    (henclosed : ∀ text ∈ value.verbatim? textLike, enclosedFrom 0 text = true) :
    top.follow (value.render textLike) = some top := by
  cases value with
  | quoted value => exact follow_sqlLiteral 0 value
  | expression value => exact follow_enclosed (hquote value rfl) (henclosed value rfl)
  | bare value =>
    cases textLike with
    | false => exact follow_enclosed (hquote value rfl) (henclosed value rfl)
    | true => exact follow_sqlLiteral 0 value

/-- The words of a constraint clause have nothing to follow; only the default does. -/
theorem follow_constraint {set : ConstraintSet} {textLike : Bool} {clause : Text}
    (hdefault : ∀ value ∈ set.default?, top.follow (value.render textLike) = some top)
    (h : clause ∈ set.clauses textLike) : top.follow clause = some top := by
  rcases ConstraintSet.mem_clauses h with hkeyword | ⟨value, hvalue, rfl⟩
  · have hkeywords : ∀ keyword ∈ (["PRIMARY KEY", "NOT NULL", "UNIQUE", "AUTOINCREMENT"] : List Text),
        top.follow keyword = some top := by decide +kernel
    exact hkeywords clause hkeyword
  · have hkeyword : top.follow ("DEFAULT " : Text) = some top := by
      rw [Text.ofString_eq]
      decide
    rw [follow_append hkeyword, hdefault value hvalue]

theorem follow_reference {r : Reference} (hlocal : IsName r.localColumn) (htable : IsName r.remoteTable)
    (hcolumn : IsName r.remoteColumn) : top.follow r.clause = some top := by
  have hkey : top.follow ("FOREIGN KEY (" : Text) = some ⟨false, 1⟩ := by
    rw [Text.ofString_eq]
    decide
  have htarget : follow ⟨false, 1⟩ (") REFERENCES " : Text) = some top := by
    rw [Text.ofString_eq]
    decide
  have hopen : top.follow ("(" : Text) = some ⟨false, 1⟩ := by
    rw [Text.ofString_eq]
    decide
  have hclose : follow ⟨false, 1⟩ (")" : Text) = some top := by
    rw [Text.ofString_eq]
    decide
  simp only [Reference.clause, List.append_assoc]
  rw [follow_append hkey, follow_append (follow_name hlocal), follow_append htarget, follow_append (follow_name htable),
    follow_append hopen, follow_append (follow_name hcolumn), hclose]

end ClausePlace

/-- The size of a column that is read is the text in the parentheses behind its type word. -/
theorem Column.size?_column {shape : ColumnShape} (h : shape.Proper) (line : Nat) :
    (Body.column line shape).size? = shape.size := by
  have hname : '(' ∉ shape.typeWord := fun hm => absurd (h.typeWord.word _ hm) (by decide)
  unfold Column.size? Body.column ColumnShape.declaredType
  cases shape.size with
  | none => rw [Option.elim_none, List.append_nil, Text.cut?_eq_none.mpr hname, Option.map_none]
  | some size =>
    have hcut : Text.cut? '(' (shape.typeWord ++ ("(" ++ size ++ ")" : Text)) =
        some (shape.typeWord, size ++ [')']) := by
      rw [Text.ofString_eq, Text.ofString_eq]
      exact Text.cut?_append hname _
    rw [Option.elim_some, ColumnShape.renderSize, hcut]
    exact congrArg some List.dropLast_concat

namespace TableBlock
variable {b : TableBlock}

theorem follow_column {c : Column} (hc : c ∈ b.columns) (h : c.Splittable) :
    ClausePlace.top.follow c.clause = some .top := by
  obtain ⟨shape, line, hproper, rfl⟩ := column_of_mem hc
  have hspace : ClausePlace.top.follow (" " : Text) = some .top := by
    rw [Text.ofString_eq]
    decide
  refine ClausePlace.follow_join hspace fun part hpart => ?_
  rcases List.mem_cons.mp hpart with rfl | hpart
  · exact ClausePlace.follow_name hproper.name
  rcases List.mem_cons.mp hpart with rfl | hpart
  · unfold sqlType
    split
    · rw [Text.ofString_eq]
      decide
    · exact ClausePlace.follow_declaredType hproper (Column.size?_column hproper line ▸ h.size)
  · refine ClausePlace.follow_constraint (fun value hvalue => ?_) hpart
    have hverbatim : ∀ text ∈ value.verbatim? (isTextType (Body.column line shape).declaredType),
        text ∈ (Body.column line shape).verbatimDefault? := fun text ht =>
      Option.bind_eq_some_iff.mpr ⟨value, hvalue, ht⟩
    exact ClausePlace.follow_verbatim (fun text ht => h.quote text (hverbatim text ht))
      fun text ht => h.enclosed text (hverbatim text ht)

/-- The statement of a block lists its columns and references, and these can be read back from it. -/
theorem splitClauses_statement {st : Statement} (hst : b.statement? = some st) (h : ∀ c ∈ b.columns, c.Splittable) :
    st.table = b.name ∧
      ∃ inner : Text, st.sql = "CREATE TABLE IF NOT EXISTS " ++ b.name ++ "(" ++ inner ++ ")" ∧
        splitClauses .top inner = b.columns.map Column.clause ++ b.references.map Reference.clause := by
  unfold statement? Statement.emit? at hst
  split at hst
  · cases hst
  · rename_i hne
    cases hst
    refine ⟨rfl, _, rfl, splitClauses_join ?_ ?_⟩
    · intro he
      obtain ⟨hcolumns, hreferences⟩ := List.append_eq_nil_iff.mp he
      exact hne (by simp [hcolumns, List.map_eq_nil_iff.mp hreferences])
    · intro clause hclause
      rcases List.mem_append.mp hclause with hclause | hclause
      · obtain ⟨c, hc, rfl⟩ := List.mem_map.mp hclause
        exact follow_column hc (h c hc)
      · obtain ⟨r, hr, rfl⟩ := List.mem_map.mp hclause
        obtain ⟨hlocal, htable, hcolumn⟩ := reference_of_mem hr
        exact ClausePlace.follow_reference hlocal htable hcolumn

end TableBlock

/-- Each statement is that of a block, and where the columns of a block allow it, its statement is read back into the
    clauses of its columns and references, in their order. -/
theorem compile_splitClauses (s : Text) :
    (∀ st ∈ (compile s).statements, ∃ b ∈ (Outline.read s).blocks, b.statement? = some st) ∧
      ∀ b ∈ (Outline.read s).blocks, ∀ st, b.statement? = some st → (∀ c ∈ b.columns, c.Splittable) →
        st ∈ (compile s).statements ∧ st.table = b.name ∧
          ∃ inner : Text, st.sql = "CREATE TABLE IF NOT EXISTS " ++ b.name ++ "(" ++ inner ++ ")" ∧
            splitClauses .top inner = b.columns.map Column.clause ++ b.references.map Reference.clause := by
  refine ⟨fun st hst => ?_, fun b hb st hst h => ⟨?_, ?_⟩⟩
  · exact List.mem_filterMap.mp hst
  · exact List.mem_filterMap.mpr ⟨b, hb, hst⟩
  · exact TableBlock.splitClauses_statement hst h

/-- A body with a quote, a comma and a parenthesis in a default, and commas inside a size and an expression. -/
def quotedBody : Text :=
  "name char(9) [default: \"it's, (so\"] price dec(8, 2) [default: `max(1, 2)`, ref: > u.id]".toList

theorem compile_splitClauses_quotedBody :
    ∃ st ∈ (compile ("Table t \x7b".toList ++ quotedBody ++ ['}'])).statements, ∃ inner : Text,
      st.sql = ("CREATE TABLE IF NOT EXISTS " : Text) ++ ['t'] ++ "(" ++ inner ++ ")" ∧
      splitClauses .top inner = ["name CHAR(9) DEFAULT 'it''s, (so'".toList,
        "price DEC(8, 2) DEFAULT max(1, 2)".toList, "FOREIGN KEY (price) REFERENCES u(id)".toList] := by
  let b : TableBlock := ⟨['t'], quotedBody, 1, 1⟩
  have hread : (Outline.read ("Table t \x7b".toList ++ quotedBody ++ ['}'])).blocks = [b] := by
    unfold Outline.read
    rw [← Pattern.scanUpTo_eq_scan _ (Nat.le_refl _)]
    decide +kernel
  have hfindings : b.findings =
      [.column ⟨"name".toList, "char(9)".toList, some "default: \"it's, (so\"".toList, 1⟩,
        .column ⟨"price".toList, "dec(8, 2)".toList, some "default: `max(1, 2)`, ref: > u.id".toList, 1⟩,
        .reference ⟨"price".toList, .manyToOne, ['u'], "id".toList⟩] := by
    rw [TableBlock.findings_eq, show b.body.splitOn '\n' = [quotedBody] by decide +kernel]
    simp only [Body.linesFindings, Body.lineFindings_eq_scanUpTo]
    decide +kernel
  obtain ⟨st, hst⟩ : ∃ st, b.statement? = some st := by
    rw [TableBlock.statement?, TableBlock.columns_eq, TableBlock.references_eq, hfindings]
    exact ⟨_, rfl⟩
  have hsplit : ∀ c ∈ b.columns, c.Splittable := by
    rw [TableBlock.columns_eq, hfindings]
    decide +kernel
  obtain ⟨hmem, -, inner, hsql, hclauses⟩ :=
    (compile_splitClauses _).2 b (hread ▸ List.mem_singleton_self b) st hst hsplit
  refine ⟨st, hmem, inner, hsql, ?_⟩
  rw [hclauses, TableBlock.columns_eq, TableBlock.references_eq, hfindings]
  decide +kernel

end Schemata
