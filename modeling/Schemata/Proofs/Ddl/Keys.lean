import Schemata.Proofs.Ddl.Columns
import Schemata.Proofs.Ddl.Statements
import Schemata.Proofs.Sql.CreateIfAbsent

/-! The definitions in the statement of a block: one of each column, in their order, and behind them the clause of each
    reference. They are what is read of the statement, unless some of its characters form no token. -/

namespace Schemata

/-- A reference as a store reports it. -/
def Reference.foreignKey (x : Reference) : ForeignKey := ⟨x.localColumn, x.remoteTable, x.remoteColumn⟩

theorem Reference.clause_eq (x : Reference) :
    x.clause = "FOREIGN".toList ++ ' ' :: ("KEY".toList ++ ' ' :: '(' :: (x.localColumn ++ ')' :: ' ' ::
      ("REFERENCES".toList ++ ' ' :: (x.remoteTable ++ '(' :: (x.remoteColumn ++ [')']))))) := by
  simp only [clause, Text.ofString_eq]
  simp

namespace Sql
open Text

/-! ### References -/

/-- A definition that is the clause of a reference. -/
structure Declares (x : Reference) (k : KeyClause) (d : List Token) : Prop where
  spells : k.Spells d
  foreignKey : k.foreignKey = x.foreignKey
  column : Names x.localColumn k.column
  leads : Leads 0 d 0

/-- A keyword as a token. -/
def Keyword (w : Text) (t : Token) : Prop := t.kind = .word ∧ t.text = w

theorem Keyword.isWord {w word : Text} {t : Token} (h : Keyword w t) (hw : Text.lower w = Text.lower word) :
    t.isWord word = true := by
  simp [Token.isWord, sameFolded, h.1, h.2, hw]

theorem Keyword.isSign {w : Text} {t : Token} (h : Keyword w t) (sign : Text) : t.isSign sign = false :=
  Token.isSign_of_kind (by simp [h.1]) sign

/-- What the tokens of the clause are, one by one. -/
def clauseForms (x : Reference) : List (Token → Prop) :=
  [Keyword "FOREIGN".toList, Keyword "KEY".toList, (Token.isSign · ['('] = true), Names x.localColumn,
    (Token.isSign · [')'] = true), Keyword "REFERENCES".toList, Names x.remoteTable, (Token.isSign · ['('] = true),
    Names x.remoteColumn, (Token.isSign · [')'] = true)]

theorem reads_clause {x : Reference} (hlocal : IsName x.localColumn) (htable : IsName x.remoteTable)
    (hcolumn : IsName x.remoteColumn) : Reads (Forms (clauseForms x)) x.clause := by
  have hname : ∀ {w : Text}, IsName w → Reads (Forms [Names w]) w := fun hw => reads_name hw.ne_nil (isBare_of_isName hw)
  have hsign : ∀ {c : Char} {s : Text}, separates c = true → ∀ rest, Breaks rest → Breaks (c :: s ++ rest) :=
    fun hc _ _ => breaks_cons.mpr hc
  have hremote := (hname hcolumn).forms ((reads_nil .nil).formsSign (c := ')') (by simp)) (hsign (by decide))
  have htarget := (hname htable).forms (hremote.formsSign (c := '(') (by simp)) (hsign (by decide))
  have hreferences := (reads_word (w := "REFERENCES".toList) (by decide)).forms
    (htarget.space fun rest => by
      rw [List.append_assoc]
      exact stops_isSpace_of_isBare htable.ne_nil (isBare_of_isName htable)) (hsign (by decide))
  have hcolumns := (hname hlocal).forms
    ((hreferences.space fun rest => by
      rw [List.append_assoc]
      exact front_of_isPlain (by decide) _).formsSign (c := ')') (by simp)) (hsign (by decide))
  have hkey := (reads_word (w := "KEY".toList) (by decide)).forms
    ((hcolumns.formsSign (c := '(') (by simp)).space fun rest => stops_cons.mpr (by decide)) (hsign (by decide))
  rw [Reference.clause_eq]
  exact (reads_word (w := "FOREIGN".toList) (by decide)).forms
    (hkey.space fun rest => by
      rw [List.append_assoc]
      exact front_of_isPlain (by decide) _) (hsign (by decide))

theorem declares_of_forms {x : Reference} {d : List Token} (h : Forms (clauseForms x) d) : ∃ k, Declares x k d := by
  obtain ⟨foreign, d, hforeign, h1, rfl⟩ := List.forall₂_cons_left_iff.mp h
  obtain ⟨key, d, hkey, h2, rfl⟩ := List.forall₂_cons_left_iff.mp h1
  obtain ⟨opened, d, hopened, h3, rfl⟩ := List.forall₂_cons_left_iff.mp h2
  obtain ⟨column, d, hcolumn, h4, rfl⟩ := List.forall₂_cons_left_iff.mp h3
  obtain ⟨closed, d, hclosed, h5, rfl⟩ := List.forall₂_cons_left_iff.mp h4
  obtain ⟨references, d, hreferences, h6, rfl⟩ := List.forall₂_cons_left_iff.mp h5
  obtain ⟨table, d, htable, h7, rfl⟩ := List.forall₂_cons_left_iff.mp h6
  obtain ⟨opened', d, hopened', h8, rfl⟩ := List.forall₂_cons_left_iff.mp h7
  obtain ⟨remote, d, hremote, h9, rfl⟩ := List.forall₂_cons_left_iff.mp h8
  obtain ⟨closed', d, hclosed', hnil, rfl⟩ := List.forall₂_cons_left_iff.mp h9
  cases hnil
  have hopen : ∀ t : Token, t.isSign ['('] = true → t.isSign "(" = true := fun t ht => by rwa [ofString_eq]
  have hclose : ∀ t : Token, t.isSign [')'] = true → t.isSign ")" = true := fun t ht => by rwa [ofString_eq]
  replace hopened := hopen _ hopened
  replace hclosed := hclose _ hclosed
  replace hopened' := hopen _ hopened'
  replace hclosed' := hclose _ hclosed'
  have hword : ∀ {w : Text} {t : Token}, Keyword w t → Leads 0 [t] 0 := fun h =>
    leads_other (h.isSign _) (h.isSign _) (.inl (h.isSign _))
  have hname : ∀ {w : Text} {t : Token} {n : Nat}, Names w t → Leads n [t] n := fun h =>
    leads_other (h.isSign _) (h.isSign _) (.inl (h.isSign _))
  have hspells : KeyClause.Spells ⟨column, table, remote⟩
      [foreign, key, opened, column, closed, references, table, opened', remote, closed'] :=
    .cons (hforeign.isWord (by decide +kernel)) (.cons (hkey.isWord (by decide +kernel)) (.cons hopened (.cons rfl
      (.cons hclosed (.cons (hreferences.isWord (by decide +kernel)) (.cons rfl (.cons hopened' (.cons rfl
        (.cons hclosed' .nil)))))))))
  refine ⟨⟨column, table, remote⟩, hspells, ?_, hcolumn, ?_⟩
  · simp only [KeyClause.foreignKey, Reference.foreignKey, hcolumn.label, htable.label, hremote.label]
  · exact (hword hforeign).cons ((hword hkey).cons ((leads_open hopened).cons ((hname hcolumn).cons
      ((leads_close hclosed).cons ((hword hreferences).cons ((hname htable).cons ((leads_open hopened').cons
        ((hname hremote).cons (leads_close hclosed')))))))))

theorem solid_clause {x : Reference} (hlocal : IsName x.localColumn) (htable : IsName x.remoteTable)
    (hcolumn : IsName x.remoteColumn) : Solid (fun d => ∃ k, Declares x k d) x.clause where
  reads := (reads_clause hlocal htable hcolumn).imp fun _ => declares_of_forms
  front rest := by
    rw [Reference.clause_eq, List.append_assoc]
    exact front_of_isPlain (by decide) _

/-! ### Lists -/

/-- Clauses with commas between them and a parenthesis behind them are read as definitions one by one. -/
theorem reads_list {forms : List (List Token → Prop)} {clauses : List Text} (hne : clauses ≠ [])
    (h : List.Forall₂ (fun P clause => Solid (fun d => P d ∧ Leads 0 d 0) clause) forms clauses) :
    Reads (fun ts => ∃ ds, List.Forall₂ (fun P d => P d) forms ds ∧ ∀ rest, definitionsFrom 0 (ts ++ rest) = ds)
      (Text.join ", " clauses ++ [')']) := by
  induction h with
  | nil => exact absurd rfl hne
  | @cons P clause forms clauses hclause h ih =>
    cases h with
    | nil =>
      have htext : Text.join ", " [clause] ++ [')'] = clause ++ [')'] := by
        rw [Text.join_cons, List.flatMap_nil, List.append_nil]
      rw [htext]
      refine hclause.reads.append ((reads_nil .nil).formsSign (c := ')') (by simp))
        (fun _ _ => breaks_cons.mpr (by decide)) fun d ts hd hts => ?_
      obtain ⟨t, ts, ht, hnil, rfl⟩ := List.forall₂_cons_left_iff.mp hts
      cases hnil
      refine ⟨[d], .cons hd.1 .nil, fun rest => ?_⟩
      have hopen : t.isSign "(" = false := Token.isSign_of_isSign ht (by decide +kernel)
      have hclose : t.isSign ")" = true := by rwa [ofString_eq]
      rw [List.append_assoc, hd.2, List.singleton_append, definitionsFrom, hopen, hclose]
      exact congrArg (fun d => [d]) (List.append_nil d)
    | @cons Q next forms clauses hnext h =>
      have htext : Text.join ", " (clause :: next :: clauses) ++ [')'] =
          clause ++ ',' :: ' ' :: (Text.join ", " (next :: clauses) ++ [')']) := by
        rw [Text.join_cons, Text.join_cons, List.flatMap_cons, ofString_eq]
        simp
      have hfront : ∀ rest, Stops isSpace (Text.join ", " (next :: clauses) ++ [')'] ++ rest) := fun rest => by
        rw [Text.join_cons, List.append_assoc, List.append_assoc]
        exact hnext.front _
      rw [htext]
      refine hclause.reads.append (Q := fun ts => ∃ t ts', ts = t :: ts' ∧ t.isSign [','] = true ∧ ∃ ds,
          List.Forall₂ (fun P d => P d) (Q :: forms) ds ∧ ∀ rest, definitionsFrom 0 (ts' ++ rest) = ds)
        (((ih (List.cons_ne_nil _ _)).space hfront).sign (by simp) fun t ts ht hts => ⟨t, ts, rfl, ht, hts⟩)
        (fun _ _ => breaks_cons.mpr (by decide)) fun d ts hd hts => ?_
      obtain ⟨t, ts, rfl, ht, ds, hds, hall⟩ := hts
      refine ⟨d :: ds, .cons hd.1 hds, fun rest => ?_⟩
      have hopen : t.isSign "(" = false := Token.isSign_of_isSign ht (by decide +kernel)
      have hclose : t.isSign ")" = false := Token.isSign_of_isSign ht (by decide +kernel)
      have hcomma : t.isSign "," = true := by rwa [ofString_eq]
      rw [List.append_assoc, hd.2, List.cons_append, definitionsFrom, hopen, hclose, hcomma, hall]
      exact congrArg (· :: ds) (List.append_nil d)

/-! ### Statements -/

/-- The definitions in a statement whose name and list are read as tokens of their own. -/
theorem definitions_of_reads {name list : Text} {P : List (List Token) → Prop} (hname : IsName name)
    (hlist : Reads (fun ts => ∃ ds, P ds ∧ ∀ rest, definitionsFrom 0 (ts ++ rest) = ds) list)
    (hbreaks : ∀ rest, Breaks rest → Breaks ('(' :: list ++ rest)) :
    Broken (tokens (Statement.createIfAbsent name list)) ∨ P (definitions (Statement.createIfAbsent name list)) := by
  have hreads : Reads (fun ts => ∃ t u ts', ts = t :: u :: ts' ∧ Names name t ∧ u.isSign ['('] = true ∧
      ∃ ds, P ds ∧ ∀ rest, definitionsFrom 0 (ts' ++ rest) = ds) (name ++ '(' :: list) :=
    (reads_name hname.ne_nil (isBare_of_isName hname)).append
      (hlist.sign (c := '(') (R := fun ts => ∃ u ts', ts = u :: ts' ∧ u.isSign ['('] = true ∧
        ∃ ds, P ds ∧ ∀ rest, definitionsFrom 0 (ts' ++ rest) = ds) (by simp) fun u ts hu hts => ⟨u, ts, rfl, hu, hts⟩)
      hbreaks fun ts ts' hts ⟨u, ts'', heq, hu, hds⟩ => by
        obtain ⟨t, ts, ht, hnil, rfl⟩ := List.forall₂_cons_left_iff.mp hts
        cases hnil
        exact ⟨t, u, ts'', congrArg (t :: ·) heq, ht, hu, hds⟩
  rcases hreads 27 [] nofun with hbroken | ⟨ts, m, ⟨t, u, ts', rfl, ht, hu, ds, hds, hall⟩, -, hrun⟩
  · rw [List.append_nil] at hbroken
    exact .inl (tokens_createIfAbsent hname list ▸ hbroken.append fun t ht => isSign_openingWords ht _)
  · rw [List.append_nil, tokensFrom_nil, List.append_nil] at hrun
    have hdefinitions := hall []
    rw [List.append_nil, ← definitions_createIfAbsent hname hrun (ht.isSign _) (by rwa [ofString_eq])] at hdefinitions
    exact .inr (hdefinitions ▸ hds)

end Sql

/-! ### Blocks -/

namespace TableBlock
open Sql
variable {b : TableBlock} {st : Statement}

/-- What is asked of the columns of a block: no default is emitted as it is written, and the sizes of types hold digits,
    commas and spaces only. -/
structure Plain (b : TableBlock) : Prop where
  default : ∀ c ∈ b.columns, c.verbatimDefault? = none
  size : ∀ c ∈ b.columns, ∀ size ∈ c.size?, size.all isSizeChar = true

theorem plain_iff :
    b.Plain ↔ ∀ c ∈ b.columns, c.verbatimDefault? = none ∧ ∀ size ∈ c.size?, size.all isSizeChar = true :=
  ⟨fun h c hc => ⟨h.default c hc, h.size c hc⟩, fun h => ⟨fun c hc => (h c hc).1, fun c hc => (h c hc).2⟩⟩

instance (b : TableBlock) : Decidable b.Plain := decidable_of_iff' _ plain_iff

theorem columns_ne_nil (h : b.statement? = some st) : b.columns ≠ [] := fun hnil => by
  have hreferences : b.references = [] := by rw [references_eq_flatMap, hnil, List.flatMap_nil]
  rw [statement?, hnil, hreferences] at h
  cases h

theorem Plain.solid_columns (h : b.Plain) :
    List.Forall₂ (fun P clause => Solid (fun d => P d ∧ Leads 0 d 0) clause) (b.columns.map fun c => Defines c.name)
      (b.columns.map Column.clause) := by
  refine List.forall₂_map_left_iff.mpr (List.forall₂_map_right_iff.mpr (List.forall₂_same.mpr fun c hc => ?_))
  have hsolid := Column.solid_clause hc (h.default c hc) fun size hsize =>
    List.all_eq_true.mp (h.size c hc size hsize)
  exact hsolid.imp fun d hd => ⟨hd, hd.leads⟩

theorem solid_references (b : TableBlock) :
    List.Forall₂ (fun P clause => Solid (fun d => P d ∧ Leads 0 d 0) clause)
      (b.references.map fun x d => ∃ k, Declares x k d) (b.references.map Reference.clause) := by
  refine List.forall₂_map_left_iff.mpr (List.forall₂_map_right_iff.mpr (List.forall₂_same.mpr fun x hx => ?_))
  obtain ⟨hlocal, htable, hcolumn⟩ := reference_of_mem hx
  exact (solid_clause hlocal htable hcolumn).imp fun d ⟨k, hk⟩ => ⟨⟨k, hk⟩, hk.leads⟩

theorem exists_mem_of_forall₂ {α β : Type} {R : α → β → Prop} {l : List α} {m : List β} (h : List.Forall₂ R l m) :
    ∀ a ∈ l, ∃ b ∈ m, R a b := by
  induction h with
  | nil => exact List.forall_mem_nil _
  | @cons a b l m hab _ ih =>
    refine List.forall_mem_cons.mpr ⟨⟨b, List.mem_cons_self, hab⟩, fun a' ha' => ?_⟩
    obtain ⟨b', hb', hr⟩ := ih a' ha'
    exact ⟨b', List.mem_cons_of_mem b hb', hr⟩

/-- The clauses of references are those of as many keys, on their columns. -/
theorem exists_keys {references : List Reference} {clauses : List (List Token)}
    (h : List.Forall₂ (fun x d => ∃ k, Declares x k d) references clauses) :
    ∃ keys, List.Forall₂ KeyClause.Spells keys clauses ∧
      keys.map KeyClause.foreignKey = references.map Reference.foreignKey ∧
      ∀ k ∈ keys, ∃ x ∈ references, Names x.localColumn k.column := by
  induction h with
  | nil => exact ⟨[], .nil, rfl, List.forall_mem_nil _⟩
  | @cons x d references clauses hx _ ih =>
    obtain ⟨k, hk⟩ := hx
    obtain ⟨keys, hspells, hkeys, hcolumns⟩ := ih
    refine ⟨k :: keys, .cons hk.spells hspells, ?_, List.forall_mem_cons.mpr
      ⟨⟨x, List.mem_cons_self, hk.column⟩, fun k' hk' => ?_⟩⟩
    · rw [List.map_cons, List.map_cons, hk.foreignKey, hkeys]
    · obtain ⟨x', hx', hnames⟩ := hcolumns k' hk'
      exact ⟨x', List.mem_cons_of_mem x hx', hnames⟩

/-- The definitions in the statement of a block declare the keys of its references. -/
theorem declareKeys_statement (hname : IsName b.name) (hst : b.statement? = some st) (hb : b.Plain) :
    Broken (tokens st.sql) ∨
      ∃ keys, DeclareKeys (definitions st.sql) keys ∧
        keys.map KeyClause.foreignKey = b.references.map Reference.foreignKey := by
  have hne : b.clauses ≠ [] := fun hnil => columns_ne_nil hst (List.map_eq_nil_iff.mp (List.append_eq_nil_iff.mp hnil).1)
  rw [sql_eq hst]
  refine (definitions_of_reads hname (reads_list hne (List.rel_append hb.solid_columns b.solid_references))
    fun _ _ => breaks_cons.mpr (by decide)).imp_right fun h => ?_
  obtain ⟨columns, clauses, heq, hcolumns, hclauses⟩ :
      ∃ columns clauses, definitions (Statement.createIfAbsent b.name (Text.join ", " b.clauses ++ [')'])) =
        columns ++ clauses ∧ List.Forall₂ (fun c d => Defines c.name d) b.columns columns ∧
        List.Forall₂ (fun x d => ∃ k, Declares x k d) b.references clauses :=
    ⟨_, _, (List.take_append_drop _ _).symm,
      (List.forall₂_map_left_iff.mp (List.forall₂_take_append _ _ _ h.flip).flip),
      (List.forall₂_map_left_iff.mp (List.forall₂_drop_append _ _ _ h.flip).flip)⟩
  obtain ⟨keys, hspells, hkeys, hnamed⟩ := exists_keys hclauses
  refine ⟨keys, ⟨columns, clauses, heq, fun d hd => ?_, hspells, fun k hk => ?_⟩, hkeys⟩
  · obtain ⟨c, -, hdefines⟩ := exists_mem_of_forall₂ hcolumns.flip d hd
    exact hdefines.noTarget
  · obtain ⟨x, hx, hnames⟩ := hnamed k hk
    obtain ⟨c, hc, hlocal, -⟩ := exists_column_of_mem hx
    obtain ⟨d, hd, hdefines⟩ := exists_mem_of_forall₂ hcolumns c hc
    obtain ⟨t, ht, hfirst⟩ := hdefines.first
    exact ⟨d, hd, (congrArg _ ht).trans (congrArg some (hfirst.name?_eq (hlocal ▸ hnames)))⟩

end TableBlock
end Schemata
