import Mathlib.Data.List.Chain
import Schemata.Proofs.Ddl.Statements
import Schemata.Proofs.Sql.Lexing
import Schemata.Proofs.Sql.Moves
import Schemata.Store.Basic

/-! The definitions in the list of a statement that creates a table, token by token: those of columns, and clauses of
    the form `FOREIGN KEY (c) REFERENCES t(r)`. The list is cut at its commas, but not at those inside parentheses. -/

namespace Schemata.Sql

/-- What a token says as a name, whether it may be one or not. -/
def Token.label (t : Token) : Text :=
  match t.kind with
  | .quotedName | .string => t.content
  | _ => t.text

theorem Token.label_of_name? {t : Token} {name : Text} (h : t.name? = some name) : t.label = name := by
  rw [name?] at h
  rw [label]
  split at h
  · split at h <;> cases h
    simp [*]
  · cases h
    simp [*]
  · cases h
    simp [*]
  · cases h

/-! ### The list -/

variable {depth depth' depth'' : Nat} {t : Token} {ts ts' : List Token}

/-- The definitions from a place inside one on, up to the parenthesis that closes the list. At that place the given
    number of parentheses is open inside the list. -/
def definitionsFrom (depth : Nat) : List Token → List (List Token)
  | [] => [[]]
  | t :: ts =>
    if t.isSign "(" then (definitionsFrom (depth + 1) ts).modifyHead (t :: ·)
    else if t.isSign ")" then (if depth = 0 then [[]] else (definitionsFrom (depth - 1) ts).modifyHead (t :: ·))
    else if t.isSign "," && depth = 0 then [] :: definitionsFrom 0 ts
    else (definitionsFrom depth ts).modifyHead (t :: ·)

/-- The definitions in the list of a statement. -/
def definitions (sql : Text) : List (List Token) :=
  definitionsFrom 0 ((tokens sql).dropWhile fun t => !t.isSign "(").tail

/-- The tokens stand inside one definition, and lead from the one depth to the other. -/
def Leads (depth : Nat) (ts : List Token) (depth' : Nat) : Prop :=
  ∀ rest, definitionsFrom depth (ts ++ rest) = (definitionsFrom depth' rest).modifyHead (ts ++ ·)

theorem leads_nil (depth : Nat) : Leads depth [] depth := fun rest => by
  rw [List.nil_append]
  exact (congrFun List.modifyHead_id _).symm

theorem Leads.append (h : Leads depth ts depth') (h' : Leads depth' ts' depth'') : Leads depth (ts ++ ts') depth'' :=
  fun rest => by
    rw [List.append_assoc, h, h', List.modifyHead_modifyHead]
    exact congrArg (List.modifyHead · _) (funext fun d => (List.append_assoc ts ts' d).symm)

theorem Leads.cons (h : Leads depth [t] depth') (h' : Leads depth' ts depth'') : Leads depth (t :: ts) depth'' :=
  h.append h'

theorem leads_open (ht : t.isSign "(" = true) : Leads depth [t] (depth + 1) := fun rest => by
  rw [List.singleton_append, definitionsFrom, if_pos ht]
  rfl

theorem leads_close (ht : t.isSign ")" = true) : Leads (depth + 1) [t] depth := fun rest => by
  have hopen : t.isSign "(" = false := Token.isSign_of_isSign ht (by simp [Text.ofString_eq])
  rw [List.singleton_append, definitionsFrom, hopen, if_neg Bool.false_ne_true, if_pos ht, if_neg (Nat.succ_ne_zero _)]
  rfl

/-- A token that is no parenthesis, and no comma outside them. -/
theorem leads_other (hopen : t.isSign "(" = false) (hclose : t.isSign ")" = false)
    (hcomma : t.isSign "," = false ∨ depth ≠ 0) : Leads depth [t] depth := fun rest => by
  have hcut : (t.isSign "," && decide (depth = 0)) = false := by
    rcases hcomma with hcomma | hdepth
    · rw [hcomma, Bool.false_and]
    · rw [decide_eq_false hdepth, Bool.and_false]
  rw [List.singleton_append, definitionsFrom, hopen, hclose, hcut]
  rfl

/-! ### Statements that create a table if it is absent -/

/-- The words in front of the table's name. -/
def openingWords : List Token :=
  [⟨.word, "CREATE".toList, 0⟩, ⟨.word, "TABLE".toList, 7⟩, ⟨.word, "IF".toList, 13⟩, ⟨.word, "NOT".toList, 16⟩,
    ⟨.word, "EXISTS".toList, 20⟩]

theorem isSign_openingWords (ht : t ∈ openingWords) (sign : Text) : t.isSign sign = false :=
  Token.isSign_of_kind (by revert t; decide) sign

theorem tokens_createIfAbsent {name : Text} (hname : IsName name) (rest : Text) :
    tokens (Statement.createIfAbsent name rest) = openingWords ++ tokensFrom 27 (name ++ '(' :: rest) := by
  have htext : Statement.createIfAbsent name rest =
      "CREATE".toList ++ ' ' :: ("TABLE".toList ++ ' ' :: ("IF".toList ++ ' ' :: ("NOT".toList ++ ' ' ::
        ("EXISTS".toList ++ ' ' :: (name ++ '(' :: rest))))) := by
    rw [Statement.createIfAbsent, Text.ofString_eq, Text.ofString_eq, List.append_assoc, List.append_assoc]
    rfl
  have hspace : ∀ {w s : Text}, isPlain w = true → Text.Stops isSpace (w ++ s) := fun {w s} hw => by
    cases w with
    | nil => cases hw
    | cons c w => exact stops_isSpace_of_isBare (List.cons_ne_nil c w) (isPlain_cons.mp hw).1
  rw [htext, tokens_eq, tokensFrom_plain_space (by decide) (hspace (by decide)),
    tokensFrom_plain_space (by decide) (hspace (by decide)), tokensFrom_plain_space (by decide) (hspace (by decide)),
    tokensFrom_plain_space (by decide) (hspace (by decide)), tokensFrom_plain_space (by decide)
      (stops_isSpace_of_isBare hname.ne_nil (isBare_of_isName hname))]
  rfl

theorem definitions_createIfAbsent {name rest : Text} {u : Token} (hname : IsName name)
    (htokens : tokensFrom 27 (name ++ '(' :: rest) = t :: u :: ts) (ht : t.isSign "(" = false)
    (hu : u.isSign "(" = true) : definitions (Statement.createIfAbsent name rest) = definitionsFrom 0 ts := by
  have hskip : ∀ t' ∈ openingWords ++ [t], (!t'.isSign "(") = true :=
    List.forall_mem_append.mpr ⟨fun t' ht' => by rw [isSign_openingWords ht', Bool.not_false],
      List.forall_mem_singleton.mpr (by rw [ht, Bool.not_false])⟩
  rw [definitions, tokens_createIfAbsent hname, htokens, List.append_cons, List.dropWhile_append_of_pos hskip,
    List.dropWhile_cons_of_neg (by rw [hu]; decide), List.tail_cons]

/-! ### Foreign keys -/

/-- The names in a clause `FOREIGN KEY (c) REFERENCES t(r)`. -/
structure KeyClause where
  column : Token
  table : Token
  remote : Token

namespace KeyClause

def foreignKey (k : KeyClause) : ForeignKey := ⟨k.column.label, k.table.label, k.remote.label⟩

/-- What the tokens of the clause are, one by one. -/
def form (k : KeyClause) : List (Token → Prop) :=
  [(Token.isWord · "foreign" = true), (Token.isWord · "key" = true), (Token.isSign · "(" = true), (· = k.column),
    (Token.isSign · ")" = true), (Token.isWord · "references" = true), (· = k.table), (Token.isSign · "(" = true),
    (· = k.remote), (Token.isSign · ")" = true)]

/-- The tokens of a definition are those of the clause. -/
def Spells (k : KeyClause) (d : List Token) : Prop := List.Forall₂ (fun fits t => fits t) k.form d

end KeyClause

/-- A definition that refers to no other table: behind its first token, no name stands behind the word `REFERENCES`. -/
def HasNoTarget (d : List Token) : Prop :=
  d.tail.IsChain fun t u => t.isWord "references" = true → u.name? = none

/-- Definitions of columns that refer to no other table, and behind them the clauses of the given keys, each on one of
    the columns. -/
def DeclareKeys (definitions : List (List Token)) (keys : List KeyClause) : Prop :=
  ∃ columns clauses, definitions = columns ++ clauses ∧ (∀ d ∈ columns, HasNoTarget d) ∧
    List.Forall₂ KeyClause.Spells keys clauses ∧
    ∀ k ∈ keys, ∃ d ∈ columns, d.head?.map Token.name? = some k.column.name?

end Schemata.Sql
