import Schemata.Sql.CreateTable

/-! Statements in transactions. A statement makes a table, or begins or ends a transaction; no other is read. The
    statements of a text stand between its semicolons. -/

namespace Schemata.Sql

/-! ### The statements of a text -/

/-- A statement of a text: where it starts, and the tokens from there on. -/
structure Segment where
  text : Text
  base : Nat
  tokens : List Token
  deriving DecidableEq, Repr

namespace Segment

/-- The tokens behind the semicolon that ends the statement at the front, and where the text behind it starts. Before
    a statement has begun, semicolons are passed over. -/
def behind? (begun : Bool) : List Token → Option (Nat × List Token)
  | [] => none
  | t :: ts =>
    if t.isSign ";" then (if begun then some (t.start + t.text.length, ts) else behind? false ts) else behind? true ts

theorem length_of_behind? {begun : Bool} {ts rest : List Token} {stop : Nat}
    (h : behind? begun ts = some (stop, rest)) : rest.length < ts.length := by
  induction ts generalizing begun with
  | nil => cases h
  | cons t ts ih =>
    rw [behind?] at h
    split at h
    · split at h
      · cases h
        exact Nat.lt_succ_self _
      · exact Nat.lt_succ_of_lt (ih h)
    · exact Nat.lt_succ_of_lt (ih h)

/-- The statements from the given tokens on, without an empty one at the end. -/
def cut (text : Text) (base : Nat) (ts : List Token) : List Segment :=
  match _h : behind? false ts with
  | some (stop, rest) => ⟨text, base, ts⟩ :: cut text stop rest
  | none => if ts.all (·.isSign ";") then [] else [⟨text, base, ts⟩]
termination_by ts.length
decreasing_by exact length_of_behind? (by assumption)

def first (text : Text) : Segment := ⟨text, 0, Sql.tokens text⟩

def all (text : Text) : List Segment := cut text 0 (Sql.tokens text)

/-- The tokens of the statement itself, without the semicolons around it. -/
def body (p : Segment) : List Token := (p.tokens.dropWhile (·.isSign ";")).takeWhile fun t => !t.isSign ";"

end Segment

/-! ### Statements about transactions -/

inductive Control
  | begin
  | commit
  | rollback
  deriving DecidableEq, Repr

namespace Control

/-- What a statement with the given first token does. -/
def ofWord? (t : Token) : Option Control :=
  if t.isWord "begin" then some begin
  else if t.isWord "commit" || t.isWord "end" then some commit
  else if t.isWord "rollback" then some rollback
  else none

/-- The words that may tell how a transaction begins. -/
def modes : List Text := ["deferred", "immediate", "exclusive"]

/-- Why a token does not fit. -/
def misfit (t : Token) : SqlError := if t.kind == .bad then .unrecognized t else .near t

/-- The tokens behind the first word and a mode: nothing, or `TRANSACTION` with or without a name. -/
def checkEnd : List Token → Except SqlError Unit
  | [] => .ok ()
  | t :: ts =>
    if !t.isWord "transaction" then .error (misfit t)
    else match ts with
      | [] => .ok ()
      | name :: rest =>
        if name.name?.isNone then .error (misfit name)
        else match rest with
          | [] => .ok ()
          | other :: _ => .error (misfit other)

def check (c : Control) (ts : List Token) : Except SqlError Unit :=
  match c, ts with
  | begin, t :: rest => checkEnd (if modes.any t.isWord then rest else t :: rest)
  | _, _ => checkEnd ts

end Control

def Segment.control? (p : Segment) : Option Control := p.body.head?.bind Control.ofWord?

/-! ### Transactions -/

namespace Database

/-- Carries out what a statement describes. A table named `if` is stored as a text that cannot be read back. -/
def carryOut (db : Database) : Draft → Except SqlError Database
  | .fresh t _ _ => if Text.sameFolded t.name "if" then .error (.unreadableSchema t.name) else .ok (db.insert t)
  | .existing | .unnamed => .ok db

/-- Executes the first of the statements that the tokens make up. -/
def execute (db : Database) (ts : List Token) : Except SqlError Database :=
  match Reading.start.run db ts with
  | .error e => .error e
  | .ok ending => if ending.draft == .unnamed then .error .nothing else db.carryOut ending.draft

end Database

/-- What a connection sees inside a transaction, and what it goes back to; outside a transaction, nothing. -/
structure Transaction where
  database : Database
  base : Option Database
  deriving DecidableEq, Repr

namespace Transaction

def begin (t : Transaction) : Except SqlError Transaction :=
  match t.base with
  | none => .ok ⟨t.database, some t.database⟩
  | some _ => .error .openTransaction

def commit (t : Transaction) : Except SqlError Transaction :=
  match t.base with
  | none => .error (.noTransaction "commit")
  | some _ => .ok ⟨t.database, none⟩

def rollback (t : Transaction) : Except SqlError Transaction :=
  match t.base with
  | none => .error (.noTransaction "rollback")
  | some base => .ok ⟨base, none⟩

def control (t : Transaction) : Control → Except SqlError Transaction
  | .begin => t.begin
  | .commit => t.commit
  | .rollback => t.rollback

def run (t : Transaction) (p : Segment) : Except SqlError Transaction :=
  match p.control? with
  | some c => (c.check p.body.tail).bind fun _ => t.control c
  | none => (t.database.execute p.tokens).map fun db => { t with database := db }

/-- Executes a statement. One that fails has no effect. -/
def execute (t : Transaction) (p : Segment) : Except Sqlite.Error Unit × Transaction :=
  match t.run p with
  | .ok next => (.ok (), next)
  | .error e => (.error (e.report p.text p.base), t)

end Transaction
end Schemata.Sql
