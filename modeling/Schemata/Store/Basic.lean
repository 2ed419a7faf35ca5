import Schemata.Text.Basic

/-! Stores that statements are applied to: how a write can fail, what a store offers, and what it tells of its
    tables. -/

namespace Schemata

inductive StoreError
  /-- The store cannot be opened. -/
  | unopened (target message : Text)
  /-- The connection is lost or unusable. -/
  | connection (message : Text)
  /-- The store rejects a statement and stays usable. -/
  | statement (message : Text)
  | unavailable (backend : Text)
  deriving DecidableEq, Repr

namespace StoreError

def message : StoreError → Text
  | unopened target message => "Failed to open store '" ++ target ++ "': " ++ message
  | connection message => "Store connection failed: " ++ message
  | statement message => message
  | unavailable backend => "Backend '" ++ backend ++ "' is not available in this build"

/-- Only a rejected statement leaves the store usable. -/
def isFatal : StoreError → Bool
  | statement _ => false
  | _ => true

end StoreError

/-- A foreign key of a table as a store reports it. A key without a named remote column has the empty one. -/
structure ForeignKey where
  column : Text
  remoteTable : Text
  remoteColumn : Text
  deriving DecidableEq, Repr

/-- A store with contents of type `σ`. A write gives its outcome and the contents behind it. -/
structure Store (σ : Type) where
  backend : Text
  executeStatement : σ → Text → Except StoreError Unit × σ
  executeScript : σ → Text → Except StoreError Unit × σ

/-- A store that tells its tables, and the foreign keys of each. -/
structure SchemaStore (σ : Type) extends Store σ where
  tableNames : σ → Except StoreError (List Text)
  foreignKeys : σ → Text → Except StoreError (List ForeignKey)

/-- Whether a table of exactly this name is listed. -/
def SchemaStore.hasTable {σ : Type} (store : SchemaStore σ) (s : σ) (name : Text) : Except StoreError Bool :=
  (store.tableNames s).map (·.contains name)

end Schemata
