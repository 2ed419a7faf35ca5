import Schemata.Json.Scalar

/-! Readers of JSON lists, objects and values, and of records with named fields. What is wrong first is what is
    reported, so fields are read where they stand. -/

namespace Schemata.Json

/-! ### Lists and objects -/

/-- Goes to the next item of a list, or to the bracket that closes it, and tells which. -/
def nextItem (first : Bool) (s : Text) : Reading Bool :=
  match skipSpace s with
  | [] => .error .cutShort
  | ']' :: r => .ok (false, ']' :: r)
  | ',' :: r =>
    if first then .error .malformed
    else match skipSpace r with
      | [] => .error .cutShort
      | ']' :: _ => .error .malformed
      | item => .ok (true, item)
  | item => if first then .ok (true, item) else .error .malformed

/-- Closes a list that has no further item. -/
def endList (s : Text) : Except Fault Text :=
  match skipSpace s with
  | [] => .error .cutShort
  | ']' :: r => .ok r
  | _ => .error .malformed

/-- A key at the front. -/
def readKey (kept : Bool) (s : Text) : Reading Text :=
  match s with
  | [] => .error .cutShort
  | '"' :: r => readString kept r
  | _ => .error .malformed

/-- The next key of an object, or none where the object ends. -/
def nextKey (kept first : Bool) (s : Text) : Reading (Option Text) :=
  match skipSpace s with
  | '\x7d' :: r => .ok (none, r)
  | ',' :: r => if first then .error .malformed else (readKey kept (skipSpace r)).map fun (key, r) => (some key, r)
  | [] => .error .cutShort
  | s => if first then (readKey kept s).map fun (key, r) => (some key, r) else .error .malformed

/-- Goes over the colon behind a key. -/
def readColon (s : Text) : Except Fault Text :=
  match skipSpace s with
  | [] => .error .cutShort
  | ':' :: r => .ok (skipSpace r)
  | _ => .error .malformed

/-- The items of a list, of which so many at most are expected. -/
def readItems {α : Type} (read : Text → Reading α) : Nat → Bool → Text → Except Fault (List α × Text)
  | 0, _, _ => .error .cutShort
  | n + 1, first, s => do
    let (more, s) ← nextItem first s
    if more then
      let (item, s) ← read s
      let (items, s) ← readItems read n false s
      .ok (item :: items, s)
    else .ok ([], s.tail)

/-- The members of an object, of which so many at most are expected. A member is read from behind its key, given what
    the members before it left. -/
def readMembers {σ : Type} (kept : Bool) (read : σ → Text → Text → Reading σ) :
    Nat → Bool → σ → Text → Except Fault (σ × Text)
  | 0, _, _, _ => .error .cutShort
  | n + 1, first, state, s => do
    match ← nextKey kept first s with
    | (none, s) => .ok (state, s)
    | (some key, s) =>
      let (state, s) ← read state key s
      readMembers kept read n false state s

/-! ### Values -/

/-- A value that is kept or not. Its lists and objects may be so deep. -/
def readValue (kept : Bool) : Nat → Text → Reading Tree
  | 0, s =>
    match s with
    | '[' :: _ | '\x7b' :: _ => .error .malformed
    | s => readScalar kept s
  | room + 1, s =>
    match s with
    | '[' :: r => (readItems (readValue kept room) (r.length + 1) true r).map fun (items, r) => (.list items, r)
    | '\x7b' :: r =>
      let member (members : List (Text × Tree)) (key s : Text) : Except Fault (List (Text × Tree) × Text) := do
        let s ← readColon s
        let (v, s) ← readValue kept room s
        .ok (members ++ [(key, v)], s)
      (readMembers kept member (r.length + 1) true [] r).map fun (members, r) => (.object members, r)
    | s => readScalar kept s

/-- Goes over a value of any shape. -/
def skipValue (s : Text) : Except Fault Text := (readValue false s.length s).map Prod.snd

/-- What is wrong with a value where one of another type is expected. -/
def unexpected (s : Text) : Fault :=
  match s with
  | '[' :: _ | '\x7b' :: _ => .mistyped
  | s =>
    match readScalar true s with
    | .ok _ => .mistyped
    | .error e => e

/-! ### Typed values -/

def readText (s : Text) : Reading Text :=
  match skipSpace s with
  | '"' :: r => readString true r
  | s => .error (unexpected s)

def readTexts (s : Text) : Reading (List Text) :=
  match skipSpace s with
  | '[' :: r => readItems readText (r.length + 1) true r
  | s => .error (unexpected s)

/-- A value that may be null. -/
def readOptional {α : Type} (read : Text → Reading α) (s : Text) : Reading (Option α) :=
  match skipSpace s with
  | 'n' :: r => (readWord "ull" r).map fun r => (none, r)
  | s => (read s).map fun (a, r) => (some a, r)

/-- The fields of a record: their names, and readers that add them to what was read before. -/
abbrev Fields (σ : Type) := List (Text × (σ → Text → Reading σ))

namespace Fields
variable {σ : Type} (fields : Fields σ)

/-- Reads a member behind its key. A field may be there once; other members are passed over. -/
def readMember (state : List Text × σ) (key s : Text) : Except Fault ((List Text × σ) × Text) :=
  match fields.lookup key with
  | none => do
    let s ← skipValue (← readColon s)
    .ok (state, s)
  | some read =>
    if state.1.contains key then .error .mistyped
    else do
      let (value, s) ← read state.2 (← readColon s)
      .ok ((key :: state.1, value), s)

/-- Reads fields from the items of a list, in their order, as far as there are items. -/
def readInOrder : Fields σ → Bool → σ → Text → Except Fault (σ × Text)
  | [], _, value, s => (endList s).map fun s => (value, s)
  | (_, read) :: rest, first, value, s => do
    let (more, s) ← nextItem first s
    if more then
      let (value, s) ← read value s
      readInOrder rest false value s
    else .ok (value, s.tail)

/-- Reads a record, written as an object or as the list of its fields. -/
def read (start : σ) (s : Text) : Reading σ :=
  match skipSpace s with
  | '\x7b' :: r => (readMembers true fields.readMember (r.length + 1) true ([], start) r).map fun ((_, v), r) => (v, r)
  | '[' :: r => readInOrder fields true start r
  | s => .error (unexpected s)

end Fields

/-- A document is one value, with nothing but white space behind it. -/
def readDocument {α : Type} (read : Text → Reading α) (s : Text) : Except Fault α :=
  match read s with
  | .error e => .error e
  | .ok (value, r) => if (skipSpace r).isEmpty then .ok value else .error .malformed

end Schemata.Json
