import Schemata.Dialect.Column
import Schemata.Dialect.Outline

/-! The body of a table block. Each line, up to its comment, holds columns `name type(size) [constraints]`, several
    if need be; a column's `ref:` tokens are its references. What fits nowhere is skipped. All findings of a body
    form one list in the order of the text. -/

namespace Schemata

/-- A column with its layout: the blanks between name and type, the size in parentheses behind the type word, and
    the text in brackets with the blanks before it. -/
structure ColumnShape where
  name : Text
  gap : Text
  typeWord : Text
  size : Option Text
  list : Option (Text × Text)
  deriving DecidableEq, Repr

namespace ColumnShape

def renderSize (size : Text) : Text := "(" ++ size ++ ")"

def renderList (list : Text × Text) : Text := list.1 ++ "[" ++ list.2 ++ "]"

/-- The type with its size. -/
def declaredType (c : ColumnShape) : Text := c.typeWord ++ c.size.elim [] renderSize

def render (c : ColumnShape) : Text := c.name ++ c.gap ++ c.declaredType ++ c.list.elim [] renderList

/-- Reads a size that starts here, if it is closed. -/
def readSize (s : Text) : Option Text × Text :=
  match (Text.dropPrefix? "(" s).bind (Text.cut? ')') with
  | some (size, rest) => (some size, rest)
  | none => (none, s)

/-- Reads a constraint list that starts here or behind blanks, if it is closed. -/
def readList (s : Text) : Option (Text × Text) × Text :=
  match (Text.dropPrefix? "[" (s.dropWhile isBlank)).bind (Text.cut? ']') with
  | some (list, rest) => (some (s.takeWhile isBlank, list), rest)
  | none => (none, s)

/-- Reads a column at the front of a text. -/
def read? (s : Text) : Option (ColumnShape × Text) :=
  let name := s.takeWhile isWord
  let behindName := s.dropWhile isWord
  let gap := behindName.takeWhile isBlank
  let fromType := behindName.dropWhile isBlank
  let typeWord := fromType.takeWhile isWord
  let (size, behindType) := readSize (fromType.dropWhile isWord)
  let (list, rest) := readList behindType
  if name.isEmpty || gap.isEmpty || typeWord.isEmpty then none
  else some (⟨name, gap, typeWord, size, list⟩, rest)

theorem readSize_append (s : Text) :
    (readSize s).1.elim [] renderSize ++ (readSize s).2 = s := by
  unfold readSize
  split
  · rename_i size rest h
    obtain ⟨t, ht, hc⟩ := Option.bind_eq_some_iff.mp h
    simp only [Option.elim_some, renderSize, List.append_assoc]
    rw [show (")" : Text) ++ rest = ')' :: rest by simp [Text.ofString_eq], Text.append_cut? hc,
      Text.append_dropPrefix? ht]
  · rfl

theorem readList_append (s : Text) :
    (readList s).1.elim [] renderList ++ (readList s).2 = s := by
  unfold readList
  split
  · rename_i list rest h
    obtain ⟨t, ht, hc⟩ := Option.bind_eq_some_iff.mp h
    simp only [Option.elim_some, renderList, List.append_assoc]
    rw [show ("]" : Text) ++ rest = ']' :: rest by simp [Text.ofString_eq], Text.append_cut? hc,
      Text.append_dropPrefix? ht, List.takeWhile_append_dropWhile]
  · rfl

theorem render_append_of_read? {s r : Text} {c : ColumnShape} (h : read? s = some (c, r)) : c.render ++ r = s := by
  simp only [read?, Option.ite_none_left_eq_some] at h
  obtain ⟨-, h⟩ := h
  obtain ⟨rfl, rfl⟩ := Prod.mk.inj (Option.some.inj h)
  simp only [render, declaredType, List.append_assoc]
  rw [readList_append, readSize_append]
  simp only [List.takeWhile_append_dropWhile]

theorem render_ne_nil_of_read? {s r : Text} {c : ColumnShape} (h : read? s = some (c, r)) : c.render ≠ [] := by
  simp only [read?, Option.ite_none_left_eq_some, Bool.or_eq_true, not_or, List.isEmpty_iff] at h
  obtain ⟨⟨⟨hn, -⟩, -⟩, h⟩ := h
  obtain ⟨rfl, rfl⟩ := Prod.mk.inj (Option.some.inj h)
  simp only [render, List.append_assoc]
  exact List.append_ne_nil_of_left_ne_nil hn _

/-- Columns as a shape to look for. -/
def pattern : Pattern ColumnShape where
  read? _ := read?
  render := render
  render_append := render_append_of_read?
  render_ne_nil := render_ne_nil_of_read?

end ColumnShape

/-- One thing found in a body. -/
inductive Finding
  | column (column : Column)
  | reference (reference : Reference)
  | skip (skip : Skip)
  deriving DecidableEq, Repr

/-- Whether the text behind `c` stands inside brackets: the last bracket decides. -/
def bracketsAfter (inBrackets : Bool) (c : Char) : Bool :=
  if c == '[' then true else if c == ']' then false else inBrackets

/-- The part of a line before its `//` comment. A comment does not start inside brackets. -/
def stripComment (inBrackets : Bool) : Text → Text
  | [] => []
  | c :: s =>
    if !inBrackets && c == '/' && s.head? == some '/' then []
    else c :: stripComment (bracketsAfter inBrackets c) s

namespace Body

/-- A column as found on the given line. -/
def column (line : Nat) (shape : ColumnShape) : Column :=
  ⟨shape.name, shape.declaredType, shape.list.map fun (_, list) => Text.trim list, line⟩

/-- A `ref:` token of a column of the table. -/
def referenceFinding (table : Text) (c : Column) (token : Text) : Finding :=
  match Reference.resolve? c.name token with
  | some r => .reference r
  | none => .skip ⟨.malformedReference, c.line, token, some table⟩

/-- What is left between columns, unless it is blank. -/
def leftover (table : Text) (line : Nat) (text : Text) : List Finding :=
  if Text.allBlank text then [] else [.skip ⟨.malformedColumn, line, Text.trim text, some table⟩]

/-- A column and its references. -/
def columnFindings (table : Text) (c : Column) : List Finding :=
  .column c :: c.referenceTokens.map (referenceFinding table c)

/-- What a line up to its comment holds. -/
def lineFindings (table : Text) (line : Nat) (text : Text) : List Finding :=
  let found := ColumnShape.pattern.scan false text
  (found.hits.flatMap fun (gap, shape) => leftover table line gap ++ columnFindings table (column line shape)) ++
    leftover table line found.tail

/-- What the lines from the given number on hold. -/
def linesFindings (table : Text) : Nat → List Text → List Finding
  | _, [] => []
  | n, line :: rest => lineFindings table n (stripComment false line) ++ linesFindings table (n + 1) rest

end Body

namespace TableBlock

/-- Everything found in the body, in order. -/
def findings (b : TableBlock) : List Finding := Body.linesFindings b.name b.bodyLine (Text.lines b.body)

def columns (b : TableBlock) : List Column :=
  b.findings.filterMap fun
    | .column c => some c
    | _ => none

def references (b : TableBlock) : List Reference :=
  b.findings.filterMap fun
    | .reference r => some r
    | _ => none

/-- What the body's lines leave out. -/
def skipped (b : TableBlock) : List Skip :=
  b.findings.filterMap fun
    | .skip s => some s
    | _ => none

end TableBlock
end Schemata
