import Schemata.Text.Pattern
import Schemata.Dialect.Skip

/-! The table blocks of a schema text, and what stands outside them. A block is the word `Table`, a name, and a
    body in braces that ends at the first closing brace. Outside the blocks only blank lines and `//` lines pass
    without notice. -/

namespace Schemata

/-- A table block with its layout: the blanks behind the keyword, the name, the blanks behind the name, and the
    text between the braces. -/
structure BlockShape where
  lead : Text
  name : Text
  gap : Text
  body : Text
  deriving DecidableEq, Repr

namespace BlockShape

/-- The block up to its opening brace, which it includes. -/
def header (b : BlockShape) : Text := "Table" ++ b.lead ++ b.name ++ b.gap ++ "\x7b"

def render (b : BlockShape) : Text := b.header ++ b.body ++ "\x7d"

/-- Reads a block at the front of a text. The keyword must not continue a word. -/
def read? (afterWord : Bool) (s : Text) : Option (BlockShape × Text) := do
  let behindKeyword ← Text.dropPrefix? "Table" s
  let fromName := behindKeyword.dropWhile isBlank
  let behindName := fromName.dropWhile isWord
  let inside ← Text.dropPrefix? "\x7b" (behindName.dropWhile isBlank)
  let (body, rest) ← Text.cut? '}' inside
  let lead := behindKeyword.takeWhile isBlank
  let name := fromName.takeWhile isWord
  if afterWord || lead.isEmpty || name.isEmpty then none
  else some (⟨lead, name, behindName.takeWhile isBlank, body⟩, rest)

theorem render_append_of_read? {afterWord : Bool} {s r : Text} {b : BlockShape}
    (h : read? afterWord s = some (b, r)) : b.render ++ r = s := by
  simp only [read?, Option.bind_eq_bind, Option.bind_eq_some_iff, Option.ite_none_left_eq_some] at h
  obtain ⟨k, hk, i, hi, ⟨body, rest⟩, hc, -, h⟩ := h
  obtain ⟨rfl, rfl⟩ := Prod.mk.inj (Option.some.inj h)
  rw [← Text.append_dropPrefix? hk]
  simp only [render, header, List.append_assoc]
  rw [show ("\x7d" : Text) ++ rest = '}' :: rest by simp [Text.ofString_eq], Text.append_cut? hc,
    Text.append_dropPrefix? hi]
  simp only [List.takeWhile_append_dropWhile]

/-- Table blocks as a shape to look for. -/
def pattern : Pattern BlockShape where
  read? := read?
  render := render
  render_append := render_append_of_read?
  render_ne_nil _ := by simp [render, Text.ofString_eq]

end BlockShape

/-- A table block: its name, the text between its braces, and the 1-based lines of its keyword and of the start
    of its body. -/
structure TableBlock where
  name : Text
  body : Text
  line : Nat
  bodyLine : Nat
  deriving DecidableEq, Repr

/-- A line that may stand outside the blocks. -/
def passesOutside (line : Text) : Bool :=
  let content := Text.trim line
  content.isEmpty || List.isPrefixOf ("//" : Text) content

/-- What a gap that starts on the given line leaves unread: everything from its first line that is neither blank
    nor a `//` line. -/
def gapSkip? (line : Nat) (gap : Text) : Option Skip :=
  let parts := gap.splitOn '\n'
  let rest := parts.dropWhile passesOutside
  if rest.isEmpty then none
  else some {
    kind := .unrecognizedBlock
    line := line + (parts.takeWhile passesOutside).length
    text := Text.trim (Text.join "\n" rest)
    table := none }

/-- The table blocks of a schema text in order, and what is skipped outside them. -/
structure Outline where
  blocks : List TableBlock
  skipped : List Skip
  deriving DecidableEq, Repr

namespace Outline

/-- Gives the blocks found from the given line on their places. -/
def place (line : Nat) : List (Text × BlockShape) → Text → Outline
  | [], tail => ⟨[], (gapSkip? line tail).toList⟩
  | (gap, shape) :: hits, tail =>
    let start := line + Text.newlines gap
    let block := ⟨shape.name, shape.body, start, start + Text.newlines shape.header⟩
    let next := place (start + Text.newlines shape.render) hits tail
    ⟨block :: next.blocks, (gapSkip? line gap).toList ++ next.skipped⟩

def read (s : Text) : Outline :=
  let found := BlockShape.pattern.scan false s
  place 1 found.hits found.tail

end Outline
end Schemata
