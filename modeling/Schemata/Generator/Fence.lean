import Schemata.Text.Pattern

/-! Fenced code in generated text: three backticks, a language tag, blanks and a line end, then the fenced text up to
    the next three backticks. -/

namespace Schemata

/-- A fence as written: its tag, the blanks behind the tag, whether its line ends in a carriage return, and the text
    inside. -/
structure FenceShape where
  tag : Text
  blanks : Text
  returns : Bool
  body : Text
  deriving DecidableEq, Repr

def isTagChar (c : Char) : Bool := c.isAlphanum || c == '_' || c == '-'

def isTab (c : Char) : Bool := c == ' ' || c == '\t'

def ticks : Text := "```"

namespace FenceShape

def lineEnd (returns : Bool) : Text := if returns then ['\r', '\n'] else ['\n']

def render (f : FenceShape) : Text := ticks ++ f.tag ++ f.blanks ++ lineEnd f.returns ++ f.body ++ ticks

/-- Takes a line end off the front, and tells whether it has a carriage return. -/
def readLineEnd? : Text → Option (Bool × Text)
  | '\n' :: s => some (false, s)
  | '\r' :: '\n' :: s => some (true, s)
  | _ => none

/-- Reads a fence at the front of a text. -/
def read? (s : Text) : Option (FenceShape × Text) := do
  let fromTag ← Text.dropPrefix? ticks s
  let fromBlanks := fromTag.dropWhile isTagChar
  let (returns, inside) ← readLineEnd? (fromBlanks.dropWhile isTab)
  let (body, rest) ← Text.cutAt? ticks inside
  some (⟨fromTag.takeWhile isTagChar, fromBlanks.takeWhile isTab, returns, body⟩, rest)

theorem append_readLineEnd? {s r : Text} {returns : Bool} (h : readLineEnd? s = some (returns, r)) :
    lineEnd returns ++ r = s := by
  unfold readLineEnd? at h
  split at h <;> cases h <;> rfl

theorem render_append_of_read? {s r : Text} {f : FenceShape} (h : read? s = some (f, r)) : f.render ++ r = s := by
  simp only [read?, Option.bind_eq_bind, Option.bind_eq_some_iff] at h
  obtain ⟨k, hk, ⟨returns, inside⟩, hl, ⟨body, rest⟩, hc, h⟩ := h
  obtain ⟨rfl, rfl⟩ := Prod.mk.inj (Option.some.inj h)
  rw [← Text.append_dropPrefix? hk]
  simp only [render, List.append_assoc]
  rw [Text.append_cutAt? hc, append_readLineEnd? hl]
  simp only [List.takeWhile_append_dropWhile]

/-- Fences as a shape to look for. -/
def pattern : Pattern FenceShape where
  read? _ := read?
  render := render
  render_append := render_append_of_read?
  render_ne_nil _ := by simp [render, lineEnd, ticks, Text.ofString_eq]

end FenceShape

/-- The fenced texts, trimmed, without blank ones, and with an empty line between them. Text without a fence is
    trimmed. -/
def stripFences (s : Text) : Text :=
  let found := FenceShape.pattern.scan false s
  if found.hits.isEmpty then Text.trim s
  else Text.join "\n\n" ((found.hits.map fun (_, f) => Text.trim f.body).filter fun t => !t.isEmpty)

end Schemata
