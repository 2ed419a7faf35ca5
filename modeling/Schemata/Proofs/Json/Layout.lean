import Mathlib.Data.List.Forall2
import Mathlib.Data.List.DropRight
import Schemata.Json.Basic
import Schemata.Output.Json
import Schemata.Proofs.Text.Basic

/-! Values as tokens. A value is written by its tokens in their order, with any white space between them. Without white
    space this is the shortest text; with line feeds and blanks it is the one over several lines. -/

namespace Schemata

namespace Json

/-- The text starts with the tokens, each behind white space, and goes on with the rest. -/
inductive Laid : List Text → Text → Text → Prop
  | nil (rest : Text) : Laid [] rest rest
  | cons {gap token text rest : Text} {tokens : List Text} (space : ∀ c ∈ gap, isSpace c = true)
    (behind : Laid tokens text rest) : Laid (token :: tokens) (gap ++ token ++ text) rest

namespace Laid
variable {token text middle rest gap : Text} {tokens later : List Text}

theorem single (token rest : Text) : Laid [token] (token ++ rest) rest := cons (List.forall_mem_nil _) (.nil rest)

theorem append (h : Laid tokens text middle) (h' : Laid later middle rest) : Laid (tokens ++ later) text rest := by
  induction h with
  | nil => exact h'
  | cons space _ ih => exact .cons space (ih h')

theorem split (h : Laid (tokens ++ later) text rest) : ∃ middle, Laid tokens text middle ∧ Laid later middle rest := by
  induction tokens generalizing text with
  | nil => exact ⟨text, .nil text, h⟩
  | cons token tokens ih =>
    cases h with
    | cons space behind =>
      obtain ⟨middle, hfirst, hlater⟩ := ih behind
      exact ⟨middle, .cons space hfirst, hlater⟩

/-- Further white space in front. -/
theorem behind_space (space : ∀ c ∈ gap, isSpace c = true) (h : Laid tokens text rest) (hne : tokens ≠ []) :
    Laid tokens (gap ++ text) rest := by
  cases h with
  | nil => exact absurd rfl hne
  | @cons gap' token text rest tokens space' behind =>
    rw [List.append_assoc, ← List.append_assoc, ← List.append_assoc]
    exact .cons (List.forall_mem_append.mpr ⟨space, space'⟩) behind

/-- Tokens with nothing between them. -/
theorem flatten (tokens : List Text) (rest : Text) : Laid tokens (tokens.flatten ++ rest) rest := by
  induction tokens with
  | nil => exact .nil rest
  | cons token tokens ih =>
    rw [List.flatten_cons, List.append_assoc]
    exact cons (List.forall_mem_nil _) ih

theorem length_le (h : Laid tokens text rest) : rest.length ≤ text.length := by
  induction h with
  | nil => exact Nat.le_refl _
  | cons _ _ ih =>
    rw [List.length_append]
    exact ih.trans (Nat.le_add_left _ _)

theorem length_lt {c : Char} (h : Laid ((c :: token) :: tokens) text rest) : rest.length < text.length := by
  cases h with
  | @cons gap _ text _ _ _ behind =>
    have hle := behind.length_le
    simp only [List.length_append, List.length_cons]
    omega

/-- The token behind the white space in front. -/
theorem skipSpace_eq {c : Char} (h : Laid ((c :: token) :: tokens) text rest) (hc : isSpace c = false) :
    ∃ behind, skipSpace text = c :: (token ++ behind) ∧ Laid tokens behind rest := by
  cases h with
  | cons space behind =>
    refine ⟨_, ?_, behind⟩
    rw [skipSpace, List.append_assoc, List.dropWhile_append_of_pos space, List.cons_append,
      List.dropWhile_cons_of_neg (by simp [hc])]

theorem skipSpace_single {c : Char} (h : Laid [c :: token] text rest) (hc : isSpace c = false) :
    skipSpace text = c :: (token ++ rest) := by
  obtain ⟨behind, htext, hlaid⟩ := h.skipSpace_eq hc
  cases hlaid
  exact htext

end Laid

theorem skipSpace_skipSpace (text : Text) : skipSpace (skipSpace text) = skipSpace text :=
  List.dropWhile_idempotent _ _

def comma : Text := [',']

def colon : Text := [':']

/-- The tokens of parts, each behind a comma. -/
def continued (parts : List (List Text)) : List Text := parts.flatMap (comma :: ·)

theorem continued_cons (part : List Text) (parts : List (List Text)) :
    continued (part :: parts) = (comma :: part) ++ continued parts := List.flatMap_cons

/-- The tokens of parts with commas between them. -/
def separated : List (List Text) → List Text
  | [] => []
  | part :: rest => part ++ continued rest

end Json

namespace Value
open Json

mutual

/-- The tokens that write the value. -/
def tokens : Value → List Text
  | null => ["null"]
  | bool b => [if b then "true" else "false"]
  | number n => [decimal n]
  | text s => [jsonString s]
  | list items => ['['] :: (separated (itemTokens items) ++ [[']']])
  | object members => ['\x7b'] :: (separated (memberTokens members) ++ [['\x7d']])

def itemTokens : List Value → List (List Text)
  | [] => []
  | v :: rest => tokens v :: itemTokens rest

def memberTokens : List (Text × Value) → List (List Text)
  | [] => []
  | (key, v) :: rest => (jsonString key :: colon :: tokens v) :: memberTokens rest

end

theorem tokens_ne_nil (v : Value) : v.tokens ≠ [] := by
  cases v <;> exact List.cons_ne_nil _ _

/-- The text writes the value: its tokens, with white space before, between and behind them. -/
def WrittenAs (v : Value) (text : Text) : Prop := ∃ space, Laid v.tokens text space ∧ ∀ c ∈ space, isSpace c = true

/-- A value may be written without white space. -/
theorem writtenAs_flatten (v : Value) : v.WrittenAs v.tokens.flatten :=
  ⟨[], by simpa using Laid.flatten v.tokens [], List.forall_mem_nil _⟩

/-! ### Writing over several lines -/

/-- The text is one way to write tokens, with no white space in front. -/
def Prints (tokens : List Text) (text : Text) : Prop := tokens ≠ [] ∧ ∀ rest, Laid tokens (text ++ rest) rest

theorem isSpace_indent {depth : Nat} {c : Char} (h : c ∈ indent depth) : isSpace c = true := by
  rw [List.eq_of_mem_replicate h]
  rfl

/-- Parts on lines of their own, behind the first of them. -/
theorem laid_lines {parts : List (List Text)} {texts : List Text} (depth : Nat)
    (h : List.Forall₂ Prints parts texts) (rest : Text) :
    Laid (continued parts) ((texts.map (indent depth ++ ·)).flatMap ((",\n" : Text) ++ ·) ++ rest) rest := by
  induction h with
  | nil => exact .nil rest
  | @cons part text parts texts hpart _ ih =>
    have hline : ∀ c ∈ '\n' :: indent depth, isSpace c = true :=
      List.forall_mem_cons.mpr ⟨rfl, fun c hc => isSpace_indent hc⟩
    have hbehind := ((hpart.2 _).behind_space hline hpart.1).append ih
    have hcomma := (Laid.single comma _).append hbehind
    simpa [continued, comma, Text.ofString_eq] using hcomma

theorem laid_block (opening closing : Text) {parts : List (List Text)} {texts : List Text} (depth : Nat)
    (h : List.Forall₂ Prints parts texts) (rest : Text) :
    Laid (opening :: (separated parts ++ [closing])) (block depth opening closing texts ++ rest) rest := by
  cases h with
  | nil =>
    have hends := (Laid.single opening _).append (Laid.single closing rest)
    simpa [block, separated] using hends
  | @cons part text parts texts hpart hparts =>
    have hline : ∀ depth, ∀ c ∈ '\n' :: indent depth, isSpace c = true := fun depth =>
      List.forall_mem_cons.mpr ⟨rfl, fun c hc => isSpace_indent hc⟩
    have hclosing := (Laid.single closing rest).behind_space (hline depth) (List.cons_ne_nil _ _)
    have hlines := (laid_lines (depth + 1) hparts _).append hclosing
    have hfirst := ((hpart.2 _).behind_space (hline (depth + 1)) hpart.1).append hlines
    have hblock := (Laid.single opening _).append hfirst
    simpa [block, separated, Text.join_cons, Text.ofString_eq] using hblock

mutual

theorem prints_pretty (depth : Nat) : ∀ v : Value, Prints v.tokens (v.pretty depth)
  | null => ⟨List.cons_ne_nil _ _, fun rest => .single _ rest⟩
  | bool _ => ⟨List.cons_ne_nil _ _, fun rest => .single _ rest⟩
  | number _ => ⟨List.cons_ne_nil _ _, fun rest => .single _ rest⟩
  | text _ => ⟨List.cons_ne_nil _ _, fun rest => .single _ rest⟩
  | list items => by
    refine ⟨List.cons_ne_nil _ _, fun rest => ?_⟩
    have hblock := laid_block ['['] [']'] depth (prints_prettyItems (depth + 1) items) rest
    simpa [tokens, pretty, Text.ofString_eq] using hblock
  | object members => by
    refine ⟨List.cons_ne_nil _ _, fun rest => ?_⟩
    have hblock := laid_block ['\x7b'] ['\x7d'] depth (prints_prettyMembers (depth + 1) members) rest
    simpa [tokens, pretty, Text.ofString_eq] using hblock

theorem prints_prettyItems (depth : Nat) :
    ∀ items : List Value, List.Forall₂ Prints (itemTokens items) (prettyItems depth items)
  | [] => .nil
  | v :: rest => .cons (prints_pretty depth v) (prints_prettyItems depth rest)

theorem prints_prettyMembers (depth : Nat) :
    ∀ members : List (Text × Value), List.Forall₂ Prints (memberTokens members) (prettyMembers depth members)
  | [] => .nil
  | (key, v) :: rest => by
    refine .cons ⟨List.cons_ne_nil _ _, fun tail => ?_⟩ (prints_prettyMembers depth rest)
    have hblank : ∀ c ∈ [' '], isSpace c = true := List.forall_mem_singleton.mpr rfl
    have hvalue := ((prints_pretty depth v).2 tail).behind_space hblank v.tokens_ne_nil
    have hmember := (Laid.single (jsonString key) _).append ((Laid.single colon _).append hvalue)
    simpa [colon, Text.ofString_eq] using hmember

end

/-- A value may be written over several lines. -/
theorem writtenAs_pretty (v : Value) (depth : Nat) : v.WrittenAs (v.pretty depth) :=
  ⟨[], by simpa using (prints_pretty depth v).2 [], List.forall_mem_nil _⟩

end Value
end Schemata
