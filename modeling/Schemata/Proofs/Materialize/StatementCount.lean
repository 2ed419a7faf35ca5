import Schemata.Materialize
import Schemata.Proofs.Materialize.Cuts

/-! The number of statements of a script is that of its pieces which are not blank. A count goes over a text without a
    semicolon outside quotes with one thing to remember, whether more than blanks has been seen. Inside quotes that is
    so, for a quote is no blank; hence what stands in a run need not be looked at. Behind a piece the count starts
    anew. -/

namespace Schemata
namespace Script

/-! ### One character -/

theorem isBlank_of_isQuote {c : Char} (h : isQuote c = true) : isBlank c = false := by
  rcases Bool.or_eq_true_iff.mp h with h | h <;> rw [beq_iff_eq.mp h] <;> decide

theorem countFrom_nil (quote : Option Char) (pending : Bool) :
    countFrom quote pending [] = if pending then 1 else 0 := rfl

theorem countFrom_semicolon (pending : Bool) (s : Text) :
    countFrom none pending (';' :: s) = (if pending then 1 else 0) + countStatements s := rfl

/-- Where a quote is open, more than blanks has been seen. -/
def Noted (quote : Option Char) (pending : Bool) : Prop := quote ≠ none → pending = true

namespace Noted
variable {quote : Option Char} {pending : Bool}

theorem outside (pending : Bool) : Noted none pending := absurd rfl

theorem next (h : Noted quote pending) (c : Char) : Noted (nextQuote quote c) (pending || !isBlank c) := by
  intro hopen
  cases quote with
  | some q => rw [h (Option.some_ne_none q), Bool.true_or]
  | none =>
    rw [nextQuote] at hopen
    split at hopen
    · rename_i hquote
      rw [isBlank_of_isQuote hquote, Bool.not_false, Bool.or_true]
    · exact absurd rfl hopen

/-- A character that ends no statement is noted unless it is blank. -/
theorem countFrom_cons (h : Noted quote pending) {c : Char} (hc : quote = none → c ≠ ';') (s : Text) :
    countFrom quote pending (c :: s) = countFrom (nextQuote quote c) (pending || !isBlank c) s := by
  cases quote with
  | some q =>
    rw [countFrom, h (Option.some_ne_none q), Bool.true_or]
    rfl
  | none =>
    have hsemicolon : ¬(c == ';') = true := by simpa using hc rfl
    rw [countFrom, ← isQuote, nextQuote, if_neg hsemicolon]
    split
    · rename_i hquote
      rw [isBlank_of_isQuote hquote, Bool.not_false, Bool.or_true]
    · rfl

/-! ### Pieces -/

/-- A count goes over a text without a semicolon outside quotes. -/
theorem countFrom_append (h : Noted quote pending) {s : Text}
    (huncut : ∀ a b, s = a ++ ';' :: b → openQuote quote a ≠ none) (rest : Text) :
    countFrom quote pending (s ++ rest) = countFrom (openQuote quote s) (pending || !Text.allBlank s) rest := by
  -- From character to character the open quote and what has been seen go on, and no character ends a statement.
  induction s generalizing quote pending with
  | nil => simp [openQuote, Text.allBlank]
  | cons c s ih =>
    have hc : quote = none → c ≠ ';' := by
      rintro hnone rfl
      exact huncut [] s rfl hnone
    have hnext : ∀ a b, s = a ++ ';' :: b → openQuote (nextQuote quote c) a ≠ none := fun a b hs =>
      huncut (c :: a) b (congrArg (c :: ·) hs)
    have hseen : (pending || !isBlank c || !Text.allBlank s) = (pending || !Text.allBlank (c :: s)) := by
      simp [Text.allBlank, Bool.or_assoc]
    rw [List.cons_append, h.countFrom_cons hc, ih (h.next c) hnext, hseen]
    rfl

end Noted

theorem Uncut.countFrom_append {s : Text} (h : Uncut s) (rest : Text) :
    countFrom none false (s ++ rest) = countFrom (openQuote none s) (!Text.allBlank s) rest :=
  (Noted.outside false).countFrom_append (fun a b hs hopen => h a b hs (closed_iff.mpr hopen)) rest

theorem Uncut.countStatements_append {piece : Text} (h : Uncut piece) (hclosed : Closed piece) (script : Text) :
    countStatements (piece ++ ';' :: script) =
      (if !Text.allBlank piece then 1 else 0) + countStatements script := by
  rw [countStatements, h.countFrom_append, closed_iff.mp hclosed, countFrom_semicolon]

theorem CutInto.countStatements_eq {script : Text} {pieces : List Text} (h : CutInto script pieces) :
    countStatements script = pieces.countP fun piece => !Text.allBlank piece := by
  induction h with
  | last huncut =>
    have hcount := huncut.countFrom_append []
    rwa [List.append_nil, countFrom_nil, ← List.countP_singleton] at hcount
  | cons hclosed huncut _ ih =>
    rw [huncut.countStatements_append hclosed, ih, List.countP_cons, Nat.add_comm]

/-- At a semicolon outside quotes the counts of both sides add up. -/
theorem Closed.countStatements_append {a : Text} (h : Closed a) (b : Text) :
    countStatements (a ++ ';' :: b) = countStatements a + countStatements b := by
  obtain ⟨pieces, ha⟩ := exists_cutInto a
  obtain ⟨pieces', hb⟩ := exists_cutInto b
  rw [(ha.append h hb).countStatements_eq, List.countP_append, ← ha.countStatements_eq, ← hb.countStatements_eq]

/-! ### Written scripts -/

/-- A statement as a script may hold it. -/
structure IsStatement (s : Text) : Prop where
  closed : Closed s
  uncut : Uncut s
  not_blank : ¬IsBlank s

instance (s : Text) : Decidable (IsStatement s) :=
  decidable_of_iff (Closed s ∧ Uncut s ∧ ¬IsBlank s) ⟨fun ⟨hc, hu, hb⟩ => ⟨hc, hu, hb⟩, fun h => ⟨h.1, h.2, h.3⟩⟩

/-- A text of semicolons and blanks. -/
def IsGap (s : Text) : Prop := ∀ c ∈ s, c = ';' ∨ isBlank c = true

instance (s : Text) : Decidable (IsGap s) :=
  decidable_of_iff (s.all (fun c => c == ';' || isBlank c) = true) (by simp [IsGap])

theorem isQuote_of_gap {c : Char} (h : c = ';' ∨ isBlank c = true) : isQuote c = false := by
  rw [Bool.eq_false_iff]
  intro hq
  rcases h with rfl | h
  · exact absurd hq (by decide)
  · rw [isBlank_of_isQuote hq] at h
    cases h

theorem IsGap.closed {gap : Text} (h : IsGap gap) : Closed gap := by
  induction gap with
  | nil => exact .nil
  | cons c gap ih =>
    obtain ⟨hc, hgap⟩ := List.forall_mem_cons.mp h
    exact .plain (isQuote_of_gap hc) (ih hgap)

/-- A gap ends the statement in front of it if it has a semicolon, and nothing else of it counts. -/
theorem IsGap.countFrom_append {gap : Text} (h : IsGap gap) (pending : Bool) (rest : Text) :
    countFrom none pending (gap ++ rest) =
      if ';' ∈ gap then (if pending then 1 else 0) + countStatements rest else countFrom none pending rest := by
  induction gap generalizing pending with
  | nil => rfl
  | cons c gap ih =>
    obtain ⟨hc, hgap⟩ := List.forall_mem_cons.mp h
    by_cases hsemicolon : c = ';'
    · subst hsemicolon
      rw [List.cons_append, countFrom_semicolon, countStatements, ih hgap, if_pos List.mem_cons_self]
      split <;> simp [countStatements]
    · have hblank := hc.resolve_left hsemicolon
      have hnext : nextQuote none c = none := if_neg (Bool.eq_false_iff.mp (isQuote_of_gap hc))
      rw [List.cons_append, (Noted.outside pending).countFrom_cons fun _ => hsemicolon, hnext, hblank, ih hgap]
      simp [Ne.symm hsemicolon]

/-- Statements, each with what stands behind it. -/
def written (parts : List (Text × Text)) : Text := parts.flatMap fun (statement, gap) => statement ++ gap

theorem written_cons (statement gap : Text) (parts : List (Text × Text)) :
    written ((statement, gap) :: parts) = statement ++ (gap ++ written parts) := List.append_assoc _ _ _

theorem closed_written {parts : List (Text × Text)} (hstatements : ∀ part ∈ parts, IsStatement part.1)
    (hgaps : ∀ part ∈ parts, IsGap part.2) : Closed (written parts) := by
  induction parts with
  | nil => exact .nil
  | cons part parts ih =>
    obtain ⟨hstatement, hstatements⟩ := List.forall_mem_cons.mp hstatements
    obtain ⟨hgap, hgaps⟩ := List.forall_mem_cons.mp hgaps
    rw [written_cons, hstatement.closed.append_iff, hgap.closed.append_iff]
    exact ih hstatements hgaps

theorem countStatements_written {parts : List (Text × Text)} (hstatements : ∀ part ∈ parts, IsStatement part.1)
    (hgaps : ∀ part ∈ parts, IsGap part.2) (hsemicolons : ∀ part ∈ parts.dropLast, ';' ∈ part.2) :
    countStatements (written parts) = parts.length := by
  induction parts with
  | nil => rfl
  | cons part parts ih =>
    obtain ⟨hstatement, hstatements⟩ := List.forall_mem_cons.mp hstatements
    obtain ⟨hgap, hgaps⟩ := List.forall_mem_cons.mp hgaps
    have hseen : Text.allBlank part.1 = false := by
      rw [Bool.eq_false_iff, Ne, Text.allBlank_iff]
      exact hstatement.not_blank
    rw [written_cons, countStatements, hstatement.uncut.countFrom_append, closed_iff.mp hstatement.closed, hseen,
      hgap.countFrom_append]
    cases parts with
    -- The end of a script ends its last statement, with a semicolon behind it or without.
    | nil => split <;> rfl
    | cons next parts =>
      obtain ⟨hsemicolon, hsemicolons⟩ := List.forall_mem_cons.mp hsemicolons
      rw [if_pos hsemicolon, ih hstatements hgaps hsemicolons]
      exact Nat.add_comm 1 _

/-- A script as it may be written: statements, each with what stands behind it, which has a semicolon unless the
    statement is the last one. -/
structure ScriptLayout where
  front : Text
  parts : List (Text × Text)
  isGap_front : IsGap front
  isStatement : ∀ part ∈ parts, IsStatement part.1
  isGap : ∀ part ∈ parts, IsGap part.2
  semicolon : ∀ part ∈ parts.dropLast, ';' ∈ part.2

namespace ScriptLayout

def text (l : ScriptLayout) : Text := l.front ++ written l.parts

theorem closed_text (l : ScriptLayout) : Closed l.text :=
  l.isGap_front.closed.append_iff.mpr (closed_written l.isStatement l.isGap)

theorem countStatements_text (l : ScriptLayout) : countStatements l.text = l.parts.length := by
  rw [text, countStatements, l.isGap_front.countFrom_append, ← countStatements,
    countStatements_written l.isStatement l.isGap l.semicolon]
  split
  · exact Nat.zero_add _
  · rfl

end ScriptLayout

/-- A script has one way to be cut at its semicolons outside quotes, and it counts the pieces that are not blank. So the
    counts on both sides of such a semicolon add up, and a written script counts its statements, whether a semicolon
    stands behind the last one or not. -/
theorem countStatements_pieces :
    (∀ script, ∃ pieces, (∀ pieces', CutInto script pieces' ↔ pieces' = pieces) ∧
      countStatements script = pieces.countP fun piece => !Text.allBlank piece) ∧
    (∀ a b, Closed a → countStatements (a ++ ';' :: b) = countStatements a + countStatements b) ∧
    ∀ l : ScriptLayout, countStatements l.text = l.parts.length ∧
      countStatements (l.text ++ [';']) = l.parts.length := by
  refine ⟨fun script => ?_, fun a b ha => ha.countStatements_append b, fun l => ⟨l.countStatements_text, ?_⟩⟩
  · obtain ⟨pieces, hpieces⟩ := exists_cutInto script
    refine ⟨pieces, fun pieces' => ⟨fun h => h.unique hpieces, ?_⟩, hpieces.countStatements_eq⟩
    rintro rfl
    exact hpieces
  · rw [l.closed_text.countStatements_append, l.countStatements_text]
    rfl

/-- Semicolons in quotes of both kinds, behind a quote that is written twice, and more than one between statements. -/
def quotedScript : ScriptLayout where
  front := " \n;".toList
  parts := [("INSERT INTO a VALUES ('it''s; \"fine', \"b;'\")".toList, " ;;\n".toList), ("SELECT 1".toList, [' '])]
  isGap_front := by decide
  isStatement := by decide +kernel
  isGap := by decide
  semicolon := by decide

theorem countStatements_pieces_quotedScript :
    let a : Text := quotedScript.text
    let b : Text := " ;'c; d".toList
    CutInto b [[' '], "'c; d".toList] ∧ countStatements b = 1 ∧
      Closed a ∧ countStatements (a ++ ';' :: b) = countStatements a + countStatements b ∧
      countStatements a = 2 ∧ countStatements (a ++ [';']) = 2 := by
  intro a b
  obtain ⟨hcuts, hsides, hlayouts⟩ := countStatements_pieces
  have hcut : CutInto ([' '] ++ ';' :: "'c; d".toList) [[' '], "'c; d".toList] :=
    .cons (by decide) (by decide) (.last (by decide))
  have hclosed : Closed a := by decide +kernel
  obtain ⟨pieces, hunique, hcount⟩ := hcuts b
  obtain rfl := (hunique _).mp hcut
  obtain ⟨htext, hended⟩ := hlayouts quotedScript
  exact ⟨hcut, hcount.trans (by decide), hclosed, hsides a b hclosed, htext, hended⟩

end Script
end Schemata
