import Schemata.Proofs.Text.Places
import Schemata.Proofs.Text.Scan

/-! Texts with a carriage return in front of every line feed. Both characters are blanks and neither belongs to a word,
    so runs, cuts at other characters, trimming and scans find the same parts, each with its own carriage returns. The
    lines of such a text are those of the text without. -/

namespace Schemata
namespace Text

/-- The text with a carriage return in front of each line feed. -/
def withReturns (s : Text) : Text := s.flatMap fun c => if c == '\n' then ['\r', '\n'] else [c]

theorem withReturns_newline (s : Text) : withReturns ('\n' :: s) = '\r' :: '\n' :: withReturns s := rfl

theorem withReturns_cons {c : Char} (hc : c ≠ '\n') (s : Text) : withReturns (c :: s) = c :: withReturns s := by
  simp [withReturns, hc]

theorem withReturns_append (a b : Text) : withReturns (a ++ b) = withReturns a ++ withReturns b := List.flatMap_append

theorem withReturns_eq_self {s : Text} (h : '\n' ∉ s) : withReturns s = s := by
  induction s with
  | nil => rfl
  | cons c s ih =>
    obtain ⟨hc, hs⟩ := List.ne_and_not_mem_of_not_mem_cons h
    rw [withReturns_cons hc.symm, ih hs]

theorem isEmpty_withReturns (s : Text) : (withReturns s).isEmpty = s.isEmpty := by
  cases s with
  | nil => rfl
  | cons c s =>
    by_cases hc : c = '\n'
    · rw [hc, withReturns_newline]
      rfl
    · rw [withReturns_cons hc]
      rfl

theorem mem_of_mem_withReturns {c : Char} {s : Text} (hc : c ≠ '\r') (h : c ∈ withReturns s) : c ∈ s := by
  obtain ⟨x, hx, hm⟩ := List.mem_flatMap.mp h
  split at hm
  · rename_i hline
    simp only [List.mem_cons, hc, List.not_mem_nil, or_false, false_or] at hm
    exact hm ▸ beq_iff_eq.mp hline ▸ hx
  · exact List.mem_singleton.mp hm ▸ hx

theorem newlines_withReturns (s : Text) : newlines (withReturns s) = newlines s := by
  induction s with
  | nil => rfl
  | cons c s ih =>
    unfold newlines at ih ⊢
    by_cases hc : c = '\n'
    · rw [hc, withReturns_newline, List.count_cons_of_ne (by decide), List.count_cons_self, List.count_cons_self, ih]
    · rw [withReturns_cons hc, List.count_cons_of_ne hc, List.count_cons_of_ne hc, ih]

/-! ### Runs and cuts -/

section Runs
variable {p : Char → Bool} (hp : p '\r' = p '\n')
include hp

theorem takeWhile_withReturns (s : Text) : (withReturns s).takeWhile p = withReturns (s.takeWhile p) := by
  induction s with
  | nil => rfl
  | cons c s ih =>
    by_cases hc : c = '\n'
    · rw [hc, withReturns_newline, List.takeWhile_cons, List.takeWhile_cons, List.takeWhile_cons, hp, ih]
      split <;> rfl
    · rw [withReturns_cons hc, List.takeWhile_cons, List.takeWhile_cons, ih]
      split
      · rw [withReturns_cons hc]
      · rfl

theorem dropWhile_withReturns (s : Text) : (withReturns s).dropWhile p = withReturns (s.dropWhile p) := by
  have hsplit : (withReturns s).takeWhile p ++ (withReturns s).dropWhile p =
      (withReturns s).takeWhile p ++ withReturns (s.dropWhile p) := by
    rw [List.takeWhile_append_dropWhile, takeWhile_withReturns hp, ← withReturns_append,
      List.takeWhile_append_dropWhile]
  exact List.append_cancel_left hsplit

end Runs

theorem dropPrefix?_withReturns {start : Text} (hr : '\r' ∉ start) (hn : '\n' ∉ start) (s : Text) :
    dropPrefix? start (withReturns s) = (dropPrefix? start s).map withReturns := by
  induction start generalizing s with
  | nil => simp [dropPrefix?]
  | cons x start ih =>
    obtain ⟨hrx, hr⟩ := List.ne_and_not_mem_of_not_mem_cons hr
    obtain ⟨hnx, hn⟩ := List.ne_and_not_mem_of_not_mem_cons hn
    cases s with
    | nil => rfl
    | cons c s =>
      by_cases hc : c = '\n'
      · rw [hc, withReturns_newline, dropPrefix?_cons, if_neg hrx, dropPrefix?_cons, if_neg hnx]
        rfl
      · rw [withReturns_cons hc, dropPrefix?_cons, dropPrefix?_cons, ih hr hn]
        split <;> rfl

theorem cut?_withReturns {c : Char} (hr : c ≠ '\r') (hn : c ≠ '\n') (s : Text) :
    cut? c (withReturns s) = (cut? c s).map fun (a, b) => (withReturns a, withReturns b) := by
  rcases hs : cut? c s with _ | ⟨a, b⟩
  · rw [cut?_eq_none.mpr fun hm => cut?_eq_none.mp hs (mem_of_mem_withReturns hr hm)]
    rfl
  · rw [← append_cut? hs, withReturns_append, withReturns_cons hn,
      cut?_append fun hm => not_mem_of_cut? hs (mem_of_mem_withReturns hr hm)]
    rfl

/-! ### Trimming -/

theorem isBlank_withReturns {s : Text} (h : IsBlank s) : IsBlank (withReturns s) := fun c hc => by
  by_cases hr : c = '\r'
  · rw [hr]
    decide
  · exact h c (mem_of_mem_withReturns hr hc)

theorem trimEnd_withReturns (s : Text) : trimEnd (withReturns s) = withReturns (trimEnd s) := by
  obtain ⟨behind, hblank, hs⟩ := exists_append_trimEnd s
  -- What is left does not end in a blank, so it ends in the same character with the returns.
  have hstop : Stops isBlank (trimEnd s).reverse := by
    rw [trimEnd, List.reverse_reverse]
    exact Stops.dropWhile _
  rw [← hs, withReturns_append, trimEnd_blank (isBlank_withReturns hblank), trimEnd_blank hblank]
  rcases List.eq_nil_or_concat (trimEnd s) with hnil | ⟨front, c, hlast⟩
  · rw [hnil]
    rfl
  · rw [hlast, List.concat_eq_append, List.reverse_append] at hstop
    have hc : isBlank c = false := stops_cons.mp hstop
    have hsnoc : ∀ t : Text, trimEnd (t ++ [c]) = t ++ [c] := fun t => by
      simp [trimEnd, hc]
    have hline : c ≠ '\n' := by
      rintro rfl
      cases hc
    have hfront : withReturns (front ++ [c]) = withReturns front ++ [c] := by
      rw [withReturns_append, withReturns_cons hline]
      rfl
    rw [hlast, List.concat_eq_append, hfront, hsnoc, hsnoc, hfront]

theorem trim_withReturns (s : Text) : trim (withReturns s) = withReturns (trim s) := by
  rw [trim, trimStart, dropWhile_withReturns (by decide), trimEnd_withReturns]
  rfl

/-! ### Lines -/

/-- Lines with a carriage return at the end of each but the last. -/
def returned : List Text → List Text
  | [] => []
  | [last] => [last]
  | line :: rest => (line ++ ['\r']) :: returned rest

theorem returned_cons {rest : List Text} (h : rest ≠ []) (line : Text) :
    returned (line :: rest) = (line ++ ['\r']) :: returned rest := by
  cases rest with
  | nil => exact absurd rfl h
  | cons => rfl

theorem returned_ne_nil {parts : List Text} (h : parts ≠ []) : returned parts ≠ [] := by
  rcases parts with _ | ⟨line, _ | ⟨line', rest⟩⟩
  · exact absurd rfl h
  · exact List.cons_ne_nil _ _
  · exact List.cons_ne_nil _ _

theorem modifyHead_returned (c : Char) (parts : List Text) :
    (returned parts).modifyHead (c :: ·) = returned (parts.modifyHead (c :: ·)) := by
  rcases parts with _ | ⟨line, _ | ⟨line', rest⟩⟩ <;> rfl

theorem splitOn_withReturns (s : Text) : (withReturns s).splitOn '\n' = returned (s.splitOn '\n') := by
  induction s with
  | nil => rfl
  | cons c s ih =>
    rw [List.splitOn_cons_eq_if_modifyHead]
    by_cases hc : c = '\n'
    · rw [hc, if_pos (beq_self_eq_true _), returned_cons (List.splitOn_ne_nil _ _), ← ih]
      exact splitOn_append_cons '\n' ['\r'] (withReturns s)
    · rw [withReturns_cons hc, if_neg (by simpa using hc), ← modifyHead_returned, ← ih,
        List.splitOn_cons_eq_if_modifyHead, if_neg (by simpa using hc)]

theorem endLines_returned {parts : List Text} (h : ∀ line ∈ parts, '\r' ∉ line) :
    endLines (returned parts) = endLines parts := by
  induction parts with
  | nil => rfl
  | cons line rest ih =>
    obtain ⟨hline, hrest⟩ := List.forall_mem_cons.mp h
    rcases rest with _ | ⟨line', rest⟩
    · rfl
    · have hkeep : dropReturn line = line := by
        unfold dropReturn
        split
        · rename_i hlast
          exact absurd (List.mem_of_getLast? (beq_iff_eq.mp hlast)) hline
        · rfl
      have hdrop : dropReturn (line ++ ['\r']) = line := by simp [dropReturn]
      rw [returned_cons (List.cons_ne_nil _ _), endLines, endLines, hdrop, hkeep, ih hrest]
      · simp
      · exact returned_ne_nil (List.cons_ne_nil _ _)

/-- The carriage returns do not belong to the lines. -/
theorem lines_withReturns {s : Text} (h : '\r' ∉ s) : lines (withReturns s) = lines s := by
  rw [lines, lines, splitOn_withReturns, endLines_returned]
  exact fun line hline hm => h (mem_of_mem_splitOn hline hm)

theorem join_returned {parts : List Text} (h : ∀ line ∈ parts, '\n' ∉ line) :
    join "\n" (returned parts) = withReturns (join "\n" parts) := by
  unfold join
  rw [ofString_eq]
  induction parts with
  | nil => rfl
  | cons line rest ih =>
    obtain ⟨hline, hrest⟩ := List.forall_mem_cons.mp h
    rcases rest with _ | ⟨line', rest⟩
    · rw [returned, List.intercalate_singleton, withReturns_eq_self hline]
    · obtain ⟨first, others, hcons⟩ := List.exists_cons_of_ne_nil (returned_ne_nil (List.cons_ne_nil line' rest))
      have ih := ih hrest
      rw [hcons] at ih
      have hfeed : withReturns "\n".toList = ['\r'] ++ "\n".toList := by decide
      rw [returned_cons (List.cons_ne_nil _ _), hcons, List.intercalate_cons_cons, ih, List.intercalate_cons_cons,
        withReturns_append, withReturns_append, withReturns_eq_self hline, hfeed]
      simp only [List.append_assoc]

end Text

/-! ### Scans -/

theorem endsInWord_withReturns (b : Bool) (s : Text) : endsInWord b (Text.withReturns s) = endsInWord b s := by
  induction s generalizing b with
  | nil => rfl
  | cons c s ih =>
    by_cases hc : c = '\n'
    · rw [hc, Text.withReturns_newline]
      exact ih _
    · rw [Text.withReturns_cons hc]
      exact ih _

namespace Pattern
variable {α : Type} {p : Pattern α} {g : α → α}

/-- A pattern that reads a text with carriage returns as it reads the text without, where `g` puts carriage returns
    into a match. -/
structure KeepsReturns (p : Pattern α) (g : α → α) : Prop where
  skipsBlanks : p.SkipsBlanks
  read? : ∀ b s, p.read? b (Text.withReturns s) = (p.read? b s).map fun (a, r) => (g a, Text.withReturns r)
  render : ∀ a, p.render (g a) = Text.withReturns (p.render a)

theorem KeepsReturns.find? (hp : p.KeepsReturns g) (b : Bool) (s : Text) :
    p.find? b (Text.withReturns s) =
      (p.find? b s).map fun hit => (Text.withReturns hit.1, g hit.2.1, Text.withReturns hit.2.2) := by
  induction s generalizing b with
  | nil => rfl
  | cons c s ih =>
    by_cases hc : c = '\n'
    · -- No match begins at either of the two characters.
      rw [hc, Text.withReturns_newline, Pattern.find?, hp.skipsBlanks _ _ _ (by decide), Pattern.find?,
        hp.skipsBlanks _ _ _ (by decide), Pattern.find?, hp.skipsBlanks _ _ _ (by decide), ih]
      cases p.find? (isWord '\n') s <;> rfl
    · have hread := hp.read? b (c :: s)
      rw [Text.withReturns_cons hc] at hread
      rw [Text.withReturns_cons hc, Pattern.find?, Pattern.find?, hread]
      cases p.read? b (c :: s) with
      | some hit => rfl
      | none =>
        rw [Option.map_none]
        dsimp only
        rw [ih, Option.map_map, Option.map_map]
        congr 1
        funext hit
        rw [Function.comp_apply, Function.comp_apply, Text.withReturns_cons hc]

theorem KeepsReturns.scan (hp : p.KeepsReturns g) (b : Bool) (s : Text) :
    p.scan b (Text.withReturns s) =
      ⟨(p.scan b s).hits.map fun (gap, a) => (Text.withReturns gap, g a), Text.withReturns (p.scan b s).tail⟩ := by
  induction b, s using scan.induct p with
  | case1 b s h =>
    have hfind := hp.find? b s
    rw [h] at hfind
    rw [p.scan_none h, p.scan_none hfind]
    rfl
  | case2 b s gap a r h ih =>
    have hfind := hp.find? b s
    rw [h] at hfind
    have hends : endsInWord b (Text.withReturns gap ++ p.render (g a)) = endsInWord b (gap ++ p.render a) := by
      rw [hp.render, ← Text.withReturns_append, endsInWord_withReturns]
    rw [p.scan_some h, p.scan_some hfind, hends, ih]
    rfl

end Pattern
end Schemata
