import Schemata.Proofs.Text.Places
import Schemata.Proofs.Text.Scan
import Schemata.Dialect.Outline

/-! Table blocks and the gaps between them. A block begins with its keyword and ends at a brace, so neither blanks
    before a block nor text behind it change how it is read. The lines of a gap that pass without notice may be cut off
    from it: the rest of the gap is skipped as it is on its own, further down. So may blanks at its ends. -/

namespace Schemata

/-! ### Where blocks begin and end -/

namespace BlockShape

theorem read?_eq_none {c : Char} (hc : c ≠ 'T') (b : Bool) (s : Text) : read? b (c :: s) = none := by
  have hstop : Text.Stops (· == 'T') (c :: s) := Text.stops_cons.mpr (beq_eq_false_iff_ne.mpr hc)
  have hkeyword : ("Table" : Text) = 'T' :: ['a', 'b', 'l', 'e'] := Text.ofString_eq _
  unfold read?
  rw [hkeyword, Text.dropPrefix?_eq_none hstop]
  rfl

theorem pattern_skipsBlanks : pattern.SkipsBlanks := by
  intro b c s h
  refine read?_eq_none ?_ b s
  rintro rfl
  exact absurd h (by decide)

theorem read?_append {s : Text} (h : '}' ∈ s) (b : Bool) (t : Text) :
    read? b (s ++ t) = (read? b s).map fun (a, r) => (a, r ++ t) := by
  have hkeyword : '}' ∉ ("Table" : Text) := by
    rw [Text.ofString_eq]
    decide
  have hopen : '}' ∉ ("\x7b" : Text) := by
    rw [Text.ofString_eq]
    decide
  unfold read?
  rw [Text.dropPrefix?_append_of_mem hkeyword h]
  cases hk : Text.dropPrefix? "Table" s with
  | none => rfl
  | some k =>
    -- What is left holds the brace still, so no run of characters goes on to its end.
    have hk : '}' ∈ k := by
      rw [← Text.append_dropPrefix? hk, List.mem_append, or_iff_right hkeyword] at h
      exact h
    have hblank : isBlank '}' = false := by decide
    have hword : isWord '}' = false := by decide
    have hname := Text.mem_dropWhile hblank hk
    have hgap := Text.mem_dropWhile hword hname
    have hbrace := Text.mem_dropWhile hblank hgap
    simp only [Option.bind_eq_bind, Option.map_some, Option.bind_some]
    rw [Text.dropWhile_append_of_mem hblank hk, Text.takeWhile_append_of_mem hblank hk,
      Text.dropWhile_append_of_mem hword hname, Text.takeWhile_append_of_mem hword hname,
      Text.dropWhile_append_of_mem hblank hgap, Text.takeWhile_append_of_mem hblank hgap,
      Text.dropPrefix?_append_of_mem hopen hbrace]
    cases hi : Text.dropPrefix? "\x7b" (((k.dropWhile isBlank).dropWhile isWord).dropWhile isBlank) with
    | none => rfl
    | some inside =>
      rw [← Text.append_dropPrefix? hi, List.mem_append, or_iff_right hopen] at hbrace
      obtain ⟨⟨body, rest⟩, hcut⟩ := Option.ne_none_iff_exists'.mp fun hcut => Text.cut?_eq_none.mp hcut hbrace
      simp only [Option.map_some, Option.bind_some, Text.cut?_append_of_some hcut, hcut]
      split <;> rfl

theorem pattern_closedBy : pattern.ClosedBy '}' where
  mem_render := by
    intro b s a r _
    show '}' ∈ a.header ++ a.body ++ Text.ofString "\x7d"
    rw [Text.ofString_eq]
    exact List.mem_append_right _ List.mem_cons_self
  read?_append := read?_append

end BlockShape

/-! ### What a gap leaves unread -/

theorem gapSkip?_eq_none {gap : Text} (h : ∀ line ∈ gap.splitOn '\n', passesOutside line = true) (n : Nat) :
    gapSkip? n gap = none := by
  simp only [gapSkip?, List.dropWhile_eq_nil_iff.mpr h]
  rfl

theorem passesOutside_blank {g : Text} (h : IsBlank g) : ∀ line ∈ g.splitOn '\n', passesOutside line = true := by
  intro line hline
  have hblank : IsBlank line := fun c hc => h c (Text.mem_of_mem_splitOn hline hc)
  simp [passesOutside, Text.trim_eq_nil_iff.mpr hblank]

theorem gapSkip?_blank {g : Text} (h : IsBlank g) (n : Nat) : gapSkip? n g = none :=
  gapSkip?_eq_none (passesOutside_blank h) n

/-- Lines that pass may be cut off from a gap. -/
theorem gapSkip?_behind {gap : Text} (h : ∀ line ∈ gap.splitOn '\n', passesOutside line = true) (n : Nat) (t : Text) :
    gapSkip? n (gap ++ '\n' :: t) = gapSkip? (n + (Text.newlines gap + 1)) t := by
  unfold gapSkip?
  dsimp only
  rw [Text.splitOn_append_cons, List.dropWhile_append_of_pos h, List.takeWhile_append_of_pos h, List.length_append,
    Text.length_splitOn, ← Nat.add_assoc]

/-! ### Blanks at the ends of a gap -/

theorem passesOutside_trim {line line' : Text} (h : Text.trim line = Text.trim line') :
    passesOutside line = passesOutside line' := by
  rw [passesOutside, passesOutside, h]

/-- What lines leave unread, the first of them on the given line. -/
def linesSkip? (n : Nat) : List Text → Option Skip
  | [] => none
  | line :: rest =>
    if passesOutside line then linesSkip? (n + 1) rest
    else some ⟨.unrecognizedBlock, n, Text.trim (Text.join "\n" (line :: rest)), none⟩

theorem gapSkip?_eq_linesSkip? (n : Nat) (gap : Text) : gapSkip? n gap = linesSkip? n (gap.splitOn '\n') := by
  unfold gapSkip?
  dsimp only
  induction gap.splitOn '\n' generalizing n with
  | nil => rfl
  | cons line rest ih =>
    rw [linesSkip?, ← ih, List.dropWhile_cons, List.takeWhile_cons]
    split
    · rw [List.length_cons, Nat.add_comm _ 1, ← Nat.add_assoc]
    · rfl

theorem linesSkip?_blank_end {e : Text} (he : IsBlank e) (n : Nat) (lines : List Text) (last : Text) :
    linesSkip? n (lines ++ [last ++ e]) = linesSkip? n (lines ++ [last]) := by
  induction lines generalizing n with
  | nil =>
    rw [List.nil_append, List.nil_append, linesSkip?, linesSkip?, linesSkip?,
      passesOutside_trim (Text.trim_append_blank he last), Text.join_cons, Text.join_cons, List.flatMap_nil,
      List.append_nil, List.append_nil, Text.trim_append_blank he]
    rfl
  | cons line lines ih =>
    have hjoin : Text.join "\n" (line :: (lines ++ [last ++ e])) = Text.join "\n" (line :: (lines ++ [last])) ++ e := by
      simp only [Text.join_cons, List.flatMap_append, List.flatMap_singleton, List.append_assoc]
    rw [List.cons_append, List.cons_append, linesSkip?, linesSkip?, ih, hjoin, Text.trim_append_blank he]

theorem linesSkip?_blank_line {e : Text} (he : IsBlank e) (n : Nat) (lines : List Text) :
    linesSkip? n (lines ++ [e]) = linesSkip? n lines := by
  have hpass : passesOutside e = true := by simp [passesOutside, Text.trim_eq_nil_iff.mpr he]
  induction lines generalizing n with
  | nil => exact if_pos hpass
  | cons line lines ih =>
    have hbreak : IsBlank ("\n" ++ e) := by
      rw [Text.ofString_eq]
      exact IsBlank.append.mpr ⟨by decide, he⟩
    have hjoin : Text.join "\n" (line :: (lines ++ [e])) = Text.join "\n" (line :: lines) ++ ("\n" ++ e) := by
      simp only [Text.join_cons, List.flatMap_append, List.flatMap_singleton, List.append_assoc]
    rw [List.cons_append, linesSkip?, linesSkip?, ih, hjoin, Text.trim_append_blank hbreak]

/-- Blanks in front of a gap move what it leaves unread down. -/
theorem gapSkip?_blank_append {g : Text} (hg : IsBlank g) (n : Nat) (t : Text) :
    gapSkip? n (g ++ t) = gapSkip? (n + Text.newlines g) t := by
  induction g generalizing n with
  | nil => rfl
  | cons c g ih =>
    obtain ⟨hc, hrest⟩ := IsBlank.cons.mp hg
    -- A line feed ends a line that passes; any other blank belongs to the first line.
    by_cases hline : c = '\n'
    · subst hline
      have hlines : n + Text.newlines ('\n' :: g) = n + (0 + 1) + Text.newlines g := by
        rw [Text.newlines, List.count_cons_self, Text.newlines]
        omega
      rw [hlines, ← ih hrest]
      exact gapSkip?_behind (passesOutside_blank IsBlank.nil) n (g ++ t)
    · have hlines : Text.newlines (c :: g) = Text.newlines g := List.count_cons_of_ne hline
      obtain ⟨first, rest, hsplit⟩ := List.exists_cons_of_ne_nil (List.splitOn_ne_nil '\n' (g ++ t))
      have hblank : IsBlank [c] := IsBlank.cons.mpr ⟨hc, IsBlank.nil⟩
      rw [hlines, ← ih hrest, List.cons_append, gapSkip?_eq_linesSkip?, gapSkip?_eq_linesSkip?, ← List.singleton_append,
        Text.splitOn_append_of_not_mem (by simpa using Ne.symm hline), hsplit, List.modifyHead_cons, linesSkip?,
        linesSkip?, passesOutside_trim (Text.trim_blank_append hblank first), Text.join_cons, Text.join_cons,
        List.append_assoc, Text.trim_blank_append hblank]

/-- Blanks behind a gap change nothing. -/
theorem gapSkip?_append_blank {e : Text} (he : IsBlank e) (n : Nat) (t : Text) :
    gapSkip? n (t ++ e) = gapSkip? n t := by
  induction e generalizing t with
  | nil => rw [List.append_nil]
  | cons c e ih =>
    obtain ⟨hc, he⟩ := IsBlank.cons.mp he
    rw [List.append_cons, ih he, gapSkip?_eq_linesSkip?, gapSkip?_eq_linesSkip?]
    by_cases hline : c = '\n'
    · rw [hline, Text.splitOn_append_cons, List.splitOn_nil, linesSkip?_blank_line IsBlank.nil]
    · obtain ⟨lines, hsplit, hsnoc⟩ := Text.splitOn_snoc hline t
      rw [hsplit, hsnoc, linesSkip?_blank_end (IsBlank.cons.mpr ⟨hc, IsBlank.nil⟩)]

end Schemata
