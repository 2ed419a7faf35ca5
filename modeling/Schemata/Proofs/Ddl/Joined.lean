import Schemata.Proofs.Ddl.Account
import Schemata.Proofs.Dialect.Extent
import Schemata.Proofs.Dialect.Joined

/-! Compiling is compositional. A schema text behind another one gives the statements it gives on its own, behind those
    of the other, and leaves out the same further down. The skips are sorted as a whole, but all those of the first text
    stand on earlier lines than those of the second, so each part is sorted on its own. A comment between two texts
    gives nothing as long as no block begins in it. -/

namespace Schemata

/-! ### Sorting by line -/

theorem line_le_of_mem {x z : Skip} {l : List Skip} (hl : (x :: l).Pairwise fun a b => a.line ≤ b.line)
    (hz : z ∈ x :: l) : x.line ≤ z.line := by
  rcases List.mem_cons.mp hz with rfl | hz
  · exact Nat.le_refl _
  · exact List.rel_of_pairwise_cons hl hz

/-- Skips sorted by line are told by what stands on each line. -/
theorem eq_of_sorted {l l' : List Skip} (hl : l.Pairwise fun a b => a.line ≤ b.line)
    (hl' : l'.Pairwise fun a b => a.line ≤ b.line)
    (h : ∀ n, l.filter (·.line = n) = l'.filter (·.line = n)) : l = l' := by
  induction l generalizing l' with
  | nil =>
    cases l' with
    | nil => rfl
    | cons y l' =>
      have hy := h y.line
      rw [List.filter_cons_of_pos (by simp)] at hy
      cases hy
  | cons x l ih =>
    cases l' with
    | nil =>
      have hx := h x.line
      rw [List.filter_cons_of_pos (by simp)] at hx
      cases hx
    | cons y l' =>
      have hmem : ∀ z, z ∈ x :: l ↔ z ∈ y :: l' := by
        intro z
        have hz := congrArg (z ∈ ·) (h z.line)
        simpa only [List.mem_filter, decide_true, and_true, eq_iff_iff] using hz
      -- Each of the first ones stands in the other list too, so neither is on an earlier line.
      have hline : x.line = y.line := by
        refine Nat.le_antisymm ?_ ?_
        · exact line_le_of_mem hl ((hmem y).mpr List.mem_cons_self)
        · exact line_le_of_mem hl' ((hmem x).mp List.mem_cons_self)
      have hfirst := h x.line
      rw [List.filter_cons_of_pos (by simp), List.filter_cons_of_pos (by simp [hline])] at hfirst
      obtain ⟨rfl, -⟩ := List.cons.inj hfirst
      refine congrArg (x :: ·) (ih hl.tail hl'.tail fun n => ?_)
      have hn := h n
      rw [List.filter_cons, List.filter_cons] at hn
      split at hn
      · exact (List.cons.inj hn).2
      · exact hn

/-- Skips up to a line are sorted apart from those behind it. -/
theorem sortByLine_apart {m : Nat} {l₁ l₂ r₁ r₂ : List Skip} (hl : ∀ skip ∈ l₁ ++ l₂, skip.line ≤ m)
    (hr : ∀ skip ∈ r₁ ++ r₂, m < skip.line) :
    sortByLine ((l₁ ++ r₁) ++ (l₂ ++ r₂)) = sortByLine (l₁ ++ l₂) ++ sortByLine (r₁ ++ r₂) := by
  refine eq_of_sorted (sortByLine_sorted _) ?_ fun n => ?_
  · refine List.pairwise_append.mpr ⟨sortByLine_sorted _, sortByLine_sorted _, ?_⟩
    intro a ha b hb
    have hle := hl a ((sortByLine_perm _).mem_iff.mp ha)
    have hlt := hr b ((sortByLine_perm _).mem_iff.mp hb)
    omega
  · rw [List.filter_append, filter_sortByLine, filter_sortByLine, filter_sortByLine]
    obtain ⟨hl₁, hl₂⟩ := List.forall_mem_append.mp hl
    obtain ⟨hr₁, hr₂⟩ := List.forall_mem_append.mp hr
    have hnone : ∀ l : List Skip, (∀ skip ∈ l, skip.line ≠ n) → l.filter (·.line = n) = [] := fun l h =>
      List.filter_eq_nil_iff.mpr fun skip hskip => by simpa using h skip hskip
    simp only [List.filter_append]
    by_cases hn : n ≤ m
    · rw [hnone r₁ fun skip hskip => by have := hr₁ skip hskip; omega,
        hnone r₂ fun skip hskip => by have := hr₂ skip hskip; omega]
      simp only [List.append_nil]
    · rw [hnone l₁ fun skip hskip => by have := hl₁ skip hskip; omega,
        hnone l₂ fun skip hskip => by have := hl₂ skip hskip; omega]
      simp only [List.nil_append]

theorem sortByLine_down (k : Nat) (skips : List Skip) :
    sortByLine (skips.map (·.down k)) = (sortByLine skips).map (·.down k) := by
  refine (List.map_mergeSort fun a _ b _ => ?_).symm
  simp [Skip.down]

/-! ### Outlines -/

namespace Outline
variable {o o' : Outline}

theorem Within.down {lo hi : Nat} (h : o.Within lo hi) (k : Nat) : (o.down k).Within (lo + k) (hi + k) where
  blocks := by
    intro moved hmoved
    obtain ⟨b, hb, rfl⟩ := List.mem_map.mp hmoved
    obtain ⟨hstart, hbody, hstop⟩ := h.blocks b hb
    exact ⟨Nat.add_le_add_right hstart k, Nat.add_le_add_right hbody k, by simp only [TableBlock.down]; omega⟩
  skipped := by
    intro moved hmoved
    obtain ⟨skip, hskip, rfl⟩ := List.mem_map.mp hmoved
    obtain ⟨hstart, hstop⟩ := h.skipped skip hskip
    exact ⟨Nat.add_le_add_right hstart k, Nat.add_le_add_right hstop k⟩

theorem statements_append : (o.append o').statements = o.statements ++ o'.statements := List.filterMap_append

theorem allSkipped_append {lo m hi : Nat} (ho : o.Within lo m) (ho' : o'.Within (m + 1) hi) :
    (o.append o').allSkipped = o.allSkipped ++ o'.allSkipped := by
  unfold allSkipped append
  rw [List.flatMap_append]
  refine sortByLine_apart (m := m) ?_ ?_
  · exact List.forall_mem_append.mpr ⟨fun skip h => (ho.skipped skip h).2, fun skip h => (ho.leftOut h).2⟩
  · exact List.forall_mem_append.mpr ⟨fun skip h => (ho'.skipped skip h).1, fun skip h => (ho'.leftOut h).1⟩

theorem allSkipped_down (k : Nat) : (o.down k).allSkipped = o.allSkipped.map (·.down k) := by
  rw [allSkipped, allSkipped, leftOut_down, ← sortByLine_down, List.map_append]
  rfl

end Outline

/-! ### Compiling -/

/-- A text behind another one, on a new line, is compiled as on its own. -/
theorem compile_append {a : Text} (ha : IsBlank (behindBlocks a)) (b : Text) :
    compile (a ++ '\n' :: b) =
      ⟨(compile a).statements ++ (compile b).statements,
        (compile a).skipped ++ (compile b).skipped.map (·.down (Text.newlines a + 1))⟩ := by
  have hwithin := (Outline.read_within b).down (Text.newlines a + 1)
  have hbehind : 1 + (Text.newlines a + 1) = 1 + Text.newlines a + 1 := by omega
  rw [hbehind] at hwithin
  unfold compile
  rw [Outline.read_append ha]
  dsimp only
  rw [Outline.statements_append, Outline.statements_down, Outline.allSkipped_append (Outline.read_within a) hwithin,
    Outline.allSkipped_down]

/-- A malformed column and a line outside the block. -/
def firstTables : Text := "to do\nTable a \x7b id int, \x7d\n \n".toList

/-- A block without columns, an unknown constraint and text at the end. -/
def moreTables : Text := "Table b \x7b \x7d\nTable c \x7b\n id int [soon] \x7d\nTable".toList

theorem compile_append_moreTables :
    (Outline.read firstTables).skipped.map Skip.line = [1] ∧
      (Outline.read moreTables).skipped.map Skip.line = [4] ∧
      compile (firstTables ++ '\n' :: moreTables) =
        ⟨(compile firstTables).statements ++ (compile moreTables).statements,
          (compile firstTables).skipped ++
            (compile moreTables).skipped.map (·.down (Text.newlines firstTables + 1))⟩ :=
  ⟨by decide +kernel, by decide +kernel, compile_append (by decide +kernel) moreTables⟩

/-- A comment line behind the blocks of a text leaves no trace unless a block begins in it. -/
theorem compile_commentLine {a b c : Text} (ha : IsBlank (behindBlocks a)) (hc : '\n' ∉ c)
    (hblock : BlockShape.pattern.passes false c ('\n' :: b) = true) :
    compile (a ++ '\n' :: ('/' :: '/' :: c ++ '\n' :: b)) = compile (a ++ '\n' :: '\n' :: b) := by
  have hcomment : Outline.read ('/' :: '/' :: c ++ '\n' :: b) = (Outline.read b).down 1 :=
    Outline.read_comment hc hblock
  have hempty : Outline.read ('\n' :: b) = (Outline.read b).down 1 :=
    Outline.read_line List.not_mem_nil rfl rfl
  unfold compile
  rw [Outline.read_append ha, Outline.read_append ha, hcomment, hempty]

/-- A comment that holds the keyword, a name and braces, but no block. -/
def droppedTables : Text := " Table b was dropped, and so was the Table (old) { id int }".toList

theorem compile_commentLine_droppedTables :
    '\n' ∉ droppedTables ∧ BlockShape.pattern.passes false droppedTables ('\n' :: moreTables) = true ∧
      compile (firstTables ++ '\n' :: ('/' :: '/' :: droppedTables ++ '\n' :: moreTables)) =
        compile (firstTables ++ '\n' :: '\n' :: moreTables) :=
  ⟨by decide, by decide +kernel, compile_commentLine (by decide +kernel) (by decide) (by decide +kernel)⟩

/-- A block in a comment is compiled. -/
theorem compile_commentLine_block :
    (compile "Table a { id int }\n// Table b { id int }\nTable c { id int }".toList).statements.map Statement.table =
        [['a'], ['b'], ['c']] ∧
      (compile "Table a { id int }\n\nTable c { id int }".toList).statements.map Statement.table = [['a'], ['c']] := by
  decide +kernel

end Schemata
