import Mathlib.Data.List.Basic
import Schemata.Proofs.Ddl.Places
import Schemata.Proofs.Dialect.Gaps
import Schemata.Proofs.Text.Returns

/-! Line endings do not matter. A schema text in which every line feed has a carriage return in front of it holds the
    same blocks, and their lines are the same. So it gives the same statements, and leaves out the same on the same
    lines; only a stretch outside the blocks that is skipped over several lines shows its carriage returns. -/

namespace Schemata

/-! ### Blocks -/

namespace BlockShape

def withReturns (b : BlockShape) : BlockShape :=
  ⟨Text.withReturns b.lead, Text.withReturns b.name, Text.withReturns b.gap, Text.withReturns b.body⟩

theorem header_withReturns (b : BlockShape) : b.withReturns.header = Text.withReturns b.header := by
  have hkeyword : Text.withReturns "Table" = "Table" := by
    rw [Text.ofString_eq]
    decide
  have hopen : Text.withReturns "\x7b" = "\x7b" := by
    rw [Text.ofString_eq]
    decide
  simp only [header, withReturns, Text.withReturns_append, hkeyword, hopen]

theorem render_withReturns (b : BlockShape) : b.withReturns.render = Text.withReturns b.render := by
  have hclose : Text.withReturns "\x7d" = "\x7d" := by
    rw [Text.ofString_eq]
    decide
  simp only [render, header_withReturns, Text.withReturns_append, hclose]
  rfl

theorem read?_withReturns (afterWord : Bool) (s : Text) :
    read? afterWord (Text.withReturns s) =
      (read? afterWord s).map fun (b, r) => (b.withReturns, Text.withReturns r) := by
  have hkeyword : '\r' ∉ ("Table" : Text) ∧ '\n' ∉ ("Table" : Text) := by
    rw [Text.ofString_eq]
    decide
  have hopen : '\r' ∉ ("\x7b" : Text) ∧ '\n' ∉ ("\x7b" : Text) := by
    rw [Text.ofString_eq]
    decide
  have hblank : isBlank '\r' = isBlank '\n' := by decide
  have hword : isWord '\r' = isWord '\n' := by decide
  unfold read?
  rw [Text.dropPrefix?_withReturns hkeyword.1 hkeyword.2]
  cases Text.dropPrefix? "Table" s with
  | none => rfl
  | some k =>
    simp only [Option.bind_eq_bind, Option.map_some, Option.bind_some, Text.dropWhile_withReturns hblank,
      Text.dropWhile_withReturns hword, Text.takeWhile_withReturns hblank, Text.takeWhile_withReturns hword,
      Text.isEmpty_withReturns, Text.dropPrefix?_withReturns hopen.1 hopen.2]
    cases Text.dropPrefix? "\x7b" (((k.dropWhile isBlank).dropWhile isWord).dropWhile isBlank) with
    | none => rfl
    | some inside =>
      simp only [Option.map_some, Option.bind_some,
        Text.cut?_withReturns (c := '}') (by decide) (by decide) inside]
      cases Text.cut? '}' inside with
      | none => rfl
      | some cut =>
        simp only [Option.map_some, Option.bind_some]
        split <;> rfl

theorem pattern_keepsReturns : pattern.KeepsReturns withReturns where
  skipsBlanks := pattern_skipsBlanks
  read? := read?_withReturns
  render := render_withReturns

end BlockShape

/-- The block as it stands in the text with carriage returns. -/
def TableBlock.withReturns (b : TableBlock) : TableBlock :=
  { b with name := Text.withReturns b.name, body := Text.withReturns b.body }

/-! ### Skips -/

def Skip.withReturns (skip : Skip) : Skip := { skip with text := Text.withReturns skip.text }

theorem linesSkip?_returned {parts : List Text} (h : ∀ line ∈ parts, '\n' ∉ line) (n : Nat) :
    linesSkip? n (Text.returned parts) = (linesSkip? n parts).map Skip.withReturns := by
  have hskip : ∀ (n : Nat) (parts : List Text), (∀ line ∈ parts, '\n' ∉ line) →
      (⟨.unrecognizedBlock, n, Text.trim (Text.join "\n" (Text.returned parts)), none⟩ : Skip) =
        Skip.withReturns ⟨.unrecognizedBlock, n, Text.trim (Text.join "\n" parts), none⟩ := fun n parts hparts => by
    rw [Text.join_returned hparts, Text.trim_withReturns]
    rfl
  induction parts generalizing n with
  | nil => rfl
  | cons line rest ih =>
    rcases rest with _ | ⟨line', rest⟩
    · rw [Text.returned, linesSkip?]
      split
      · rfl
      · exact congrArg some (hskip n [line] h)
    · have hpass : passesOutside (line ++ ['\r']) = passesOutside line :=
        passesOutside_trim (Text.trim_append_blank (by decide) line)
      have hreturned := Text.returned_cons (List.cons_ne_nil line' rest) line
      have hfirst := hskip n _ h
      rw [hreturned] at hfirst ⊢
      rw [linesSkip?, linesSkip?, hpass, ih (List.forall_mem_cons.mp h).2, hfirst]
      split <;> rfl

theorem gapSkip?_withReturns (n : Nat) (gap : Text) :
    gapSkip? n (Text.withReturns gap) = (gapSkip? n gap).map Skip.withReturns := by
  rw [gapSkip?_eq_linesSkip?, gapSkip?_eq_linesSkip?, Text.splitOn_withReturns]
  exact linesSkip?_returned (fun line hline => Text.not_mem_of_mem_splitOn hline) n

/-! ### Outlines -/

namespace Outline

theorem place_withReturns (n : Nat) (hits : List (Text × BlockShape)) (tail : Text) :
    place n (hits.map fun (gap, shape) => (Text.withReturns gap, shape.withReturns)) (Text.withReturns tail) =
      ⟨(place n hits tail).blocks.map TableBlock.withReturns, (place n hits tail).skipped.map Skip.withReturns⟩ := by
  have hgaps : ∀ (n : Nat) gap, (gapSkip? n (Text.withReturns gap)).toList =
      (gapSkip? n gap).toList.map Skip.withReturns := fun n gap => by
    rw [gapSkip?_withReturns]
    cases gapSkip? n gap <;> rfl
  induction hits generalizing n with
  | nil => simp only [List.map_nil, place, hgaps]
  | cons hit hits ih =>
    obtain ⟨gap, shape⟩ := hit
    simp only [List.map_cons, List.map_append, place, hgaps, ih, BlockShape.header_withReturns,
      BlockShape.render_withReturns, Text.newlines_withReturns]
    rfl

theorem read_withReturns (s : Text) :
    read (Text.withReturns s) =
      ⟨(read s).blocks.map TableBlock.withReturns, (read s).skipped.map Skip.withReturns⟩ := by
  unfold read
  rw [BlockShape.pattern_keepsReturns.scan]
  exact place_withReturns _ _ _

end Outline

/-! ### What a block gives -/

namespace TableBlock
variable {s : Text} {b : TableBlock}

theorem name_single (hb : b ∈ (Outline.read s).blocks) : '\n' ∉ b.name := fun hm =>
  absurd ((Outline.isName_of_mem_blocks hb).word _ hm) (by decide)

/-- The lines of a body are the same, and so is all that is found in them. -/
theorem findings_withReturns (h : '\r' ∉ s) (hb : b ∈ (Outline.read s).blocks) :
    b.withReturns.findings = b.findings := by
  have hbody : '\r' ∉ b.body := fun hm => by
    obtain ⟨before, behind, hs, -⟩ := Outline.holds_body hb
    exact h (hs ▸ List.mem_append_right _ (List.mem_append_left _ hm))
  have hname : b.withReturns.name = b.name := Text.withReturns_eq_self (name_single hb)
  unfold findings
  rw [hname]
  exact congrArg (Body.linesFindings b.name b.bodyLine) (Text.lines_withReturns hbody)

theorem statement?_withReturns (h : '\r' ∉ s) (hb : b ∈ (Outline.read s).blocks) :
    b.withReturns.statement? = b.statement? := by
  have hname : b.withReturns.name = b.name := Text.withReturns_eq_self (name_single hb)
  rw [statement?, statement?, columns, references, findings_withReturns h hb, hname]
  rfl

theorem leftOut_withReturns (h : '\r' ∉ s) (hb : b ∈ (Outline.read s).blocks) :
    b.withReturns.leftOut = b.leftOut := by
  have hname : b.withReturns.name = b.name := Text.withReturns_eq_self (name_single hb)
  have hline : b.withReturns.line = b.line := rfl
  rw [leftOut, leftOut, skipped, unknownConstraints, emptySkip, columns, findings_withReturns h hb,
    statement?_withReturns h hb, hname, hline]
  rfl

/-- What a block leaves out stands on one line. -/
theorem single_of_mem_leftOut (hb : b ∈ (Outline.read s).blocks) {skip : Skip} (hskip : skip ∈ b.leftOut) :
    '\n' ∉ skip.text := by
  rcases holdsSkip_of_mem_leftOut hskip with ⟨-, hholds⟩ | ⟨-, rfl⟩
  · obtain ⟨line, hline, hinside⟩ := hholds.line
    exact fun hm => hline.single (hinside.subset hm)
  · have hkeyword : '\n' ∉ ("Table " : Text) := by
      rw [Text.ofString_eq]
      decide
    exact fun hm => (List.mem_append.mp hm).elim hkeyword (name_single hb)

end TableBlock

/-! ### Compiling -/

theorem sortByLine_withReturns (skips : List Skip) :
    sortByLine (skips.map Skip.withReturns) = (sortByLine skips).map Skip.withReturns := by
  refine (List.map_mergeSort fun a _ b _ => ?_).symm
  rfl

/-- A text with a carriage return in front of each line feed gives the same statements as the text without, and leaves
    out the same on the same lines, in texts that differ in their line endings only. -/
theorem compile_withReturns {s : Text} (h : '\r' ∉ s) :
    compile (Text.withReturns s) = ⟨(compile s).statements, (compile s).skipped.map Skip.withReturns⟩ := by
  have hstatements : ((Outline.read s).blocks.map TableBlock.withReturns).filterMap TableBlock.statement? =
      (Outline.read s).blocks.filterMap TableBlock.statement? := by
    rw [List.filterMap_map]
    exact List.filterMap_congr fun b hb => TableBlock.statement?_withReturns h hb
  have hleftOut : ((Outline.read s).blocks.map TableBlock.withReturns).flatMap TableBlock.leftOut =
      ((Outline.read s).blocks.flatMap TableBlock.leftOut).map Skip.withReturns := by
    rw [List.flatMap_map, List.map_flatMap]
    refine List.flatMap_congr fun b hb => ?_
    have hsame : ∀ skip ∈ b.leftOut, skip.withReturns = id skip := fun skip hskip => by
      rw [Skip.withReturns, Text.withReturns_eq_self (TableBlock.single_of_mem_leftOut hb hskip)]
      rfl
    rw [TableBlock.leftOut_withReturns h hb, List.map_congr_left hsame, List.map_id]
  unfold compile
  rw [Outline.read_withReturns]
  dsimp only [Outline.statements, Outline.allSkipped]
  rw [hstatements, hleftOut, ← List.map_append, sortByLine_withReturns]

/-- A stretch and a header over several lines, a comment, a malformed line, and a block without columns. -/
def manyLines : Text :=
  "to do:\n more\n// soon\nTable\n a\n\n\x7b\n id int [key] //first\n\n stray\n\x7d\nTable b\x7b\n\x7d\n\nEnum c".toList

theorem compile_withReturns_manyLines :
    '\r' ∉ manyLines ∧
      (Outline.read manyLines).skipped.map (fun skip => (skip.line, skip.text)) =
        [(1, "to do:\n more\n// soon".toList), (15, "Enum c".toList)] ∧
      ((Outline.read manyLines).blocks.flatMap TableBlock.leftOut).map (fun skip => (skip.line, skip.text)) =
        [(10, "stray".toList), (8, "key".toList), (12, "Table b".toList)] ∧
      compile (Text.withReturns manyLines) =
        ⟨(compile manyLines).statements, (compile manyLines).skipped.map Skip.withReturns⟩ :=
  ⟨by decide, by decide +kernel, by decide +kernel, compile_withReturns (by decide)⟩

end Schemata
