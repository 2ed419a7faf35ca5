import Schemata.Proofs.Dialect.Entries
import Schemata.Proofs.Dialect.Lines

/-! Comments behind a line. A comment is cut off where no bracket is open, whatever it holds, and leaves what is found
    in the line as it was. Behind a line whose last bracket opens a list it is not cut off, even if no bracket ever
    closes that list. What is found in a line is all of the line but blanks and brackets, so there the comment shows. -/

namespace Schemata

/-! ### Where a comment is cut off -/

/-- Whether the last bracket of a text opens. -/
def opensBracket (s : Text) : Bool := s.foldl bracketsAfter false

/-- Behind a text that is not cut, the cutting goes on, by the brackets of the text. -/
theorem stripComment_append {b : Bool} {a s : Text} (ha : stripComment b a = a) (hs : s.head? ≠ some '/') :
    stripComment b (a ++ s) = a ++ stripComment (a.foldl bracketsAfter b) s := by
  induction a generalizing b with
  | nil => rfl
  | cons c a ih =>
    rw [stripComment] at ha
    split at ha
    · cases ha
    · rename_i hgoes
      have hstay : ¬(!b && c == '/' && (a ++ s).head? == some '/') = true := by
        cases a with
        | nil => simp [hs]
        | cons d a => exact hgoes
      rw [List.cons_append, stripComment, if_neg hstay, ih (List.cons.inj ha).2, List.foldl_cons, List.cons_append]

/-- Behind a text that is cut, nothing counts. -/
theorem stripComment_append_of_ne {b : Bool} {a : Text} (ha : stripComment b a ≠ a) (s : Text) :
    stripComment b (a ++ s) = stripComment b a := by
  induction a generalizing b with
  | nil => exact absurd rfl ha
  | cons c a ih =>
    cases a with
    | nil => exact absurd (by simp [stripComment]) ha
    | cons d a =>
      have hhead : (d :: a ++ s).head? = (d :: a).head? := rfl
      rw [stripComment] at ha
      rw [List.cons_append, stripComment, stripComment, hhead]
      split
      · rfl
      · rename_i hgoes
        rw [if_neg hgoes] at ha
        rw [ih fun h => ha (congrArg (c :: ·) h)]

/-- Where a bracket is open and none closes, nothing is cut. -/
theorem stripComment_open {s : Text} (h : ']' ∉ s) : stripComment true s = s := by
  induction s with
  | nil => rfl
  | cons c s ih =>
    obtain ⟨hc, hs⟩ := List.ne_and_not_mem_of_not_mem_cons h
    have hstay : bracketsAfter true c = true := by simp [bracketsAfter, Ne.symm hc]
    rw [stripComment, if_neg (by simp), hstay, ih hs]

/-- A comment behind a line that has none yet. -/
theorem stripComment_comment {line comment : Text} (hline : stripComment false line = line) (hclose : ']' ∉ comment) :
    stripComment false (line ++ " //" ++ comment) =
      if opensBracket line then line ++ " //" ++ comment else line ++ [' '] := by
  have hcomment : (" //" : Text) ++ comment = ' ' :: '/' :: '/' :: comment := by rw [Text.ofString_eq]; rfl
  rw [List.append_assoc, hcomment, stripComment_append hline (by simp)]
  unfold opensBracket
  cases line.foldl bracketsAfter false with
  | true => rw [stripComment_open (by simp [hclose]), if_pos rfl]
  | false => simp [stripComment, bracketsAfter]

/-! ### What is found in a line is what stands in it -/

/-- The text that a finding takes from its line. Malformed references stand in the list of their column. -/
def Finding.text : Finding → Text
  | .column c => c.name ++ c.declaredType ++ c.constraints.getD []
  | .skip ⟨.malformedColumn, _, text, _⟩ => text
  | _ => []

/-- A character that is neither blank nor a bracket. -/
structure IsSolid (x : Char) : Prop where
  notBlank : isBlank x = false
  notOpen : x ≠ '['
  notClose : x ≠ ']'

namespace Body
variable {table : Text} {x : Char}

theorem text_columnFindings (c : Column) :
    (columnFindings table c).flatMap Finding.text = c.name ++ c.declaredType ++ c.constraints.getD [] := by
  have hreferences : (c.referenceTokens.map (referenceFinding table c)).flatMap Finding.text = [] := by
    rw [List.flatMap_eq_nil_iff]
    intro f hf
    obtain ⟨token, -, rfl⟩ := List.mem_map.mp hf
    rw [referenceFinding]
    cases Reference.resolve? c.name token <;> rfl
  rw [columnFindings, List.flatMap_cons, hreferences, List.append_nil]
  rfl

theorem count_columnFindings (hx : IsSolid x) (n : Nat) {shape : ColumnShape} (h : shape.Proper) :
    ((columnFindings table (column n shape)).flatMap Finding.text).count x = shape.render.count x := by
  have hlist : ((column n shape).constraints.getD []).count x =
      (shape.list.elim [] ColumnShape.renderList).count x := by
    cases hl : shape.list with
    | none => simp [column, hl]
    | some list =>
      have hgap := Text.count_blank (h.list_gap list hl) hx.notBlank
      simp [column, hl, ColumnShape.renderList, Text.ofString_eq, Text.count_trim _ hx.notBlank, hgap,
        hx.notOpen.symm, hx.notClose.symm]
  have hname : (column n shape).name ++ (column n shape).declaredType = shape.name ++ shape.declaredType := rfl
  have hgap := Text.count_blank h.gap hx.notBlank
  rw [text_columnFindings, hname, ColumnShape.render]
  simp only [List.count_append]
  rw [hlist, hgap]
  omega

theorem count_pieceFindings (hx : IsSolid x) (n : Nat) {piece : Piece ColumnShape}
    (hproper : ∀ shape, piece = .found shape → shape.Proper) :
    ((pieceFindings table (n, piece)).flatMap Finding.text).count x =
      (ColumnShape.pattern.pieceText piece).count x := by
  cases piece with
  | passed text =>
    rw [pieceFindings, leftover]
    split
    · rename_i hblank
      exact (Text.count_blank (Text.allBlank_iff.mp hblank) hx.notBlank).symm
    · rw [List.flatMap_singleton]
      exact Text.count_trim text hx.notBlank
  | found shape => exact count_columnFindings hx n (hproper shape rfl)

/-- Of a line up to its comment nothing is lost but blanks and brackets. -/
theorem count_lineFindings (hx : IsSolid x) (n : Nat) (line : Text) :
    ((lineFindings table n (stripComment false line)).flatMap Finding.text).count x =
      (stripComment false line).count x := by
  have hproper : ∀ piece ∈ linePieces line, ∀ shape, piece = .found shape → shape.Proper := by
    rintro piece hpiece shape rfl
    obtain ⟨gap, hhit⟩ := Scan.mem_pieces_found.mp hpiece
    obtain ⟨_, _, hread⟩ := ColumnShape.pattern.read?_of_mem_hits hhit
    exact ColumnShape.proper_of_read? hread
  rw [lineFindings_eq_pieces]
  conv => rhs; rw [← ColumnShape.pattern.text_pieces false (stripComment false line)]
  change _ = ((linePieces line).flatMap ColumnShape.pattern.pieceText).count x
  generalize linePieces line = pieces at hproper
  induction pieces with
  | nil => rfl
  | cons piece pieces ih =>
    obtain ⟨hpiece, hpieces⟩ := List.forall_mem_cons.mp hproper
    rw [List.map_cons, List.flatMap_cons, List.flatMap_append, List.count_append, ih hpieces, List.flatMap_cons,
      List.count_append, count_pieceFindings hx n hpiece]

theorem linesFindings_append (n : Nat) (front back : List Text) :
    linesFindings table n (front ++ back) =
      linesFindings table n front ++ linesFindings table (n + front.length) back := by
  induction front generalizing n with
  | nil => rfl
  | cons line front ih =>
    rw [List.cons_append, linesFindings, linesFindings, ih, List.append_assoc, List.length_cons, Nat.add_right_comm,
      Nat.add_assoc]

end Body

/-! ### Comments in their body -/

namespace TableBlock
variable {b : TableBlock}

/-- The findings of a body around those of one of its lines. -/
theorem exists_findings {above below : Text} (b : TableBlock) (h : Text.AroundLine above below) :
    ∃ front n back, ∀ line : Text, '\n' ∉ line →
      { b with body := above ++ (line ++ below) }.findings =
        front ++ (Body.lineFindings b.name n (stripComment false line) ++ back) := by
  obtain ⟨front, ending, back, hending, hsplit⟩ := h.exists_splitOn
  refine ⟨Body.linesFindings b.name b.bodyLine front, b.bodyLine + front.length,
    Body.linesFindings b.name (b.bodyLine + front.length + 1) back, fun line hline => ?_⟩
  have hreturn : Body.lineFindings b.name (b.bodyLine + front.length) (stripComment false (line ++ ending)) =
      Body.lineFindings b.name (b.bodyLine + front.length) (stripComment false line) := by
    rcases hending with rfl | rfl
    · rw [List.append_nil]
    · rw [← Body.lineFindings_dropReturn]
      simp [Text.dropReturn]
  rw [findings_eq, hsplit line hline, Body.linesFindings_append, Body.linesFindings, hreturn]

/-- The entries and the skips of a body are all that is found in it. -/
theorem count_findings (b : TableBlock) (x : Char) :
    (b.findings.flatMap Finding.text).count x =
      (b.entries.flatMap Finding.text).count x + ((b.skipped.map Finding.skip).flatMap Finding.text).count x := by
  rw [skipped_eq, entries]
  generalize b.findings = findings
  induction findings with
  | nil => rfl
  | cons f findings ih =>
    rw [List.flatMap_cons, List.count_append, ih]
    cases f with
    | column c | reference r =>
      rw [List.filter_cons_of_pos (by rfl), List.filterMap_cons_none rfl, List.flatMap_cons, List.count_append,
        Nat.add_assoc]
    | skip s =>
      have hskip : (Finding.skip s).skip? = some s := rfl
      rw [List.filter_cons_of_neg (by simp [hskip]), List.filterMap_cons_some hskip, List.map_cons, List.flatMap_cons,
        List.count_append, Nat.add_left_comm]

theorem inert_iff_of_aroundLine {above line below comment : Text} (h : Text.AroundLine above below)
    (hline : '\n' ∉ line) (hbody : b.body = above ++ (line ++ below)) (hfeed : '\n' ∉ comment)
    (hclose : ']' ∉ comment) :
    { b with body := above ++ (line ++ " //" ++ comment ++ below) }.entries = b.entries ∧
        { b with body := above ++ (line ++ " //" ++ comment ++ below) }.skipped = b.skipped ↔
      stripComment false line ≠ line ∨ opensBracket line = false := by
  have hlonger : '\n' ∉ line ++ " //" ++ comment := by simp [Text.ofString_eq, hline, hfeed]
  obtain ⟨front, n, back, hfindings⟩ := exists_findings b h
  have hold : b.findings = front ++ (Body.lineFindings b.name n (stripComment false line) ++ back) := by
    rw [← hfindings line hline, ← hbody]
  have hnew := hfindings _ hlonger
  generalize { b with body := above ++ (line ++ " //" ++ comment ++ below) } = b' at hnew ⊢
  have hinert : b'.findings = b.findings → b'.entries = b.entries ∧ b'.skipped = b.skipped := fun h => by
    rw [entries, entries, skipped_eq, skipped_eq, h]
    exact ⟨rfl, rfl⟩
  by_cases hcut : stripComment false line = line
  · have hstrip := stripComment_comment hcut hclose
    cases hopen : opensBracket line with
    | false =>
      rw [hopen, if_neg Bool.false_ne_true] at hstrip
      rw [hstrip, Body.lineFindings_snoc (by decide)] at hnew
      rw [hcut] at hold
      exact iff_of_true (hinert (hnew.trans hold.symm)) (.inr rfl)
    | true =>
      -- The slashes of the comment stand somewhere in what is found.
      refine iff_of_false ?_ (by simp [hcut])
      rintro ⟨hentries, hskipped⟩
      have hslash : IsSolid '/' := by constructor <;> decide
      have hcount := count_findings b '/'
      rw [← hentries, ← hskipped, ← count_findings, hold, hnew] at hcount
      simp only [List.flatMap_append, List.count_append, Body.count_lineFindings hslash] at hcount
      rw [hstrip, hopen, if_pos rfl, hcut] at hcount
      simp [Text.ofString_eq] at hcount
  · have hstrip : stripComment false (line ++ " //" ++ comment) = stripComment false line := by
      rw [List.append_assoc, stripComment_append_of_ne hcut]
    rw [hstrip, ← hold] at hnew
    exact iff_of_true (hinert hnew) (.inl hcut)

/-- A comment that closes no bracket, put behind a line of a body, leaves the entries and the skips as they are if and
    only if the line has a comment already or its last bracket does not open. -/
theorem comment_inert_iff {k : Nat} {line : Text} (h : (Text.lines b.body)[k]? = some line) :
    ∃ above below, b.body = above ++ (line ++ below) ∧ Text.newlines above = k ∧ Text.AroundLine above below ∧
      ∀ comment : Text, '\n' ∉ comment → ']' ∉ comment →
        ({ b with body := above ++ (line ++ " //" ++ comment ++ below) }.entries = b.entries ∧
            { b with body := above ++ (line ++ " //" ++ comment ++ below) }.skipped = b.skipped ↔
          stripComment false line ≠ line ∨ opensBracket line = false) := by
  obtain ⟨above, below, hbody, hcount, haround, hline⟩ := Text.exists_aroundLine h
  exact ⟨above, below, hbody, hcount, haround, fun comment hfeed hclose =>
    inert_iff_of_aroundLine haround hline hbody hfeed hclose⟩

theorem comment_inert_iff_malformed :
    let b : TableBlock := ⟨['t'], "id int [pk]\r\n[note] x [a] // [old\n".toList, 1, 1⟩
    let line : Text := "[note] x [a] // [old".toList
    ∃ above below, b.body = above ++ (line ++ below) ∧
      { b with body := above ++ (line ++ " //" ++ " [new".toList ++ below) }.entries = b.entries ∧
      { b with body := above ++ (line ++ " //" ++ " [new".toList ++ below) }.skipped = b.skipped := by
  intro b line
  have hline : (Text.lines b.body)[1]? = some line := by decide
  obtain ⟨above, below, hbody, -, -, hinert⟩ := comment_inert_iff hline
  exact ⟨above, below, hbody, (hinert " [new".toList (by decide) (by decide)).mpr (.inl (by decide))⟩

/-- Behind a list that stays open the comment becomes a column. -/
theorem comment_inert_iff_openList :
    let b : TableBlock := ⟨['t'], "id int [pk".toList, 1, 1⟩
    let b' : TableBlock := ⟨['t'], "id int [pk // the key".toList, 1, 1⟩
    b.entries = [.column ⟨"id".toList, "int".toList, none, 1⟩] ∧
      b'.entries = [.column ⟨"id".toList, "int".toList, none, 1⟩, .column ⟨"the".toList, "key".toList, none, 1⟩] ∧
      b.skipped.map Skip.text = ["[pk".toList] ∧ b'.skipped.map Skip.text = ["[pk //".toList] := by
  decide +kernel

end TableBlock
end Schemata
