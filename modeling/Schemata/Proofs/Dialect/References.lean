import Mathlib.Data.List.Basic
import Schemata.Proofs.Dialect.Fate
import Schemata.Proofs.Text.Places

/-! The grammar of references. Behind the key `ref` and the first colon stand a marker, blanks at most, and a table and
    a column with a dot between them. The marker `<` begins the marker `<>`, but no blank and no name begins with `>`,
    so no text is read in two ways. The reader of references looks for the key at the front of a token, the reader of
    constraints before the first colon: both find it in the same tokens. -/

namespace Schemata

/-! ### Markers -/

namespace Direction

theorem ofMarker?_eq_some_iff {m : Text} {d : Direction} : ofMarker? m = some d ↔ d.marker = m := by
  constructor
  · intro h
    exact beq_iff_eq.mp (List.find?_some (p := fun d : Direction => d.marker == m) h)
  · rintro rfl
    cases d <;> decide +kernel

theorem marker_append_of_read? {s r : Text} {d : Direction} (h : read? s = some (d, r)) : d.marker ++ r = s := by
  unfold read? at h
  split at h <;> cases h <;> simp [marker, Text.ofString_eq]

/-- A marker is read as it is unless the text behind it makes it longer. -/
theorem read?_marker (d : Direction) {s : Text} (h : Text.Stops (· == '>') s) :
    read? (d.marker ++ s) = some (d, s) := by
  cases d with
  | oneToMany =>
    simp only [marker, Text.ofString_eq]
    show read? ('<' :: s) = some (oneToMany, s)
    rw [read?]
    rintro r rfl
    exact absurd (Text.stops_cons.mp h) (by decide)
  | manyToOne | oneToOne | manyToMany =>
    simp only [marker, Text.ofString_eq]
    rfl

theorem stops_blank_marker (d : Direction) (s : Text) : Text.Stops isBlank (d.marker ++ s) := by
  cases d <;> simp only [marker, Text.ofString_eq] <;> exact Text.stops_cons.mpr (by decide)

end Direction

/-! ### What is written behind the key -/

/-- What may be written behind the key of a reference. -/
structure ReferenceLayout where
  marker : Text
  direction : Direction
  gap : Text
  table : Text
  column : Text
  marker_direction : Direction.ofMarker? marker = some direction
  gap_blank : IsBlank gap
  table_isName : IsName table
  column_isName : IsName column

namespace ReferenceLayout
variable (l : ReferenceLayout)

def target : Text := l.table ++ '.' :: l.column

def text : Text := l.marker ++ (l.gap ++ l.target)

def reference (localColumn : Text) : Reference := ⟨localColumn, l.direction, l.table, l.column⟩

theorem marker_eq : l.marker = l.direction.marker := (Direction.ofMarker?_eq_some_iff.mp l.marker_direction).symm

theorem stops_blank_target : Text.Stops isBlank l.target := Text.stops_blank_name l.table_isName

theorem read?_text : Direction.read? l.text = some (l.direction, l.gap ++ l.target) := by
  rw [text, marker_eq]
  refine Direction.read?_marker _ fun c hc => ?_
  have hplain : isBlank c = true ∨ isWord c = true := by
    rcases hgap : l.gap with _ | ⟨x, gap⟩
    · obtain ⟨y, table, htable⟩ := List.exists_cons_of_ne_nil l.table_isName.ne_nil
      rw [hgap, target, htable] at hc
      cases hc
      exact .inr (l.table_isName.word _ (htable ▸ List.mem_cons_self))
    · rw [hgap] at hc
      cases hc
      exact .inl (l.gap_blank _ (hgap ▸ List.mem_cons_self))
  rw [beq_eq_false_iff_ne]
  rintro rfl
  revert hplain
  decide

/-- No text has two layouts. -/
theorem text_injective {l l' : ReferenceLayout} (h : l.text = l'.text) : l = l' := by
  have hread := l.read?_text
  rw [h, l'.read?_text, Option.some_inj, Prod.mk.injEq] at hread
  obtain ⟨hdirection, hbehind⟩ := hread
  have hmarker : l'.marker = l.marker := by rw [marker_eq, marker_eq, hdirection]
  have hgap : l'.gap = l.gap := by
    have htake := congrArg (List.takeWhile isBlank) hbehind
    rwa [Text.takeWhile_run l'.gap_blank l'.stops_blank_target,
      Text.takeWhile_run l.gap_blank l.stops_blank_target] at htake
  have htarget : l'.target = l.target := by
    have hdrop := congrArg (List.dropWhile isBlank) hbehind
    rwa [Text.dropWhile_run l'.gap_blank l'.stops_blank_target,
      Text.dropWhile_run l.gap_blank l.stops_blank_target] at hdrop
  have hdot : ∀ column, Text.Stops isWord ('.' :: column) := fun column => Text.stops_cons.mpr (by decide)
  have htable : l'.table = l.table := by
    have htake := congrArg (List.takeWhile isWord) htarget
    rwa [target, target, Text.takeWhile_run l'.table_isName.word (hdot _),
      Text.takeWhile_run l.table_isName.word (hdot _)] at htake
  have hcolumn : l'.column = l.column := by
    rw [target, target, htable] at htarget
    exact (List.cons.inj (List.append_cancel_left htarget)).2
  cases l
  cases l'
  simp_all

end ReferenceLayout

namespace Reference

theorem readTarget?_eq_some_iff {s table column : Text} :
    readTarget? s = some (table, column) ↔ IsName table ∧ IsName column ∧ table ++ '.' :: column = s := by
  constructor
  · intro h
    obtain ⟨htable, hcolumn⟩ := readTarget?_isName h
    refine ⟨htable, hcolumn, ?_⟩
    unfold readTarget? at h
    split at h
    · rename_i hdot
      split at h
      · cases h
      · cases h
        rw [← hdot, List.takeWhile_append_dropWhile]
    · cases h
  · rintro ⟨htable, hcolumn, rfl⟩
    have hdot : Text.Stops isWord ('.' :: column) := Text.stops_cons.mpr (by decide)
    rw [readTarget?, Text.takeWhile_run htable.word hdot, Text.dropWhile_run htable.word hdot]
    simpa [htable.ne_nil, hcolumn.ne_nil] using hcolumn.word

/-- Reads a reference behind its key, from the marker on. -/
def readBody? (localColumn s : Text) : Option Reference := do
  let (direction, s) ← Direction.read? s
  let (table, column) ← readTarget? (s.dropWhile isBlank)
  some ⟨localColumn, direction, table, column⟩

theorem readBody?_eq_some_iff {localColumn s : Text} {r : Reference} :
    readBody? localColumn s = some r ↔ ∃ l : ReferenceLayout, l.text = s ∧ l.reference localColumn = r := by
  constructor
  · intro h
    simp only [readBody?, Option.bind_eq_bind, Option.bind_eq_some_iff] at h
    obtain ⟨⟨direction, behind⟩, hdirection, ⟨table, column⟩, htarget, h⟩ := h
    obtain ⟨htable, hcolumn, hbehind⟩ := readTarget?_eq_some_iff.mp htarget
    refine ⟨⟨direction.marker, direction, behind.takeWhile isBlank, table, column,
      Direction.ofMarker?_eq_some_iff.mpr rfl, Text.isBlank_takeWhile behind, htable, hcolumn⟩, ?_, Option.some.inj h⟩
    rw [ReferenceLayout.text, ReferenceLayout.target]
    dsimp only
    rw [hbehind, List.takeWhile_append_dropWhile, Direction.marker_append_of_read? hdirection]
  · rintro ⟨l, rfl, rfl⟩
    have htarget : readTarget? l.target = some (l.table, l.column) :=
      readTarget?_eq_some_iff.mpr ⟨l.table_isName, l.column_isName, rfl⟩
    rw [readBody?, l.read?_text, Option.bind_eq_bind, Option.bind_some]
    dsimp only
    rw [Text.dropWhile_run l.gap_blank l.stops_blank_target, htarget]
    rfl

end Reference

/-! ### The key -/

/-- A character that is its own lower case stands in both of two texts that are equal up to case. -/
theorem Text.mem_lower_of_sameFolded {a b : Text} {c : Char} (h : sameFolded a b = true) (hc : c.toLower = c)
    (hm : c ∈ a) : c ∈ lower b := by
  have hlower : lower a = lower b := beq_iff_eq.mp h
  exact hlower ▸ hc ▸ List.mem_map_of_mem hm

/-- The key `ref`, in any case, holds neither colons nor blanks. -/
theorem Text.solid_of_sameFolded {key : Text} (h : sameFolded key "ref" = true) : ':' ∉ key ∧ IsSolid key := by
  have hletters : (lower "ref").all (fun c => c != ':' && !isBlank c) = true := by decide +kernel
  refine ⟨fun hm => ?_, ?_, fun c hc => ?_⟩
  · have hletter := List.all_eq_true.mp hletters ':' (mem_lower_of_sameFolded h (by decide) hm)
    cases hletter
  · rintro rfl
    revert h
    decide +kernel
  · by_contra hblank
    have hblank : isBlank c = true := by simpa using hblank
    have hletter := List.all_eq_true.mp hletters c (mem_lower_of_sameFolded h (toLower_of_isBlank hblank) hc)
    simp [hblank] at hletter

theorem Text.IsSolid.stops {w : Text} (h : IsSolid w) (s : Text) : Stops isBlank (w ++ s) := by
  obtain ⟨c, w, rfl⟩ := List.exists_cons_of_ne_nil h.1
  exact stops_cons.mpr (h.2 c List.mem_cons_self)

theorem Text.IsSolid.reverse {w : Text} (h : IsSolid w) : IsSolid w.reverse := by
  simpa [IsSolid] using h

theorem IsName.isSolid {s : Text} (h : IsName s) : Text.IsSolid s :=
  ⟨h.ne_nil, fun c hc => isBlank_of_isWord (h.word c hc)⟩

/-- A text without blanks is not trimmed. -/
theorem Text.IsSolid.trim {w : Text} (h : IsSolid w) : trim w = w := by
  have hstart := h.stops []
  have hend := h.reverse.stops []
  rw [List.append_nil] at hstart hend
  exact trim_eq_self hstart hend

namespace ReferenceLayout
variable (l : ReferenceLayout)

theorem stops_blank_text (s : Text) : Text.Stops isBlank (l.text ++ s) := by
  rw [text, marker_eq, List.append_assoc]
  exact l.direction.stops_blank_marker _

theorem stops_blank_reverse (s : Text) : Text.Stops isBlank (l.text.reverse ++ s) := by
  simp only [text, target, List.reverse_append, List.reverse_cons, List.append_assoc]
  exact l.column_isName.isSolid.reverse.stops _

theorem trim_text : Text.trim l.text = l.text := by
  have hstart := l.stops_blank_text []
  have hend := l.stops_blank_reverse []
  rw [List.append_nil] at hstart hend
  exact Text.trim_eq_self hstart hend

end ReferenceLayout

namespace Reference

/-- A token resolves if it begins with the key and a colon, with blanks at most around the two. -/
theorem resolve?_eq_some_iff {localColumn token : Text} {r : Reference} :
    resolve? localColumn token = some r ↔
      ∃ key gap rest, Text.trim token = key ++ (gap ++ ':' :: rest) ∧ Text.sameFolded key "ref" = true ∧
        IsBlank gap ∧ readBody? localColumn (rest.dropWhile isBlank) = some r := by
  constructor
  · intro h
    unfold resolve? at h
    split at h
    · rename_i x y z s htrim
      split at h
      · rename_i hkey
        split at h
        · rename_i rest hcolon
          refine ⟨[x, y, z], s.takeWhile isBlank, rest, ?_, hkey, Text.isBlank_takeWhile s, h⟩
          rw [htrim, ← hcolon, List.takeWhile_append_dropWhile]
          rfl
        · cases h
      · cases h
    · cases h
  · rintro ⟨key, gap, rest, htrim, hkey, hgap, hbody⟩
    obtain ⟨x, y, z, rfl⟩ : ∃ x y z, key = [x, y, z] := by
      have hlength := congrArg List.length (beq_iff_eq.mp hkey)
      simp only [Text.lower, List.length_map, Text.ofString_eq] at hlength
      exact List.length_eq_three.mp hlength
    have hcolon : Text.Stops isBlank (':' :: rest) := Text.stops_cons.mpr (by decide)
    rw [resolve?, htrim]
    simp only [List.cons_append, List.nil_append, hkey, if_true, Text.dropWhile_run hgap hcolon]
    exact hbody

/-- What stands behind the first colon of a token, trimmed. -/
def behindKey? (token : Text) : Option Text := (Text.cut? ':' token).map fun (_, value) => Text.trim value

/-- The key at the front of a trimmed token is what stands before its first colon. -/
theorem isToken_of_trim {token key gap rest : Text} (htrim : Text.trim token = key ++ (gap ++ ':' :: rest))
    (hkey : Text.sameFolded key "ref" = true) (hgap : IsBlank gap) :
    isToken token = true ∧ behindKey? token = some (Text.trim rest) := by
  obtain ⟨hcolon, hsolid⟩ := Text.solid_of_sameFolded hkey
  obtain ⟨behind, hbehind, htoken⟩ := Text.exists_append_trim token
  have hbefore : IsBlank (token.takeWhile isBlank) := Text.isBlank_takeWhile token
  generalize token.takeWhile isBlank = before at hbefore htoken
  -- Around the key stand only blanks, up to the first colon.
  have hfree : ':' ∉ before ++ (key ++ gap) := by
    intro hm
    rcases List.mem_append.mp hm with hm | hm
    · exact absurd (hbefore _ hm) (by decide)
    · rcases List.mem_append.mp hm with hm | hm
      · exact hcolon hm
      · exact absurd (hgap _ hm) (by decide)
  have hsplit : before ++ (key ++ gap) ++ ':' :: (rest ++ behind) = token := by
    rw [← htoken, htrim]
    simp only [List.append_assoc, List.cons_append]
  have hcut : Text.cut? ':' token = some (before ++ (key ++ gap), rest ++ behind) := by
    rw [← hsplit]
    exact Text.cut?_append hfree _
  constructor
  · rw [isToken, hcut]
    dsimp only
    rw [Text.trim_blank_append hbefore, Text.trim_append_blank hgap, hsolid.trim, hkey]
  · rw [behindKey?, hcut]
    exact congrArg some (Text.trim_append_blank hbehind rest)

/-- A token with the key `ref` has it at its front. -/
theorem trim_of_isToken {token : Text} {l : ReferenceLayout} (hkey : isToken token = true)
    (hbehind : behindKey? token = some l.text) :
    ∃ key gap gap', Text.trim token = key ++ (gap ++ ':' :: (gap' ++ l.text)) ∧ Text.sameFolded key "ref" = true ∧
      IsBlank gap ∧ IsBlank gap' := by
  obtain ⟨⟨written, value⟩, hcut, hvalue⟩ := Option.map_eq_some_iff.mp hbehind
  dsimp only at hvalue
  rw [isToken, hcut] at hkey
  dsimp only at hkey
  obtain ⟨gap, hgap, hwritten⟩ := Text.exists_append_trim written
  obtain ⟨behind, hblank, hbody⟩ := Text.exists_append_trim value
  obtain ⟨-, hsolid⟩ := Text.solid_of_sameFolded hkey
  refine ⟨Text.trim written, gap, value.takeWhile isBlank, ?_, hkey, hgap, Text.isBlank_takeWhile value⟩
  rw [hvalue] at hbody
  have htoken : token = written.takeWhile isBlank ++
      (Text.trim written ++ (gap ++ ':' :: (value.takeWhile isBlank ++ l.text)) ++ behind) := by
    conv => lhs; rw [← Text.append_cut? hcut, ← hwritten, ← hbody]
    simp
  conv => lhs; rw [htoken]
  rw [Text.trim_blank_append (Text.isBlank_takeWhile written), Text.trim_append_blank hblank]
  refine Text.trim_eq_self (hsolid.stops _) ?_
  simp only [List.reverse_append, List.reverse_cons, List.append_assoc]
  exact l.stops_blank_reverse _

/-- What resolves are the tokens with the key `ref` and a layout behind it. -/
theorem resolve?_iff {localColumn token : Text} {r : Reference} :
    resolve? localColumn token = some r ↔
      isToken token = true ∧ ∃ l : ReferenceLayout, behindKey? token = some l.text ∧ l.reference localColumn = r := by
  rw [resolve?_eq_some_iff]
  constructor
  · rintro ⟨key, gap, rest, htrim, hkey, hgap, hbody⟩
    obtain ⟨htoken, hbehind⟩ := isToken_of_trim htrim hkey hgap
    obtain ⟨l, htext, hreference⟩ := readBody?_eq_some_iff.mp hbody
    have hrest : Text.trim rest = l.text := by
      rw [← List.takeWhile_append_dropWhile (p := isBlank) (l := rest), ← htext,
        Text.trim_blank_append (Text.isBlank_takeWhile rest), l.trim_text]
    exact ⟨htoken, l, by rw [hbehind, hrest], hreference⟩
  · rintro ⟨htoken, l, hbehind, hreference⟩
    obtain ⟨key, gap, gap', htrim, hkey, hgap, hgap'⟩ := trim_of_isToken htoken hbehind
    have hstop := l.stops_blank_text []
    rw [List.append_nil] at hstop
    refine ⟨key, gap, gap' ++ l.text, htrim, hkey, hgap, readBody?_eq_some_iff.mpr ⟨l, ?_, hreference⟩⟩
    rw [Text.dropWhile_run hgap' hstop]

theorem isToken_of_resolve? {localColumn token : Text} {r : Reference} (h : resolve? localColumn token = some r) :
    isToken token = true := (resolve?_iff.mp h).1

/-! ### References as they are printed -/

def written (r : Reference) : Text := "ref: " ++ r.direction.marker ++ " " ++ r.remoteTable ++ "." ++ r.remoteColumn

theorem resolve?_written {r : Reference} (htable : IsName r.remoteTable) (hcolumn : IsName r.remoteColumn) :
    resolve? r.localColumn r.written = some r := by
  let l : ReferenceLayout := ⟨r.direction.marker, r.direction, [' '], r.remoteTable, r.remoteColumn,
    Direction.ofMarker?_eq_some_iff.mpr rfl, by decide, htable, hcolumn⟩
  have htext : r.written = "ref".toList ++ ':' :: ([' '] ++ l.text) := by
    simp [written, l, ReferenceLayout.text, ReferenceLayout.target, Text.ofString_eq]
  have hcut : Text.cut? ':' r.written = some ("ref".toList, [' '] ++ l.text) := by
    rw [htext]
    exact Text.cut?_append (by decide) _
  have hbehind : behindKey? r.written = some l.text := by
    rw [behindKey?, hcut, Option.map_some]
    dsimp only
    rw [Text.trim_blank_append (by decide), l.trim_text]
  have hkey : isToken r.written = true := by
    have hsame : Text.sameFolded (Text.trim "ref".toList) "ref" = true := by decide +kernel
    rw [isToken, hcut]
    exact hsame
  exact resolve?_iff.mpr ⟨hkey, l, hbehind, rfl⟩

end Reference

theorem ConstraintToken.classify_eq_reference_iff {token text : Text} :
    classify token = reference text ↔ Reference.isToken token = true ∧ text = token := by
  cases hkey : Reference.isToken token with
  | true => simp [classify_of_isToken hkey, eq_comm]
  | false =>
    rcases classify_cases hkey with hclassify | hclassify
    · refine iff_of_false (fun h => ?_) (by simp)
      rw [h] at hclassify
      cases hclassify
    · simp [hclassify]

/-- The reader of references takes the tokens with the key `ref` and one layout behind the first colon, whose marker
    leaves no trace in the clause; what is printed is read back; and exactly the tokens with this key are references to
    the reader of constraints. -/
theorem Reference.resolve?_grammar (localColumn token : Text) :
    (∀ r, resolve? localColumn token = some r ↔
      isToken token = true ∧ ∃ l : ReferenceLayout, behindKey? token = some l.text ∧ l.reference localColumn = r) ∧
    (∀ l l' : ReferenceLayout, behindKey? token = some l.text → behindKey? token = some l'.text → l = l') ∧
    (∀ l l' : ReferenceLayout, l.table = l'.table → l.column = l'.column →
      (l.reference localColumn).clause = (l'.reference localColumn).clause) ∧
    (∀ r : Reference, IsName r.remoteTable → IsName r.remoteColumn → resolve? r.localColumn r.written = some r) ∧
    (∀ text, ConstraintToken.classify token = .reference text ↔ isToken token = true ∧ text = token) ∧
    (isToken token = true → (ConstraintToken.classify token).isKnown = false ∧
      ∀ text, ConstraintToken.classify token ≠ .unknown text) := by
  refine ⟨fun r => resolve?_iff, ?_, ?_, fun r => resolve?_written,
    fun text => ConstraintToken.classify_eq_reference_iff, ?_⟩
  · intro l l' hl hl'
    rw [hl, Option.some_inj] at hl'
    exact ReferenceLayout.text_injective hl'
  · intro l l' htable hcolumn
    rw [clause, clause, ReferenceLayout.reference, ReferenceLayout.reference, htable, hcolumn]
  · intro hkey
    rw [ConstraintToken.classify_of_isToken hkey]
    exact ⟨rfl, by simp⟩

theorem Reference.resolve?_grammar_wideBlanks :
    let token := "\u2003REF\t: <>\u00a0größe.id\n".toList
    let r : Reference := ⟨"user_id".toList, .manyToMany, "größe".toList, "id".toList⟩
    isToken token = true ∧ behindKey? token = some "<>\u00a0größe.id".toList ∧
      resolve? "user_id".toList token = some r ∧ resolve? "user_id".toList r.written = some r ∧
      ConstraintToken.classify token = .reference token ∧ (ConstraintToken.classify token).isKnown = false := by
  intro token r
  have hkey : isToken token = true := by decide +kernel
  have hbehind : behindKey? token = some "<>\u00a0größe.id".toList := by decide +kernel
  let l : ReferenceLayout := ⟨"<>".toList, .manyToMany, ['\u00a0'], "größe".toList, "id".toList, by decide +kernel,
    by decide +kernel, by decide +kernel, by decide +kernel⟩
  obtain ⟨hresolve, -, -, hwritten, hclassify, hknown⟩ := resolve?_grammar "user_id".toList token
  exact ⟨hkey, hbehind, (hresolve r).mpr ⟨hkey, l, hbehind, rfl⟩, hwritten r l.table_isName l.column_isName,
    (hclassify token).mpr ⟨hkey, rfl⟩, (hknown hkey).1⟩

end Schemata
