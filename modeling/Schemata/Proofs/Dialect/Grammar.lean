import Schemata.Proofs.Text.Grammar
import Schemata.Proofs.Dialect.Findings
import Schemata.Dialect.Outline

/-! The grammars of blocks and columns. Both readers read exactly the shapes of their grammar. A block ends with itself,
    whatever stands behind it; a column takes a size and a constraint list if they are closed, so it depends on the
    text behind. The reader of columns does not look at what stands before a name, and need not: where a scan gets into
    the middle of a word, no column begins. -/

namespace Schemata

/-- The text does not end in a word, so that one may begin behind it. -/
def EndsOutsideWord (before : Text) : Prop := ∀ c ∈ before.getLast?, isWord c = false

theorem endsInWord_eq_false_iff {before : Text} : endsInWord false before = false ↔ EndsOutsideWord before := by
  rcases List.eq_nil_or_concat before with rfl | ⟨front, c, rfl⟩
  · simp [endsInWord, EndsOutsideWord]
  · simp [endsInWord_snoc, EndsOutsideWord]

/-! ### Blocks -/

namespace BlockShape

/-- What holds of every block that is read. -/
structure Proper (b : BlockShape) : Prop where
  lead_ne_nil : b.lead ≠ []
  lead : IsBlank b.lead
  name : IsName b.name
  gap : IsBlank b.gap
  body : '}' ∉ b.body

/-- Blocks begin outside words. -/
def grammar : Grammar BlockShape where
  render := render
  Fits before b _ := EndsOutsideWord before ∧ b.Proper

theorem proper_of_read? {afterWord : Bool} {s r : Text} {b : BlockShape} (h : read? afterWord s = some (b, r)) :
    afterWord = false ∧ b.Proper := by
  simp only [read?, Option.bind_eq_bind, Option.bind_eq_some_iff, Option.ite_none_left_eq_some, Bool.or_eq_true,
    not_or, List.isEmpty_iff, Bool.not_eq_true] at h
  obtain ⟨k, -, i, -, ⟨body, rest⟩, hcut, ⟨⟨hword, hlead⟩, hname⟩, h⟩ := h
  obtain ⟨rfl, rfl⟩ := Prod.mk.inj (Option.some.inj h)
  exact ⟨hword, hlead, fun _ => List.mem_takeWhile_imp, ⟨hname, fun _ => List.mem_takeWhile_imp⟩,
    fun _ => List.mem_takeWhile_imp, Text.not_mem_of_cut? hcut⟩

/-- A written block is read back, whatever stands behind it. -/
theorem Proper.read?_render {b : BlockShape} (h : b.Proper) (r : Text) : read? false (b.render ++ r) = some (b, r) := by
  have hbrace : ∀ s : Text, ("\x7b" : Text) ++ s = '\x7b' :: s := fun s => by rw [Text.ofString_eq]; rfl
  have hclose : ∀ s : Text, ("\x7d" : Text) ++ s = '}' :: s := fun s => by rw [Text.ofString_eq]; rfl
  have hstop : ∀ s, Text.Stops isBlank (("\x7b" : Text) ++ s) := fun s => by
    rw [hbrace]
    exact Text.stops_cons.mpr (by decide)
  have hword : ∀ s, Text.Stops isWord (b.gap ++ (("\x7b" : Text) ++ s)) := fun s => by
    refine Text.stops_word_blank h.gap ?_
    rw [hbrace]
    exact Text.stops_cons.mpr (by decide)
  simp only [render, header, List.append_assoc, read?]
  rw [Text.dropPrefix?_append]
  simp only [Option.bind_eq_bind, Option.bind_some]
  rw [Text.dropWhile_run h.lead (Text.stops_blank_name h.name),
    Text.takeWhile_run h.lead (Text.stops_blank_name h.name), Text.dropWhile_run h.name.word (hword _),
    Text.takeWhile_run h.name.word (hword _), Text.dropWhile_run h.gap (hstop _), Text.takeWhile_run h.gap (hstop _),
    Text.dropPrefix?_append, Option.bind_some, hclose, Text.cut?_append h.body, Option.bind_some]
  simp [h.lead_ne_nil, h.name.ne_nil]

theorem pattern_reads : pattern.Reads grammar where
  render := rfl
  read?_iff := by
    intro before s b r
    constructor
    · intro h
      obtain ⟨hword, hproper⟩ := proper_of_read? h
      exact ⟨⟨endsInWord_eq_false_iff.mp hword, hproper⟩, render_append_of_read? h⟩
    · rintro ⟨⟨hword, hproper⟩, rfl⟩
      rw [endsInWord_eq_false_iff.mpr hword]
      exact hproper.read?_render r

end BlockShape

/-! ### Columns -/

namespace ColumnShape

/-- The part of a column behind its type word, with the text behind the column. -/
def behindType (c : ColumnShape) (behind : Text) : Text :=
  c.size.elim [] renderSize ++ (c.list.elim [] renderList ++ behind)

/-- A column that takes all it can of its words, and a size and a list wherever they are closed. -/
structure Takes (c : ColumnShape) (behind : Text) : Prop where
  word : Text.Stops isWord (c.behindType behind)
  size : c.size = none → ∀ size rest, renderSize size ++ rest ≠ c.behindType behind
  list : c.list = none → ∀ gap list rest, IsBlank gap → renderList (gap, list) ++ rest ≠ behind

/-- Columns begin outside words. -/
def grammar : Grammar ColumnShape where
  render := render
  Fits before c behind := EndsOutsideWord before ∧ c.Proper ∧ c.Takes behind

theorem renderSize_append (size s : Text) : renderSize size ++ s = '(' :: (size ++ ')' :: s) := by
  simp [renderSize, Text.ofString_eq]

theorem renderList_append (list : Text × Text) (s : Text) :
    renderList list ++ s = list.1 ++ '[' :: (list.2 ++ ']' :: s) := by
  simp [renderList, Text.ofString_eq]

theorem readSize_render {size : Text} (h : ')' ∉ size) (s : Text) :
    readSize (renderSize size ++ s) = (some size, s) := by
  have hopen : ("(" : Text) = ['('] := Text.ofString_eq _
  unfold readSize
  rw [renderSize_append, ← List.singleton_append, hopen, Text.dropPrefix?_append, Option.bind_some, Text.cut?_append h]

theorem readList_render {gap list : Text} (hgap : IsBlank gap) (h : ']' ∉ list) (s : Text) :
    readList (renderList (gap, list) ++ s) = (some (gap, list), s) := by
  have hopen : ("[" : Text) = ['['] := Text.ofString_eq _
  have hstop : Text.Stops isBlank ('[' :: (list ++ ']' :: s)) := Text.stops_cons.mpr (by decide)
  unfold readList
  rw [renderList_append, Text.dropWhile_run hgap hstop, Text.takeWhile_run hgap hstop, ← List.singleton_append, hopen,
    Text.dropPrefix?_append, Option.bind_some, Text.cut?_append h]

theorem readSize_eq_none_iff {s : Text} : readSize s = (none, s) ↔ ∀ size rest, renderSize size ++ rest ≠ s := by
  constructor
  · rintro h size rest rfl
    have hopen : ("(" : Text) = ['('] := Text.ofString_eq _
    obtain ⟨cut, hcut⟩ := Option.ne_none_iff_exists'.mp fun hnone =>
      Text.cut?_eq_none.mp hnone (show ')' ∈ size ++ ')' :: rest by simp)
    unfold readSize at h
    rw [renderSize_append, ← List.singleton_append, hopen, Text.dropPrefix?_append, Option.bind_some, hcut] at h
    cases h
  · intro h
    have happend := readSize_append s
    rcases hread : readSize s with ⟨size | size, rest⟩
    · rw [hread] at happend
      exact congrArg (Prod.mk none) happend
    · rw [hread] at happend
      exact absurd happend (h size rest)

theorem readList_eq_none_iff {s : Text} :
    readList s = (none, s) ↔ ∀ gap list rest, IsBlank gap → renderList (gap, list) ++ rest ≠ s := by
  constructor
  · rintro h gap list rest hgap rfl
    have hopen : ("[" : Text) = ['['] := Text.ofString_eq _
    have hstop : Text.Stops isBlank ('[' :: (list ++ ']' :: rest)) := Text.stops_cons.mpr (by decide)
    obtain ⟨cut, hcut⟩ := Option.ne_none_iff_exists'.mp fun hnone =>
      Text.cut?_eq_none.mp hnone (show ']' ∈ list ++ ']' :: rest by simp)
    unfold readList at h
    rw [renderList_append, Text.dropWhile_run hgap hstop, ← List.singleton_append, hopen, Text.dropPrefix?_append,
      Option.bind_some, hcut] at h
    cases h
  · intro h
    have happend := readList_append s
    rcases hread : readList s with ⟨list | ⟨gap, list⟩, rest⟩
    · rw [hread] at happend
      exact congrArg (Prod.mk none) happend
    · rw [hread] at happend
      refine absurd happend (h gap list rest ?_)
      unfold readList at hread
      split at hread
      · cases hread
        exact fun _ => List.mem_takeWhile_imp
      · cases hread

theorem readSize_behindType {c : ColumnShape} {behind : Text} (hproper : c.Proper) (htakes : c.Takes behind) :
    readSize (c.behindType behind) = (c.size, c.list.elim [] renderList ++ behind) := by
  cases hsize : c.size with
  | none =>
    have hnone := readSize_eq_none_iff.mpr (htakes.size hsize)
    rw [hnone, behindType, hsize]
    rfl
  | some size =>
    rw [behindType, hsize]
    exact readSize_render (hproper.size size hsize) _

theorem readList_behind {c : ColumnShape} {behind : Text} (hproper : c.Proper) (htakes : c.Takes behind) :
    readList (c.list.elim [] renderList ++ behind) = (c.list, behind) := by
  cases hlist : c.list with
  | none => exact readList_eq_none_iff.mpr (htakes.list hlist)
  | some list => exact readList_render (hproper.list_gap list hlist) (hproper.list list hlist) behind

/-- What the readers of sizes and lists give is all that can be taken. -/
theorem takes_of_reads {c : ColumnShape} {s rest behind : Text} (hword : Text.Stops isWord s)
    (hsize : readSize s = (c.size, rest)) (hlist : readList rest = (c.list, behind)) : c.Takes behind := by
  have hrest : c.list.elim [] renderList ++ behind = rest := by
    have happend := readList_append rest
    rwa [hlist] at happend
  have hs : c.behindType behind = s := by
    have happend := readSize_append s
    rw [hsize] at happend
    rwa [behindType, hrest]
  refine ⟨hs ▸ hword, fun hnone => ?_, fun hnone => ?_⟩
  · rw [behindType, hnone] at hs
    rw [hnone, ← hrest, show c.list.elim [] renderList ++ behind = s from hs] at hsize
    rw [behindType, hnone]
    exact hs ▸ readSize_eq_none_iff.mp hsize
  · rw [hnone] at hlist hrest
    rw [← show behind = rest from hrest] at hlist
    exact readList_eq_none_iff.mp hlist

/-- Columns are read where they take all they can. -/
theorem read?_iff {s r : Text} {c : ColumnShape} :
    read? s = some (c, r) ↔ c.Proper ∧ c.Takes r ∧ c.render ++ r = s := by
  constructor
  · intro h
    refine ⟨proper_of_read? h, ?_, render_append_of_read? h⟩
    simp only [read?, Option.ite_none_left_eq_some] at h
    obtain ⟨rfl, rfl⟩ := Prod.mk.inj (Option.some.inj h.2)
    exact takes_of_reads (Text.Stops.dropWhile _) rfl rfl
  · rintro ⟨hproper, htakes, rfl⟩
    have hgap : Text.Stops isWord (c.gap ++ (c.typeWord ++ c.behindType r)) :=
      Text.stops_word_of_blank_ne_nil hproper.gap hproper.gap_ne_nil
    have htype : Text.Stops isBlank (c.typeWord ++ c.behindType r) := Text.stops_blank_name hproper.typeWord
    have htext : c.render ++ r = c.name ++ (c.gap ++ (c.typeWord ++ c.behindType r)) := by
      simp [render, declaredType, behindType]
    simp only [htext, read?]
    rw [Text.takeWhile_run hproper.name.word hgap, Text.dropWhile_run hproper.name.word hgap,
      Text.takeWhile_run hproper.gap htype, Text.dropWhile_run hproper.gap htype,
      Text.takeWhile_run hproper.typeWord.word htakes.word, Text.dropWhile_run hproper.typeWord.word htakes.word,
      readSize_behindType hproper htakes, readList_behind hproper htakes]
    simp [hproper.name.ne_nil, hproper.gap_ne_nil, hproper.typeWord.ne_nil]

/-! ### Columns at the start of words -/

/-- Columns that begin outside words, as a shape to look for. -/
def wordPattern : Pattern ColumnShape where
  read? afterWord s := if afterWord then none else read? s
  render := render
  render_append h := render_append_of_read? (Option.ite_none_left_eq_some.mp h).2
  render_ne_nil h := render_ne_nil_of_read? (Option.ite_none_left_eq_some.mp h).2

theorem wordPattern_reads : wordPattern.Reads grammar where
  render := rfl
  read?_iff := by
    intro before s c r
    show (if endsInWord false before then none else read? s) = some (c, r) ↔
      (EndsOutsideWord before ∧ c.Proper ∧ c.Takes r) ∧ c.render ++ r = s
    rw [Option.ite_none_left_eq_some, Bool.not_eq_true, endsInWord_eq_false_iff, read?_iff, and_assoc, and_assoc]

theorem read?_of_stops {s : Text} (h : Text.Stops isWord s) : read? s = none := by
  simp [read?, Text.takeWhile_of_stops h]

/-- A column in the middle of a word would be one from the start of the word on. -/
theorem read?_cons_of_isWord {x : Char} {s : Text} (hx : isWord x = true) (h : read? (x :: s) = none) :
    read? s = none := by
  by_contra hsome
  obtain ⟨⟨c, r⟩, hread⟩ := Option.ne_none_iff_exists'.mp hsome
  obtain ⟨hproper, htakes, rfl⟩ := read?_iff.mp hread
  have hname : IsName (x :: c.name) := ⟨List.cons_ne_nil _ _, List.forall_mem_cons.mpr ⟨hx, hproper.name.word⟩⟩
  have hlonger : read? (x :: (c.render ++ r)) = some ({ c with name := x :: c.name }, r) :=
    read?_iff.mpr ⟨{ hproper with name := hname }, ⟨htakes.word, htakes.size, htakes.list⟩, rfl⟩
  rw [h] at hlonger
  cases hlonger

/-- A column that ends in a word takes all of that word. -/
theorem Takes.stops {c : ColumnShape} {behind : Text} {b : Bool} (h : c.Takes behind)
    (hend : endsInWord b c.render = true) : Text.Stops isWord behind := by
  have hsnoc : ∀ {s : Text} {x : Char}, isWord x = false → endsInWord b (s ++ [x]) ≠ true := fun hx hword => by
    rw [endsInWord_snoc, hx] at hword
    cases hword
  unfold render declaredType at hend
  cases hlist : c.list with
  | some list =>
    have hclose : renderList list = list.1 ++ "[" ++ list.2 ++ [']'] := by rw [renderList, Text.ofString_eq "]"]; rfl
    rw [hlist, Option.elim_some, hclose, ← List.append_assoc] at hend
    exact absurd hend (hsnoc (by decide))
  | none =>
    cases hsize : c.size with
    | some size =>
      have hclose : renderSize size = "(" ++ size ++ [')'] := by rw [renderSize, Text.ofString_eq ")"]; rfl
      rw [hlist, hsize, Option.elim_none, List.append_nil, Option.elim_some, hclose, ← List.append_assoc,
        ← List.append_assoc] at hend
      exact absurd hend (hsnoc (by decide))
    | none =>
      have hword := h.word
      rw [behindType, hsize, hlist] at hword
      exact hword

theorem find?_eq_wordPattern {b : Bool} {s : Text} (h : b = true → read? s = none) :
    pattern.find? b s = wordPattern.find? b s := by
  induction s generalizing b with
  | nil => rfl
  | cons x s ih =>
    have hread : wordPattern.read? b (x :: s) = read? (x :: s) := by
      cases b with
      | false => rfl
      | true => exact (h rfl).symm
    have hpattern : pattern.read? b (x :: s) = read? (x :: s) := rfl
    rw [Pattern.find?, Pattern.find?, hread, hpattern]
    cases hfirst : read? (x :: s) with
    | some hit => rfl
    | none => rw [ih fun hx => read?_cons_of_isWord hx hfirst]

/-- A scan that finds columns anywhere finds them at the start of words. -/
theorem scan_eq_wordPattern {b : Bool} {s : Text} (h : b = true → read? s = none) :
    pattern.scan b s = wordPattern.scan b s := by
  induction b, s using Pattern.scan.induct pattern with
  | case1 b s hfind => rw [pattern.scan_none hfind, wordPattern.scan_none ((find?_eq_wordPattern h).symm.trans hfind)]
  | case2 b s g c r hfind ih =>
    have htakes : c.Takes r := by
      obtain ⟨_, hread⟩ := pattern.read?_of_find? hfind
      exact (read?_iff.mp hread).2.1
    have hrest : endsInWord b (g ++ c.render) = true → read? r = none := fun hend =>
      read?_of_stops (htakes.stops (endsInWord_append b g _ ▸ hend))
    rw [pattern.scan_some hfind, wordPattern.scan_some ((find?_eq_wordPattern h).symm.trans hfind)]
    exact congrArg (fun next : Scan ColumnShape => (⟨(g, c) :: next.hits, next.tail⟩ : Scan ColumnShape)) (ih hrest)

theorem factors_iff {s : Text} {f : Scan ColumnShape} : grammar.Factors s f ↔ pattern.scan false s = f := by
  rw [wordPattern_reads.factors_iff, scan_eq_wordPattern fun h => by cases h]

end ColumnShape
end Schemata
