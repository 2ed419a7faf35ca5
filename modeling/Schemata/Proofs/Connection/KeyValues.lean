import Schemata.Proofs.Connection.Masking

/-! Connection strings read back. A pair is a keyword, an equals sign and a value, with blanks around each of them; a
    value ends at a blank unless it stands in single quotes, and a backslash in it gives way to the character behind.
    Pairs are written without quotes or backslashes, so exactly those come back whose values have no need of them: what
    is read is never longer than what was written, and as long only where nothing was dropped. -/

namespace Schemata

/-! ### Reading -/

/-- Reads up to a character of the class, or to the end. A backslash is dropped, and what stands behind it is taken
    whatever it is. -/
def readEscaped (p : Char → Bool) : Bool → Text → Text × Text
  | _, [] => ([], [])
  | true, c :: s => (c :: (readEscaped p false s).1, (readEscaped p false s).2)
  | false, c :: s =>
    if p c then ([], c :: s)
    else if c == '\\' then readEscaped p true s
    else (c :: (readEscaped p false s).1, (readEscaped p false s).2)

/-- Reads a value: one in quotes up to the closing one, any other up to a blank, and not empty. -/
def readValue? (s : Text) : Option (Text × Text) :=
  if s.head? == some '\'' then
    match readEscaped (· == '\'') false s.tail with
    | (value, _ :: rest) => some (value, rest)
    | (_, []) => none
  else
    match readEscaped isBlank false s with
    | ([], _) => none
    | found => some found

def isKeywordChar (c : Char) : Bool := !isBlank c && c != '='

/-- Reads a pair at the front of a text. -/
def readPair? (s : Text) : Option ((Text × Text) × Text) :=
  if (s.takeWhile isKeywordChar).isEmpty then none
  else (Text.dropPrefix? ['='] ((s.dropWhile isKeywordChar).dropWhile isBlank)).bind fun behind =>
    (readValue? (behind.dropWhile isBlank)).map fun (value, rest) => ((s.takeWhile isKeywordChar, value), rest)

/-! ### What a value takes -/

/-- A value that needs neither quotes nor backslashes. -/
structure IsSimpleValue (value : Text) : Prop where
  ne_nil : value ≠ []
  plain : ∀ c ∈ value, isBlank c = false ∧ c ≠ '\\'
  unquoted : value.head? ≠ some '\''

instance (value : Text) : Decidable (IsSimpleValue value) :=
  decidable_of_iff
    (value ≠ [] ∧ value.all (fun c => !isBlank c && c != '\\') = true ∧ value.head? ≠ some '\'')
    ⟨fun h => ⟨h.1, by simpa using h.2.1, h.2.2⟩, fun h => ⟨h.ne_nil, by simpa using h.plain, h.unquoted⟩⟩

section Escaped
variable {p : Char → Bool}

theorem length_readEscaped (escaped : Bool) (s : Text) :
    (readEscaped p escaped s).1.length + (readEscaped p escaped s).2.length ≤ s.length := by
  fun_induction readEscaped p escaped s with
  | case1 => exact Nat.le_refl 0
  | case2 c s ih => simp only [List.length_cons]; omega
  | case3 c s => simp only [List.length_nil]; omega
  | case4 c s _ _ ih => simp only [List.length_cons]; omega
  | case5 c s _ _ ih => simp only [List.length_cons]; omega

/-- Where nothing is dropped, a value is read as it stands. -/
theorem readEscaped_whole {s : Text}
    (h : (readEscaped p false s).1.length + (readEscaped p false s).2.length = s.length) :
    (readEscaped p false s).1 ++ (readEscaped p false s).2 = s ∧
      ∀ c ∈ (readEscaped p false s).1, p c = false ∧ c ≠ '\\' := by
  induction s with
  | nil => exact ⟨rfl, List.forall_mem_nil _⟩
  | cons c s ih =>
    rw [readEscaped] at h ⊢
    split
    · exact ⟨rfl, List.forall_mem_nil _⟩
    · rename_i hp
      rw [if_neg hp] at h
      split
      · rename_i hslash
        have hle := length_readEscaped (p := p) true s
        rw [if_pos hslash, List.length_cons] at h
        omega
      · rename_i hslash
        rw [if_neg hslash] at h
        have hrest : (readEscaped p false s).1.length + (readEscaped p false s).2.length = s.length := by
          simp only [List.length_cons] at h
          omega
        obtain ⟨htext, hplain⟩ := ih hrest
        refine ⟨congrArg (c :: ·) htext, List.forall_mem_cons.mpr ⟨⟨?_, ?_⟩, hplain⟩⟩
        · simpa using hp
        · simpa using hslash

theorem readEscaped_append {value rest : Text} (hvalue : ∀ c ∈ value, p c = false ∧ c ≠ '\\')
    (hrest : Text.Stops (!p ·) rest) : readEscaped p false (value ++ rest) = (value, rest) := by
  induction value with
  | nil =>
    cases rest with
    | nil => rfl
    | cons c rest => exact if_pos (by simpa using Text.stops_cons.mp hrest)
  | cons c value ih =>
    obtain ⟨⟨hp, hslash⟩, hvalue⟩ := List.forall_mem_cons.mp hvalue
    rw [List.cons_append, readEscaped, if_neg (by simp [hp]), if_neg (by simpa using hslash), ih hvalue]

theorem readEscaped_stops (escaped : Bool) (s : Text) : Text.Stops (!p ·) (readEscaped p escaped s).2 := by
  fun_induction readEscaped p escaped s with
  | case1 => exact Text.Stops.nil
  | case2 c s ih => exact ih
  | case3 c s hp => exact Text.stops_cons.mpr (by simp [hp])
  | case4 c s _ _ ih => exact ih
  | case5 c s _ _ ih => exact ih

end Escaped

/-- A value in quotes is shorter by these than what is read; any other ends at a blank, and is shorter unless it is
    simple. -/
theorem readValue?_cases {s value rest : Text} (h : readValue? s = some (value, rest)) :
    value.length + rest.length + 2 ≤ s.length ∨
      Text.Stops (!isBlank ·) rest ∧ value.length + rest.length ≤ s.length ∧
        (value.length + rest.length = s.length → IsSimpleValue value) := by
  rw [readValue?] at h
  split at h
  · rename_i hquote
    obtain ⟨s, rfl⟩ := List.head?_eq_some_iff.mp (beq_iff_eq.mp hquote)
    have hle := length_readEscaped (p := (· == '\'')) false s
    split at h
    · rename_i value' c rest' hread
      cases h
      rw [List.tail_cons] at hread
      rw [hread] at hle
      simp only [List.length_cons] at hle ⊢
      exact Or.inl (by omega)
    · cases h
  · rename_i hquote
    have hle := length_readEscaped (p := isBlank) false s
    have hstops := readEscaped_stops (p := isBlank) false s
    have hwhole := readEscaped_whole (p := isBlank) (s := s)
    split at h
    · cases h
    · rename_i hne
      rw [Option.some.inj h] at hle hstops hwhole
      have hne : value ≠ [] := by
        rintro rfl
        exact hne rest (Option.some.inj h)
      refine Or.inr ⟨hstops, hle, fun hlength => ?_⟩
      obtain ⟨htext, hplain⟩ := hwhole hlength
      refine ⟨hne, hplain, fun hhead => hquote ?_⟩
      rw [← htext, List.head?_append, hhead]
      rfl

theorem readValue?_simple {value rest : Text} (h : IsSimpleValue value) (hrest : Text.Stops (!isBlank ·) rest) :
    readValue? (value ++ rest) = some (value, rest) := by
  have hquote : (value ++ rest).head? ≠ some '\'' := by
    have hunquoted := h.unquoted
    obtain ⟨c, value, rfl⟩ := List.exists_cons_of_ne_nil h.ne_nil
    exact hunquoted
  rw [readValue?, if_neg (by simpa using hquote), readEscaped_append h.plain hrest]
  split
  · rename_i hnil
    exact absurd (Prod.mk.inj hnil).1 h.ne_nil
  · rfl

/-! ### Pairs -/

/-- A keyword with no blank and no equals sign. -/
structure IsKeyword (key : Text) : Prop where
  ne_nil : key ≠ []
  plain : ∀ c ∈ key, isKeywordChar c = true

instance (key : Text) : Decidable (IsKeyword key) :=
  decidable_of_iff (key ≠ [] ∧ key.all isKeywordChar = true)
    ⟨fun h => ⟨h.1, List.all_eq_true.mp h.2⟩, fun h => ⟨h.ne_nil, List.all_eq_true.mpr h.plain⟩⟩

theorem readPair?_cases {s key value rest : Text} (h : readPair? s = some ((key, value), rest)) :
    key.length + value.length + rest.length + 3 ≤ s.length ∨
      Text.Stops (!isBlank ·) rest ∧ key.length + value.length + rest.length + 1 ≤ s.length ∧
        (key.length + value.length + rest.length + 1 = s.length → IsSimpleValue value) := by
  rw [readPair?, Option.ite_none_left_eq_some] at h
  obtain ⟨-, h⟩ := h
  obtain ⟨behind, hequals, h⟩ := Option.bind_eq_some_iff.mp h
  obtain ⟨⟨value', rest'⟩, hvalue, h⟩ := Option.map_eq_some_iff.mp h
  cases h
  have hkey : (s.takeWhile isKeywordChar).length + (s.dropWhile isKeywordChar).length = s.length := by
    rw [← List.length_append, List.takeWhile_append_dropWhile]
  have hgap := (List.dropWhile_sublist isBlank (l := s.dropWhile isKeywordChar)).length_le
  have hbehind := (List.dropWhile_sublist isBlank (l := behind)).length_le
  rw [← Text.append_dropPrefix? hequals, List.length_append, List.length_singleton] at hgap
  rcases readValue?_cases hvalue with hquoted | ⟨hstops, hle, hsimple⟩
  · exact Or.inl (by omega)
  · exact Or.inr ⟨hstops, by omega, fun hlength => hsimple (by omega)⟩

theorem readPair?_length {s rest : Text} {pair : Text × Text} (h : readPair? s = some (pair, rest)) :
    rest.length < s.length := by
  rcases readPair?_cases h with hquoted | ⟨-, hle, -⟩ <;> omega

theorem readPair?_simple {key value rest : Text} (hkey : IsKeyword key) (hvalue : IsSimpleValue value)
    (hrest : Text.Stops (!isBlank ·) rest) : readPair? (key ++ '=' :: (value ++ rest)) = some ((key, value), rest) := by
  have hend : Text.Stops isKeywordChar ('=' :: (value ++ rest)) := Text.stops_cons.mpr (by decide)
  have hequals : Text.Stops isBlank ('=' :: (value ++ rest)) := Text.stops_cons.mpr (by decide)
  have hstart : Text.Stops isBlank (value ++ rest) := by
    obtain ⟨c, value, rfl⟩ := List.exists_cons_of_ne_nil hvalue.ne_nil
    exact Text.stops_cons.mpr (hvalue.plain c List.mem_cons_self).1
  have hprefix : Text.dropPrefix? ['='] ('=' :: (value ++ rest)) = some (value ++ rest) :=
    Text.dropPrefix?_append ['='] _
  rw [readPair?, Text.takeWhile_run hkey.plain hend, Text.dropWhile_run hkey.plain hend,
    Text.dropWhile_of_stops hequals, hprefix, if_neg (by simpa using hkey.ne_nil), Option.bind_some,
    Text.dropWhile_of_stops hstart, readValue?_simple hvalue hrest]
  rfl

/-- Reads pairs up to the end of a text. -/
def readPairs? (s : Text) : Option (List (Text × Text)) :=
  if (s.dropWhile isBlank).isEmpty then some []
  else
    match _h : readPair? (s.dropWhile isBlank) with
    | none => none
    | some (pair, rest) => (readPairs? rest).map (pair :: ·)
termination_by s.length
decreasing_by
  have hlt := readPair?_length (by assumption)
  have hle := (List.dropWhile_sublist isBlank (l := s)).length_le
  omega

theorem readPairs?_blank {s : Text} (h : s.dropWhile isBlank = []) : readPairs? s = some [] := by
  rw [readPairs?, h]
  rfl

theorem readPairs?_pair {s rest : Text} {pair : Text × Text}
    (h : readPair? (s.dropWhile isBlank) = some (pair, rest)) :
    readPairs? s = (readPairs? rest).map (pair :: ·) := by
  have hne : (s.dropWhile isBlank).isEmpty = false := by
    rcases hs : s.dropWhile isBlank with _ | ⟨c, t⟩
    · rw [hs] at h
      cases h
    · rfl
  rw [readPairs?, hne, if_neg Bool.false_ne_true]
  split
  · rename_i hnone
    rw [h] at hnone
    cases hnone
  · rename_i hsome
    rw [h] at hsome
    cases hsome
    rfl

/-- What pairs take where each is written with an equals sign and a character behind it. -/
def width : List (Text × Text) → Nat
  | [] => 0
  | (key, value) :: pairs => key.length + value.length + 2 + width pairs

/-- What is read is not longer than its text, and as long only if all values are simple. -/
theorem readPairs?_width {s : Text} {pairs : List (Text × Text)} (h : readPairs? s = some pairs) :
    width pairs ≤ (s.dropWhile isBlank).length + 1 ∧
      (width pairs = (s.dropWhile isBlank).length + 1 → ∀ pair ∈ pairs, IsSimpleValue pair.2) := by
  induction s using readPairs?.induct generalizing pairs with
  | case1 s hs =>
    rw [readPairs?_blank (List.isEmpty_iff.mp hs)] at h
    cases h
    exact ⟨Nat.zero_le _, fun _ => List.forall_mem_nil _⟩
  | case2 s hs hpair =>
    rw [readPairs?, if_neg hs] at h
    split at h
    · cases h
    · rename_i hsome
      rw [hpair] at hsome
      cases hsome
  | case3 s hs pair rest hpair ih =>
    obtain ⟨key, value⟩ := pair
    rw [readPairs?_pair hpair] at h
    obtain ⟨others, hothers, rfl⟩ := Option.map_eq_some_iff.mp h
    obtain ⟨hwidth, hsimple⟩ := ih hothers
    have hrest := (List.dropWhile_sublist isBlank (l := rest)).length_le
    rw [width]
    rcases readPair?_cases hpair with hquoted | ⟨hstops, hle, hvalue⟩
    · -- The quotes take more than the blank that need not follow them.
      exact ⟨by omega, fun hlength => by omega⟩
    · -- A value without quotes ends at a blank, which takes the place of the one that is counted for it.
      cases rest with
      | nil =>
        rw [readPairs?_blank rfl] at hothers
        cases hothers
        have hzero : width [] = 0 := rfl
        rw [List.length_nil] at hle hvalue
        refine ⟨by omega, fun hlength => ?_⟩
        exact List.forall_mem_cons.mpr ⟨hvalue (by omega), List.forall_mem_nil _⟩
      | cons c rest =>
        have hblank : isBlank c = true := by simpa using Text.stops_cons.mp hstops
        rw [List.dropWhile_cons_of_pos hblank] at hwidth hsimple
        have hrest := (List.dropWhile_sublist isBlank (l := rest)).length_le
        rw [List.length_cons] at hle hvalue
        refine ⟨by omega, fun hlength => ?_⟩
        exact List.forall_mem_cons.mpr ⟨hvalue (by omega), hsimple (by omega)⟩

theorem readPairs?_append {gap key value rest : Text} (hgap : IsBlank gap) (hkey : IsKeyword key)
    (hvalue : IsSimpleValue value) (hrest : Text.Stops (!isBlank ·) rest) :
    readPairs? (gap ++ (key ++ '=' :: (value ++ rest))) = (readPairs? rest).map ((key, value) :: ·) := by
  have hstart : Text.Stops isBlank (key ++ '=' :: (value ++ rest)) := by
    obtain ⟨c, key, rfl⟩ := List.exists_cons_of_ne_nil hkey.ne_nil
    have hc := hkey.plain c List.mem_cons_self
    rw [isKeywordChar, Bool.and_eq_true, Bool.not_eq_true'] at hc
    exact Text.stops_cons.mpr hc.1
  refine readPairs?_pair ?_
  rw [Text.dropWhile_run hgap hstart]
  exact readPair?_simple hkey hvalue hrest

/-! ### Pairs as they are written -/

namespace ServerSettings

/-- Pairs behind another one. -/
def laterPairs (pairs : List (Text × Text)) : Text := pairs.flatMap fun (key, value) => ' ' :: (key ++ '=' :: value)

theorem writePairs_cons (key value : Text) (pairs : List (Text × Text)) :
    writePairs ((key, value) :: pairs) = key ++ '=' :: (value ++ laterPairs pairs) := by
  rw [writePairs, List.map_cons, Text.join_cons, List.flatMap_map]
  simp only [Text.ofString_eq, laterPairs, List.append_assoc]
  rfl

theorem width_eq_laterPairs (pairs : List (Text × Text)) : width pairs = (laterPairs pairs).length := by
  induction pairs with
  | nil => rfl
  | cons pair pairs ih =>
    obtain ⟨key, value⟩ := pair
    rw [width, ih, laterPairs, laterPairs, List.flatMap_cons, List.length_append, List.length_cons,
      List.length_append, List.length_cons]
    omega

theorem width_eq (key value : Text) (pairs : List (Text × Text)) :
    width ((key, value) :: pairs) = (writePairs ((key, value) :: pairs)).length + 1 := by
  rw [width, width_eq_laterPairs, writePairs_cons, List.length_append, List.length_cons, List.length_append]
  omega

theorem stops_laterPairs (pairs : List (Text × Text)) : Text.Stops (!isBlank ·) (laterPairs pairs) := by
  cases pairs with
  | nil => exact Text.Stops.nil
  | cons pair pairs => exact Text.stops_cons.mpr (by decide)

theorem readPairs?_laterPairs {pairs : List (Text × Text)} (hkeys : ∀ pair ∈ pairs, IsKeyword pair.1)
    (hvalues : ∀ pair ∈ pairs, IsSimpleValue pair.2) : readPairs? (laterPairs pairs) = some pairs := by
  induction pairs with
  | nil => exact readPairs?_blank rfl
  | cons pair pairs ih =>
    obtain ⟨key, value⟩ := pair
    obtain ⟨hkey, hkeys⟩ := List.forall_mem_cons.mp hkeys
    obtain ⟨hvalue, hvalues⟩ := List.forall_mem_cons.mp hvalues
    have hpairs : laterPairs ((key, value) :: pairs) = [' '] ++ (key ++ '=' :: (value ++ laterPairs pairs)) := by
      rw [laterPairs, List.flatMap_cons]
      simp only [List.cons_append, List.append_assoc, List.nil_append]
      rfl
    rw [hpairs, readPairs?_append (by decide) hkey hvalue (stops_laterPairs pairs), ih hkeys hvalues]
    rfl

/-- Written pairs are read back if and only if all their values are simple. -/
theorem readPairs?_writePairs {pairs : List (Text × Text)} (hne : pairs ≠ [])
    (hkeys : ∀ pair ∈ pairs, IsKeyword pair.1) :
    readPairs? (writePairs pairs) = some pairs ↔ ∀ pair ∈ pairs, IsSimpleValue pair.2 := by
  obtain ⟨⟨key, value⟩, pairs, rfl⟩ := List.exists_cons_of_ne_nil hne
  constructor
  · intro h
    obtain ⟨hle, hsimple⟩ := readPairs?_width h
    have hdrop := (List.dropWhile_sublist isBlank (l := writePairs ((key, value) :: pairs))).length_le
    have hwidth := width_eq key value pairs
    exact hsimple (by omega)
  · intro h
    obtain ⟨hkey, hkeys⟩ := List.forall_mem_cons.mp hkeys
    obtain ⟨hvalue, hvalues⟩ := List.forall_mem_cons.mp h
    have hread := readPairs?_append IsBlank.nil hkey hvalue (stops_laterPairs pairs)
    rw [List.nil_append, readPairs?_laterPairs hkeys hvalues] at hread
    rw [writePairs_cons]
    exact hread

/-! ### Settings -/

/-- Settings that are written from these fields. -/
structure HasFields (s : ServerSettings) (host user database : Text) : Prop where
  given : s.connectionString = none
  host : s.host = some host
  user : s.user = some user
  database : s.database = some database

/-- The texts among the fields. -/
def values (s : ServerSettings) (host user database : Text) : List Text :=
  host :: user :: database :: s.password.toList

theorem isKeyword_pairs (s : ServerSettings) (host user database : Text) :
    ∀ pair ∈ s.pairs host user database, IsKeyword pair.1 := by
  have hpassword : IsKeyword "password" := by decide +kernel
  unfold pairs
  simp only [List.forall_mem_cons]
  refine ⟨by decide +kernel, by decide +kernel, by decide +kernel, by decide +kernel, ?_⟩
  cases s.password with
  | none => exact List.forall_mem_nil _
  | some password => exact List.forall_mem_singleton.mpr hpassword

theorem isSimpleValue_decimal (n : Nat) : IsSimpleValue (decimal n) := by
  have hdigit : ∀ c ∈ decimal n, c.isDigit = true := fun c hc =>
    Nat.isDigit_of_mem_toDigits (by decide) (by decide) hc
  refine ⟨Nat.toDigits_ne_nil, fun c hc => ⟨isBlank_of_isWord ?_, ?_⟩, fun hhead => ?_⟩
  · have hbounds : 48 ≤ c.toNat ∧ c.toNat ≤ 57 := by
      simpa [Char.isDigit, UInt32.le_iff_toNat_le] using hdigit c hc
    rw [isWord, if_pos (by omega), Char.isAlphanum, hdigit c hc, Bool.or_true, Bool.true_or]
  · rintro rfl
    exact absurd (hdigit _ hc) (by decide)
  · exact absurd (hdigit _ (List.mem_of_mem_head? hhead)) (by decide)

/-- The port is always read back. -/
theorem isSimpleValue_pairs (s : ServerSettings) (host user database : Text) :
    (∀ pair ∈ s.pairs host user database, IsSimpleValue pair.2) ↔
      ∀ value ∈ s.values host user database, IsSimpleValue value := by
  have hport := isSimpleValue_decimal s.effectivePort
  unfold pairs values
  cases s.password <;> simp [hport]

theorem pairs_inj {s s' : ServerSettings} {host user database host' user' database' : Text}
    (h : s.pairs host user database = s'.pairs host' user' database') :
    host = host' ∧ s.effectivePort = s'.effectivePort ∧ user = user' ∧ database = database' ∧
      s.password = s'.password := by
  unfold pairs at h
  simp only [List.cons.injEq, Prod.mk.injEq, true_and] at h
  obtain ⟨hhost, hport, huser, hdatabase, hpassword⟩ := h
  refine ⟨hhost, ?_, huser, hdatabase, ?_⟩
  · have hnumber := congrArg (Nat.ofDigitChars 10 · 0) hport
    simp only [decimal] at hnumber
    rwa [Nat.ofDigitChars_toDigits (by decide) (by decide), Nat.ofDigitChars_toDigits (by decide) (by decide)]
      at hnumber
  · cases hp : s.password <;> cases hp' : s'.password <;> simp_all

/-- A connection string gives its fields back, and no others, if and only if each of them is a simple value. Settings
    of simple values that differ in a field have different strings. -/
theorem readPairs?_write {s : ServerSettings} {host user database : Text} (h : s.HasFields host user database) :
    ∃ text, s.write = .ok text ∧
      (readPairs? text = some (s.pairs host user database) ↔
        ∀ value ∈ s.values host user database, IsSimpleValue value) ∧
      ∀ s' host' user' database', HasFields s' host' user' database' → s'.write = .ok text →
        (∀ value ∈ s.values host user database ++ s'.values host' user' database', IsSimpleValue value) →
        host = host' ∧ s.effectivePort = s'.effectivePort ∧ user = user' ∧ database = database' ∧
          s.password = s'.password := by
  have hread : ∀ {s host user database}, readPairs? (writePairs (pairs s host user database)) =
      some (s.pairs host user database) ↔ ∀ value ∈ s.values host user database, IsSimpleValue value := fun {s _ _ _} =>
    (readPairs?_writePairs (List.cons_ne_nil _ _) (isKeyword_pairs s _ _ _)).trans (isSimpleValue_pairs s _ _ _)
  have hwrite : ∀ {s host user database}, HasFields s host user database →
      s.write = .ok (writePairs (s.pairs host user database)) := fun h =>
    write_eq_ok h.given h.host h.user h.database
  refine ⟨_, hwrite h, hread, fun s' host' user' database' h' hsame hsimple => pairs_inj ?_⟩
  obtain ⟨hvalues, hvalues'⟩ := List.forall_mem_append.mp hsimple
  have htext := Except.ok.inj ((hwrite h').symm.trans hsame)
  have hpairs' := hread.mpr hvalues'
  rw [htext, hread.mpr hvalues] at hpairs'
  exact Option.some.inj hpairs'

/-- Values with equals signs and with quotes that do not stand in front. -/
def equalsSettings : ServerSettings :=
  ⟨none, some "h='".toList, some "u".toList, some "d=user=x".toList, 0, some "p'=".toList⟩

theorem readPairs?_write_equalsSettings :
    equalsSettings.HasFields "h='".toList "u".toList "d=user=x".toList ∧
      ∃ text, equalsSettings.write = .ok text ∧
        readPairs? text = some (equalsSettings.pairs "h='".toList "u".toList "d=user=x".toList) := by
  have h : equalsSettings.HasFields "h='".toList "u".toList "d=user=x".toList := ⟨rfl, rfl, rfl, rfl⟩
  obtain ⟨text, hwrite, hread, -⟩ := readPairs?_write h
  exact ⟨h, text, hwrite, hread.mpr (by decide)⟩

/-- A blank in the password begins another pair, and a database name with a blank brings a password with it. -/
theorem readPairs?_write_adds_pair :
    let s : ServerSettings := ⟨none, some "h".toList, some "u".toList, some "d".toList, 0, some "x host=evil".toList⟩
    let s' : ServerSettings :=
      ⟨none, some "h".toList, some "u".toList, some "d password=x host=evil".toList, 0, none⟩
    let text := "host=h port=5432 user=u dbname=d password=x host=evil".toList
    s.write = .ok text ∧ s'.write = .ok text ∧
      readPairs? text =
        some ({ s with password := some "x" }.pairs "h" "u" "d" ++ [(("host" : Text), ("evil" : Text))]) := by
  decide +kernel

end ServerSettings
end Schemata
