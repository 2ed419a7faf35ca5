import Schemata.Proofs.Text.Scan
import Schemata.Session.Basic

/-! Masking a connection string that is written from its settings. The password stands in the last pair, behind a
    blank. A password without blanks, ampersands and single quotes is one value for every reader that comes to it:
    a setting that starts before the pair ends before it or takes the whole of it, and one that starts at its keyword
    takes the whole of it too. So the masked string is the same for all such passwords. -/

namespace Schemata

/-! ### Values before more text -/

section Quoted
variable {c : Char} {s : Text}

theorem readQuoted?_quote (s : Text) : readQuoted? ('\'' :: s) = some (['\''], s) := by
  cases s <;> simp [readQuoted?]

theorem readQuoted?_cons (hquote : c ≠ '\'') (hslash : c ≠ '\\') (s : Text) :
    readQuoted? (c :: s) = (readQuoted? s).map fun (value, r) => (c :: value, r) := by
  cases s with
  | nil => simp [readQuoted?, hquote]
  | cons d s => rw [readQuoted?, if_neg (by simpa using hquote), if_neg (by simpa using hslash)]

theorem readQuoted?_slash (d : Char) (s : Text) :
    readQuoted? ('\\' :: d :: s) =
      if d = '\n' then none else (readQuoted? s).map fun (value, r) => ('\\' :: d :: value, r) := by
  simp [readQuoted?]

theorem readQuoted?_eq_none (h : '\'' ∉ s) : readQuoted? s = none := by
  fun_induction readQuoted? s with
  | case1 | case3 | case5 => rfl
  | case2 c hc | case4 c d s hc => exact absurd (beq_iff_eq.mp hc ▸ List.mem_cons_self) h
  | case6 c d s _ _ _ ih => rw [ih fun hm => h (List.mem_cons_of_mem c (List.mem_cons_of_mem d hm))]; rfl
  | case7 c d s _ _ ih => rw [ih fun hm => h (List.mem_cons_of_mem c hm)]; rfl

/-- Text without quotes closes no quoted value. -/
theorem readQuoted?_append {rest : Text} (hrest : '\'' ∉ rest) (s : Text) :
    readQuoted? (s ++ rest) = (readQuoted? s).map fun (value, r) => (value, r ++ rest) := by
  fun_induction readQuoted? s with
  | case1 => exact readQuoted?_eq_none hrest
  | case2 c hc =>
    rw [beq_iff_eq.mp hc]
    exact readQuoted?_quote rest
  | case3 c hc =>
    -- A backslash at the end takes a character of `rest` with it, and no quote follows.
    refine readQuoted?_eq_none ?_
    simpa [hrest] using Ne.symm (by simpa using hc : c ≠ '\'')
  | case4 c d s hc =>
    rw [beq_iff_eq.mp hc]
    exact readQuoted?_quote (d :: s ++ rest)
  | case5 c d s _ hslash hnewline =>
    rw [beq_iff_eq.mp hslash, beq_iff_eq.mp hnewline]
    exact readQuoted?_slash '\n' (s ++ rest)
  | case6 c d s _ hslash hnewline ih =>
    rw [beq_iff_eq.mp hslash, List.cons_append, List.cons_append, readQuoted?_slash, if_neg (by simpa using hnewline),
      ih, Option.map_map, Option.map_map]
    rfl
  | case7 c d s hquote hslash ih =>
    rw [List.cons_append, readQuoted?_cons (by simpa using hquote) (by simpa using hslash), ih, Option.map_map,
      Option.map_map]
    rfl

end Quoted

/-- A value without quotes. -/
def readBareValue? (s : Text) : Option (Text × Text) :=
  if (s.takeWhile isBareValue).isEmpty then none else some (s.takeWhile isBareValue, s.dropWhile isBareValue)

theorem readPasswordValue?_quote (s : Text) :
    readPasswordValue? ('\'' :: s) =
      ((readQuoted? s).map fun (value, r) => ('\'' :: value, r)).or (readBareValue? ('\'' :: s)) := by
  unfold readPasswordValue?
  rw [List.head?_cons, if_pos (by decide), List.tail_cons]
  cases readQuoted? s <;> rfl

theorem readPasswordValue?_bare {s : Text} (h : s.head? ≠ some '\'') : readPasswordValue? s = readBareValue? s := by
  unfold readPasswordValue?
  rw [beq_eq_false_iff_ne.mpr h]
  rfl

theorem readBareValue?_self {s : Text} (hne : s ≠ []) (h : ∀ c ∈ s, isBareValue c = true) :
    readBareValue? s = some (s, []) := by
  rw [readBareValue?, List.takeWhile_eq_self_iff.mpr h, List.dropWhile_eq_nil_iff.mpr h, if_neg (by simpa using hne)]

section Blank
variable {c : Char} (hc : isBlank c = true)
include hc

/-- A blank ends a value without quotes. -/
theorem readBareValue?_append (rest s : Text) :
    readBareValue? (s ++ c :: rest) = (readBareValue? s).map fun (value, r) => (value, r ++ c :: rest) := by
  have hstop : isBareValue c = false := by simp [isBareValue, hc]
  rw [readBareValue?, Text.takeWhile_append_cons hstop, Text.dropWhile_append_cons hstop, readBareValue?]
  split <;> rfl

/-- A blank ends a value too where no quote follows. -/
theorem readPasswordValue?_append {rest : Text} (hrest : '\'' ∉ rest) (s : Text) :
    readPasswordValue? (s ++ c :: rest) = (readPasswordValue? s).map fun (value, r) => (value, r ++ c :: rest) := by
  have hquote : '\'' ≠ c := by
    rintro rfl
    exact absurd hc (by decide)
  by_cases hs : s.head? = some '\''
  · obtain ⟨s, rfl⟩ := List.head?_eq_some_iff.mp hs
    have hquoted := readQuoted?_append (List.not_mem_cons_of_ne_of_not_mem hquote hrest) s
    rw [List.cons_append, readPasswordValue?_quote, hquoted, ← List.cons_append, readBareValue?_append hc,
      readPasswordValue?_quote]
    cases readQuoted? s <;> rfl
  · have hs' : (s ++ c :: rest).head? ≠ some '\'' := by
      cases s with
      | nil => simpa using Ne.symm hquote
      | cons x s => simpa using hs
    rw [readPasswordValue?_bare hs, readPasswordValue?_bare hs', readBareValue?_append hc]

end Blank

/-! ### Settings -/

/-- A password that is one value without quotes. -/
structure IsPlainPassword (p : Text) : Prop where
  ne_nil : p ≠ []
  bare : ∀ c ∈ p, isBareValue c = true
  unquoted : '\'' ∉ p

instance (p : Text) : Decidable (IsPlainPassword p) :=
  decidable_of_iff (p ≠ [] ∧ p.all isBareValue = true ∧ '\'' ∉ p)
    ⟨fun h => ⟨h.1, List.all_eq_true.mp h.2.1, h.2.2⟩, fun h => ⟨h.ne_nil, List.all_eq_true.mpr h.bare, h.unquoted⟩⟩

/-- A keyword and its value. -/
def passwordSetting (p : Text) : Text := "password=".toList ++ p

namespace IsPlainPassword
variable {p : Text} (hp : IsPlainPassword p)
include hp

theorem value : readPasswordValue? p = some (p, []) := by
  have hhead : p.head? ≠ some '\'' := fun h => hp.unquoted (List.mem_of_mem_head? h)
  rw [readPasswordValue?_bare hhead, readBareValue?_self hp.ne_nil hp.bare]

/-- Where a value is read, the whole setting is one. -/
theorem setting : IsPlainPassword (passwordSetting p) where
  ne_nil := List.append_ne_nil_of_right_ne_nil _ hp.ne_nil
  bare := List.forall_mem_append.mpr ⟨List.all_eq_true.mp (by decide), hp.bare⟩
  unquoted := by
    unfold passwordSetting
    rw [List.mem_append, not_or]
    exact ⟨by decide, hp.unquoted⟩

end IsPlainPassword

/-! ### The last pair -/

/-- The pair of a password behind other pairs. -/
def lastPair (p : Text) : Text := ' ' :: passwordSetting p

theorem dropWhile_append_lastPair (s p : Text) :
    (s ++ lastPair p).dropWhile isBlank =
      if IsBlank s then passwordSetting p else s.dropWhile isBlank ++ lastPair p := by
  split
  · rename_i hs
    exact List.dropWhile_append_of_pos hs
  · rename_i hs
    exact Text.dropWhile_append_of_not_all hs

/-- The last pair starts with no equals sign. -/
theorem equals_append_lastPair (s p : Text) :
    Text.dropPrefix? ['='] ((s ++ lastPair p).dropWhile isBlank) =
      (Text.dropPrefix? ['='] (s.dropWhile isBlank)).map (· ++ lastPair p) := by
  rw [dropWhile_append_lastPair]
  split
  · rename_i hs
    rw [List.dropWhile_eq_nil_iff.mpr hs]
    rfl
  · rename_i hs
    obtain ⟨c, r, hcons⟩ := List.exists_cons_of_ne_nil (mt List.dropWhile_eq_nil_iff.mp hs)
    rw [hcons, List.cons_append, Text.dropPrefix?_cons, Text.dropPrefix?_cons]
    split <;> simp [Text.dropPrefix?]

namespace PasswordSetting

theorem read?_eq (b : Bool) (s : Text) :
    read? b s =
      if b || (s.take 8).map foldLetter != "password" then none
      else (Text.dropPrefix? ['='] ((s.drop 8).dropWhile isBlank)).bind fun r =>
        (readPasswordValue? (r.dropWhile isBlank)).map fun (value, rest) =>
          (⟨s.take 8, (s.drop 8).takeWhile isBlank, r.takeWhile isBlank, value⟩, rest) := by
  simp only [read?]
  generalize (b || (s.take 8).map foldLetter != "password") = guard
  split
  · rename_i r hr
    rw [hr, show Text.dropPrefix? ['='] ('=' :: r) = some r from Text.dropPrefix?_append ['='] r, Option.bind_some]
    cases readPasswordValue? (r.dropWhile isBlank) <;> cases guard <;> rfl
  · rename_i hne
    have hstop : Text.Stops (· == '=') ((s.drop 8).dropWhile isBlank) := by
      rcases hd : (s.drop 8).dropWhile isBlank with _ | ⟨c, r⟩
      · exact Text.Stops.nil
      · exact Text.stops_cons.mpr (beq_eq_false_iff_ne.mpr fun hc => hne r (hc ▸ hd))
    rw [Text.dropPrefix?_eq_none hstop, Option.bind_none, ite_self]

/-- A pair is read up to its end. -/
theorem read?_passwordSetting {p : Text} (hp : IsPlainPassword p) :
    ∃ a, read? false (passwordSetting p) = some (a, []) := by
  have hhead : Text.Stops isBlank p := fun c hc => by
    have hbare := hp.bare c (List.mem_of_mem_head? hc)
    simp only [isBareValue, Bool.and_eq_true, Bool.not_eq_true'] at hbare
    exact hbare.1
  have htake : (passwordSetting p).take 8 = "password".toList := rfl
  have hdrop : (passwordSetting p).drop 8 = '=' :: p := rfl
  have hequals : Text.dropPrefix? ['='] (('=' :: p).dropWhile isBlank) = some p := Text.dropPrefix?_append ['='] p
  have hkeyword : (false || "password".toList.map foldLetter != ("password" : Text)) = false := by
    rw [Text.ofString_eq]
    decide
  have hread := read?_eq false (passwordSetting p)
  rw [htake, hdrop, hkeyword, if_neg Bool.false_ne_true, hequals, Option.bind_some, Text.dropWhile_of_stops hhead,
    hp.value] at hread
  exact ⟨_, hread⟩

/-- No keyword has a blank in it. -/
theorem read?_eq_none {s : Text} (h : ' ' ∈ s.take 8) (b : Bool) : read? b s = none := by
  have hkeyword : ((s.take 8).map foldLetter != "password") = true := by
    rw [bne_iff_ne]
    intro he
    have hmem := List.mem_map_of_mem (f := foldLetter) h
    rw [he, Text.ofString_eq] at hmem
    exact absurd hmem (by decide)
  rw [read?_eq, hkeyword, Bool.or_true, if_pos rfl]

theorem read?_short {s : Text} (h : s.length < 8) (b : Bool) : read? b s = none := by
  rw [read?_eq, List.drop_eq_nil_of_le (Nat.le_of_lt h)]
  simp [Text.dropPrefix?]

/-- Behind a text the last pair changes nothing at the front, or is read up to its end. -/
theorem read?_append_lastPair (b : Bool) (s : Text) :
    (∀ p, IsPlainPassword p → read? b (s ++ lastPair p) = (read? b s).map fun (a, r) => (a, r ++ lastPair p)) ∨
      ∀ p, IsPlainPassword p → ∃ a, read? b (s ++ lastPair p) = some (a, []) := by
  by_cases hshort : s.length < 8
  · refine .inl fun p hp => ?_
    have hmem : ' ' ∈ (s ++ lastPair p).take 8 := by
      refine List.mem_iff_getElem.mpr ⟨s.length, ?_, ?_⟩
      · simp [lastPair]; omega
      · simp [lastPair]
    rw [read?_eq_none hmem, read?_short hshort]
    rfl
  have htake : ∀ p, (s ++ lastPair p).take 8 = s.take 8 := fun p => List.take_append_of_le_length (by omega)
  have hdrop : ∀ p, (s ++ lastPair p).drop 8 = s.drop 8 ++ lastPair p := fun p =>
    List.drop_append_of_le_length (by omega)
  by_cases hguard : (b || (s.take 8).map foldLetter != "password") = true
  · refine .inl fun p _ => ?_
    rw [read?_eq, htake, if_pos hguard, read?_eq, if_pos hguard]
    rfl
  rw [Bool.not_eq_true] at hguard
  rcases hequals : Text.dropPrefix? ['='] ((s.drop 8).dropWhile isBlank) with _ | r
  · refine .inl fun p _ => ?_
    rw [read?_eq, htake, hdrop, equals_append_lastPair, read?_eq, hequals, hguard]
    rfl
  by_cases hr : IsBlank r
  · refine .inr fun p hp => ?_
    have hread := read?_eq b (s ++ lastPair p)
    rw [htake, hdrop, equals_append_lastPair, hequals, hguard, if_neg Bool.false_ne_true, Option.map_some,
      Option.bind_some, dropWhile_append_lastPair, if_pos hr, hp.setting.value] at hread
    exact ⟨_, hread⟩
  · refine .inl fun p hp => ?_
    have hvalue : readPasswordValue? ((r ++ lastPair p).dropWhile isBlank) =
        (readPasswordValue? (r.dropWhile isBlank)).map fun (value, rest) => (value, rest ++ lastPair p) := by
      rw [dropWhile_append_lastPair, if_neg hr]
      exact readPasswordValue?_append (by decide) hp.setting.unquoted _
    have hblanks : ∀ t, ¬IsBlank t → (t ++ lastPair p).takeWhile isBlank = t.takeWhile isBlank := fun t ht =>
      Text.takeWhile_append_of_not_all ht
    have hbefore : ¬IsBlank (s.drop 8) := fun hs => by
      rw [List.dropWhile_eq_nil_iff.mpr hs] at hequals
      cases hequals
    rw [read?_eq, htake, hdrop, equals_append_lastPair, read?_eq, hequals, hguard, if_neg Bool.false_ne_true,
      if_neg Bool.false_ne_true, Option.map_some, Option.bind_some, Option.bind_some, hvalue, hblanks r hr,
      hblanks _ hbefore, Option.map_map, Option.map_map]
    rfl

end PasswordSetting

/-! ### The whole string -/

namespace PasswordSetting

/-- The first setting ends before the last pair, alike for all passwords, or it ends with that pair. -/
theorem find?_append_lastPair (b : Bool) (s : Text) :
    (∃ g a r, r.length < s.length ∧
      ∀ p, IsPlainPassword p → pattern.find? b (s ++ lastPair p) = some (g, a, r ++ lastPair p)) ∨
      ∃ g, ∀ p, IsPlainPassword p → ∃ a, pattern.find? b (s ++ lastPair p) = some (g, a, []) := by
  induction s generalizing b with
  | nil =>
    refine .inr ⟨[' '], fun p hp => ?_⟩
    obtain ⟨a, ha⟩ := read?_passwordSetting hp
    have hfirst : ' ' ∈ (' ' :: passwordSetting p).take 8 := List.mem_cons_self
    have hblank : pattern.read? b (' ' :: passwordSetting p) = none := read?_eq_none hfirst b
    have hfind : pattern.find? (isWord ' ') (passwordSetting p) = some ([], a, []) := pattern.find?_read ha
    refine ⟨a, ?_⟩
    rw [List.nil_append, lastPair, Pattern.find?, hblank, hfind]
    rfl
  | cons c s ih =>
    rcases read?_append_lastPair b (c :: s) with hread | hread
    · cases hfront : read? b (c :: s) with
      | some found =>
        obtain ⟨a, r⟩ := found
        refine .inl ⟨[], a, r, ?_, fun p hp => ?_⟩
        · have hne := List.length_pos_iff.mpr (pattern.render_ne_nil hfront)
          rw [← pattern.render_append hfront, List.length_append]
          omega
        · exact pattern.find?_read (by rw [show pattern.read? = read? from rfl, hread p hp, hfront]; rfl)
      | none =>
        have hnone : ∀ p, IsPlainPassword p → pattern.read? b (c :: (s ++ lastPair p)) = none := fun p hp =>
          (hread p hp).trans (by rw [hfront]; rfl)
        rcases ih (isWord c) with ⟨g, a, r, hr, hfind⟩ | ⟨g, hfind⟩
        · refine .inl ⟨c :: g, a, r, Nat.lt_succ_of_lt hr, fun p hp => ?_⟩
          rw [List.cons_append, Pattern.find?, hnone p hp, hfind p hp]
          rfl
        · refine .inr ⟨c :: g, fun p hp => ?_⟩
          obtain ⟨a, ha⟩ := hfind p hp
          refine ⟨a, ?_⟩
          rw [List.cons_append, Pattern.find?, hnone p hp, ha]
          rfl
    · refine .inr ⟨[], fun p hp => ?_⟩
      obtain ⟨a, ha⟩ := hread p hp
      exact ⟨a, pattern.find?_read ha⟩

end PasswordSetting

/-- Masking behind a character, which may be one of a word. -/
def maskBehind (b : Bool) (s : Text) : Text :=
  let found := PasswordSetting.pattern.scan b s
  found.hits.flatMap (fun (gap, _) => gap ++ maskedSetting) ++ found.tail

theorem maskBehind_some {b : Bool} {s g r : Text} {a : PasswordSetting}
    (h : PasswordSetting.pattern.find? b s = some (g, a, r)) :
    maskBehind b s = g ++ maskedSetting ++ maskBehind (endsInWord b (g ++ a.render)) r := by
  simp only [maskBehind, PasswordSetting.pattern.scan_some h, List.flatMap_cons, List.append_assoc]
  rfl

theorem maskBehind_nil (b : Bool) : maskBehind b [] = [] := by
  rw [maskBehind, PasswordSetting.pattern.scan_none rfl]
  rfl

/-- What stands before the last pair determines the masked text. -/
theorem exists_maskBehind (b : Bool) (s : Text) :
    ∃ shown, ∀ p, IsPlainPassword p → maskBehind b (s ++ lastPair p) = shown := by
  induction hn : s.length using Nat.strong_induction_on generalizing b s with
  | _ n ih =>
    rcases PasswordSetting.find?_append_lastPair b s with ⟨g, a, r, hr, hfind⟩ | ⟨g, hfind⟩
    · obtain ⟨shown, hshown⟩ := ih r.length (hn ▸ hr) (endsInWord b (g ++ a.render)) r rfl
      exact ⟨g ++ maskedSetting ++ shown, fun p hp => by rw [maskBehind_some (hfind p hp), hshown p hp]⟩
    · refine ⟨g ++ maskedSetting, fun p hp => ?_⟩
      obtain ⟨a, ha⟩ := hfind p hp
      rw [maskBehind_some ha, maskBehind_nil, List.append_nil]

/-- Where the client gets no server, the error shows the connection string with its passwords masked. -/
theorem Session.openStore_refused (session : Session) {settings : ServerSettings} {target message : Text}
    (htarget : settings.write = .ok target) (hclient : session.client target = .error message) :
    session.openStore (.server settings) = .error (.unopened (maskPasswords target) message) := by
  rw [openStore, htarget]
  dsimp only
  rw [Client.connect, hclient]
  rfl

namespace ServerSettings
variable {s : ServerSettings} {host user database : Text}

theorem writePairs_append {first : Text × Text} {pairs : List (Text × Text)} (last : Text × Text) :
    writePairs (first :: pairs ++ [last]) = writePairs (first :: pairs) ++ (" " ++ last.1 ++ "=" ++ last.2) := by
  unfold writePairs
  rw [List.cons_append, List.map_cons, List.map_cons, Text.join_cons, Text.join_cons, List.map_append,
    List.flatMap_append, List.append_assoc]
  simp [List.append_assoc]

theorem write_eq_ok (hgiven : s.connectionString = none) (hhost : s.host = some host) (huser : s.user = some user)
    (hdatabase : s.database = some database) : s.write = .ok (writePairs (s.pairs host user database)) := by
  unfold write
  rw [hgiven, hhost, huser, hdatabase]

/-- The password is written last. -/
theorem write_password (hgiven : s.connectionString = none) (hhost : s.host = some host) (huser : s.user = some user)
    (hdatabase : s.database = some database) :
    ∃ front, ∀ p, ({ s with password := some p }).write = .ok (front ++ lastPair p) := by
  refine ⟨writePairs ({ s with password := none }.pairs host user database), fun p => ?_⟩
  have hpairs : { s with password := some p }.pairs host user database =
      { s with password := none }.pairs host user database ++ [(("password" : Text), p)] := rfl
  have hlast : lastPair p = " " ++ "password" ++ "=" ++ p := by
    simp only [Text.ofString_eq]
    rfl
  rw [write_eq_ok (s := { s with password := some p }) hgiven hhost huser hdatabase, hpairs, hlast]
  exact congrArg Except.ok (writePairs_append _)

/-- A client that gets no server is reported with its connection string masked. That string is the same for all
    passwords without blanks, ampersands and single quotes. -/
theorem unopened_target (hgiven : s.connectionString = none) (hhost : s.host = some host) (huser : s.user = some user)
    (hdatabase : s.database = some database) :
    ∃ shown, ∀ p, IsPlainPassword p →
      ({ s with password := some p }).write.map maskPasswords = .ok shown ∧
        ∀ (session : Session) target message, ({ s with password := some p }).write = .ok target →
          session.client target = .error message →
            session.openStore (.server { s with password := some p }) = .error (.unopened shown message) := by
  obtain ⟨front, hwrite⟩ := write_password hgiven hhost huser hdatabase
  obtain ⟨shown, hshown⟩ := exists_maskBehind false front
  have hmask : ∀ p, IsPlainPassword p → maskPasswords (front ++ lastPair p) = maskUrl shown := fun p hp =>
    congrArg maskUrl (hshown p hp)
  refine ⟨maskUrl shown, fun p hp => ⟨?_, fun session target message htarget hclient => ?_⟩⟩
  · rw [hwrite, ← hmask p hp]
    rfl
  · have hopen := session.openStore_refused htarget hclient
    rw [hwrite] at htarget
    cases htarget
    rwa [hmask p hp] at hopen

/-- A server whose database name reads like a password of its own. -/
def nestedSettings : ServerSettings :=
  ⟨none, some "h".toList, some "password = 'x".toList, some "d password=".toList, 0, none⟩

theorem unopened_target_nestedSettings :
    IsPlainPassword "a=b:c@d".toList ∧ IsPlainPassword "\\secret".toList ∧
      ({ nestedSettings with password := some "a=b:c@d".toList }).write.map maskPasswords =
        ({ nestedSettings with password := some "\\secret".toList }).write.map maskPasswords := by
  obtain ⟨shown, h⟩ := unopened_target (s := nestedSettings) rfl rfl rfl rfl
  have hp : IsPlainPassword "a=b:c@d".toList := by decide
  have hq : IsPlainPassword "\\secret".toList := by decide
  exact ⟨hp, hq, (h _ hp).1.trans (h _ hq).1.symm⟩

/-- A blank ends what is masked, and the rest of the password is shown. -/
theorem unopened_target_shows_password :
    let s : ServerSettings := ⟨none, some "h".toList, some "u".toList, some "d".toList, 0, none⟩
    ({ s with password := some "two words".toList }).write.map maskPasswords =
        .ok "host=h port=5432 user=u dbname=d password=*** words".toList ∧
      ({ s with password := some "secret".toList }).write.map maskPasswords =
        .ok "host=h port=5432 user=u dbname=d password=***".toList := by
  decide +kernel

end ServerSettings

end Schemata
