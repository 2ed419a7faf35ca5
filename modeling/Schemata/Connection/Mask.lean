import Schemata.Text.Pattern

/-! Passwords in connection strings, made unreadable: those of a keyword, quoted or not, and those of a URL. -/

namespace Schemata

/-- A password as a connection string sets it: the keyword, the blanks around the equals sign, and the value. -/
structure PasswordSetting where
  keyword : Text
  before : Text
  after : Text
  value : Text
  deriving DecidableEq, Repr

/-- A letter in lower case; the long s is an s. -/
def foldLetter (c : Char) : Char := if c == 'ſ' then 's' else c.toLower

/-- Reads a quoted value behind its opening quote, up to the closing one. A backslash takes a character with it that
    does not end the line. -/
def readQuoted? : Text → Option (Text × Text)
  | [] => none
  | [c] => if c == '\'' then some ([c], []) else none
  | c :: d :: s =>
    if c == '\'' then some ([c], d :: s)
    else if c == '\\' then
      if d == '\n' then none else (readQuoted? s).map fun (value, r) => (c :: d :: value, r)
    else (readQuoted? (d :: s)).map fun (value, r) => (c :: value, r)

theorem append_readQuoted? {s value r : Text} (h : readQuoted? s = some (value, r)) : value ++ r = s := by
  fun_induction readQuoted? s generalizing value with
  | case1 => cases h
  | case2 | case4 => cases h; rfl
  | case3 | case5 => cases h
  | case6 c d s _ _ _ ih | case7 c d s _ _ ih =>
    obtain ⟨⟨value', r'⟩, hq, he⟩ := Option.map_eq_some_iff.mp h
    cases he
    simp only [List.cons_append, ih hq]

/-- Whether a character belongs to a value without quotes. -/
def isBareValue (c : Char) : Bool := !isBlank c && c != '&'

/-- Reads a value: a quoted one if it is closed, else one without quotes. -/
def readPasswordValue? (s : Text) : Option (Text × Text) :=
  match (if s.head? == some '\'' then readQuoted? s.tail else none) with
  | some (value, r) => some ('\'' :: value, r)
  | none => if (s.takeWhile isBareValue).isEmpty then none else some (s.takeWhile isBareValue, s.dropWhile isBareValue)

theorem append_readPasswordValue? {s value r : Text} (h : readPasswordValue? s = some (value, r)) :
    value ++ r = s := by
  unfold readPasswordValue? at h
  split at h
  · rename_i value' r' hq
    split at hq
    · rename_i hs
      cases h
      obtain ⟨c, s⟩ := s
      · simp at hs
      · simp only [List.head?_cons, beq_iff_eq, Option.some.injEq] at hs
        rw [List.tail_cons] at hq
        rw [hs, List.cons_append, append_readQuoted? hq]
    · cases hq
  · split at h
    · cases h
    · cases h
      exact List.takeWhile_append_dropWhile

namespace PasswordSetting

def render (p : PasswordSetting) : Text := p.keyword ++ p.before ++ ['='] ++ p.after ++ p.value

/-- Reads a setting at the front of a text, unless a word goes on there. -/
def read? (afterWord : Bool) (s : Text) : Option (PasswordSetting × Text) :=
  let keyword := s.take 8
  let behind := s.drop 8
  match behind.dropWhile isBlank with
  | '=' :: r =>
    match readPasswordValue? (r.dropWhile isBlank) with
    | some (value, rest) =>
      if afterWord || keyword.map foldLetter != "password" then none
      else some (⟨keyword, behind.takeWhile isBlank, r.takeWhile isBlank, value⟩, rest)
    | none => none
  | _ => none

theorem render_append_of_read? {b : Bool} {s r : Text} {p : PasswordSetting} (h : read? b s = some (p, r)) :
    p.render ++ r = s := by
  simp only [read?] at h
  split at h
  · rename_i t ht
    split at h
    · rename_i value rest hv
      split at h
      · cases h
      · cases h
        simp only [render, List.append_assoc]
        rw [append_readPasswordValue? hv, List.takeWhile_append_dropWhile, List.singleton_append, ← ht,
          List.takeWhile_append_dropWhile, List.take_append_drop]
    · cases h
  · cases h

/-- Settings as a shape to look for. -/
def pattern : Pattern PasswordSetting where
  read? := read?
  render := render
  render_append := render_append_of_read?
  render_ne_nil _ := by simp [render]

end PasswordSetting

/-- What stands in place of a password's setting. -/
def maskedSetting : Text := "password=***"

/-- Masks the passwords that keywords set. -/
def maskSettings (s : Text) : Text :=
  let found := PasswordSetting.pattern.scan false s
  found.hits.flatMap (fun (gap, _) => gap ++ maskedSetting) ++ found.tail

/-- Masks the password in front of the host of a URL. -/
def maskUrl (s : Text) : Text :=
  match Text.cutAt? "://" s with
  | none => s
  | some (scheme, rest) =>
    match Text.cut? '@' rest with
    | none => s
    | some (credentials, host) =>
      match Text.cut? ':' credentials with
      | none => s
      | some (user, _) => scheme ++ "://" ++ user ++ ":***@" ++ host

/-- A connection string that may be shown. -/
def maskPasswords (s : Text) : Text := maskUrl (maskSettings s)

end Schemata
