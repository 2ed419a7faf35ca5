import Schemata.Sql.CreateTable

/-! What one token can do to the reading of a statement, whatever else the statement holds: how many parentheses are
    open behind it, which part waits there, and whether a key is being read. Everything that is proved about whole
    statements uses these facts and does not look into the table of moves again. -/

namespace Schemata.Sql

/-! ### Signs and words -/

namespace Token
variable {t : Token}

theorem isSign_iff {sign : Text} : t.isSign sign = true ↔ t.kind = .symbol ∧ t.text = sign := by
  simp [isSign]

theorem isSign_of_kind (h : t.kind ≠ .symbol) (sign : Text) : t.isSign sign = false := by
  simp [isSign, h]

theorem isWord_of_kind (h : t.kind ≠ .word) (word : Text) : t.isWord word = false := by
  simp [isWord, h]

theorem kind_of_isWord {word : Text} (h : t.isWord word = true) : t.kind = .word := by
  simp only [isWord, Bool.and_eq_true, beq_iff_eq] at h
  exact h.1

theorem text_of_name? {name : Text} (hkind : t.kind = .word) (h : t.name? = some name) : t.text = name := by
  rw [name?, hkind] at h
  dsimp only at h
  split at h <;> cases h
  rfl

theorem kind_of_name? {name : Text} (h : t.name? = some name) : t.kind ≠ .symbol := fun hk => by
  rw [name?, hk] at h
  cases h

theorem kind_of_typeName? {name : Text} (h : t.typeName? = some name) : t.kind ≠ .symbol := by
  unfold typeName? at h
  split at h
  · cases h
  · exact kind_of_name? h

theorem isSign_of_isSign {a b : Text} (h : t.isSign a = true) (hne : a ≠ b) : t.isSign b = false := by
  cases hb : t.isSign b with
  | false => rfl
  | true => exact absurd ((isSign_iff.mp h).2.symm.trans (isSign_iff.mp hb).2) hne

theorem isWord_of_isWord {a b : Text} (h : t.isWord a = true) (hne : Text.lower a ≠ Text.lower b) :
    t.isWord b = false := by
  cases hb : t.isWord b with
  | false => rfl
  | true =>
    simp only [isWord, Bool.and_eq_true, Text.sameFolded, beq_iff_eq] at h hb
    exact absurd (h.2.symm.trans hb.2) hne

theorem name?_of_isWord {word : Text} (h : t.isWord word = true)
    (hword : reservedWords.contains (Text.lower word) = true) : t.name? = none := by
  have htext : Text.lower t.text = Text.lower word := by
    simp only [isWord, Bool.and_eq_true, Text.sameFolded, beq_iff_eq] at h
    exact h.2
  rw [name?, kind_of_isWord h]
  exact if_pos (by rw [isReserved, htext, hword])

/-- How many parentheses a token opens. -/
def opens (t : Token) : Nat := if t.isSign "(" then 1 else 0

/-- How many parentheses a token closes. -/
def closes (t : Token) : Nat := if t.isSign ")" then 1 else 0

theorem level_of_kind (h : t.kind ≠ .symbol) : t.opens = 0 ∧ t.closes = 0 := by
  rw [opens, closes, isSign_of_kind h, isSign_of_kind h]
  exact ⟨rfl, rfl⟩

theorem level_of_isWord {word : Text} (h : t.isWord word = true) : t.opens = 0 ∧ t.closes = 0 :=
  level_of_kind (by simp [kind_of_isWord h])

theorem level_of_name? {name : Text} (h : t.name? = some name) : t.opens = 0 ∧ t.closes = 0 :=
  level_of_kind (kind_of_name? h)

theorem level_of_open (h : t.isSign "(" = true) : t.opens = 1 ∧ t.closes = 0 := by
  rw [opens, closes, h, isSign_of_isSign h (by simp [Text.ofString_eq])]
  exact ⟨rfl, rfl⟩

theorem level_of_close (h : t.isSign ")" = true) : t.opens = 0 ∧ t.closes = 1 := by
  rw [opens, closes, h, isSign_of_isSign h (by simp [Text.ofString_eq])]
  exact ⟨rfl, rfl⟩

theorem level_of_isSign {sign : Text} (h : t.isSign sign = true) (ho : sign ≠ ("(" : Text)) (hc : sign ≠ (")" : Text)) :
    t.opens = 0 ∧ t.closes = 0 := by
  rw [opens, closes, isSign_of_isSign h ho, isSign_of_isSign h hc]
  exact ⟨rfl, rfl⟩

theorem level_of_comma (h : t.isSign "," = true) : t.opens = 0 ∧ t.closes = 0 :=
  level_of_isSign h (by simp [Text.ofString_eq]) (by simp [Text.ofString_eq])

theorem level_of_semicolon (h : t.isSign ";" = true) : t.opens = 0 ∧ t.closes = 0 :=
  level_of_isSign h (by simp [Text.ofString_eq]) (by simp [Text.ofString_eq])

theorem level_of_numberSign (h : (t.isSign "+" || t.isSign "-") = true) : t.opens = 0 ∧ t.closes = 0 := by
  rw [Bool.or_eq_true] at h
  rcases h with h | h
  · exact level_of_isSign h (by simp [Text.ofString_eq]) (by simp [Text.ofString_eq])
  · exact level_of_isSign h (by simp [Text.ofString_eq]) (by simp [Text.ofString_eq])

theorem level_of_isLiteral (h : t.isLiteral = true) : t.opens = 0 ∧ t.closes = 0 := by
  refine level_of_kind fun hk => ?_
  simp [isLiteral, isWord, hk] at h

theorem level_of_value (h : (t.isLiteral || t.typeName?.isSome || t.isWord "indexed") = true) :
    t.opens = 0 ∧ t.closes = 0 := by
  rw [Bool.or_eq_true, Bool.or_eq_true] at h
  rcases h with (h | h) | h
  · exact level_of_isLiteral h
  · obtain ⟨name, hname⟩ := Option.isSome_iff_exists.mp h
    exact level_of_kind (kind_of_typeName? hname)
  · exact level_of_isWord h

end Token

/-! ### Places -/

/-- The column that a part adds to the table. -/
def Part.columns : Part → List Text
  | .column c _ => [c]
  | _ => []

namespace Place

/-- How many parentheses of the statement are open at a place. -/
def depth : Place → Nat
  | statement | create | table | ifWord | ifNot | tableName | named => 0
  | closed | closedComma | option | finished => 0
  | size .. | sized .. | remote .. | keyColumns .. | tableKeyColumns .. | unread => 2
  | _ => 1

/-- Whether the table's name has taken effect at a place. -/
def isBeyondName : Place → Bool
  | statement | create | table | ifWord | ifNot | tableName | named => false
  | _ => true

/-- Whether the target of a foreign key is being read at a place, or waits there. -/
def readsTarget : Place → Bool
  | references _ | remoteTable _ | remote .. | remoteEnd _ => true
  | _ => false

/-- Whether a clause of the list begins at a place. -/
def begins : Place → Bool
  | firstColumn | item | tableConstraint => true
  | _ => false

/-- The part that waits at a place, as far as the place tells. -/
def Awaits : Place → Option Part → Prop
  | named, part => ∃ token lenient, part = some (.name token lenient)
  | typed name _, part => ∃ integer, part = some (.column name integer)
  | constraints, part =>
    part = none ∨ (∃ name, part = some (.column name false)) ∨ ∃ auto, part = some (.primaryKey auto)
  | key, part => part = some (.primaryKey false)
  | remoteTable k, part | remoteEnd k, part => part = some (.foreignKey k)
  | constraintEnd, part => part = none ∨ ∃ primary columns, part = some (.tableKey primary columns)
  | option, part => ∃ name, part = some (.option name)
  | _, part => part = none

/-- The column whose size is being read at a place. -/
def sizedColumn? : Place → Option Text
  | size name _ _ | sized name _ => some name
  | _ => none

/-- The column that is still to be added at a place, with the part that waits there. -/
def waiting (p : Place) (part : Option Part) : List Text := part.elim [] Part.columns ++ p.sizedColumn?.toList

/-- The column that a token declares at a place. -/
def declared (p : Place) (t : Token) : List Text := if p.begins then t.name?.toList else []

/-- What one token does, in a move from the place `p`. -/
structure Sound (p : Place) (t : Token) (m : Move) : Prop where
  awaits : m.place.Awaits m.part
  depth : m.place = unread ∨ m.place.depth + t.closes = p.depth + t.opens
  beyondName : p.isBeyondName = true → m.place.isBeyondName = true
  target : m.place.readsTarget = true → p.readsTarget = true ∨ t.isWord "references" = true
  begins : m.place.begins = true → t.isSign "," = true ∨ t.isSign "(" = true
  statement : m.place = statement → t.isSign ";" = true
  finished : m.place = finished → t.isSign ";" = true ∨ p = option
  /-- Columns are added by taking effect, and wait until then, except where a token declares one. -/
  columns : ∀ part, p.Awaits part →
    (if m.completes then part.elim [] Part.columns else []) ++ m.place.waiting m.part = p.waiting part ++ p.declared t

/-! ### Moves one by one -/

/-- That every move there is has a property. -/
def Always (P : Move → Prop) (move : Option Move) : Prop := ∀ m ∈ move, P m

section Always
variable {P : Move → Prop}

theorem always_none : Always P none := fun _ h => by cases h

theorem always_goTo {q : Place} {part : Option Part} (h : P ⟨q, part, true⟩) : Always P (goTo q part) := fun _ hm => by
  cases hm
  exact h

theorem always_extend {q : Place} {part : Option Part} (h : P ⟨q, part, false⟩) : Always P (extend q part) :=
  fun _ hm => by
    cases hm
    exact h

theorem always_ite {c : Bool} {a b : Option Move} (ha : c = true → Always P a) (hb : c = false → Always P b) :
    Always P (if c then a else b) := by
  cases c with
  | true => exact ha rfl
  | false => exact hb rfl

theorem always_bind {α : Type} {o : Option α} {f : α → Option Move} (h : ∀ a, o = some a → Always P (f a)) :
    Always P (o.bind f) := by
  cases o with
  | none => exact always_none
  | some a => exact h a rfl

theorem always_orElse {a b : Option Move} (ha : Always P a) (hb : a = none → Always P b) : Always P (a <|> b) := by
  cases a with
  | none => exact hb rfl
  | some m => exact ha

end Always

variable {p : Place} {t : Token}

/-- What a move that completes the waiting part asks of its two places, told without the token. -/
structure Fits (p : Place) (opened closed : Nat) (q : Place) (part : Option Part) : Prop where
  awaits : q.Awaits part
  depth : q = unread ∨ q.depth + closed = p.depth + opened
  beyondName : p.isBeyondName = true → q.isBeyondName = true
  target : q.readsTarget = true → p.readsTarget = true
  begins : q.begins = false
  statement : q ≠ .statement
  finished : q ≠ .finished
  columns : q.waiting part = p.sizedColumn?.toList

attribute [local simp] Part.columns depth isBeyondName readsTarget begins Awaits sizedColumn? waiting declared

theorem fits_iff {opened closed : Nat} {q : Place} {part : Option Part} :
    Fits p opened closed q part ↔ q.Awaits part ∧ (q = unread ∨ q.depth + closed = p.depth + opened) ∧
      (p.isBeyondName = true → q.isBeyondName = true) ∧ (q.readsTarget = true → p.readsTarget = true) ∧
      q.begins = false ∧ q ≠ .statement ∧ q ≠ .finished ∧ q.waiting part = p.sizedColumn?.toList :=
  ⟨fun ⟨h1, h2, h3, h4, h5, h6, h7, h8⟩ => ⟨h1, h2, h3, h4, h5, h6, h7, h8⟩,
    fun ⟨h1, h2, h3, h4, h5, h6, h7, h8⟩ => ⟨h1, h2, h3, h4, h5, h6, h7, h8⟩⟩

theorem sound_goTo {opened closed : Nat} {q : Place} {part : Option Part} (hp : p.begins = false)
    (ht : t.opens = opened ∧ t.closes = closed) (h : Fits p opened closed q part) :
    Always (Sound p t) (goTo q part) := by
  refine always_goTo ⟨h.awaits, ?_, h.beyondName, fun hq => Or.inl (h.target hq), fun hq => ?_,
    fun hq => absurd hq h.statement, fun hq => absurd hq h.finished, fun part' _ => ?_⟩
  · rw [ht.1, ht.2]
    exact h.depth
  · rw [h.begins] at hq
    cases hq
  · rw [if_pos rfl, h.columns, waiting, declared, hp, if_neg Bool.false_ne_true, List.append_nil]

section Rules
variable {q : Place} {part : Option Part} {otherwise : Option Move}

theorem sound_word {word : Text} (hp : p.begins = false) (h : Fits p 0 0 q part) (hb : Always (Sound p t) otherwise) :
    Always (Sound p t) (if t.isWord word then goTo q part else otherwise) :=
  always_ite (fun ht => sound_goTo hp (Token.level_of_isWord ht) h) fun _ => hb

theorem sound_words {a b : Text} (hp : p.begins = false) (h : Fits p 0 0 q part)
    (hb : Always (Sound p t) otherwise) :
    Always (Sound p t) (if t.isWord a || t.isWord b then goTo q part else otherwise) :=
  always_ite (fun ht => sound_goTo hp (by
    rcases Bool.or_eq_true_iff.mp ht with ht | ht
    · exact Token.level_of_isWord ht
    · exact Token.level_of_isWord ht) h) fun _ => hb

theorem sound_open (hp : p.begins = false) (h : Fits p 1 0 q part) :
    Always (Sound p t) (if t.isSign "(" then goTo q part else none) :=
  always_ite (fun ht => sound_goTo hp (Token.level_of_open ht) h) fun _ => always_none

theorem sound_close (hp : p.begins = false) (h : Fits p 0 1 q part) (hb : Always (Sound p t) otherwise) :
    Always (Sound p t) (if t.isSign ")" then goTo q part else otherwise) :=
  always_ite (fun ht => sound_goTo hp (Token.level_of_close ht) h) fun _ => hb

theorem sound_comma (hp : p.begins = false) (h : Fits p 0 0 q part) (hb : Always (Sound p t) otherwise) :
    Always (Sound p t) (if t.isSign "," then goTo q part else otherwise) :=
  always_ite (fun ht => sound_goTo hp (Token.level_of_comma ht) h) fun _ => hb

theorem sound_name {q : Text → Place} {part : Text → Option Part} (hp : p.begins = false)
    (h : ∀ name, Fits p 0 0 (q name) (part name)) :
    Always (Sound p t) (t.name?.bind fun name => goTo (q name) (part name)) :=
  always_bind fun name ht => sound_goTo hp (Token.level_of_name? ht) (h name)

end Rules

/-! ### What several places do alike -/

theorem sound_behindColumn : Always (Sound constraints t) (behindColumn t) := by
  unfold behindColumn
  refine sound_word rfl (fits_iff.mpr (by simp)) ?_
  refine sound_word rfl (fits_iff.mpr (by simp)) ?_
  refine sound_words rfl (fits_iff.mpr (by simp)) ?_
  refine sound_word rfl (fits_iff.mpr (by simp)) ?_
  refine always_ite (fun ht => always_goTo ?_) fun _ => ?_
  · obtain ⟨hopens, hcloses⟩ := Token.level_of_isWord ht
    exact ⟨rfl, .inr (by rw [hopens, hcloses]; rfl), fun _ => rfl, fun _ => .inr ht, nofun, nofun, nofun,
      fun part _ => by simp⟩
  refine sound_word rfl (fits_iff.mpr (by simp)) ?_
  refine sound_word rfl (fits_iff.mpr (by simp)) ?_
  refine sound_words rfl (fits_iff.mpr (by simp)) ?_
  refine sound_words rfl (fits_iff.mpr (by simp)) ?_
  refine always_ite (fun ht => always_goTo ?_) fun _ => ?_
  · obtain ⟨hopens, hcloses⟩ := Token.level_of_comma ht
    exact ⟨rfl, .inr (by rw [hopens, hcloses]; rfl), fun _ => rfl, nofun, fun _ => .inl ht, nofun, nofun,
      fun part _ => by simp⟩
  exact sound_close rfl (fits_iff.mpr (by simp)) always_none

theorem sound_constraintStart : Always (Sound constraintEnd t) (constraintStart t) := by
  unfold constraintStart
  refine sound_word rfl (fits_iff.mpr (by simp)) ?_
  refine sound_word rfl (fits_iff.mpr (by simp)) ?_
  refine sound_word rfl (fits_iff.mpr (by simp)) ?_
  refine sound_word rfl (fits_iff.mpr (by simp)) ?_
  exact sound_word rfl (fits_iff.mpr (by simp)) always_none

theorem sound_behindConstraint : Always (Sound constraintEnd t) (behindConstraint t) := by
  unfold behindConstraint
  refine always_ite (fun ht => always_goTo ?_) fun _ => ?_
  · obtain ⟨hopens, hcloses⟩ := Token.level_of_comma ht
    exact ⟨rfl, .inr (by rw [hopens, hcloses]; rfl), fun _ => rfl, nofun, fun _ => .inl ht, nofun, nofun,
      fun part _ => by simp⟩
  exact sound_close rfl (fits_iff.mpr (by simp)) sound_constraintStart

theorem completes_of_behindColumn : Always (fun m => m.completes = true) (behindColumn t) := by
  unfold behindColumn
  repeat' refine always_ite (fun _ => always_goTo rfl) fun _ => ?_
  exact always_none

theorem completes_of_constraintStart : Always (fun m => m.completes = true) (constraintStart t) := by
  unfold constraintStart
  repeat' refine always_ite (fun _ => always_goTo rfl) fun _ => ?_
  exact always_none

theorem completes_of_behindConstraint : Always (fun m => m.completes = true) (behindConstraint t) := by
  unfold behindConstraint
  refine always_ite (fun _ => always_goTo rfl) fun _ => ?_
  exact always_ite (fun _ => always_goTo rfl) fun _ => completes_of_constraintStart

/-- No word that starts a table constraint is a name. -/
theorem name?_of_constraintStart : Always (fun _ => t.name? = none) (constraintStart t) := by
  unfold constraintStart
  repeat' refine always_ite (fun ht => always_goTo (Token.name?_of_isWord ht (by decide +kernel))) fun _ => ?_
  exact always_none

/-- A move that is sound where nothing waits is sound at each place of the list where no size is read. -/
theorem Sound.elsewhere {q : Place} {m : Move} (h : Sound q t m) (hq : q = constraints ∨ q = constraintEnd)
    (hcompletes : m.completes = true) (hdepth : p.depth = 1) (hsized : p.sizedColumn? = none)
    (hdeclared : p.declared t = []) : Sound p t m := by
  have hplace : q.depth = 1 ∧ q.isBeyondName = true ∧ q.readsTarget = false ∧ q ≠ option ∧ q.Awaits none ∧
      q.waiting none ++ q.declared t = [] := by
    rcases hq with rfl | rfl
    · exact ⟨rfl, rfl, rfl, nofun, .inl rfl, rfl⟩
    · exact ⟨rfl, rfl, rfl, nofun, .inl rfl, rfl⟩
  obtain ⟨hqdepth, hname, htarget, hoption, hawaits, hnone⟩ := hplace
  refine ⟨h.awaits, ?_, fun _ => h.beyondName hname, fun hm => ?_, h.begins, h.statement, fun hm => ?_,
    fun part _ => ?_⟩
  · rw [hdepth, ← hqdepth]
    exact h.depth
  · exact (h.target hm).imp (fun hq => by rw [htarget] at hq; cases hq) id
  · exact (h.finished hm).imp id fun hq => absurd hq hoption
  · have hwaiting := h.columns none hawaits
    rw [hnone, if_pos hcompletes, Option.elim_none, List.nil_append] at hwaiting
    rw [if_pos hcompletes, hwaiting, hdeclared, waiting, hsized, Option.toList_none, List.append_nil,
      List.append_nil]

section Elsewhere
variable (hdepth : p.depth = 1) (hsized : p.sizedColumn? = none) (hdeclared : p.declared t = [])
include hdepth hsized hdeclared

theorem sound_behindColumn_of : Always (Sound p t) (behindColumn t) := fun m hm =>
  (sound_behindColumn m hm).elsewhere (.inl rfl) (completes_of_behindColumn m hm) hdepth hsized hdeclared

theorem sound_behindConstraint_of : Always (Sound p t) (behindConstraint t) := fun m hm =>
  (sound_behindConstraint m hm).elsewhere (.inr rfl) (completes_of_behindConstraint m hm) hdepth hsized hdeclared

theorem sound_behindKey (k : KeyDraft) : Always (Sound p t) (behindKey k t) :=
  always_ite (fun _ => sound_behindConstraint_of hdepth hsized hdeclared)
    fun _ => sound_behindColumn_of hdepth hsized hdeclared

end Elsewhere

theorem sound_constraintStart_of (hdepth : p.depth = 1) (hsized : p.sizedColumn? = none) :
    Always (Sound p t) (constraintStart t) := fun m hm =>
  (sound_constraintStart m hm).elsewhere (.inr rfl) (completes_of_constraintStart m hm) hdepth hsized (by
    rw [declared, name?_of_constraintStart m hm]
    exact ite_self [])

theorem sound_column (h : p = firstColumn ∨ p = item) : Always (Sound p t) (column t) :=
  always_bind fun name ht => always_goTo (by
    obtain ⟨hopens, hcloses⟩ := Token.level_of_name? ht
    rcases h with rfl | rfl
    · exact ⟨⟨false, rfl⟩, .inr (by rw [hopens, hcloses]; rfl), fun _ => rfl, nofun, nofun, nofun, nofun,
        fun part _ => by simp [ht]⟩
    · exact ⟨⟨false, rfl⟩, .inr (by rw [hopens, hcloses]; rfl), fun _ => rfl, nofun, nofun, nofun, nofun,
        fun part _ => by simp [ht]⟩)

theorem sound_typed (name : Text) (words : List Text) :
    Always (Sound (typed name words) t) ((typed name words).nextOf t) := by
  rw [nextOf]
  cases ht : t.typeName? with
  | some word =>
    obtain ⟨hopens, hcloses⟩ := Token.level_of_kind (Token.kind_of_typeName? ht)
    exact always_extend ⟨⟨_, rfl⟩, .inr (by rw [hopens, hcloses]; rfl), fun _ => rfl, nofun, nofun, nofun, nofun,
      by rintro _ ⟨integer, rfl⟩; rfl⟩
  | none =>
    refine always_ite (fun hsize => always_extend ?_) fun _ => sound_behindColumn_of rfl rfl rfl
    obtain ⟨hopens, hcloses⟩ := Token.level_of_open (Bool.and_eq_true_iff.mp hsize).1
    exact ⟨rfl, .inr (by rw [hopens, hcloses]; rfl), fun _ => rfl, nofun, nofun, nofun, nofun,
      by rintro _ ⟨integer, rfl⟩; rfl⟩

theorem sound_ends {q : Place} (hq : q = closed ∨ q = closedComma) :
    Always (Sound q t) (t.name?.bind fun _ => goTo option (some (.option t.text))) := by
  rcases hq with rfl | rfl
  · exact sound_name rfl fun _ => fits_iff.mpr (by simp)
  · exact sound_name rfl fun _ => fits_iff.mpr (by simp)

/-- The table of all moves, read once. -/
theorem sound_of_nextOf : Always (Sound p t) (p.nextOf t) := by
  cases p with
  | statement =>
    refine always_ite (fun ht => always_goTo ?_) fun _ => sound_word rfl (fits_iff.mpr (by simp)) always_none
    obtain ⟨hopens, hcloses⟩ := Token.level_of_semicolon ht
    exact ⟨rfl, .inr (by rw [hopens, hcloses]), nofun, nofun, nofun, fun _ => ht, nofun, fun part _ => by simp⟩
  | create => exact sound_word rfl (fits_iff.mpr (by simp)) always_none
  | table =>
    exact sound_word rfl (fits_iff.mpr (by simp)) (sound_name rfl fun _ => fits_iff.mpr (by simp))
  | ifWord => exact sound_word rfl (fits_iff.mpr (by simp)) always_none
  | ifNot => exact sound_word rfl (fits_iff.mpr (by simp)) always_none
  | tableName => exact sound_name rfl fun _ => fits_iff.mpr (by simp)
  | named =>
    refine always_ite (fun ht => always_goTo ?_) fun _ => always_none
    obtain ⟨hopens, hcloses⟩ := Token.level_of_open ht
    exact ⟨rfl, .inr (by rw [hopens, hcloses]; rfl), nofun, nofun, fun _ => .inr ht, nofun, nofun,
      fun part _ => by simp⟩
  | firstColumn => exact sound_column (.inl rfl)
  | item => exact always_orElse (sound_constraintStart_of rfl rfl) fun _ => sound_column (.inr rfl)
  | typed name words => exact sound_typed name words
  | size name second signed =>
    refine always_ite (fun ht => ?_) fun _ => always_ite (fun ht => ?_) fun _ => always_none
    · exact sound_goTo rfl (Token.level_of_kind (by simp [beq_iff_eq.mp ht])) (fits_iff.mpr (by simp))
    · exact sound_goTo rfl (Token.level_of_numberSign (Bool.and_eq_true_iff.mp ht).2) (fits_iff.mpr (by simp))
  | sized name second =>
    refine sound_close rfl (fits_iff.mpr (by simp)) (always_ite (fun ht => ?_) fun _ => always_none)
    exact sound_goTo rfl (Token.level_of_comma (Bool.and_eq_true_iff.mp ht).2) (fits_iff.mpr (by simp))
  | constraints => exact sound_behindColumn
  | primary => exact sound_word rfl (fits_iff.mpr (by simp)) always_none
  | key =>
    refine always_ite (fun ht => always_extend ?_) fun _ => sound_behindColumn_of rfl rfl rfl
    obtain ⟨hopens, hcloses⟩ := Token.level_of_isWord ht
    exact ⟨.inr (.inr ⟨_, rfl⟩), .inr (by rw [hopens, hcloses]; rfl), fun _ => rfl, nofun, nofun, nofun, nofun,
      by rintro _ rfl; rfl⟩
  | notWord => exact sound_words rfl (fits_iff.mpr (by simp)) always_none
  | defaultWord =>
    refine always_ite (fun ht => ?_) fun _ => always_ite (fun ht => ?_) fun _ => always_none
    · exact sound_goTo rfl (Token.level_of_numberSign ht) (fits_iff.mpr (by simp))
    · exact sound_goTo rfl (Token.level_of_value ht) (fits_iff.mpr (by simp))
  | signedDefault =>
    exact always_ite (fun ht => sound_goTo rfl (Token.level_of_isLiteral ht) (fits_iff.mpr (by simp)))
      fun _ => always_none
  | references columns => exact sound_name rfl fun _ => fits_iff.mpr (by simp)
  | remoteTable k =>
    refine always_ite (fun ht => always_extend ?_) fun _ => sound_behindKey rfl rfl rfl k
    obtain ⟨hopens, hcloses⟩ := Token.level_of_open ht
    exact ⟨rfl, .inr (by rw [hopens, hcloses]; rfl), fun _ => rfl, fun _ => .inl rfl, nofun, nofun, nofun,
      by rintro _ rfl; rfl⟩
  | remote k named =>
    cases named with
    | false => exact sound_name rfl fun _ => fits_iff.mpr (by simp)
    | true =>
      exact sound_close rfl (fits_iff.mpr (by simp)) (sound_comma rfl (fits_iff.mpr (by simp)) always_none)
  | remoteEnd k => exact sound_behindKey rfl rfl rfl k
  | foreignWord => exact sound_word rfl (fits_iff.mpr (by simp)) always_none
  | foreignKey => exact sound_open rfl (fits_iff.mpr (by simp))
  | keyColumns columns named =>
    cases named with
    | false => exact sound_name rfl fun _ => fits_iff.mpr (by simp)
    | true =>
      exact sound_close rfl (fits_iff.mpr (by simp)) (sound_comma rfl (fits_iff.mpr (by simp)) always_none)
  | keyColumnsEnd columns =>
    refine always_ite (fun ht => always_goTo ?_) fun _ => always_none
    obtain ⟨hopens, hcloses⟩ := Token.level_of_isWord ht
    exact ⟨rfl, .inr (by rw [hopens, hcloses]; rfl), fun _ => rfl, fun _ => .inr ht, nofun, nofun, nofun,
      fun part _ => by simp⟩
  | tableConstraint => exact sound_constraintStart_of rfl rfl
  | tablePrimary => exact sound_word rfl (fits_iff.mpr (by simp)) always_none
  | tableKey isPrimary => exact sound_open rfl (fits_iff.mpr (by simp))
  | tableKeyColumns isPrimary columns named =>
    cases named with
    | false => exact sound_name rfl fun _ => fits_iff.mpr (by simp)
    | true =>
      exact sound_close rfl (fits_iff.mpr (by simp)) (sound_comma rfl (fits_iff.mpr (by simp)) always_none)
  | constraintEnd => exact sound_behindConstraint
  | check => exact sound_open rfl (fits_iff.mpr (by simp))
  | unread => exact always_none
  | constraintName => exact sound_name rfl fun _ => fits_iff.mpr (by simp)
  | constraintWord => exact sound_name rfl fun _ => fits_iff.mpr (by simp)
  | closed =>
    refine always_ite (fun ht => always_goTo ?_) fun _ => ?_
    · obtain ⟨hopens, hcloses⟩ := Token.level_of_semicolon ht
      exact ⟨rfl, .inr (by rw [hopens, hcloses]; rfl), fun _ => rfl, nofun, nofun, nofun, fun _ => .inl ht,
        fun part _ => by simp⟩
    · exact sound_comma rfl (fits_iff.mpr (by simp)) (sound_ends (.inl rfl))
  | closedComma => exact sound_ends (.inr rfl)
  | option =>
    refine always_ite (fun ht => always_goTo ?_) fun _ => always_none
    have hlevel : t.opens = 0 ∧ t.closes = 0 := by
      rcases Bool.or_eq_true_iff.mp ht with ht | ht
      · exact Token.level_of_semicolon ht
      · exact Token.level_of_comma ht
    exact ⟨rfl, .inr (by rw [hlevel.1, hlevel.2]; rfl), fun _ => rfl, nofun, nofun, nofun, fun _ => .inr rfl,
      fun part _ => by simp⟩
  | finished => exact always_none

/-! ### Separators -/

theorem not_word_of_isSign {sign : Text} (h : t.isSign sign = true) :
    (∀ word, t.isWord word = false) ∧ t.name? = none ∧ t.typeName? = none ∧ t.isLiteral = false ∧
      (t.kind == .number) = false := by
  have hkind := (Token.isSign_iff.mp h).1
  have hword : ∀ word, t.isWord word = false := Token.isWord_of_kind (by simp [hkind])
  simp [Token.name?, Token.typeName?, Token.isLiteral, hword, hkind]

/-- The words that are read, but for `REFERENCES`. -/
def otherWords : List Text :=
  ["create", "table", "if", "not", "exists", "primary", "key", "null", "unique", "default", "deferrable", "constraint",
    "check", "as", "collate", "generated", "foreign", "autoincrement", "indexed"]

/-- A semicolon stands between statements, or ends one behind its list or an option. -/
theorem nextOf_semicolon (h : t.isSign ";" = true) :
    p.nextOf t =
      if p = statement then goTo statement else if p = closed ∨ p = option then goTo finished else none := by
  obtain ⟨hword, hname, htype, hliteral, hnumber⟩ := not_word_of_isSign h
  have hsign : ∀ sign ∈ (["(", ")", ",", "+", "-"] : List Text), t.isSign sign = false := fun sign hs =>
    Token.isSign_of_isSign h (by revert sign; decide +kernel)
  simp only [List.mem_cons, List.not_mem_nil, or_false, forall_eq_or_imp, forall_eq] at hsign
  cases p with
  | remote k named => cases named <;> simp [nextOf, hsign, hname]
  | keyColumns columns named => cases named <;> simp [nextOf, hsign, hname]
  | tableKeyColumns isPrimary columns named => cases named <;> simp [nextOf, hsign, hname]
  | _ => simp [nextOf, behindColumn, constraintStart, behindConstraint, behindKey, column, *]

theorem nextOf_comma (h : t.isSign "," = true) (hp : p.depth = 1) :
    p.nextOf t = goTo item ∨ p.nextOf t = goTo tableConstraint ∨ p.nextOf t = none := by
  obtain ⟨hword, hname, htype, hliteral, hnumber⟩ := not_word_of_isSign h
  have hsign : ∀ sign ∈ (["(", ")", "+", "-"] : List Text), t.isSign sign = false := fun sign hs =>
    Token.isSign_of_isSign h (by revert sign; decide +kernel)
  simp only [List.mem_cons, List.not_mem_nil, or_false, forall_eq_or_imp, forall_eq] at hsign
  have hkey : ∀ k, behindKey k t = goTo item ∨ behindKey k t = goTo tableConstraint := fun k => by
    cases hk : k.columns.isSome <;> simp [behindKey, behindColumn, behindConstraint, hk, hword, h]
  cases p with
  | remoteTable k => rcases hkey k with hk | hk <;> simp [nextOf, hsign, hk]
  | remoteEnd k => rcases hkey k with hk | hk <;> simp [nextOf, hk]
  | _ => cases hp <;> simp [nextOf, behindColumn, constraintStart, behindConstraint, column, *]

theorem nextOf_close (h : t.isSign ")" = true) (hp : p.depth = 1) : p.nextOf t = goTo closed ∨ p.nextOf t = none := by
  obtain ⟨hword, hname, htype, hliteral, hnumber⟩ := not_word_of_isSign h
  have hsign : ∀ sign ∈ (["(", ",", "+", "-"] : List Text), t.isSign sign = false := fun sign hs =>
    Token.isSign_of_isSign h (by revert sign; decide +kernel)
  simp only [List.mem_cons, List.not_mem_nil, or_false, forall_eq_or_imp, forall_eq] at hsign
  have hkey : ∀ k, behindKey k t = goTo closed := fun k => by
    cases hk : k.columns.isSome <;> simp [behindKey, behindColumn, behindConstraint, hk, hword, hsign, h]
  cases p with
  | remoteTable k => simp [nextOf, hsign, hkey k]
  | remoteEnd k => simp [nextOf, hkey k]
  | _ => cases hp <;> simp [nextOf, behindColumn, constraintStart, behindConstraint, column, *]

theorem nextOf_references (h : t.isWord "references" = true) :
    (∃ columns, p.nextOf t = goTo (references columns)) ∨ p.nextOf t = none := by
  have hname := Token.name?_of_isWord h (by decide +kernel)
  have hkind := Token.kind_of_isWord h
  have hsign : ∀ sign, t.isSign sign = false := Token.isSign_of_kind (by simp [hkind])
  have hword : ∀ word ∈ otherWords, t.isWord word = false := fun word hw =>
    Token.isWord_of_isWord h (by revert word; decide +kernel)
  have htype : t.typeName? = none := by
    rw [Token.typeName?, hname]
    exact ite_self none
  simp only [otherWords, List.mem_cons, List.not_mem_nil, or_false, forall_eq_or_imp, forall_eq] at hword
  have hcolumn : behindColumn t = goTo (references none) := by simp [behindColumn, hword, h]
  have hstart : constraintStart t = none := by simp [constraintStart, hword]
  have hkey : ∀ k, behindKey k t = goTo (references none) ∨ behindKey k t = none := fun k => by
    cases hk : k.columns.isSome <;> simp [behindKey, behindConstraint, hk, hcolumn, hstart, hsign]
  cases p with
  | remoteTable k => rcases hkey k with hk | hk <;> simp [nextOf, hsign, hk, goTo]
  | remoteEnd k => rcases hkey k with hk | hk <;> simp [nextOf, hk, goTo]
  | remote k named => cases named <;> simp [nextOf, hsign, hname]
  | keyColumns columns named => cases named <;> simp [nextOf, hsign, hname]
  | tableKeyColumns isPrimary columns named => cases named <;> simp [nextOf, hsign, hname]
  | _ => simp [nextOf, behindConstraint, column, Token.isLiteral, goTo, *]

/-! ### The front of a clause -/

/-- A token that begins a clause: a word or a name, but not `REFERENCES`. -/
structure Opens (t : Token) : Prop where
  kind : t.kind ≠ .symbol
  word : t.isWord "references" = false

theorem opens_column : Always (fun _ => Opens t) (column t) :=
  always_bind fun name ht => always_goTo
    { kind := Token.kind_of_name? ht
      word := by
        cases hword : t.isWord "references" with
        | false => rfl
        | true =>
          rw [Token.name?_of_isWord hword (by decide +kernel)] at ht
          cases ht }

theorem opens_word {word : Text} {q : Place} {otherwise : Option Move}
    (hword : Text.lower word ≠ Text.lower "references") (hb : Always (fun _ => Opens t) otherwise) :
    Always (fun _ => Opens t) (if t.isWord word then goTo q else otherwise) :=
  always_ite (fun ht => always_goTo ⟨by simp [Token.kind_of_isWord ht], Token.isWord_of_isWord ht hword⟩) fun _ => hb

theorem opens_constraintStart : Always (fun _ => Opens t) (constraintStart t) := by
  unfold constraintStart
  refine opens_word (by decide +kernel) (opens_word (by decide +kernel) (opens_word (by decide +kernel) ?_))
  exact opens_word (by decide +kernel) (opens_word (by decide +kernel) always_none)

theorem opens_of_begins (hp : p.begins = true) : Always (fun _ => Opens t) (p.nextOf t) := by
  cases p with
  | firstColumn => exact opens_column
  | item => exact always_orElse opens_constraintStart fun _ => opens_column
  | tableConstraint => exact opens_constraintStart
  | _ => cases hp

/-- `FOREIGN` begins a key, unless a column must come. -/
theorem nextOf_foreign (hp : p.begins = true) (h : t.isWord "foreign" = true) :
    p.nextOf t = goTo foreignWord ∨ p.nextOf t = none := by
  have hstart : constraintStart t = goTo foreignWord := if_pos h
  cases p with
  | firstColumn =>
    right
    rw [nextOf, column, Token.name?_of_isWord h (by decide +kernel)]
    rfl
  | item =>
    left
    rw [nextOf, hstart]
    rfl
  | tableConstraint => exact .inl hstart
  | _ => cases hp

end Place
end Schemata.Sql
