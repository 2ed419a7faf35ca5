import Schemata.Proofs.Ddl.Clauses
import Schemata.Proofs.Sql.Reads

/-! The tokens of a column's clause. It is a definition that starts with the column's name and refers to no other table,
    whatever its type, its constraints and the value of its default. The type is a word in upper case, with a size of
    digits, commas and spaces. -/

namespace Schemata
namespace Sql
open Text

/-! ### Types in upper case -/

theorem isBare_toUpper {c : Char} (hc : c.toNat < 0x80) : isBare c = true → isBare c.toUpper = true :=
  forall_ascii (P := fun c => isBare c = true → isBare c.toUpper = true) (by decide) hc

/-- Upper-casing leaves names names. -/
theorem isBare_upper {w : Text} (hw : ∀ c ∈ w, isBare c = true) : ∀ c ∈ Text.upper w, isBare c = true := fun d hd => by
  obtain ⟨c, hc, hm⟩ := List.mem_flatMap.mp hd
  have hexpansions : ∀ e ∈ upperExpansions, ∀ code ∈ e.2, isBare (Char.ofNat code) = true := by decide +kernel
  have hruns : ∀ r ∈ upperRuns, ∀ i < r.last - r.first + 1, isBare (Char.ofNat (r.target + i)) = true := by
    decide +kernel
  exact forall_upperChar (P := fun d => isBare d = true) (fun hascii => isBare_toUpper hascii (hw c hc)) hexpansions
    hruns (hw c hc) d hm

theorem upper_ne_nil {w : Text} (h : w ≠ []) : Text.upper w ≠ [] := by
  cases w with
  | nil => exact absurd rfl h
  | cons c w => exact fun hnil => upperChar_ne_nil c (List.append_eq_nil_iff.mp hnil).1

/-- The characters of sizes. -/
def isSizeChar (c : Char) : Bool := c.isDigit || c == ',' || c == ' '

/-- Upper-casing leaves sizes as they are. -/
theorem upper_size {size : Text} (h : ∀ c ∈ size, isSizeChar c = true) : Text.upper size = size := by
  have hchar : ∀ c, isSizeChar c = true → upperChar c = [c] := fun c hc => by
    have hcode : c.toNat < 0x80 := by
      simp only [isSizeChar, Char.isDigit, Bool.or_eq_true, Bool.and_eq_true, decide_eq_true_eq, beq_iff_eq,
        UInt32.le_iff_toNat_le] at hc
      rcases hc with (⟨-, hc⟩ | rfl) | rfl
      · exact Nat.lt_of_le_of_lt hc (by decide)
      · decide
      · decide
    have hupper := forall_ascii (P := fun c => isSizeChar c = true → c.toUpper = c) (by decide) hcode
    rw [upperChar, if_pos hcode, hupper hc]
  induction size with
  | nil => rfl
  | cons c size ih =>
    obtain ⟨hc, hsize⟩ := List.forall_mem_cons.mp h
    rw [Text.upper, List.flatMap_cons, hchar c hc]
    exact congrArg (c :: ·) (ih hsize)

/-! ### Tokens behind a name -/

/-- Tokens that lead from the one depth of a definition to the other, none of which is `REFERENCES`. -/
structure Inner (depth : Nat) (ts : List Token) (depth' : Nat) : Prop where
  leads : Leads depth ts depth'
  words : ∀ t ∈ ts, t.isWord "references" = false

/-- Tokens that stay in their definition, none of which is `REFERENCES`, and the first of which is no name. -/
structure Tail (ts : List Token) : Prop extends Inner 0 ts 0 where
  nameless : ∀ t ∈ ts.head?, t.name? = none

section Tail
variable {depth depth' depth'' : Nat} {t : Token} {ts ts' : List Token}

theorem Inner.append (h : Inner depth ts depth') (h' : Inner depth' ts' depth'') : Inner depth (ts ++ ts') depth'' :=
  ⟨h.leads.append h'.leads, List.forall_mem_append.mpr ⟨h.words, h'.words⟩⟩

theorem tail_nil : Tail [] := ⟨⟨leads_nil 0, List.forall_mem_nil _⟩, nofun⟩

theorem Tail.append (h : Tail ts) (h' : Tail ts') : Tail (ts ++ ts') where
  toInner := h.toInner.append h'.toInner
  nameless := by
    cases ts with
    | nil => exact h'.nameless
    | cons t ts => exact h.nameless

theorem isWord_of_isSign {sign word : Text} (ht : t.isSign sign = true) : t.isWord word = false :=
  Token.isWord_of_kind (by simp [(Token.isSign_iff.mp ht).1]) word

theorem inner_sign {sign : Text} (ht : t.isSign sign = true) (hleads : Leads depth [t] depth')
    (h : Inner depth' ts depth'') : Inner depth (t :: ts) depth'' :=
  ⟨hleads.cons h.leads, List.forall_mem_cons.mpr ⟨isWord_of_isSign ht, h.words⟩⟩

/-- A token that is no sign and not `REFERENCES`. -/
theorem inner_token (hkind : t.kind ≠ .symbol) (hword : t.isWord "references" = false) (h : Inner depth ts depth') :
    Inner depth (t :: ts) depth' where
  leads := (leads_other (Token.isSign_of_kind hkind _) (Token.isSign_of_kind hkind _)
    (.inl (Token.isSign_of_kind hkind _))).cons h.leads
  words := List.forall_mem_cons.mpr ⟨hword, h.words⟩

/-- A token with no name behind it refers to no other table. -/
theorem Tail.isChain (h : Tail ts) (t : Token) :
    (t :: ts).IsChain fun t u => t.isWord "references" = true → u.name? = none := by
  refine List.isChain_cons.mpr ⟨fun u hu _ => h.nameless u hu, List.Pairwise.isChain ?_⟩
  exact List.pairwise_of_forall_mem_list fun a ha b _ hword => absurd hword (by simp [h.words a ha])

end Tail

/-! ### Sizes -/

/-- A size with its closing parenthesis. -/
theorem reads_size {size : Text} (hsize : ∀ c ∈ size, isSizeChar c = true) :
    Reads (Inner 1 · 0) (size ++ [')']) := by
  induction hn : size.length using Nat.strongRecOn generalizing size with
  | _ n ih =>
    cases size with
    | nil =>
      exact (reads_nil (P := (· = [])) rfl).sign (by simp) fun t ts ht hts => by
        subst hts
        have hclose : t.isSign ")" = true := by rwa [ofString_eq]
        exact inner_sign hclose (leads_close hclose) ⟨leads_nil 0, List.forall_mem_nil _⟩
    | cons c size =>
      obtain ⟨hc, hsize'⟩ := List.forall_mem_cons.mp hsize
      have hrest : ∀ p : Char → Bool, ∀ x ∈ size.dropWhile p, isSizeChar x = true := fun p x hx =>
        hsize' x ((List.dropWhile_sublist p).subset hx)
      have hlength : ∀ p : Char → Bool, (size.dropWhile p).length < n := fun p => by
        have := (List.dropWhile_sublist p (l := size)).length_le
        rw [← hn, List.length_cons]
        omega
      -- What stands behind a run of the size is the rest of the size or the parenthesis.
      have hstops : ∀ {p q : Char → Bool} {rest : Text}, (∀ x, isSizeChar x = true → q x = false → p x = false) →
          p ')' = false → Stops p (size.dropWhile q ++ [')'] ++ rest) := fun {p q rest} hpq hp => by
        cases hs : size.dropWhile q with
        | nil => exact stops_cons.mpr hp
        | cons x s =>
          have hx : q x = false := Stops.dropWhile size x (by rw [hs]; rfl)
          exact stops_cons.mpr (hpq x (hrest q x (hs ▸ List.mem_cons_self)) hx)
      simp only [isSizeChar, Bool.or_eq_true, beq_iff_eq] at hc
      rcases hc with (hdigit | rfl) | rfl
      · have hrun : c :: size = (c :: size.takeWhile Char.isDigit) ++ size.dropWhile Char.isDigit := by
          rw [List.cons_append, List.takeWhile_append_dropWhile]
        rw [hrun, List.append_assoc]
        have hdigits : ∀ x ∈ c :: size.takeWhile Char.isDigit, isBare x = true :=
          List.forall_mem_cons.mpr ⟨isBare_of_isDigit hdigit, fun x hx => isBare_of_isDigit (List.mem_takeWhile_imp hx)⟩
        refine (reads_name (List.cons_ne_nil _ _) hdigits).append (ih _ (hlength _) (hrest _) rfl) (fun rest _ => ?_)
          fun ts ts' hts hts' => ?_
        · refine hstops (fun x hx hq => ?_) (by decide)
          simp only [isSizeChar, hq, Bool.false_or, Bool.or_eq_true, beq_iff_eq] at hx
          rcases hx with rfl | rfl <;> decide
        · obtain ⟨t, ts, hnames, hnil, rfl⟩ := List.forall₂_cons_left_iff.mp hts
          cases hnil
          have hkind : t.kind = .number := hnames.kind.trans (by simp [hdigit])
          exact inner_token (by simp [hkind]) (Token.isWord_of_kind (by simp [hkind]) _) hts'
      · exact (ih size.length (by rw [← hn, List.length_cons]; omega) hsize' rfl).sign (by simp) fun t ts ht hts =>
          inner_sign ht (leads_other (Token.isSign_of_isSign ht (by decide +kernel))
            (Token.isSign_of_isSign ht (by decide +kernel)) (.inr Nat.one_ne_zero)) hts
      · have hrun : ' ' :: size = (' ' :: size.takeWhile (· == ' ')) ++ size.dropWhile (· == ' ') := by
          rw [List.cons_append, List.takeWhile_append_dropWhile]
        rw [hrun, List.append_assoc]
        refine (ih _ (hlength _) (hrest _) rfl).spaces
          (List.forall_mem_cons.mpr ⟨rfl, fun _ hx => by simpa using List.mem_takeWhile_imp hx⟩) fun rest _ => ?_
        refine hstops (fun x hx hq => ?_) (by decide)
        simp only [isSizeChar, hq, Bool.or_false, Bool.or_eq_true, beq_iff_eq] at hx
        rcases hx with hdigit | rfl
        · exact isSpace_of_isBare (isBare_of_isDigit hdigit)
        · decide

/-! ### Constraints -/

/-- A text that is read as tokens with a property, and starts with no space. -/
structure Solid (P : List Token → Prop) (a : Text) : Prop where
  reads : Reads P a
  front : ∀ rest, Stops isSpace (a ++ rest)

section Solid
variable {P Q R : List Token → Prop} {a b w : Text}

theorem front_of_isPlain (hw : isPlain w = true) (rest : Text) : Stops isSpace (w ++ rest) := by
  cases w with
  | nil => cases hw
  | cons c w => exact stops_isSpace_of_isBare (List.cons_ne_nil c w) (isPlain_cons.mp hw).1

theorem Solid.imp (h : Solid P a) (hpq : ∀ ts, P ts → Q ts) : Solid Q a := ⟨h.reads.imp hpq, h.front⟩

theorem Solid.space (ha : Solid P a) (hb : Solid Q b) (hjoin : ∀ ts ts', P ts → Q ts' → R (ts ++ ts')) :
    Solid R (a ++ ' ' :: b) where
  reads := ha.reads.append (hb.reads.space hb.front) (fun _ _ => breaks_cons.mpr (by decide)) hjoin
  front rest := by
    rw [List.append_assoc]
    exact ha.front _

theorem isWord_eq_false {t : Token} {word : Text} (ht : t.text = w) (hw : Text.lower w ≠ Text.lower word) :
    t.isWord word = false := by
  rw [Token.isWord, ht, sameFolded, beq_eq_false_iff_ne.mpr hw, Bool.and_false]

/-- A word that is not `REFERENCES`. -/
theorem solid_word (hw : isPlain w = true) (href : Text.lower w ≠ Text.lower "references") : Solid (Inner 0 · 0) w where
  reads := (reads_word hw).imp fun ts hts => by
    obtain ⟨t, ts, ⟨hkind, htext⟩, hnil, rfl⟩ := List.forall₂_cons_left_iff.mp hts
    cases hnil
    exact inner_token (by simp [hkind]) (isWord_eq_false htext href) ⟨leads_nil 0, List.forall_mem_nil _⟩
  front := front_of_isPlain hw

/-- A word that is reserved for something else than `REFERENCES`. -/
theorem solid_keyword (hw : isPlain w = true) (href : Text.lower w ≠ Text.lower "references")
    (hreserved : reservedWords.contains (Text.lower w) = true) : Solid (fun ts => Tail ts ∧ ts ≠ []) w where
  reads := (reads_word hw).imp fun ts hts => by
    obtain ⟨t, ts, ⟨hkind, htext⟩, hnil, rfl⟩ := List.forall₂_cons_left_iff.mp hts
    cases hnil
    have hword : t.isWord w = true := by simp [Token.isWord, hkind, htext, sameFolded]
    refine ⟨⟨inner_token (by simp [hkind]) (isWord_eq_false htext href) ⟨leads_nil 0, List.forall_mem_nil _⟩, ?_⟩,
      List.cons_ne_nil _ _⟩
    rintro u hu
    cases hu
    exact Token.name?_of_isWord hword hreserved
  front := front_of_isPlain hw

theorem solid_sqlLiteral (value : Text) : Solid (Inner 0 · 0) (sqlLiteral value) where
  reads := (reads_string value).imp fun ts hts => by
    obtain ⟨t, ts, hkind, hnil, rfl⟩ := List.forall₂_cons_left_iff.mp hts
    cases hnil
    exact inner_token (by simp [hkind]) (Token.isWord_of_kind (by simp [hkind]) _) ⟨leads_nil 0, List.forall_mem_nil _⟩
  front rest := by
    rw [sqlLiteral_eq]
    exact stops_cons.mpr (by decide)

/-- A keyword with something behind it. -/
theorem solid_phrase (hw : isPlain w = true) (href : Text.lower w ≠ Text.lower "references")
    (hreserved : reservedWords.contains (Text.lower w) = true) (hb : Solid (Inner 0 · 0) b) :
    Solid Tail (w ++ ' ' :: b) :=
  (solid_keyword hw href hreserved).space hb fun ts ts' hts hts' => by
    obtain ⟨hts, hne⟩ := hts
    obtain ⟨t, ts, rfl⟩ := List.exists_cons_of_ne_nil hne
    exact ⟨hts.toInner.append hts', hts.nameless⟩

end Solid

/-- A default that is not emitted as it is written is a string. -/
theorem exists_sqlLiteral {value : DefaultValue} {textLike : Bool} (h : value.verbatim? textLike = none) :
    ∃ text, value.render textLike = sqlLiteral text := by
  cases value with
  | quoted value => exact ⟨value, rfl⟩
  | expression value => cases h
  | bare value =>
    cases textLike with
    | false => cases h
    | true => exact ⟨value, rfl⟩

theorem solid_of_mem_clauses {set : ConstraintSet} {textLike : Bool} {clause : Text}
    (hdefault : ∀ value ∈ set.default?, value.verbatim? textLike = none) (h : clause ∈ set.clauses textLike) :
    Solid Tail clause := by
  rcases ConstraintSet.mem_clauses h with hkeyword | ⟨value, hvalue, rfl⟩
  · simp only [List.mem_cons, List.not_mem_nil, or_false, ofString_eq] at hkeyword
    rcases hkeyword with rfl | rfl | rfl | rfl
    · exact solid_phrase (w := "PRIMARY".toList) (b := "KEY".toList) (by decide) (by decide +kernel) (by decide +kernel)
        (solid_word (by decide) (by decide +kernel))
    · exact solid_phrase (w := "NOT".toList) (b := "NULL".toList) (by decide) (by decide +kernel) (by decide +kernel)
        (solid_word (by decide) (by decide +kernel))
    · exact (solid_keyword (by decide) (by decide +kernel) (by decide +kernel)).imp fun _ h => h.1
    · exact (solid_keyword (by decide) (by decide +kernel) (by decide +kernel)).imp fun _ h => h.1
  · obtain ⟨text, htext⟩ := exists_sqlLiteral (hdefault value hvalue)
    rw [htext, ofString_eq]
    exact solid_phrase (w := "DEFAULT".toList) (by decide) (by decide +kernel) (by decide +kernel)
      (solid_sqlLiteral text)

/-- Constraints with a space in front of each. -/
theorem reads_spaced {parts : List Text} (hparts : ∀ part ∈ parts, Solid Tail part) :
    Reads Tail (parts.flatMap (' ' :: ·)) := by
  induction parts with
  | nil => exact reads_nil tail_nil
  | cons part parts ih =>
    obtain ⟨hpart, hparts⟩ := List.forall_mem_cons.mp hparts
    rw [List.flatMap_cons]
    exact (hpart.reads.space hpart.front).append (ih hparts) (fun rest hrest => breaks_spaced parts hrest)
      fun ts ts' hts hts' => hts.append hts'

/-! ### Types -/

/-- The tokens of a type: a word, and possibly a size. -/
def IsType (ts : List Token) : Prop := ∃ t size, ts = t :: size ∧ t.kind ≠ .symbol ∧ Tail size

theorem solid_upperWord {w : Text} (hw : IsName w) : Solid (Forms [Names (Text.upper w)]) (Text.upper w) where
  reads := reads_name (upper_ne_nil hw.ne_nil) (isBare_upper (isBare_of_isName hw))
  front _ := stops_isSpace_of_isBare (upper_ne_nil hw.ne_nil) (isBare_upper (isBare_of_isName hw))

theorem Names.kind_ne {w : Text} {t : Token} (h : Names w t) : t.kind ≠ .symbol := by
  rcases h.kind_cases with hkind | hkind <;> simp [hkind]

/-- The size of a type, from its opening parenthesis on. -/
theorem reads_renderSize {size : Text} (hsize : ∀ c ∈ size, isSizeChar c = true) :
    Reads Tail ('(' :: (size ++ [')'])) :=
  (reads_size hsize).sign (by simp) fun t ts ht hts => by
    have hopen : t.isSign "(" = true := by rwa [ofString_eq]
    refine ⟨inner_sign hopen (leads_open hopen) hts, ?_⟩
    rintro u hu
    cases hu
    rw [Token.name?, (Token.isSign_iff.mp ht).1]

theorem solid_declaredType {shape : ColumnShape} (hproper : shape.Proper)
    (hsize : ∀ size ∈ shape.size, ∀ c ∈ size, isSizeChar c = true) :
    Solid IsType (Text.upper shape.declaredType) := by
  have hword := solid_upperWord hproper.typeWord
  unfold ColumnShape.declaredType
  cases hs : shape.size with
  | none =>
    rw [Option.elim_none, List.append_nil]
    refine hword.imp fun ts hts => ?_
    obtain ⟨t, ts, hnames, hnil, rfl⟩ := List.forall₂_cons_left_iff.mp hts
    cases hnil
    exact ⟨t, [], rfl, hnames.kind_ne, tail_nil⟩
  | some size =>
    have hupper : Text.upper (shape.typeWord ++ ColumnShape.renderSize size) =
        Text.upper shape.typeWord ++ '(' :: (size ++ [')']) := by
      rw [ColumnShape.renderSize, ofString_eq, ofString_eq, Text.upper, List.flatMap_append, List.flatMap_append,
        List.flatMap_append]
      show _ ++ ('(' :: Text.upper size ++ [')']) = _
      rw [upper_size (hsize size hs)]
      rfl
    rw [Option.elim_some, hupper]
    refine ⟨hword.reads.append (reads_renderSize (hsize size hs)) (fun _ _ => breaks_cons.mpr (by decide))
      fun ts ts' hts hts' => ?_, fun rest => ?_⟩
    · obtain ⟨t, ts, hnames, hnil, rfl⟩ := List.forall₂_cons_left_iff.mp hts
      cases hnil
      exact ⟨t, ts', rfl, hnames.kind_ne, hts'⟩
    · rw [List.append_assoc]
      exact hword.front _

/-! ### The clause -/

/-- A definition of the column of a name, which refers to no other table. -/
structure Defines (name : Text) (d : List Token) : Prop where
  first : ∃ t ∈ d.head?, Names name t
  leads : Leads 0 d 0
  noTarget : HasNoTarget d

theorem defines_of_tokens {name : Text} {t u : Token} {ts : List Token} (ht : Names name t) (hu : u.kind ≠ .symbol)
    (hts : Tail ts) : Defines name (t :: u :: ts) where
  first := ⟨t, rfl, ht⟩
  leads :=
    have hother : ∀ t : Token, t.kind ≠ .symbol → Leads 0 [t] 0 := fun _ hkind =>
      leads_other (Token.isSign_of_kind hkind _) (Token.isSign_of_kind hkind _) (.inl (Token.isSign_of_kind hkind _))
    (hother t ht.kind_ne).cons ((hother u hu).cons hts.leads)
  noTarget := hts.isChain u

end Sql

open Sql Text

theorem Column.solid_sqlType {c : Column} {shape : ColumnShape} (hproper : shape.Proper)
    (hdeclared : c.declaredType = shape.declaredType)
    (hsize : ∀ size ∈ shape.size, ∀ x ∈ size, isSizeChar x = true) :
    Solid IsType (sqlType c.declaredType c.constraintSet) := by
  unfold sqlType
  split
  · rw [ofString_eq]
    refine ⟨(reads_word (w := "INTEGER".toList) (by decide)).imp fun ts hts => ?_, front_of_isPlain (by decide)⟩
    obtain ⟨t, ts, ⟨hkind, -⟩, hnil, rfl⟩ := List.forall₂_cons_left_iff.mp hts
    cases hnil
    exact ⟨t, [], rfl, by simp [hkind], tail_nil⟩
  · rw [hdeclared]
    exact solid_declaredType hproper hsize

theorem Column.solid_clause {b : TableBlock} {c : Column} (hc : c ∈ b.columns) (hdefault : c.verbatimDefault? = none)
    (hsize : ∀ size ∈ c.size?, ∀ x ∈ size, isSizeChar x = true) : Solid (Defines c.name) c.clause := by
  obtain ⟨shape, line, hproper, rfl⟩ := TableBlock.column_of_mem hc
  rw [Column.size?_column hproper] at hsize
  have htype : Solid IsType (sqlType (Body.column line shape).declaredType (Body.column line shape).constraintSet) :=
    Column.solid_sqlType hproper rfl hsize
  generalize hcolumn : Body.column line shape = c at *
  have hname : IsName c.name := by
    rw [← hcolumn]
    exact hproper.name
  have hparts : ∀ part ∈ c.constraintSet.clauses (isTextType c.declaredType), Solid Tail part := fun part =>
    solid_of_mem_clauses fun value hvalue => by
      rw [Column.verbatimDefault?, Option.mem_def.mp hvalue] at hdefault
      exact hdefault
  rw [Column.clause_eq]
  generalize c.constraintSet.clauses (isTextType c.declaredType) = parts at *
  have hbehind : Reads (fun ts => ∃ u ts', ts = u :: ts' ∧ u.kind ≠ .symbol ∧ Tail ts')
      (' ' :: sqlType c.declaredType c.constraintSet ++ parts.flatMap (' ' :: ·)) :=
    (htype.reads.space htype.front).append (reads_spaced hparts) (fun _ hrest => breaks_spaced parts hrest)
      fun ts ts' hts hts' => by
        obtain ⟨u, size, rfl, hu, hsize⟩ := hts
        exact ⟨u, size ++ ts', rfl, hu, hsize.append hts'⟩
  refine ⟨(reads_name hname.ne_nil (isBare_of_isName hname)).append hbehind (fun _ _ => breaks_cons.mpr (by decide))
    fun ts ts' hts hts' => ?_, fun rest => ?_⟩
  · obtain ⟨t, ts, hnames, hnil, rfl⟩ := List.forall₂_cons_left_iff.mp hts
    cases hnil
    obtain ⟨u, ts', rfl, hu, htail⟩ := hts'
    exact defines_of_tokens hnames hu htail
  · rw [List.append_assoc]
    exact stops_isSpace_of_isBare hname.ne_nil (isBare_of_isName hname)

end Schemata
