import Schemata.Proofs.Dialect.Pieces

/-! Cutting a constraint list into tokens and putting it together again. The tokens of a list are all of it but commas
    and blanks. Where a reading stands behind a list depends on the tokens only: blanks leave every place as it is, and
    a comma behind a comma changes nothing. So a list and its tokens with commas between them are cut the same way,
    whether quotes decide where or, because one stays open, the commas alone. -/

namespace Schemata

/-! ### Pieces and tokens -/

/-- The tokens that the pieces of a list give. -/
def tokensOf (pieces : List Text) : List Text := (pieces.map Text.trim).filter fun t => !t.isEmpty

theorem splitTokens_eq (list : Text) :
    splitTokens list = tokensOf ((quotedPieces (.outside true) list).getD (list.splitOn ',')) := rfl

/-- A text of commas and blanks. -/
def IsSeparator (s : Text) : Prop := ∀ c ∈ s, c = ',' ∨ isBlank c = true

/-- Tokens in a list, one behind the other: around them stand only commas and blanks, and at least one comma between two
    of them. -/
def Separated (tokens : List Text) (list : Text) : Prop :=
  ∃ (front : Text) (parts : List (Text × Text)), parts.map Prod.fst = tokens ∧
    front ++ parts.flatMap (fun (token, gap) => token ++ gap) = list ∧
    IsSeparator front ∧ (∀ part ∈ parts, IsSeparator part.2) ∧ ∀ part ∈ parts.dropLast, ',' ∈ part.2

theorem isSeparator_of_isBlank {s : Text} (h : IsBlank s) : IsSeparator s := fun c hc => .inr (h c hc)

theorem IsSeparator.append_comma {a b : Text} (ha : IsSeparator a) (hb : IsSeparator b) :
    IsSeparator (a ++ ',' :: b) := by
  intro c hc
  rcases List.mem_append.mp hc with hc | hc
  · exact ha c hc
  · rcases List.mem_cons.mp hc with rfl | hc
    · exact .inl rfl
    · exact hb c hc

theorem tokensOf_blank {piece : Text} (h : IsBlank piece) (pieces : List Text) :
    tokensOf (piece :: pieces) = tokensOf pieces := by
  simp [tokensOf, Text.trim_eq_nil_iff.mpr h]

theorem tokensOf_cons {piece : Text} (h : ¬IsBlank piece) (pieces : List Text) :
    tokensOf (piece :: pieces) = Text.trim piece :: tokensOf pieces := by
  simp [tokensOf, mt Text.trim_eq_nil_iff.mp h]

/-- Blanks around the pieces do not count. -/
theorem tokensOf_congr {pieces pieces' : List Text} (h : pieces.map Text.trim = pieces'.map Text.trim) :
    tokensOf pieces = tokensOf pieces' := by
  rw [tokensOf, h, tokensOf]

/-- Trimmed tokens are given by themselves. -/
theorem tokensOf_eq_self {tokens : List Text} (h : ∀ t ∈ tokens, t ≠ [] ∧ Text.trim t = t) :
    tokensOf tokens = tokens := by
  induction tokens with
  | nil => rfl
  | cons t tokens ih =>
    obtain ⟨⟨hne, htrim⟩, htokens⟩ := List.forall_mem_cons.mp h
    have hblank : ¬IsBlank t := fun hblank => hne (htrim ▸ Text.trim_eq_nil_iff.mpr hblank)
    rw [tokensOf_cons hblank, htrim, ih htokens]

namespace Separated
variable {tokens : List Text} {list : Text}

theorem last (piece : Text) : Separated (tokensOf [piece]) piece := by
  obtain ⟨behind, hbehind, hpiece⟩ := Text.exists_append_trim piece
  by_cases hblank : IsBlank piece
  · rw [tokensOf_blank hblank]
    exact ⟨piece, [], rfl, List.append_nil piece, isSeparator_of_isBlank hblank, by simp, by simp⟩
  · rw [tokensOf_cons hblank]
    exact ⟨piece.takeWhile isBlank, [(Text.trim piece, behind)], rfl, by simpa using hpiece,
      isSeparator_of_isBlank (Text.isBlank_takeWhile piece), by simpa using isSeparator_of_isBlank hbehind, by simp⟩

/-- One more piece in front of a list. -/
theorem behind_comma (h : Separated (tokensOf tokens) list) (piece : Text) :
    Separated (tokensOf (piece :: tokens)) (piece ++ ',' :: list) := by
  obtain ⟨front, parts, htokens, hlist, hfront, hgaps, hcommas⟩ := h
  by_cases hblank : IsBlank piece
  · rw [tokensOf_blank hblank]
    refine ⟨piece ++ ',' :: front, parts, htokens, ?_, (isSeparator_of_isBlank hblank).append_comma hfront, hgaps,
      hcommas⟩
    rw [← hlist]
    simp
  · obtain ⟨behind, hbehind, hpiece⟩ := Text.exists_append_trim piece
    have hgap : IsSeparator (behind ++ ',' :: front) := (isSeparator_of_isBlank hbehind).append_comma hfront
    rw [tokensOf_cons hblank]
    refine ⟨piece.takeWhile isBlank, (Text.trim piece, behind ++ ',' :: front) :: parts, by simp [htokens], ?_,
      isSeparator_of_isBlank (Text.isBlank_takeWhile piece), List.forall_mem_cons.mpr ⟨hgap, hgaps⟩, ?_⟩
    · conv => rhs; rw [← hpiece, ← hlist]
      simp
    · intro part hpart
      cases parts with
      | nil => cases hpart
      | cons next parts =>
        rcases List.mem_cons.mp hpart with rfl | hpart
        · simp
        · exact hcommas part hpart

end Separated

theorem separated_tokensOf {pieces : List Text} (hne : pieces ≠ []) :
    Separated (tokensOf pieces) ([','].intercalate pieces) := by
  induction pieces with
  | nil => exact absurd rfl hne
  | cons piece pieces ih =>
    cases pieces with
    | nil =>
      rw [List.intercalate_singleton]
      exact Separated.last piece
    | cons second pieces =>
      rw [List.intercalate_cons_cons, List.append_assoc]
      exact (ih (List.cons_ne_nil _ _)).behind_comma piece

/-! ### Tokens put together again -/

theorem of_mem_tokensOf {token : Text} {pieces : List Text} (h : token ∈ tokensOf pieces) :
    token ≠ [] ∧ Text.trim token = token ∧ ∃ piece ∈ pieces, Text.trim piece = token := by
  obtain ⟨h, hne⟩ := List.mem_filter.mp h
  obtain ⟨piece, hpiece, rfl⟩ := List.mem_map.mp h
  exact ⟨by simpa using hne, Text.trim_trim piece, piece, hpiece, rfl⟩

/-- The pieces of tokens that are joined by commas and spaces. -/
def joinedPieces : List Text → List Text
  | [] => [[]]
  | token :: tokens => token :: tokens.map (' ' :: ·)

theorem join_eq_intercalate (tokens : List Text) :
    Text.join ", " tokens = [','].intercalate (joinedPieces tokens) := by
  cases tokens with
  | nil => rfl
  | cons token tokens =>
    have hpieces := Text.join_cons [','] token (tokens.map (' ' :: ·))
    rw [Text.join] at hpieces
    rw [joinedPieces, hpieces, Text.join_cons, List.flatMap_map, Text.ofString_eq]
    rfl

theorem joinedPieces_ne_nil (tokens : List Text) : joinedPieces tokens ≠ [] := by
  cases tokens <;> exact List.cons_ne_nil _ _

/-- A piece is empty or a token, perhaps behind a space. -/
theorem of_mem_joinedPieces {piece : Text} {tokens : List Text} (h : piece ∈ joinedPieces tokens) :
    piece = [] ∨ ∃ token ∈ tokens, piece = token ∨ piece = ' ' :: token := by
  cases tokens with
  | nil => exact .inl (List.mem_singleton.mp h)
  | cons first tokens =>
    rcases List.mem_cons.mp h with rfl | h
    · exact .inr ⟨piece, List.mem_cons_self, .inl rfl⟩
    · obtain ⟨token, htoken, rfl⟩ := List.mem_map.mp h
      exact .inr ⟨token, List.mem_cons_of_mem first htoken, .inr rfl⟩

theorem isPiece_joinedPieces {tokens : List Text} (h : ∀ t ∈ tokens, IsPiece t) :
    ∀ piece ∈ joinedPieces tokens, IsPiece piece := by
  have hspace : IsBlank [' '] := by decide
  intro piece hpiece
  obtain rfl | ⟨token, htoken, rfl | rfl⟩ := of_mem_joinedPieces hpiece
  · rfl
  · exact h piece htoken
  · simpa using (isPiece_blank_around hspace IsBlank.nil).mpr (h token htoken)

theorem not_mem_joinedPieces {tokens : List Text} (h : ∀ t ∈ tokens, ',' ∉ t) :
    ∀ piece ∈ joinedPieces tokens, ',' ∉ piece := by
  intro piece hpiece
  obtain rfl | ⟨token, htoken, rfl | rfl⟩ := of_mem_joinedPieces hpiece
  · exact List.not_mem_nil
  · exact h piece htoken
  · exact List.not_mem_cons_of_ne_of_not_mem (by decide) (h token htoken)

theorem tokensOf_joinedPieces {tokens : List Text} (h : ∀ t ∈ tokens, t ≠ [] ∧ Text.trim t = t) :
    tokensOf (joinedPieces tokens) = tokens := by
  cases tokens with
  | nil => rfl
  | cons token tokens =>
    have hspace : ∀ t : Text, Text.trim (' ' :: t) = Text.trim t := Text.trim_blank_append (a := [' ']) (by decide)
    have htrim : (joinedPieces (token :: tokens)).map Text.trim = (token :: tokens).map Text.trim := by
      simp [joinedPieces, hspace]
    calc tokensOf (joinedPieces (token :: tokens)) = tokensOf (token :: tokens) := tokensOf_congr htrim
      _ = token :: tokens := tokensOf_eq_self h

/-! ### Lists with an open quote -/

namespace ListPlace

/-- The place behind pieces and the commas behind each of them. -/
def afterPieces (p : ListPlace) (pieces : List Text) : ListPlace :=
  pieces.foldl (fun p piece => (p.after piece).next ',') p

theorem after_intercalate (p : ListPlace) {pieces : List Text} (hne : pieces ≠ []) :
    (p.after ([','].intercalate pieces)).next ',' = p.afterPieces pieces := by
  induction pieces generalizing p with
  | nil => exact absurd rfl hne
  | cons piece pieces ih =>
    cases pieces with
    | nil =>
      rw [List.intercalate_singleton]
      rfl
    | cons second pieces =>
      rw [List.intercalate_cons_cons, List.append_assoc, after_append, after_append, ih _ (List.cons_ne_nil _ _)]
      rfl

theorem IsRead.after_trim {p : ListPlace} (h : p.IsRead) (s : Text) : p.after (Text.trim s) = p.after s := by
  obtain ⟨behind, hbehind, hs⟩ := Text.exists_append_trim s
  conv => rhs; rw [← hs]
  rw [after_append, h.after_blank (Text.isBlank_takeWhile s), after_append, (h.after _).after_blank hbehind]

/-- Behind a comma only the tokens of what follows count. -/
theorem IsRead.afterPieces_tokensOf {p : ListPlace} (h : p.IsRead) (hcomma : p.next ',' = p) (pieces : List Text) :
    p.afterPieces (tokensOf pieces) = p.afterPieces pieces := by
  induction pieces generalizing p with
  | nil => rfl
  | cons piece pieces ih =>
    have hread : ((p.after piece).next ',').IsRead := (h.after piece).next ','
    by_cases hblank : IsBlank piece
    -- A blank piece adds a comma behind a comma, and no token.
    · have hpiece : p.afterPieces (piece :: pieces) = p.afterPieces pieces := by
        rw [afterPieces, List.foldl_cons, h.after_blank hblank, hcomma]
        rfl
      rw [tokensOf_blank hblank, hpiece, ih h hcomma]
    · rw [tokensOf_cons hblank, afterPieces, afterPieces, List.foldl_cons, List.foldl_cons, h.after_trim]
      exact ih hread (h.after piece).next_comma.1

end ListPlace

theorem isSome_quotedPieces (p : ListPlace) (s : Text) : (quotedPieces p s).isSome = !(p.after s).isInside := by
  induction s generalizing p with
  | nil => cases p <;> rfl
  | cons c s ih =>
    rw [quotedPieces]
    split <;> rw [Option.isSome_map, ih] <;> rfl

/-- Two lists of the same tokens end both inside quotes or both outside. -/
theorem isSome_quotedPieces_congr {pieces pieces' : List Text} (hne : pieces ≠ []) (hne' : pieces' ≠ [])
    (h : tokensOf pieces = tokensOf pieces') :
    (quotedPieces (.outside true) ([','].intercalate pieces)).isSome =
      (quotedPieces (.outside true) ([','].intercalate pieces')).isSome := by
  have hstart : (ListPlace.outside true).IsRead := trivial
  have hinside : ∀ {pieces : List Text}, pieces ≠ [] →
      ((ListPlace.outside true).after ([','].intercalate pieces)).isInside =
        ((ListPlace.outside true).afterPieces (tokensOf pieces)).isInside := fun {pieces} hne => by
    rw [hstart.afterPieces_tokensOf rfl, ← ListPlace.after_intercalate _ hne]
    exact (hstart.after _).next_comma.2.symm
  rw [isSome_quotedPieces, isSome_quotedPieces, hinside hne, hinside hne', h]

/-! ### The laws of splitting -/

theorem splitTokens_intercalate {pieces : List Text} (hne : pieces ≠ []) (h : ∀ piece ∈ pieces, IsPiece piece) :
    splitTokens ([','].intercalate pieces) = tokensOf pieces := by
  rw [splitTokens_eq, quotedPieces_intercalate hne h, Option.getD_some]

/-- A list is cut into pieces, or, as it ends inside quotes, at its commas. -/
theorem splitTokens_cases (list : Text) :
    (∃ pieces, pieces ≠ [] ∧ (∀ piece ∈ pieces, IsPiece piece) ∧ [','].intercalate pieces = list ∧
      splitTokens list = tokensOf pieces) ∨
    (quotedPieces (.outside true) list = none ∧ splitTokens list = tokensOf (list.splitOn ',')) := by
  rw [splitTokens_eq]
  cases h : quotedPieces (.outside true) list with
  | none => exact .inr ⟨rfl, rfl⟩
  | some pieces =>
    obtain ⟨hne, hlist⟩ := intercalate_quotedPieces h
    exact .inl ⟨pieces, hne, fun piece hpiece => isPiece_of_mem h hpiece, hlist, rfl⟩

/-- Nothing but commas and blanks is lost. -/
theorem separated_splitTokens (list : Text) : Separated (splitTokens list) list := by
  rcases splitTokens_cases list with ⟨pieces, hne, -, hlist, htokens⟩ | ⟨-, htokens⟩
  · rw [htokens]
    exact hlist ▸ separated_tokensOf hne
  · have hsplit := separated_tokensOf (List.splitOn_ne_nil ',' list)
    rwa [List.intercalate_splitOn, ← htokens] at hsplit

/-- A trimmed text without a comma is one token, its quotes closed or not. -/
theorem splitTokens_of_not_mem {token : Text} (hne : token ≠ []) (htrim : Text.trim token = token)
    (hcomma : ',' ∉ token) : splitTokens token = [token] := by
  have hpieces : (quotedPieces (.outside true) token).getD (token.splitOn ',') = [token] := by
    cases h : quotedPieces (.outside true) token with
    | none => exact Text.splitOn_of_not_mem hcomma
    | some pieces =>
      obtain ⟨hpne, hs⟩ := intercalate_quotedPieces h
      have hpieces : ∀ piece ∈ pieces, ',' ∉ piece := fun piece hpiece hmem =>
        hcomma (hs ▸ (Text.isInfix_intercalate hpiece).subset hmem)
      calc pieces = ([','].intercalate pieces).splitOn ',' := (List.splitOn_intercalate ',' hpieces hpne).symm
        _ = token.splitOn ',' := by rw [hs]
        _ = [token] := Text.splitOn_of_not_mem hcomma
  rw [splitTokens_eq, hpieces]
  exact tokensOf_eq_self (List.forall_mem_singleton.mpr ⟨hne, htrim⟩)

/-- A token is a piece, or has no comma at all. -/
theorem splitTokens_tokens (list : Text) :
    (∀ token ∈ splitTokens list, IsPiece token) ∨
    (quotedPieces (.outside true) list = none ∧ splitTokens list = tokensOf (list.splitOn ',') ∧
      ∀ token ∈ splitTokens list, ',' ∉ token) := by
  rcases splitTokens_cases list with ⟨pieces, -, hpieces, -, htokens⟩ | ⟨hopen, htokens⟩
  · refine .inl fun token htoken => ?_
    obtain ⟨-, -, piece, hpiece, rfl⟩ := of_mem_tokensOf (htokens ▸ htoken)
    exact isPiece_trim.mpr (hpieces piece hpiece)
  · refine .inr ⟨hopen, htokens, fun token htoken hmem => ?_⟩
    obtain ⟨-, -, piece, hpiece, rfl⟩ := of_mem_tokensOf (htokens ▸ htoken)
    exact Text.not_mem_of_mem_splitOn hpiece ((Text.trim_isInfix piece).subset hmem)

/-- A token of a list is a list of one token. -/
theorem splitTokens_token {list token : Text} (h : token ∈ splitTokens list) : splitTokens token = [token] := by
  obtain ⟨hne, htrim, -⟩ := of_mem_tokensOf h
  rcases splitTokens_tokens list with hpieces | ⟨-, -, hcommas⟩
  · obtain ⟨valueStart, hfollow⟩ := isPiece_iff.mp (hpieces token h)
    exact splitTokens_single hne htrim hfollow
  · exact splitTokens_of_not_mem hne htrim (hcommas token h)

/-- The tokens of a list with commas between them give the same tokens again. -/
theorem splitTokens_join (list : Text) : splitTokens (Text.join ", " (splitTokens list)) = splitTokens list := by
  have hjoined : tokensOf (joinedPieces (splitTokens list)) = splitTokens list :=
    tokensOf_joinedPieces fun token htoken => ⟨(of_mem_tokensOf htoken).1, (of_mem_tokensOf htoken).2.1⟩
  have hne := joinedPieces_ne_nil (splitTokens list)
  rw [join_eq_intercalate]
  rcases splitTokens_tokens list with hpieces | ⟨hopen, htokens, hcommas⟩
  · rw [splitTokens_intercalate hne (isPiece_joinedPieces hpieces), hjoined]
  -- The tokens of an open list need not be pieces, but a quote stays open behind them as well.
  · have hends := isSome_quotedPieces_congr hne (List.splitOn_ne_nil ',' list) (hjoined.trans htokens)
    rw [List.intercalate_splitOn, hopen] at hends
    have hstillOpen := Option.isSome_eq_false_iff.mp hends
    rw [splitTokens_eq, Option.isNone_iff_eq_none.mp hstillOpen, Option.getD_none,
      List.splitOn_intercalate ',' (not_mem_joinedPieces hcommas) hne, hjoined]

/-! ### Written lists -/

/-- A token as a list may hold it. -/
structure IsListToken (token : Text) : Prop where
  ne_nil : token ≠ []
  trim : Text.trim token = token
  piece : IsPiece token

/-- A token with the blanks around it. -/
structure TokenLayout where
  before : Text
  token : Text
  behind : Text
  isBlank_before : IsBlank before
  isListToken : IsListToken token
  isBlank_behind : IsBlank behind

namespace TokenLayout

def text (t : TokenLayout) : Text := t.before ++ (t.token ++ t.behind)

/-- The constraint list of these tokens. -/
def list (tokens : List TokenLayout) : Text := Text.join "," (tokens.map text)

theorem isPiece_text (t : TokenLayout) : IsPiece t.text :=
  (isPiece_blank_around t.isBlank_before t.isBlank_behind).mpr t.isListToken.piece

theorem trim_text (t : TokenLayout) : Text.trim t.text = t.token := by
  rw [text, Text.trim_blank_append t.isBlank_before, Text.trim_append_blank t.isBlank_behind, t.isListToken.trim]

/-- A written list is cut into the tokens it was written from. -/
theorem splitTokens_list (tokens : List TokenLayout) : splitTokens (list tokens) = tokens.map token := by
  by_cases hne : tokens = []
  · subst hne
    rfl
  · have htrim : (tokens.map text).map Text.trim = (tokens.map token).map Text.trim := by
      rw [List.map_map, List.map_map]
      exact List.map_congr_left fun t _ => t.trim_text.trans t.isListToken.trim.symm
    have htokens : ∀ t ∈ tokens.map token, t ≠ [] ∧ Text.trim t = t := by
      rintro _ ht
      obtain ⟨t, -, rfl⟩ := List.mem_map.mp ht
      exact ⟨t.isListToken.ne_nil, t.isListToken.trim⟩
    have hpieces : ∀ piece ∈ tokens.map text, IsPiece piece := by
      rintro _ hpiece
      obtain ⟨t, -, rfl⟩ := List.mem_map.mp hpiece
      exact t.isPiece_text
    rw [list, Text.join, Text.ofString_eq]
    calc splitTokens ([','].intercalate (tokens.map text)) = tokensOf (tokens.map text) :=
          splitTokens_intercalate (by simpa using hne) hpieces
      _ = tokensOf (tokens.map token) := tokensOf_congr htrim
      _ = tokens.map token := tokensOf_eq_self htokens

end TokenLayout

/-- Splitting a list loses nothing, and goes on giving the same tokens. -/
theorem splitTokens_stable (list : Text) (tokens : List TokenLayout) :
    ((∀ token ∈ splitTokens list, token ≠ [] ∧ Text.trim token = token ∧ splitTokens token = [token]) ∧
      Separated (splitTokens list) list ∧ splitTokens (Text.join ", " (splitTokens list)) = splitTokens list) ∧
    splitTokens (TokenLayout.list tokens) = tokens.map TokenLayout.token := by
  refine ⟨⟨fun token htoken => ?_, separated_splitTokens list, splitTokens_join list⟩,
    TokenLayout.splitTokens_list tokens⟩
  obtain ⟨hne, htrim, -⟩ := of_mem_tokensOf htoken
  exact ⟨hne, htrim, splitTokens_token htoken⟩

example : splitTokens "note: 'a, b'".toList = ["note: 'a, b'".toList] := by decide

example : splitTokens "note: 'a, b".toList = ["note: 'a".toList, "b".toList] := by decide

end Schemata
