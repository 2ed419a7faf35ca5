import Schemata.Proofs.Text.Scan
import Schemata.Generator.Basic

/-! Fences in prose. Text without three backticks in a row opens no fence, not even with the backticks of a fence
    behind it: a run of more than three is no opening line until its last three are reached. A fence ends at the first
    three backticks behind its opening line, which are its own where the fenced text has none and ends its last line. So
    fences are found one after the other, whatever prose stands between them. -/

namespace Schemata

/-- Text in which no fence opens or ends. -/
def IsProse (s : Text) : Prop := ¬ticks <:+: s

instance (s : Text) : Decidable (IsProse s) := inferInstanceAs (Decidable (¬ticks <:+: s))

def tick : Char := '\x60'

theorem ticks_eq : ticks = [tick, tick, tick] := Text.ofString_eq _

theorem ticks_ne_nil : ticks ≠ [] := by
  rw [ticks_eq]
  exact List.cons_ne_nil _ _

theorem not_mem_ticks {c : Char} (h : c ≠ tick) : c ∉ ticks := by
  rw [ticks_eq]
  simpa using h

theorem isProse_nil : IsProse [] := by decide +kernel

namespace IsProse
variable {s part : Text} {c : Char}

theorem of_isInfix (h : IsProse s) (hpart : part <:+: s) : IsProse part := fun hticks => h (hticks.trans hpart)

theorem tail (h : IsProse (c :: s)) : IsProse s := h.of_isInfix (List.suffix_cons c s).isInfix

/-- Any other character than a backtick keeps the backticks on both sides apart. -/
theorem append_cons (h : IsProse s) (hc : c ≠ tick) (hpart : IsProse part) : IsProse (s ++ c :: part) := by
  intro hticks
  rcases Text.isInfix_append_cons (not_mem_ticks hc) hticks with hticks | hticks
  · exact h hticks
  · exact hpart hticks

end IsProse

/-- A fence as it may be written around a text. -/
structure FenceLayout where
  tag : Text
  blanks : Text
  returns : Bool
  text : Text
  tag_plain : ∀ c ∈ tag, isTagChar c = true
  blanks_tab : ∀ c ∈ blanks, isTab c = true
  text_isProse : IsProse text

/-- The text of a fence stands on lines of its own. -/
def FenceLayout.shape (f : FenceLayout) : FenceShape := ⟨f.tag, f.blanks, f.returns, f.text ++ ['\n']⟩

def FenceLayout.render (f : FenceLayout) : Text := f.shape.render

namespace FenceShape

/-! ### Opening lines -/

/-- An opening line of a fence: a tag and blanks behind it. -/
structure Opens (f : FenceShape) : Prop where
  tag : ∀ c ∈ f.tag, isTagChar c = true
  blanks : ∀ c ∈ f.blanks, isTab c = true

theorem render_append (f : FenceShape) (rest : Text) :
    f.render ++ rest = ticks ++ (f.tag ++ (f.blanks ++ (lineEnd f.returns ++ (f.body ++ (ticks ++ rest))))) := by
  simp only [render, List.append_assoc]

theorem readLineEnd?_append (returns : Bool) (s : Text) : readLineEnd? (lineEnd returns ++ s) = some (returns, s) := by
  cases returns <;> rfl

theorem isTagChar_of_isTab {c : Char} (h : isTab c = true) : isTagChar c = false := by
  rcases Bool.or_eq_true_iff.mp h with h | h <;> rw [beq_iff_eq.mp h] <;> decide

/-- Behind an opening line the first three backticks end the fence. -/
theorem Opens.read?_append {f : FenceShape} (h : f.Opens) (inside : Text) :
    read? (ticks ++ (f.tag ++ (f.blanks ++ (lineEnd f.returns ++ inside)))) =
      (Text.cutAt? ticks inside).map fun (body, rest) => (⟨f.tag, f.blanks, f.returns, body⟩, rest) := by
  have hline : Text.Stops isTab (lineEnd f.returns ++ inside) := by
    cases f.returns <;> exact Text.stops_cons.mpr (by decide)
  have htag : Text.Stops isTagChar (f.blanks ++ (lineEnd f.returns ++ inside)) := by
    rcases hblanks : f.blanks with _ | ⟨c, blanks⟩
    · cases f.returns <;> exact Text.stops_cons.mpr (by decide)
    · exact Text.stops_cons.mpr (isTagChar_of_isTab (h.blanks c (hblanks ▸ List.mem_cons_self)))
  rw [read?, Text.dropPrefix?_append, Option.bind_eq_bind, Option.bind_some]
  dsimp only
  rw [Text.takeWhile_run h.tag htag, Text.dropWhile_run h.tag htag, Text.takeWhile_run h.blanks hline,
    Text.dropWhile_run h.blanks hline, readLineEnd?_append]
  dsimp only [Option.bind_eq_bind, Option.bind_some]
  rcases Text.cutAt? ticks inside with _ | ⟨body, rest⟩ <;> rfl

/-- A fence that ends with the first three backticks behind its opening line, those included that begin in its body. -/
structure Proper (f : FenceShape) : Prop extends Opens f where
  body : IsProse (f.body ++ [tick, tick])

theorem cutAt?_ticks_iff {s body rest : Text} :
    Text.cutAt? ticks s = some (body, rest) ↔ body ++ (ticks ++ rest) = s ∧ IsProse (body ++ [tick, tick]) := by
  have hlast : ticks.dropLast = [tick, tick] := by
    rw [ticks_eq]
    rfl
  rw [Text.cutAt?_eq_some_iff ticks_ne_nil, hlast, IsProse]

theorem read?_iff {s rest : Text} {f : FenceShape} : read? s = some (f, rest) ↔ f.Proper ∧ f.render ++ rest = s := by
  constructor
  · intro h
    refine ⟨?_, render_append_of_read? h⟩
    simp only [read?, Option.bind_eq_bind, Option.bind_eq_some_iff] at h
    obtain ⟨fromTag, -, ⟨returns, inside⟩, -, ⟨body, rest⟩, hcut, heq⟩ := h
    cases heq
    exact ⟨⟨fun _ => List.mem_takeWhile_imp, fun _ => List.mem_takeWhile_imp⟩, (cutAt?_ticks_iff.mp hcut).2⟩
  · rintro ⟨hproper, rfl⟩
    have hcut : Text.cutAt? ticks (f.body ++ (ticks ++ rest)) = some (f.body, rest) :=
      cutAt?_ticks_iff.mpr ⟨rfl, hproper.body⟩
    rw [render_append, hproper.read?_append, hcut]
    rfl

theorem proper_shape (f : FenceLayout) : f.shape.Proper where
  tag := f.tag_plain
  blanks := f.blanks_tab
  body := by
    rw [FenceLayout.shape, List.append_assoc]
    exact f.text_isProse.append_cons (by decide) (by decide +kernel)

/-! ### Prose -/

theorem read?_prose {s : Text} (h : IsProse s) : read? s = none := by
  rw [read?, Text.dropPrefix?_eq_none_iff.mpr fun hticks => h hticks.isInfix]
  rfl

/-- An opening line goes on with a tag, and no tag has a backtick. -/
theorem read?_tick (s : Text) : read? (ticks ++ tick :: s) = none := by
  have htag : Text.Stops isTagChar (tick :: s) := Text.stops_cons.mpr (by decide)
  have htab : Text.Stops isTab (tick :: s) := Text.stops_cons.mpr (by decide)
  rw [read?, Text.dropPrefix?_append, Option.bind_eq_bind, Option.bind_some, Text.dropWhile_of_stops htag]
  dsimp only
  rw [Text.dropWhile_of_stops htab]
  rfl

/-- A beginning of a fence that reaches into prose is none. -/
theorem read?_prose_ticks {c : Char} {s : Text} (h : IsProse (c :: s)) (t : Text) :
    read? (c :: s ++ (ticks ++ t)) = none := by
  by_cases hticks : ticks <+: c :: s ++ (ticks ++ t)
  · -- The prose is shorter than three backticks, so it is one or two of them.
    rcases s with _ | ⟨d, _ | ⟨e, s⟩⟩
    · have hc : c = tick := by simpa [ticks_eq, eq_comm] using hticks
      have htext : [c] ++ (ticks ++ t) = ticks ++ tick :: t := by
        rw [hc, ticks_eq]
        rfl
      rw [htext, read?_tick]
    · have hcd : c = tick ∧ d = tick := by simpa [ticks_eq, eq_comm] using hticks
      have htext : [c, d] ++ (ticks ++ t) = ticks ++ tick :: tick :: t := by
        rw [hcd.1, hcd.2, ticks_eq]
        rfl
      rw [htext, read?_tick]
    · refine absurd ?_ h
      have hprefix : ticks <+: c :: d :: e :: s := by
        simpa [ticks_eq] using hticks
      exact hprefix.isInfix
  · rw [read?, Text.dropPrefix?_eq_none_iff.mpr hticks]
    rfl

theorem passes_prose {p : Text} (hp : IsProse p) (b : Bool) : pattern.passes b p [] = true := by
  induction p generalizing b with
  | nil => rfl
  | cons c p ih =>
    have hread : pattern.read? b (c :: p ++ []) = none := by
      rw [List.append_nil]
      exact read?_prose hp
    rw [Pattern.passes, hread, ih hp.tail]
    rfl

theorem passes_prose_ticks {p : Text} (hp : IsProse p) (b : Bool) (t : Text) :
    pattern.passes b p (ticks ++ t) = true := by
  induction p generalizing b with
  | nil => rfl
  | cons c p ih =>
    have hread : pattern.read? b (c :: p ++ (ticks ++ t)) = none := read?_prose_ticks hp t
    rw [Pattern.passes, hread, ih hp.tail]
    rfl

/-! ### Fences -/

/-- The first fence behind prose is found, and the scan goes on behind it. -/
theorem scan_append {p : Text} (hp : IsProse p) {f : FenceShape} (hf : f.Proper) (b : Bool) (rest : Text) :
    pattern.scan b (p ++ (f.render ++ rest)) =
      ⟨(p, f) :: (pattern.scan b rest).hits, (pattern.scan b rest).tail⟩ := by
  have hpass : pattern.passes b p (f.render ++ rest) = true := by
    rw [render_append]
    exact passes_prose_ticks hp b _
  have hread : pattern.read? (endsInWord b p) (f.render ++ rest) = some (f, rest) := read?_iff.mpr ⟨hf, rfl⟩
  rw [Pattern.scan_of_passes hpass, pattern.scan_read hread, Scan.behind, List.append_nil,
    pattern.scan_congr (fun _ _ _ => rfl) _ b]

theorem scan_prose {p : Text} (hp : IsProse p) (b : Bool) : pattern.scan b p = ⟨[], p⟩ := by
  have h := Pattern.scan_of_passes (passes_prose hp b)
  rwa [List.append_nil, pattern.scan_none (s := []) rfl, Scan.behind, List.append_nil] at h

theorem hits_fences {before : Text} {fences : List (FenceLayout × Text)} (hbefore : IsProse before)
    (hbehind : ∀ f ∈ fences, IsProse f.2) (b : Bool) :
    (pattern.scan b (before ++ fences.flatMap fun (f, behind) => f.render ++ behind)).hits.map Prod.snd =
      fences.map fun (f, _) => f.shape := by
  induction fences generalizing before with
  | nil =>
    rw [List.flatMap_nil, List.append_nil, scan_prose hbefore]
    rfl
  | cons fence fences ih =>
    obtain ⟨f, behind⟩ := fence
    obtain ⟨hfirst, hrest⟩ := List.forall_mem_cons.mp hbehind
    rw [List.flatMap_cons, List.append_assoc, FenceLayout.render, scan_append hbefore (proper_shape f), List.map_cons,
      ih hfirst hrest]
    rfl

end FenceShape

/-! ### Fenced texts -/

def keptTexts (found : List FenceShape) : List Text := (found.map fun f => Text.trim f.body).filter fun t => !t.isEmpty

theorem stripFences_of_hits {s : Text} {found : List FenceShape} (hne : found ≠ [])
    (h : (FenceShape.pattern.scan false s).hits.map Prod.snd = found) :
    stripFences s = Text.join "\n\n" (keptTexts found) := by
  have hhits : (FenceShape.pattern.scan false s).hits.isEmpty = false := by
    rw [List.isEmpty_eq_false_iff]
    intro hnil
    exact hne (by rw [← h, hnil, List.map_nil])
  rw [stripFences, hhits, keptTexts, ← h, List.map_map]
  rfl

theorem trim_body_shape (f : FenceLayout) : Text.trim f.shape.body = Text.trim f.text :=
  Text.trim_append_blank (by decide) f.text

/-- The fenced text alone is kept, trimmed. -/
theorem stripFences_append {before behind : Text} (hbefore : IsProse before) (hbehind : IsProse behind)
    (f : FenceLayout) : stripFences (before ++ (f.render ++ behind)) = Text.trim f.text := by
  have hhits : (FenceShape.pattern.scan false (before ++ (f.render ++ behind))).hits.map Prod.snd = [f.shape] := by
    rw [FenceLayout.render, FenceShape.scan_append hbefore (FenceShape.proper_shape f), FenceShape.scan_prose hbehind]
    rfl
  rw [stripFences_of_hits (List.cons_ne_nil _ _) hhits, keptTexts, List.map_singleton, trim_body_shape]
  cases Text.trim f.text with
  | nil => rfl
  | cons c t => exact (Text.join_cons _ _ _).trans (List.append_nil _)

/-- Of any fences in prose the texts are kept that are not blank, each trimmed, with an empty line between them. -/
theorem stripFences_fences {before : Text} {fences : List (FenceLayout × Text)} (hne : fences ≠ [])
    (hbefore : IsProse before) (hbehind : ∀ f ∈ fences, IsProse f.2) :
    stripFences (before ++ fences.flatMap fun (f, behind) => f.render ++ behind) =
      Text.join "\n\n" ((fences.map fun (f, _) => Text.trim f.text).filter fun t => !t.isEmpty) := by
  have hhits := FenceShape.hits_fences hbefore hbehind false
  have htexts : (fences.map fun (f, _) => f.shape).map (fun f => Text.trim f.body) =
      fences.map fun (f, _) => Text.trim f.text := by
    rw [List.map_map]
    exact List.map_congr_left fun (f, _) _ => trim_body_shape f
  rw [stripFences_of_hits (by simpa using hne) hhits, keptTexts, htexts]

/-- A tagged fence, one that is blank, and one whose text begins and ends with backticks, in prose whose backticks touch
    those of the fences. -/
def touchingFences : List (FenceLayout × Text) := [
  (⟨"sql".toList, " \t".toList, true, " a;\n".toList, List.all_eq_true.mp (by decide), List.all_eq_true.mp (by decide),
    by decide +kernel⟩, "` and ``".toList),
  (⟨[], [], false, [' '], List.forall_mem_nil _, List.forall_mem_nil _, by decide +kernel⟩, []),
  (⟨"pl-1".toList, [], false, "``b``".toList, List.all_eq_true.mp (by decide), List.forall_mem_nil _,
    by decide +kernel⟩, [tick])]

theorem stripFences_fences_touchingFences :
    let text := "see `````sql \t\r\n a;\n\n```` and `````\n \n``````pl-1\n``b``\n````".toList
    IsProse "see ``".toList ∧ touchingFences ≠ [] ∧ (∀ f ∈ touchingFences, IsProse f.2) ∧
      "see ``".toList ++ (touchingFences.flatMap fun (f, behind) => f.render ++ behind) = text ∧
      stripFences text = "a;\n\n``b``".toList := by
  intro text
  have hbefore : IsProse "see ``".toList := by decide +kernel
  have hne : touchingFences ≠ [] := List.cons_ne_nil _ _
  have hbehind : ∀ f ∈ touchingFences, IsProse f.2 := by decide +kernel
  have htext : "see ``".toList ++ (touchingFences.flatMap fun (f, behind) => f.render ++ behind) = text := by
    decide +kernel
  have hstripped := stripFences_fences hne hbefore hbehind
  rw [htext] at hstripped
  refine ⟨hbefore, hne, hbehind, htext, hstripped.trans ?_⟩
  decide +kernel

end Schemata
