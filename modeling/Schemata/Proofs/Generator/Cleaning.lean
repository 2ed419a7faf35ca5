import Schemata.Proofs.Generator.Fences
import Schemata.Proofs.Text.Grammar
import Schemata.Proofs.Text.Places

/-! What is left when the fences are gone. A text has a fence if some part of it is one, from three backticks and the
    rest of an opening line to any three backticks behind it; then one is found in it. No body of a fence that is found
    has three backticks, and those of two bodies do not meet, as there is an empty line between them: so no fence is
    left, and what is left stays as it is when fences are taken away once more. -/

namespace Schemata

/-! ### Complete fences -/

/-- A part of the text is a fence: backticks, the rest of an opening line, any text, and backticks again. -/
def HasFence (s : Text) : Prop := ∃ f : FenceShape, f.Opens ∧ f.render <:+: s

theorem IsProse.not_hasFence {s : Text} (h : IsProse s) : ¬HasFence s := by
  rintro ⟨f, -, hpart⟩
  have hticks : ticks <+: f.render := by
    rw [← List.append_nil f.render, f.render_append]
    exact List.prefix_append _ _
  exact h (hticks.isInfix.trans hpart)

namespace FenceShape

def grammar : Grammar FenceShape := ⟨render, fun _ f _ => f.Proper⟩

theorem pattern_reads : pattern.Reads grammar := ⟨rfl, read?_iff⟩

theorem factors_scan (s : Text) : grammar.Factors s (pattern.scan false s) := pattern_reads.factors_iff.mpr rfl

/-- Where a fence stands one begins that ends with the first three backticks. -/
theorem Opens.begins {f : FenceShape} (h : f.Opens) (before rest : Text) :
    grammar.Begins before (f.render ++ rest) := by
  have hinside : ticks <:+: f.body ++ (ticks ++ rest) := ⟨f.body, rest, List.append_assoc _ _ _⟩
  rcases hcut : Text.cutAt? ticks (f.body ++ (ticks ++ rest)) with _ | ⟨body, behind⟩
  · exact absurd hinside ((Text.cutAt?_eq_none_iff ticks_ne_nil).mp hcut)
  · have hread := h.read?_append (f.body ++ (ticks ++ rest))
    rw [hcut, ← f.render_append] at hread
    exact ⟨_, behind, read?_iff.mp hread⟩

theorem hasFence_iff {s : Text} {cut : Scan FenceShape} (h : grammar.Factors s cut) : HasFence s ↔ cut.hits ≠ [] := by
  obtain ⟨htext, hcuts⟩ := h
  rcases cut with ⟨_ | ⟨⟨gap, f⟩, hits⟩, tail⟩
  · -- The whole text is a gap, and at the place of a fence one would begin in it.
    refine iff_of_false ?_ (not_not_intro rfl)
    rintro ⟨f, hopens, before, behind, hs⟩
    have hgap : grammar.IsGap [] s [] := by
      rw [← htext]
      exact hcuts
    refine hgap before (f.render ++ behind) ?_ (by rw [← hs, List.append_assoc]) ?_
    · rw [f.render_append]
      exact List.append_ne_nil_of_left_ne_nil ticks_ne_nil _
    · rw [List.append_nil]
      exact hopens.begins _ behind
  · refine iff_of_true ?_ (List.cons_ne_nil _ _)
    obtain ⟨-, hproper, -⟩ := hcuts
    refine ⟨f, hproper.toOpens, gap, grammar.written hits tail, ?_⟩
    rw [← htext]
    simp [Grammar.written, grammar]

theorem proper_of_factors {s : Text} {cut : Scan FenceShape} (h : grammar.Factors s cut) :
    ∀ f ∈ cut.hits.map Prod.snd, f.Proper := by
  intro f hf
  rw [← pattern_reads.factors_iff.mp h] at hf
  obtain ⟨hit, hmem, rfl⟩ := List.mem_map.mp hf
  obtain ⟨_, rest, hread⟩ := pattern.read?_of_mem_hits hmem
  exact (read?_iff.mp hread).1

end FenceShape

/-! ### What is kept -/

theorem stripFences_of_not_hasFence {s : Text} (h : ¬HasFence s) : stripFences s = Text.trim s := by
  rw [FenceShape.hasFence_iff (FenceShape.factors_scan s), not_not] at h
  rw [stripFences, h]
  rfl

theorem stripFences_of_factors {s : Text} {cut : Scan FenceShape} (hcut : FenceShape.grammar.Factors s cut)
    (h : HasFence s) : stripFences s = Text.join "\n\n" (keptTexts (cut.hits.map Prod.snd)) := by
  have hne := (FenceShape.hasFence_iff hcut).mp h
  refine stripFences_of_hits (by simpa using hne) ?_
  rw [FenceShape.pattern_reads.factors_iff.mp hcut]

theorem keptTexts_eq_nil_iff {found : List FenceShape} : keptTexts found = [] ↔ ∀ f ∈ found, IsBlank f.body := by
  simp [keptTexts, Text.trim_eq_nil_iff]

structure IsKept (s : Text) : Prop where
  ne_nil : s ≠ []
  trim : Text.trim s = s
  isProse : IsProse s

theorem isKept_of_mem {found : List FenceShape} (h : ∀ f ∈ found, f.Proper) {t : Text} (ht : t ∈ keptTexts found) :
    IsKept t := by
  obtain ⟨ht, hne⟩ := List.mem_filter.mp ht
  obtain ⟨f, hf, rfl⟩ := List.mem_map.mp ht
  have hbody : IsProse f.body := (h f hf).body.of_isInfix (List.prefix_append _ _).isInfix
  exact ⟨by simpa using hne, Text.trim_trim f.body, hbody.of_isInfix (Text.trim_isInfix f.body)⟩

/-- Backticks of two texts do not meet over an empty line. -/
theorem isProse_join {parts : List Text} (h : ∀ t ∈ parts, IsProse t) : IsProse (Text.join "\n\n" parts) := by
  rw [Text.join, Text.ofString_eq]
  induction parts with
  | nil => exact isProse_nil
  | cons first rest ih =>
    obtain ⟨hfirst, hrest⟩ := List.forall_mem_cons.mp h
    cases rest with
    | nil => rwa [List.intercalate_singleton]
    | cons second rest =>
      rw [List.intercalate_cons_cons, List.append_assoc]
      exact hfirst.append_cons (by decide) (isProse_nil.append_cons (by decide) (ih hrest))

theorem join_eq_nil_iff {sep : Text} {parts : List Text} (h : ∀ t ∈ parts, t ≠ []) :
    Text.join sep parts = [] ↔ parts = [] := by
  cases parts with
  | nil => exact iff_of_true rfl rfl
  | cons first rest =>
    refine iff_of_false (fun hjoin => ?_) (List.cons_ne_nil _ _)
    rw [Text.join_cons] at hjoin
    exact h first List.mem_cons_self (List.append_eq_nil_iff.mp hjoin).1

theorem stripFences_eq_nil_iff {s : Text} :
    stripFences s = [] ↔ ¬HasFence s ∧ IsBlank s ∨
      HasFence s ∧ ∃ cut, FenceShape.grammar.Factors s cut ∧ ∀ hit ∈ cut.hits, IsBlank hit.2.body := by
  by_cases h : HasFence s
  · have hempty : ∀ {cut}, FenceShape.grammar.Factors s cut →
        (stripFences s = [] ↔ ∀ hit ∈ cut.hits, IsBlank hit.2.body) := by
      intro cut hcut
      have hkept : ∀ t ∈ keptTexts (cut.hits.map Prod.snd), t ≠ [] := fun t ht =>
        (isKept_of_mem (FenceShape.proper_of_factors hcut) ht).ne_nil
      rw [stripFences_of_factors hcut h, join_eq_nil_iff hkept, keptTexts_eq_nil_iff, List.forall_mem_map]
    rw [or_iff_right fun hnone => hnone.1 h, and_iff_right h]
    constructor
    · exact fun hs => ⟨_, FenceShape.factors_scan s, (hempty (FenceShape.factors_scan s)).mp hs⟩
    · rintro ⟨cut, hcut, hblank⟩
      exact (hempty hcut).mpr hblank
  · rw [or_iff_left fun hsome => h hsome.1, and_iff_right h, stripFences_of_not_hasFence h, Text.trim_eq_nil_iff]

/-! ### Clean texts -/

structure IsClean (s : Text) : Prop where
  trim : Text.trim s = s
  no_fence : ¬HasFence s

theorem IsClean.stripFences {s : Text} (h : IsClean s) : stripFences s = s :=
  (stripFences_of_not_hasFence h.no_fence).trans h.trim

theorem isClean_stripFences (s : Text) : IsClean (stripFences s) := by
  by_cases h : HasFence s
  · have hcut := FenceShape.factors_scan s
    have hkept := fun t => isKept_of_mem (t := t) (FenceShape.proper_of_factors hcut)
    rw [stripFences_of_factors hcut h]
    refine ⟨Text.trim_join fun t ht => ⟨(hkept t ht).ne_nil, (hkept t ht).trim⟩, IsProse.not_hasFence ?_⟩
    exact isProse_join fun t ht => (hkept t ht).isProse
  · rw [stripFences_of_not_hasFence h]
    refine ⟨Text.trim_trim s, ?_⟩
    rintro ⟨f, hopens, hpart⟩
    exact h ⟨f, hopens, hpart.trans (Text.trim_isInfix s)⟩

namespace Generator
variable {g : Generator} {description x : Text} (h : g.complete (schemaPrompt description) = .ok x)
include h

theorem describe_eq_ok (hx : stripFences x ≠ []) : g.describe description = .ok (stripFences x) := by
  rw [describe, h]
  simp [hx]

theorem describe_eq_emptyOutput_iff :
    g.describe description = .error (.emptyOutput g.name) ↔ stripFences x = [] := by
  rw [describe, h]
  by_cases hx : stripFences x = [] <;> simp [hx]

end Generator

/-- Fences are taken away for good: a generator gives a text that is clean, or its output is blank, or blank in all of
    its fences. -/
theorem describe_clean (x : Text) :
    (stripFences (stripFences x) = stripFences x ∧ IsClean (stripFences x)) ∧
      ∀ (g : Generator) (description : Text), g.complete (schemaPrompt description) = .ok x →
        ((∃ t, g.describe description = .ok t ∧ t ≠ [] ∧ Text.trim t = t ∧ stripFences t = t) ∨
          g.describe description = .error (.emptyOutput g.name)) ∧
        (g.describe description = .error (.emptyOutput g.name) ↔
          ¬HasFence x ∧ IsBlank x ∨
            HasFence x ∧ ∃ cut, FenceShape.grammar.Factors x cut ∧ ∀ hit ∈ cut.hits, IsBlank hit.2.body) := by
  have hclean := isClean_stripFences x
  refine ⟨⟨hclean.stripFences, hclean⟩, fun g description hcomplete => ⟨?_, ?_⟩⟩
  · by_cases hempty : stripFences x = []
    · exact .inr ((Generator.describe_eq_emptyOutput_iff hcomplete).mpr hempty)
    · exact .inl ⟨_, Generator.describe_eq_ok hcomplete hempty, hempty, hclean.trim, hclean.stripFences⟩
  · rw [Generator.describe_eq_emptyOutput_iff hcomplete, stripFences_eq_nil_iff]

/-- Backticks are left over behind the first fence. The other output has blanks alone in its only fence. -/
theorem describe_clean_leftover :
    let output := "see\n```\na``\n`````\n``b\n``` c".toList
    let blank : FenceShape := ⟨"sql".toList, [], true, " \n".toList⟩
    let g := Generator.constant "model".toList ("``".toList ++ blank.render ++ ['x'])
    stripFences output = "a``".toList ∧ stripFences "a``".toList = "a``".toList ∧ ¬HasFence "a``".toList ∧
      g.describe [] = .error (.emptyOutput "model".toList) := by
  intro output blank g
  have hkept : stripFences output = "a``".toList := by decide +kernel
  obtain ⟨⟨hagain, hclean⟩, -⟩ := describe_clean output
  rw [hkept] at hagain hclean
  obtain ⟨-, hdescribe⟩ := describe_clean ("``".toList ++ blank.render ++ ['x'])
  obtain ⟨-, hempty⟩ := hdescribe g [] rfl
  have hproper : blank.Proper := ⟨⟨List.all_eq_true.mp (by decide), List.forall_mem_nil _⟩, by decide +kernel⟩
  have hcut : FenceShape.grammar.Factors ("``".toList ++ blank.render ++ ['x']) ⟨[("``".toList, blank)], ['x']⟩ := by
    rw [FenceShape.pattern_reads.factors_iff, List.append_assoc, FenceShape.scan_append (by decide +kernel) hproper,
      FenceShape.scan_prose (by decide +kernel)]
  refine ⟨hkept, hagain, hclean.no_fence, hempty.mpr (.inr ⟨?_, _, hcut, ?_⟩)⟩
  · exact (FenceShape.hasFence_iff hcut).mpr (List.cons_ne_nil _ _)
  · decide +kernel

end Schemata
