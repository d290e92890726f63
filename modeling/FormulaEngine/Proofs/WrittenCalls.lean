import FormulaEngine.Proofs.ArgumentLists
import FormulaEngine.Proofs.Calls
import FormulaEngine.Proofs.Lookahead

/-! # Calls of arbitrary arguments

Blanks and line breaks around the arguments of a call do not count, and neither do spaces in front
of its parenthesis. When no argument is blank, a call is its function applied to the arguments as
formulas of their own, whether spaces stand behind its commas or not. -/

namespace FormulaEngine

open Text (IsArgument Padded Tight)

namespace Text

/-! ## Line breaks -/

/-- The text without its line breaks. -/
def oneLine (t : Text) : Text := t.filter fun c => c != '\r' && c != '\n'

theorem oneLine_append (t u : Text) : (t ++ u).oneLine = t.oneLine ++ u.oneLine :=
  List.filter_append ..

theorem Unbroken.oneLine_eq {t : Text} (h : t.Unbroken) : t.oneLine = t :=
  List.filter_eq_self.mpr fun c hc => by simpa using h c hc

/-- What passes over plain characters passes over line breaks. -/
theorem foldlM_oneLine {f : Nesting → Char → Option Nesting}
    (hf : ∀ {c}, Nesting.IsPlain c → ∀ n, f n c = some n) (n : Nesting) (t : Text) :
    t.oneLine.foldlM f n = t.foldlM f n := by
  have hstep : ∀ m c, (if (c != '\r' && c != '\n') = true then f m c else pure m) = f m c := by
    intro m c
    split
    · rfl
    · rename_i hbreak
      have hplain : Nesting.IsPlain c := by
        by_cases hreturn : c = '\r'
        · exact hreturn ▸ by decide
        · obtain rfl : c = '\n' := by simpa [hreturn] using hbreak
          decide
      exact (hf hplain m).symm
  rw [oneLine, List.foldlM_filter]
  simp only [hstep]

theorem isArgument_oneLine_iff {t : Text} : IsArgument t.oneLine ↔ IsArgument t := by
  rw [IsArgument, Nesting.argumentAfter, foldlM_oneLine Nesting.argumentStep_of_isPlain]
  rfl

/-- Line breaks are blanks, so they stand at neither end. -/
theorem Tight.oneLine {t : Text} (h : Tight t) : Tight t.oneLine := by
  have hkept : ∀ {c : Char}, isBlank c = false → Text.oneLine [c] = [c] := by
    intro c hc
    exact (unbroken_of_not_blank (by simpa using hc)).oneLine_eq
  obtain ⟨⟨c, hc, hblank⟩, d, hd, hblank'⟩ := h
  constructor
  · obtain ⟨u, rfl⟩ := List.head?_eq_some_iff.mp hc
    refine ⟨c, ?_, hblank⟩
    rw [← List.singleton_append, oneLine_append, hkept hblank]
    rfl
  · obtain ⟨v, rfl⟩ := List.getLast?_eq_some_iff.mp hd
    refine ⟨d, ?_, hblank'⟩
    rw [oneLine_append, hkept hblank', List.getLast?_concat]

theorem padded_oneLine (t : Text) : Padded (normalize t) t.oneLine := by
  obtain ⟨a, b, ha, hb, ht⟩ := padded_trim t
  refine ⟨a.oneLine, b.oneLine, fun c hc => ha c (List.mem_filter.mp hc).1,
    fun c hc => hb c (List.mem_filter.mp hc).1, ?_⟩
  rw [congrArg oneLine ht, oneLine_append, oneLine_append]
  rfl

theorem isArgument_normalize_iff {t : Text} : IsArgument (normalize t) ↔ IsArgument t := by
  rw [← (padded_oneLine t).isArgument_iff, isArgument_oneLine_iff]

theorem trim_normalize (t : Text) : trim (normalize t) = normalize t := by
  by_cases h : trim t = []
  · rw [normalize, h]
    rfl
  · exact (tight_trim h).oneLine.trim_eq

theorem trim_oneLine (t : Text) : trim t.oneLine = normalize t := by
  rw [(padded_oneLine t).trim_eq, trim_normalize]

theorem normalize_normalize (t : Text) : normalize (normalize t) = normalize t :=
  normalize_eq_self (trim_normalize t) (unbroken_normalize t)

/-! ## Calls -/

theorem oneLine_join (separator : Text) (ts : List Text) :
    (join separator ts).oneLine = join separator.oneLine (ts.map oneLine) := by
  induction ts with
  | nil => rfl
  | cons t ts ih =>
    cases ts with
    | nil => simp
    | cons u us => simp only [join_cons_cons, List.map_cons, oneLine_append] at ih ⊢; rw [ih]

variable {name : Text} {parts : List Text}

theorem tight_spacedCall (hname : IsName name) (n : Nat) (parts : List Text) :
    Tight (spacedCall name n parts) := by
  simpa [spacedCall] using (Standalone.name hname).tight.append (gap n) (tight_parenthesized _)

theorem oneLine_spacedCall (hname : IsName name) (n : Nat) (parts : List Text) :
    (spacedCall name n parts).oneLine = spacedCall name n (parts.map oneLine) := by
  have hgap : Unbroken (gap n) := by
    intro c hc
    rw [List.eq_of_mem_replicate hc]
    decide
  have hopen : Unbroken ['('] := by decide
  have hclose : Unbroken [')'] := by decide
  have hcomma : Unbroken [','] := by decide
  have hparts : (name ++ (gap n ++ (['('] ++ (join [','] parts ++ [')'])))).oneLine =
      name ++ (gap n ++ (['('] ++ (join [','] (parts.map oneLine) ++ [')']))) := by
    rw [oneLine_append, oneLine_append, oneLine_append, oneLine_append, oneLine_join,
      hgap.oneLine_eq, hopen.oneLine_eq, hclose.oneLine_eq, hcomma.oneLine_eq,
      (Standalone.name hname).unbroken.oneLine_eq]
  exact hparts

/-- Inside a call a formula keeps its blanks, but not its line breaks. -/
theorem normalize_spacedCall (hname : IsName name) (n : Nat) (parts : List Text) :
    normalize (spacedCall name n parts) = spacedCall name n (parts.map oneLine) := by
  rw [← oneLine_spacedCall hname, normalize, (tight_spacedCall hname n parts).trim_eq]
  rfl

/-- Outside quotes a call brings the splitter back to where it was. -/
theorem argumentAfter_spacedCall (hname : IsName name) (hparts : ∀ p ∈ parts, IsArgument p)
    (n depth : Nat) :
    Nesting.argumentAfter ⟨depth, false⟩ (spacedCall name n parts) = some ⟨depth, false⟩ := by
  have hplain : ∀ c ∈ name ++ gap n, Nesting.IsPlain c := by
    refine List.forall_mem_append.mpr ⟨fun c hc => ?_, fun c hc => ?_⟩
    · exact (isMark_of_isNamePart (hname.all c hc)).1
    · rw [List.eq_of_mem_replicate hc]
      decide
  have hopen : Nesting.argumentStep ⟨depth, false⟩ '(' = some ⟨depth + 1, false⟩ := rfl
  have hjoin : Balanced (join [','] parts) :=
    Arguments.balanced_join (by decide) fun p hp => (hparts p hp).balanced
  have hinside : Nesting.argumentAfter ⟨depth + 1, false⟩ (join [','] parts) =
      some ⟨depth + 1, false⟩ := by
    simpa [Nesting.outside] using Nesting.argumentAfter_deeper depth hjoin
  have hclose : Nesting.argumentAfter ⟨depth + 1, false⟩ [')'] = some ⟨depth, false⟩ := rfl
  rw [spacedCall, ← List.append_assoc, Nesting.argumentAfter_append,
    Nesting.argumentAfter_of_isPlain hplain, Option.bind_some, Nesting.argumentAfter_cons, hopen,
    Option.bind_some, Nesting.argumentAfter_append, hinside, Option.bind_some, hclose]

theorem isArgument_spacedCall (hname : IsName name) (n : Nat) (h : ∀ p ∈ parts, IsArgument p) :
    IsArgument (spacedCall name n parts) :=
  argumentAfter_spacedCall hname h n 0

/-- A call with nothing but commas between its arguments. -/
def compactCall (name : Text) (ts : List Text) : Text :=
  name ++ '(' :: (join [','] ts ++ [')'])

theorem compactCall_eq_spacedCall (name : Text) (ts : List Text) :
    compactCall name ts = spacedCall name 0 ts := rfl

/-- The space behind a comma can be taken for a part of the argument that follows. -/
theorem call_eq_compactCall (name t : Text) (ts : List Text) :
    call name (t :: ts) = compactCall name (t :: ts.map (' ' :: ·)) := by
  rw [call, Arguments.join_space, compactCall]

theorem isArgument_compactCall (hname : IsName name) {ts : List Text}
    (h : ∀ t ∈ ts, IsArgument t) : IsArgument (compactCall name ts) := by
  rw [compactCall_eq_spacedCall]
  exact isArgument_spacedCall hname 0 h

end Text

/-! ## Evaluation -/

variable {kind : ValueKind} {name : Text} {ts : List Text}

/-- Arguments that have been written on several lines are passed on as formulas of their own. -/
theorem Arguments.passed_oneLine (h : ts.map normalize ≠ [[]]) :
    passed (ts.map Text.oneLine) = ts.map normalize := by
  have htrim : (ts.map Text.oneLine).map Text.trim = ts.map normalize := by
    rw [List.map_map]
    exact List.map_congr_left fun t _ => Text.trim_oneLine t
  rw [passed, htrim, if_neg h]

/-- A call is one piece of a formula. -/
theorem Lexemes.starts_spacedCall (hname : IsName name) (hf : elementary? kind name = none)
    (hts : ts ≠ []) (hargument : ∀ t ∈ ts, IsArgument t) (hblank : ts.map normalize ≠ [[]])
    (n : Nat) : ∃ q, Starts (ofText kind (normalize (Text.spacedCall name n ts)))
      [.call name (ts.map normalize)] (.finish q) := by
  have honeLine : ∀ t ∈ ts.map Text.oneLine, IsArgument t := by
    intro t ht
    obtain ⟨u, hu, rfl⟩ := List.mem_map.mp ht
    exact Text.isArgument_oneLine_iff.mpr (hargument u hu)
  have hleads := Leads.call 0 n hname hf (by simpa using hts) honeLine (.nil 0 [])
  obtain ⟨q, hq⟩ := hleads.exists_starts 0
  rw [Arguments.passed_oneLine hblank, read_finish (t := []) (w := 0) rfl] at hq
  exact ⟨_, by simpa [ofText, Text.normalize_spacedCall hname, Text.gap] using hq⟩

namespace Surroundings

variable (s : Surroundings)

theorem evalNumber_normalize (e : Text) :
    s.evalNumber (normalize e) = s.evalNumber e := by
  rw [evalNumber, evalNumber, Text.normalize_normalize]

theorem evalText_normalize (e : Text) :
    s.evalText (normalize e) = s.evalText e := by
  rw [evalText, evalText, Text.normalize_normalize]

theorem evalNumber_compactCall (hname : IsName name) (hf : Elementary.ofName? name = none)
    (hts : ts ≠ []) (hargument : ∀ t ∈ ts, IsArgument t) (hblank : ts.map normalize ≠ [[]]) :
    s.evalNumber (Text.compactCall name ts) =
      NumericExpr.callFunction s.ambient name (ts.map normalize) := by
  have hf : Lexemes.elementary? .number name = none := hf
  obtain ⟨q, hstarts⟩ := Lexemes.starts_spacedCall hname hf hts hargument hblank 0
  rw [Text.compactCall_eq_spacedCall]
  exact evalNumber_of_call hstarts

theorem evalText_compactCall (hname : IsName name) (hts : ts ≠ [])
    (hargument : ∀ t ∈ ts, IsArgument t) (hblank : ts.map normalize ≠ [[]]) :
    s.evalText (Text.compactCall name ts) =
      TextExpr.callFunction s.ambient name (ts.map normalize) := by
  have hf : Lexemes.elementary? .text name = none := rfl
  obtain ⟨q, hstarts⟩ := Lexemes.starts_spacedCall hname hf hts hargument hblank 0
  rw [Text.compactCall_eq_spacedCall]
  exact evalText_of_call hstarts

end Surroundings

end FormulaEngine
