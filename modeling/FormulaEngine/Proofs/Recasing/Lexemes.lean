import FormulaEngine.Proofs.Pieces
import FormulaEngine.Proofs.Recasing.Texts

/-! # Lexemes of a formula in another case

Reading a formula whose letters outside quotes are lowered gives the lexemes of the formula, each at
its place, with their names lowered. The arguments of calls are lowered outside quotes, since they
are cut at places where no quote is open. A double quote would open a literal that the lowering does
not spare. -/

namespace FormulaEngine

/-! ## Cutting a text -/

namespace Text

theorem foldUnquoted_cons_of_ne {c : Char} (hc : c ≠ '\'') (t : Text) :
    foldUnquoted (c :: t) = c.toLower :: foldUnquoted t := by
  rw [foldUnquoted_cons, quotedBehind, if_neg hc]
  rfl

/-- What is left behind a beginning in which every quote is closed. -/
theorem drop_foldUnquoted {a t : Text} (hp : a <+: t) (ha : quotedAfter false a = false) :
    (foldUnquoted t).drop a.length = foldUnquoted (t.drop a.length) := by
  obtain ⟨b, rfl⟩ := hp
  rw [foldUnquoted_append ha, List.drop_left' (length_foldUnquoted a), List.drop_left]

theorem takeWhile_foldUnquoted {p : Char → Bool} (hp : ∀ c, p c.toLower = p c)
    (hquote : p '\'' = false) (t : Text) :
    (foldUnquoted t).takeWhile p = foldCase (t.takeWhile p) := by
  induction t with
  | nil => rfl
  | cons c t ih =>
    rw [foldUnquoted_cons, List.takeWhile_cons, List.takeWhile_cons, hp]
    split
    · rename_i hc
      have hne : c ≠ '\'' := by
        rintro rfl
        rw [hquote] at hc
        cases hc
      rw [quotedBehind, if_neg hne, foldCase_cons]
      exact congrArg _ ih
    · rfl

theorem drop_takeWhile_foldUnquoted {p : Char → Bool} (hquote : p '\'' = false) (t : Text) :
    (foldUnquoted t).drop (t.takeWhile p).length =
      foldUnquoted (t.drop (t.takeWhile p).length) := by
  refine drop_foldUnquoted (List.takeWhile_prefix p) (quotedAfter_of_not_mem (fun hmem => ?_) false)
  rw [List.mem_takeWhile_imp hmem] at hquote
  cases hquote

/-- Spellings without letters are found in any case. -/
theorem isPrefixOf_congr {s t u : Text} (hs : ∀ c ∈ s, c.isAlpha = false)
    (h : foldCase t = foldCase u) : s.isPrefixOf t = s.isPrefixOf u := by
  induction s generalizing t u with
  | nil => rfl
  | cons c s ih =>
    obtain ⟨hc, hs⟩ := List.forall_mem_cons.mp hs
    cases t with
    | nil =>
      cases u with
      | nil => rfl
      | cons => cases h
    | cons d t =>
      cases u with
      | nil => cases h
      | cons e u =>
        obtain ⟨hde, htu⟩ := List.cons.inj h
        have heq : c = d ↔ c = e := by
          rw [eq_comm, ← toLower_eq_iff hc, hde, toLower_eq_iff hc, eq_comm]
        rw [List.isPrefixOf, List.isPrefixOf, ih hs htu]
        congr 1
        exact Bool.eq_iff_iff.mpr (by simpa using heq)

end Text

open Text (foldCase foldUnquoted)

/-! ## Symbols -/

/-- The token with the letters of its name in lower case. -/
def Token.foldCase : Token → Token
  | name n => name (Text.foldCase n)
  | k => k

@[inherit_doc Token.foldCase]
def Symbol.foldCase : Symbol → Symbol
  | token k => token k.foldCase
  | s => s

namespace Lexer

theorem spaces_foldUnquoted (t : Text) : spaces (foldUnquoted t) = spaces t := by
  have hp : ∀ c : Char, (c.toLower == ' ') = (c == ' ') :=
    apply_toLower (f := (· == ' ')) (by decide)
  rw [spaces, Text.takeWhile_foldUnquoted hp (by decide), Text.length_foldCase]
  rfl

theorem unspaced_foldUnquoted (t : Text) :
    unspaced (foldUnquoted t) = foldUnquoted (unspaced t) := by
  rw [unspaced, spaces_foldUnquoted]
  exact Text.drop_takeWhile_foldUnquoted (by decide) t

end Lexer

namespace Symbol

theorem scanNumeral_foldUnquoted (t : Text) : scanNumeral (foldUnquoted t) = scanNumeral t := by
  have hdigits : ∀ t : Text,
      (foldUnquoted t).takeWhile Char.isDigit = t.takeWhile Char.isDigit := by
    intro t
    rw [Text.takeWhile_foldUnquoted isDigit_toLower (by decide)]
    exact Text.foldCase_eq_self fun c hc => toLower_of_isDigit (List.mem_takeWhile_imp hc)
  rw [scanNumeral, hdigits, Text.drop_takeWhile_foldUnquoted (by decide), scanNumeral]
  cases t.drop (t.takeWhile Char.isDigit).length with
  | nil => rfl
  | cons c rest =>
    rw [Text.foldUnquoted_cons]
    simp only [toLower_eq_iff (d := '.') (by decide), toLower_eq_iff (d := ',') (by decide)]
    by_cases hc : c = '.' ∨ c = ','
    · have hne : c ≠ '\'' := by rcases hc with rfl | rfl <;> decide
      have hrest : Text.foldUnquotedFrom (Text.quotedBehind false c) rest = foldUnquoted rest := by
        rw [Text.quotedBehind, if_neg hne]
        rfl
      simp only [hrest, hdigits]
    · simp only [if_neg hc]

theorem scanPunctuation_foldUnquoted (t : Text) :
    scanPunctuation (foldUnquoted t) = scanPunctuation t := by
  have hspelled : ∀ s ∈ punctuation, ∀ c ∈ s.1, c.isAlpha = false := by decide
  have hfind : ∀ ss : List (Text × Token), (∀ s ∈ ss, ∀ c ∈ s.1, c.isAlpha = false) →
      ss.find? (·.1.isPrefixOf (foldUnquoted t)) = ss.find? (·.1.isPrefixOf t) := by
    intro ss hss
    induction ss with
    | nil => rfl
    | cons s ss ih =>
      obtain ⟨hs, hss⟩ := List.forall_mem_cons.mp hss
      rw [List.find?_cons, List.find?_cons, ih hss,
        Text.isPrefixOf_congr hs (Text.foldCase_foldUnquoted t)]
  rw [scanPunctuation, hfind _ hspelled, scanPunctuation]

/-- Numerals and punctuation have no names. -/
theorem foldCase_scanNumeral (t : Text) : (scanNumeral t).map foldCase id = scanNumeral t := by
  simp only [scanNumeral]
  repeat' split
  all_goals rfl

theorem foldCase_scanPunctuation (t : Text) :
    (scanPunctuation t).map foldCase id = scanPunctuation t := by
  have hnames : ∀ s ∈ punctuation, s.2.foldCase = s.2 := by
    simp [punctuation, Token.foldCase]
  unfold scanPunctuation
  split
  · rename_i spelling k hf
    exact congrArg (fun k => (Symbol.token k, _)) (hnames _ (List.mem_of_find?_eq_some hf))
  · rfl

/-- A text begins with the same symbol in any case. -/
theorem scan?_foldUnquoted {t : Text} (ht : '"' ∉ t) :
    scan? (foldUnquoted t) = (scan? t).map (Prod.map foldCase id) := by
  cases t with
  | nil => rfl
  | cons c rest =>
    obtain ⟨hdouble, -⟩ : '"' ≠ c ∧ '"' ∉ rest := by simpa using ht
    by_cases hc : c = '\''
    · subst hc
      by_cases hrest : '\'' ∈ rest
      · obtain ⟨content, behind, rfl, hcontent⟩ := List.eq_append_cons_of_mem hrest
        rw [Text.foldUnquoted_quoted hcontent, scan?_string (.inl rfl) hcontent,
          scan?_string (.inl rfl) hcontent]
        rfl
      · have hlowered : '\'' ∉ Text.foldCase rest := fun h =>
          hrest ((Text.mem_foldCase (by decide)).mp h)
        rw [Text.foldUnquoted_cons, Text.foldUnquotedFrom_of_not_mem hrest,
          scan?_openString (.inl rfl) hrest]
        exact scan?_openString (.inl rfl) hlowered
    · have hquote : ¬ (c = '\'' ∨ c = '"') := fun h => h.elim hc hdouble.symm
      have hlowered : ¬ (c.toLower = '\'' ∨ c.toLower = '"') := by
        rwa [toLower_eq_iff (by decide), toLower_eq_iff (by decide)]
      have hfold := Text.foldUnquoted_cons_of_ne hc rest
      rw [hfold, scan?, if_neg hlowered, isDigit_toLower, isNameStart_toLower, ← hfold, scan?,
        if_neg hquote]
      split
      · rw [scanNumeral_foldUnquoted]
        exact congrArg some (foldCase_scanNumeral _).symm
      · split
        · rw [Text.takeWhile_foldUnquoted isNamePart_toLower (by decide)]
          simp [foldCase, Token.foldCase, Text.length_foldCase]
        · rw [scanPunctuation_foldUnquoted]
          exact congrArg some (foldCase_scanPunctuation _).symm

/-- A numeral is spelled without quotes. -/
theorem exists_spelling_of_scanNumeral {t : Text} {s : Symbol} {w : Nat}
    (h : scanNumeral t = (s, w)) : ∃ a : Text, a <+: t ∧ a.length = w ∧ '\'' ∉ a := by
  have hdigits : ∀ t : Text, '\'' ∉ t.takeWhile Char.isDigit :=
    fun t hmem => absurd (List.mem_takeWhile_imp hmem) (by decide)
  have hwhole : t.takeWhile Char.isDigit <+: t := List.takeWhile_prefix _
  simp only [scanNumeral] at h
  split at h
  · split at h
    · rename_i c rest hrest
      split at h
      · rename_i hc
        cases h
        refine ⟨t.takeWhile Char.isDigit ++ c :: rest.takeWhile Char.isDigit, ?_, ?_, ?_⟩
        · obtain ⟨b, hb⟩ := List.takeWhile_prefix Char.isDigit (l := rest)
          refine ⟨b, ?_⟩
          rw [List.append_assoc, List.cons_append, hb, ← hrest]
          exact (List.prefix_iff_eq_append.mp hwhole)
        · simp only [List.length_append, List.length_cons]
          omega
        · have hne : '\'' ≠ c := by rcases hc with rfl | rfl <;> decide
          simp [hdigits, hne]
      · cases h
        exact ⟨_, hwhole, rfl, hdigits t⟩
    · cases h
      exact ⟨_, hwhole, rfl, hdigits t⟩
  · cases h
    exact ⟨_, hwhole, rfl, hdigits t⟩

/-- The quotes of a token are closed. -/
theorem exists_spelling_of_scan {t : Text} {k : Token} {w : Nat} (ht : '"' ∉ t)
    (h : scan? t = some (.token k, w)) :
    ∃ a : Text, a <+: t ∧ a.length = w ∧ Text.quotedAfter false a = false := by
  have hplain : (∃ a : Text, a <+: t ∧ a.length = w ∧ '\'' ∉ a) →
      ∃ a : Text, a <+: t ∧ a.length = w ∧ Text.quotedAfter false a = false := by
    rintro ⟨a, hp, hw, ha⟩
    exact ⟨a, hp, hw, Text.quotedAfter_of_not_mem ha false⟩
  cases t with
  | nil => cases h
  | cons c rest =>
    obtain ⟨hdouble, -⟩ : '"' ≠ c ∧ '"' ∉ rest := by simpa using ht
    by_cases hc : c = '\''
    · subst hc
      by_cases hrest : '\'' ∈ rest
      · obtain ⟨content, behind, rfl, hcontent⟩ := List.eq_append_cons_of_mem hrest
        rw [scan?_string (.inl rfl) hcontent] at h
        cases h
        refine ⟨'\'' :: (content ++ ['\'']), ⟨behind, by simp⟩, by simp, ?_⟩
        rw [Text.quotedAfter_cons, Text.quotedAfter_append, Text.quotedAfter_of_not_mem hcontent]
        rfl
      · rw [scan?_openString (.inl rfl) hrest] at h
        cases h
    · refine hplain ?_
      rw [scan?, if_neg fun h => h.elim hc hdouble.symm] at h
      split at h
      · exact exists_spelling_of_scanNumeral (Option.some.inj h)
      · split at h
        · cases h
          refine ⟨_, List.cons_prefix_cons.mpr ⟨rfl, List.takeWhile_prefix _⟩, rfl, ?_⟩
          have hname : '\'' ∉ rest.takeWhile isNamePart :=
            fun hmem => absurd (List.mem_takeWhile_imp hmem) (by decide)
          simpa [hname] using Ne.symm hc
        · have hspelled : ∀ s ∈ punctuation, '\'' ∉ s.1 := by decide
          rw [scanPunctuation] at h
          split at h
          · rename_i spelling k' hf
            cases h
            have hp := List.find?_some hf
            exact ⟨spelling, List.isPrefixOf_iff_prefix.mp hp, rfl,
              hspelled _ (List.mem_of_find?_eq_some hf)⟩
          · cases h

/-- What is left behind a token. -/
theorem drop_foldUnquoted_of_scan {t : Text} {k : Token} {w : Nat} (ht : '"' ∉ t)
    (h : scan? t = some (.token k, w)) : (foldUnquoted t).drop w = foldUnquoted (t.drop w) := by
  obtain ⟨a, hp, rfl, ha⟩ := exists_spelling_of_scan ht h
  exact Text.drop_foldUnquoted hp ha

end Symbol

/-! ## Arguments -/

namespace Arguments

theorem closingOffset_foldCase (offset depth : Nat) (quote? : Option Nat) (t : Text) :
    closingOffset offset depth quote? (Text.foldCase t) = closingOffset offset depth quote? t := by
  induction t generalizing offset depth quote? with
  | nil => rfl
  | cons c t ih =>
    simp only [Text.foldCase_cons, closingOffset, ih, toLower_eq_iff (d := '\'') (by decide),
      toLower_eq_iff (d := '(') (by decide), toLower_eq_iff (d := ')') (by decide)]

theorem isArgument_foldCase_iff {t : Text} :
    Text.IsArgument (Text.foldCase t) ↔ Text.IsArgument t := by
  have hafter : ∀ (n : Nesting) (t : Text),
      n.argumentAfter (Text.foldCase t) = n.argumentAfter t := by
    intro n t
    induction t generalizing n with
    | nil => rfl
    | cons c t ih =>
      have hstep : n.argumentStep c.toLower = n.argumentStep c := by
        simp only [Nesting.argumentStep, Nesting.step, toLower_eq_iff (d := '\'') (by decide),
          toLower_eq_iff (d := '(') (by decide), toLower_eq_iff (d := ')') (by decide),
          toLower_eq_iff (d := ',') (by decide)]
      rw [Text.foldCase_cons, Nesting.argumentAfter_cons, Nesting.argumentAfter_cons, hstep]
      simp only [ih]
  rw [Text.IsArgument, Text.IsArgument, hafter]

theorem isArgument_foldUnquoted_iff {t : Text} :
    Text.IsArgument (foldUnquoted t) ↔ Text.IsArgument t := by
  rw [← isArgument_foldCase_iff, Text.foldCase_foldUnquoted, isArgument_foldCase_iff]

theorem foldUnquoted_join {ps : List Text} (h : ∀ p ∈ ps, Text.IsArgument p) (t : Text) :
    foldUnquoted (Text.join [','] ps ++ t) =
      Text.join [','] (ps.map foldUnquoted) ++ foldUnquoted t := by
  induction ps with
  | nil => rfl
  | cons p ps ih =>
    obtain ⟨hp, hps⟩ := List.forall_mem_cons.mp h
    have hclosed := hp.balanced.quotedAfter_eq
    cases ps with
    | nil => simpa using Text.foldUnquoted_append hclosed t
    | cons q qs =>
      rw [Text.join_cons_cons, List.append_assoc, List.append_assoc,
        Text.foldUnquoted_append hclosed, Text.foldUnquoted_append_of_not_mem (by decide), ih hps]
      simp [Text.join_cons_cons, Text.foldCase]

theorem passed_foldUnquoted (ps : List Text) :
    passed (ps.map foldUnquoted) = (passed ps).map foldUnquoted := by
  have htrim : (ps.map foldUnquoted).map Text.trim = (ps.map Text.trim).map foldUnquoted := by
    simp [Text.trim_foldUnquoted]
  have hblank : (ps.map Text.trim).map foldUnquoted = [[]] ↔ ps.map Text.trim = [[]] := by
    constructor
    · intro h
      obtain ⟨x, hx, hempty⟩ := List.map_eq_singleton_iff.mp h
      have hlength := Text.length_foldUnquoted x
      rw [hempty] at hlength
      rw [hx, List.eq_nil_of_length_eq_zero hlength.symm]
    · intro h
      rw [h]
      rfl
  unfold passed
  simp only [htrim, hblank]
  split <;> rfl

/-- The arguments of a call end at the same place in any case. -/
theorem read_foldUnquoted (t : Text) :
    read (foldUnquoted t) = (read t).map (Prod.map (List.map foldUnquoted) id) := by
  cases hread : read t with
  | ok r =>
    obtain ⟨ps, rest, hne, hps, rfl, harguments, htaken⟩ := read_eq_ok_iff.mp hread
    refine read_eq_ok_iff.mpr ⟨ps.map foldUnquoted, foldUnquoted rest, by simpa using hne, ?_, ?_,
      ?_, ?_⟩
    · simpa [isArgument_foldUnquoted_iff] using hps
    · rw [foldUnquoted_join hps]
      rfl
    · rw [passed_foldUnquoted, ← harguments]
    · have hlength := congrArg List.length (foldUnquoted_join hps [])
      simp only [List.append_nil, Text.foldUnquoted_nil, Text.length_foldUnquoted] at hlength
      rw [← hlength]
      exact htaken
  | error u =>
    have hstop : closingOffset 0 0 none (foldUnquoted t) = closingOffset 0 0 none t := by
      rw [← closingOffset_foldCase, Text.foldCase_foldUnquoted, closingOffset_foldCase]
    unfold read at hread ⊢
    rw [hstop]
    split at hread
    · cases hread
    · rename_i u' hu
      cases hread
      rfl

/-- What is left behind the arguments of a call. -/
theorem drop_foldUnquoted_of_read {t : Text} {arguments : List Text} {taken : Nat}
    (h : read t = .ok (arguments, taken)) :
    (foldUnquoted t).drop taken = foldUnquoted (t.drop taken) := by
  obtain ⟨ps, rest, -, hps, rfl, -, rfl⟩ := read_eq_ok_iff.mp h
  have hcomma : Text.Balanced [','] := by decide
  have hbalanced := balanced_join hcomma fun p hp => (hps p hp).balanced
  have hclosed : Text.quotedAfter false (Text.join [','] ps ++ [')']) = false := by
    rw [Text.quotedAfter_append, hbalanced.quotedAfter_eq]
    rfl
  have hdrop := Text.drop_foldUnquoted (t := Text.join [','] ps ++ ')' :: rest)
    ⟨rest, by simp⟩ hclosed
  rwa [List.length_append, List.length_singleton] at hdrop

end Arguments

/-! ## Lexemes -/

/-- The error with the letters of the name that it blames in lower case. -/
def FormulaError.foldCase (e : FormulaError) : FormulaError :=
  { e with function? := e.function?.map Text.foldCase }

theorem Arguments.Unclosed.toFormulaError_foldCase (u : Unclosed) (name : Text) (start : Nat) :
    u.toFormulaError (Text.foldCase name) start = (u.toFormulaError name start).foldCase := by
  cases u <;> rfl

namespace Lexemes

open Lexer (unspaced spaces)

/-- The lexemes with all names in lower case, and arguments in lower case outside quotes. -/
def foldCase : Lexemes → Lexemes
  | finish p => finish p
  | invalid p => invalid p
  | openString e => openString e
  | openCall p name e => openCall p (Text.foldCase name) e.foldCase
  | token p k rest => token p k.foldCase rest.foldCase
  | call p name arguments rest =>
    call p (Text.foldCase name) (arguments.map foldUnquoted) rest.foldCase
  | apply p name f rest => apply p (Text.foldCase name) f rest.foldCase

theorem elementary?_foldCase (kind : ValueKind) (name : Text) :
    elementary? kind (Text.foldCase name) = elementary? kind name := by
  cases kind with
  | number => rw [elementary?, Elementary.ofName?, Text.foldCase_foldCase]; rfl
  | text => rfl

theorem scan_unspaced_foldUnquoted {t : Text} (ht : '"' ∉ t) {k : Symbol} {w : Nat}
    (h : Symbol.scan? (unspaced t) = some (k, w)) :
    Symbol.scan? (unspaced (foldUnquoted t)) = some (k.foldCase, w) := by
  have hunspaced : '"' ∉ unspaced t := fun h => ht (List.drop_subset _ _ h)
  rw [Lexer.unspaced_foldUnquoted, Symbol.scan?_foldUnquoted hunspaced, h]
  rfl

theorem drop_unspaced_foldUnquoted {t : Text} (ht : '"' ∉ t) {k : Token} {w : Nat}
    (h : Symbol.scan? (unspaced t) = some (.token k, w)) :
    (unspaced (foldUnquoted t)).drop w = foldUnquoted ((unspaced t).drop w) := by
  rw [Lexer.unspaced_foldUnquoted]
  exact Symbol.drop_foldUnquoted_of_scan (fun h => ht (List.drop_subset _ _ h)) h

/-- A parenthesis follows a token in any case, or in none. -/
theorem openParen_foldUnquoted {t inside : Text} (ht : '"' ∉ t) {k : Token} {w : Nat}
    (h : Symbol.scan? (unspaced t) = some (.token k, w))
    (hb : unspaced ((unspaced t).drop w) = '(' :: inside) :
    unspaced ((unspaced (foldUnquoted t)).drop w) = '(' :: foldUnquoted inside := by
  rw [drop_unspaced_foldUnquoted ht h, Lexer.unspaced_foldUnquoted, hb]
  rfl

@[inherit_doc openParen_foldUnquoted]
theorem not_openParen_foldUnquoted {t : Text} (ht : '"' ∉ t) {k : Token} {w : Nat}
    (h : Symbol.scan? (unspaced t) = some (.token k, w))
    (hb : ∀ inside, unspaced ((unspaced t).drop w) ≠ '(' :: inside) :
    (unspaced ((unspaced (foldUnquoted t)).drop w)).head? ≠ some '(' := by
  rw [drop_unspaced_foldUnquoted ht h, Lexer.unspaced_foldUnquoted]
  generalize unspaced ((unspaced t).drop w) = u at hb
  cases u with
  | nil => exact fun h => nomatch h
  | cons c u =>
    intro hopen
    have hc : c = '(' := (toLower_eq_iff (by decide)).mp (Option.some.inj hopen)
    exact hb u (by rw [hc])

/-- Lowering the letters outside quotes lowers the names of the lexemes, and the letters outside
quotes in their arguments. -/
theorem read_foldUnquoted (kind : ValueKind) (p : Nat) {t : Text} (ht : '"' ∉ t) :
    read kind p (foldUnquoted t) = (read kind p t).foldCase := by
  have hdrop : ∀ {u : Text} (n : Nat), '"' ∉ u → '"' ∉ u.drop n :=
    fun n hu hmem => hu (List.drop_subset n _ hmem)
  have hinside : ∀ {u inside : Text}, '"' ∉ u → unspaced u = '(' :: inside → '"' ∉ inside :=
    fun hu hb hmem => hdrop _ hu (hb ▸ List.mem_cons_of_mem _ hmem)
  have hspaces := Lexer.spaces_foldUnquoted
  fun_induction read kind p t with
  | case1 p t start body hs =>
    have hscan : Symbol.scan? (unspaced (foldUnquoted t)) = none := by
      rw [Lexer.unspaced_foldUnquoted, Symbol.scan?_foldUnquoted (hdrop _ ht), hs]
      rfl
    rw [read_openString hscan, hspaces]
    rfl
  | case2 p t start body =>
    rename_i hs
    rw [read_finish (scan_unspaced_foldUnquoted ht hs), hspaces]
    rfl
  | case3 p t start body =>
    rename_i hs
    rw [read_invalid (scan_unspaced_foldUnquoted ht hs), hspaces]
    rfl
  | case4 p t start body name w hs behind inside hb inner f =>
    rename_i hf ih
    rw [read_apply (scan_unspaced_foldUnquoted ht hs) (openParen_foldUnquoted ht hs hb)
      ((elementary?_foldCase kind name).trans hf), drop_unspaced_foldUnquoted ht hs, hspaces,
      hspaces, foldCase, ← ih (hinside (hdrop _ (hdrop _ ht)) hb)]
  | case5 p t start body name w hs behind inside hb inner =>
    rename_i hf u hu
    have harguments : Arguments.read (foldUnquoted inside) = .error u := by
      rw [Arguments.read_foldUnquoted, hu]
      rfl
    rw [read_openCall (scan_unspaced_foldUnquoted ht hs) (openParen_foldUnquoted ht hs hb)
      ((elementary?_foldCase kind name).trans hf) harguments, drop_unspaced_foldUnquoted ht hs,
      hspaces, hspaces, foldCase, u.toFormulaError_foldCase]
  | case6 p t start body name w hs behind inside hb inner hf arguments taken =>
    rename_i ha ih
    have harguments :
        Arguments.read (foldUnquoted inside) = .ok (arguments.map foldUnquoted, taken) := by
      rw [Arguments.read_foldUnquoted, ha]
      rfl
    rw [read_call (scan_unspaced_foldUnquoted ht hs) (openParen_foldUnquoted ht hs hb)
      ((elementary?_foldCase kind name).trans hf) harguments, drop_unspaced_foldUnquoted ht hs,
      hspaces, hspaces, Arguments.drop_foldUnquoted_of_read ha, foldCase,
      ← ih (hdrop _ (hinside (hdrop _ (hdrop _ ht)) hb))]
  | case7 p t start body name w hs behind =>
    rename_i hb ih
    rw [read_token (scan_unspaced_foldUnquoted ht hs)
      fun _ _ => not_openParen_foldUnquoted ht hs hb, drop_unspaced_foldUnquoted ht hs, hspaces,
      foldCase, ← ih (hdrop _ (hdrop _ ht))]
  | case8 p t start body k w hname hs =>
    rename_i ih
    have hfold : k.foldCase = k := by
      cases k with
      | name n => exact absurd rfl (hname n)
      | openParen | closeParen | semicolon | numeral _ | string _ | operator _ => rfl
    have hscan := scan_unspaced_foldUnquoted ht hs
    rw [Symbol.foldCase, hfold] at hscan
    rw [read_token hscan fun n hk => absurd hk (hname n), drop_unspaced_foldUnquoted ht hs, hspaces,
      foldCase, hfold, ← ih (hdrop _ (hdrop _ ht))]

end Lexemes

end FormulaEngine
