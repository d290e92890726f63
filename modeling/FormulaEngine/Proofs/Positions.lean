import FormulaEngine.Proofs.Termination

/-! # Positions of errors in one text

An error that parsing a text ends in tells of a place that is counted in characters from the
beginning of the text, and what it complains about is found there: the token begins at it, or the
quote stands there that is not closed, or the arguments begin there that do not end. That holds of
one text at a time; which text an evaluation was reading is not told by its errors. -/

namespace FormulaEngine

namespace Lexer

/-! ## Where the lexer comes -/

/-- The lexer reads a name, and then an opening parenthesis. -/
def Opens (m : Lexer) (name : Text) (m' : Lexer) : Prop :=
  ∃ m₁, m.next = (.ok (.token (.name name)), m₁) ∧ m₁.next = (.ok (.token .openParen), m')

/-- Reading pieces, the lexer comes to another place. A call with its arguments is one piece, and an
elementary function with its parenthesis is one, where numbers are computed. -/
inductive Reaches (kind : ValueKind) (l : Lexer) : Lexer → Prop where
  | refl : Reaches kind l l
  | token {m m' : Lexer} {k : Token} : Reaches kind l m → m.next = (.ok (.token k), m') →
      (∀ n, k = .name n → ∀ m'', m'.next ≠ (.ok (.token .openParen), m'')) → Reaches kind l m'
  | call {m m' : Lexer} {name : Text} {arguments : List Text} {taken : Nat} : Reaches kind l m →
      m.Opens name m' → Lexemes.elementary? kind name = none →
      Arguments.read m'.cursor.after = .ok (arguments, taken) →
      Reaches kind l ⟨m'.cursor.advanceBy taken, m'.tokenStart⟩
  | apply {m m' : Lexer} {name : Text} {f : Elementary} : Reaches kind l m → m.Opens name m' →
      Lexemes.elementary? kind name = some f → Reaches kind l m'

variable {kind : ValueKind} {l m m' : Lexer}

theorem toText_next (m : Lexer) : m.next.2.cursor.toText = m.cursor.toText := by
  simp only [next]
  split <;> simp

theorem toText_of_next {r : Except FormulaError Symbol} (h : m.next = (r, m')) :
    m'.cursor.toText = m.cursor.toText := by
  rw [← toText_next m, h]

theorem Opens.toText {name : Text} (h : m.Opens name m') : m'.cursor.toText = m.cursor.toText := by
  obtain ⟨m₁, hname, hopen⟩ := h
  rw [toText_of_next hopen, toText_of_next hname]

theorem Reaches.toText (h : Reaches kind l m) : m.cursor.toText = l.cursor.toText := by
  induction h with
  | refl => rfl
  | token _ hn _ ih => rw [toText_of_next hn, ih]
  | call _ ho _ _ ih => rw [Cursor.toText_advanceBy, ho.toText, ih]
  | apply _ ho _ ih => rw [ho.toText, ih]

/-- What is left of a text stands behind the position. -/
theorem after_eq_drop {c : Cursor} {t : Text} (h : c.toText = t) : c.after = t.drop c.position := by
  rw [← h, Cursor.toText, Cursor.position, ← List.length_reverse, List.drop_left]

theorem position_advance_spaces (m : Lexer) :
    (m.cursor.advanceBy (spaces m.cursor.after)).position =
      m.cursor.position + spaces m.cursor.after :=
  Cursor.position_advanceBy _ (List.takeWhile_prefix _).length_le

theorem tokenStart_next (m : Lexer) :
    m.next.2.tokenStart = m.cursor.position + spaces m.cursor.after := by
  rw [← position_advance_spaces]
  simp only [next]
  split <;> rfl

theorem position_next {k : Token} {w : Nat}
    (h : Symbol.scan? (unspaced m.cursor.after) = some (.token k, w)) :
    m.next.2.cursor.position = m.cursor.position + spaces m.cursor.after + w := by
  have hscan : Symbol.scan? (m.cursor.advanceBy (spaces m.cursor.after)).after =
      some (.token k, w) := h
  simp only [next, hscan]
  rw [Cursor.position_advanceBy _ (Symbol.scan?_width hscan).2, position_advance_spaces]

/-- A symbol and its place. -/
theorem next_of_scan_at {s : Symbol} {w : Nat}
    (h : Symbol.scan? (unspaced m.cursor.after) = some (s, w)) :
    ∃ m', m.next = (.ok s, m') ∧ m'.cursor.after = (unspaced m.cursor.after).drop w ∧
      m'.tokenStart = m.cursor.position + spaces m.cursor.after ∧
      ∀ k, s = .token k → m'.cursor.position = m.cursor.position + spaces m.cursor.after + w := by
  obtain ⟨m', hn, hafter⟩ := next_of_scan h
  have hm : m.next.2 = m' := by rw [hn]
  refine ⟨m', hn, hafter, by rw [← hm, tokenStart_next], ?_⟩
  rintro k rfl
  rw [← hm, position_next h]

theorem next_of_scan_none (h : Symbol.scan? (unspaced m.cursor.after) = none) :
    ∃ m', m.next = (.error (.openString m'.tokenStart), m') ∧
      m'.tokenStart = m.cursor.position + spaces m.cursor.after := by
  have hscan : Symbol.scan? (m.cursor.advanceBy (spaces m.cursor.after)).after = none := h
  have hn : m.next.1 = .error (.openString m.next.2.tokenStart) := by
    simp only [next, hscan]
  exact ⟨m.next.2, Prod.ext hn rfl, tokenStart_next m⟩

end Lexer

open Lexer (Reaches Opens)

/-! ## Where lexemes stand -/

/-- The lexemes, and those behind them, stand where the lexer reads them in the text. -/
inductive Lexemes.Placed (kind : ValueKind) (t : Text) : Lexemes → Prop where
  | finish {m m' : Lexer} : Reaches kind (.ofText t) m → m.next = (.ok .finish, m') →
      Placed kind t (.finish m'.tokenStart)
  | invalid {m m' : Lexer} : Reaches kind (.ofText t) m → m.next = (.ok .invalid, m') →
      Placed kind t (.invalid m'.tokenStart)
  | openString {m m' : Lexer} : Reaches kind (.ofText t) m →
      m.next = (.error (.openString m'.tokenStart), m') →
      Placed kind t (.openString (.openString m'.tokenStart))
  | openCall {m m' : Lexer} {p : Nat} {name : Text} {u : Arguments.Unclosed} :
      Reaches kind (.ofText t) m → m.Opens name m' → m.next.2.tokenStart = p →
      Lexemes.elementary? kind name = none → Arguments.read m'.cursor.after = .error u →
      Placed kind t (.openCall p name (u.toFormulaError name m'.cursor.position))
  | token {m m' : Lexer} {k : Token} {rest : Lexemes} : Reaches kind (.ofText t) m →
      m.next = (.ok (.token k), m') → Placed kind t rest → Placed kind t (.token m'.tokenStart k rest)
  | call {m m' : Lexer} {p : Nat} {name : Text} {arguments : List Text} {taken : Nat}
      {rest : Lexemes} : Reaches kind (.ofText t) m → m.Opens name m' → m.next.2.tokenStart = p →
      Lexemes.elementary? kind name = none →
      Arguments.read m'.cursor.after = .ok (arguments, taken) → Placed kind t rest →
      Placed kind t (.call p name arguments rest)
  | apply {m m' : Lexer} {p : Nat} {name : Text} {f : Elementary} {rest : Lexemes} :
      Reaches kind (.ofText t) m → m.Opens name m' → m.next.2.tokenStart = p → Placed kind t rest →
      Placed kind t (.apply p name f rest)

namespace Lexemes

open Lexer

variable {kind : ValueKind} {t : Text}

/-- A name and a parenthesis behind it are read one after the other. -/
theorem opens_of_scan {m : Lexer} {name inside : Text} {w : Nat}
    (h : Symbol.scan? (unspaced m.cursor.after) = some (.token (.name name), w))
    (hb : unspaced ((unspaced m.cursor.after).drop w) = '(' :: inside) :
    ∃ m', m.Opens name m' ∧ m'.cursor.after = inside ∧ m'.cursor.position =
      m.cursor.position + spaces m.cursor.after + w + spaces ((unspaced m.cursor.after).drop w) + 1 := by
  obtain ⟨m₁, hname, hafter, -, hposition⟩ := next_of_scan_at h
  have hscan : Symbol.scan? (unspaced m₁.cursor.after) = some (.token .openParen, 1) := by
    rw [hafter, hb]
    rfl
  obtain ⟨m', hopen, hafter', -, hposition'⟩ := next_of_scan_at hscan
  refine ⟨m', ⟨m₁, hname, hopen⟩, by rw [hafter', hafter, hb]; rfl, ?_⟩
  rw [hposition' _ rfl, hposition _ rfl, hafter]

/-- Reading lexemes from where the lexer is gives placed ones. -/
theorem placed_read {p : Nat} {u : Text} {m : Lexer} (hm : Reaches kind (.ofText t) m)
    (hp : m.cursor.position = p) (hu : m.cursor.after = u) : Placed kind t (read kind p u) := by
  fun_induction read kind p u generalizing m with
  | case1 p u start =>
    rename_i hs
    subst hp hu
    obtain ⟨m', hn, hstart⟩ := next_of_scan_none hs
    rw [show start = m'.tokenStart from hstart.symm]
    exact .openString hm hn
  | case2 p u start =>
    rename_i hs
    subst hp hu
    obtain ⟨m', hn, -, hstart, -⟩ := next_of_scan_at hs
    rw [show start = m'.tokenStart from hstart.symm]
    exact .finish hm hn
  | case3 p u start =>
    rename_i hs
    subst hp hu
    obtain ⟨m', hn, -, hstart, -⟩ := next_of_scan_at hs
    rw [show start = m'.tokenStart from hstart.symm]
    exact .invalid hm hn
  | case4 p u start body name w hs behind inside hb inner f =>
    rename_i hf ih
    subst hp hu
    obtain ⟨m', ho, hafter, hposition⟩ := opens_of_scan hs hb
    exact .apply hm ho (tokenStart_next m) (ih (hm.apply ho hf) hposition hafter)
  | case5 p u start body name w hs behind inside hb inner hf u' =>
    rename_i ha
    subst hp hu
    obtain ⟨m', ho, hafter, hposition⟩ := opens_of_scan hs hb
    rw [show inner = m'.cursor.position from hposition.symm]
    exact .openCall hm ho (tokenStart_next m) hf (by rw [hafter]; exact ha)
  | case6 p u start body name w hs behind inside hb inner hf arguments taken =>
    rename_i ha ih
    subst hp hu
    obtain ⟨m', ho, hafter, hposition⟩ := opens_of_scan hs hb
    have hread : Arguments.read m'.cursor.after = .ok (arguments, taken) := by rw [hafter]; exact ha
    refine .call hm ho (tokenStart_next m) hf hread (ih (hm.call ho hf hread) ?_ ?_)
    · rw [Cursor.position_advanceBy _ (Arguments.read_width hread).2, hposition]
    · simp [Cursor.advanceBy, hafter]
  | case7 p u start body name w hs behind =>
    rename_i hb ih
    subst hp hu
    obtain ⟨m', hn, hafter, hstart, hposition⟩ := next_of_scan_at hs
    have hreached : Reaches kind (.ofText t) m' := by
      refine hm.token hn fun _ _ m'' hn' => ?_
      obtain ⟨inside, hopen⟩ := exists_openParen_of_next hn'
      rw [hafter] at hopen
      exact hb inside hopen
    have hplaced := Placed.token hm hn (ih hreached (hposition _ rfl) hafter)
    rw [hstart] at hplaced
    exact hplaced
  | case8 p u start body k w hname hs =>
    rename_i ih
    subst hp hu
    obtain ⟨m', hn, hafter, hstart, hposition⟩ := next_of_scan_at hs
    have hreached := hm.token hn fun n hk => absurd hk (hname n)
    have hplaced := Placed.token hm hn (ih hreached (hposition _ rfl) hafter)
    rw [hstart] at hplaced
    exact hplaced

theorem placed_ofText (kind : ValueKind) (t : Text) : Placed kind t (ofText kind t) :=
  placed_read .refl rfl rfl

end Lexemes

/-! ## Faults in a text -/

/-- The symbol begins at this place of the text, where the lexer reads it. -/
structure SymbolAt (kind : ValueKind) (t : Text) (p : Nat) (found : Symbol) : Prop where
  read : ∃ m m', Reaches kind (.ofText t) m ∧ m.next = (.ok found, m') ∧ m'.tokenStart = p
  spelled : ∃ w, Symbol.scan? (t.drop p) = some (found, w)

/-- The arguments of a call of this name begin at this place of the text. -/
def ArgumentsAt (kind : ValueKind) (t : Text) (p : Nat) (name inside : Text) : Prop :=
  ∃ m m', Reaches kind (.ofText t) m ∧ m.Opens name m' ∧ Lexemes.elementary? kind name = none ∧
    m'.cursor.position = p ∧ m'.cursor.after = inside

/-- A quote at this place of the text opens a literal: the lexer reads it as the next symbol, or it
stands among the arguments of a call behind literals that are closed. -/
inductive QuoteOpens (kind : ValueKind) (t : Text) (p : Nat) : Prop where
  | lexer {m m' : Lexer} : Reaches kind (.ofText t) m → m.next = (.error (.openString p), m') →
      QuoteOpens kind t p
  | arguments {q : Nat} {name before rest : Text} :
      ArgumentsAt kind t q name (before ++ '\'' :: rest) → before.count '\'' % 2 = 0 →
      p = q + before.length → QuoteOpens kind t p

/-- A literal is opened at this place of the text, and not closed. -/
structure OpenLiteralAt (kind : ValueKind) (t : Text) (p : Nat) : Prop where
  opens : QuoteOpens kind t p
  unclosed : ∃ quote rest, t.drop p = quote :: rest ∧ (quote = '\'' ∨ quote = '"') ∧ quote ∉ rest

/-- What the error reports is found at this place of the text. -/
inductive FaultAt (kind : ValueKind) (t : Text) (e : FormulaError) (p : Nat) : Prop where
  | unexpected {found : Symbol} : SymbolAt kind t p found → e.kind = .badGrammar →
      e.detail = .message ("unexpected ".toList ++
        (if found.isOperator then "operator ".toList else []) ++ found.toText) → FaultAt kind t e p
  | missingParen {found : Symbol} : SymbolAt kind t p found → e.kind = .functionFailure →
      e.detail = .message ("expected ')', found ".toList ++ found.toText) → FaultAt kind t e p
  | literal : OpenLiteralAt kind t p → e.kind = .openString → FaultAt kind t e p
  | arguments {name inside : Text} : ArgumentsAt kind t p name inside →
      Arguments.read inside = .error .parenthesis → e.kind = .functionFailure →
      e.detail = .message "unbalanced parentheses in argument list".toList → FaultAt kind t e p

/-- Which function is blamed makes no difference. -/
theorem FaultAt.blamedOn {kind : ValueKind} {t : Text} {e : FormulaError} {p : Nat}
    (h : FaultAt kind t e p) (name : Text) : FaultAt kind t (e.blamedOn name) p := by
  cases h with
  | unexpected hs hk hd => exact .unexpected hs hk hd
  | missingParen hs hk hd => exact .missingParen hs hk hd
  | literal hl hk => exact .literal hl hk
  | arguments ha hu hk hd => exact .arguments ha hu hk hd

/-- A text in front of which nothing is scanned begins with a quote that does not come again. -/
theorem Symbol.exists_quote_of_scan_none {t : Text} (h : scan? t = none) :
    ∃ quote rest, t = quote :: rest ∧ (quote = '\'' ∨ quote = '"') ∧ quote ∉ rest := by
  unfold scan? at h
  split at h
  · cases h
  · rename_i c rest
    split at h
    · rename_i hquote
      dsimp only at h
      split at h
      · cases h
      · rename_i hlong
        refine ⟨c, rest, rfl, hquote, fun hmem => hlong ?_⟩
        have hbegins := List.takeWhile_prefix (fun x => x != c) (l := rest)
        refine lt_of_le_of_ne hbegins.length_le fun hlength => ?_
        have hall := List.takeWhile_eq_self_iff.mp (hbegins.eq_of_length hlength) c hmem
        simp at hall
    · repeat' split at h
      all_goals cases h

namespace Arguments

/-- The quote at offset `k` of the text stands behind `parity` quotes, up to two, and is the last
one. -/
def LastQuoteAt (parity offset k : Nat) (t : Text) : Prop :=
  ∃ before rest, t = before ++ '\'' :: rest ∧ '\'' ∉ rest ∧ before.count '\'' % 2 = parity ∧
    k = offset + before.length

theorem LastQuoteAt.cons {parity parity' offset k : Nat} {c : Char} {t : Text}
    (h : LastQuoteAt parity (offset + 1) k t)
    (hp : (parity + if c = '\'' then 1 else 0) % 2 = parity') :
    LastQuoteAt parity' offset k (c :: t) := by
  obtain ⟨before, rest, rfl, hrest, hcount, rfl⟩ := h
  refine ⟨c :: before, rest, rfl, hrest, ?_, by rw [List.length_cons]; omega⟩
  rw [List.count_cons, ← hp, ← hcount, Nat.mod_add_mod]
  simp

/-- The search for the end of the arguments complains about the last quote, if it is opening. -/
theorem lastQuoteAt_of_closingOffset {offset depth k : Nat} {quote? : Option Nat} {t : Text}
    (h : closingOffset offset depth quote? t = .error (.quote k)) :
    (quote? = some k ∧ '\'' ∉ t) ∨ LastQuoteAt quote?.isSome.toNat offset k t := by
  induction t generalizing offset depth quote? with
  | nil =>
    unfold closingOffset at h
    split at h
    · cases h
      exact .inl ⟨rfl, List.not_mem_nil⟩
    · cases h
  | cons c rest ih =>
    have outside : c ≠ '\'' → ∀ {depth'}, closingOffset (offset + 1) depth' none rest =
        .error (.quote k) → LastQuoteAt 0 offset k (c :: rest) := by
      intro hc depth' h
      obtain ⟨hnone, -⟩ | hlast := ih h
      · cases hnone
      · exact hlast.cons (by rw [if_neg hc]; rfl)
    simp only [closingOffset] at h
    cases quote? with
    | some q =>
      dsimp only at h
      by_cases hc : c = '\''
      · rw [if_pos hc] at h
        obtain ⟨hnone, -⟩ | hlast := ih h
        · cases hnone
        · exact .inr (hlast.cons (by rw [if_pos hc]; rfl))
      · rw [if_neg hc] at h
        obtain ⟨hsome, hrest⟩ | hlast := ih h
        · exact .inl ⟨hsome, by simp [hrest, Ne.symm hc]⟩
        · exact .inr (hlast.cons (by rw [if_neg hc]; rfl))
    | none =>
      dsimp only at h
      by_cases hc : c = '\''
      · rw [if_pos hc] at h
        obtain ⟨hsome, hrest⟩ | hlast := ih h
        · cases hsome
          exact .inr ⟨[], rest, by rw [hc]; rfl, hrest, rfl, rfl⟩
        · exact .inr (hlast.cons (by simp [hc]))
      · rw [if_neg hc] at h
        repeat' split at h
        all_goals first
          | cases h
          | exact .inr (outside hc h)

end Arguments

namespace Lexer

variable {kind : ValueKind} {t : Text} {m m' : Lexer}

theorem drop_tokenStart (hm : Reaches kind (.ofText t) m) :
    t.drop m.next.2.tokenStart = unspaced m.cursor.after := by
  have hafter : m.cursor.after = t.drop m.cursor.position := after_eq_drop hm.toText
  rw [tokenStart_next, ← List.drop_drop, ← hafter]

theorem symbolAt {found : Symbol} (hm : Reaches kind (.ofText t) m)
    (hn : m.next = (.ok found, m')) : SymbolAt kind t m'.tokenStart found := by
  refine ⟨⟨m, m', hm, hn, rfl⟩, ?_⟩
  have hdrop := drop_tokenStart hm
  rw [hn] at hdrop
  rw [hdrop]
  cases hscan : Symbol.scan? (unspaced m.cursor.after) with
  | none =>
    obtain ⟨_, hn', -⟩ := next_of_scan_none hscan
    cases hn.symm.trans hn'
  | some r =>
    obtain ⟨_, hn', -⟩ := next_of_scan_at hscan
    cases hn.symm.trans hn'
    exact ⟨r.2, rfl⟩

theorem openLiteralAt (hm : Reaches kind (.ofText t) m)
    (hn : m.next = (.error (.openString m'.tokenStart), m')) :
    OpenLiteralAt kind t m'.tokenStart := by
  refine ⟨.lexer hm hn, ?_⟩
  have hdrop := drop_tokenStart hm
  rw [hn] at hdrop
  rw [hdrop]
  cases hscan : Symbol.scan? (unspaced m.cursor.after) with
  | none => exact Symbol.exists_quote_of_scan_none hscan
  | some r =>
    obtain ⟨_, hn', -⟩ := next_of_scan_at hscan
    cases hn.symm.trans hn'

end Lexer

/-- The call stands in the text, with these arguments. -/
def CallAt (kind : ValueKind) (t name : Text) (arguments : List Text) : Prop :=
  ∃ p inside taken, ArgumentsAt kind t p name inside ∧
    Arguments.read inside = .ok (arguments, taken)

theorem ArgumentsAt.eq_drop {kind : ValueKind} {t name inside : Text} {p : Nat}
    (h : ArgumentsAt kind t p name inside) : inside = t.drop p ∧ 2 ≤ p := by
  obtain ⟨m, m', hm, ⟨m₁, hname, hopen⟩, -, rfl, rfl⟩ := h
  have htext := Opens.toText ⟨m₁, hname, hopen⟩
  refine ⟨Lexer.after_eq_drop (htext.trans hm.toText), ?_⟩
  have := Lexer.position_lt_of_next hname
  have := Lexer.position_lt_of_next hopen
  omega

/-- What an error about unclosed arguments reports. -/
theorem ArgumentsAt.faultAt {kind : ValueKind} {t name inside : Text} {p q : Nat}
    {u : Arguments.Unclosed} (h : ArgumentsAt kind t p name inside)
    (hu : Arguments.read inside = .error u)
    (hq : (u.toFormulaError name p).position? = some q) :
    FaultAt kind t (u.toFormulaError name p) q := by
  cases u with
  | parenthesis =>
    cases hq
    exact .arguments h hu rfl rfl
  | quote k =>
    cases hq
    have hclosing : Arguments.closingOffset 0 0 none inside = .error (.quote k) := by
      unfold Arguments.read at hu
      split at hu
      · cases hu
      · rename_i hclosing
        cases hu
        exact hclosing
    obtain ⟨hnone, -⟩ | ⟨before, rest, rfl, hrest, hcount, rfl⟩ :=
      Arguments.lastQuoteAt_of_closingOffset hclosing
    · cases hnone
    · rw [Nat.zero_add]
      refine .literal ⟨.arguments h hcount rfl, '\'', rest, ?_, .inl rfl, hrest⟩ rfl
      rw [← List.drop_drop, ← h.eq_drop.1, List.drop_left]

/-- What an error tells of a place is found there, while a formula is parsed. -/
theorem Lexemes.tells_placed {kind : ValueKind} {t : Text} {Q : Piece → Prop}
    (htoken : ∀ k, Q (.token k))
    (hcall : ∀ {name arguments}, CallAt kind t name arguments → Q (.call name arguments)) :
    Tells (Placed kind t) Q fun e => ∀ p, e.position? = some p → FaultAt kind t e p where
  token h := by
    cases h with
    | token _ _ hrest => exact ⟨htoken _, hrest⟩
  call h := by
    cases h with
    | call hm ho _ hf ha hrest => exact ⟨hcall ⟨_, _, _, ⟨_, _, hm, ho, hf, rfl, rfl⟩, ha⟩, hrest⟩
  apply h := by
    cases h with
    | apply _ _ _ hrest => exact hrest
  unexpected h p hp := by
    cases h with
    | finish hm hn | invalid hm hn | token hm hn =>
      cases hp
      exact .unexpected (Lexer.symbolAt hm hn) rfl rfl
    | openString hm hn =>
      cases hp
      exact .literal (Lexer.openLiteralAt hm hn) rfl
    | openCall hm ho hstart | call hm ho hstart | apply hm ho hstart =>
      cases hp
      obtain ⟨m₁, hname, -⟩ := ho
      rw [hname] at hstart
      rw [← hstart]
      exact .unexpected (Lexer.symbolAt hm hname) rfl rfl
  missingParen name h p hp := by
    cases h with
    | finish hm hn | invalid hm hn | token hm hn =>
      cases hp
      exact .missingParen (Lexer.symbolAt hm hn) rfl rfl
    | openString hm hn =>
      cases hp
      exact .literal (Lexer.openLiteralAt hm hn) rfl
    | openCall hm ho hstart | call hm ho hstart | apply hm ho hstart =>
      cases hp
      obtain ⟨m₁, hname, -⟩ := ho
      rw [hname] at hstart
      rw [← hstart]
      exact .missingParen (Lexer.symbolAt hm hname) rfl rfl
  openString h p hp := by
    cases h with
    | openString hm hn =>
      cases hp
      exact .literal (Lexer.openLiteralAt hm hn) rfl
  openCall h p hp := by
    cases h with
    | openCall hm ho _ hf hu =>
      have harguments : ArgumentsAt kind t _ _ _ := ⟨_, _, hm, ho, hf, rfl, rfl⟩
      exact harguments.faultAt hu hp

end FormulaEngine
