import FormulaEngine.Lexemes
import FormulaEngine.Proofs.Scanning
import FormulaEngine.Proofs.Splitting

/-! # The pieces of a formula

What the grammar is about: the tokens of a formula, where a call with the raw texts of its arguments
is one piece, and an elementary function with its opening parenthesis is another. `Lexer.Reads` says
in terms of the lexer alone what the pieces of a text are up to its end, without any that is no
token. The lexemes of a text are those pieces, at their places, and any argument of a call among
them is shorter than the text. -/

namespace FormulaEngine

/-- A piece of a formula, wherever it stands. -/
inductive Piece where
  | token (t : Token)
  | call (name : Text) (arguments : List Text)
  | apply (name : Text) (f : Elementary)

/-- The arguments of a call are cut out of an end of the text, behind a name. -/
def Piece.CutFrom (t : Text) : Piece → Prop
  | call _ arguments => ∃ inside taken, inside <:+ t ∧ inside.length < t.length ∧
      Arguments.read inside = .ok (arguments, taken)
  | _ => True

theorem Piece.CutFrom.mono {t t' : Text} (h : t <:+ t') {p : Piece} (hp : p.CutFrom t) :
    p.CutFrom t' := by
  cases p with
  | call name arguments =>
    obtain ⟨inside, taken, hi, hl, ha⟩ := hp
    exact ⟨inside, taken, hi.trans h, Nat.lt_of_lt_of_le hl h.length_le, ha⟩
  | token k | apply name f => trivial

/-- Only an opening parenthesis is scanned as one. -/
theorem Symbol.exists_openParen_of_scan {t : Text} {w : Nat}
    (h : scan? t = some (.token .openParen, w)) : ∃ inside, t = '(' :: inside := by
  unfold scan? at h
  split at h
  · cases h
  · rename_i c rest
    split at h
    · dsimp only at h
      split at h <;> cases h
    · split at h
      · simp only [scanNumeral] at h
        repeat' split at h
        all_goals cases h
      · split at h
        · cases h
        · simp only [scanPunctuation] at h
          split at h
          · rename_i spelling k hf
            cases h
            have hm := List.mem_of_find?_eq_some hf
            have hp := List.find?_some hf
            obtain rfl : spelling = ['('] := by simpa [punctuation] using hm
            obtain ⟨r, hr⟩ := List.isPrefixOf_iff_prefix.mp hp
            exact ⟨r, hr.symm⟩
          · cases h

namespace Lexer

/-- The pieces that follow the lexer, up to the end of the text. A name and an opening parenthesis
are a call, whose arguments are cut out unread, except before an elementary function where numbers
are computed. -/
inductive Reads (kind : ValueKind) : Lexer → List Piece → Prop where
  | finish {l l' : Lexer} : l.next = (.ok .finish, l') → Reads kind l []
  | token {l l' : Lexer} {k : Token} {ps : List Piece} :
      l.next = (.ok (.token k), l') →
      (∀ n, k = .name n → ∀ l'', l'.next ≠ (.ok (.token .openParen), l'')) →
      Reads kind l' ps → Reads kind l (.token k :: ps)
  | call {l l' l'' : Lexer} {name : Text} {arguments : List Text} {taken : Nat}
      {ps : List Piece} :
      l.next = (.ok (.token (.name name)), l') → l'.next = (.ok (.token .openParen), l'') →
      Lexemes.elementary? kind name = none →
      Arguments.read l''.cursor.after = .ok (arguments, taken) →
      Reads kind ⟨l''.cursor.advanceBy taken, l''.tokenStart⟩ ps →
      Reads kind l (.call name arguments :: ps)
  | apply {l l' l'' : Lexer} {name : Text} {f : Elementary} {ps : List Piece} :
      l.next = (.ok (.token (.name name)), l') → l'.next = (.ok (.token .openParen), l'') →
      Lexemes.elementary? kind name = some f →
      Reads kind l'' ps → Reads kind l (.apply name f :: ps)

/-- The next symbol is the one at the beginning of the text behind the spaces. -/
theorem next_of_scan {l : Lexer} {s : Symbol} {w : Nat}
    (h : Symbol.scan? (unspaced l.cursor.after) = some (s, w)) :
    ∃ l', l.next = (.ok s, l') ∧ l'.cursor.after = (unspaced l.cursor.after).drop w := by
  refine ⟨l.next.2, ?_, ?_⟩ <;> simp only [next, Cursor.advanceBy, h]

theorem next_openParen {l : Lexer} {inside : Text} (h : unspaced l.cursor.after = '(' :: inside) :
    ∃ l', l.next = (.ok (.token .openParen), l') ∧ l'.cursor.after = inside := by
  have hs : Symbol.scan? (unspaced l.cursor.after) = some (.token .openParen, 1) := by
    rw [h]
    rfl
  obtain ⟨l', hn, hl'⟩ := next_of_scan hs
  exact ⟨l', hn, by rw [hl', h]; rfl⟩

/-- A text that begins with a literal that is not closed is not read. -/
theorem not_reads_of_scan_none {kind : ValueKind} {l : Lexer} {ps : List Piece}
    (h : Symbol.scan? (unspaced l.cursor.after) = none) : ¬ l.Reads kind ps := by
  have hn : l.next.1 = .error (.openString (l.cursor.advanceBy (spaces l.cursor.after)).position) := by
    simp only [next, Cursor.advanceBy, h]
  intro hr
  cases hr with
  | finish hn' | token hn' | call hn' | apply hn' =>
    rw [hn'] at hn
    cases hn

theorem not_reads_of_scan_invalid {kind : ValueKind} {l : Lexer} {ps : List Piece} {w : Nat}
    (h : Symbol.scan? (unspaced l.cursor.after) = some (.invalid, w)) : ¬ l.Reads kind ps := by
  obtain ⟨l', hn, _⟩ := next_of_scan h
  intro hr
  cases hr with
  | finish hn' | token hn' | call hn' | apply hn' => cases hn.symm.trans hn'

/-- Only an opening parenthesis is read as one. -/
theorem exists_openParen_of_next {l l' : Lexer} (h : l.next = (.ok (.token .openParen), l')) :
    ∃ inside, unspaced l.cursor.after = '(' :: inside := by
  simp only [next, Cursor.advanceBy] at h
  split at h
  · rename_i s w hs
    cases h
    exact Symbol.exists_openParen_of_scan hs
  · cases h

/-- A name in front of a parenthesis is scanned up to the parenthesis. -/
theorem scan_beforeParen {name : Text} (hname : IsName name) (inside : Text) :
    Symbol.scan? (unspaced (name ++ '(' :: inside)) = some (.token (.name name), name.length) ∧
      unspaced ((unspaced (name ++ '(' :: inside)).drop name.length) = '(' :: inside := by
  have hends : EndsName ('(' :: inside) := by
    intro c hc
    cases hc
    decide
  rw [Symbol.unspaced_name hname, List.drop_left]
  exact ⟨Symbol.scan?_name hname hends, rfl⟩

/-- What begins with a name and a parenthesis is read as a call. -/
theorem exists_of_reads_call {kind : ValueKind} {l : Lexer} {name inside : Text}
    {ps : List Piece} (hname : IsName name) (hf : Lexemes.elementary? kind name = none)
    (hl : l.cursor.after = name ++ '(' :: inside) (h : l.Reads kind ps) :
    ∃ arguments taken ps', Arguments.read inside = .ok (arguments, taken) ∧
      ps = .call name arguments :: ps' := by
  obtain ⟨hscan, hb⟩ := scan_beforeParen hname inside
  rw [← hl] at hscan hb
  obtain ⟨l', hn, hl'⟩ := next_of_scan hscan
  rw [← hl'] at hb
  obtain ⟨l'', hn', hl''⟩ := next_openParen hb
  cases h with
  | finish hm => cases hn.symm.trans hm
  | token hm hopen =>
    cases hn.symm.trans hm
    exact absurd hn' (hopen _ rfl _)
  | call hm hm' _ ha =>
    cases hn.symm.trans hm
    cases hn'.symm.trans hm'
    rw [hl''] at ha
    exact ⟨_, _, _, ha, rfl⟩
  | apply hm _ hf' =>
    cases hn.symm.trans hm
    cases hf.symm.trans hf'

end Lexer

namespace Lexemes

open FormulaEngine.Symbol Lexer

/-- The lexemes begin with these pieces, and go on with others. -/
inductive Starts : Lexemes → List Piece → Lexemes → Prop where
  | nil {s : Lexemes} : Starts s [] s
  | token {p : Nat} {k : Token} {s s' : Lexemes} {ps : List Piece} :
      Starts s ps s' → Starts (.token p k s) (.token k :: ps) s'
  | call {p : Nat} {name : Text} {arguments : List Text} {s s' : Lexemes} {ps : List Piece} :
      Starts s ps s' → Starts (.call p name arguments s) (.call name arguments :: ps) s'
  | apply {p : Nat} {name : Text} {f : Elementary} {s s' : Lexemes} {ps : List Piece} :
      Starts s ps s' → Starts (.apply p name f s) (.apply name f :: ps) s'

theorem Starts.append {s s' s'' : Lexemes} {ps qs : List Piece} (h : Starts s ps s')
    (h' : Starts s' qs s'') : Starts s (ps ++ qs) s'' := by
  induction h with
  | nil => exact h'
  | token _ ih => exact .token (ih h')
  | call _ ih => exact .call (ih h')
  | apply _ ih => exact .apply (ih h')

theorem Starts.of_append {s s'' : Lexemes} {ps qs : List Piece} (h : Starts s (ps ++ qs) s'') :
    ∃ s', Starts s ps s' ∧ Starts s' qs s'' := by
  induction ps generalizing s with
  | nil => exact ⟨s, .nil, h⟩
  | cons p ps ih =>
    cases h with
    | token h => obtain ⟨s', h, h'⟩ := ih h; exact ⟨s', .token h, h'⟩
    | call h => obtain ⟨s', h, h'⟩ := ih h; exact ⟨s', .call h, h'⟩
    | apply h => obtain ⟨s', h, h'⟩ := ih h; exact ⟨s', .apply h, h'⟩

theorem Starts.eq_nil {p : Nat} {s : Lexemes} {ps : List Piece} (h : Starts (.finish p) ps s) :
    ps = [] := by
  cases h
  rfl

/-- Every piece uses one lexeme. -/
theorem Starts.size_eq {s s' : Lexemes} {ps : List Piece} (h : Starts s ps s') :
    s.size = ps.length + s'.size := by
  induction h with
  | nil => simp
  | token _ ih | call _ ih | apply _ ih => rw [size, ih, List.length_cons]; omega

/-- Something holds of every piece, also of those before an error. -/
def All (Q : Piece → Prop) : Lexemes → Prop
  | finish _ | invalid _ | openString _ | openCall _ _ _ => True
  | token _ k rest => Q (.token k) ∧ All Q rest
  | call _ name arguments rest => Q (.call name arguments) ∧ All Q rest
  | apply _ name f rest => Q (.apply name f) ∧ All Q rest

theorem All.mono {Q R : Piece → Prop} {s : Lexemes} (h : s.All Q) (hQR : ∀ p, Q p → R p) :
    s.All R := by
  induction s with
  | finish | invalid | openString | openCall => trivial
  | token _ _ _ ih | call _ _ _ _ ih | apply _ _ _ _ ih => exact ⟨hQR _ h.1, ih h.2⟩

/-- The pieces up to the end or to an error. -/
def pieces : Lexemes → List Piece
  | finish _ | invalid _ | openString _ | openCall _ _ _ => []
  | token _ k rest => .token k :: rest.pieces
  | call _ name arguments rest => .call name arguments :: rest.pieces
  | apply _ name f rest => .apply name f :: rest.pieces

theorem all_iff {Q : Piece → Prop} {s : Lexemes} : s.All Q ↔ ∀ p ∈ s.pieces, Q p := by
  induction s with
  | finish | invalid | openString | openCall => simp [All, pieces]
  | token _ _ _ ih | call _ _ _ _ ih | apply _ _ _ _ ih => simp [All, pieces, ih]

/-! ## What the lexemes of a text are -/

section

variable {kind : ValueKind} {p w : Nat} {t : Text}

theorem read_finish (h : scan? (unspaced t) = some (.finish, w)) :
    read kind p t = finish (p + spaces t) := by
  rw [read]
  split <;> simp_all

theorem read_invalid (h : scan? (unspaced t) = some (.invalid, w)) :
    read kind p t = invalid (p + spaces t) := by
  rw [read]
  split <;> simp_all

theorem read_openString (h : scan? (unspaced t) = none) :
    read kind p t = openString (.openString (p + spaces t)) := by
  rw [read]
  split <;> simp_all

theorem read_token {k : Token} (h : scan? (unspaced t) = some (.token k, w))
    (hk : ∀ n, k = .name n → (unspaced ((unspaced t).drop w)).head? ≠ some '(') :
    read kind p t =
      token (p + spaces t) k (read kind (p + spaces t + w) ((unspaced t).drop w)) := by
  rw [read]
  split
  all_goals rename_i hs
  all_goals rw [h] at hs
  all_goals cases hs
  · dsimp only
    split
    · rename_i inside hb
      exact absurd (congrArg List.head? hb) (hk _ rfl)
    · rfl
  · rfl

theorem read_apply {name inside : Text} {f : Elementary}
    (h : scan? (unspaced t) = some (.token (.name name), w))
    (hb : unspaced ((unspaced t).drop w) = '(' :: inside) (hf : elementary? kind name = some f) :
    read kind p t = apply (p + spaces t) name f
      (read kind (p + spaces t + w + spaces ((unspaced t).drop w) + 1) inside) := by
  rw [read]
  split
  all_goals rename_i hs
  all_goals rw [h] at hs
  all_goals cases hs
  · dsimp only
    split
    · rename_i inside' hb'
      cases hb.symm.trans hb'
      rw [hf]
    · rename_i hn
      exact absurd hb (hn _)
  · rename_i hn
    exact absurd rfl (hn name)

/-- A call and what is behind it, or the error of a call whose arguments do not end. The arguments
are cut out of the text `inside`, which stands at `inner`. -/
def ofArguments (kind : ValueKind) (start : Nat) (name : Text) (inner : Nat) (inside : Text) :
    Except Arguments.Unclosed (List Text × Nat) → Lexemes
  | .error u => openCall start name (u.toFormulaError name inner)
  | .ok (arguments, taken) =>
    call start name arguments (read kind (inner + taken) (inside.drop taken))

theorem read_beforeParen {name inside : Text}
    (h : scan? (unspaced t) = some (.token (.name name), w))
    (hb : unspaced ((unspaced t).drop w) = '(' :: inside) (hf : elementary? kind name = none) :
    read kind p t = ofArguments kind (p + spaces t) name
      (p + spaces t + w + spaces ((unspaced t).drop w) + 1) inside (Arguments.read inside) := by
  rw [read]
  split
  all_goals rename_i hs
  all_goals rw [h] at hs
  all_goals cases hs
  · dsimp only
    split
    · rename_i inside' hb'
      cases hb.symm.trans hb'
      rw [hf]
      rcases Arguments.read inside with u | ⟨arguments, taken⟩ <;> rfl
    · rename_i hn
      exact absurd hb (hn _)
  · rename_i hn
    exact absurd rfl (hn name)

theorem read_call {name inside : Text} {arguments : List Text} {taken : Nat}
    (h : scan? (unspaced t) = some (.token (.name name), w))
    (hb : unspaced ((unspaced t).drop w) = '(' :: inside) (hf : elementary? kind name = none)
    (ha : Arguments.read inside = .ok (arguments, taken)) :
    read kind p t = call (p + spaces t) name arguments
      (read kind (p + spaces t + w + spaces ((unspaced t).drop w) + 1 + taken)
        (inside.drop taken)) := by
  rw [read_beforeParen h hb hf, ha, ofArguments]

theorem read_openCall {name inside : Text} {u : Arguments.Unclosed}
    (h : scan? (unspaced t) = some (.token (.name name), w))
    (hb : unspaced ((unspaced t).drop w) = '(' :: inside) (hf : elementary? kind name = none)
    (ha : Arguments.read inside = .error u) :
    read kind p t = openCall (p + spaces t) name
      (u.toFormulaError name (p + spaces t + w + spaces ((unspaced t).drop w) + 1)) := by
  rw [read_beforeParen h hb hf, ha, ofArguments]

/-- An elementary function and a parenthesis in front of a text. -/
theorem exists_read_apply (p : Nat) {name : Text} (inside : Text) {f : Elementary}
    (hname : IsName name) (hf : elementary? kind name = some f) :
    ∃ p' q, read kind p (name ++ '(' :: inside) = apply p' name f (read kind q inside) := by
  obtain ⟨hscan, hb⟩ := scan_beforeParen hname inside
  exact ⟨_, _, read_apply hscan hb hf⟩

/-- A call that is written with its arguments between commas and spaces. -/
theorem exists_read_call (p : Nat) {name : Text} (rest : Text) {ts : List Text}
    (hname : IsName name) (hf : elementary? kind name = none) (htight : ∀ t ∈ ts, Text.Tight t)
    (hargument : ∀ t ∈ ts, Text.IsArgument t) :
    ∃ p' q, read kind p (name ++ '(' :: (Text.join ", ".toList ts ++ ')' :: rest)) =
      call p' name ts (read kind q rest) := by
  obtain ⟨hscan, hb⟩ := scan_beforeParen hname (Text.join ", ".toList ts ++ ')' :: rest)
  have hrest : (Text.join ", ".toList ts ++ ')' :: rest).drop
      ((Text.join ", ".toList ts).length + 1) = rest := by
    rw [← List.singleton_append, ← List.append_assoc, List.drop_left' (by simp)]
  have hread := read_call (p := p) hscan hb hf (Arguments.read_join htight hargument rest)
  rw [hrest] at hread
  exact ⟨_, _, hread⟩

end

/-- Lexemes that come to the end without an error are what the lexer reads. -/
theorem reads_of_starts {kind : ValueKind} {p q : Nat} {t : Text} {ps : List Piece}
    (h : Starts (read kind p t) ps (.finish q)) {l : Lexer} (hl : l.cursor.after = t) :
    l.Reads kind ps := by
  fun_induction read kind p t generalizing l ps with
  | case1 | case3 | case5 => cases h
  | case2 p t body w =>
    rename_i hs
    obtain ⟨l', hn, _⟩ := next_of_scan (l := l) (by rw [hl]; exact hs)
    rw [h.eq_nil]
    exact .finish hn
  | case4 p t start body name w hs behind inside hb inner f =>
    rename_i hf ih
    cases h with
    | apply h =>
      obtain ⟨l', hn, hl'⟩ := next_of_scan (l := l) (by rw [hl]; exact hs)
      rw [hl] at hl'
      obtain ⟨l'', hn', hl''⟩ := next_openParen (l := l') (by rw [hl']; exact hb)
      exact .apply hn hn' hf (ih h hl'')
  | case6 p t start body name w hs behind inside hb inner hf arguments taken =>
    rename_i ha ih
    cases h with
    | call h =>
      obtain ⟨l', hn, hl'⟩ := next_of_scan (l := l) (by rw [hl]; exact hs)
      rw [hl] at hl'
      obtain ⟨l'', hn', hl''⟩ := next_openParen (l := l') (by rw [hl']; exact hb)
      refine .call hn hn' hf (by rw [hl'']; exact ha) (ih h ?_)
      simp [Cursor.advanceBy, hl'']
  | case7 p t start body name w hs behind =>
    rename_i hb ih
    cases h with
    | token h =>
      obtain ⟨l', hn, hl'⟩ := next_of_scan (l := l) (by rw [hl]; exact hs)
      rw [hl] at hl'
      refine .token hn (fun _ _ l'' hn' => ?_) (ih h hl')
      obtain ⟨inside, hopen⟩ := exists_openParen_of_next hn'
      rw [hl'] at hopen
      exact hb inside hopen
  | case8 p t start body k w hname hs =>
    rename_i ih
    cases h with
    | token h =>
      obtain ⟨l', hn, hl'⟩ := next_of_scan (l := l) (by rw [hl]; exact hs)
      rw [hl] at hl'
      exact .token hn (fun n hk => absurd hk (hname n)) (ih h hl')

theorem suffix_behind {t inside : Text} (h : unspaced t = '(' :: inside) :
    inside <:+ t ∧ inside.length < t.length := by
  have hs : '(' :: inside <:+ t := h ▸ List.drop_suffix _ _
  have hl := hs.length_le
  rw [List.length_cons] at hl
  exact ⟨(List.suffix_cons _ _).trans hs, hl⟩

/-- The arguments of a call are cut out of the text that the call stands in. -/
theorem read_cutFrom (kind : ValueKind) (p : Nat) (t : Text) :
    (read kind p t).All (·.CutFrom t) := by
  fun_induction read kind p t with
  | case1 | case2 | case3 | case5 => trivial
  | case4 p t start body name w hs behind inside hb inner f =>
    rename_i hf ih
    have hsuffix : inside <:+ t :=
      (suffix_behind hb).1.trans ((List.drop_suffix _ _).trans (List.drop_suffix _ _))
    exact ⟨trivial, ih.mono fun _ => .mono hsuffix⟩
  | case6 p t start body name w hs behind inside hb inner hf arguments taken =>
    rename_i ha ih
    have hbehind : behind <:+ t := (List.drop_suffix _ _).trans (List.drop_suffix _ _)
    obtain ⟨hsuffix, hlen⟩ := suffix_behind hb
    refine ⟨⟨inside, taken, hsuffix.trans hbehind, Nat.lt_of_lt_of_le hlen hbehind.length_le, ha⟩,
      ih.mono fun _ => .mono ?_⟩
    exact (List.drop_suffix _ _).trans (hsuffix.trans hbehind)
  | case7 p t start body name w hs behind =>
    rename_i hb ih
    exact ⟨trivial, ih.mono fun _ => .mono ((List.drop_suffix _ _).trans (List.drop_suffix _ _))⟩
  | case8 p t start body k w hname hs =>
    rename_i ih
    have hk : (Piece.token k).CutFrom t := trivial
    exact ⟨hk, ih.mono fun _ => .mono ((List.drop_suffix _ _).trans (List.drop_suffix _ _))⟩

end Lexemes

end FormulaEngine
