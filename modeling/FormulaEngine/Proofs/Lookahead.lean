import FormulaEngine.Proofs.Tokens

/-! # One character ahead

Where a token ends depends on the character behind it and on nothing further, and the end of the
text is like a semicolon there. So the pieces in front of a place of a formula stay what they are
when the text behind the place is replaced, as long as the character at the place remains. -/

namespace FormulaEngine

namespace Text

/-- The first character of what follows; the end of a text counts as a semicolon. -/
def front (t : Text) : Char := t.head?.getD ';'

theorem front_append_congr {r r' : Text} (h : r.front = r'.front) (t : Text) :
    (t ++ r).front = (t ++ r').front := by
  cases t with
  | nil => exact h
  | cons c t => rfl

theorem forall_head_of_front {p : Char → Bool} {t : Text} (h : p t.front = false) :
    ∀ c, t.head? = some c → p c = false := by
  intro c hc
  rwa [front, hc] at h

theorem head?_of_front {c : Char} (hc : c ≠ ';') {t : Text} (h : t.front = c) :
    t.head? = some c := by
  cases t with
  | nil => exact absurd h.symm hc
  | cons d t => exact congrArg some h

/-- Characters that a semicolon is not among, none of which a text begins with. -/
theorem front_of_takeWhile_eq_nil {p : Char → Bool} (hp : p ';' = false) {t : Text}
    (h : t.takeWhile p = []) : p t.front = false := by
  cases t with
  | nil => exact hp
  | cons c t =>
    by_contra hc
    rw [List.takeWhile_cons_of_pos (by simpa [front] using hc)] at h
    cases h

theorem singleton_prefix_iff {b : Char} (hb : b ≠ ';') {t : Text} : [b] <+: t ↔ t.front = b := by
  cases t with
  | nil => exact iff_of_false (by simp) (by simpa [front] using hb.symm)
  | cons c t => simp [front, eq_comm]

end Text

open Text (front)

namespace Symbol

variable {w r r' : Text} {k : Token}

/-- In front of this rest the text is scanned as one token. -/
def Scans (w : Text) (k : Token) (rest : Text) : Prop :=
  scan? (w ++ rest) = some (.token k, w.length)

theorem Scans.spelling (h : Scans w k r) : Spelling w k := by
  obtain ⟨w', rest, hw, hlength, hspelling⟩ := exists_spelling h
  obtain ⟨rfl, -⟩ := List.append_inj hw hlength.symm
  exact hspelling

/-- Behind a token that takes digits stands none. -/
theorem front_of_scanNumeral {digits : Text} (hdigits : ∀ c ∈ digits, c.isDigit = true)
    (h : scanNumeral (digits ++ r) = (.token k, digits.length)) :
    r.front.isDigit = false ∧ r.front ≠ '.' ∧ r.front ≠ ',' := by
  have htake : (digits ++ r).takeWhile Char.isDigit = digits ++ r.takeWhile Char.isDigit :=
    List.takeWhile_append_of_pos hdigits
  have hwidth := (scanNumeral_width h).1
  rw [htake, List.length_append] at hwidth
  have hnil : r.takeWhile Char.isDigit = [] := List.eq_nil_of_length_eq_zero (by omega)
  refine ⟨Text.front_of_takeWhile_eq_nil rfl hnil, ?_⟩
  by_contra hpoint
  cases r with
  | nil => exact hpoint (by decide)
  | cons c r =>
    have hpoint : c = '.' ∨ c = ',' := by
      rw [not_and_or, not_not, not_not] at hpoint
      exact hpoint
    unfold scanNumeral at h
    simp only [htake, hnil, List.append_nil, List.drop_left, if_pos hpoint] at h
    split at h
    · have := congrArg Prod.snd h
      dsimp only at this
      omega
    · cases h

/-- Punctuation has two characters at most, and a semicolon is not the second one. -/
theorem prefix_punctuation_congr {spelling : Text × Token} (hmem : spelling ∈ punctuation)
    (hw : w ≠ []) (hfront : r.front = r'.front) :
    spelling.1 <+: w ++ r ↔ spelling.1 <+: w ++ r' := by
  have all : ∀ p ∈ punctuation, ∃ a, p.1 = [a] ∨ ∃ b, p.1 = [a, b] ∧ b ≠ ';' := by
    simp [punctuation]
  obtain ⟨c, w, rfl⟩ := List.exists_cons_of_ne_nil hw
  obtain ⟨a, ha | ⟨b, hb, hne⟩⟩ := all _ hmem
  · simp [ha]
  · rw [hb, List.cons_append, List.cons_append, List.cons_prefix_cons, List.cons_prefix_cons,
      Text.singleton_prefix_iff hne, Text.singleton_prefix_iff hne,
      Text.front_append_congr hfront]

theorem scanPunctuation_congr (hw : w ≠ []) (hfront : r.front = r'.front) :
    scanPunctuation (w ++ r) = scanPunctuation (w ++ r') := by
  have hfind : ∀ l : List (Text × Token), l ⊆ punctuation →
      l.find? (·.1.isPrefixOf (w ++ r)) = l.find? (·.1.isPrefixOf (w ++ r')) := by
    intro l hl
    induction l with
    | nil => rfl
    | cons p l ih =>
      obtain ⟨hp, hl⟩ := List.cons_subset.mp hl
      have hprefix : p.1.isPrefixOf (w ++ r) = p.1.isPrefixOf (w ++ r') := by
        rw [Bool.eq_iff_iff, List.isPrefixOf_iff_prefix, List.isPrefixOf_iff_prefix]
        exact prefix_punctuation_congr hp hw hfront
      rw [List.find?_cons, List.find?_cons, hprefix, ih hl]
  rw [scanPunctuation, scanPunctuation, hfind punctuation (List.Subset.refl _)]

/-- Behind a token only the next character matters. -/
theorem Scans.congr (h : Scans w k r) (hfront : r.front = r'.front) : Scans w k r' := by
  have hdigit : ∀ {w : Text}, w ≠ [] → (∀ c ∈ w, c.isDigit = true) → ∀ behind,
      scan? (w ++ behind) = some (scanNumeral (w ++ behind)) := by
    intro w hne hw behind
    obtain ⟨c, u, rfl⟩ := List.exists_cons_of_ne_nil hne
    exact scan?_digit (hw c (by simp)) _
  -- a rest begins with what a token could take, and goes on with what it could not
  have hsplit : ∀ p : Char → Bool, r = r.takeWhile p ++ r.dropWhile p ∧
      ∀ c, (r.dropWhile p).head? = some c → p c = false :=
    fun p => ⟨List.takeWhile_append_dropWhile.symm, fun _ hc => Text.head?_dropWhile hc⟩
  cases h.spelling with
  | string hq hcontent =>
    rw [Scans, List.cons_append, List.append_assoc]
    simpa using scan?_string hq hcontent r'
  | whole hne hdigits hfits =>
    rw [Scans, hdigit hne hdigits, Option.some.injEq] at h ⊢
    have hends := front_of_scanNumeral hdigits h
    rw [hfront] at hends
    refine scanNumeral_whole hdigits hfits fun c hc => ?_
    rw [front, hc] at hends
    exact hends
  | @decimal digits places point hne hdigits hpoint hplaces hfits =>
    rw [Scans, List.append_assoc, List.cons_append, hdigit hne hdigits, Option.some.injEq] at h ⊢
    obtain ⟨hr, hstop⟩ := hsplit Char.isDigit
    have hmore : ∀ c ∈ places ++ r.takeWhile Char.isDigit, c.isDigit = true :=
      List.forall_mem_append.mpr ⟨hplaces, fun c hc => List.mem_takeWhile_imp hc⟩
    have hlonger := scanNumeral_decimal hdigits hfits hpoint hmore hstop
    rw [List.append_assoc, ← hr, h] at hlonger
    have hwidth := congrArg Prod.snd hlonger
    simp only [List.length_append, List.length_cons] at hwidth
    have hnil : r.takeWhile Char.isDigit = [] := List.eq_nil_of_length_eq_zero (by omega)
    have hends := Text.front_of_takeWhile_eq_nil rfl hnil
    rw [hfront] at hends
    rw [scanNumeral_decimal hdigits hfits hpoint hplaces (Text.forall_head_of_front hends),
      List.length_append, List.length_cons, Nat.add_assoc, Nat.add_comm 1]
  | name hn =>
    obtain ⟨hr, hstop⟩ := hsplit isNamePart
    have hlonger : IsName (w ++ r.takeWhile isNamePart) := by
      obtain ⟨⟨c, hc, hstart⟩, hall⟩ := hn
      obtain ⟨u, rfl⟩ := List.head?_eq_some_iff.mp hc
      exact ⟨⟨c, rfl, hstart⟩,
        List.forall_mem_append.mpr ⟨hall, fun d hd => List.mem_takeWhile_imp hd⟩⟩
    have hscan := scan?_name hlonger hstop
    rw [List.append_assoc, ← hr, h] at hscan
    have hwidth := congrArg (fun x => (x.getD (.finish, 0)).2) hscan
    simp only [Option.getD_some, List.length_append] at hwidth
    have hnil : r.takeWhile isNamePart = [] := List.eq_nil_of_length_eq_zero (by omega)
    have hends := Text.front_of_takeWhile_eq_nil (by decide) hnil
    rw [hfront] at hends
    exact scan?_name hn (Text.forall_head_of_front hends)
  | punctuation hmem =>
    have hmark : ∀ p ∈ punctuation, ∃ c u, p.1 = c :: u ∧ c ∈ marks := by
      simp [punctuation, marks]
    obtain ⟨c, u, rfl, hc⟩ := hmark _ hmem
    have hscan : ∀ x : Text, scan? (c :: u ++ x) = some (scanPunctuation (c :: u ++ x)) :=
      fun x => scan?_mark hc _
    rw [Scans, hscan] at h ⊢
    rw [← scanPunctuation_congr (List.cons_ne_nil c u) hfront, h]

end Symbol

/-! ## The place behind some pieces -/

/-- A call as it may be written, with spaces in front of its parenthesis. -/
def Text.spacedCall (name : Text) (n : Nat) (parts : List Text) : Text :=
  name ++ (gap n ++ '(' :: (join [','] parts ++ [')']))

namespace Lexer

theorem spaces_gap_append (n : Nat) (t : Text) : spaces (Text.gap n ++ t) = n + spaces t := by
  rw [spaces, List.takeWhile_append_of_pos fun c hc => by simp [List.eq_of_mem_replicate hc],
    List.length_append, Text.gap, List.length_replicate]
  rfl

theorem unspaced_gap_append (n : Nat) (t : Text) : unspaced (Text.gap n ++ t) = unspaced t := by
  rw [unspaced, spaces_gap_append, ← List.drop_drop, Text.gap,
    List.drop_left' List.length_replicate]

theorem spaces_unspaced (t : Text) : spaces (unspaced t) = 0 := by
  have hsplit := congrArg spaces (eq_gap_append t)
  rw [spaces_gap_append] at hsplit
  omega

/-- Behind the spaces, too, only one character matters. -/
theorem front_unspaced_congr {r r' : Text} (h : r.front = r'.front) (hspace : r.front ≠ ' ')
    (t : Text) : (unspaced (t ++ r)).front = (unspaced (t ++ r')).front := by
  have hend : ∀ {r : Text}, r.front ≠ ' ' → unspaced r = r := by
    intro r hr
    cases r with
    | nil => rfl
    | cons c r => exact unspaced_cons hr r
  rw [eq_gap_append t, List.append_assoc, List.append_assoc, unspaced_gap_append,
    unspaced_gap_append]
  cases hu : unspaced t with
  | nil => rw [List.nil_append, List.nil_append, hend hspace, hend (h ▸ hspace), h]
  | cons c u =>
    have hc : c ≠ ' ' := by
      rintro rfl
      have hzero := spaces_unspaced t
      rw [hu, show spaces (' ' :: u) = spaces u + 1 from rfl] at hzero
      cases hzero
    rw [List.cons_append, List.cons_append, unspaced_cons hc, unspaced_cons hc]
    rfl

end Lexer

open Lexer (spaces unspaced)

namespace Lexemes

open Text (gap spacedCall IsArgument)
open FormulaEngine.Symbol (Scans)

variable {kind : ValueKind} {t u r r' : Text} {ps qs : List Piece}

/-- Reading these pieces off the text leads to the place in front of the rest. -/
inductive Leads (kind : ValueKind) : Text → List Piece → Text → Prop
  | nil (n : Nat) (t : Text) : Leads kind (gap n ++ t) [] t
  | token (n : Nat) {w t u : Text} {k : Token} {ps : List Piece} (hscan : Scans w k t)
      (hopen : ∀ name, k = .name name → (unspaced t).front ≠ '(') (h : Leads kind t ps u) :
      Leads kind (gap n ++ (w ++ t)) (.token k :: ps) u
  | call (n m : Nat) {name t u : Text} {parts : List Text} {ps : List Piece} (hname : IsName name)
      (hf : elementary? kind name = none) (hne : parts ≠ []) (hparts : ∀ x ∈ parts, IsArgument x)
      (h : Leads kind t ps u) :
      Leads kind (gap n ++ (spacedCall name m parts ++ t))
        (.call name (Arguments.passed parts) :: ps) u
  | apply (n m : Nat) {name t u : Text} {f : Elementary} {ps : List Piece} (hname : IsName name)
      (hf : elementary? kind name = some f) (h : Leads kind t ps u) :
      Leads kind (gap n ++ (name ++ (gap m ++ '(' :: t))) (.apply name f :: ps) u

/-- What is left may be replaced by what begins with the same character, if that is no space. -/
theorem Leads.congr (h : Leads kind t ps r) (hfront : r.front = r'.front)
    (hspace : r.front ≠ ' ') : ∃ b, t = b ++ r ∧ Leads kind (b ++ r') ps r' := by
  induction h with
  | nil n t => exact ⟨gap n, rfl, .nil n r'⟩
  | @token n w t r k ps hscan hopen _ ih =>
    obtain ⟨b, rfl, hb⟩ := ih hfront hspace
    have hscan' := hscan.congr (Text.front_append_congr hfront b)
    have hopen' : ∀ name, k = .name name → (unspaced (b ++ r')).front ≠ '(' := by
      intro name hk
      rw [← Lexer.front_unspaced_congr hfront hspace]
      exact hopen name hk
    refine ⟨gap n ++ (w ++ b), by simp, ?_⟩
    simpa using Leads.token n hscan' hopen' hb
  | @call n m name t r parts ps hname hf hne hparts _ ih =>
    obtain ⟨b, rfl, hb⟩ := ih hfront hspace
    refine ⟨gap n ++ (spacedCall name m parts ++ b), by simp, ?_⟩
    simpa using Leads.call n m hname hf hne hparts hb
  | @apply n m name t r f ps hname hf _ ih =>
    obtain ⟨b, rfl, hb⟩ := ih hfront hspace
    refine ⟨gap n ++ (name ++ (gap m ++ '(' :: b)), by simp, ?_⟩
    simpa using Leads.apply n m hname hf hb

/-! ## Lexemes of what is left -/

/-- A name and a parenthesis behind it, with spaces between them. -/
theorem scan_beforeGap {name : Text} (hname : IsName name) (m : Nat) (inside : Text) :
    Symbol.scan? (unspaced (name ++ (gap m ++ '(' :: inside))) =
        some (.token (.name name), name.length) ∧
      unspaced ((unspaced (name ++ (gap m ++ '(' :: inside))).drop name.length) =
        '(' :: inside := by
  have hends : EndsName (gap m ++ '(' :: inside) := by
    intro c hc
    cases m with
    | zero =>
      cases hc
      decide
    | succ m =>
      cases hc
      decide
  rw [Symbol.unspaced_name hname, List.drop_left, Lexer.unspaced_gap m (by decide)]
  exact ⟨Symbol.scan?_name hname hends, rfl⟩

/-- The lexemes of the text begin with the pieces, and go on with those of what is left. -/
theorem Leads.exists_starts (h : Leads kind t ps u) (p : Nat) :
    ∃ q, Starts (read kind p t) ps (read kind q u) := by
  induction h generalizing p with
  | nil n t =>
    refine ⟨p + n, ?_⟩
    rw [read_gap]
    exact .nil
  | @token n w t u k ps hscan hopen _ ih =>
    obtain ⟨c, v, rfl, hc⟩ := hscan.spelling.exists_head
    have hunspaced : unspaced (c :: v ++ t) = c :: v ++ t := Lexer.unspaced_cons hc (v ++ t)
    obtain ⟨q, hq⟩ := ih (p + n + spaces (c :: v ++ t) + (c :: v).length)
    have hhead : ∀ name, k = .name name →
        (unspaced ((unspaced (c :: v ++ t)).drop (c :: v).length)).head? ≠ some '(' := by
      intro name hk hhead
      rw [hunspaced, List.drop_left] at hhead
      exact hopen name hk (by rw [Text.front, hhead]; rfl)
    rw [read_gap, read_token (by rw [hunspaced]; exact hscan) hhead, hunspaced,
      List.drop_left]
    exact ⟨q, .token hq⟩
  | @call n m name t u parts ps hname hf hne hparts _ ih =>
    have hargs : Arguments.read (Text.join [','] parts ++ ')' :: t) =
        .ok (Arguments.passed parts, (Text.join [','] parts).length + 1) :=
      Arguments.read_eq_ok_iff.mpr ⟨parts, t, hne, hparts, rfl, rfl, rfl⟩
    obtain ⟨hscan, hb⟩ := scan_beforeGap hname m (Text.join [','] parts ++ ')' :: t)
    have hbehind : (Text.join [','] parts ++ ')' :: t).drop
        ((Text.join [','] parts).length + 1) = t := by
      rw [← List.drop_drop, List.drop_left]
      rfl
    have hcall : spacedCall name m parts ++ t =
        name ++ (gap m ++ '(' :: (Text.join [','] parts ++ ')' :: t)) := by
      simp [spacedCall]
    rw [read_gap, hcall, read_call hscan hb hf hargs, hbehind]
    obtain ⟨q, hq⟩ := ih _
    exact ⟨q, .call hq⟩
  | @apply n m name t u f ps hname hf _ ih =>
    obtain ⟨hscan, hb⟩ := scan_beforeGap hname m t
    rw [read_gap, read_apply hscan hb hf]
    obtain ⟨q, hq⟩ := ih _
    exact ⟨q, .apply hq⟩

/-- A token at the beginning of a text, and what is left behind it. -/
theorem exists_scans {k : Token} {w : Nat} (h : Symbol.scan? (unspaced t) = some (.token k, w)) :
    ∃ v, t = gap (spaces t) ++ (v ++ (unspaced t).drop w) ∧ Scans v k ((unspaced t).drop w) := by
  obtain ⟨v, rest, hv, rfl, -⟩ := Symbol.exists_spelling h
  have hrest : (unspaced t).drop v.length = rest := by rw [hv, List.drop_left]
  refine ⟨v, ?_, ?_⟩
  · rw [hrest, ← hv]
    exact Lexer.eq_gap_append t
  · rw [hrest, Scans, ← hv]
    exact h

/-- A name at the beginning of a text and a parenthesis behind it. -/
theorem eq_beforeGap {name inside : Text} {w : Nat}
    (h : Symbol.scan? (unspaced t) = some (.token (.name name), w))
    (hb : unspaced ((unspaced t).drop w) = '(' :: inside) : IsName name ∧ t = gap (spaces t) ++
      (name ++ (gap (spaces ((unspaced t).drop w)) ++ '(' :: inside)) := by
  obtain ⟨v, ht, hscans⟩ := exists_scans h
  cases hscans.spelling with
  | name hname =>
    refine ⟨hname, ?_⟩
    rw [← hb, ← Lexer.eq_gap_append]
    exact ht
  | punctuation hmem =>
    have hnone : ∀ p ∈ Symbol.punctuation, p.2 ≠ .name name := by simp [Symbol.punctuation]
    exact absurd rfl (hnone _ hmem)

/-- Spaces in front of what is left can be passed over as well. -/
theorem exists_unspaced (kind : ValueKind) (p : Nat) (t : Text) :
    ∃ u q, Leads kind t [] u ∧ unspaced u = u ∧ read kind p t = read kind q u := by
  refine ⟨unspaced t, p + spaces t, ?_, ?_, ?_⟩
  · nth_rewrite 1 [Lexer.eq_gap_append t]
    exact .nil _ _
  · rw [unspaced, Lexer.spaces_unspaced, List.drop_zero]
  · rw [← read_gap, ← Lexer.eq_gap_append]

/-- The first piece of lexemes stands at the beginning of the text, and the others behind it. -/
theorem exists_leads_cons {p : Nat} {piece : Piece} {s : Lexemes}
    (h : Starts (read kind p t) (piece :: ps) s) :
    ∃ p' t', Starts (read kind p' t') ps s ∧
      ∀ {qs u}, Leads kind t' qs u → Leads kind t (piece :: qs) u := by
  revert h
  fun_cases read kind p t with
  | case1 | case2 | case3 | case5 => nofun
  | case4 start body name w hs behind inside hb inner f =>
    rename_i hf
    intro h
    cases h with
    | apply h =>
      obtain ⟨hname, ht⟩ := eq_beforeGap hs hb
      refine ⟨inner, inside, h, fun hu => ?_⟩
      rw [ht]
      exact .apply _ _ hname hf hu
  | case6 start body name w hs behind inside hb inner hf arguments taken =>
    rename_i ha
    intro h
    cases h with
    | call h =>
      obtain ⟨hname, ht⟩ := eq_beforeGap hs hb
      obtain ⟨parts, rest, hne, hparts, rfl, rfl, rfl⟩ := Arguments.read_eq_ok_iff.mp ha
      refine ⟨_, _, h, fun hu => ?_⟩
      rw [ht]
      rw [← List.drop_drop, List.drop_left] at hu
      simpa [spacedCall] using Leads.call _ _ hname hf hne hparts hu
  | case7 start body name w hs behind =>
    rename_i hb
    intro h
    cases h with
    | token h =>
      obtain ⟨v, ht, hscans⟩ := exists_scans hs
      refine ⟨_, _, h, fun hu => ?_⟩
      rw [ht]
      refine .token _ hscans (fun _ _ hfront => ?_) hu
      obtain ⟨inside, hinside⟩ := List.head?_eq_some_iff.mp (Text.head?_of_front (by decide) hfront)
      exact hb inside hinside
  | case8 start body k w hname hs =>
    intro h
    cases h with
    | token h =>
      obtain ⟨v, ht, hscans⟩ := exists_scans hs
      refine ⟨_, _, h, fun hu => ?_⟩
      rw [ht]
      exact .token _ hscans (fun n hk => absurd hk (hname n)) hu

/-- Pieces that lexemes begin with lead to a place of the text. -/
theorem exists_leads {p : Nat} {s : Lexemes} (h : Starts (read kind p t) ps s) :
    ∃ u q, Leads kind t ps u ∧ unspaced u = u ∧ s = read kind q u := by
  induction ps generalizing p t with
  | nil =>
    obtain ⟨u, q, hu, hidem, hread⟩ := exists_unspaced kind p t
    refine ⟨u, q, hu, hidem, ?_⟩
    rw [← hread]
    generalize read kind p t = s' at h
    cases h
    rfl
  | cons piece ps ih =>
    obtain ⟨p', t', hrest, hlead⟩ := exists_leads_cons h
    obtain ⟨u, q, hu, hidem, hread⟩ := ih hrest
    exact ⟨u, q, hlead hu, hidem, hread⟩

end Lexemes

end FormulaEngine
