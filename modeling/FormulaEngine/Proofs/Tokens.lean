import FormulaEngine.Proofs.Positions
import FormulaEngine.Proofs.Printing

/-! # Tokens and their spellings

A token is read off its spelling whatever was read before it, and what follows does not matter as
long as it begins with a space. So reading a text loses nothing: the spellings of its tokens stand
in it one after the other, with only spaces outside them, each is read as its token when it stands
alone, and with any spaces between them they are read as the same tokens again. -/

namespace FormulaEngine

namespace Symbol

/-! ## Spellings -/

/-- The ways of writing a token. -/
inductive Spelling : Text → Token → Prop where
  | string {q : Char} {content : Text} : (q = '\'' ∨ q = '"') → q ∉ content →
      Spelling (q :: (content ++ [q])) (.string content)
  | whole {digits : Text} : digits ≠ [] → (∀ c ∈ digits, c.isDigit = true) →
      (Decimal.digitsValue digits : Int) ≤ Binary64.maxInt64 →
      Spelling digits (.numeral (.whole (Decimal.digitsValue digits)))
  | decimal {digits places : Text} {point : Char} : digits ≠ [] →
      (∀ c ∈ digits, c.isDigit = true) → (point = '.' ∨ point = ',') →
      (∀ c ∈ places, c.isDigit = true) → (Decimal.digitsValue digits : Int) ≤ Binary64.maxInt64 →
      Spelling (digits ++ point :: places)
        (.numeral (.decimal (decimalValue (Decimal.digitsValue digits) places)))
  | name {n : Text} : IsName n → Spelling n (.name n)
  | punctuation {w : Text} {k : Token} : (w, k) ∈ punctuation → Spelling w k

/-- The text does not go on with anything but a space. -/
def Spaced (t : Text) : Prop := ∀ c, t.head? = some c → c = ' '

theorem spaced_nil : Spaced [] := fun _ h => nomatch h

theorem spaced_gap_append {n : Nat} (hn : n ≠ 0) (t : Text) : Spaced (Text.gap n ++ t) := by
  obtain ⟨m, rfl⟩ := Nat.exists_eq_succ_of_ne_zero hn
  intro c hc
  cases hc
  rfl

theorem isNamePart_of_isNameStart {c : Char} (h : isNameStart c = true) :
    isNamePart c = true := by
  simp only [isNameStart, isNamePart, isAlphabetic, isAlphanumeric, Bool.or_eq_true] at h ⊢
  tauto

/-- A spelling is read at the end of a text and in front of a space. -/
theorem Spelling.scan? {w : Text} {k : Token} (h : Spelling w k) {rest : Text}
    (hrest : Spaced rest) : Symbol.scan? (w ++ rest) = some (.token k, w.length) := by
  have hnumeral : ∀ {w : Text}, w ≠ [] → (∀ c ∈ w, c.isDigit = true) → ∀ behind,
      Symbol.scan? (w ++ behind) = some (scanNumeral (w ++ behind)) := by
    intro w hne hw behind
    obtain ⟨c, r, rfl⟩ := List.exists_cons_of_ne_nil hne
    exact scan?_digit (hw c (by simp)) _
  cases h with
  | string hq hcontent => simpa using scan?_string hq hcontent rest
  | whole hne hdigits hfits =>
    rw [hnumeral hne hdigits, scanNumeral_whole hdigits hfits]
    intro c hc
    obtain rfl := hrest c hc
    decide
  | @decimal digits places point hne hdigits hpoint hplaces hfits =>
    rw [List.append_assoc, List.cons_append, hnumeral hne hdigits,
      scanNumeral_decimal hdigits hfits hpoint hplaces]
    · simp only [List.length_append, List.length_cons, Nat.add_assoc, Nat.add_comm 1]
    · intro c hc
      obtain rfl := hrest c hc
      rfl
  | name hn =>
    refine scan?_name hn fun c hc => ?_
    obtain rfl := hrest c hc
    decide
  | punctuation hw =>
    refine scan?_punctuation hw fun _ c hc => ?_
    obtain rfl := hrest c hc
    decide

theorem Spelling.exists_head {w : Text} {k : Token} (h : Spelling w k) :
    ∃ c r, w = c :: r ∧ c ≠ ' ' := by
  have hscan := h.scan? spaced_nil
  rw [List.append_nil] at hscan
  obtain ⟨c, r, rfl⟩ : ∃ c r, w = c :: r := by
    refine List.exists_cons_of_ne_nil ?_
    rintro rfl
    cases hscan
  refine ⟨c, r, rfl, ?_⟩
  rintro rfl
  rw [show Symbol.scan? (' ' :: r) = some (.invalid, 0) from rfl] at hscan
  cases hscan

theorem exists_spelling_of_scanNumeral_token {t : Text} (hne : t.takeWhile Char.isDigit ≠ [])
    {k : Token} {n : Nat} (h : scanNumeral t = (.token k, n)) :
    ∃ w rest, t = w ++ rest ∧ w.length = n ∧ Spelling w k := by
  have hall : ∀ {t : Text}, ∀ c ∈ t.takeWhile Char.isDigit, c.isDigit = true :=
    fun c hc => List.mem_takeWhile_imp hc
  have hsplit := (List.prefix_iff_eq_append.mp (List.takeWhile_prefix Char.isDigit (l := t))).symm
  simp only [scanNumeral] at h
  split at h
  · rename_i hfits
    split at h
    · rename_i c rest hrest
      split at h
      · rename_i hpoint
        cases h
        rw [hrest, ← List.takeWhile_append_dropWhile (p := Char.isDigit) (l := rest)] at hsplit
        refine ⟨_ ++ c :: rest.takeWhile Char.isDigit, rest.dropWhile Char.isDigit, ?_, ?_,
          .decimal hne hall hpoint hall hfits⟩
        · rw [List.append_assoc, List.cons_append]
          exact hsplit
        · simp only [List.length_append, List.length_cons]
          omega
      · cases h
        exact ⟨_, _, hsplit, rfl, .whole hne hall hfits⟩
    · cases h
      exact ⟨_, _, hsplit, rfl, .whole hne hall hfits⟩
  · cases h

/-- Every token is spelled at the beginning of the text that it is read from. -/
theorem exists_spelling {t : Text} {k : Token} {n : Nat} (h : scan? t = some (.token k, n)) :
    ∃ w rest, t = w ++ rest ∧ w.length = n ∧ Spelling w k := by
  cases t with
  | nil => cases h
  | cons c rest =>
    by_cases hq : c = '\'' ∨ c = '"'
    · by_cases hrest : c ∈ rest
      · obtain ⟨content, behind, rfl, hcontent⟩ := List.eq_append_cons_of_mem hrest
        rw [scan?_string hq hcontent] at h
        cases h
        exact ⟨c :: (content ++ [c]), behind, by simp, by simp, .string hq hcontent⟩
      · rw [scan?_openString hq hrest] at h
        cases h
    · rw [scan?, if_neg hq] at h
      split at h
      · rename_i hdigit
        exact exists_spelling_of_scanNumeral_token (by simp [hdigit]) (Option.some.inj h)
      · split at h
        · rename_i hstart
          cases h
          refine ⟨_, rest.dropWhile isNamePart, ?_, rfl, .name ⟨⟨c, rfl, hstart⟩, ?_⟩⟩
          · rw [List.cons_append, List.takeWhile_append_dropWhile]
          · intro d hd
            rcases List.mem_cons.mp hd with rfl | hd
            · exact isNamePart_of_isNameStart hstart
            · exact List.mem_takeWhile_imp hd
        · simp only [scanPunctuation] at h
          split at h
          · rename_i w k' hfind
            cases h
            have hp := List.find?_some hfind
            obtain ⟨behind, hbehind⟩ := List.isPrefixOf_iff_prefix.mp hp
            exact ⟨w, behind, hbehind.symm, rfl, .punctuation (List.mem_of_find?_eq_some hfind)⟩
          · cases h

theorem eq_nil_of_scan_finish {t : Text} {n : Nat} (h : scan? t = some (.finish, n)) :
    t = [] := by
  cases t with
  | nil => rfl
  | cons c rest =>
    simp only [scan?, scanNumeral, scanPunctuation] at h
    repeat' split at h
    all_goals cases h

end Symbol

open FormulaEngine.Symbol (Spelling Spaced)

/-- The words with spaces between them, at least one between two words. -/
inductive Text.Separated : List Text → Text → Prop where
  | none : Separated [] []
  | one (w : Text) : Separated [w] w
  | more {n : Nat} {w v t : Text} {ws : List Text} : n ≠ 0 → Separated (v :: ws) t →
      Separated (w :: v :: ws) (w ++ (Text.gap n ++ t))

namespace Lexer

variable {l l' : Lexer} {k : Token} {ks : List Token}

/-- Where the last symbol begins and where it ends. -/
def span (l : Lexer) : Nat × Nat := (l.tokenStart, l.cursor.position)

/-! ## What the next symbol is -/

theorem eq_gap_append (t : Text) : t = Text.gap (spaces t) ++ unspaced t := by
  have hgap : t.takeWhile (· == ' ') = Text.gap (spaces t) := by
    refine List.eq_replicate_iff.mpr ⟨rfl, fun c hc => ?_⟩
    simpa using List.mem_takeWhile_imp hc
  have hsplit := List.prefix_iff_eq_append.mp (List.takeWhile_prefix (· == ' ') (l := t))
  rw [← hgap]
  exact hsplit.symm

theorem scan_of_next {x : Symbol} (h : l.next = (.ok x, l')) :
    ∃ n, Symbol.scan? (unspaced l.cursor.after) = some (x, n) := by
  cases hs : Symbol.scan? (unspaced l.cursor.after) with
  | none =>
    obtain ⟨_, hn, -⟩ := next_of_scan_none hs
    cases h.symm.trans hn
  | some r =>
    obtain ⟨y, n⟩ := r
    obtain ⟨_, hn, -⟩ := next_of_scan hs
    cases h.symm.trans hn
    exact ⟨n, rfl⟩

/-- A token that is read stands in the text behind some spaces. -/
theorem spelling_of_next (h : l.next = (.ok (.token k), l')) :
    ∃ n w, l.cursor.after = Text.gap n ++ (w ++ l'.cursor.after) ∧ Spelling w k ∧
      l'.span = (l.cursor.position + n, l.cursor.position + n + w.length) := by
  obtain ⟨n, hscan⟩ := scan_of_next h
  obtain ⟨m, hn, hafter, hstart, hposition⟩ := next_of_scan_at hscan
  cases h.symm.trans hn
  obtain ⟨w, rest, hw, rfl, hspelling⟩ := Symbol.exists_spelling hscan
  refine ⟨spaces l.cursor.after, w, ?_, hspelling, Prod.ext hstart (hposition k rfl)⟩
  rw [hafter, hw, List.drop_left, ← hw]
  exact eq_gap_append _

/-- At the end there is nothing left but spaces. -/
theorem gap_of_next (h : l.next = (.ok .finish, l')) :
    ∃ n, l.cursor.after = Text.gap n ∧
      l'.span = (l.cursor.position + n, l.cursor.position + n) := by
  obtain ⟨w, hscan⟩ := scan_of_next h
  have hend : unspaced l.cursor.after = [] := Symbol.eq_nil_of_scan_finish hscan
  have hgap := eq_gap_append l.cursor.after
  rw [hend, List.append_nil] at hgap
  have hlast : Symbol.scan? (l.cursor.advanceBy (spaces l.cursor.after)).after =
      some (.finish, 0) := by
    rw [show (l.cursor.advanceBy (spaces l.cursor.after)).after = unspaced l.cursor.after from rfl,
      hend]
    rfl
  simp only [next, hlast] at h
  cases h
  exact ⟨_, hgap, Prod.ext (position_advance_spaces l) (position_advance_spaces l)⟩

theorem length_lt_of_next (h : l.next = (.ok (.token k), l')) :
    l'.cursor.after.length < l.cursor.after.length := by
  obtain ⟨n, w, hafter, hspelling, -⟩ := spelling_of_next h
  obtain ⟨c, r, rfl, -⟩ := hspelling.exists_head
  rw [hafter]
  simp only [List.length_append, List.length_cons]
  omega

/-! ## Reading to the end -/

/-- The tokens up to the end of the text. -/
inductive Finishes : Lexer → List Token → Prop where
  | finish {l l' : Lexer} : l.next = (.ok .finish, l') → Finishes l []
  | token {l l' : Lexer} {k : Token} {ks : List Token} : l.next = (.ok (.token k), l') →
      Finishes l' ks → Finishes l (k :: ks)

theorem finishes_of_tokenizeFrom {n : Nat}
    (h : tokenizeFrom n l = .ok (ks.map .token ++ [.finish])) : l.Finishes ks := by
  induction n generalizing l ks with
  | zero => simp [tokenizeFrom] at h
  | succ n ih =>
    obtain ⟨r, l', hn⟩ : ∃ r l', l.next = (r, l') := ⟨_, _, rfl⟩
    rw [tokenizeFrom, hn] at h
    rcases r with e | (_ | _ | k)
    · cases h
    · cases ks with
      | nil => exact .finish hn
      | cons k ks => cases h
    · cases ks <;> cases h
    · dsimp only at h
      cases hrest : tokenizeFrom n l' with
      | error e =>
        rw [hrest] at h
        cases h
      | ok xs =>
        rw [hrest] at h
        cases ks with
        | nil => cases h
        | cons k ks =>
          cases h
          exact .token hn (ih hrest)

/-- Every token takes a character, so they are all read within the bound. -/
theorem Finishes.tokenizeFrom_eq (h : l.Finishes ks) {n : Nat} (hl : l.cursor.after.length < n) :
    tokenizeFrom n l = .ok (ks.map .token ++ [.finish]) := by
  induction h generalizing n with
  | finish hn =>
    obtain ⟨m, rfl⟩ := Nat.exists_eq_add_one_of_ne_zero (Nat.ne_zero_of_lt hl)
    simp [tokenizeFrom, hn]
  | @token l l' k ks hn _ ih =>
    obtain ⟨m, rfl⟩ := Nat.exists_eq_add_one_of_ne_zero (Nat.ne_zero_of_lt hl)
    have hlength := length_lt_of_next hn
    rw [tokenizeFrom, hn]
    dsimp only
    rw [ih (by omega)]
    rfl

/-- The tokens of a text, or the reason why it has none: the first symbol that is no token is the
end, or it begins with a character that begins nothing, or with a quote without another one. -/
theorem tokenizeFrom_result {n : Nat} (hl : l.cursor.after.length < n) :
    (∃ (ks : List Token) (last : Symbol), (last = .finish ∨ last = .invalid) ∧
      tokenizeFrom n l = .ok (ks.map .token ++ [last])) ∨
    ∃ u q v, l.cursor.after = u ++ q :: v ∧ (q = '\'' ∨ q = '"') ∧ q ∉ v ∧
      tokenizeFrom n l = .error (.openString (l.cursor.position + u.length)) := by
  induction n generalizing l with
  | zero => omega
  | succ n ih =>
    cases hs : Symbol.scan? (unspaced l.cursor.after) with
    | none =>
      obtain ⟨q, v, hv, hq, hnot⟩ := Symbol.exists_quote_of_scan_none hs
      obtain ⟨m, hn, hstart⟩ := next_of_scan_none hs
      refine .inr ⟨Text.gap (spaces l.cursor.after), q, v, ?_, hq, hnot, ?_⟩
      · rw [← hv]
        exact eq_gap_append _
      · rw [tokenizeFrom, hn, hstart, Text.gap, List.length_replicate]
    | some r =>
      obtain ⟨x, w⟩ := r
      obtain ⟨m, hn, -⟩ := next_of_scan hs
      rw [tokenizeFrom, hn]
      cases x with
      | finish => exact .inl ⟨[], .finish, .inl rfl, rfl⟩
      | invalid => exact .inl ⟨[], .invalid, .inr rfl, rfl⟩
      | token k =>
        have hlength := length_lt_of_next hn
        obtain ⟨g, w, hafter, hspelling, hspan⟩ := spelling_of_next hn
        dsimp only
        rcases ih (l := m) (by omega) with ⟨ks, last, hlast, heq⟩ | ⟨u, q, v, hv, hq, hnot, heq⟩
        · refine .inl ⟨k :: ks, last, hlast, ?_⟩
          rw [heq]
          rfl
        · refine .inr ⟨Text.gap g ++ (w ++ u), q, v, ?_, hq, hnot, ?_⟩
          · rw [hafter, hv]
            simp only [List.append_assoc]
          · have hposition : m.cursor.position = l.cursor.position + g + w.length :=
              congrArg Prod.snd hspan
            rw [heq, hposition, Text.gap]
            simp only [List.length_append, List.length_replicate, Nat.add_assoc]
            rfl

/-! ## Spans -/

/-- Words of the text from a place on, by their spans, that spell the tokens and have only spaces
between them and at the end. -/
inductive Cut (t : Text) : Nat → List (Nat × Nat) → List Token → Prop where
  | spaces {p n : Nat} : t.drop p = Text.gap n → Cut t p [] []
  | word {p n : Nat} {w rest : Text} {k : Token} {spans : List (Nat × Nat)} {ks : List Token} :
      t.drop p = Text.gap n ++ (w ++ rest) → Spelling w k → Cut t (p + n + w.length) spans ks →
      Cut t p ((p + n, p + n + w.length) :: spans) (k :: ks)

/-- The spans that a lexer tells of cut its text. -/
theorem Finishes.exists_cut (h : l.Finishes ks) :
    ∃ spans, (l.steps (ks.length + 1)).map (fun step => step.2.span) =
        spans ++ [(l.cursor.toText.length, l.cursor.toText.length)] ∧
      Cut l.cursor.toText l.cursor.position spans ks := by
  induction h with
  | @finish l l' hn =>
    obtain ⟨n, hafter, hspan⟩ := gap_of_next hn
    have hdrop := after_eq_drop (c := l.cursor) rfl
    have hlength : l.cursor.toText.length = l.cursor.position + n := by
      simp [Cursor.toText, Cursor.position, hafter, Text.gap]
    refine ⟨[], ?_, .spaces (hdrop.symm.trans hafter)⟩
    simp [steps, hn, hspan, hlength]
  | @token l l' k ks hn _ ih =>
    obtain ⟨n, w, hafter, hspelling, hspan⟩ := spelling_of_next hn
    obtain ⟨spans, hsteps, hcut⟩ := ih
    have hdrop := after_eq_drop (c := l.cursor) rfl
    have hposition : l'.cursor.position = l.cursor.position + n + w.length :=
      congrArg Prod.snd hspan
    rw [toText_of_next hn] at hsteps hcut
    rw [hposition] at hcut
    refine ⟨_, ?_, .word (hdrop.symm.trans hafter) hspelling hcut⟩
    rw [List.length_cons, steps, List.map_cons]
    simp only [hn, hsteps, hspan, List.cons_append]

theorem Finishes.map_steps (h : l.Finishes ks) :
    (l.steps (ks.length + 1)).map Prod.fst =
      ks.map (fun k => .ok (.token k)) ++ [.ok .finish] := by
  induction h with
  | finish hn => simp [steps, hn]
  | token hn _ ih =>
    rw [List.length_cons, steps, List.map_cons, List.map_cons, List.cons_append]
    simp only [hn, ih]

namespace Cut

variable {t : Text} {p : Nat} {spans : List (Nat × Nat)}

theorem length_eq {n : Nat} {w rest : Text} (h : t.drop p = Text.gap n ++ (w ++ rest))
    (hw : w ≠ []) : t.length = p + n + w.length + rest.length := by
  have hlength := congrArg List.length h
  have hpos := List.length_pos_of_ne_nil hw
  simp only [List.length_drop, List.length_append, Text.gap, List.length_replicate] at hlength
  omega

/-- Every span has a character, and stands behind the place and within the text. -/
theorem bounds (h : Cut t p spans ks) : ∀ s ∈ spans, p ≤ s.1 ∧ s.1 < s.2 ∧ s.2 ≤ t.length := by
  induction h with
  | spaces => simp
  | @word p n w rest k spans ks hdrop hspelling _ ih =>
    obtain ⟨c, r, rfl, -⟩ := hspelling.exists_head
    have hlength := length_eq hdrop (by simp)
    rw [List.length_cons] at hlength ih
    refine List.forall_mem_cons.mpr ⟨by simp; omega, fun s hs => ?_⟩
    have := ih s hs
    omega

theorem pairwise (h : Cut t p spans ks) : spans.Pairwise fun a b => a.2 ≤ b.1 := by
  induction h with
  | spaces => exact .nil
  | word _ _ hcut ih => exact .cons (fun s hs => (hcut.bounds s hs).1) ih

/-- What stands in no span is a space. -/
theorem eq_space (h : Cut t p spans ks) {i : Nat} (hi : p ≤ i) {c : Char}
    (hc : t[i]? = some c) (hout : ∀ s ∈ spans, ¬ (s.1 ≤ i ∧ i < s.2)) : c = ' ' := by
  have hat : ∀ {p : Nat}, p ≤ i → (t.drop p)[i - p]? = some c := by
    intro p hp
    rw [List.getElem?_drop, Nat.add_sub_cancel' hp, hc]
  induction h with
  | spaces hdrop =>
    have hmem := List.mem_of_getElem? (hat hi)
    rw [hdrop] at hmem
    exact List.eq_of_mem_replicate hmem
  | @word p n w rest k spans ks hdrop _ _ ih =>
    obtain ⟨hfirst, hout⟩ := List.forall_mem_cons.mp hout
    rcases Nat.lt_or_ge i (p + n) with hlt | hge
    · have hgap := hat hi
      rw [hdrop, List.getElem?_append_left (by simp [Text.gap]; omega)] at hgap
      exact List.eq_of_mem_replicate (List.mem_of_getElem? hgap)
    · refine ih ?_ hout
      by_contra hlt
      exact hfirst ⟨hge, by omega⟩

/-- The words that are cut out. -/
theorem spelled (h : Cut t p spans ks) :
    List.Forall₂ Spelling (spans.map fun s => (Cursor.ofText t).slice s.1 s.2) ks := by
  induction h with
  | spaces => exact .nil
  | @word p n w rest k spans ks hdrop hspelling _ ih =>
    have hslice : (Cursor.ofText t).slice (p + n) (p + n + w.length) = w := by
      rw [Cursor.slice, Cursor.toText_ofText, List.drop_take, Nat.add_sub_cancel_left,
        ← List.drop_drop, hdrop, Text.gap, List.drop_left' (List.length_replicate ..),
        List.take_left]
    refine .cons ?_ ih
    dsimp only
    rw [hslice]
    exact hspelling

end Cut

/-! ## Spellings put together -/

theorem exists_next_of_spelling {n : Nat} {w rest : Text} (hw : Spelling w k)
    (hrest : Spaced rest) (hl : l.cursor.after = Text.gap n ++ (w ++ rest)) :
    ∃ l', l.next = (.ok (.token k), l') ∧ l'.cursor.after = rest := by
  have hscan := hw.scan? hrest
  obtain ⟨c, r, rfl, hc⟩ := hw.exists_head
  have hunspaced : unspaced l.cursor.after = c :: r ++ rest := by
    rw [hl]
    exact unspaced_gap n hc (r ++ rest)
  rw [← hunspaced] at hscan
  obtain ⟨l', hn, hafter⟩ := next_of_scan hscan
  refine ⟨l', hn, ?_⟩
  rw [hafter, hunspaced, List.drop_left]

theorem finishes_gap {n : Nat} (h : l.cursor.after = Text.gap n) : l.Finishes [] := by
  have hscan : Symbol.scan? (unspaced l.cursor.after) = some (.finish, 0) := by
    have hunspaced : unspaced (Text.gap n) = [] := by simp [unspaced, spaces, Text.gap]
    rw [h, hunspaced]
    rfl
  obtain ⟨l', hn, -⟩ := next_of_scan hscan
  exact .finish hn

/-- Spellings with spaces between them are read one after the other. -/
theorem finishes_of_separated {ws : List Text} {t : Text} (h : Text.Separated ws t)
    (hws : List.Forall₂ Spelling ws ks) {n : Nat} (hl : l.cursor.after = Text.gap n ++ t) :
    l.Finishes ks := by
  induction h generalizing l ks n with
  | none =>
    cases hws
    exact finishes_gap (by rw [hl, List.append_nil])
  | one w =>
    cases hws with
    | cons hw hnil =>
      cases hnil
      have hafter : l.cursor.after = Text.gap n ++ (w ++ []) := by rw [hl, List.append_nil]
      obtain ⟨l', hn, hl'⟩ := exists_next_of_spelling hw Symbol.spaced_nil hafter
      exact .token hn (finishes_gap (n := 0) hl')
  | more hgap _ ih =>
    cases hws with
    | cons hw hws =>
      obtain ⟨l', hn, hl'⟩ := exists_next_of_spelling hw (Symbol.spaced_gap_append hgap _) hl
      exact .token hn (ih hws hl')

theorem tokenize_of_separated {ws : List Text} {t : Text} (h : Text.Separated ws t)
    (hws : List.Forall₂ Spelling ws ks) : tokenize t = .ok (ks.map .token ++ [.finish]) :=
  (finishes_of_separated (l := .ofText t) (n := 0) h hws rfl).tokenizeFrom_eq (Nat.lt_succ_self _)

end Lexer

open Lexer (Cut)

/-- Reading tokens loses nothing. It ends at the end of the text, or at the first character that
begins no token, or fails with the place of a quote that has no other one of its sort behind it. If
it ends at the end, the lexer has told of spans in order, one for each token and the empty one at
the end, with only spaces outside them; each of them alone is read as its token, and with any
positive numbers of spaces between them they are read as the tokens of the text. -/
theorem tokenize_result (t : Text) :
    ((∃ (ks : List Token) (last : Symbol), (last = .finish ∨ last = .invalid) ∧
        tokenize t = .ok (ks.map .token ++ [last])) ∨
      ∃ u q v, t = u ++ q :: v ∧ (q = '\'' ∨ q = '"') ∧ q ∉ v ∧
        tokenize t = .error (.openString u.length)) ∧
    ∀ ks : List Token, tokenize t = .ok (ks.map .token ++ [.finish]) →
      let steps := (Lexer.ofText t).steps (ks.length + 1)
      let word := fun s : Nat × Nat => (Cursor.ofText t).slice s.1 s.2
      steps.map Prod.fst = ks.map (fun k => .ok (.token k)) ++ [.ok .finish] ∧
      ∃ spans, steps.map (fun step => step.2.span) = spans ++ [(t.length, t.length)] ∧
        (∀ s ∈ spans, s.1 < s.2 ∧ s.2 ≤ t.length) ∧
        spans.Pairwise (fun a b => a.2 ≤ b.1) ∧
        (∀ i c, t[i]? = some c → (∀ s ∈ spans, ¬ (s.1 ≤ i ∧ i < s.2)) → c = ' ') ∧
        List.Forall₂ (fun s k => tokenize (word s) = .ok [.token k, .finish]) spans ks ∧
        ∀ u, Text.Separated (spans.map word) u → tokenize u = tokenize t := by
  constructor
  · have hresult := Lexer.tokenizeFrom_result (l := .ofText t) (Nat.lt_succ_self t.length)
    simpa [Lexer.ofText, Cursor.ofText, Cursor.position, tokenize] using hresult
  · intro ks h
    have hfinishes : (Lexer.ofText t).Finishes ks := Lexer.finishes_of_tokenizeFrom h
    obtain ⟨spans, hspans, hcut⟩ := hfinishes.exists_cut
    have hspelled := hcut.spelled
    refine ⟨hfinishes.map_steps, spans, hspans, fun s hs => (hcut.bounds s hs).2, hcut.pairwise,
      fun i c => hcut.eq_space (Nat.zero_le i), ?_, fun u hu => ?_⟩
    · refine (List.forall₂_map_left_iff.mp hspelled).imp fun s k hk => ?_
      exact Lexer.tokenize_of_separated (.one _) (.cons hk .nil)
    · rw [Lexer.tokenize_of_separated hu hspelled, h]

/-- Comparisons without spaces between them are cut as written, and only the longer operators are
read. -/
theorem tokenize_result_comparisons :
    tokenize "2<=1 ><3".toList = .ok (([.numeral (.whole 2), .operator .lessOrEqual,
      .numeral (.whole 1), .operator .notEqual, .numeral (.whole 3)] : List Token).map .token ++
        [.finish]) ∧
      ∀ u, Text.Separated [['2'], ['<', '='], ['1'], ['>', '<'], ['3']] u →
        tokenize u = tokenize "2<=1 ><3".toList := by
  refine ⟨rfl, ?_⟩
  obtain ⟨-, spans, hspans, -, -, -, -, hjoined⟩ :=
    (tokenize_result "2<=1 ><3".toList).2 [.numeral (.whole 2), .operator .lessOrEqual,
      .numeral (.whole 1), .operator .notEqual, .numeral (.whole 3)] rfl
  have hsteps : ((Lexer.ofText "2<=1 ><3".toList).steps 6).map (fun step => step.2.span) =
      [(0, 1), (1, 3), (3, 4), (5, 7), (7, 8)] ++ [(8, 8)] := rfl
  obtain rfl := List.append_cancel_right (hspans.symm.trans hsteps)
  exact hjoined

end FormulaEngine
