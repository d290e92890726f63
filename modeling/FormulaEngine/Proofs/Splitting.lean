import FormulaEngine.Proofs.Nesting
import FormulaEngine.Proofs.Trimming

/-! # Splitting the arguments of a call

The parenthesis that closes a call is the one before which the text is balanced, and the commas that
separate its arguments cut a balanced text into arguments. So reading a call's arguments succeeds
exactly on arguments that are joined by commas and followed by a closing parenthesis, and gives them
back trimmed. -/

namespace FormulaEngine.Arguments

open Nesting (outside)

/-! ## The closing parenthesis -/

theorem closingOffset_after {n m : Nesting} {u : Text} (h : n.after u = some m) :
    ∀ (offset : Nat) (quote? : Option Nat), quote?.isSome = n.quoted →
      ∃ quote?' : Option Nat, quote?'.isSome = m.quoted ∧ ∀ v,
        closingOffset offset n.depth quote? (u ++ v) =
          closingOffset (offset + u.length) m.depth quote?' v := by
  induction u generalizing n with
  | nil =>
    intro offset quote? hq
    cases h
    exact ⟨quote?, hq, fun v => rfl⟩
  | cons c u ih =>
    intro offset quote? hq
    rw [Nesting.after_cons, Option.bind_eq_some_iff] at h
    obtain ⟨k, hk, hu⟩ := h
    -- one character changes the state of the search as it changes the nesting
    obtain ⟨next?, hnext, hstep⟩ : ∃ next? : Option Nat, next?.isSome = k.quoted ∧ ∀ v,
        closingOffset offset n.depth quote? (c :: v) =
          closingOffset (offset + 1) k.depth next? v := by
      obtain ⟨depth, quoted⟩ := n
      cases quote? with
      | some q =>
        obtain rfl : quoted = true := by simpa using hq.symm
        by_cases hc : c = '\''
        · subst hc
          cases hk
          exact ⟨none, rfl, fun v => by simp [closingOffset]⟩
        · simp only [Nesting.step, hc, if_false, if_true] at hk
          cases hk
          exact ⟨some q, rfl, fun v => by simp [closingOffset, hc]⟩
      | none =>
        obtain rfl : quoted = false := by simpa using hq.symm
        simp only [Nesting.step, Bool.false_eq_true, if_false] at hk
        repeat' split at hk
        all_goals cases hk
        · exact ⟨some offset, rfl, fun v => by simp_all [closingOffset]⟩
        all_goals exact ⟨none, rfl, fun v => by simp_all [closingOffset]⟩
    obtain ⟨last?, hlast, hrest⟩ := ih hu (offset + 1) next? hnext
    refine ⟨last?, hlast, fun v => ?_⟩
    rw [List.cons_append, hstep, hrest, List.length_cons, Nat.add_right_comm, Nat.add_assoc]

/-- The search stops where the parentheses that it has seen match. -/
theorem after_of_closingOffset {offset depth k : Nat} {quote? : Option Nat} {t : Text}
    (h : closingOffset offset depth quote? t = .ok k) :
    ∃ u rest, t = u ++ ')' :: rest ∧ k = offset + u.length ∧
      Nesting.after ⟨depth, quote?.isSome⟩ u = some outside := by
  induction t generalizing offset depth quote? with
  | nil =>
    simp only [closingOffset] at h
    split at h <;> cases h
  | cons c t ih =>
    -- all cases but the last parenthesis go on one character further
    have further : ∀ (next : Nesting) {next? : Option Nat}, next?.isSome = next.quoted →
        Nesting.step ⟨depth, quote?.isSome⟩ c = some next →
        closingOffset (offset + 1) next.depth next? t = .ok k →
        ∃ u rest, c :: t = u ++ ')' :: rest ∧ k = offset + u.length ∧
          Nesting.after ⟨depth, quote?.isSome⟩ u = some outside := by
      intro next next? hq hs hc
      obtain ⟨u, rest, rfl, rfl, hu⟩ := ih hc
      refine ⟨c :: u, rest, rfl, by rw [List.length_cons]; omega, ?_⟩
      rw [Nesting.after_cons, hs]
      rw [hq] at hu
      exact hu
    cases quote? with
    | some q =>
      simp only [closingOffset] at h
      by_cases hc : c = '\''
      · rw [if_pos hc] at h
        exact further ⟨depth, false⟩ rfl (by simp [Nesting.step, hc]) h
      · rw [if_neg hc] at h
        exact further ⟨depth, true⟩ rfl (by simp [Nesting.step, hc]) h
    | none =>
      simp only [closingOffset] at h
      split at h
      · rename_i hc
        exact further ⟨depth, true⟩ rfl (by simp [Nesting.step, hc]) h
      · rename_i hq
        split at h
        · rename_i hc
          exact further ⟨depth + 1, false⟩ rfl (by simp [Nesting.step, hc]) h
        · rename_i ho
          split at h
          · rename_i hc
            split at h
            · rename_i hd
              cases h
              subst hc hd
              exact ⟨[], t, rfl, rfl, rfl⟩
            · rename_i hd
              exact further ⟨depth - 1, false⟩ rfl
                (by simp [Nesting.step, hc, hd]) h
          · rename_i hc
            exact further ⟨depth, false⟩ rfl (by simp [Nesting.step, *]) h

/-- The closing parenthesis of a call is the one that a balanced text stands before. -/
theorem closingOffset_eq_ok_iff {t : Text} {k : Nat} :
    closingOffset 0 0 none t = .ok k ↔
      ∃ u rest, t = u ++ ')' :: rest ∧ k = u.length ∧ Text.Balanced u := by
  constructor
  · intro h
    obtain ⟨u, rest, ht, hk, hu⟩ := after_of_closingOffset h
    exact ⟨u, rest, ht, by omega, hu⟩
  · rintro ⟨u, rest, rfl, rfl, hu⟩
    obtain ⟨quote?, hq, hv⟩ := closingOffset_after hu 0 none rfl
    obtain rfl : quote? = none := by simpa [outside] using hq
    refine (hv (')' :: rest)).trans ?_
    simp [closingOffset, outside]

/-! ## The commas -/

theorem pieces_after {n m : Nesting} {u : Text} (h : n.argumentAfter u = some m)
    (piece v : Text) :
    pieces n.depth n.quoted piece (u ++ v) = pieces m.depth m.quoted (u.reverse ++ piece) v := by
  induction u generalizing n piece with
  | nil => cases h; rfl
  | cons c u ih =>
    rw [Nesting.argumentAfter_cons, Option.bind_eq_some_iff] at h
    obtain ⟨k, hk, hu⟩ := h
    have hstep : pieces n.depth n.quoted piece (c :: (u ++ v)) =
        pieces k.depth k.quoted (c :: piece) (u ++ v) := by
      obtain ⟨depth, quoted⟩ := n
      unfold Nesting.argumentStep at hk
      split at hk
      · cases hk
      · rename_i hcomma
        unfold Nesting.step at hk
        repeat' split at hk
        all_goals cases hk
        all_goals simp_all [pieces, outside]
        -- the parenthesis that is closed has been opened
        rw [Int.natCast_sub (by omega)]
        rfl
    rw [List.cons_append, hstep, ih hu, List.reverse_cons, List.append_assoc, List.singleton_append]

/-- Arguments that are joined by commas come apart again. -/
theorem pieces_join {ps : List Text} (hne : ps ≠ []) (h : ∀ p ∈ ps, Text.IsArgument p) :
    pieces 0 false [] (Text.join [','] ps) = ps := by
  induction ps with
  | nil => exact absurd rfl hne
  | cons p ps ih =>
    have hp := pieces_after (h p (by simp)) []
    cases ps with
    | nil => simpa [outside, pieces] using hp []
    | cons q qs =>
      rw [Text.join_cons_cons, List.append_assoc]
      refine (hp _).trans ?_
      rw [List.append_nil]
      simp only [outside, List.singleton_append, pieces]
      simpa using ih (by simp) fun r hr => h r (by simp [hr])

/-- A text that is balanced but no argument has a comma outside everything. -/
theorem exists_comma {n m : Nesting} {t : Text} (h : n.after t = some m)
    (hn : n.argumentAfter t = none) :
    ∃ u v, t = u ++ ',' :: v ∧ n.argumentAfter u = some outside ∧ outside.after v = some m := by
  induction t generalizing n with
  | nil => cases hn
  | cons c t ih =>
    rw [Nesting.after_cons, Option.bind_eq_some_iff] at h
    obtain ⟨k, hk, ht⟩ := h
    by_cases hc : c = ',' ∧ n = outside
    · obtain ⟨rfl, rfl⟩ := hc
      cases hk
      exact ⟨[], t, rfl, rfl, ht⟩
    · have hstep : n.argumentStep c = some k := by rw [Nesting.argumentStep, if_neg hc, hk]
      rw [Nesting.argumentAfter_cons, hstep] at hn
      obtain ⟨u, v, rfl, hu, hv⟩ := ih ht hn
      refine ⟨c :: u, v, rfl, ?_, hv⟩
      rw [Nesting.argumentAfter_cons, hstep]
      exact hu

/-- Every balanced text is a list of arguments, joined by commas. -/
theorem exists_join {t : Text} (h : Text.Balanced t) :
    ∃ ps : List Text, ps ≠ [] ∧ t = Text.join [','] ps ∧ ∀ p ∈ ps, Text.IsArgument p := by
  induction hl : t.length using Nat.strong_induction_on generalizing t with
  | _ l ih =>
    subst hl
    cases ha : outside.argumentAfter t with
    | some m =>
      have hm := Nesting.after_of_argumentAfter ha
      rw [Text.Balanced, hm, Option.some.injEq] at h
      exact ⟨[t], by simp, by simp, by simpa [Text.IsArgument, ← h] using ha⟩
    | none =>
      obtain ⟨u, v, rfl, hu, hv⟩ := exists_comma h ha
      obtain ⟨ps, hne, rfl, hps⟩ := ih v.length (by simp; omega) hv rfl
      obtain ⟨q, qs, rfl⟩ := List.exists_cons_of_ne_nil hne
      refine ⟨u :: q :: qs, by simp, ?_, ?_⟩
      · rw [Text.join_cons_cons, List.append_assoc, List.singleton_append]
      · simpa using ⟨hu, by simpa using hps⟩

theorem balanced_join {separator : Text} {ps : List Text} (hs : Text.Balanced separator)
    (h : ∀ p ∈ ps, Text.Balanced p) : Text.Balanced (Text.join separator ps) := by
  induction ps with
  | nil => rfl
  | cons p ps ih =>
    have hp : Text.Balanced p := h p (by simp)
    cases ps with
    | nil => simpa using hp
    | cons q qs =>
      rw [Text.join_cons_cons]
      exact (hp.append hs).append (ih fun r hr => h r (by simp [hr]))

/-! ## Blanks around the arguments -/

theorem isPlain_of_isBlank {c : Char} (h : isBlank c = true) : Nesting.IsPlain c := by
  refine ⟨?_, ?_, ?_, ?_⟩ <;> rintro rfl <;> exact absurd h (by decide)

/-- Blanks belong to the piece that they stand in. -/
theorem pieces_blanks {a : Text} (h : ∀ c ∈ a, isBlank c = true) (depth : Int) (quoted : Bool)
    (piece t : Text) :
    pieces depth quoted piece (a ++ t) = pieces depth quoted (a.reverse ++ piece) t := by
  induction a generalizing piece with
  | nil => rfl
  | cons c a ih =>
    obtain ⟨hq, ho, hc, hcomma⟩ := isPlain_of_isBlank (h c (by simp))
    have hstep : pieces depth quoted piece (c :: (a ++ t)) =
        pieces depth quoted (c :: piece) (a ++ t) := by
      simp [pieces, hq, ho, hc, hcomma]
    rw [List.cons_append, hstep, ih fun d hd => h d (by simp [hd])]
    simp

theorem pieces_append_blanks (depth : Int) (quoted : Bool) (piece t : Text) {b : Text}
    (h : ∀ c ∈ b, isBlank c = true) :
    (pieces depth quoted piece (t ++ b)).map Text.trim =
      (pieces depth quoted piece t).map Text.trim := by
  induction t generalizing depth quoted piece with
  | nil =>
    have hb := pieces_blanks h depth quoted piece []
    rw [List.append_nil] at hb
    rw [List.nil_append, hb]
    simp [pieces, Text.trim_append_blanks h]
  | cons c t ih =>
    simp only [List.cons_append, pieces]
    repeat' split
    all_goals simp [ih]

/-- Blanks before the first piece; `piece` is kept in reverse. -/
theorem pieces_map_trim_blanks (depth : Int) (quoted : Bool) (piece t : Text) {a : Text}
    (h : ∀ c ∈ a, isBlank c = true) :
    (pieces depth quoted (piece ++ a) t).map Text.trim =
      (pieces depth quoted piece t).map Text.trim := by
  have hr : ∀ p : Text, Text.trim (a.reverse ++ p) = Text.trim p :=
    Text.trim_blanks_append (by simpa using h)
  induction t generalizing depth quoted piece with
  | nil => simp [pieces, hr]
  | cons c t ih =>
    simp only [pieces]
    repeat' split
    all_goals simp only [← List.cons_append, ih, List.map_cons, List.reverse_append, hr]

theorem pieces_blanks_append (depth : Int) (quoted : Bool) (t : Text) {a : Text}
    (h : ∀ c ∈ a, isBlank c = true) :
    (pieces depth quoted [] (a ++ t)).map Text.trim =
      (pieces depth quoted [] t).map Text.trim := by
  rw [pieces_blanks h, List.append_nil]
  exact pieces_map_trim_blanks depth quoted [] t (by simpa using h)

/-- The arguments that are written between the commas; a blank text is none. -/
def passed (ps : List Text) : List Text :=
  if ps.map Text.trim = [[]] then [] else ps.map Text.trim

theorem split_trim_join {ps : List Text} (hne : ps ≠ []) (h : ∀ p ∈ ps, Text.IsArgument p) :
    split (Text.trim (Text.join [','] ps)) = passed ps := by
  obtain ⟨a, b, hab, ha, hb⟩ := Text.exists_trim (Text.join [','] ps)
  have hp : (pieces 0 false [] (Text.trim (Text.join [','] ps))).map Text.trim =
      ps.map Text.trim := by
    rw [← pieces_blanks_append _ _ _ ha, ← pieces_append_blanks _ _ _ _ hb, ← hab,
      pieces_join hne h]
  unfold split passed
  split
  · rename_i he
    rw [List.isEmpty_iff.mp he] at hp
    rw [if_pos (by simpa [pieces] using hp.symm)]
  · rename_i he
    have hblank : ps.map Text.trim ≠ [[]] := by
      intro hblank
      obtain ⟨p, rfl, hpb⟩ := List.map_eq_singleton_iff.mp hblank
      exact he (by rw [Text.join_singleton, hpb]; rfl)
    rw [if_neg hblank, hp]

/-- What reading the arguments of a call accepts, and what it gives. -/
theorem read_eq_ok_iff {t : Text} {args : List Text} {n : Nat} :
    read t = .ok (args, n) ↔ ∃ (ps : List Text) (rest : Text), ps ≠ [] ∧
      (∀ p ∈ ps, Text.IsArgument p) ∧ t = Text.join [','] ps ++ ')' :: rest ∧
      args = passed ps ∧ n = (Text.join [','] ps).length + 1 := by
  constructor
  · intro h
    unfold read at h
    split at h
    · rename_i stop hstop
      obtain ⟨u, rest, rfl, rfl, hu⟩ := closingOffset_eq_ok_iff.mp hstop
      obtain ⟨ps, hne, rfl, hps⟩ := exists_join hu
      rw [List.take_left, split_trim_join hne hps] at h
      cases h
      exact ⟨ps, rest, hne, hps, rfl, rfl, rfl⟩
    · cases h
  · rintro ⟨ps, rest, hne, hps, rfl, rfl, rfl⟩
    have hbalanced : Text.Balanced (Text.join [','] ps) :=
      balanced_join (by decide) fun p hp => (hps p hp).balanced
    have hstop := closingOffset_eq_ok_iff.mpr ⟨_, rest, rfl, rfl, hbalanced⟩
    rw [read, hstop]
    simp only [List.take_left, split_trim_join hne hps]

theorem exists_of_mem_passed {ps : List Text} {x : Text} (h : x ∈ passed ps) :
    ∃ p ∈ ps, x = Text.trim p := by
  unfold passed at h
  split at h
  · cases h
  · obtain ⟨p, hp, hx⟩ := List.mem_map.mp h
    exact ⟨p, hp, hx.symm⟩

theorem sublist_join {ps : List Text} {p : Text} (h : p ∈ ps) :
    p.Sublist (Text.join [','] ps) := by
  induction ps with
  | nil => cases h
  | cons q ps ih =>
    cases ps with
    | nil =>
      obtain rfl : p = q := by simpa using h
      simp
    | cons r rs =>
      rw [Text.join_cons_cons, List.append_assoc]
      rcases List.mem_cons.mp h with rfl | h
      · exact List.sublist_append_left _ _
      · exact (ih h).trans ((List.sublist_append_right _ _).trans (List.sublist_append_right _ _))

/-- Arguments are shorter than what they are cut from. -/
theorem length_lt_of_read {t : Text} {args : List Text} {n : Nat} (h : read t = .ok (args, n))
    {x : Text} (hx : x ∈ args) : x.length < t.length := by
  obtain ⟨ps, rest, _, _, rfl, rfl, _⟩ := read_eq_ok_iff.mp h
  obtain ⟨p, hp, rfl⟩ := exists_of_mem_passed hx
  have htrim := Text.trim_length_le p
  have hjoin := (sublist_join hp).length_le
  rw [List.length_append, List.length_cons]
  omega

/-- A space behind each comma can be taken for a part of the argument that follows. -/
theorem join_space (t : Text) (ts : List Text) :
    Text.join ", ".toList (t :: ts) = Text.join [','] (t :: ts.map (' ' :: ·)) := by
  induction ts generalizing t with
  | nil => rfl
  | cons u us ih =>
    have hspace : Text.join [','] ((' ' :: u) :: us.map (' ' :: ·)) =
        ' ' :: Text.join [','] (u :: us.map (' ' :: ·)) := by
      cases us <;> simp [Text.join]
    rw [List.map_cons, Text.join_cons_cons, Text.join_cons_cons, ih, hspace]
    simp

/-- Arguments without blanks at their ends come back as they are written, with a space behind each
comma. -/
theorem read_join {ts : List Text} (htight : ∀ t ∈ ts, Text.Tight t)
    (hargument : ∀ t ∈ ts, Text.IsArgument t) (rest : Text) :
    read (Text.join ", ".toList ts ++ ')' :: rest) =
      .ok (ts, (Text.join ", ".toList ts).length + 1) := by
  cases ts with
  | nil => rfl
  | cons t ts =>
    have hjoin := join_space t ts
    have hspace : Nesting.IsPlain ' ' := by simp [Nesting.IsPlain]
    refine read_eq_ok_iff.mpr ⟨t :: ts.map (' ' :: ·), rest, by simp, ?_, by rw [hjoin], ?_,
      by rw [hjoin]⟩
    · refine List.forall_mem_cons.mpr ⟨hargument t (by simp), fun p hp => ?_⟩
      obtain ⟨u, hu, rfl⟩ := List.mem_map.mp hp
      exact (Text.isArgument_cons_iff hspace).mpr (hargument u (by simp [hu]))
    · have htrim : (t :: ts.map (' ' :: ·)).map Text.trim = t :: ts := by
        rw [List.map_cons, (htight t (by simp)).trim_eq, List.map_map]
        refine congrArg _ ((List.map_congr_left fun u hu => ?_).trans (List.map_id _))
        exact (Text.trim_blanks_append (a := [' ']) (by decide) u).trans
          (htight u (by simp [hu])).trim_eq
      rw [passed, htrim, if_neg]
      intro h
      exact (htight t (by simp)).ne_nil (List.cons.inj h).1

end FormulaEngine.Arguments
