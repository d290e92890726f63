import FormulaEngine.Proofs.Positions
import Mathlib.Data.List.Infix

/-! # What the positions of errors are offsets into

An evaluation reads a formula, and the arguments of its calls as formulas of their own. `ReachedAt`
tells where in the formula such an argument begins. The position of an error is an offset into the
text that was read when it arose: into the formula as long as no argument was entered, and short by
the offset of the argument otherwise. -/

namespace FormulaEngine

namespace Text

theorem join_append_cons (separator a v : Text) (before after : List Text) :
    join separator (before ++ (a ++ v) :: after) =
      join separator (before ++ [a]) ++ join separator (v :: after) := by
  induction before with
  | nil =>
    cases after with
    | nil => simp
    | cons q qs => simp [join_cons_cons]
  | cons p ps ih =>
    obtain ⟨q, qs, hq⟩ := List.exists_cons_of_ne_nil (l := ps ++ (a ++ v) :: after) (by simp)
    obtain ⟨r, rs, hr⟩ := List.exists_cons_of_ne_nil (l := ps ++ [a]) (by simp)
    rw [List.cons_append, List.cons_append, hq, hr, join_cons_cons, join_cons_cons, ← hq, ← hr, ih]
    simp only [List.append_assoc]

theorem prefix_join (separator x b : Text) (after : List Text) :
    x <+: join separator ((x ++ b) :: after) := by
  cases after with
  | nil => exact ⟨b, (join_singleton _ _).symm⟩
  | cons q qs => exact ⟨_, by rw [join_cons_cons, List.append_assoc, List.append_assoc]⟩

end Text

variable {kind k : ValueKind} {t x : Text} {o : Nat}

/-- A call in the text may read this argument, between its commas and blanks, as a formula of this
kind. The argument begins at the offset. -/
inductive ArgumentAt (kind : ValueKind) (t : Text) (o : Nat) (k : ValueKind) (x : Text) : Prop where
  | intro {p : Nat} {name a b rest : Text} {before after : List Text} :
      ArgumentsAt kind t p name
        (Text.join [','] (before ++ (a ++ x ++ b) :: after) ++ ')' :: rest) →
      (∀ q ∈ before ++ (a ++ x ++ b) :: after, q.IsArgument) →
      (∀ c ∈ a, isBlank c = true) → (∀ c ∈ b, isBlank c = true) → Text.trim x = x →
      ReadArgument kind name (Arguments.passed (before ++ (a ++ x ++ b) :: after)) k x →
      o = p + (Text.join [','] (before ++ [a])).length → ArgumentAt kind t o k x

/-- Whatever a call reads as a formula stands somewhere in the text. -/
theorem CallAt.exists_argumentAt {name : Text} {arguments : List Text}
    (h : CallAt kind t name arguments) (hx : ReadArgument kind name arguments k x) :
    ∃ o, ArgumentAt kind t o k x := by
  obtain ⟨p, inside, taken, harguments, hread⟩ := h
  obtain ⟨ps, rest, -, hps, rfl, rfl, -⟩ := Arguments.read_eq_ok_iff.mp hread
  obtain ⟨q, hq, rfl⟩ := Arguments.exists_of_mem_passed hx.mem
  obtain ⟨a, b, hab, ha, hb⟩ := Text.exists_trim q
  have htrim := Text.trim_trim q
  generalize Text.trim q = x at hx hab htrim
  subst hab
  obtain ⟨before, after, rfl⟩ := List.append_of_mem hq
  exact ⟨_, .intro harguments hps ha hb htrim hx rfl⟩

/-- An argument is a part of the text, and never at its beginning. -/
theorem ArgumentAt.prefix_drop (h : ArgumentAt kind t o k x) : x <+: t.drop o ∧ 2 ≤ o := by
  obtain ⟨harguments, -, -, -, -, -, rfl⟩ := h
  obtain ⟨hinside, hp⟩ := harguments.eq_drop
  refine ⟨?_, by omega⟩
  rw [← List.drop_drop, ← hinside, List.append_assoc, Text.join_append_cons, List.append_assoc,
    List.drop_left]
  exact (Text.prefix_join _ _ _ _).trans (List.prefix_append _ _)

theorem ArgumentAt.length_lt (h : ArgumentAt kind t o k x) : x.length < t.length := by
  obtain ⟨hbegins, ho⟩ := h.prefix_drop
  obtain ⟨harguments, -⟩ := h
  have hinside := congrArg List.length harguments.eq_drop.1
  have hp := harguments.eq_drop.2
  have hlength := hbegins.length_le
  rw [List.length_append, List.length_cons, List.length_drop] at hinside
  rw [List.length_drop] at hlength
  omega

/-- An argument is a formula of its own as it stands. -/
theorem ArgumentAt.normalize_eq (h : ArgumentAt kind (normalize t) o k x) : normalize x = x := by
  have hsub : x ⊆ normalize t := fun c hc => List.drop_subset _ _ (h.prefix_drop.1.subset hc)
  obtain ⟨-, -, -, -, htrim, -, -⟩ := h
  exact normalize_eq_self htrim fun c hc => unbroken_normalize t c (hsub hc)

/-- A text that the evaluation of a formula may read as a formula, and the offset in the formula at
which it begins. -/
inductive ReachedAt : ValueKind → Text → Nat → ValueKind → Text → Prop
  | self (kind : ValueKind) (t : Text) : ReachedAt kind t 0 kind t
  | argument {kind kind' kind'' : ValueKind} {t x u : Text} {o o' : Nat} :
      ArgumentAt kind t o kind' x → ReachedAt kind' x o' kind'' u →
      ReachedAt kind t (o + o') kind'' u

theorem ReachedAt.prefix_drop {u : Text} (h : ReachedAt kind t o k u) : u <+: t.drop o := by
  induction h with
  | self => exact List.prefix_refl _
  | argument hx _ ih =>
    rw [← List.drop_drop]
    exact ih.trans (hx.prefix_drop.1.drop _)

/-- Only the formula itself is reached at its beginning. -/
theorem ReachedAt.eq_of_zero {u : Text} (h : ReachedAt kind t 0 k u) : u = t ∧ k = kind := by
  generalize hzero : 0 = o at h
  cases h with
  | self => exact ⟨rfl, rfl⟩
  | argument hx _ =>
    have := hx.prefix_drop.2
    omega

/-! ## Errors of an evaluation -/

/-- What the error tells of a place is found there in a text that the formula may read. -/
def Explained (kind : ValueKind) (t : Text) (e : FormulaError) : Prop :=
  ∀ p, e.position? = some p → ∃ o k u, ReachedAt kind t o k u ∧ FaultAt k u e p

theorem Explained.of_argument {e : FormulaError} (hx : ArgumentAt kind t o k x)
    (h : Explained k x e) : Explained kind t e := by
  intro p hp
  obtain ⟨o', k', u, hu, hfault⟩ := h p hp
  exact ⟨_, k', u, .argument hx hu, hfault⟩

/-- Every error is explained. -/
def Run.Relation.explaining (kind : ValueKind) (t : Text) : Run.Relation where
  Holds r _ := ∀ e, r.result = .error e → Explained kind t e
  Allows _ _ := True
  ask {_ q answer} _ e he := by
    cases answer with
    | some a => cases he
    | none =>
      cases he
      exact fun _ hp => by cases q <;> cases hp
  ofExcept hr e he p hp := by
    rw [hr e he] at hp
    cases hp
  bind {_ _ r _ f _} h hf := by
    intro e he
    cases hr : r.result with
    | ok a =>
      rw [bind_of_ok hr] at he
      exact hf a e he
    | error =>
      rw [bind_of_error hr] at he
      cases he
      exact h e hr
  blamedOn {_ r _} name h := by
    intro e he p hp
    cases hr : r.result with
    | ok a =>
      rw [Run.blamedOn, hr] at he
      cases he
    | error e' =>
      rw [Run.blamedOn, hr] at he
      cases he
      obtain ⟨o, k, u, hu, hfault⟩ := h e' hr p hp
      exact ⟨o, k, u, hu, hfault.blamedOn name⟩

open Run.Relation (explaining)

namespace Surroundings

variable (s : Surroundings)

/-- Every error that tells of a place is about a text that the formula may read: by induction on
the length of the formula, since what its calls read is shorter. -/
theorem explained_ambient (kind : ValueKind) (formula : Text) :
    Intrinsic.Read (explaining kind (normalize formula)) s.ambient s.ambient kind formula
      formula := by
  induction hl : (normalize formula).length using Nat.strong_induction_on
    generalizing kind formula with
  | _ l ih =>
    have hcall : ∀ {name arguments}, CallAt kind (normalize formula) name arguments →
        CallRelated (explaining kind (normalize formula)) s.ambient s.ambient kind name
          arguments := by
      refine fun h => ⟨fun k x hx => ?_, fun _ _ _ _ _ => trivial, fun _ _ => trivial⟩
      obtain ⟨o, ho⟩ := h.exists_argumentAt hx
      have hlength : (normalize x).length < l := by
        rw [ho.normalize_eq, ← hl]
        exact ho.length_lt
      have hread := ih _ hlength k x rfl
      rw [ho.normalize_eq] at hread
      cases k with
      | number => exact fun e he => (hread e he).of_argument ho
      | text => exact fun e he => (hread e he).of_argument ho
    have htells := Lexemes.tells_placed (Q := PieceRelated (explaining kind (normalize formula))
      s.ambient s.ambient kind) (fun k => by cases k <;> first | exact fun _ => trivial | trivial)
      hcall
    have hplaced := Lexemes.placed_ofText kind (normalize formula)
    have hfails : ∀ {e : FormulaError},
        (∀ p, e.position? = some p → FaultAt kind (normalize formula) e p) →
        (explaining kind (normalize formula)).Fails e := by
      intro e hfault _ e' he' p hp
      cases he'
      exact ⟨0, kind, _, .self _ _, hfault p hp⟩
    cases kind with
    | number =>
      show (explaining _ _).Holds (s.evalNumber formula) (s.evalNumber formula)
      rw [evalNumber_eq]
      obtain ⟨hall, hending⟩ := NumericExpr.tells_parse htells hplaced
      exact Program.holds_eval hall (fun e he => hfails (hending e he)) fun e he =>
        NumericExpr.holds_eval ⟨rfl, rfl, rfl, rfl⟩ rfl rfl he
    | text =>
      show (explaining _ _).Holds (s.evalText formula) (s.evalText formula)
      rw [evalText_eq]
      obtain ⟨hall, hending⟩ := TextExpr.tells_parse htells hplaced
      exact Program.holds_eval hall (fun e he => hfails (hending e he)) fun e he =>
        TextExpr.holds_eval ⟨rfl, rfl, rfl, rfl⟩ rfl rfl he

/-- The argument that is complained about is blamed on the function, but keeps its own place. -/
theorem eval_left_number : ((initial {}).eval .text "left(1, 2)".toList).result =
    .error (((FormulaError.badGrammar 0).saying "unexpected 1".toList).blamedOn "left".toList) := by
  have hresult : ((initial {}).evalText "left(1, 2)".toList).result =
      .error (((FormulaError.badGrammar 0).saying "unexpected 1".toList).blamedOn "left".toList) := by
    decide +kernel
  exact congrArg Run.result (Run.bind_of_error hresult fun t => (return Value.text t : Run Value))

/-- An error that tells of a place tells of one in a text that the formula may read: what it
complains about is found there, counted from where that text begins in the formula. That is the
beginning of the formula only for the formula itself. -/
theorem fault_at_position (kind : ValueKind) (formula : Text) {e : FormulaError} {p : Nat}
    (he : (s.eval kind formula).result = .error e) (hp : e.position? = some p) :
    ∃ o k u, ReachedAt kind (normalize formula) o k u ∧ u <+: (normalize formula).drop o ∧
      FaultAt k u e p ∧ (o = 0 → u = normalize formula ∧ k = kind) := by
  have hambient := s.explained_ambient kind formula
  have hexplained : Explained kind (normalize formula) e := by
    cases kind with
    | number => exact Run.Relation.map (explaining _ _) (g := Value.number) hambient e he
    | text => exact Run.Relation.map (explaining _ _) (g := Value.text) hambient e he
  obtain ⟨o, k, u, hu, hfault⟩ := hexplained p hp
  refine ⟨o, k, u, hu, hu.prefix_drop, hfault, ?_⟩
  rintro rfl
  exact hu.eq_of_zero

theorem fault_at_position_argument :
    ∃ e, ((initial {}).eval .text "left(1, 2)".toList).result = .error e ∧
      e.position? = some 0 ∧ ∃ o k u, ReachedAt .text (normalize "left(1, 2)".toList) o k u ∧
        u <+: (normalize "left(1, 2)".toList).drop o ∧ FaultAt k u e 0 ∧
        (o = 0 → u = normalize "left(1, 2)".toList ∧ k = .text) :=
  ⟨_, eval_left_number, rfl, (initial {}).fault_at_position .text _ eval_left_number rfl⟩

/-- In an argument the place is not one of the formula: here the argument begins with the number
that is complained about, and the formula does not. -/
theorem exists_fault_elsewhere :
    ¬ ∀ (s : Surroundings) (kind : ValueKind) (formula : Text) (e : FormulaError) (p : Nat),
      (s.eval kind formula).result = .error e → e.position? = some p →
        FaultAt kind (normalize formula) e p := by
  intro h
  have hname : Symbol.scan? ((normalize "left(1, 2)".toList).drop 0) =
      some (.token (.name "left".toList), 4) := by rfl
  cases h _ .text _ _ 0 eval_left_number rfl with
  | unexpected hsymbol _ hdetail =>
    obtain ⟨w, hscan⟩ := hsymbol.spelled
    cases hname.symm.trans hscan
    revert hdetail
    decide +kernel
  | missingParen _ hk | literal _ hk | arguments _ _ hk => cases hk

end Surroundings

end FormulaEngine
