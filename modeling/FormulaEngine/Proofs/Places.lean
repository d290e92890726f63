import FormulaEngine.Proofs.Likeness
import FormulaEngine.Proofs.Lookahead
import FormulaEngine.Proofs.Runs

/-! # Places apart

What stands in front of a part of a formula moves the places that errors tell of, and nothing else.
Runs can be the same but for the places in their errors; formulas whose pieces are the same from
somewhere on have the same expressions from there on, and end in the same error but for its place. -/

namespace FormulaEngine

/-- The error without its place in a formula. -/
def FormulaError.unplaced (e : FormulaError) : FormulaError := { e with position? := none }

theorem FormulaError.unplaced_blamedOn (e : FormulaError) (name : Text) :
    (e.blamedOn name).unplaced = e.unplaced.blamedOn name := rfl

namespace Run

variable {α β : Type}

/-- The same questions, and the same value or the same error but for its place. -/
structure SameButPlace (r r' : Run α) : Prop where
  trace : r.trace = r'.trace
  result : r.result.mapError FormulaError.unplaced = r'.result.mapError FormulaError.unplaced

namespace SameButPlace

variable {r r' : Run α}

theorem refl (r : Run α) : r.SameButPlace r := ⟨rfl, rfl⟩

theorem ok (h : r.SameButPlace r') {a : α} (ha : r.result = .ok a) : r'.result = .ok a := by
  have hresult := h.result
  rw [ha] at hresult
  exact eq_ok_of_mapError hresult

theorem error (h : r.SameButPlace r') {e : FormulaError} (he : r.result = .error e) :
    ∃ e', r'.result = .error e' ∧ e.unplaced = e'.unplaced := by
  have hresult := h.result
  rw [he] at hresult
  exact exists_of_mapError hresult

theorem fail {e e' : FormulaError} (h : e.unplaced = e'.unplaced) :
    (Run.fail e : Run α).SameButPlace (.fail e') :=
  ⟨rfl, congrArg Except.error h⟩

theorem bind (h : r.SameButPlace r') {f f' : α → Run β} (hf : ∀ a, (f a).SameButPlace (f' a)) :
    (r >>= f).SameButPlace (r' >>= f') := by
  cases hr : r.result with
  | ok a =>
    rw [bind_of_ok hr, bind_of_ok (h.ok hr)]
    exact ⟨by rw [h.trace, (hf a).trace], (hf a).result⟩
  | error e =>
    obtain ⟨e', hr', he⟩ := h.error hr
    rw [bind_of_error hr, bind_of_error hr']
    exact ⟨h.trace, congrArg Except.error he⟩

/-- What is made of the value of the last run is made of the value of both together. -/
theorem map_sequence {p q : Run α} (h : r.SameButPlace (p >>= fun _ => q)) (f : α → β) :
    (r >>= fun a => Pure.pure (f a)).SameButPlace
      ((p >>= fun a => Pure.pure (f a)) >>= fun _ => q >>= fun a => Pure.pure (f a)) := by
  have hmap := h.bind fun a => refl (Pure.pure (f a) : Run β)
  rw [bind_bind] at hmap
  rw [bind_bind]
  exact hmap

theorem blamedOn (h : r.SameButPlace r') (name : Text) :
    (r.blamedOn name).SameButPlace (r'.blamedOn name) := by
  refine ⟨h.trace, ?_⟩
  rw [result_blamedOn, result_blamedOn]
  cases hr : r.result with
  | ok a => rw [h.ok hr]
  | error e =>
    obtain ⟨e', hr', he⟩ := h.error hr
    rw [hr']
    show Except.error (e.blamedOn name).unplaced = Except.error (e'.blamedOn name).unplaced
    rw [FormulaError.unplaced_blamedOn, FormulaError.unplaced_blamedOn, he]

end SameButPlace

/-- Being the same but for places in errors. -/
def Relation.upToPlace : Run.Relation where
  Holds := SameButPlace
  Allows _ _ := True
  ask _ _ := .refl _
  ofExcept _ := .refl _
  bind h hf := h.bind hf
  blamedOn name h := h.blamedOn name

end Run

/-! ## Formulas -/

theorem Token.Alike.eq {k k' : Token} (h : k.Alike Eq k') : k = k' := by
  cases h with
  | name h => rw [h]
  | openParen | closeParen | semicolon | numeral | string | operator => rfl

theorem Token.Alike.refl (k : Token) : k.Alike Eq k := by
  cases k with
  | openParen => exact .openParen
  | closeParen => exact .closeParen
  | semicolon => exact .semicolon
  | numeral n => exact .numeral n
  | string content => exact .string content
  | name n => exact .name rfl
  | operator o => exact .operator o

theorem Symbol.Alike.eq {k k' : Symbol} (h : k.Alike Eq k') : k = k' := by
  cases h with
  | token h => rw [h.eq]
  | finish | invalid => rfl

/-- Places may differ, and calls of the same function in a way that is given. -/
def Likeness.places (call : Text → List Text → List Text → Prop) : Likeness where
  place _ _ := True
  name := Eq
  call n xs n' ys := n = n' ∧ call n xs ys
  error e e' := e.unplaced = e'.unplaced
  badGrammar message _ hk := by
    rw [hk.eq]
    rfl
  functionFailure message _ hn hk := by
    rw [hn, hk.eq]
    rfl

namespace Lexemes

variable {call : Text → List Text → List Text → Prop} (hcall : ∀ n xs, call n xs xs)
  {kind : ValueKind}

include hcall

/-- The same text has the same pieces wherever it stands. -/
theorem alike_read (p p' : Nat) (t : Text) :
    (read kind p t).Alike (.places call) (read kind p' t) := by
  fun_induction read kind p t generalizing p' with
  | case1 p t =>
    rename_i hs
    rw [read_openString hs]
    exact .openString rfl
  | case2 p t =>
    rename_i hs
    rw [read_finish hs]
    exact .finish trivial
  | case3 p t =>
    rename_i hs
    rw [read_invalid hs]
    exact .invalid trivial
  | case4 p t start body name w hs behind inside hb inner f =>
    rename_i hf ih
    rw [read_apply hs hb hf]
    exact .apply f trivial rfl (ih _)
  | case5 p t start body name w hs behind inside hb inner hf u =>
    rename_i ha
    rw [read_openCall hs hb hf ha]
    refine .openCall trivial rfl ?_
    cases u <;> rfl
  | case6 p t start body name w hs behind inside hb inner hf arguments taken =>
    rename_i ha ih
    rw [read_call hs hb hf ha]
    exact .call trivial rfl ⟨rfl, hcall _ _⟩ (ih _)
  | case7 p t start body name w hs behind =>
    rename_i hb ih
    rw [read_token hs fun n hn hhead => ?_]
    · exact .token trivial (.name rfl) (ih _)
    · obtain ⟨inside, hinside⟩ := List.head?_eq_some_iff.mp hhead
      exact hb inside hinside
  | case8 p t start body k w hname hs =>
    rename_i ih
    rw [read_token hs fun n hk => absurd hk (hname n)]
    exact .token trivial (.refl k) (ih _)

/-- The same pieces in front of alike lexemes. -/
theorem Starts.alike {s s' u u' : Lexemes} {ps : List Piece} (h : Starts s ps u)
    (h' : Starts s' ps u') (hu : u.Alike (.places call) u') : s.Alike (.places call) s' := by
  induction h generalizing s' with
  | nil =>
    cases h'
    exact hu
  | token _ ih =>
    cases h' with
    | token h' => exact .token trivial (.refl _) (ih h' hu)
  | call _ ih =>
    cases h' with
    | call h' => exact .call trivial rfl ⟨rfl, hcall _ _⟩ (ih h' hu)
  | apply _ ih =>
    cases h' with
    | apply h' => exact .apply _ trivial rfl (ih h' hu)

end Lexemes

/-- Expressions that may only differ in places do not differ. -/
theorem NumericExpr.Alike.eq {e e' : NumericExpr}
    (h : e.Alike (.places fun _ xs ys => xs = ys) e') : e = e' := by
  induction h with
  | literal n => rfl
  | name h => rw [h]
  | signed o _ ih | apply f _ ih => rw [ih]
  | binary o _ _ iha ihb => rw [iha, ihb]
  | call h => rw [h.1, h.2]

@[inherit_doc NumericExpr.Alike.eq]
theorem TextExpr.Alike.eq {e e' : TextExpr}
    (h : e.Alike (.places fun _ xs ys => xs = ys) e') : e = e' := by
  induction h with
  | literal content => rfl
  | name h => rw [h]
  | append _ _ iha ihb => rw [iha, ihb]
  | call h => rw [h.1, h.2]

end FormulaEngine
