import FormulaEngine.Proofs.Derivability
import FormulaEngine.Proofs.Places
import FormulaEngine.Proofs.WrittenCalls

/-! # Formulas one after the other

A semicolon ends a formula as the end of the text does, and what stands behind it is a formula of
its own. So two formulas with a semicolon between them are parsed as the one and then the other, if
the first one can be parsed, and evaluated as the one and then the other. What stands in front of the
second one moves the places that its errors tell of, and nothing else; it may be malformed. -/

namespace FormulaEngine

open Lexemes (Starts Leads)

/-! ## Programs -/

/-- The program `r` is `p` to its end and then `q`, up to the place of the error that `q` may end
in. -/
structure Program.Sequence {ε : Type} (p q r : Program ε) : Prop where
  steps : ∃ e, p.ending = .ok e ∧ r.steps = p.steps ++ e :: q.steps
  ending : r.ending.mapError FormulaError.unplaced = q.ending.mapError FormulaError.unplaced

namespace Program

variable {ε α : Type} {p q r : Program ε}

/-- What is read behind the first program may differ from the second one in places. -/
theorem sequence_of_alike {call : Text → List Text → List Text → Prop} {R : ε → ε → Prop} {e : ε}
    (hp : p.ending = .ok e) (hq : q.Alike (.places call) R r) (hR : ∀ {e e'}, R e e' → e = e') :
    p.Sequence r { q with steps := p.steps ++ e :: q.steps } := by
  have hsteps : q.steps = r.steps := by
    rw [← List.forall₂_eq_eq_eq]
    exact hq.steps.imp fun _ _ => hR
  refine ⟨⟨e, hp, by rw [hsteps]⟩, ?_⟩
  rcases hq.ending with ⟨e, e', he, he', hrelated⟩ | ⟨e, e', he, he', herror⟩
  · rw [he, he', hR hrelated]
  · rw [he, he']
    exact congrArg Except.error herror

/-- Programs with the same steps and the same ending but for its place have the same runs but for
places. -/
theorem sameButPlace_go (h : p.ending.mapError FormulaError.unplaced =
    q.ending.mapError FormulaError.unplaced) (value : ε → Run α) (es : List ε) :
    (eval.go value p es).SameButPlace (eval.go value q es) := by
  induction es with
  | nil =>
    rw [eval.go, eval.go]
    cases hp : p.ending with
    | ok e =>
      rw [hp] at h
      rw [Run.eq_ok_of_mapError h]
      exact .refl _
    | error e =>
      rw [hp] at h
      obtain ⟨e', hq, he⟩ := Run.exists_of_mapError h
      rw [hq]
      exact .fail he
  | cons e es ih => exact (Run.SameButPlace.refl _).bind fun _ => ih

theorem Sequence.sameButPlace (h : p.Sequence q r) (value : ε → Run α) :
    (r.eval value).SameButPlace (p.eval value >>= fun _ => q.eval value) := by
  obtain ⟨e, he, hsteps⟩ := h.steps
  have steps : ∀ es : List ε, (eval.go value r (es ++ e :: q.steps)).SameButPlace
      (eval.go value p es >>= fun _ => q.eval value) := by
    intro es
    induction es with
    | nil =>
      rw [List.nil_append, eval.go, eval.go, he]
      exact (Run.SameButPlace.refl _).bind fun _ => sameButPlace_go h.ending value q.steps
    | cons e' es ih =>
      rw [List.cons_append, eval.go, eval.go, Run.bind_bind]
      exact (Run.SameButPlace.refl _).bind fun _ => ih
  rw [eval, hsteps]
  exact steps p.steps

end Program

/-! ## Parsing -/

namespace Lexemes

variable {kind : ValueKind} {f : Text} {ps : List Piece} {q : Nat}

theorem unspaced_of_read_finish {p : Nat} {t : Text} (h : read kind p t = finish q) :
    Lexer.unspaced t = [] := by
  revert h
  fun_cases read kind p t with
  | case2 =>
    rename_i hs
    exact fun _ => Symbol.eq_nil_of_scan_finish hs
  | case1 | case3 | case4 | case5 | case6 | case7 | case8 =>
    intro hread
    cases hread

/-- The pieces of a formula remain when a semicolon follows, and behind it the next formula
begins. -/
theorem exists_starts_semicolon (h : Starts (ofText kind f) ps (.finish q)) (g : Text) :
    ∃ p q, Starts (ofText kind (f ++ ';' :: g)) ps (.token p .semicolon (read kind q g)) := by
  obtain ⟨u, p, hleads, hidem, hread⟩ := exists_leads h
  obtain rfl : u = [] := by rw [← hidem, unspaced_of_read_finish hread.symm]
  have hfront : Text.front [] = Text.front (';' :: g) := rfl
  obtain ⟨b, rfl, hb⟩ := hleads.congr hfront (by decide)
  rw [List.append_nil]
  obtain ⟨p, hp⟩ := hb.exists_starts 0
  have hsemicolon : read kind p (';' :: g) = .token p .semicolon (read kind (p + 1) g) :=
    read_token (w := 1) rfl fun _ hk => nomatch hk
  rw [hsemicolon] at hp
  exact ⟨_, _, hp⟩

end Lexemes

namespace Parser

variable {ε δ : Type} {pieces : δ → List Piece} {expr : δ → ε} {expression : Parser ε}

/-- The segments of a derivation are read off, and then those behind the next semicolon. -/
theorem limit_segments_of_starts (hc : Consumes expression)
    (he : ∀ d s s', Starts s (pieces d) s' → (Level.chain .bitwise).Stops s' →
      expression s = .ok (expr d, s')) {d : Segments δ} {s s' : Lexemes} {q : Nat}
    (h : Starts s (d.pieces pieces) (.token q .semicolon s')) :
    limit (segments expression) s =
      { limit (segments expression) s' with
        steps := (d.earlier.map expr) ++ expr d.final :: (limit (segments expression) s').steps } := by
  induction d generalizing s with
  | last d =>
    rw [limit_segments hc, segment, he d s _ h trivial]
    rfl
  | next d ds ih =>
    obtain ⟨t, hd, ht⟩ := h.of_append
    cases ht with
    | token ht =>
      rw [limit_segments hc, segment, he d s _ hd trivial]
      dsimp only
      rw [ih ht]
      rfl

end Parser

namespace NumericExpr

theorem descent_of_starts {d : NumericPhrase (.chain .bitwise)} {s s' : Lexemes}
    (h : Starts s d.pieces s') (hstop : (Level.chain .bitwise).Stops s') :
    descent.level (.chain .bitwise) s = .ok (d.expr, s') := by
  have hle : d.pieces.length ≤ s.size + 1 := by
    rw [h.size_eq]
    omega
  exact complete_expression (s.size + 1) d hle h hstop

/-- A numeric formula behind another one is parsed as it is alone. -/
theorem parse_sequence {f : Text} {e : NumericExpr} (h : (parse f).ending = .ok e) (g : Text) :
    (parse f).Sequence (parse g) (parse (f ++ ';' :: g)) := by
  obtain ⟨d, _, hd, hprogram⟩ := sound_parse h
  obtain ⟨_, q, hstarts⟩ := Lexemes.exists_starts_semicolon hd g
  have hparse := Parser.limit_segments_of_starts (consumes_descent (.chain .bitwise))
    (fun d _ _ => descent_of_starts) hstarts
  have hread : (Lexemes.read .number q g).Alike (.places fun _ xs ys => xs = ys)
      (Lexemes.ofText .number g) := Lexemes.alike_read (fun _ _ => rfl) q 0 g
  have halike := alike_program hread
  rw [parse_eq (f ++ ';' :: g), hparse, hprogram, parse_eq g]
  exact Program.sequence_of_alike rfl halike NumericExpr.Alike.eq

end NumericExpr

namespace TextExpr

theorem descent_of_starts {d : TextPhrase} {s s' : Lexemes} (h : Starts s d.pieces s')
    (hstop : (Level.chain .bitwise).Stops s') : descent.expression s = .ok (d.expr, s') := by
  have hle : d.pieces.length ≤ s.size := by
    rw [h.size_eq]
    omega
  exact complete_expression s.size d hle h (hstop.mono (by decide))

/-- A text formula behind another one is parsed as it is alone. -/
theorem parse_sequence {f : Text} {e : TextExpr} (h : (parse f).ending = .ok e) (g : Text) :
    (parse f).Sequence (parse g) (parse (f ++ ';' :: g)) := by
  obtain ⟨d, _, hd, hprogram⟩ := sound_parse h
  obtain ⟨_, q, hstarts⟩ := Lexemes.exists_starts_semicolon hd g
  have hconsumes : Parser.Consumes descent.expression := Parser.consumes_limit consumes_expression
  have hparse := Parser.limit_segments_of_starts hconsumes (fun d _ _ => descent_of_starts) hstarts
  have hread : (Lexemes.read .text q g).Alike (.places fun _ xs ys => xs = ys)
      (Lexemes.ofText .text g) := Lexemes.alike_read (fun _ _ => rfl) q 0 g
  have halike := alike_program hread
  rw [parse_eq (f ++ ';' :: g), hparse, hprogram, parse_eq g]
  exact Program.sequence_of_alike rfl halike TextExpr.Alike.eq

end TextExpr

/-! ## Evaluation -/

/-- Two formulas that are normalized are one with a semicolon between them. -/
theorem normalize_semicolon {f g : Text} (hf : normalize f = f) (hg : normalize g = g) :
    normalize (f ++ ';' :: g) = f ++ ';' :: g := by
  have htrimmed : ∀ {t : Text}, normalize t = t → Text.trim t = t := by
    intro t ht
    rw [← ht, Text.trim_normalize]
  have htight : Text.Tight (f ++ ';' :: g) := by
    constructor
    · by_cases hne : f = []
      · exact ⟨';', by rw [hne]; rfl, by decide⟩
      · have htight := Text.tight_trim (by rwa [htrimmed hf])
        rw [htrimmed hf] at htight
        obtain ⟨⟨c, hc, hblank⟩, -⟩ := htight
        exact ⟨c, by rw [List.head?_append, hc]; rfl, hblank⟩
    · by_cases hne : g = []
      · exact ⟨';', by rw [hne, List.getLast?_concat], by decide⟩
      · have htight := Text.tight_trim (by rwa [htrimmed hg])
        rw [htrimmed hg] at htight
        obtain ⟨-, c, hc, hblank⟩ := htight
        refine ⟨c, ?_, hblank⟩
        rw [List.getLast?_append, List.getLast?_cons, hc]
        rfl
  have hunbroken : (f ++ [';'] ++ g).Unbroken := by
    have hsemicolon : Text.Unbroken [';'] := by decide
    rw [← hf, ← hg]
    exact ((unbroken_normalize f).append hsemicolon).append (unbroken_normalize g)
  rw [List.append_assoc, List.singleton_append] at hunbroken
  exact normalize_eq_self htight.trim_eq hunbroken

namespace Surroundings

variable (s : Surroundings) {f g : Text}

/-- Whatever has a value goes on behind a semicolon. -/
theorem sameButPlace_semicolon (hf : normalize f = f) (hg : normalize g = g) {kind : ValueKind}
    {v : Value} (h : (s.eval kind f).result = .ok v) :
    (s.eval kind (f ++ ';' :: g)).SameButPlace (s.eval kind f >>= fun _ => s.eval kind g) := by
  have heq := normalize_semicolon hf hg
  cases kind with
  | number =>
    have hrun : (s.evalNumber (f ++ ';' :: g)).SameButPlace
        (s.evalNumber f >>= fun _ => s.evalNumber g) := by
      obtain ⟨_, hv, -⟩ := Run.exists_of_bind h
      rw [evalNumber_eq, hf] at hv
      obtain ⟨e, he⟩ := Program.exists_ending hv
      rw [evalNumber_eq, evalNumber_eq, evalNumber_eq, heq, hf, hg]
      exact (NumericExpr.parse_sequence he g).sameButPlace _
    exact hrun.map_sequence Value.number
  | text =>
    have hrun : (s.evalText (f ++ ';' :: g)).SameButPlace
        (s.evalText f >>= fun _ => s.evalText g) := by
      obtain ⟨_, hv, -⟩ := Run.exists_of_bind h
      rw [evalText_eq, hf] at hv
      obtain ⟨e, he⟩ := Program.exists_ending hv
      rw [evalText_eq, evalText_eq, evalText_eq, heq, hf, hg]
      exact (TextExpr.parse_sequence he g).sameButPlace _
    exact hrun.map_sequence Value.text

/-- A semicolon puts formulas one after the other. If the first one can be parsed, its expressions
are parsed as they are without the second one, and those of the second one as they are without the
first. If the first one has a value, both together ask what the first one asks and then what the
second one asks, and give the value of the second one or its error, where only the place may be
another. The second one may be any text. -/
theorem semicolon_result (hf : normalize f = f) (hg : normalize g = g) :
    (∀ e, (NumericExpr.parse f).ending = .ok e →
      (NumericExpr.parse f).Sequence (NumericExpr.parse g) (NumericExpr.parse (f ++ ';' :: g))) ∧
    (∀ e, (TextExpr.parse f).ending = .ok e →
      (TextExpr.parse f).Sequence (TextExpr.parse g) (TextExpr.parse (f ++ ';' :: g))) ∧
    ∀ kind v, (s.eval kind f).result = .ok v →
      (s.eval kind (f ++ ';' :: g)).trace = (s.eval kind f).trace ++ (s.eval kind g).trace ∧
      (s.eval kind (f ++ ';' :: g)).result.mapError FormulaError.unplaced =
        (s.eval kind g).result.mapError FormulaError.unplaced := by
  refine ⟨fun _ he => NumericExpr.parse_sequence he g, fun _ he => TextExpr.parse_sequence he g,
    fun kind v hv => ?_⟩
  have hsame := s.sameButPlace_semicolon hf hg hv
  rw [Run.bind_of_ok hv] at hsame
  exact ⟨hsame.trace, hsame.result⟩

/-- What follows the semicolon may be a literal that is not closed. -/
theorem semicolon_result_openString :
    let s := initial { text := fun _ => some "a".toList }
    (s.eval .text "x".toList).result = .ok (.text "a".toList) ∧
      (s.eval .text "x;'b".toList).trace = [.text "x".toList] ++ (s.eval .text "'b".toList).trace ∧
      (s.eval .text "x;'b".toList).result.mapError FormulaError.unplaced =
        (s.eval .text "'b".toList).result.mapError FormulaError.unplaced := by
  intro s
  have hread : Lexemes.ofText .text (normalize "x".toList) =
      .token 0 (.name "x".toList) (.finish 1) := by
    rw [show normalize "x".toList = "x".toList by decide, Lexemes.ofText,
      Lexemes.read_token (w := 1) (k := .name "x".toList) (by rfl) (fun _ _ => by decide),
      Lexemes.read_finish (w := 0) (by rfl)]
    rfl
  have hname : s.evalText "x".toList = .ask (.text "x".toList) (some "a".toList) := by
    rw [evalText_of_starts (d := .last (.chain (.name "x".toList) .stop)) (q := 1)]
    · rfl
    · rw [hread]
      exact .token .nil
  have heval : s.eval .text "x".toList = ⟨[.text "x".toList], .ok (.text "a".toList)⟩ := by
    rw [eval, hname]
    rfl
  have hvalue : (s.eval .text "x".toList).result = .ok (.text "a".toList) := by rw [heval]
  obtain ⟨-, -, hboth⟩ := s.semicolon_result (f := "x".toList) (g := "'b".toList) (by decide)
    (by decide)
  obtain ⟨htrace, hresult⟩ := hboth .text _ hvalue
  rw [heval] at htrace
  exact ⟨hvalue, htrace, hresult⟩

end Surroundings

end FormulaEngine
