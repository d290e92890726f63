import FormulaEngine.Proofs.Likeness
import FormulaEngine.Proofs.Recasing.Lexemes

/-! # Programs of a formula in another case

Parsing looks at no names. So a formula whose letters outside quotes are lowered has the program of
the formula, but for the case of names and of the arguments of calls. Errors show names in their
messages; what remains the same is their kind and position. -/

namespace FormulaEngine

open Text (foldUnquoted)

/-- What an error is apart from names and messages. -/
def FormulaError.outline (e : FormulaError) : ErrorKind × Option Nat := (e.kind, e.position?)

/-- Names may be in lower case, and the arguments of calls in lower case outside quotes. Each of the
calls satisfies `P`. -/
def Likeness.recased (P : Piece → Prop) : Likeness where
  place := Eq
  name n n' := n' = Text.foldCase n
  call n xs n' ys := n' = Text.foldCase n ∧ ys = xs.map foldUnquoted ∧ P (.call n xs)
  error e e' := e.outline = e'.outline
  badGrammar _ hp _ := by
    rw [hp]
    rfl
  functionFailure _ hp _ _ := by
    rw [hp]
    rfl

theorem Token.alike_foldCase (k : Token) :
    k.Alike (fun n n' => n' = Text.foldCase n) k.foldCase := by
  cases k with
  | openParen => exact .openParen
  | closeParen => exact .closeParen
  | semicolon => exact .semicolon
  | numeral n => exact .numeral n
  | string content => exact .string content
  | name n => exact .name rfl
  | operator o => exact .operator o

namespace Lexemes

variable {P : Piece → Prop}

theorem alike_foldCase {s : Lexemes} (h : s.All P) : s.Alike (.recased P) s.foldCase := by
  induction s with
  | finish p => exact .finish rfl
  | invalid p => exact .invalid rfl
  | openString e => exact .openString rfl
  | openCall p n e => exact .openCall rfl rfl rfl
  | token p k rest ih => exact .token rfl k.alike_foldCase (ih h.2)
  | call p n arguments rest ih => exact .call rfl rfl ⟨rfl, rfl, h.1⟩ (ih h.2)
  | apply p n f rest ih => exact .apply f rfl rfl (ih h.2)

theorem alike_foldUnquoted {kind : ValueKind} {t : Text} (ht : '"' ∉ t)
    (h : (ofText kind t).All P) :
    (ofText kind t).Alike (.recased P) (ofText kind (foldUnquoted t)) := by
  have hread := alike_foldCase h
  rwa [ofText, ← read_foldUnquoted kind 0 ht] at hread

end Lexemes

end FormulaEngine
