import FormulaEngine.Arity
import FormulaEngine.Calendar.DateTime
import FormulaEngine.Host
import FormulaEngine.Tolerance

/-! Functions of the language as values. A function receives its arguments unread, and reads those
that it needs, as numbers or as texts. What an argument is, is left open; in an evaluation it is a
piece of the formula. How many arguments a function takes is the shape of its body, so a body is
never run with too few. -/

namespace FormulaEngine

/-- What an evaluation refers to: the application, the time, the settings, and how an argument is
read as a number or as a text. -/
structure Context (A : Type) where
  host : Host
  now : DateTime
  tolerance : Tolerance
  firstDay : Weekday
  /-- How an argument is written. -/
  source : A → Text
  number : A → Run Float
  text : A → Run Text

namespace Context

def today {A : Type} (c : Context A) : Date := c.now.date

end Context

/-- A function of arguments in `A` with values in `α`. -/
inductive Body (A α : Type) where
  | one (f : Context A → A → Run α)
  | two (f : Context A → A → A → Run α)
  | three (f : Context A → A → A → A → Run α)
  | six (f : Context A → A → A → A → A → A → A → Run α)
  | atLeast (n : Nat) (f : Context A → List A → Run α)

namespace Body

variable {A α : Type}

def arity : Body A α → Arity
  | one _ => .exactly 1
  | two _ => .exactly 2
  | three _ => .exactly 3
  | six _ => .exactly 6
  | atLeast n _ => .atLeast n

/-- Runs a function, if it is given the right number of arguments. -/
def run? : Body A α → Context A → List A → Option (Run α)
  | one f, c, [x] => some (f c x)
  | two f, c, [x, y] => some (f c x y)
  | three f, c, [x, y, z] => some (f c x y z)
  | six f, c, [u, v, w, x, y, z] => some (f c u v w x y z)
  | atLeast n f, c, xs => if n ≤ xs.length then some (f c xs) else none
  | _, _, _ => none

/-- A body runs exactly on the numbers of arguments that its arity accepts. -/
theorem isSome_run? (b : Body A α) (c : Context A) (xs : List A) :
    (b.run? c xs).isSome = b.arity.accepts xs.length := by
  cases b with
  | one f => rcases xs with _ | ⟨_, _ | ⟨_, _⟩⟩ <;> simp [run?, arity, Arity.accepts]
  | two f => rcases xs with _ | ⟨_, _ | ⟨_, _ | ⟨_, _⟩⟩⟩ <;> simp [run?, arity, Arity.accepts]
  | three f =>
    rcases xs with _ | ⟨_, _ | ⟨_, _ | ⟨_, _ | ⟨_, _⟩⟩⟩⟩ <;> simp [run?, arity, Arity.accepts]
  | six f =>
    rcases xs with _ | ⟨_, _ | ⟨_, _ | ⟨_, _ | ⟨_, _ | ⟨_, _ | ⟨_, _ | ⟨_, _⟩⟩⟩⟩⟩⟩⟩ <;>
      simp [run?, arity, Arity.accepts]
  | atLeast n f => simp only [run?, arity, Arity.accepts]; split <;> simp_all

end Body

namespace Run

/-- Runs the same reading over a list, in order, until one fails. -/
def each {α β : Type} (f : α → Run β) : List α → Run (List β)
  | [] => Pure.pure []
  | a :: as => do
    let b ← f a
    let bs ← each f as
    return b :: bs

end Run

end FormulaEngine
