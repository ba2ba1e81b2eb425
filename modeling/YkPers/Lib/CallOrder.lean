import Mathlib.Data.List.Basic

/-!
# The order of calls

A library is used in order if its protocol, a partial automaton over the calls, follows them
through (`follows`). `noted` is a call of the library that is written into a log too.
-/

universe u

variable {Q C τ α : Type u}

/-- Where the calls lead from `q`, if each may be made. -/
def follows (step : Q → C → Option Q) (q : Q) (cs : List C) : Option Q := cs.foldlM step q

/-- A call of the library, with the log of its calls behind its state. -/
def noted (f : τ → α × τ) (call : α → C) (s : τ × List C) : α × (τ × List C) :=
  ((f s.1).1, (f s.1).2, s.2 ++ [call (f s.1).1])

/-- A call that returns nothing. -/
def notedUnit (f : τ → τ) (call : C) (s : τ × List C) : τ × List C := (f s.1, s.2 ++ [call])

section

variable {step : Q → C → Option Q} {q p : Q} {cs ds : List C}

theorem follows_append : follows step q (cs ++ ds) = (follows step q cs).bind (follows step · ds) :=
  List.foldlM_append

theorem follows_concat {c : C} {r : Q} (h : follows step q cs = some p) (hc : step p c = some r) :
    follows step q (cs ++ [c]) = some r := by
  rw [follows_append, h]
  simp [follows, hc]

end
