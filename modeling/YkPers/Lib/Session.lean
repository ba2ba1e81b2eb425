import YkPers.Lib.Proc

/-!
# Sessions of calls

An abstract machine answers each call from its state; `answers` and `after` are those of a list of
calls. A procedure for each call refines the machine if it keeps a relation between the states and
gives the same answer (`Refines`), and then it does so over every list of calls.
-/

universe u

namespace Session

variable {S T C A B : Type u}

section Machine

variable (step : T → C → A × T)

def answers : T → List C → List A
  | _, [] => []
  | t, c :: cs => (step t c).1 :: answers (step t c).2 cs

def after (t : T) (cs : List C) : T := cs.foldl (fun t c => (step t c).2) t

@[simp] theorem answers_nil (t : T) : answers step t [] = [] := rfl

@[simp] theorem answers_cons (t : T) (c : C) (cs : List C) :
    answers step t (c :: cs) = (step t c).1 :: answers step (step t c).2 cs := rfl

@[simp] theorem after_nil (t : T) : after step t [] = t := rfl

@[simp] theorem after_cons (t : T) (c : C) (cs : List C) :
    after step t (c :: cs) = after step (step t c).2 cs := rfl

end Machine

/-- The calls one after the other, and what they return. -/
def run (call : C → Proc S A) : List C → Proc S (List A)
  | [] => pure []
  | c :: cs => do
    let a ← call c
    let as ← run call cs
    pure (a :: as)

/-- From related states each call returns the answer of the machine, and leaves related states. -/
def Refines (step : T → C → A × T) (call : C → Proc S A) (R : T → S → Prop) : Prop :=
  ∀ t s c, R t s → ∃ s', call c s = (.ok (step t c).1, s') ∧ R (step t c).2 s'

theorem Refines.run {step : T → C → A × T} {call : C → Proc S A} {R : T → S → Prop}
    (h : Refines step call R) : ∀ {t : T} {s : S} (cs : List C), R t s →
      ∃ s', run call cs s = (.ok (answers step t cs), s') ∧ R (after step t cs) s'
  | t, s, [], hR => ⟨s, rfl, hR⟩
  | t, s, c :: cs, hR => by
    obtain ⟨s₁, hcall, hR₁⟩ := h t s c hR
    obtain ⟨s₂, hrun, hR₂⟩ := h.run cs hR₁
    refine ⟨s₂, ?_, hR₂⟩
    rw [Session.run, Proc.bind_ok hcall, Proc.bind_ok hrun]
    rfl

end Session
