import YkPers.Lib.Proc

/-!
# Preconditions and postconditions

`Triple P x Q E F` says of every run of `x` from a state that satisfies `P` where it ends: in `Q a`
if it returns `a`, in `E` if it returns its error value, and in `F` if it does neither.
-/

universe u

namespace Proc

variable {S α β : Type u}

/-- What a run that ended satisfies. -/
def Ended (Q : α → S → Prop) (E F : S → Prop) : Ret α × S → Prop
  | (.ok a, s) => Q a s
  | (.fail, s) => E s
  | (.fault, s) => F s
  | (.diverge, s) => F s

def Triple (P : S → Prop) (x : Proc S α) (Q : α → S → Prop) (E F : S → Prop) : Prop :=
  ∀ s, P s → Ended Q E F (x s)

section Ended

variable {Q : α → S → Prop} {E F G : S → Prop} {p : Ret α × S}

theorem Ended.of_ok (h : Ended Q E F p) {a : α} (ha : p.1 = .ok a) : Q a p.2 := by
  obtain ⟨r, s⟩ := p
  cases ha
  exact h

theorem Ended.any (h : Ended Q E F p) (hq : ∀ a s, Q a s → G s) (he : ∀ s, E s → G s)
    (hf : ∀ s, F s → G s) : G p.2 := by
  obtain ⟨_ | _ | _ | _, s⟩ := p
  · exact hq _ _ h
  · exact he _ h
  · exact hf _ h
  · exact hf _ h

end Ended

/-- For what `attempt` returns. -/
def OrElse (Q : α → S → Prop) (E : S → Prop) : Option α → S → Prop
  | some a => Q a
  | none => E

namespace Triple

variable {P P' A E E' F I : S → Prop} {Q Q' : α → S → Prop} {R : β → S → Prop}

theorem run {x : Proc S α} (hx : Triple P x Q E F) {s : S} (hs : P s) : Ended Q E F (x s) := hx s hs

protected theorem pure {a : α} (h : ∀ s, P s → Q a s) : Triple P (pure a) Q E F := h

protected theorem fail (h : ∀ s, P s → E s) : Triple P (Proc.fail : Proc S α) Q E F := h

protected theorem modify {f : S → S} {Q : PUnit → S → Prop} (h : ∀ s, P s → Q ⟨⟩ (f s)) :
    Triple P (Proc.modify f) Q E F := h

protected theorem bind {x : Proc S α} {f : α → Proc S β} (hx : Triple P x Q E F)
    (hf : ∀ a, Triple (Q a) (f a) R E F) : Triple P (x >>= f) R E F := by
  intro s hs
  have h := hx s hs
  rcases hr : x s with ⟨r, t⟩
  rw [hr] at h
  cases r with
  | ok a =>
    rw [bind_ok hr]
    exact hf a t h
  | fail => rwa [bind_fail hr]
  | fault => rwa [bind_fault hr]
  | diverge => rwa [bind_diverge hr]

theorem get_bind {f : S → Proc S α} (h : ∀ t, Triple (fun s => s = t ∧ P s) (f t) Q E F) :
    Triple P (Proc.get >>= f) Q E F := fun s hs => h s s ⟨rfl, hs⟩

protected theorem ite {c : Prop} [Decidable c] {x y : Proc S α}
    (hx : c → Triple P x Q E F) (hy : ¬ c → Triple P y Q E F) :
    Triple P (if c then x else y) Q E F := by
  split_ifs with h
  · exact hx h
  · exact hy h

protected theorem attempt {D : S → Prop} {x : Proc S α} (hx : Triple P x Q E F) :
    Triple P (attempt x) (OrElse Q E) D F := by
  intro s hs
  have h := hx s hs
  rcases hr : x s with ⟨_ | _ | _ | _, t⟩ <;> rw [hr] at h
  · rwa [attempt_ok hr]
  · rwa [attempt_fail hr]
  · rwa [attempt_fault hr]
  · rwa [attempt_diverge hr]

/-- As `Triple.attempt`, where it makes no difference whether `x` fails. -/
theorem attempt_same {x : Proc S α} (hx : Triple P x (fun _ => A) A F) :
    Triple P (Proc.attempt x) (fun _ => A) E F := by
  intro s hs
  have h := hx s hs
  rcases hr : x s with ⟨_ | _ | _ | _, t⟩ <;> rw [hr] at h
  · rwa [attempt_ok hr]
  · rwa [attempt_fail hr]
  · rwa [attempt_fault hr]
  · rwa [attempt_diverge hr]

theorem conseq {F' : S → Prop} {x : Proc S α} (hx : Triple P' x Q' E' F') (hp : ∀ s, P s → P' s)
    (hq : ∀ a s, Q' a s → Q a s) (he : ∀ s, E' s → E s) (hf : ∀ s, F' s → F s) :
    Triple P x Q E F := by
  intro s hs
  have h := hx s (hp s hs)
  rcases hr : x s with ⟨_ | _ | _ | _, t⟩ <;> rw [hr] at h
  · exact hq _ _ h
  · exact he _ h
  · exact hf _ h
  · exact hf _ h

theorem mono {F' : S → Prop} {x : Proc S α} (hx : Triple P x Q E' F') (he : ∀ s, E' s → E s)
    (hf : ∀ s, F' s → F s) : Triple P x Q E F := hx.conseq (fun _ h => h) (fun _ _ h => h) he hf

/-- An invariant is all that there is to say, however the run ends. -/
theorem of_keeps {x : Proc S α} (h : ∀ s, I s → I (x s).2) : Triple I x (fun _ => I) I I := by
  intro s hs
  have h := h s hs
  rcases hr : x s with ⟨_ | _ | _ | _, t⟩ <;> rw [hr] at h <;> exact h

end Triple

end Proc
