import YkPers.Lib.Proc

/-!
# Two procedures side by side

`Sim R x y` says of procedures over two kinds of state that from states related by `R` they end in
the same way, in states that `R` relates again. What a state must satisfy to be related to itself
is then an invariant of one procedure (`Sim.keeps`). `SimUnless R G H x y` says so except where one
of the two fails for a reason of its own, which `G` and `H` tell by the state it leaves.
-/

universe u

namespace Proc

variable {S : Type u} {T : Type u} {S' T' α β : Type u}

/-- Something that is said of two procedures. -/
abbrev Rel (S T : Type u) := ∀ ⦃α : Type u⦄, Proc S α → Proc T α → Prop

/-- Something that is said of one procedure. -/
abbrev Alone (Q : ∀ {α : Type u}, Proc S α → Prop) : Rel S S := fun ⦃_⦄ x _ => Q x

theorem Rel.ite (P : Rel S T) {c : Prop} [Decidable c] {x x' : Proc S α} {y y' : Proc T α}
    (hx : P x y) (hx' : P x' y') : P (if c then x else x') (if c then y else y') := by
  split_ifs
  · exact hx
  · exact hx'

def Sim (R : S → T → Prop) (x : Proc S α) (y : Proc T α) : Prop :=
  ∀ s t, R s t → (x s).1 = (y t).1 ∧ R (x s).2 (y t).2

namespace Sim

variable {R : S → T → Prop}

protected theorem pure (a : α) : Sim R (pure a) (pure a) := fun _ _ h => ⟨rfl, h⟩

protected theorem fail : Sim R (Proc.fail : Proc S α) Proc.fail := fun _ _ h => ⟨rfl, h⟩

protected theorem fault : Sim R (Proc.fault : Proc S α) Proc.fault := fun _ _ h => ⟨rfl, h⟩

protected theorem diverge : Sim R (Proc.diverge : Proc S α) Proc.diverge := fun _ _ h => ⟨rfl, h⟩

protected theorem modify {f : S → S} {g : T → T} (h : ∀ s t, R s t → R (f s) (g t)) :
    Sim R (Proc.modify f) (Proc.modify g) := fun s t hr => ⟨rfl, h s t hr⟩

protected theorem bind {x : Proc S α} {y : Proc T α} {f : α → Proc S β} {g : α → Proc T β}
    (hx : Sim R x y) (hf : ∀ a, Sim R (f a) (g a)) : Sim R (x >>= f) (y >>= g) := by
  intro s t hr
  obtain ⟨h1, h2⟩ := hx s t hr
  rcases hxs : x s with ⟨r, s'⟩
  rcases hyt : y t with ⟨q, t'⟩
  rw [hxs, hyt] at h1 h2
  obtain rfl : r = q := h1
  cases r with
  | ok a =>
    rw [bind_ok hxs, bind_ok hyt]
    exact hf a s' t' h2
  | fail =>
    rw [bind_fail hxs, bind_fail hyt]
    exact ⟨rfl, h2⟩
  | fault =>
    rw [bind_fault hxs, bind_fault hyt]
    exact ⟨rfl, h2⟩
  | diverge =>
    rw [bind_diverge hxs, bind_diverge hyt]
    exact ⟨rfl, h2⟩

/-- As `Sim.bind`, where the caller looks at whether there is a value. -/
theorem bind_option {x : Proc S (Option α)} {y : Proc T (Option α)} {f : Option α → Proc S β}
    {g : Option α → Proc T β} (hx : Sim R x y) (hsome : ∀ a, Sim R (f (some a)) (g (some a)))
    (hnone : Sim R (f none) (g none)) : Sim R (x >>= f) (y >>= g) := by
  refine hx.bind fun r => ?_
  cases r with
  | some a => exact hsome a
  | none => exact hnone

theorem get_bind {f : S → Proc S β} {g : T → Proc T β}
    (h : ∀ s t, R s t → Sim R (f s) (g t)) : Sim R (Proc.get >>= f) (Proc.get >>= g) :=
  fun s t hr => h s t hr s t hr

protected theorem ite {c : Prop} [Decidable c] {x x' : Proc S α} {y y' : Proc T α}
    (hx : Sim R x y) (hx' : Sim R x' y') : Sim R (if c then x else x') (if c then y else y') := by
  split_ifs
  · exact hx
  · exact hx'

protected theorem attempt {x : Proc S α} {y : Proc T α} (hx : Sim R x y) :
    Sim R (attempt x) (attempt y) := by
  intro s t hr
  obtain ⟨h1, h2⟩ := hx s t hr
  rw [attempt_state, attempt_state]
  refine ⟨?_, h2⟩
  unfold attempt
  rcases hxs : x s with ⟨r, s'⟩
  rcases hyt : y t with ⟨q, t'⟩
  rw [hxs, hyt] at h1
  obtain rfl : r = q := h1
  cases r <;> rfl

/-- The parts that two procedures run on are related by `Q`. -/
protected theorem zoom {Q : S' → T' → Prop} {sel : S → S'} {put : S' → S → S} {sel' : T → T'}
    {put' : T' → T → T} {x : Proc S' α} {y : Proc T' α} (hx : Sim Q x y)
    (hsel : ∀ s t, R s t → Q (sel s) (sel' t))
    (hput : ∀ s t a b, R s t → Q a b → R (put a s) (put' b t)) :
    Sim R (zoom sel put x) (zoom sel' put' y) := by
  intro s t hr
  obtain ⟨h1, h2⟩ := hx _ _ (hsel s t hr)
  exact ⟨h1, hput s t _ _ hr h2⟩

/-- A procedure runs on a part that the two states share. -/
protected theorem refl (x : Proc S α) : Sim Eq x x := by
  rintro s _ rfl
  exact ⟨rfl, rfl⟩

/-- Where the states related to themselves are those that satisfy `I`, this is an invariant. -/
theorem keeps {R : S → S → Prop} {I : S → Prop} {x : Proc S α} (hx : Sim R x x)
    (hself : ∀ s, I s → R s s) (hleft : ∀ s t, R s t → I s) {s : S} (hs : I s) : I (x s).2 :=
  hleft _ _ (hx s s (hself s hs)).2

end Sim

theorem bind_assoc {γ : Type u} (x : Proc S α) (f : α → Proc S β) (g : β → Proc S γ) :
    x >>= f >>= g = x >>= fun a => f a >>= g := by
  funext s
  rcases hx : x s with ⟨_ | _ | _ | _, s'⟩
  · rw [bind_ok hx]
    show Proc.bind (x >>= f) g s = Proc.bind (f _) g s'
    rw [Proc.bind, bind_ok hx, Proc.bind]
  · rw [bind_fail hx, bind_fail (bind_fail hx)]
  · rw [bind_fault hx, bind_fault (bind_fault hx)]
  · rw [bind_diverge hx, bind_diverge (bind_diverge hx)]

def SimUnless (R : S → T → Prop) (G : S → Prop) (H : T → Prop) (x : Proc S α) (y : Proc T α) :
    Prop :=
  ∀ s t, R s t → ((x s).1 = (y t).1 ∧ R (x s).2 (y t).2)
    ∨ ((x s).1 = .fail ∧ G (x s).2) ∨ ((y t).1 = .fail ∧ H (y t).2)

namespace SimUnless

variable {R : S → T → Prop} {G : S → Prop} {H : T → Prop}

theorem of_sim {x : Proc S α} {y : Proc T α} (h : Sim R x y) : SimUnless R G H x y :=
  fun s t hr => .inl (h s t hr)

protected theorem bind {x : Proc S α} {y : Proc T α} {f : α → Proc S β} {g : α → Proc T β}
    (hx : SimUnless R G H x y) (hf : ∀ a, SimUnless R G H (f a) (g a)) :
    SimUnless R G H (x >>= f) (y >>= g) := by
  intro s t hr
  rcases hxs : x s with ⟨r, s'⟩
  rcases hyt : y t with ⟨q, t'⟩
  have h := hx s t hr
  rw [hxs, hyt] at h
  obtain ⟨h1, h2⟩ | ⟨h1, h2⟩ | ⟨h1, h2⟩ := h
  · obtain rfl : r = q := h1
    cases r with
    | ok a =>
      rw [bind_ok hxs, bind_ok hyt]
      exact hf a s' t' h2
    | fail =>
      rw [bind_fail hxs, bind_fail hyt]
      exact .inl ⟨rfl, h2⟩
    | fault =>
      rw [bind_fault hxs, bind_fault hyt]
      exact .inl ⟨rfl, h2⟩
    | diverge =>
      rw [bind_diverge hxs, bind_diverge hyt]
      exact .inl ⟨rfl, h2⟩
  · obtain rfl : r = .fail := h1
    rw [bind_fail hxs]
    exact .inr (.inl ⟨rfl, h2⟩)
  · obtain rfl : q = .fail := h1
    rw [bind_fail hyt]
    exact .inr (.inr ⟨rfl, h2⟩)

theorem get_bind {f : S → Proc S β} {g : T → Proc T β}
    (h : ∀ s t, R s t → SimUnless R G H (f s) (g t)) :
    SimUnless R G H (Proc.get >>= f) (Proc.get >>= g) := fun s t hr => h s t hr s t hr

protected theorem ite {c : Prop} [Decidable c] {x x' : Proc S α} {y y' : Proc T α}
    (hx : SimUnless R G H x y) (hx' : SimUnless R G H x' y') :
    SimUnless R G H (if c then x else x') (if c then y else y') := by
  split_ifs
  · exact hx
  · exact hx'

protected theorem zoom {Q : S' → T' → Prop} {G' : S' → Prop} {H' : T' → Prop} {sel : S → S'}
    {put : S' → S → S} {sel' : T → T'} {put' : T' → T → T} {x : Proc S' α} {y : Proc T' α}
    (hx : SimUnless Q G' H' x y) (hsel : ∀ s t, R s t → Q (sel s) (sel' t))
    (hput : ∀ s t a b, R s t → Q a b → R (put a s) (put' b t)) (hG : ∀ s a, G' a → G (put a s))
    (hH : ∀ t b, H' b → H (put' b t)) :
    SimUnless R G H (zoom sel put x) (zoom sel' put' y) := by
  intro s t hr
  obtain ⟨h1, h2⟩ | ⟨h1, h2⟩ | ⟨h1, h2⟩ := hx _ _ (hsel s t hr)
  · exact .inl ⟨h1, hput s t _ _ hr h2⟩
  · exact .inr (.inl ⟨h1, hG s _ h2⟩)
  · exact .inr (.inr ⟨h1, hH t _ h2⟩)

end SimUnless

end Proc
