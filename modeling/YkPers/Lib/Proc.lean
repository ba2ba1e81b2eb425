import Mathlib.Data.List.Basic

/-!
# Procedures over a state

`Proc S α` runs on a state and either returns a value, returns its error value, breaks a rule of
its language (`fault`), or spends the fuel of one of its loops (`diverge`); the state it ends in
is kept in all four cases. `bind_ok` and `bind_eq_ok`, `bind_eq_fail` take a sequence apart, and
`Moves`, `Fails`, `Spares` and `Returns` carry a fact about single steps to whole procedures.
-/

universe u

inductive Ret (α : Type u) where
  | ok (a : α)
  | fail
  | fault
  | diverge
  deriving DecidableEq

def Proc (S α : Type u) := S → Ret α × S

namespace Proc

variable {S T α β : Type u}

protected def pure (a : α) : Proc S α := fun s => (.ok a, s)

protected def bind (x : Proc S α) (f : α → Proc S β) : Proc S β := fun s =>
  match x s with
  | (.ok a, s') => f a s'
  | (.fail, s') => (.fail, s')
  | (.fault, s') => (.fault, s')
  | (.diverge, s') => (.diverge, s')

instance : Monad (Proc S) where
  pure := Proc.pure
  bind := Proc.bind

def fail : Proc S α := fun s => (.fail, s)

def fault : Proc S α := fun s => (.fault, s)

def diverge : Proc S α := fun s => (.diverge, s)

def modify (f : S → S) : Proc S PUnit := fun s => (.ok ⟨⟩, f s)

def get : Proc S S := fun s => (.ok s, s)

/-- The caller looks at whether `x` returned its error value, and goes on. -/
def attempt (x : Proc S α) : Proc S (Option α) := fun s =>
  match x s with
  | (.ok a, s') => (.ok (some a), s')
  | (.fail, s') => (.ok none, s')
  | (.fault, s') => (.fault, s')
  | (.diverge, s') => (.diverge, s')

/-- `x` on the part of the state that `sel` selects and `put` stores. -/
def zoom (sel : S → T) (put : T → S → S) (x : Proc T α) : Proc S α := fun s =>
  ((x (sel s)).1, put (x (sel s)).2 s)

@[simp] theorem pure_run (a : α) (s : S) : (pure a : Proc S α) s = (.ok a, s) := rfl

@[simp] theorem fail_run (s : S) : (fail : Proc S α) s = (.fail, s) := rfl

@[simp] theorem fault_run (s : S) : (fault : Proc S α) s = (.fault, s) := rfl

@[simp] theorem diverge_run (s : S) : (diverge : Proc S α) s = (.diverge, s) := rfl

@[simp] theorem modify_run (f : S → S) (s : S) : modify f s = (.ok ⟨⟩, f s) := rfl

@[simp] theorem get_run (s : S) : get s = (.ok s, s) := rfl

@[simp] theorem zoom_run (sel : S → T) (put : T → S → S) (x : Proc T α) (s : S) :
    zoom sel put x s = ((x (sel s)).1, put (x (sel s)).2 s) := rfl

theorem run_eq {x : Proc S α} {s : S} {r : Ret α} (h : (x s).1 = r) : x s = (r, (x s).2) :=
  Prod.ext h rfl

section Bind

variable {x : Proc S α} {f : α → Proc S β} {s s' : S}

theorem bind_ok {a : α} (h : x s = (.ok a, s')) : (x >>= f) s = f a s' := by
  show Proc.bind x f s = _
  simp only [Proc.bind, h]

theorem bind_fail (h : x s = (.fail, s')) : (x >>= f) s = (.fail, s') := by
  show Proc.bind x f s = _
  simp only [Proc.bind, h]

theorem bind_fault (h : x s = (.fault, s')) : (x >>= f) s = (.fault, s') := by
  show Proc.bind x f s = _
  simp only [Proc.bind, h]

theorem bind_diverge (h : x s = (.diverge, s')) : (x >>= f) s = (.diverge, s') := by
  show Proc.bind x f s = _
  simp only [Proc.bind, h]

@[simp] theorem pure_bind_run (a : α) (f : α → Proc S β) (s : S) :
    ((pure a : Proc S α) >>= f) s = f a s := rfl

@[simp] theorem modify_bind_run (g : S → S) (f : PUnit → Proc S β) (s : S) :
    (modify g >>= f) s = f ⟨⟩ (g s) := rfl

@[simp] theorem get_bind_run (f : S → Proc S β) (s : S) : (get >>= f) s = f s s := rfl

@[simp] theorem fail_bind_run (f : α → Proc S β) (s : S) :
    ((fail : Proc S α) >>= f) s = (.fail, s) := rfl

theorem bind_eq_ok {b : β} :
    (x >>= f) s = (.ok b, s') ↔ ∃ a t, x s = (.ok a, t) ∧ f a t = (.ok b, s') := by
  rcases hx : x s with ⟨r, t⟩
  cases r with
  | ok a =>
    rw [bind_ok hx]
    simp only [Prod.mk.injEq, Ret.ok.injEq]
    exact ⟨fun h => ⟨a, t, ⟨rfl, rfl⟩, h⟩, fun ⟨_, _, ⟨h1, h2⟩, h⟩ => h1 ▸ h2 ▸ h⟩
  | fail => simp [bind_fail hx]
  | fault => simp [bind_fault hx]
  | diverge => simp [bind_diverge hx]

theorem bind_eq_fail :
    (x >>= f) s = (.fail, s') ↔
      x s = (.fail, s') ∨ ∃ a t, x s = (.ok a, t) ∧ f a t = (.fail, s') := by
  rcases hx : x s with ⟨r, t⟩
  cases r with
  | ok a =>
    rw [bind_ok hx]
    simp only [Prod.mk.injEq, Ret.ok.injEq, reduceCtorEq, false_and, false_or]
    exact ⟨fun h => ⟨a, t, ⟨rfl, rfl⟩, h⟩, fun ⟨_, _, ⟨h1, h2⟩, h⟩ => h1 ▸ h2 ▸ h⟩
  | fail => simp [bind_fail hx]
  | fault => simp [bind_fault hx]
  | diverge => simp [bind_diverge hx]

/-- What each part does where it returns a value, the sequence does. -/
theorem ok_bind {R : S → S → Prop} (ht : ∀ a b c, R a b → R b c → R a c)
    (hx : ∀ s a s', x s = (.ok a, s') → R s s')
    (hf : ∀ a s b s', f a s = (.ok b, s') → R s s') :
    ∀ s b s', (x >>= f) s = (.ok b, s') → R s s' := by
  intro s b s' h
  obtain ⟨a, t, h1, h2⟩ := bind_eq_ok.1 h
  exact ht _ _ _ (hx s a t h1) (hf a t b s' h2)

/-- The state that a sequence ends in, from where its first part returns and where it stops. -/
theorem bind_state {P : S → Prop} (hok : ∀ a t, x s = (.ok a, t) → P (f a t).2)
    (hstop : (∀ a t, x s ≠ (.ok a, t)) → P (x s).2) : P ((x >>= f) s).2 := by
  rcases hx : x s with ⟨_ | _ | _ | _, t⟩
  · rw [bind_ok hx]
    exact hok _ t hx
  · simpa [bind_fail hx, hx] using hstop
  · simpa [bind_fault hx, hx] using hstop
  · simpa [bind_diverge hx, hx] using hstop

theorem bind_stop (h : ∀ a, (x s).1 ≠ .ok a) : ((x >>= f) s).2 = (x s).2 :=
  bind_state (P := (· = (x s).2)) (fun a _ ht => absurd (congrArg Prod.fst ht) (h a)) fun _ => rfl

theorem attempt_ok {a : α} (h : x s = (.ok a, s')) : attempt x s = (.ok (some a), s') := by
  simp only [attempt, h]

theorem attempt_state (x : Proc S α) (s : S) : (attempt x s).2 = (x s).2 := by
  unfold attempt
  split <;> simp_all

theorem attempt_zoom (sel : S → T) (put : T → S → S) (x : Proc T α) :
    attempt (zoom sel put x) = zoom sel put (attempt x) := by
  funext s
  simp only [attempt, zoom]
  rcases x (sel s) with ⟨_ | _ | _ | _, t⟩ <;> rfl

theorem of_attempt_ok {a : α} (h : attempt x s = (.ok (some a), s')) : x s = (.ok a, s') := by
  unfold attempt at h
  split at h <;> simp_all

theorem attempt_ne_fail (h : attempt x s = (.fail, s')) : False := by
  unfold attempt at h
  split at h <;> simp at h

theorem attempt_fail (h : x s = (.fail, s')) : attempt x s = (.ok none, s') := by
  simp only [attempt, h]

theorem attempt_fault (h : x s = (.fault, s')) : attempt x s = (.fault, s') := by
  simp only [attempt, h]

theorem attempt_diverge (h : x s = (.diverge, s')) : attempt x s = (.diverge, s') := by
  simp only [attempt, h]

end Bind

/-! ## Facts about every run -/

/-- However `x` ends, the states before and after are related by `R`. -/
def Moves (R : S → S → Prop) (x : Proc S α) : Prop := ∀ s, R s (x s).2

/-- Wherever `x` returns its error value, the state satisfies `E`. -/
def Fails (E : S → Prop) (x : Proc S α) : Prop := ∀ s s', x s = (.fail, s') → E s'

/-- Where the run of `x` from `s` returns its error value, the states before and after are related
by `R`. -/
def Spares (R : S → S → Prop) (x : Proc S α) (s : S) : Prop := ∀ s', x s = (.fail, s') → R s s'

/-- The run of `x` from `s` returns, with a value or the error value. -/
def Returns (x : Proc S α) (s : S) : Prop := (x s).1 ≠ .fault ∧ (x s).1 ≠ .diverge

section Returns

variable {s : S}

theorem Returns.of_ok {x : Proc S α} {a : α} {s' : S} (h : x s = (.ok a, s')) : Returns x s := by
  simp [Returns, h]

theorem Returns.of_fail {x : Proc S α} {s' : S} (h : x s = (.fail, s')) : Returns x s := by
  simp [Returns, h]

theorem Returns.ite {c : Prop} [Decidable c] {x y : Proc S α} (hx : Returns x s)
    (hy : Returns y s) : Returns (if c then x else y) s := by
  split_ifs
  · exact hx
  · exact hy

theorem Returns.get_bind {f : S → Proc S β} (hf : Returns (f s) s) :
    Returns (Proc.get >>= f) s := hf

theorem Returns.bind {x : Proc S α} {f : α → Proc S β} (hx : Returns x s)
    (hf : ∀ a s', x s = (.ok a, s') → Returns (f a) s') : Returns (x >>= f) s := by
  rcases hr : x s with ⟨r, t⟩
  rw [Returns, hr] at hx
  cases r with
  | ok a =>
    rw [Returns, bind_ok hr]
    exact hf a t hr
  | fail => simp [Returns, bind_fail hr]
  | fault => exact absurd rfl hx.1
  | diverge => exact absurd rfl hx.2

theorem Returns.attempt {x : Proc S α} (hx : Returns x s) : Returns (attempt x) s := by
  rcases hr : x s with ⟨_ | _ | _ | _, t⟩ <;> rw [Returns, hr] at hx <;>
    simp_all [Returns, Proc.attempt]

theorem Returns.cases {x : Proc S α} (hx : Returns x s) :
    (∃ a s', x s = (.ok a, s')) ∨ ∃ s', x s = (.fail, s') := by
  rcases hr : x s with ⟨_ | _ | _ | _, t⟩ <;> rw [Returns, hr] at hx <;> simp_all

end Returns

section Moves

variable {R : S → S → Prop}

theorem Moves.pure (hr : ∀ s, R s s) (a : α) : Moves R (pure a : Proc S α) := hr

theorem Moves.fail (hr : ∀ s, R s s) : Moves R (fail : Proc S α) := hr

theorem Moves.diverge (hr : ∀ s, R s s) : Moves R (diverge : Proc S α) := hr

theorem Moves.bind (ht : ∀ a b c, R a b → R b c → R a c) {x : Proc S α} {f : α → Proc S β}
    (hx : Moves R x) (hf : ∀ a, Moves R (f a)) : Moves R (x >>= f) := by
  intro s
  have h := hx s
  rcases hr : x s with ⟨r, t⟩
  rw [hr] at h
  cases r with
  | ok a =>
    rw [bind_ok hr]
    exact ht _ _ _ h (hf a t)
  | fail => rwa [bind_fail hr]
  | fault => rwa [bind_fault hr]
  | diverge => rwa [bind_diverge hr]

theorem Moves.of_eq_ok {x : Proc S α} (hx : Moves R x) {a : α} {s s' : S}
    (h : x s = (.ok a, s')) : R s s' := by
  have hr := hx s
  rwa [h] at hr

/-- As `Moves.bind`, for parts that are related differently. -/
theorem Moves.seq {Q P : S → S → Prop} (hstop : ∀ a b, R a b → P a b)
    (hseq : ∀ a b c, R a b → Q b c → P a c) {x : Proc S α} {f : α → Proc S β}
    (hx : Moves R x) (hf : ∀ a, Moves Q (f a)) : Moves P (x >>= f) := fun s =>
  bind_state (fun a t h => hseq _ _ _ (hx.of_eq_ok h) (hf a t)) fun _ => hstop _ _ (hx s)

theorem Moves.get_bind {f : S → Proc S β} (hf : ∀ t, Moves R (f t)) : Moves R (Proc.get >>= f) :=
  fun s => hf s s

theorem Moves.ite_of {c : Prop} [Decidable c] {x y : Proc S α} (hx : c → Moves R x)
    (hy : ¬ c → Moves R y) : Moves R (if c then x else y) := by
  split_ifs with h
  · exact hx h
  · exact hy h

theorem Moves.ite {c : Prop} [Decidable c] {x y : Proc S α} (hx : Moves R x) (hy : Moves R y) :
    Moves R (if c then x else y) := .ite_of (fun _ => hx) fun _ => hy

theorem Moves.bind_eq_ok {x : Proc S α} (hx : Moves R x) {f : α → Proc S β} {b : β} {s s' : S}
    (h : (x >>= f) s = (.ok b, s')) : ∃ a t, R s t ∧ f a t = (.ok b, s') := by
  obtain ⟨a, t, h1, h2⟩ := Proc.bind_eq_ok.1 h
  exact ⟨a, t, hx.of_eq_ok h1, h2⟩

theorem Moves.attempt {x : Proc S α} (hx : Moves R x) : Moves R (attempt x) := by
  intro s
  have h := hx s
  unfold Proc.attempt
  rcases hr : x s with ⟨_ | _ | _ | _, t⟩ <;> rwa [hr] at h

theorem Moves.zoom {sel : S → T} {put : T → S → S} {Q : T → T → Prop}
    {x : Proc T α} (hx : Moves Q x) (h : ∀ s t, Q (sel s) t → R s (put t s)) :
    Moves R (zoom sel put x) := fun s => h s _ (hx (sel s))

end Moves

section Spares

variable {R : S → S → Prop} {s : S}

theorem Spares.of_moves {x : Proc S α} (hx : Moves R x) : Spares R x s := by
  intro s' h
  have hr := hx s
  rwa [h] at hr

theorem Spares.of_ok {x : Proc S α} {a : α} {s' : S} (h : x s = (.ok a, s')) : Spares R x s := by
  intro t ht
  rw [h] at ht
  cases ht

theorem Spares.get_bind {f : S → Proc S β} (hf : Spares R (f s) s) :
    Spares R (Proc.get >>= f) s := hf

theorem Spares.ite {c : Prop} [Decidable c] {x y : Proc S α} (hx : Spares R x s)
    (hy : Spares R y s) : Spares R (if c then x else y) s := by
  split_ifs
  · exact hx
  · exact hy

/-- What stands in front of the last step is spared whether it returns or not. -/
theorem Spares.bind (ht : ∀ a b c, R a b → R b c → R a c) {x : Proc S α} {f : α → Proc S β}
    (hx : Moves R x) (hf : ∀ a t, Spares R (f a) t) : Spares R (x >>= f) s := by
  intro s' h
  rcases bind_eq_fail.1 h with h | ⟨a, t, h, hfail⟩
  · exact Spares.of_moves hx s' h
  · exact ht _ _ _ (hx.of_eq_ok h) (hf a t s' hfail)

end Spares

section Fails

variable {E : S → Prop}

theorem Fails.pure (a : α) : Fails E (pure a : Proc S α) := by
  intro s s' h
  simp at h

theorem Fails.attempt (x : Proc S α) : Fails E (attempt x) :=
  fun _ _ h => (attempt_ne_fail h).elim

theorem Fails.ite {c : Prop} [Decidable c] {x y : Proc S α} (hx : Fails E x) (hy : Fails E y) :
    Fails E (if c then x else y) := by
  split_ifs
  · exact hx
  · exact hy

theorem Fails.bind {x : Proc S α} {f : α → Proc S β} (hx : Fails E x)
    (hf : ∀ a, Fails E (f a)) : Fails E (x >>= f) := by
  intro s s' h
  rcases bind_eq_fail.1 h with h | ⟨a, t, -, h⟩
  · exact hx s s' h
  · exact hf a t s' h

end Fails

end Proc
