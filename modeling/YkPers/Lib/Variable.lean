import Mathlib.Data.List.Basic

/-!
# A variable

`Serial v ms` says that the accesses `ms` are answered as by one variable that holds `v` at first.
A system of which each step makes accesses to such a variable does so over whole runs
(`serial_run`), in whatever order its steps come.
-/

universe u

inductive Access (V : Type u) where
  | store (v : V)
  | load
  deriving DecidableEq

/-- An access that was made, and what a load answered. -/
inductive Made (V : Type u) where
  | stored (v : V)
  | loaded (v : V)
  deriving DecidableEq

namespace Made

variable {V : Type u}

def access : Made V → Access V
  | stored v => .store v
  | loaded _ => .load

/-- What the variable holds behind the access. -/
def after (v : V) : Made V → V
  | stored w => w
  | loaded _ => v

/-- A variable that holds `v` answers so. -/
def Holds (v : V) : Made V → Prop
  | stored _ => True
  | loaded w => w = v

end Made

section Serial

variable {V : Type u} {v : V} {ms ns : List (Made V)}

def Serial (v : V) : List (Made V) → Prop
  | [] => True
  | m :: ms => m.Holds v ∧ Serial (m.after v) ms

/-- What the variable holds behind the accesses. -/
def held (v : V) (ms : List (Made V)) : V := ms.foldl Made.after v

theorem serial_append : Serial v (ms ++ ns) ↔ Serial v ms ∧ Serial (held v ms) ns := by
  induction ms generalizing v with
  | nil => exact ⟨fun h => ⟨trivial, h⟩, And.right⟩
  | cons m ms ih => exact (and_congr_right fun _ => ih).trans and_assoc.symm

theorem held_append : held v (ms ++ ns) = held (held v ms) ns := List.foldl_append

end Serial

section Run

variable {V S ι : Type u} (step : ι → S → S) (log : S → List (Made V)) (value : S → V)

def runSteps (s : S) (is : List ι) : S := is.foldl (fun s i => step i s) s

/-- Between two states, what has been logged are accesses to the variable. -/
def Serves (s s' : S) : Prop :=
  ∃ ms, log s' = log s ++ ms ∧ Serial (value s) ms ∧ value s' = held (value s) ms

variable {step log value}

theorem Serves.refl (s : S) : Serves log value s s := ⟨[], (List.append_nil _).symm, trivial, rfl⟩

theorem Serves.of_same {s s' : S} (hlog : log s' = log s) (hvalue : value s' = value s) :
    Serves log value s s' := ⟨[], by rw [hlog, List.append_nil], trivial, hvalue⟩

theorem Serves.of_made {s s' : S} {m : Made V} (hlog : log s' = log s ++ [m])
    (hm : m.Holds (value s)) (hvalue : value s' = m.after (value s)) : Serves log value s s' :=
  ⟨[m], hlog, ⟨hm, trivial⟩, hvalue⟩

theorem Serves.trans {s t u : S} (h : Serves log value s t) (k : Serves log value t u) :
    Serves log value s u := by
  obtain ⟨ms, hl, hs, hv⟩ := h
  obtain ⟨ns, kl, ks, kv⟩ := k
  rw [hv] at ks kv
  exact ⟨ms ++ ns, by rw [kl, hl, List.append_assoc], serial_append.2 ⟨hs, ks⟩,
    by rw [kv, held_append]⟩

/-- Steps that keep an invariant, and each make accesses to the variable, do so in any order. -/
theorem serial_run (Inv : S → Prop) (ok : ι → Prop)
    (hstep : ∀ i s, ok i → Inv s → Inv (step i s) ∧ Serves log value s (step i s)) :
    ∀ (is : List ι) (s : S), (∀ i ∈ is, ok i) → Inv s →
      Inv (runSteps step s is) ∧ Serves log value s (runSteps step s is) := by
  intro is
  induction is with
  | nil => exact fun s _ hs => ⟨hs, .refl s⟩
  | cons i is ih =>
    intro s hok hs
    obtain ⟨hinv, hserves⟩ := hstep i s (hok i List.mem_cons_self) hs
    obtain ⟨hinv', hserves'⟩ := ih (step i s) (fun j hj => hok j (List.mem_cons_of_mem i hj)) hinv
    exact ⟨hinv', hserves.trans hserves'⟩

end Run
