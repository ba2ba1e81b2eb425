import YkPers.Lib.Proc

/-!
# Loops that handle one item after the other

A loop takes an item from its state, handles it and goes on, until there is no item left or the
handling does not return. `Reaches` are the heads of its turns, with the items handled before them;
each run, with whatever fuel, stops at one of them (`loop_cases`). A loop over states with a
well-founded measure ends (`stops_of_wellFounded`), and one whose turns keep an invariant does not
(`not_stops`).
-/

universe u

namespace Turns

variable {S ι : Type u} (next : S → Option ι × S) (handle : ι → Proc S PUnit)

def loop : ℕ → Proc S PUnit
  | 0 => Proc.diverge
  | fuel + 1 => fun s =>
    match next s with
    | (none, t) => (.ok ⟨⟩, t)
    | (some i, t) => (handle i >>= fun _ => loop fuel) t

/-- A turn that handles `i` and goes on. -/
def Turn (s : S) (i : ι) (u : S) : Prop := ∃ t, next s = (some i, t) ∧ handle i t = (.ok ⟨⟩, u)

/-- The loop ends, with enough fuel. -/
def Stops (s : S) : Prop := ∃ fuel, (loop next handle fuel s).1 ≠ .diverge

inductive Reaches (s₀ : S) : List ι → S → Prop
  | start : Reaches s₀ [] s₀
  | turn {is s i u} : Reaches s₀ is s → Turn next handle s i u → Reaches s₀ (is ++ [i]) u

variable {next handle} {s₀ s t u : S} {is js : List ι} {i : ι}

theorem loop_none (h : next s = (none, t)) (fuel : ℕ) :
    loop next handle (fuel + 1) s = (.ok ⟨⟩, t) := by
  simp only [loop, h]

theorem loop_turn (h : Turn next handle s i u) (fuel : ℕ) :
    loop next handle (fuel + 1) s = loop next handle fuel u := by
  obtain ⟨t, h, hi⟩ := h
  simp only [loop, h]
  exact Proc.bind_ok hi

/-- An item that does not return is the end of the loop. -/
theorem loop_stop (h : next s = (some i, t)) (hi : (handle i t).1 ≠ .ok ⟨⟩) (fuel : ℕ) :
    loop next handle (fuel + 1) s = handle i t := by
  simp only [loop, h]
  rcases hr : handle i t with ⟨_ | _ | _ | _, t'⟩
  · rw [hr] at hi
    exact absurd rfl hi
  · exact Proc.bind_fail hr
  · exact Proc.bind_fault hr
  · exact Proc.bind_diverge hr

variable (handle) in
/-- With fuel for one turn, the loop stops where its item leaves it. -/
theorem loop_one (h : next s = (some i, t)) :
    (loop next handle 1 s).1 ≠ .ok ⟨⟩ ∧ (loop next handle 1 s).2 = (handle i t).2 := by
  by_cases hi : (handle i t).1 = .ok ⟨⟩
  · rw [loop_turn ⟨t, h, Prod.ext hi rfl⟩]
    exact ⟨nofun, rfl⟩
  · rw [loop_stop h hi]
    exact ⟨hi, rfl⟩

theorem Reaches.cons (h : Turn next handle s i t) (ht : Reaches next handle t is u) :
    Reaches next handle s (i :: is) u := by
  induction ht with
  | start => exact Reaches.start.turn h
  | turn _ hturn ih => exact ih.turn hturn

/-- What holds of the first head and is kept by each turn holds of every head. -/
theorem Reaches.invariant {P : List ι → S → Prop} (hstart : P [] s₀)
    (hturn : ∀ is s i u, P is s → Turn next handle s i u → P (is ++ [i]) u)
    (h : Reaches next handle s₀ is s) : P is s := by
  induction h with
  | start => exact hstart
  | turn _ ht ih => exact hturn _ _ _ _ ih ht

theorem loop_of_reaches (h : Reaches next handle s₀ is s) (fuel : ℕ) :
    loop next handle (is.length + fuel) s₀ = loop next handle fuel s := by
  induction h generalizing fuel with
  | start => rw [List.length_nil, Nat.zero_add]
  | turn _ ht ih =>
    rw [List.length_append, List.length_singleton, Nat.add_assoc, Nat.add_comm 1 fuel, ih,
      loop_turn ht]

variable (next handle) in
/-- How a run of the loop ends: there is no item left, or the handling of one did not return, or the
fuel is spent. -/
theorem loop_cases : ∀ (fuel : ℕ) (s₀ : S),
    (∃ is s t, Reaches next handle s₀ is s ∧ next s = (none, t)
      ∧ loop next handle fuel s₀ = (.ok ⟨⟩, t))
    ∨ (∃ is s i t, Reaches next handle s₀ is s ∧ next s = (some i, t)
      ∧ (handle i t).1 ≠ .ok ⟨⟩ ∧ loop next handle fuel s₀ = handle i t)
    ∨ ∃ is s, Reaches next handle s₀ is s ∧ is.length = fuel
      ∧ loop next handle fuel s₀ = (.diverge, s)
  | 0, s₀ => .inr (.inr ⟨[], s₀, .start, rfl, rfl⟩)
  | fuel + 1, s₀ => by
    rcases hn : next s₀ with ⟨_ | i, t⟩
    · exact .inl ⟨[], s₀, t, .start, hn, loop_none hn fuel⟩
    by_cases hi : (handle i t).1 = .ok ⟨⟩
    swap
    · exact .inr (.inl ⟨[], s₀, i, t, .start, hn, hi, loop_stop hn hi fuel⟩)
    have ht : Turn next handle s₀ i (handle i t).2 := ⟨t, hn, Prod.ext hi rfl⟩
    rw [loop_turn ht]
    rcases loop_cases fuel (handle i t).2 with ⟨is, s, t', h, hs⟩ | ⟨is, s, j, t', h, hs⟩ |
      ⟨is, s, h, hl, hs⟩
    · exact .inl ⟨i :: is, s, t', h.cons ht, hs⟩
    · exact .inr (.inl ⟨i :: is, s, j, t', h.cons ht, hs⟩)
    · exact .inr (.inr ⟨i :: is, s, h.cons ht, by rw [List.length_cons, hl], hs⟩)

/-- More fuel leaves a loop that ends as it is. -/
theorem loop_mono (k : ℕ) : ∀ {fuel : ℕ} {s : S}, (loop next handle fuel s).1 ≠ .diverge →
    loop next handle (fuel + k) s = loop next handle fuel s
  | 0, _, h => absurd rfl h
  | fuel + 1, s, h => by
    rw [Nat.add_right_comm]
    rcases hn : next s with ⟨_ | i, t⟩
    · rw [loop_none hn, loop_none hn]
    by_cases hi : (handle i t).1 = .ok ⟨⟩
    · have ht : Turn next handle s i (handle i t).2 := ⟨t, hn, Prod.ext hi rfl⟩
      rw [loop_turn ht] at h ⊢
      rw [loop_turn ht, loop_mono k h]
    · rw [loop_stop hn hi, loop_stop hn hi]

theorem loop_eq_of_ends {fuel fuel' : ℕ} (h : (loop next handle fuel s).1 ≠ .diverge)
    (h' : (loop next handle fuel' s).1 ≠ .diverge) :
    loop next handle fuel s = loop next handle fuel' s := by
  rw [← loop_mono fuel' h, ← loop_mono fuel h', Nat.add_comm]

/-! ## Whether a loop ends -/

theorem Stops.of_none (h : next s = (none, t)) : Stops next handle s :=
  ⟨1, by rw [loop_none h]; simp⟩

theorem Stops.of_stop (h : next s = (some i, t)) (hi : (handle i t).1 ≠ .ok ⟨⟩)
    (hd : (handle i t).1 ≠ .diverge) : Stops next handle s :=
  ⟨1, by rw [loop_stop h hi]; exact hd⟩

theorem Stops.of_turn (h : Turn next handle s i u) (hu : Stops next handle u) :
    Stops next handle s := by
  obtain ⟨fuel, hf⟩ := hu
  exact ⟨fuel + 1, by rwa [loop_turn h]⟩

/-- Items are handled without divergence, and each turn leads to a state from where the loop stops
or has a turn to one. -/
theorem Stops.of_next (hd : ∀ i t, (handle i t).1 ≠ .diverge)
    (h : ∀ i u, Turn next handle s i u → Stops next handle u) : Stops next handle s := by
  rcases hn : next s with ⟨_ | i, t⟩
  · exact .of_none hn
  by_cases hi : (handle i t).1 = .ok ⟨⟩
  · have ht : Turn next handle s i (handle i t).2 := ⟨t, hn, Prod.ext hi rfl⟩
    exact .of_turn ht (h i _ ht)
  · exact .of_stop hn hi (hd i t)

theorem Reaches.stops_iff (h : Reaches next handle s₀ is s) :
    Stops next handle s₀ ↔ Stops next handle s := by
  constructor
  · rintro ⟨fuel, hf⟩
    refine ⟨fuel, ?_⟩
    rwa [← loop_of_reaches h, Nat.add_comm, loop_mono is.length hf]
  · rintro ⟨fuel, hf⟩
    exact ⟨is.length + fuel, by rwa [loop_of_reaches h]⟩

/-- A loop whose states get smaller ends. -/
theorem stops_of_wellFounded {r : S → S → Prop} (hr : WellFounded r) {K : S → Prop}
    (hd : ∀ i t, (handle i t).1 ≠ .diverge)
    (hturn : ∀ s i u, K s → Turn next handle s i u →
      Stops next handle u ∨ K u ∧ r u s) :
    ∀ s, K s → Stops next handle s := fun s => by
  induction s using hr.induction with
  | _ s ih =>
    intro hK
    refine .of_next hd fun i u ht => ?_
    rcases hturn s i u hK ht with h | ⟨hu, hlt⟩
    · exact h
    · exact ih u hlt hu

/-- A loop that has a turn wherever an invariant holds, and keeps it, goes on for ever. -/
theorem not_stops {J : S → Prop} (hJ : ∀ s, J s → ∃ i u, Turn next handle s i u ∧ J u) :
    ∀ {s}, J s → ¬ Stops next handle s := by
  have h : ∀ fuel s, J s → (loop next handle fuel s).1 = .diverge := by
    intro fuel
    induction fuel with
    | zero => exact fun s _ => rfl
    | succ fuel ih =>
      intro s hs
      obtain ⟨i, u, ht, hu⟩ := hJ s hs
      rw [loop_turn ht, ih u hu]
  rintro s hs ⟨fuel, hf⟩
  exact hf (h fuel s hs)

end Turns
