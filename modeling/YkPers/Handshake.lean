import YkPers.Backend

/-!
# The write handshake

What the host may do while it gives a key the reports `rs`, as an automaton over the events of
its log. It polls until the key is ready, a report whose status byte has no `slotWriteFlag`, and
then writes the next report of `rs`. A transfer that fails closes the session, and so does the
report `abort`, written while polling.

The reports given are a prefix of `rs` by the automaton's type. Over any run, they are what the
log sent (`Sender.run_taken`), a report is written right after the key was seen ready
(`Sender.write_after_ready`), and nothing follows the abort (`Sender.abort_is_last`).
-/

namespace YkPers

/-- The key has processed the last write. -/
def isReady (r : Report) : Bool := r.status &&& slotWriteFlag == 0

inductive Phase where
  | polling
  | ready
  | closed
  deriving DecidableEq

/-- The first `taken` of the reports are given. -/
structure Sender (rs : List Report) where
  taken : ℕ
  taken_le : taken ≤ rs.length
  phase : Phase

namespace Sender

variable {rs : List Report} (abort : Report)

def init (rs : List Report) : Sender rs := ⟨0, Nat.zero_le _, .polling⟩

def inPhase (s : Sender rs) (p : Phase) : Sender rs := { s with phase := p }

@[simp] theorem inPhase_taken (s : Sender rs) (p : Phase) : (s.inPhase p).taken = s.taken := rfl

@[simp] theorem inPhase_phase (s : Sender rs) (p : Phase) : (s.inPhase p).phase = p := rfl

def give (s : Sender rs) (h : s.taken < rs.length) : Sender rs := ⟨s.taken + 1, h, .polling⟩

@[simp] theorem give_taken (s : Sender rs) (h : s.taken < rs.length) :
    (s.give h).taken = s.taken + 1 := rfl

@[simp] theorem give_phase (s : Sender rs) (h : s.taken < rs.length) :
    (s.give h).phase = .polling := rfl

@[simp] theorem inPhase_inPhase (s : Sender rs) (p q : Phase) :
    (s.inPhase p).inPhase q = s.inPhase q := rfl

@[simp] theorem give_inPhase (s : Sender rs) (p : Phase) (h : (s.inPhase p).taken < rs.length) :
    (s.inPhase p).give h = s.give h := rfl

def step (s : Sender rs) (e : Event) : Option (Sender rs) :=
  match s.phase, e with
  | .polling, .sleep _ => some s
  | .polling, .read none => some (s.inPhase .closed)
  | .polling, .read (some q) => some (if isReady q then s.inPhase .ready else s)
  | .polling, .write r _ => if r = abort then some (s.inPhase .closed) else none
  | .ready, .write r ok =>
    if h : rs[s.taken]? = some r then
      some (if ok then s.give (List.getElem?_eq_some_iff.1 h).1 else s.inPhase .closed)
    else
      none
  | _, _ => none

def run (s : Sender rs) (t : List Event) : Option (Sender rs) := t.foldlM (step abort) s

variable {abort}

@[simp] theorem run_nil (s : Sender rs) : s.run abort [] = some s := rfl

@[simp] theorem run_cons (s : Sender rs) (e : Event) (t : List Event) :
    s.run abort (e :: t) = (s.step abort e).bind fun s' => s'.run abort t := rfl

theorem run_singleton (s : Sender rs) (e : Event) : s.run abort [e] = s.step abort e := by
  simp

theorem run_append {s s' : Sender rs} {t u : List Event} :
    s.run abort (t ++ u) = some s' ↔
      ∃ s₁, s.run abort t = some s₁ ∧ s₁.run abort u = some s' := by
  simp only [run, List.foldlM_append, Option.bind_eq_bind, Option.bind_eq_some_iff]

theorem step_closed {s : Sender rs} (h : s.phase = .closed) (e : Event) :
    s.step abort e = none := by
  unfold step
  rw [h]

theorem step_cases {s s' : Sender rs} {e : Event} (h : s.step abort e = some s') :
    (s.phase = .polling ∧ ((∃ ms, e = .sleep ms ∧ s' = s)
        ∨ (e = .read none ∧ s' = s.inPhase .closed)
        ∨ (∃ q, e = .read (some q) ∧ isReady q = true ∧ s' = s.inPhase .ready)
        ∨ (∃ q, e = .read (some q) ∧ isReady q = false ∧ s' = s)
        ∨ ∃ ok, e = .write abort ok ∧ s' = s.inPhase .closed))
      ∨ (s.phase = .ready ∧ ∃ r, rs[s.taken]? = some r
        ∧ ((e = .write r true ∧ ∃ hlt, s' = s.give hlt)
          ∨ (e = .write r false ∧ s' = s.inPhase .closed))) := by
  unfold step at h
  split at h
  · rename_i hp
    exact .inl ⟨hp, .inl ⟨_, rfl, by simpa using h.symm⟩⟩
  · rename_i hp
    exact .inl ⟨hp, .inr (.inl ⟨rfl, by simpa using h.symm⟩)⟩
  · rename_i q hp
    simp only [Option.some.injEq] at h
    split_ifs at h with hq
    · exact .inl ⟨hp, .inr (.inr (.inl ⟨q, rfl, hq, h.symm⟩))⟩
    · exact .inl ⟨hp, .inr (.inr (.inr (.inl ⟨q, rfl, by simpa using hq, h.symm⟩)))⟩
  · rename_i r ok hp
    split_ifs at h with hr
    subst hr
    exact .inl ⟨hp, .inr (.inr (.inr (.inr ⟨ok, rfl, by simpa using h.symm⟩)))⟩
  · rename_i r ok hp
    split_ifs at h with hr hok
    · subst hok
      exact .inr ⟨hp, r, hr, .inl ⟨rfl, _, by simpa using h.symm⟩⟩
    · obtain rfl : ok = false := by simpa using hok
      exact .inr ⟨hp, r, hr, .inr ⟨rfl, by simpa using h.symm⟩⟩
  · simp at h

/-! ## Runs -/

theorem run_taken (hab : abort ∉ rs) : ∀ {t : List Event} {s s' : Sender rs},
    s.run abort t = some s' →
      rs.take s'.taken = rs.take s.taken ++ (sent t).filter (· ≠ abort)
  | [], s, s', h => by
    simp only [run_nil, Option.some.injEq] at h
    simp [h]
  | e :: t, s, s', h => by
    simp only [run_cons, Option.bind_eq_some_iff] at h
    obtain ⟨s₁, h₁, h⟩ := h
    rw [run_taken hab h]
    rcases step_cases h₁ with
      ⟨-, ⟨ms, rfl, rfl⟩ | ⟨rfl, rfl⟩ | ⟨q, rfl, -, rfl⟩ | ⟨q, rfl, -, rfl⟩ | ⟨ok, rfl, rfl⟩⟩
        | ⟨-, r, hr, ⟨rfl, hlt, rfl⟩ | ⟨rfl, rfl⟩⟩
    · simp
    · simp
    · simp
    · simp
    · cases ok <;> simp
    · have hmem : r ∈ rs := List.mem_of_getElem? hr
      have hne : r ≠ abort := fun h => hab (h ▸ hmem)
      simp [List.take_add_one, hr, hne]
    · simp

theorem run_writes : ∀ {t : List Event} {s s' : Sender rs}, s.run abort t = some s' →
    ∀ r ∈ writes t, r ∈ rs ∨ r = abort
  | [], s, s', h => by simp
  | e :: t, s, s', h => by
    simp only [run_cons, Option.bind_eq_some_iff] at h
    obtain ⟨s₁, h₁, h⟩ := h
    have ih := run_writes h
    rcases step_cases h₁ with
      ⟨-, ⟨ms, rfl, rfl⟩ | ⟨rfl, rfl⟩ | ⟨q, rfl, -, rfl⟩ | ⟨q, rfl, -, rfl⟩ | ⟨ok, rfl, rfl⟩⟩
        | ⟨-, r, hr, ⟨rfl, hlt, rfl⟩ | ⟨rfl, rfl⟩⟩
    · simpa using ih
    · simpa using ih
    · simpa using ih
    · simpa using ih
    · simpa using ih
    · simpa [List.mem_of_getElem? hr] using ih
    · simpa [List.mem_of_getElem? hr] using ih

theorem ready_of_run {t : List Event} {s s' : Sender rs} (hs : s.phase ≠ .ready)
    (h : s.run abort t = some s') (hs' : s'.phase = .ready) :
    ∃ u q, t = u ++ [.read (some q)] ∧ isReady q = true := by
  rcases List.eq_nil_or_concat t with rfl | ⟨u, e, rfl⟩
  · simp only [run_nil, Option.some.injEq] at h
    exact absurd hs' (h ▸ hs)
  rw [List.concat_eq_append] at h ⊢
  obtain ⟨s₁, -, h⟩ := run_append.1 h
  rw [run_singleton] at h
  rcases step_cases h with
    ⟨hp, ⟨ms, rfl, rfl⟩ | ⟨rfl, rfl⟩ | ⟨q, rfl, hq, rfl⟩ | ⟨q, rfl, -, rfl⟩ | ⟨ok, rfl, rfl⟩⟩
      | ⟨-, r, -, ⟨rfl, hlt, rfl⟩ | ⟨rfl, rfl⟩⟩
  · simp [hp] at hs'
  · simp at hs'
  · exact ⟨u, q, rfl, hq⟩
  · simp [hp] at hs'
  · simp at hs'
  · simp at hs'
  · simp at hs'

theorem run_split {s s' : Sender rs} {t : List Event} (h : s.run abort t = some s') {i : ℕ}
    {e : Event} (hi : t[i]? = some e) :
    ∃ s₁ s₂, s.run abort (t.take i) = some s₁ ∧ s₁.step abort e = some s₂
      ∧ s₂.run abort (t.drop (i + 1)) = some s' := by
  obtain ⟨hlt, rfl⟩ := List.getElem?_eq_some_iff.1 hi
  rw [← List.take_append_drop i t, List.drop_eq_getElem_cons hlt] at h
  obtain ⟨s₁, h₁, h⟩ := run_append.1 h
  simp only [run_cons, Option.bind_eq_some_iff] at h
  obtain ⟨s₂, h₂, h⟩ := h
  exact ⟨s₁, s₂, h₁, h₂, h⟩

/-- A report is written right after a read that found the key ready. -/
theorem write_after_ready {s' : Sender rs} {t : List Event}
    (h : (init rs).run abort t = some s') {i : ℕ} {r : Report} {ok : Bool}
    (hi : t[i]? = some (.write r ok)) (hr : r ≠ abort) :
    ∃ j q, i = j + 1 ∧ t[j]? = some (.read (some q)) ∧ isReady q = true := by
  obtain ⟨s₁, s₂, h₁, h₂, -⟩ := run_split h hi
  have hready : s₁.phase = .ready := by
    rcases step_cases h₂ with
      ⟨-, ⟨ms, he, -⟩ | ⟨he, -⟩ | ⟨q, he, -⟩ | ⟨q, he, -⟩ | ⟨ok, he, -⟩⟩ | ⟨hp, -⟩
    · simp at he
    · simp at he
    · simp at he
    · simp at he
    · simp only [Event.write.injEq] at he
      exact absurd he.1 hr
    · exact hp
  obtain ⟨u, q, hu, hq⟩ := ready_of_run (by simp [init]) h₁ hready
  have hlt := (List.getElem?_eq_some_iff.1 hi).1
  have hlen : i = u.length + 1 := by
    have := congrArg List.length hu
    simp only [List.length_take, List.length_append, List.length_singleton] at this
    omega
  refine ⟨u.length, q, hlen, ?_, hq⟩
  have : (t.take i)[u.length]? = some (.read (some q)) := by rw [hu]; simp
  rwa [List.getElem?_take_of_lt (by omega)] at this

/-- Nothing follows the abort, and the session is closed. -/
theorem abort_is_last (hab : abort ∉ rs) {s s' : Sender rs} {t : List Event}
    (h : s.run abort t = some s') {i : ℕ} {ok : Bool} (hi : t[i]? = some (.write abort ok)) :
    i + 1 = t.length ∧ s'.phase = .closed := by
  obtain ⟨s₁, s₂, -, h₂, h₃⟩ := run_split h hi
  have hclosed : s₂.phase = .closed := by
    rcases step_cases h₂ with
      ⟨-, ⟨ms, he, -⟩ | ⟨he, -⟩ | ⟨q, he, -⟩ | ⟨q, he, -⟩ | ⟨ok, -, rfl⟩⟩
        | ⟨-, r, hr, ⟨he, -⟩ | ⟨he, -⟩⟩
    · simp at he
    · simp at he
    · simp at he
    · simp at he
    · rfl
    · simp only [Event.write.injEq] at he
      exact absurd (he.1 ▸ List.mem_of_getElem? hr) hab
    · simp only [Event.write.injEq] at he
      exact absurd (he.1 ▸ List.mem_of_getElem? hr) hab
  have hlt := (List.getElem?_eq_some_iff.1 hi).1
  rcases hd : t.drop (i + 1) with _ | ⟨e, u⟩
  · have := List.drop_eq_nil_iff.1 hd
    simp only [hd, run_nil, Option.some.injEq] at h₃
    exact ⟨by omega, h₃ ▸ hclosed⟩
  · rw [hd, run_cons, step_closed hclosed] at h₃
    simp at h₃

theorem sent_of_open (hab : abort ∉ rs) {s' : Sender rs} {t : List Event}
    (h : (init rs).run abort t = some s') (hs : s'.phase ≠ .closed) :
    sent t = rs.take s'.taken := by
  rw [run_taken hab h, init, List.take_zero, List.nil_append, List.filter_eq_self.2]
  intro r hr
  obtain ⟨e, he, hr⟩ := List.mem_filterMap.1 hr
  obtain ⟨i, hi⟩ := List.getElem?_of_mem he
  rw [decide_eq_true_eq]
  rintro rfl
  obtain ⟨ok, rfl⟩ : ∃ ok, e = .write r ok := by
    rcases e with ms | q | ⟨q, _ | _⟩ <;> simp at hr
    exact ⟨true, by rw [hr]⟩
  exact hs (abort_is_last hab h hi).2

/-! ## Polling -/

theorem run_sleep_read {s : Sender rs} (hp : s.phase = .polling) (ms : ℕ) (q : Report)
    (t : List Event) :
    s.run abort (.sleep ms :: .read (some q) :: t) =
      (if isReady q then s.inPhase .ready else s).run abort t := by
  simp [step, hp]

end Sender

end YkPers
