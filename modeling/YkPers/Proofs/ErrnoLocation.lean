import YkPers.ErrnoLocation

/-!
# Whose `yk_errno` it is

Where one call has got through the initialisation before another thread makes its first, and no
system call fails, each thread has a variable of its own, which is 0 at first (`errno_private`).
Once an initialisation or an allocation has failed, all threads share one variable for good
(`errno_shared`). Two first calls at once may take the variable away from under a thread.
-/

namespace YkPers

namespace ErrnoLocation

variable {T : Type}

section Own

/-- The cell that is a thread's own, or will be. -/
def System.own (s : System T) (t : T) : Option ℕ :=
  match s.pc t with
  | .keep p => p
  | _ => s.mine t

/-- What is behind `yk_errno` for a thread. -/
def System.value (s : System T) (t : T) : ℤ := (s.own t).elim 0 s.heap

/-- What a thread knows where it is. -/
def System.Sound (s : System T) (t : T) : Prop :=
  match s.pc t with
  | .idle | .testInit | .testKey | .keep (some _) => True
  | .calloc => s.mine t = none
  | .testReady | .get => s.mine t ≠ none
  | .access ptr => ∃ p, ptr = .cell p ∧ s.mine t = some p
  | .createKey | .setInit _ | .keep none | .crashed => False

/-- The key is ready, and no two threads have a cell in common. -/
structure System.Private (s : System T) : Prop where
  ready : s.tsdInit = 1
  sound : ∀ t, s.Sound t
  below : ∀ t p, s.own t = some p → p < s.nextCell
  apart : ∀ t u p, s.own t = some p → s.own u = some p → t = u

variable {s s' : System T} {u : T}

theorem own_congr (hpc : s'.pc u = s.pc u) (hmine : s'.mine u = s.mine u) :
    s'.own u = s.own u := by
  rw [System.own, hpc, hmine, System.own]

theorem sound_congr (hpc : s'.pc u = s.pc u) (hmine : s'.mine u = s.mine u) :
    s'.Sound u ↔ s.Sound u := by
  rw [System.Sound, hpc, hmine, System.Sound]

end Own

section Write

variable {s : System T} {v : ℤ} {ptr : IntPtr} {u : T}

@[simp] theorem write_log : (s.write v ptr).log = s.log := by cases ptr <;> rfl

@[simp] theorem write_todo : (s.write v ptr).todo = s.todo := by cases ptr <;> rfl

@[simp] theorem write_pc : (s.write v ptr).pc = s.pc := by cases ptr <;> rfl

@[simp] theorem write_mine : (s.write v ptr).mine u = s.mine u := by cases ptr <;> rfl

@[simp] theorem write_tsdInit : (s.write v ptr).tsdInit = s.tsdInit := by cases ptr <;> rfl

@[simp] theorem write_nextCell : (s.write v ptr).nextCell = s.nextCell := by cases ptr <;> rfl

end Write

variable [DecidableEq T]

section Frame

variable {s : System T} {t u : T} {pc : Pc} {v : ℤ} {p : ℕ}
  {ptr : IntPtr} {rest : List (Access ℤ)} {m : Made ℤ}

@[simp] theorem goto_tsdInit : (s.goto t pc).tsdInit = s.tsdInit := rfl

@[simp] theorem goto_nothreadErrno : (s.goto t pc).nothreadErrno = s.nothreadErrno := rfl

@[simp] theorem goto_nextCell : (s.goto t pc).nextCell = s.nextCell := rfl

@[simp] theorem goto_heap : (s.goto t pc).heap = s.heap := rfl

@[simp] theorem goto_todo : (s.goto t pc).todo = s.todo := rfl

@[simp] theorem goto_log : (s.goto t pc).log = s.log := rfl

@[simp] theorem goto_mine : (s.goto t pc).mine u = s.mine u := rfl

@[simp] theorem goto_accesses : (s.goto t pc).accesses u = s.accesses u := rfl

@[simp] theorem goto_pc : (s.goto t pc).pc t = pc := Function.update_self ..

theorem goto_pc_of_ne (h : u ≠ t) : (s.goto t pc).pc u = s.pc u := Function.update_of_ne h ..

@[simp] theorem setSpecific_mine : (s.setSpecific t p).mine t = some p := by
  simp [System.mine, System.setSpecific]

theorem setSpecific_mine_of_ne (h : u ≠ t) : (s.setSpecific t p).mine u = s.mine u := by
  simp [System.mine, System.setSpecific, h]

@[simp] theorem made_log : (s.made t rest m).log = s.log ++ [(t, m)] := rfl

@[simp] theorem made_accesses : (s.made t rest m).accesses t = s.accesses t ++ [m] := by
  simp [System.accesses]

theorem made_accesses_of_ne (h : u ≠ t) : (s.made t rest m).accesses u = s.accesses u := by
  simp [System.accesses, h.symm]

@[simp] theorem made_todo : (s.made t rest m).todo t = rest := by simp [System.made]

theorem made_todo_of_ne (h : u ≠ t) : (s.made t rest m).todo u = s.todo u := by
  simp [System.made, h]

@[simp] theorem made_pc : (s.made t rest m).pc t = .idle := goto_pc

theorem made_pc_of_ne (h : u ≠ t) : (s.made t rest m).pc u = s.pc u := goto_pc_of_ne h

theorem accesses_congr {s' : System T} (h : s'.log = s.log) : s'.accesses u = s.accesses u := by
  rw [System.accesses, h, System.accesses]

/-- What an access does. -/
theorem access_cases (h : ptr ≠ .null) :
    (s.todo t = [] ∧ s.access t ptr = s)
      ∨ (∃ v rest, s.todo t = .store v :: rest
          ∧ s.access t ptr = (s.write v ptr).made t rest (.stored v))
      ∨ ∃ rest, s.todo t = .load :: rest
          ∧ s.access t ptr = s.made t rest (.loaded (s.read ptr)) := by
  unfold System.access
  rw [if_neg h]
  split
  · rename_i he
    exact .inl ⟨he, rfl⟩
  · rename_i v rest he
    exact .inr (.inl ⟨v, rest, he, rfl⟩)
  · rename_i rest he
    exact .inr (.inr ⟨rest, he, rfl⟩)

/-- All other statements leave what was accessed, and the shared variable, as they were. -/
theorem step_frame (ok : Bool) (h : ∀ ptr, s.pc t ≠ .access ptr) :
    (step (t, ok) s).log = s.log ∧ (step (t, ok) s).todo = s.todo
      ∧ (step (t, ok) s).nothreadErrno = s.nothreadErrno := by
  unfold step
  dsimp only
  split
  · split <;> exact ⟨rfl, rfl, rfl⟩
  · exact ⟨rfl, rfl, rfl⟩
  · split <;> exact ⟨rfl, rfl, rfl⟩
  · exact ⟨rfl, rfl, rfl⟩
  · exact ⟨rfl, rfl, rfl⟩
  · split <;> exact ⟨rfl, rfl, rfl⟩
  · exact ⟨rfl, rfl, rfl⟩
  · split <;> exact ⟨rfl, rfl, rfl⟩
  · exact ⟨rfl, rfl, rfl⟩
  · exact ⟨rfl, rfl, rfl⟩
  · rename_i ptr hpc
    exact absurd hpc (h ptr)
  · exact ⟨rfl, rfl, rfl⟩

end Frame

section Accounted

variable {s : System T} {i : T × Bool} {t u : T} {ptr : IntPtr} {rest : List (Access ℤ)}
  {m : Made ℤ}

/-- What a thread has accessed and what it is still to access. -/
def System.whole (s : System T) (t : T) : List (Access ℤ) :=
  (s.accesses t).map Made.access ++ s.todo t

theorem whole_made (h : s.todo t = m.access :: rest) : (s.made t rest m).whole u = s.whole u := by
  rcases eq_or_ne u t with rfl | hne
  · simp [System.whole, h]
  · rw [System.whole, made_accesses_of_ne hne, made_todo_of_ne hne, System.whole]

/-- Each thread makes its accesses one after the other, whatever fails. -/
theorem step_whole : (step i s).whole u = s.whole u := by
  obtain ⟨t, ok⟩ := i
  by_cases h : ∃ ptr, s.pc t = .access ptr
  · obtain ⟨ptr, hpc⟩ := h
    simp only [step, hpc]
    by_cases hnull : ptr = .null
    · rw [System.access, if_pos hnull]
      rfl
    · obtain ⟨-, he⟩ | ⟨v, rest, htodo, he⟩ | ⟨rest, htodo, he⟩ :=
        access_cases (s := s) (t := t) hnull <;> rw [he]
      · rw [whole_made (by rw [write_todo]; exact htodo), System.whole, System.whole, write_todo,
          accesses_congr write_log]
      · exact whole_made htodo
  · obtain ⟨hlog, htodo, -⟩ := step_frame (s := s) ok fun ptr hptr => h ⟨ptr, hptr⟩
    rw [System.whole, accesses_congr hlog, htodo, System.whole]

theorem run_whole (schedule : List (T × Bool)) (s : System T) :
    (s.run schedule).whole u = s.whole u := by
  induction schedule generalizing s with
  | nil => rfl
  | cons i schedule ih => exact (ih (step i s)).trans step_whole

end Accounted

section Private

variable {s s' : System T} {t u : T} {p : ℕ}

/-- How far into a call a statement is. -/
def Pc.rank : Pc → ℕ
  | .idle => 0
  | .testInit | .createKey | .setInit _ => 1
  | .testKey => 2
  | .calloc => 3
  | .keep _ => 4
  | .testReady => 5
  | .get => 6
  | .access _ | .crashed => 7

/-- How far a thread is: it makes one access in eight steps of its own. -/
def System.progress (s : System T) (t : T) : ℕ := 8 * (s.accesses t).length + (s.pc t).rank

/-- A step of one thread that takes at most a new cell for it, and stores into no cell but its own.
-/
structure Moves (t : T) (s s' : System T) : Prop where
  ready : s'.tsdInit = s.tsdInit
  sound : s'.Sound t
  own : s'.own t = s.own t ∧ s'.nextCell = s.nextCell
    ∨ s'.own t = some s.nextCell ∧ s'.nextCell = s.nextCell + 1
  pc : ∀ u ≠ t, s'.pc u = s.pc u
  mine : ∀ u ≠ t, s'.mine u = s.mine u
  accesses : ∀ u ≠ t, s'.accesses u = s.accesses u
  heap : ∀ p < s.nextCell, s.own t ≠ some p → s'.heap p = s.heap p
  serves : Serves (System.accesses · t) (System.value · t) s s'
  gains : s.todo t ≠ [] → s.progress t < s'.progress t

theorem Moves.keeps (h : Moves t s s') (hs : s.Private) : s'.Private where
  ready := h.ready.trans hs.ready
  sound u := by
    rcases eq_or_ne u t with rfl | hne
    · exact h.sound
    · exact (sound_congr (h.pc u hne) (h.mine u hne)).2 (hs.sound u)
  below u p hu := by
    have hle : s.nextCell ≤ s'.nextCell := by
      obtain ⟨-, hn⟩ | ⟨-, hn⟩ := h.own <;> omega
    rcases eq_or_ne u t with rfl | hne
    · obtain ⟨ho, hn⟩ | ⟨ho, hn⟩ := h.own
      · exact Nat.lt_of_lt_of_le (hs.below u p (ho ▸ hu)) hle
      · rw [ho, Option.some.injEq] at hu
        omega
    · rw [own_congr (h.pc u hne) (h.mine u hne)] at hu
      exact Nat.lt_of_lt_of_le (hs.below u p hu) hle
  apart := by
    -- against a thread that does not move, the moving one has an old cell or a new one
    have key : ∀ u p, u ≠ t → s'.own t = some p → s.own u ≠ some p := by
      intro u p hne ht hu
      obtain ⟨ho, -⟩ | ⟨ho, -⟩ := h.own
      · exact hne (hs.apart u t p hu (ho ▸ ht))
      · rw [ho, Option.some.injEq] at ht
        have := hs.below u p hu
        omega
    intro u v p hu hv
    by_contra hne
    rcases eq_or_ne u t with rfl | hut
    · have hvt := Ne.symm hne
      rw [own_congr (h.pc v hvt) (h.mine v hvt)] at hv
      exact key v p hvt hu hv
    · rw [own_congr (h.pc u hut) (h.mine u hut)] at hu
      rcases eq_or_ne v t with rfl | hvt
      · exact key u p hut hv hu
      · rw [own_congr (h.pc v hvt) (h.mine v hvt)] at hv
        exact hne (hs.apart u v p hu hv)

/-- Each thread has its own variable, whichever thread moves. -/
theorem Moves.all_serves (h : Moves t s s') (hs : s.Private) (u : T) :
    Serves (System.accesses · u) (System.value · u) s s' := by
  rcases eq_or_ne u t with rfl | hne
  · exact h.serves
  · refine .of_same (h.accesses u hne) ?_
    have ho := own_congr (h.pc u hne) (h.mine u hne)
    rcases hu : s.own u with _ | p
    · rw [System.value, ho, hu, System.value, hu]
      rfl
    · have hp : s.own t ≠ some p := fun ht => hne (hs.apart u t p hu ht)
      rw [System.value, ho, hu, System.value, hu]
      exact h.heap p (hs.below u p hu) hp

theorem progress_lt_goto {s₁ : System T} {pc : Pc} (hlog : s₁.log = s.log)
    (hrank : (s.pc t).rank < pc.rank) : s.progress t < (s₁.goto t pc).progress t := by
  rw [System.progress, System.progress, goto_accesses, accesses_congr hlog, goto_pc]
  omega

theorem moves_goto {pc : Pc} (hown : (s.goto t pc).own t = s.own t)
    (hsound : (s.goto t pc).Sound t) (hrank : (s.pc t).rank < pc.rank) :
    Moves t s (s.goto t pc) where
  ready := rfl
  sound := hsound
  own := .inl ⟨hown, rfl⟩
  pc _ hne := goto_pc_of_ne hne
  mine _ _ := rfl
  accesses _ _ := rfl
  heap _ _ _ := rfl
  serves := .of_same rfl (by rw [System.value, hown, goto_heap, System.value])
  gains _ := progress_lt_goto rfl hrank

theorem moves_refl (h : s.Sound t) (htodo : s.todo t = []) : Moves t s s where
  ready := rfl
  sound := h
  own := .inl ⟨rfl, rfl⟩
  pc _ _ := rfl
  mine _ _ := rfl
  accesses _ _ := rfl
  heap _ _ _ := rfl
  serves := .refl s
  gains hne := absurd htodo hne

theorem moves_calloc (hpc : s.pc t = .calloc) (hmine : s.mine t = none) :
    Moves t s (s.allocated.goto t (.keep (some s.nextCell))) where
  ready := rfl
  sound := by simp [System.Sound]
  own := .inr ⟨by simp [System.own], rfl⟩
  pc _ hne := goto_pc_of_ne hne
  mine _ _ := rfl
  accesses _ _ := rfl
  heap p hp _ := Function.update_of_ne (Nat.ne_of_lt hp) ..
  serves := .of_same rfl (by simp [System.value, System.own, hpc, hmine, System.allocated])
  gains _ := progress_lt_goto rfl (by simp [hpc, Pc.rank])

theorem moves_keep (hpc : s.pc t = .keep (some p)) :
    Moves t s ((s.setSpecific t p).goto t .testReady) where
  ready := rfl
  sound := by simp [System.Sound]
  own := .inl ⟨by simp [System.own, hpc], rfl⟩
  pc _ hne := goto_pc_of_ne hne
  mine u hne := (goto_mine (u := u)).trans (setSpecific_mine_of_ne hne)
  accesses _ _ := rfl
  heap _ _ _ := rfl
  serves := .of_same rfl (by simp [System.value, System.own, hpc]; rfl)
  gains _ := progress_lt_goto rfl (by simp [hpc, Pc.rank])

theorem moves_made {s₁ : System T} {rest : List (Access ℤ)} {m : Made ℤ}
    (hpcs : s.pc t = .access (.cell p)) (hmine : s.mine t = some p) (hinit : s₁.tsdInit = s.tsdInit)
    (hnext : s₁.nextCell = s.nextCell) (hpc : s₁.pc = s.pc) (hmine₁ : ∀ u, s₁.mine u = s.mine u)
    (hlog : s₁.log = s.log) (hheap : ∀ q ≠ p, s₁.heap q = s.heap q)
    (hm : m.Holds (s.heap p)) (hafter : s₁.heap p = m.after (s.heap p)) :
    Moves t s (s₁.made t rest m) := by
  have hown : s.own t = some p := by
    rw [System.own, hpcs]
    exact hmine
  have hown₁ : (s₁.made t rest m).own t = some p := by
    rw [System.own, made_pc]
    exact (hmine₁ t).trans hmine
  refine ⟨hinit, by simp [System.Sound], .inl ⟨hown₁.trans hown.symm, hnext⟩, ?_,
    fun u _ => hmine₁ u, ?_, ?_, ?_, fun _ => ?_⟩
  · intro u hne
    rw [made_pc_of_ne hne, hpc]
  · intro u hne
    rw [made_accesses_of_ne hne, accesses_congr hlog]
  · intro q _ hq
    exact hheap q fun hqp => hq (hqp ▸ hown)
  · refine .of_made (m := m) (by rw [made_accesses, accesses_congr hlog]) ?_ ?_
    · rw [System.value, hown]
      exact hm
    · rw [System.value, hown₁, System.value, hown]
      exact hafter
  · rw [System.progress, hpcs, System.progress, made_accesses, made_pc, accesses_congr hlog,
      List.length_append]
    simp only [Pc.rank, List.length_singleton]
    omega

theorem moves_access (hpc : s.pc t = .access (.cell p)) (hmine : s.mine t = some p) :
    Moves t s (s.access t (.cell p)) := by
  obtain ⟨htodo, he⟩ | ⟨v, rest, -, he⟩ | ⟨rest, -, he⟩ :=
    access_cases (s := s) (t := t) (show IntPtr.cell p ≠ .null by simp) <;> rw [he]
  · exact moves_refl (by rw [System.Sound, hpc]; exact ⟨p, rfl, hmine⟩) htodo
  · exact moves_made hpc hmine write_tsdInit write_nextCell write_pc (fun _ => write_mine)
      write_log (fun q hq => Function.update_of_ne hq ..) trivial (Function.update_self ..)
  · exact moves_made hpc hmine rfl rfl rfl (fun _ => rfl) rfl (fun _ _ => rfl) rfl rfl

/-- Where no system call fails, each step is such a move. -/
theorem step_moves (hs : s.Private) : Moves t s (step (t, true) s) := by
  have hsound := hs.sound t
  unfold System.Sound at hsound
  unfold step
  cases hpc : s.pc t with
  | idle =>
    simp only [hpc]
    split
    · rename_i htodo
      exact moves_refl (by simp [System.Sound, hpc]) htodo
    · exact moves_goto (by simp [System.own, hpc]) (by simp [System.Sound])
        (by simp [hpc, Pc.rank])
  | testInit =>
    simp only [hpc, hs.ready]
    exact moves_goto (by simp [System.own, hpc]) (by simp [System.Sound])
      (by simp [hpc, Pc.rank])
  | createKey => simp [hpc] at hsound
  | setInit value => simp [hpc] at hsound
  | testKey =>
    simp only [hpc]
    split
    · rename_i hnone
      exact moves_goto (by simp [System.own, hpc]) (by simpa [System.Sound] using hnone)
        (by simp [hpc, Pc.rank])
    · rename_i hsome
      exact moves_goto (by simp [System.own, hpc]) (by simpa [System.Sound] using hsome)
        (by simp [hpc, Pc.rank])
  | calloc =>
    simp only [hpc, if_pos] at hsound ⊢
    exact moves_calloc hpc hsound
  | keep p =>
    cases p with
    | none => simp [hpc] at hsound
    | some p =>
      simp only [hpc, if_pos]
      exact moves_keep hpc
  | testReady =>
    simp only [hpc, hs.ready, if_pos] at hsound ⊢
    exact moves_goto (by simp [System.own, hpc]) (by simpa [System.Sound] using hsound)
      (by simp [hpc, Pc.rank])
  | get =>
    simp only [hpc] at hsound ⊢
    obtain ⟨p, hp⟩ := Option.ne_none_iff_exists'.1 hsound
    simp only [hp]
    exact moves_goto (by simp [System.own, hpc]) (by simp [System.Sound, hp])
      (by simp [hpc, Pc.rank])
  | access ptr =>
    simp only [hpc] at hsound ⊢
    obtain ⟨p, rfl, hp⟩ := hsound
    exact moves_access hpc hp
  | crashed => simp [hpc] at hsound

end Private

section Runs

variable {s : System T} {t first : T} {todo : T → List (Access ℤ)} {nextKey nextCell : ℕ}
  {specific : ℕ → T → Option ℕ} {heap : ℕ → ℤ} {rest : List (T × Bool)}

theorem run_private (hs : s.Private) (hok : ∀ i ∈ rest, i.2 = true) :
    (s.run rest).Private ∧ Serves (System.accesses · t) (System.value · t) s (s.run rest) := by
  refine serial_run System.Private (fun i : T × Bool => i.2 = true) ?_ rest s hok hs
  rintro ⟨u, ok⟩ s rfl hs
  exact ⟨(step_moves hs).keeps hs, (step_moves hs).all_serves hs t⟩

theorem rank_le (pc : Pc) : pc.rank ≤ 7 := by cases pc <;> simp [Pc.rank]

theorem run_done (hs : s.Private) (hok : ∀ i ∈ rest, i.2 = true) (h : s.todo t = []) :
    (s.run rest).todo t = [] := by
  obtain ⟨-, ms, hms, -⟩ := run_private (t := t) hs hok
  have hwhole : (s.run rest).whole t = s.whole t := run_whole rest s
  unfold System.whole at hwhole
  dsimp only at hms
  rw [hms, h, List.map_append, List.append_assoc, List.append_cancel_left_eq,
    List.append_eq_nil_iff] at hwhole
  exact hwhole.2

theorem run_progress (hs : s.Private) (hok : ∀ i ∈ rest, i.2 = true) :
    (s.run rest).todo t = [] ∨ s.progress t + rest.count (t, true) ≤ (s.run rest).progress t := by
  induction rest generalizing s with
  | nil => exact .inr (Nat.le_refl _)
  | cons i rest ih =>
    obtain ⟨u, ok⟩ := i
    obtain rfl : ok = true := hok _ List.mem_cons_self
    have hmoves := step_moves (t := u) hs
    have hrest : ∀ i ∈ rest, i.2 = true := fun i hi => hok i (List.mem_cons_of_mem _ hi)
    obtain hdone | hle := ih (hmoves.keeps hs) hrest
    · exact .inl hdone
    · change _ ∨ _ ≤ ((step (u, true) s).run rest).progress t
      rcases eq_or_ne t u with rfl | hne
      · by_cases htodo : s.todo t = []
        · exact .inl (run_done hs hok htodo)
        · have := hmoves.gains htodo
          rw [List.count_cons_self]
          exact .inr (by omega)
      · rw [System.progress, hmoves.accesses t hne, hmoves.pc t hne] at hle
        rw [List.count_cons_of_ne (by simpa using hne.symm)]
        exact .inr hle

/-- What one undisturbed call that initialises leaves. -/
theorem run_first (hfirst : todo first ≠ []) :
    (System.fresh todo nextKey nextCell specific heap).run (List.replicate 4 (first, true))
      = { (System.fresh todo nextKey nextCell specific heap).created with tsdInit := 1 }.goto first
          .testKey := by
  simp [System.run, runSteps, List.replicate, step, System.fresh, hfirst, System.goto,
    System.created]

variable (nextKey nextCell specific heap) in
theorem first_private (hfirst : todo first ≠ []) :
    ((System.fresh todo nextKey nextCell specific heap).run
      (List.replicate 4 (first, true))).Private
      ∧ ∀ u, ((System.fresh todo nextKey nextCell specific heap).run
        (List.replicate 4 (first, true))).value u = 0 := by
  rw [run_first hfirst]
  generalize hs : { (System.fresh todo nextKey nextCell specific heap).created with
    tsdInit := 1 }.goto first .testKey = s
  have hmine : ∀ u, s.mine u = none := by
    intro u
    rw [← hs, goto_mine]
    simp [System.mine, System.created]
  have hpc : ∀ u, s.pc u = .idle ∨ s.pc u = .testKey := by
    intro u
    rw [← hs]
    rcases eq_or_ne u first with rfl | hne
    · exact .inr goto_pc
    · exact .inl (goto_pc_of_ne hne)
  have hown : ∀ u, s.own u = none := by
    intro u
    obtain h | h := hpc u <;> rw [System.own, h] <;> exact hmine u
  refine ⟨⟨hs ▸ rfl, fun u => ?_, fun u p hu => ?_, fun u v p hu => ?_⟩, fun u => ?_⟩
  · obtain h | h := hpc u <;> rw [System.Sound, h] <;> trivial
  · exact absurd ((hown u).symm.trans hu) (Option.some_ne_none p).symm
  · exact absurd ((hown u).symm.trans hu) (Option.some_ne_none p).symm
  · rw [System.value, hown u]
    rfl

/-- Where one thread's first call is past the initialisation before another thread makes a call, and
no system call fails, then in whatever order the threads go on, each has a variable of its own that
is 0 at first, and makes all its accesses to it in turn, one in eight steps of its own. -/
theorem errno_private (hfirst : todo first ≠ []) (hok : ∀ i ∈ rest, i.2 = true) (t : T) :
    let s := (System.fresh todo nextKey nextCell specific heap).run
      (List.replicate 4 (first, true) ++ rest)
    Serial 0 (s.accesses t) ∧ (s.accesses t).map Made.access ++ s.todo t = todo t
      ∧ (s.todo t = [] ∨ rest.count (t, true) ≤ 8 * (s.accesses t).length + 7) := by
  obtain ⟨hs, hvalue⟩ := first_private nextKey nextCell specific heap hfirst
  have hnone : ((System.fresh todo nextKey nextCell specific heap).run
      (List.replicate 4 (first, true))).accesses t = [] := by
    rw [run_first hfirst]
    rfl
  have happend : (System.fresh todo nextKey nextCell specific heap).run
      (List.replicate 4 (first, true) ++ rest)
        = ((System.fresh todo nextKey nextCell specific heap).run
            (List.replicate 4 (first, true))).run rest := List.foldl_append
  refine ⟨?_, run_whole _ _, ?_⟩
  · obtain ⟨-, ms, hms, hserial, -⟩ := run_private (t := t) hs hok
    dsimp only at hms hserial
    rw [hnone, List.nil_append] at hms
    rw [hvalue] at hserial
    rw [happend, hms]
    exact hserial
  · rw [happend]
    refine (run_progress hs hok).imp_right fun hle => ?_
    rw [System.progress, System.progress] at hle
    have := rank_le ((((System.fresh todo nextKey nextCell specific heap).run
      (List.replicate 4 (first, true))).run rest).pc t)
    omega

theorem errno_private_two :
    let s := (System.fresh (fun _ => [.store 5, .load]) 0 0 (fun _ _ => none) fun _ => 0).run
      (List.replicate 4 (true, true) ++ List.replicate 20 (false, true))
    Serial 0 (s.accesses false) ∧ (s.accesses false).map Made.access ++ s.todo false
        = [.store 5, .load]
      ∧ (s.todo false = [] ∨ 20 ≤ 8 * (s.accesses false).length + 7) :=
  errno_private (by decide) (by decide) false

-- Two first calls at once: the second key replaces the first, and the pointer of the first thread
-- is gone when it looks for it again.
example : ((System.fresh (fun _ : Bool => [.load]) 0 0 (fun _ _ => none) fun _ => 0).run
    [(true, true), (true, true), (false, true), (false, true), (true, true), (true, true),
      (true, true), (true, true), (true, true), (true, true), (false, true), (true, true),
      (true, true)]).pc true = .crashed := by decide

end Runs

section Shared

variable {s : System T} {t : T}

/-- The statements on no way to a cell. -/
def Pc.Away : Pc → Prop
  | .idle | .testInit | .testKey | .calloc | .keep _ | .testReady => True
  | .access ptr => ptr = .nothreadErrno
  | .createKey | .setInit _ | .get | .crashed => False

/-- The initialisation has been given up, and no thread is on its way to a cell. -/
structure System.Shared (s : System T) : Prop where
  given_up : s.tsdInit = -1
  away : ∀ t, (s.pc t).Away

/-- What all threads have accessed, in the order of time. -/
def System.all (s : System T) : List (Made ℤ) := s.log.map Prod.snd

theorem Shared.goto {s₁ : System T} {pc : Pc} (hs : s.Shared) (hinit : s₁.tsdInit = -1)
    (hpc : s₁.pc = s.pc) (haway : pc.Away) : (s₁.goto t pc).Shared where
  given_up := hinit
  away u := by
    rcases eq_or_ne u t with rfl | hne
    · rw [goto_pc]
      exact haway
    · rw [goto_pc_of_ne hne, hpc]
      exact hs.away u

theorem access_shared (hs : s.Shared) :
    (s.access t .nothreadErrno).Shared
      ∧ Serves System.all System.nothreadErrno s (s.access t .nothreadErrno) := by
  obtain ⟨-, he⟩ | ⟨v, rest, -, he⟩ | ⟨rest, -, he⟩ :=
    access_cases (s := s) (t := t) (show IntPtr.nothreadErrno ≠ .null by simp) <;> rw [he]
  · exact ⟨hs, .refl s⟩
  · exact ⟨Shared.goto hs hs.given_up rfl trivial,
      .of_made (m := .stored v) (by simp [System.all]) trivial rfl⟩
  · exact ⟨Shared.goto hs hs.given_up rfl trivial,
      .of_made (m := .loaded s.nothreadErrno) (by simp [System.all, System.read]) rfl rfl⟩

theorem step_shared (hs : s.Shared) (i : T × Bool) :
    (step i s).Shared ∧ Serves System.all System.nothreadErrno s (step i s) := by
  obtain ⟨t, ok⟩ := i
  have haway := hs.away t
  by_cases hpc : ∃ ptr, s.pc t = .access ptr
  · obtain ⟨ptr, hpc⟩ := hpc
    rw [hpc] at haway
    obtain rfl : ptr = .nothreadErrno := haway
    simp only [step, hpc]
    exact access_shared hs
  · obtain ⟨hlog, -, herrno⟩ := step_frame ok fun ptr hptr => hpc ⟨ptr, hptr⟩
    refine ⟨?_, .of_same (congrArg (List.map Prod.snd) hlog) herrno⟩
    unfold step
    cases hat : s.pc t with
    | idle =>
      simp only [hat]
      split
      · exact hs
      · exact Shared.goto hs hs.given_up rfl trivial
    | testInit =>
      simp only [hat, hs.given_up]
      exact Shared.goto hs hs.given_up rfl trivial
    | testKey =>
      simp only [hat]
      split <;> exact Shared.goto hs hs.given_up rfl trivial
    | calloc =>
      simp only [hat]
      split <;> exact Shared.goto hs hs.given_up rfl trivial
    | keep p =>
      cases p with
      | none =>
        simp only [hat]
        exact Shared.goto hs rfl rfl trivial
      | some p =>
        simp only [hat]
        split
        · exact Shared.goto hs hs.given_up rfl trivial
        · exact Shared.goto hs hs.given_up rfl trivial
    | testReady =>
      simp only [hat, hs.given_up]
      exact Shared.goto hs hs.given_up rfl rfl
    | access ptr => exact absurd ⟨ptr, hat⟩ hpc
    | createKey | setInit value | get | crashed =>
      rw [hat] at haway
      exact haway.elim

/-- From then on all threads share one variable, in whatever order they go on and whatever fails,
and no later call initialises again. -/
theorem errno_shared (hs : s.Shared) (schedule : List (T × Bool)) :
    (s.run schedule).Shared
      ∧ ∃ ms, (s.run schedule).all = s.all ++ ms ∧ Serial s.nothreadErrno ms := by
  obtain ⟨hinv, ms, hms, hserial, -⟩ := serial_run System.Shared (fun _ => True)
    (fun i s _ hs => step_shared hs i) schedule s (fun _ _ => trivial) hs
  exact ⟨hinv, ms, hms, hserial⟩

/-- Such a state is the one behind a first call that gets no key. -/
theorem errno_shared_first :
    let s := (System.fresh (fun _ : Bool => [.store 5, .load]) 0 0 (fun _ _ => none)
      fun _ => 0).run [(true, true), (true, true), (true, false), (true, true)]
    (s.run (List.replicate 20 (false, true))).Shared
      ∧ ∃ ms, (s.run (List.replicate 20 (false, true))).all = s.all ++ ms ∧ Serial 0 ms :=
  errno_shared ⟨rfl, fun t => by cases t <;> trivial⟩ _

end Shared

end ErrnoLocation

end YkPers
