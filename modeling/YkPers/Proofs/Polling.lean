import Mathlib.Algebra.Ring.Nat
import YkPers.Proofs.Wait

/-!
# How a wait ends

Over a stream of reports a wait ends in one of four ways (`PollEnds`), each told from the reports it
read: the last has the status, or asks for a user where the wait may not block, or asks for none
any more, or the budget is spent. The budget is extended at the first report that asks for a user,
and only then, so that no wait sleeps for longer than it and one more sleep.
-/

namespace YkPers

variable {σ : Type}

/-- From `d`, every read succeeds, and they give the reports of a stream. -/
def Backend.Streams (B : Backend σ) (stream : ℕ → Report) (d : σ) : Prop :=
  ∃ ds : ℕ → σ, ds 0 = d ∧ ∀ n, B.ykusbRead (ds n) = (.ok (stream n), ds (n + 1))

theorem Backend.Streams.read {B : Backend σ} {stream : ℕ → Report} {d : σ}
    (h : B.Streams stream d) : ∃ d', B.ykusbRead d = (.ok (stream 0), d')
      ∧ B.Streams (fun n => stream (n + 1)) d' := by
  obtain ⟨ds, rfl, hds⟩ := h
  exact ⟨ds 1, hds 0, fun n => ds (n + 1), rfl, fun n => hds (n + 1)⟩

@[simp] def Event.slept : Event → ℕ
  | .sleep ms => ms
  | _ => 0

/-- The time slept over a log. -/
def totalSleep (t : List Event) : ℕ := (t.map Event.slept).sum

@[simp] theorem totalSleep_append (t u : List Event) :
    totalSleep (t ++ u) = totalSleep t + totalSleep u := by
  simp [totalSleep]

@[simp] theorem totalSleep_pollTrace : ∀ (v : ℕ) (rs : List Report),
    totalSleep (pollTrace v rs) = sleptBefore rs.length v
  | _, [] => rfl
  | v, r :: rs => by
    have ih := totalSleep_pollTrace (backoff v) rs
    simp only [totalSleep] at ih
    simp [totalSleep, pollTrace, sleptBefore, ih]

def mayBlock (flags : UInt32) : Bool := flags &&& ykFlagMayblock == ykFlagMayblock

section Ends

variable (flags : UInt32) (logicAnd : Bool) (mask : UInt8)

/-- The rounds of a wait, by the reports they read: what else they leave in the log, how the wait
ends, and the error it stores. The arguments are those of the loop, without their width. -/
inductive PollEnds : (v t m : ℕ) → (blocking : Bool) → List Report → List Event →
    Ret Report → Option YkErr → Prop
  | spent {v t m b} : m ≤ t → PollEnds v t m b [] [] .fail (some .ETIMEOUT)
  | met {v t m b r e} : t < m → statusMet logicAnd mask r.status = true →
      PollEnds v t m b [r] [] (.ok r) e
  | wouldBlock {v t m b r ok} : t < m → statusMet logicAnd mask r.status = false →
      waitsForUser r.status = true → mayBlock flags = false →
      PollEnds v t m b [r] [.write dummyReport ok] .fail (some .EWOULDBLOCK)
  | dropped {v t m r} : t < m → statusMet logicAnd mask r.status = false →
      waitsForUser r.status = false → PollEnds v t m true [r] [] .fail (some .ETIMEOUT)
  | waiting {v t m b r rs tail res e} : t < m → statusMet logicAnd mask r.status = false →
      waitsForUser r.status = true → mayBlock flags = true →
      PollEnds (backoff v) (t + v) (if b then m else m + 256 * 1000) true rs tail res e →
      PollEnds v t m b (r :: rs) tail res e
  | quiet {v t m r rs tail res e} : t < m → statusMet logicAnd mask r.status = false →
      waitsForUser r.status = false →
      PollEnds (backoff v) (t + v) m false rs tail res e →
      PollEnds v t m false (r :: rs) tail res e

end Ends

/-- The result of the reset is not looked at. -/
theorem attempt_forceKeyUpdate (H : Host σ) (w : World σ) :
    ∃ a s', Proc.attempt (ykForceKeyUpdate H) w = (.ok a, s') := by
  have h := Proc.Returns.attempt (H.write_returns dummyReport w)
  rcases h.cases with h | ⟨s', h⟩
  · exact h
  · exact (Proc.attempt_ne_fail h).elim

section Loop

variable {H : Host σ} {flags : UInt32} {logicAnd : Bool} {mask : UInt8}

variable (flags logicAnd mask) in
/-- The run of `x` from `w` reads the front of the stream, and goes and ends as its rounds say. -/
def RunEnds (v t m : ℕ) (b : Bool) (stream : ℕ → Report) (x : Yk σ Report) (w : World σ) : Prop :=
  ∃ n tail, PollEnds flags logicAnd mask v t m b ((List.range n).map stream) tail (x w).1
      (x w).2.ykErrno
    ∧ (x w).2.trace = w.trace ++ pollTrace v ((List.range n).map stream) ++ tail

theorem map_range_succ (stream : ℕ → Report) (n : ℕ) : (List.range (n + 1)).map stream
    = stream 0 :: (List.range n).map fun k => stream (k + 1) := by
  rw [List.range_succ_eq_map, List.map_cons, List.map_map]
  rfl

/-- A run that ends with the report it reads first. -/
theorem RunEnds.one {v t m : ℕ} {b : Bool} {stream : ℕ → Report} {x : Yk σ Report} {w : World σ}
    {d : σ} (tail : List Event)
    (h : PollEnds flags logicAnd mask v t m b [stream 0] tail (x (polled w v [stream 0] d)).1
      (x (polled w v [stream 0] d)).2.ykErrno)
    (htrace : (x (polled w v [stream 0] d)).2.trace
      = (polled w v [stream 0] d).trace ++ tail) {y : Yk σ Report}
    (hy : y w = x (polled w v [stream 0] d)) :
    RunEnds flags logicAnd mask v t m b stream y w := by
  refine ⟨1, tail, ?_, ?_⟩
  · rw [map_range_succ, hy]
    exact h
  · rw [map_range_succ, hy, htrace]
    rfl

/-- A run that goes on behind the report it reads first. -/
theorem RunEnds.cons {v t m m' : ℕ} {b b' : Bool} {stream : ℕ → Report} {x y : Yk σ Report}
    {w : World σ} {d : σ}
    (h : RunEnds flags logicAnd mask (backoff v) (t + v) m' b' (fun n => stream (n + 1)) x
      (polled w v [stream 0] d))
    (hround : ∀ {rs tail res e},
      PollEnds flags logicAnd mask (backoff v) (t + v) m' b' rs tail res e →
        PollEnds flags logicAnd mask v t m b (stream 0 :: rs) tail res e)
    (hy : y w = x (polled w v [stream 0] d)) :
    RunEnds flags logicAnd mask v t m b stream y w := by
  obtain ⟨n, tail, hends, htrace⟩ := h
  refine ⟨n + 1, tail, ?_, ?_⟩
  · rw [map_range_succ, hy]
    exact hround hends
  · rw [map_range_succ, hy, htrace]
    simp [polled, pollTrace]

/-- The loop ends, in one of these ways. `M` is the budget with its extension. -/
theorem waitLoop_ends {M : ℕ} (hM : M + 500 < 2 ^ 32) :
    ∀ {fuel v t m : ℕ} {b : Bool} {w : World σ} {stream : ℕ → Report}, H.Streams stream w.dev →
      1 ≤ v → v ≤ 500 → (if b then m else m + 256 * 1000) = M → 0 < fuel → M < t + fuel →
      RunEnds flags logicAnd mask v t m b stream (waitLoop H flags logicAnd mask fuel v t m b) w
  | fuel + 1, v, t, m, b, w, stream, hs, hv1, hv, hm, _, hfuel => by
    have hmM : m ≤ M := by
      cases b <;> simp only [Bool.false_eq_true, if_true, if_false] at hm <;> omega
    by_cases ht : t < m
    swap
    · refine ⟨0, [], ?_, ?_⟩ <;> rw [waitLoop, if_neg ht]
      · exact .spent (Nat.not_lt.1 ht)
      · simp [pollTrace]
    obtain ⟨d, hr, hs'⟩ := hs.read
    have htv : u32 (t + v) = t + v := Nat.mod_eq_of_lt (by omega)
    -- the rounds behind this one
    have hgo : ∀ {m' : ℕ} {b' : Bool}, (if b' then m' else m' + 256 * 1000) = M →
        RunEnds flags logicAnd mask (backoff v) (t + v) m' b' (fun n => stream (n + 1))
          (waitLoop H flags logicAnd mask fuel (backoff v) (t + v) m' b')
          (polled w v [stream 0] d) := fun h =>
      waitLoop_ends hM hs' (backoff_pos hv1) (backoff_le v) h (by omega) (by omega)
    have hround : waitLoop H flags logicAnd mask (fuel + 1) v t m b w = _ := waitLoop_read ht hr
    rw [htv] at hround
    rcases hmet : statusMet logicAnd mask (stream 0).status with _ | _
    swap
    · rw [if_pos hmet] at hround
      exact .one [] (.met ht hmet) (List.append_nil _).symm hround
    rw [if_neg (by simp [hmet])] at hround
    rcases hu : waitsForUser (stream 0).status with _ | _
    · rw [if_neg (by simp [hu])] at hround
      cases b with
      | true => exact .one [] (.dropped ht hmet hu) (List.append_nil _).symm hround
      | false => exact .cons (hgo hm) (.quiet ht hmet hu) hround
    rw [if_pos hu] at hround
    rcases hf : mayBlock flags with _ | _
    · rw [if_neg (by simpa [mayBlock] using hf)] at hround
      obtain ⟨ok, hok⟩ := forceKeyUpdate_trace H (polled w v [stream 0] d)
      obtain ⟨a, s', h⟩ := attempt_forceKeyUpdate H (polled w v [stream 0] d)
      rw [h] at hok
      refine .one [.write dummyReport ok] ?_ ?_ hround <;> rw [Proc.bind_ok h]
      · exact .wouldBlock ht hmet hu hf
      · exact hok
    · rw [if_pos (by simpa [mayBlock] using hf)] at hround
      have hext : (if b then m else u32 (m + 256 * 1000)) = if b then m else m + 256 * 1000 := by
        split_ifs at hm ⊢
        · rfl
        · exact Nat.mod_eq_of_lt (by omega)
      rw [hext] at hround
      refine .cons (hgo ?_) (.waiting ht hmet hu hf) hround
      simpa using hm

end Loop

/-! ## What the ways to end have in common -/

section Facts

variable {flags : UInt32} {logicAnd : Bool} {mask : UInt8} {v t m : ℕ} {b : Bool}
  {rs : List Report} {tail : List Event} {res : Ret Report} {e : Option YkErr}

theorem PollEnds.returns (h : PollEnds flags logicAnd mask v t m b rs tail res e) :
    res ≠ .fault ∧ res ≠ .diverge := by
  induction h with
  | spent | met | wouldBlock | dropped => simp
  | waiting _ _ _ _ _ ih => exact ih
  | quiet _ _ _ _ ih => exact ih

/-- The budget behind some reports. -/
def budgetAfter (flags : UInt32) (m : ℕ) (b : Bool) (rs : List Report) : ℕ :=
  if !b && mayBlock flags && rs.any fun r => waitsForUser r.status then m + 256 * 1000 else m

theorem budgetAfter_waiting {r : Report} (hf : mayBlock flags = true)
    (hu : waitsForUser r.status = true) :
    budgetAfter flags m b (r :: rs)
      = budgetAfter flags (if b then m else m + 256 * 1000) true rs := by
  cases b <;> simp [budgetAfter, hf, hu]

theorem budgetAfter_quiet {r : Report} (hu : waitsForUser r.status = false) :
    budgetAfter flags m b (r :: rs) = budgetAfter flags m b rs := by
  simp [budgetAfter, hu]

theorem le_budgetAfter : m ≤ budgetAfter flags m b rs := by
  unfold budgetAfter
  split_ifs <;> omega

/-- No wait sleeps for longer than its budget and one more sleep. -/
theorem PollEnds.slept (h : PollEnds flags logicAnd mask v t m b rs tail res e)
    (htm : t < m + 500) (hv : v ≤ 500) :
    t + sleptBefore rs.length v < budgetAfter flags m b rs + 500 := by
  have hone : ∀ {v t m : ℕ} {b : Bool} {r : Report}, t < m → v ≤ 500 →
      t + sleptBefore [r].length v < budgetAfter flags m b [r] + 500 := fun {v t m b r} ht hv => by
    have : m ≤ budgetAfter flags m b [r] := le_budgetAfter
    simp only [List.length_singleton, sleptBefore]
    omega
  induction h with
  | spent => simpa [sleptBefore, budgetAfter] using htm
  | met ht _ => exact hone ht hv
  | wouldBlock ht _ _ _ => exact hone ht hv
  | dropped ht _ _ => exact hone ht hv
  | @waiting v t m b r rs tail res e ht _ hu hf _ ih =>
    rw [budgetAfter_waiting hf hu]
    have hext : m ≤ if b then m else m + 256 * 1000 := by split_ifs <;> omega
    have := ih (by omega) (backoff_le v)
    simp only [List.length_cons, sleptBefore]
    omega
  | @quiet v t m r rs tail res e ht _ hu _ ih =>
    rw [budgetAfter_quiet hu]
    have := ih (by omega) (backoff_le v)
    simp only [List.length_cons, sleptBefore]
    omega

/-- The last report has the status and no other has it. -/
def LastMet (logicAnd : Bool) (mask : UInt8) (rs : List Report) (r : Report) : Prop :=
  ∃ idle, rs = idle ++ [r] ∧ statusMet logicAnd mask r.status = true
    ∧ ∀ x ∈ idle, statusMet logicAnd mask x.status = false

/-- The last report asks for a user and has not the status. -/
def LastWaits (logicAnd : Bool) (mask : UInt8) (rs : List Report) : Prop :=
  ∃ idle r, rs = idle ++ [r] ∧ statusMet logicAnd mask r.status = false
    ∧ waitsForUser r.status = true

/-- The last report asks for no user, and one has been asked for, by a report or before. -/
def Dropped (blocking : Bool) (rs : List Report) : Prop :=
  ∃ idle r, rs = idle ++ [r] ∧ waitsForUser r.status = false
    ∧ (blocking = true ∨ ∃ x ∈ idle, waitsForUser x.status = true)

/-- The budget is spent where the loop comes to look at it: a report that asks for a user ends a
wait that may not block before that. -/
def Spent (flags : UInt32) (m : ℕ) (blocking : Bool) (rs : List Report) (slept : ℕ) : Prop :=
  (mayBlock flags = true ∨ ∀ x ∈ rs, waitsForUser x.status = false)
    ∧ budgetAfter flags m blocking rs ≤ slept

theorem LastMet.cons {r x : Report} (h : LastMet logicAnd mask rs r)
    (hx : statusMet logicAnd mask x.status = false) : LastMet logicAnd mask (x :: rs) r := by
  obtain ⟨idle, rfl, hr, hidle⟩ := h
  exact ⟨x :: idle, rfl, hr, List.forall_mem_cons.2 ⟨hx, hidle⟩⟩

theorem LastWaits.cons {x : Report} (h : LastWaits logicAnd mask rs) :
    LastWaits logicAnd mask (x :: rs) := by
  obtain ⟨idle, r, rfl, hr⟩ := h
  exact ⟨x :: idle, r, rfl, hr⟩

theorem PollEnds.of_ok {r : Report}
    (h : PollEnds flags logicAnd mask v t m b rs tail (.ok r) e) : LastMet logicAnd mask rs r := by
  generalize hres : (.ok r : Ret Report) = res at h
  induction h with
  | spent | wouldBlock | dropped => cases hres
  | met _ hmet =>
    cases hres
    exact ⟨[], rfl, hmet, by simp⟩
  | waiting _ hmet _ _ _ ih => exact (ih hres).cons hmet
  | quiet _ hmet _ _ ih => exact (ih hres).cons hmet

/-- A wait that fails has read no report with the status. -/
theorem PollEnds.of_fail (h : PollEnds flags logicAnd mask v t m b rs tail .fail e) :
    ∀ x ∈ rs, statusMet logicAnd mask x.status = false := by
  generalize hres : (.fail : Ret Report) = res at h
  induction h with
  | spent => simp
  | met => cases hres
  | wouldBlock _ hmet | dropped _ hmet => simpa using hmet
  | waiting _ hmet _ _ _ ih => exact List.forall_mem_cons.2 ⟨hmet, ih hres⟩
  | quiet _ hmet _ _ ih => exact List.forall_mem_cons.2 ⟨hmet, ih hres⟩

/-- Behind the last report nothing is read, and there is no sleep. -/
theorem PollEnds.tail_reads (h : PollEnds flags logicAnd mask v t m b rs tail res e) :
    reads tail = [] ∧ totalSleep tail = 0 := by
  induction h with
  | spent | met | wouldBlock | dropped => exact ⟨rfl, rfl⟩
  | waiting _ _ _ _ _ ih => exact ih
  | quiet _ _ _ _ ih => exact ih

theorem PollEnds.errno (h : PollEnds flags logicAnd mask v t m b rs tail .fail e) :
    e = some .EWOULDBLOCK ∨ e = some .ETIMEOUT := by
  generalize hres : (.fail : Ret Report) = res at h
  induction h with
  | spent => exact .inr rfl
  | met => cases hres
  | wouldBlock => exact .inl rfl
  | dropped => exact .inr rfl
  | waiting _ _ _ _ _ ih => exact ih hres
  | quiet _ _ _ _ ih => exact ih hres

theorem PollEnds.of_wouldBlock
    (h : PollEnds flags logicAnd mask v t m b rs tail .fail (some .EWOULDBLOCK)) :
    mayBlock flags = false ∧ LastWaits logicAnd mask rs ∧ writes tail = [dummyReport] := by
  generalize hres : (.fail : Ret Report) = res at h
  generalize he : some YkErr.EWOULDBLOCK = e at h
  induction h with
  | spent | dropped => cases he
  | met => cases hres
  | wouldBlock _ hmet hu hf => exact ⟨hf, ⟨[], _, rfl, hmet, hu⟩, rfl⟩
  | waiting _ _ _ _ _ ih =>
    obtain ⟨hf, hlast, hw⟩ := ih hres he
    exact ⟨hf, hlast.cons, hw⟩
  | quiet _ _ _ _ ih =>
    obtain ⟨hf, hlast, hw⟩ := ih hres he
    exact ⟨hf, hlast.cons, hw⟩

theorem PollEnds.of_timeout
    (h : PollEnds flags logicAnd mask v t m b rs tail .fail (some .ETIMEOUT)) :
    Spent flags m b rs (t + sleptBefore rs.length v) ∨ Dropped b rs := by
  generalize hres : (.fail : Ret Report) = res at h
  generalize he : some YkErr.ETIMEOUT = e at h
  induction h with
  | spent htm => exact .inl ⟨.inr (by simp), by simpa [budgetAfter, sleptBefore] using htm⟩
  | met => cases hres
  | wouldBlock => cases he
  | dropped _ _ hu => exact .inr ⟨[], _, rfl, hu, .inl rfl⟩
  | @waiting v t m b r rs _ _ _ _ _ hu hf _ ih =>
    rcases ih hres he with ⟨-, hle⟩ | ⟨idle, x, rfl, hx, -⟩
    · refine .inl ⟨.inl hf, ?_⟩
      rwa [budgetAfter_waiting hf hu, List.length_cons, sleptBefore, ← Nat.add_assoc]
    · exact .inr ⟨r :: idle, x, rfl, hx, .inr ⟨r, List.mem_cons_self, hu⟩⟩
  | @quiet v t m r rs _ _ _ _ _ hu _ ih =>
    rcases ih hres he with ⟨hall, hle⟩ | ⟨idle, x, rfl, hx, hask⟩
    · refine .inl ⟨hall.imp_right fun h => List.forall_mem_cons.2 ⟨hu, h⟩, ?_⟩
      rwa [budgetAfter_quiet hu, List.length_cons, sleptBefore, ← Nat.add_assoc]
    · refine .inr ⟨r :: idle, x, rfl, hx, hask.imp_right ?_⟩
      rintro ⟨y, hy, hyw⟩
      exact ⟨y, List.mem_cons_of_mem r hy, hyw⟩

/-- Every wait returns a report, would block or times out. -/
theorem PollEnds.cases (h : PollEnds flags logicAnd mask v t m b rs tail res e) :
    (∃ r, res = .ok r ∧ LastMet logicAnd mask rs r)
      ∨ (res = .fail ∧ e = some .EWOULDBLOCK ∧ (∀ x ∈ rs, statusMet logicAnd mask x.status = false)
        ∧ mayBlock flags = false ∧ LastWaits logicAnd mask rs)
      ∨ (res = .fail ∧ e = some .ETIMEOUT ∧ (∀ x ∈ rs, statusMet logicAnd mask x.status = false)
        ∧ (Spent flags m b rs (t + sleptBefore rs.length v) ∨ Dropped b rs)) := by
  rcases res with r | _ | _ | _
  · exact .inl ⟨r, rfl, h.of_ok⟩
  · rcases h.errno with rfl | rfl
    · exact .inr (.inl ⟨rfl, rfl, h.of_fail, h.of_wouldBlock.1, h.of_wouldBlock.2.1⟩)
    · exact .inr (.inr ⟨rfl, rfl, h.of_fail, h.of_timeout⟩)
  · exact absurd rfl h.returns.1
  · exact absurd rfl h.returns.2

theorem last_eq {idle idle' : List Report} {r r' : Report} (h : idle ++ [r] = idle' ++ [r']) :
    r = r' := by
  simpa using (List.append_inj' h rfl).2

theorem LastMet.eq {r r' : Report} (h : LastMet logicAnd mask rs r)
    (h' : LastMet logicAnd mask rs r') : r = r' := by
  obtain ⟨_, hrs, -⟩ := h
  obtain ⟨_, hrs', -⟩ := h'
  exact last_eq (hrs.symm.trans hrs')

theorem LastMet.not_forall {r : Report} (h : LastMet logicAnd mask rs r) :
    ¬ ∀ x ∈ rs, statusMet logicAnd mask x.status = false := by
  obtain ⟨_, rfl, hr, -⟩ := h
  exact fun hall => by simp [hall r (by simp)] at hr

theorem LastWaits.not_lastMet {r : Report} (h : LastWaits logicAnd mask rs) :
    ¬ LastMet logicAnd mask rs r := by
  rintro ⟨_, hrs', hr', -⟩
  obtain ⟨_, x, hrs, hx, -⟩ := h
  rw [last_eq (hrs.symm.trans hrs')] at hx
  simp [hr'] at hx

theorem LastWaits.not_dropped (h : LastWaits logicAnd mask rs) : ¬ Dropped b rs := by
  rintro ⟨_, x', hrs', hx', -⟩
  obtain ⟨_, x, hrs, -, hx⟩ := h
  rw [last_eq (hrs.symm.trans hrs')] at hx
  simp [hx'] at hx

/-- Where a wait may not block, the last report asks for no user if the budget is spent. -/
theorem LastWaits.not_spent {slept : ℕ} (h : LastWaits logicAnd mask rs)
    (hf : mayBlock flags = false) : ¬ Spent flags m b rs slept := by
  rintro ⟨hall, -⟩
  obtain ⟨_, x, rfl, -, hx⟩ := h
  rcases hall with hf' | hall
  · simp [hf] at hf'
  · simp [hall x (by simp)] at hx

end Facts

/-! ## The outcome of a wait -/

section Outcome

variable {flags : UInt32} {logicAnd : Bool} {mask : UInt8} {m : ℕ}

/-- How a wait with a budget of `m` ends, from the reports `rs` that it read: `t` is what it adds to
the log, and `e` is `yk_errno` behind it. -/
structure PollOutcome (flags : UInt32) (logicAnd : Bool) (mask : UInt8) (m : ℕ) (t : List Event)
    (res : Ret Report) (e : Option YkErr) : Prop where
  returns : res ≠ .fault ∧ res ≠ .diverge
  slept : totalSleep t < (if mayBlock flags then m + 256 * 1000 else m) + 500
  met : ∀ r, res = .ok r ↔ LastMet logicAnd mask (reads t) r
  wouldBlock : res = .fail ∧ e = some .EWOULDBLOCK
    ↔ mayBlock flags = false ∧ LastWaits logicAnd mask (reads t)
  reset : res = .fail ∧ e = some .EWOULDBLOCK → writes t = [dummyReport]
  timeout : res = .fail ∧ e = some .ETIMEOUT
    ↔ (∀ x ∈ reads t, statusMet logicAnd mask x.status = false)
      ∧ (Spent flags m false (reads t) (totalSleep t) ∨ Dropped false (reads t))

theorem PollEnds.outcome {rs : List Report} {tail : List Event} {res : Ret Report}
    {e : Option YkErr} (h : PollEnds flags logicAnd mask 1 0 m false rs tail res e) :
    PollOutcome flags logicAnd mask m (pollTrace 1 rs ++ tail) res e := by
  obtain ⟨hreads, hsleep⟩ := h.tail_reads
  have hr : reads (pollTrace 1 rs ++ tail) = rs := by rw [reads_append, reads_pollTrace, hreads,
    List.append_nil]
  have ht : totalSleep (pollTrace 1 rs ++ tail) = 0 + sleptBefore rs.length 1 := by
    rw [totalSleep_append, totalSleep_pollTrace, hsleep, Nat.zero_add, Nat.add_zero]
  have hslept : totalSleep (pollTrace 1 rs ++ tail)
      < (if mayBlock flags then m + 256 * 1000 else m) + 500 := by
    have hle : budgetAfter flags m false rs ≤ if mayBlock flags then m + 256 * 1000 else m := by
      unfold budgetAfter
      cases mayBlock flags <;> simp
      split_ifs <;> omega
    rw [ht]
    exact Nat.lt_of_lt_of_le (h.slept (by omega) (by omega)) (Nat.add_le_add_right hle 500)
  have hreset : res = .fail ∧ e = some .EWOULDBLOCK
      → writes (pollTrace 1 rs ++ tail) = [dummyReport] := by
    rintro ⟨rfl, rfl⟩
    rw [writes_append, writes_pollTrace, h.of_wouldBlock.2.2, List.nil_append]
  refine ⟨h.returns, hslept, fun r => ?_, ?_, hreset, ?_⟩ <;> rw [hr]
  · rcases h.cases with ⟨r', rfl, hl⟩ | ⟨rfl, rfl, hno, -⟩ | ⟨rfl, rfl, hno, -⟩
    · exact ⟨fun heq => Ret.ok.inj heq ▸ hl, fun hl' => by rw [hl.eq hl']⟩
    · exact iff_of_false (by simp) fun hl => hl.not_forall hno
    · exact iff_of_false (by simp) fun hl => hl.not_forall hno
  · rcases h.cases with ⟨r', rfl, hl⟩ | ⟨rfl, rfl, -, hf, hl⟩ | ⟨rfl, rfl, -, hend⟩
    · exact iff_of_false (by simp) fun hw => hw.2.not_lastMet hl
    · exact iff_of_true ⟨rfl, rfl⟩ ⟨hf, hl⟩
    · exact iff_of_false (by simp) fun hw =>
        hend.elim (hw.2.not_spent hw.1) hw.2.not_dropped
  · rw [ht]
    rcases h.cases with ⟨r', rfl, hl⟩ | ⟨rfl, rfl, -, hf, hl⟩ | ⟨rfl, rfl, hno, hend⟩
    · exact iff_of_false (by simp) fun hw => hl.not_forall hw.1
    · exact iff_of_false (by simp) fun hw => hw.2.elim (hl.not_spent hf) hl.not_dropped
    · exact iff_of_true ⟨rfl, rfl⟩ ⟨hno, hend⟩

/-- Over every stream of reports a wait ends as told. -/
theorem ykWaitForKeyStatus_outcome (H : Host σ) (slot : UInt8) (flags : UInt32) (logicAnd : Bool)
    (mask : UInt8) {m : ℕ} (hm : m + 256 * 1000 + 500 < 2 ^ 32) {w : World σ}
    {stream : ℕ → Report} (hs : H.Streams stream w.dev) :
    (∃ n, reads (events (ykWaitForKeyStatus H slot flags m logicAnd mask) w)
        = (List.range n).map stream)
      ∧ PollOutcome flags logicAnd mask m
        (events (ykWaitForKeyStatus H slot flags m logicAnd mask) w)
        (ykWaitForKeyStatus H slot flags m logicAnd mask w).1
        (ykWaitForKeyStatus H slot flags m logicAnd mask w).2.ykErrno := by
  have hends : RunEnds flags logicAnd mask 1 0 m false stream
      (waitLoop H flags logicAnd mask (m + 256 * 1000 + 1) 1 0 m false) w :=
    waitLoop_ends hm hs (Nat.le_refl 1) (by omega) (by simp) (by omega) (by omega)
  obtain ⟨n, tail, hends, htrace⟩ := hends
  have hev : events (ykWaitForKeyStatus H slot flags m logicAnd mask) w
      = pollTrace 1 ((List.range n).map stream) ++ tail :=
    events_of_run (by rw [← List.append_assoc]; exact htrace)
  rw [hev]
  refine ⟨⟨n, ?_⟩, hends.outcome⟩
  rw [reads_append, reads_pollTrace, hends.tail_reads.1, List.append_nil]

/-- A key that gives a stream, and takes every write. -/
def streamHost (stream : ℕ → Report) : Host ℕ where
  ykusbRead n := (.ok (stream n), n + 1)
  ykusbWrite _ n := (.ok (), n)
  endian := .little
  yubikeyCrc16 _ := 0

/-- The key asks for a user for ever. -/
def askingStream (_ : ℕ) : Report := Report.ofBytes [0, 0, 0, 0, 0, 0, 0, respTimeoutWaitFlag]

theorem ykWaitForKeyStatus_outcome_asking :
    (∃ n, reads (events (ykWaitForKeyStatus (streamHost askingStream) 0 ykFlagMayblock 1000 true
        respPendingFlag) ⟨0, none, []⟩) = (List.range n).map askingStream)
      ∧ PollOutcome ykFlagMayblock true respPendingFlag 1000
        (events (ykWaitForKeyStatus (streamHost askingStream) 0 ykFlagMayblock 1000 true
          respPendingFlag) ⟨0, none, []⟩)
        (ykWaitForKeyStatus (streamHost askingStream) 0 ykFlagMayblock 1000 true
          respPendingFlag ⟨0, none, []⟩).1
        (ykWaitForKeyStatus (streamHost askingStream) 0 ykFlagMayblock 1000 true
          respPendingFlag ⟨0, none, []⟩).2.ykErrno :=
  ykWaitForKeyStatus_outcome (streamHost askingStream) 0 ykFlagMayblock true respPendingFlag
    (by decide) ⟨fun n => n, rfl, fun _ => rfl⟩

end Outcome

end YkPers
