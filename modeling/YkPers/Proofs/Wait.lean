import YkPers.Ykcore

/-!
# Polling the status byte

A wait that succeeds read reports that it goes on over (`outlasts`) and then one with the asked
status, and did nothing else (`ykWaitForKeyStatus_ok`, and `ykWaitForKeyStatus_of_outlasts` the
other way). A wait that fails wrote nothing, or ended with the dummy report
(`ykWaitForKeyStatus_fail`), and `yk_errno` is set (`ykWaitForKeyStatus_loud`). Waits of the
lengths the source asks for end (`ykWaitForKeyStatus_terminates`).
-/

namespace YkPers

variable {σ : Type} (H : Host σ)

/-- What reading `rs` leaves in the log, with the sleeps starting at `v`. -/
def pollTrace : ℕ → List Report → List Event
  | _, [] => []
  | v, r :: rs => .sleep v :: .read (some r) :: pollTrace (backoff v) rs

/-- The sleep before poll number `n`, starting at `v`. -/
def backoffs : ℕ → ℕ → ℕ
  | 0, v => v
  | n + 1, v => backoffs n (backoff v)

/-- The time slept before the sleep of poll number `n`, starting at `v`. -/
def sleptBefore : ℕ → ℕ → ℕ
  | 0, _ => 0
  | n + 1, v => v + sleptBefore n (backoff v)

/-- The loop goes on over `idle`: each report comes in time, has not the asked status, and does
not make the loop give up. -/
def outlasts (flags : UInt32) (logicAnd : Bool) (mask : UInt8) :
    (sleepval sleptTime maxTimeMs : ℕ) → (blocking : Bool) → List Report → Bool
  | _, t, m, _, [] => t < m
  | v, t, m, b, x :: idle =>
    t < m && !statusMet logicAnd mask x.status &&
      if waitsForUser x.status then
        flags &&& ykFlagMayblock == ykFlagMayblock
          && outlasts flags logicAnd mask (backoff v) (u32 (t + v))
            (if b then m else u32 (m + 256 * 1000)) true idle
      else
        !b && outlasts flags logicAnd mask (backoff v) (u32 (t + v)) m b idle

def polled (w : World σ) (v : ℕ) (rs : List Report) (d : σ) : World σ :=
  { w with dev := d, trace := w.trace ++ pollTrace v rs }

section Trace

@[simp] theorem reads_pollTrace : ∀ (v : ℕ) (rs : List Report), reads (pollTrace v rs) = rs
  | _, [] => rfl
  | v, r :: rs => by
    simp [pollTrace, reads_pollTrace (backoff v) rs]

@[simp] theorem writes_pollTrace : ∀ (v : ℕ) (rs : List Report), writes (pollTrace v rs) = []
  | _, [] => rfl
  | v, r :: rs => by
    simp [pollTrace, writes_pollTrace (backoff v) rs]

@[simp] theorem sent_pollTrace : ∀ (v : ℕ) (rs : List Report), sent (pollTrace v rs) = []
  | _, [] => rfl
  | v, r :: rs => by
    simp [pollTrace, sent_pollTrace (backoff v) rs]

theorem pollTrace_append (r : Report) : ∀ (v : ℕ) (rs : List Report),
    pollTrace v (rs ++ [r]) = pollTrace v rs ++ [.sleep (backoffs rs.length v), .read (some r)]
  | _, [] => rfl
  | v, q :: rs => by
    simp only [List.cons_append, pollTrace, pollTrace_append r (backoff v) rs, List.length_cons,
      backoffs]

theorem polled_cons (w : World σ) (v : ℕ) (r : Report) (rs : List Report) (e d : σ) :
    polled (polled w v [r] e) (backoff v) rs d = polled w v (r :: rs) d := by
  simp [polled, pollTrace]

theorem backoff_pos {v : ℕ} (hv : 1 ≤ v) : 1 ≤ backoff v := by
  unfold backoff
  split_ifs <;> omega

theorem backoff_le (v : ℕ) : backoff v ≤ 500 := by
  unfold backoff
  split_ifs <;> omega

end Trace

section Outlasts

variable {flags : UInt32} {logicAnd : Bool} {mask : UInt8}

theorem outlasts_cons {v t m : ℕ} {b : Bool} {x : Report} {idle : List Report} :
    outlasts flags logicAnd mask v t m b (x :: idle) = true ↔
      t < m ∧ statusMet logicAnd mask x.status = false
        ∧ (waitsForUser x.status = true ∧ flags &&& ykFlagMayblock = ykFlagMayblock
            ∧ outlasts flags logicAnd mask (backoff v) (u32 (t + v))
              (if b then m else u32 (m + 256 * 1000)) true idle = true
          ∨ waitsForUser x.status = false ∧ b = false
            ∧ outlasts flags logicAnd mask (backoff v) (u32 (t + v)) m b idle = true) := by
  rw [outlasts]
  cases waitsForUser x.status <;> simp [and_assoc]

theorem lt_of_outlasts {v t m : ℕ} {b : Bool} : ∀ {idle : List Report},
    outlasts flags logicAnd mask v t m b idle = true → t < m
  | [], h => by simpa [outlasts] using h
  | _ :: _, h => (outlasts_cons.1 h).1

theorem not_met_of_outlasts : ∀ {idle : List Report} {v t m : ℕ} {b : Bool},
    outlasts flags logicAnd mask v t m b idle = true →
      ∀ x ∈ idle, statusMet logicAnd mask x.status = false
  | [], _, _, _, _, _ => by simp
  | y :: idle, v, t, m, b, h => by
    obtain ⟨-, hy, ⟨-, -, h⟩ | ⟨-, -, h⟩⟩ := outlasts_cons.1 h
    · exact List.forall_mem_cons.2 ⟨hy, not_met_of_outlasts h⟩
    · exact List.forall_mem_cons.2 ⟨hy, not_met_of_outlasts h⟩

/-- Reports that come in time and do not ask for a user. -/
theorem outlasts_of_idle {m : ℕ} (hm : m + 500 < 2 ^ 32) :
    ∀ {idle : List Report} {v t : ℕ},
      (∀ x ∈ idle, statusMet logicAnd mask x.status = false ∧ waitsForUser x.status = false) →
      v ≤ 500 → t + sleptBefore idle.length v < m →
      outlasts flags logicAnd mask v t m false idle = true
  | [], v, t, _, _, hbudget => by
    simpa [outlasts, sleptBefore] using hbudget
  | x :: idle, v, t, hidle, hv, hbudget => by
    simp only [List.length_cons, sleptBefore] at hbudget
    obtain ⟨⟨hno, hu⟩, hidle⟩ := List.forall_mem_cons.1 hidle
    have ht : u32 (t + v) = t + v := Nat.mod_eq_of_lt (by omega)
    refine outlasts_cons.2 ⟨by omega, hno, .inr ⟨hu, rfl, ?_⟩⟩
    rw [ht]
    exact outlasts_of_idle hm hidle (backoff_le v) (by omega)

/-- Each report takes some time, and the budget grows once. -/
theorem length_of_outlasts {M : ℕ} (hM : M + 500 < 2 ^ 32) :
    ∀ {idle : List Report} {v t m : ℕ} {b : Bool}, 1 ≤ v → v ≤ 500 →
      (if b then m else m + 256 * 1000) = M →
      outlasts flags logicAnd mask v t m b idle = true → t + idle.length < M
  | [], v, t, m, b, _, _, hm, h => by
    have ht := lt_of_outlasts h
    simp only [List.length_nil]
    split_ifs at hm <;> omega
  | x :: idle, v, t, m, b, hv1, hv, hm, h => by
    have hmM : m ≤ M := by
      split_ifs at hm <;> omega
    obtain ⟨ht, -, h⟩ := outlasts_cons.1 h
    have htv : u32 (t + v) = t + v := Nat.mod_eq_of_lt (by omega)
    have hm' : m + 256 * 1000 < 2 ^ 32 → u32 (m + 256 * 1000) = m + 256 * 1000 := Nat.mod_eq_of_lt
    rw [htv] at h
    simp only [List.length_cons]
    obtain ⟨-, -, h⟩ | ⟨-, rfl, h⟩ := h
    · have hnew : (if b then m else u32 (m + 256 * 1000)) = M := by
        split_ifs at hm ⊢
        · exact hm
        · rw [hm' (by omega), hm]
      have := length_of_outlasts hM (backoff_pos hv1) (backoff_le v) (by simp [hnew]) h
      omega
    · have := length_of_outlasts hM (backoff_pos hv1) (backoff_le v) hm h
      omega

end Outlasts

/-- The wait went on over some reports and then read `r`, which has the status, and did nothing
else. -/
def WaitMet (flags : UInt32) (logicAnd : Bool) (mask : UInt8) (v t m : ℕ) (b : Bool)
    (w : World σ) (r : Report) (w' : World σ) : Prop :=
  ∃ idle : List Report, outlasts flags logicAnd mask v t m b idle = true
    ∧ statusMet logicAnd mask r.status = true
    ∧ H.Serves w.dev (idle ++ [r]) w'.dev
    ∧ w' = polled w v (idle ++ [r]) w'.dev

/-- The wait read reports without the status, and then its last read failed, it gave up, or it
wrote the dummy report and returned. -/
def WaitFailed (logicAnd : Bool) (mask : UInt8) (v : ℕ) (w w' : World σ) : Prop :=
  ∃ (idle : List Report) (tail : List Event),
    (∀ x ∈ idle, statusMet logicAnd mask x.status = false)
    ∧ w'.trace = w.trace ++ pollTrace v idle ++ tail
    ∧ (tail = [] ∨ (∃ ms, tail = [.sleep ms, .read none]) ∨ ∃ ok, tail = [.write dummyReport ok])

/-- The reset writes the dummy report; only the device knows whether it takes it. -/
theorem forceKeyUpdate_trace (w : World σ) :
    ∃ ok, (Proc.attempt (ykForceKeyUpdate H) w).2.trace = w.trace ++ [.write dummyReport ok] := by
  unfold Proc.attempt ykForceKeyUpdate Backend.write
  rcases H.ykusbWrite dummyReport w.dev with ⟨_ | _, d⟩
  · exact ⟨false, rfl⟩
  · exact ⟨true, rfl⟩

theorem Backend.write_returns (B : Backend σ) (r : Report) (w : World σ) :
    Proc.Returns (B.write r) w := by
  unfold Proc.Returns Backend.write
  rcases B.ykusbWrite r w.dev with ⟨_ | _, d⟩ <;> simp

section Loop

variable {H} {flags : UInt32} {logicAnd : Bool} {mask : UInt8}

theorem WaitFailed.cons {v : ℕ} {w w' : World σ} {data : Report} {d : σ}
    (hm : statusMet logicAnd mask data.status = false)
    (h : WaitFailed logicAnd mask (backoff v) (polled w v [data] d) w') :
    WaitFailed logicAnd mask v w w' := by
  obtain ⟨idle, tail, hidle, hw, htail⟩ := h
  refine ⟨data :: idle, tail, by simpa [hm] using hidle, ?_, htail⟩
  simpa [polled, pollTrace] using hw

/-- A round of the loop that reads `data` and goes on from there. -/
theorem waitLoop_read {fuel v t m : ℕ} {b : Bool} {w : World σ} {data : Report} {d : σ}
    (ht : t < m) (hr : H.ykusbRead w.dev = (.ok data, d)) :
    waitLoop H flags logicAnd mask (fuel + 1) v t m b w =
      (if statusMet logicAnd mask data.status then
        (pure data : Yk σ Report)
      else if waitsForUser data.status then
        if flags &&& ykFlagMayblock == ykFlagMayblock then
          waitLoop H flags logicAnd mask fuel (backoff v) (u32 (t + v))
            (if b then m else u32 (m + 256 * 1000)) true
        else do
          let _ ← Proc.attempt (ykForceKeyUpdate H)
          failWith .EWOULDBLOCK
      else if b then
        failWith .ETIMEOUT
      else
        waitLoop H flags logicAnd mask fuel (backoff v) (u32 (t + v)) m b)
      (polled w v [data] d) := by
  have h1 : (sleep v : Yk σ Unit) w = (.ok (), w.log [.sleep v]) := rfl
  have h2 : H.read (w.log [.sleep v]) = (.ok data, polled w v [data] d) := by
    simp [Backend.read, hr, polled, pollTrace, World.log]
  rw [waitLoop, if_pos ht, Proc.bind_ok h1, Proc.bind_ok h2]

theorem waitLoop_noRead {fuel v t m : ℕ} {b : Bool} {w : World σ} {e : Option YkErr} {d : σ}
    (ht : t < m) (hr : H.ykusbRead w.dev = (.error e, d)) :
    waitLoop H flags logicAnd mask (fuel + 1) v t m b w =
      (.fail, { dev := d, ykErrno := e <|> w.ykErrno,
                trace := w.trace ++ [.sleep v, .read none] }) := by
  have h1 : (sleep v : Yk σ Unit) w = (.ok (), w.log [.sleep v]) := rfl
  rw [waitLoop, if_pos ht, Proc.bind_ok h1]
  exact Proc.bind_fail (by simp [Backend.read, hr])

theorem waitLoop_ok : ∀ {fuel v t m : ℕ} {b : Bool} {w w' : World σ} {r : Report},
    waitLoop H flags logicAnd mask fuel v t m b w = (.ok r, w') →
      WaitMet H flags logicAnd mask v t m b w r w'
  | 0, _, _, _, _, _, _, _, h => by simp [waitLoop] at h
  | fuel + 1, v, t, m, b, w, w', r, h => by
    by_cases ht : t < m
    swap
    · rw [waitLoop, if_neg ht] at h
      simp at h
    rcases hr : H.ykusbRead w.dev with ⟨e | data, d⟩
    · rw [waitLoop_noRead ht hr] at h
      simp at h
    obtain ⟨m', hm'⟩ : ∃ m', (if b then m else u32 (m + 256 * 1000)) = m' := ⟨_, rfl⟩
    rw [waitLoop_read ht hr, hm'] at h
    split_ifs at h with hm hu hf hb
    · simp only [Proc.pure_run, Prod.mk.injEq, Ret.ok.injEq] at h
      obtain ⟨rfl, rfl⟩ := h
      exact ⟨[], by simpa [outlasts] using ht, hm, ⟨d, hr, rfl⟩, rfl⟩
    · obtain ⟨idle, hlast, hmet, hserve, hw⟩ := waitLoop_ok h
      rw [polled_cons] at hw
      exact ⟨data :: idle, outlasts_cons.2
        ⟨ht, by simpa using hm, .inl ⟨hu, by simpa using hf, hm'.symm ▸ hlast⟩⟩, hmet,
        ⟨d, hr, hserve⟩, hw⟩
    · simp [Proc.bind_eq_ok] at h
    · simp at h
    · obtain ⟨idle, hlast, hmet, hserve, hw⟩ := waitLoop_ok h
      rw [polled_cons] at hw
      exact ⟨data :: idle, outlasts_cons.2
        ⟨ht, by simpa using hm, .inr ⟨by simpa using hu, by simpa using hb, hlast⟩⟩, hmet,
        ⟨d, hr, hserve⟩, hw⟩

theorem waitLoop_fail : ∀ {fuel v t m : ℕ} {b : Bool} {w w' : World σ},
    waitLoop H flags logicAnd mask fuel v t m b w = (.fail, w') → WaitFailed logicAnd mask v w w'
  | 0, _, _, _, _, _, _, h => by simp [waitLoop] at h
  | fuel + 1, v, t, m, b, w, w', h => by
    by_cases ht : t < m
    swap
    · rw [waitLoop, if_neg ht] at h
      simp only [failWith_run, Prod.mk.injEq, true_and] at h
      subst h
      exact ⟨[], [], by simp, by simp [pollTrace], .inl rfl⟩
    rcases hr : H.ykusbRead w.dev with ⟨e | data, d⟩
    · rw [waitLoop_noRead ht hr] at h
      simp only [Prod.mk.injEq, true_and] at h
      subst h
      exact ⟨[], _, by simp, by simp [pollTrace], .inr (.inl ⟨v, rfl⟩)⟩
    rw [waitLoop_read ht hr] at h
    split_ifs at h with hm hu hf hb
    · simp at h
    · exact (waitLoop_fail h).cons (by simpa using hm)
    · exact (waitLoop_fail h).cons (by simpa using hm)
    · obtain ⟨ok, hok⟩ := forceKeyUpdate_trace H (polled w v [data] d)
      rcases Proc.bind_eq_fail.1 h with h | ⟨a, w1, h1, h⟩
      · exact (Proc.attempt_ne_fail h).elim
      simp only [failWith_run, Prod.mk.injEq, true_and] at h
      subst h
      rw [h1] at hok
      exact ⟨[data], _, by simpa using hm, by simpa [polled] using hok, .inr (.inr ⟨ok, rfl⟩)⟩
    · simp only [failWith_run, Prod.mk.injEq, true_and] at h
      subst h
      exact ⟨[data], [], by simpa using hm, by simp [polled], .inl rfl⟩
    · exact (waitLoop_fail h).cons (by simpa using hm)

theorem waitLoop_of_outlasts {r : Report} {d' : σ}
    (hmet : statusMet logicAnd mask r.status = true) :
    ∀ (idle : List Report) {fuel v t m : ℕ} {b : Bool} {w : World σ},
      outlasts flags logicAnd mask v t m b idle = true → H.Serves w.dev (idle ++ [r]) d' →
      idle.length < fuel →
      waitLoop H flags logicAnd mask fuel v t m b w = (.ok r, polled w v (idle ++ [r]) d')
  | [], fuel + 1, v, t, m, b, w, h, hserve, _ => by
    obtain ⟨d, hr, rfl⟩ := hserve
    rw [waitLoop_read (lt_of_outlasts h) hr, if_pos hmet]
    rfl
  | data :: idle, fuel + 1, v, t, m, b, w, h, hserve, hfuel => by
    obtain ⟨d, hr, hserve⟩ := hserve
    simp only [List.length_cons] at hfuel
    obtain ⟨ht, hno, h⟩ := outlasts_cons.1 h
    rw [waitLoop_read ht hr, if_neg (by simp [hno])]
    obtain ⟨hu, hf, h⟩ | ⟨hu, rfl, h⟩ := h
    · rw [if_pos hu, if_pos (by simpa using hf), waitLoop_of_outlasts hmet idle h hserve (by omega),
        polled_cons, List.cons_append]
    · rw [if_neg (by simp [hu]), if_neg (by simp),
        waitLoop_of_outlasts hmet idle h hserve (by omega), polled_cons, List.cons_append]

/-- Each round sleeps for some time, and the budget grows once, so the loop ends by time `M`. -/
theorem waitLoop_returns {M : ℕ} (hM : M + 500 < 2 ^ 32) :
    ∀ {fuel v t m : ℕ} {b : Bool} {w : World σ}, 1 ≤ v → v ≤ 500 →
      (if b then m else m + 256 * 1000) = M → 0 < fuel → M < t + fuel →
      Proc.Returns (waitLoop H flags logicAnd mask fuel v t m b) w
  | fuel + 1, v, t, m, b, w, hv1, hv, hm, _, hfuel => by
    have hmM : m ≤ M := by
      cases b <;> simp only [Bool.false_eq_true, if_true, if_false] at hm <;> omega
    by_cases ht : t < m
    swap
    · simp [Proc.Returns, waitLoop, if_neg ht]
    rcases hr : H.ykusbRead w.dev with ⟨e | data, d⟩
    · simp [Proc.Returns, waitLoop_noRead ht hr]
    have htv : u32 (t + v) = t + v := Nat.mod_eq_of_lt (by omega)
    have hgo : ∀ {m' b'}, (if b' then m' else m' + 256 * 1000) = M →
        Proc.Returns (waitLoop H flags logicAnd mask fuel (backoff v) (t + v) m' b')
          (polled w v [data] d) :=
      fun h => waitLoop_returns hM (backoff_pos hv1) (backoff_le v) h (by omega) (by omega)
    have hstop : Proc.Returns (failWith .ETIMEOUT : Yk σ Report) (polled w v [data] d) := by
      simp [Proc.Returns]
    have hreset : Proc.Returns (do
        let _ ← Proc.attempt (ykForceKeyUpdate H)
        failWith .EWOULDBLOCK : Yk σ Report) (polled w v [data] d) :=
      (Proc.Returns.attempt (H.write_returns _ _)).bind fun a s' _ => by simp [Proc.Returns]
    rw [Proc.Returns, waitLoop_read ht hr, htv]
    cases b with
    | true =>
      simp only [if_true] at hm ⊢
      split_ifs
      · simp
      · exact hgo hm
      · exact hreset
      · exact hstop
    | false =>
      simp only [Bool.false_eq_true, if_false] at hm ⊢
      have hm' : u32 (m + 256 * 1000) = m + 256 * 1000 := Nat.mod_eq_of_lt (by omega)
      rw [hm']
      split_ifs
      · simp
      · exact hgo hm
      · exact hreset
      · exact hgo hm

end Loop

section Wait

variable {H} {slot : UInt8} {flags : UInt32} {m : ℕ} {logicAnd : Bool} {mask : UInt8}

theorem ykWaitForKeyStatus_ok {w w' : World σ} {r : Report}
    (h : ykWaitForKeyStatus H slot flags m logicAnd mask w = (.ok r, w')) :
    WaitMet H flags logicAnd mask 1 0 m false w r w' := waitLoop_ok h

theorem ykWaitForKeyStatus_fail {w w' : World σ}
    (h : ykWaitForKeyStatus H slot flags m logicAnd mask w = (.fail, w')) :
    WaitFailed logicAnd mask 1 w w' := waitLoop_fail h

theorem ykWaitForKeyStatus_of_outlasts (hm : m + 256 * 1000 + 500 < 2 ^ 32) {w : World σ}
    {idle : List Report} {r : Report} {d' : σ}
    (hidle : outlasts flags logicAnd mask 1 0 m false idle = true)
    (hmet : statusMet logicAnd mask r.status = true) (hserve : H.Serves w.dev (idle ++ [r]) d') :
    ykWaitForKeyStatus H slot flags m logicAnd mask w = (.ok r, polled w 1 (idle ++ [r]) d') := by
  have := length_of_outlasts hm (Nat.le_refl 1) (by omega) (by simp) hidle
  exact waitLoop_of_outlasts hmet idle hidle hserve (by omega)

variable (H slot flags logicAnd mask) in
theorem ykWaitForKeyStatus_terminates (hm : m + 256 * 1000 + 500 < 2 ^ 32) (w : World σ) :
    Proc.Returns (ykWaitForKeyStatus H slot flags m logicAnd mask) w :=
  waitLoop_returns hm (Nat.le_refl 1) (by omega) (by simp) (by omega) (by omega)

end Wait

/-! ## Failures set `yk_errno` -/

/-- Wherever the procedure returns 0, `yk_errno` is set. -/
def Loud {α : Type} (x : Yk σ α) : Prop := Proc.Fails (fun w => w.ykErrno ≠ none) x

section Loud

variable {α β : Type}

theorem failWith_loud (e : YkErr) : Loud (failWith e : Yk σ α) := by
  rintro w w' h
  simp only [failWith_run, Prod.mk.injEq, true_and] at h
  subst h
  simp

theorem read_loud {B : Backend σ} (hB : B.SetsErrno) : Loud B.read := by
  rintro w w' h
  unfold Backend.read at h
  split at h
  · simp at h
  rename_i e d hd
  simp only [Prod.mk.injEq, true_and] at h
  subst h
  rcases e with _ | e
  · exact absurd (by rw [hd]) (hB.read w.dev)
  · simp

theorem write_loud {B : Backend σ} (hB : B.SetsErrno) (r : Report) : Loud (B.write r) := by
  rintro w w' h
  unfold Backend.write at h
  split at h
  · simp at h
  rename_i e d hd
  simp only [Prod.mk.injEq, true_and] at h
  subst h
  rcases e with _ | e
  · exact absurd (by rw [hd]) (hB.write r w.dev)
  · simp

theorem waitLoop_loud (hB : H.SetsErrno) (flags : UInt32) (logicAnd : Bool) (mask : UInt8) :
    ∀ (fuel v t m : ℕ) (b : Bool), Loud (waitLoop H flags logicAnd mask fuel v t m b)
  | 0, _, _, _, _ => by
    intro w w' h
    simp [waitLoop] at h
  | fuel + 1, v, t, m, b => by
    have hgo := waitLoop_loud hB flags logicAnd mask fuel
    have hreset : Loud (do
        let _ ← Proc.attempt (ykForceKeyUpdate H)
        failWith .EWOULDBLOCK : Yk σ Report) :=
      Proc.Fails.bind (.attempt _) fun _ => failWith_loud _
    unfold waitLoop
    refine .ite ?_ (failWith_loud _)
    refine Proc.Fails.bind (fun w w' h => by simp at h) fun _ => ?_
    refine Proc.Fails.bind (read_loud hB) fun data => ?_
    exact .ite (.pure data)
      (.ite (.ite (hgo _ _ _ _) hreset) (.ite (failWith_loud _) (hgo _ _ _ _)))

theorem ykWaitForKeyStatus_loud (hB : H.SetsErrno) (slot : UInt8) (flags : UInt32) (m : ℕ)
    (logicAnd : Bool) (mask : UInt8) : Loud (ykWaitForKeyStatus H slot flags m logicAnd mask) :=
  waitLoop_loud H hB flags logicAnd mask _ _ _ _ _

end Loud

end YkPers
