import YkPers.Proofs.WriteToKey
import YkPers.Requests
import YkPers.Ykpersonalize

/-!
# The requests of the core functions

Polling a key and reading a response ask it nothing (`idle_ykReadResponseFromKey`). A call of
`yk_write_to_key` asks for its frame, or for nothing where it fails (`ykWriteToKey_asks`), and so
each function that is built on it makes the one request that it is for, or none.
-/

namespace YkPers

open Proc (Moves attempt)
open scoped List

variable {σ α β : Type}

/-! ## Requests over a log -/

section Rules

variable {S : Type} {world : S → World σ} {L M N : List (List UInt8) → Prop} {a b c s s' : S}

@[simp] theorem outgoing_append (t u : List Event) : outgoing (t ++ u) = outgoing t ++ outgoing u :=
  List.filterMap_append

theorem requests_append (rs qs : List Report) (buf : List UInt8) : ∃ buf',
    requests buf (rs ++ qs) = requests buf rs ++ requests buf' qs :=
  ⟨_, by rw [requests, List.filterMap_append, Buffer.frames_append, requests, requests]⟩

theorem HasAsked.of_trace (h : L []) (ht : (world s').trace = (world s).trace) :
    HasAsked world L s s' := by
  refine ⟨[], ht.trans (List.append_nil _).symm, fun buf rs hrs => ?_⟩
  rw [hrs.eq_nil]
  exact h

theorem HasAsked.mono (h : HasAsked world L a b) (hL : ∀ gs, L gs → M gs) :
    HasAsked world M a b := by
  obtain ⟨t, ht, h⟩ := h
  exact ⟨t, ht, fun buf rs hrs => hL _ (h buf rs hrs)⟩

theorem HasAsked.trans (h : HasAsked world L a b) (k : HasAsked world M b c)
    (hN : ∀ gs gs', L gs → M gs' → N (gs ++ gs')) : HasAsked world N a c := by
  obtain ⟨t, ht, h⟩ := h
  obtain ⟨u, hu, k⟩ := k
  refine ⟨t ++ u, by rw [hu, ht, List.append_assoc], fun buf rs hrs => ?_⟩
  rw [outgoing_append] at hrs
  obtain ⟨xs, ys, rfl, hxs, hys⟩ := hrs.of_append
  obtain ⟨buf', hbuf⟩ := requests_append xs ys buf
  rw [hbuf]
  exact hN _ _ (h buf xs hxs) (k buf' ys hys)

/-- The key has been asked nothing. -/
def Idle (world : S → World σ) : S → S → Prop := HasAsked world (· = [])

theorem Idle.of_trace (h : (world s').trace = (world s).trace) : Idle world s s' :=
  HasAsked.of_trace (L := (· = [])) rfl h

theorem Idle.refl (s : S) : Idle world s s := .of_trace rfl

theorem Idle.trans (h : Idle world a b) (k : Idle world b c) : Idle world a c :=
  HasAsked.trans (L := (· = [])) (M := (· = [])) h k fun _ _ hg hg' => by
    rw [hg, hg', List.append_nil]

variable {x : Proc S α} {f : α → Proc S β} {gs gs' : List (List UInt8)}

theorem idle_bind (hx : Moves (Idle world) x) (hf : ∀ a, Moves (Idle world) (f a)) :
    Moves (Idle world) (x >>= f) := .bind (R := Idle world) (fun _ _ _ => Idle.trans) hx hf

theorem idle_pure (a : α) : Moves (Idle world) (pure a : Proc S α) := .pure Idle.refl a

theorem idle_of_trace (h : ∀ s, (world (x s).2).trace = (world s).trace) :
    Moves (Idle world) x := fun s => .of_trace (h s)

theorem Asks.of_idle (h : Moves (Idle world) x) : Asks world x [] where
  any s := (h s).mono fun _ hg => by rw [hg]
  ok _ _ _ hr := h.of_eq_ok hr

/-- What never returns may leave any request out. -/
theorem Asks.of_never (h : Moves (Idle world) x) (hx : ∀ s a, (x s).1 ≠ .ok a)
    (gs : List (List UInt8)) : Asks world x gs where
  any s := (h s).mono fun _ hg => by rw [hg]; exact List.nil_sublist gs
  ok s a s' hr := absurd (congrArg Prod.fst hr) (hx s a)

theorem Asks.bind (hx : Asks world x gs) (hf : ∀ a, Asks world (f a) gs') :
    Asks world (x >>= f) (gs ++ gs') where
  any s := by
    refine Proc.bind_state (P := HasAsked world (· <+ gs ++ gs') s) (fun a t ht => ?_) fun _ => ?_
    · exact (hx.ok s a t ht).trans ((hf a).any t) fun _ _ hg hg' => by
        rw [hg]
        exact hg'.append_left gs
    · exact (hx.any s).mono fun _ hg => hg.trans (List.sublist_append_left gs gs')
  ok s b s' h := by
    obtain ⟨a, t, ht, h⟩ := Proc.bind_eq_ok.1 h
    exact (hx.ok s a t ht).trans ((hf a).ok t b s' h) fun _ _ hg hg' => by rw [hg, hg']

theorem Asks.then_idle (hx : Asks world x gs) (hf : ∀ a, Moves (Idle world) (f a)) :
    Asks world (x >>= f) gs := by
  have h := hx.bind fun a => .of_idle (hf a)
  rwa [List.append_nil] at h

theorem Asks.idle_then (hx : Moves (Idle world) x) (hf : ∀ a, Asks world (f a) gs) :
    Asks world (x >>= f) gs := (Asks.of_idle hx).bind hf

/-- What comes behind an attempt asks nothing: all has been asked, or the attempt failed. -/
theorem Asks.attempt_then {f : Option α → Proc S β} (hx : Asks world x gs)
    (hf : ∀ r, Moves (Idle world) (f r)) (s : S) :
    HasAsked world (· <+ gs) s ((attempt x >>= f) s).2 ∧
      ∀ b s', (attempt x >>= f) s = (.ok b, s') →
        HasAsked world (· = gs) s s' ∨ ∃ t, f none t = (.ok b, s') := by
  refine ⟨Proc.bind_state (P := HasAsked world (· <+ gs) s) (fun r t ht => ?_) fun _ => ?_,
    fun b s' h => ?_⟩
  · have hany := hx.any s
    rw [← Proc.attempt_state, ht] at hany
    exact hany.trans (M := (· = [])) (hf r t) fun _ _ hg hg' => by rwa [hg', List.append_nil]
  · rw [Proc.attempt_state]
    exact hx.any s
  · obtain ⟨r, t, ht, h⟩ := Proc.bind_eq_ok.1 h
    cases r with
    | none => exact .inr ⟨t, h⟩
    | some a =>
      exact .inl ((hx.ok s a t (Proc.of_attempt_ok ht)).trans (M := (· = []))
        ((hf _).of_eq_ok h) fun _ _ hg hg' => by rwa [hg', List.append_nil])

/-- As `Asks.attempt_then`, where what follows comes to no end without the call. -/
theorem Asks.attempt_bind {f : Option α → Proc S β} (hx : Asks world x gs)
    (hf : ∀ r, Moves (Idle world) (f r)) (hnone : ∀ t b s', f none t ≠ (.ok b, s')) :
    Asks world (attempt x >>= f) gs where
  any s := (hx.attempt_then hf s).1
  ok s b s' h := by
    refine ((hx.attempt_then hf s).2 b s' h).resolve_right ?_
    rintro ⟨t, ht⟩
    exact hnone t b s' ht

theorem Asks.zoom {y : Yk σ α} {put : World σ → S → S} (hy : Asks id y gs)
    (hput : ∀ w s, world (put w s) = w) : Asks world (Proc.zoom world put y) gs where
  any s := by
    obtain ⟨t, ht, h⟩ := hy.any (world s)
    exact ⟨t, (congrArg World.trace (hput _ s)).trans ht, h⟩
  ok s a s' hr := by
    obtain ⟨h1, rfl⟩ := Prod.mk.inj hr
    obtain ⟨t, ht, h⟩ := hy.ok _ a _ (Proc.run_eq h1)
    exact ⟨t, (congrArg World.trace (hput _ s)).trans ht, h⟩

theorem idle_zoom {y : Yk σ α} {put : World σ → S → S} (hy : Moves (Idle id) y)
    (hput : ∀ w s, world (put w s) = w) : Moves (Idle world) (Proc.zoom world put y) := fun s => by
  obtain ⟨t, ht, h⟩ := hy (world s)
  exact ⟨t, (congrArg World.trace (hput _ s)).trans ht, h⟩

end Rules

/-! ## Polling, and reading a response -/

section Idle

variable (H : Host σ) {w w' : World σ}

theorem Idle.of_quiet {e : Event} (he : e.outgoing = none) (h : w'.trace = w.trace ++ [e]) :
    Idle id w w' := by
  refine ⟨[e], h, fun buf rs hrs => ?_⟩
  rw [outgoing, List.filterMap_cons_none he] at hrs
  rw [hrs.eq_nil]
  rfl

/-- A report without a part is no request. -/
theorem Idle.of_write {r : Report} {ok : Bool} (hr : r.part = none)
    (h : w'.trace = w.trace ++ [.write r ok]) : Idle id w w' := by
  refine ⟨_, h, fun buf rs hrs => ?_⟩
  rcases Arrives.of_single hrs with rfl | ⟨-, rfl⟩
  · rw [requests, List.filterMap_cons_none hr]
    rfl
  · rfl

@[simp] theorem part_dummyReport : dummyReport.part = none := by decide

theorem idle_read : Moves (Idle id) H.read := by
  intro w
  rcases hread : H.ykusbRead w.dev with ⟨e | r, d⟩
  · rw [Backend.read_of_error hread]
    exact .of_quiet rfl rfl
  · rw [Backend.read_of_ok hread]
    exact .of_quiet rfl rfl

theorem idle_ykForceKeyUpdate : Moves (Idle id) (ykForceKeyUpdate H) := by
  intro w
  rcases hwrite : H.ykusbWrite dummyReport w.dev with ⟨e | u, d⟩
  · rw [ykForceKeyUpdate, Backend.write_of_error hwrite]
    exact .of_write part_dummyReport rfl
  · rw [ykForceKeyUpdate, Backend.write_of_ok hwrite]
    exact .of_write part_dummyReport rfl

theorem idle_failWith (e : YkErr) : Moves (Idle id) (failWith e : Yk σ α) :=
  idle_of_trace fun _ => rfl

theorem asks_failWith (e : YkErr) (gs : List (List UInt8)) :
    Asks id (failWith e : Yk σ α) gs := by
  refine .of_never (idle_failWith e) (fun w a h => ?_) gs
  cases h

theorem idle_waitLoop (flags : UInt32) (logicAnd : Bool) (mask : UInt8) :
    ∀ (fuel sleepval sleptTime maxTimeMs : ℕ) (blocking : Bool),
      Moves (Idle id) (waitLoop H flags logicAnd mask fuel sleepval sleptTime maxTimeMs blocking)
  | 0, _, _, _, _ => .diverge Idle.refl
  | fuel + 1, sleepval, sleptTime, maxTimeMs, blocking => by
    have hreset := (idle_ykForceKeyUpdate H).attempt
    have ih := idle_waitLoop flags logicAnd mask fuel
    refine .ite (idle_bind (fun _ => .of_quiet rfl rfl) fun _ => idle_bind (idle_read H) fun data =>
      .ite (idle_pure _) <| .ite (.ite (ih _ _ _ _) ?_) ?_) (idle_failWith _)
    · exact idle_bind hreset fun _ => idle_failWith _
    · exact .ite (idle_failWith _) (ih _ _ _ _)

theorem idle_ykWaitForKeyStatus (slot : UInt8) (flags : UInt32) (maxTimeMs : ℕ) (logicAnd : Bool)
    (mask : UInt8) : Moves (Idle id) (ykWaitForKeyStatus H slot flags maxTimeMs logicAnd mask) :=
  idle_waitLoop H flags logicAnd mask _ _ _ _ _

theorem idle_memcpy (buf : List UInt8) (off : ℕ) (xs : List UInt8) :
    Moves (Idle id) (memcpy buf off xs : Yk σ _) := .ite (idle_pure _) Idle.refl

theorem idle_loadBytes (buf : List UInt8) (n : ℕ) : Moves (Idle id) (loadBytes buf n : Yk σ _) :=
  .ite (idle_pure _) Idle.refl

theorem idle_verifyResponse (expectBytes bytesRead : ℕ) (buf : List UInt8) :
    Moves (Idle id) (verifyResponse H expectBytes bytesRead buf) :=
  .ite (idle_bind (idle_loadBytes _ _) fun _ => .ite (idle_failWith _) <|
    .ite (idle_failWith _) (idle_pure _)) (idle_pure _)

theorem idle_readResponseLoop (bufsize expectBytes : ℕ) : ∀ (fuel bytesRead : ℕ) (buf : List UInt8),
    Moves (Idle id) (readResponseLoop H bufsize expectBytes fuel bytesRead buf)
  | 0, _, _ => .diverge Idle.refl
  | fuel + 1, bytesRead, buf => by
    have hreset := (idle_ykForceKeyUpdate H).attempt
    refine .ite (idle_bind (idle_read H) fun data => .ite (.ite ?_ ?_) ?_) ?_
    · exact idle_bind (idle_verifyResponse H _ _ _) fun _ => idle_bind hreset fun _ => idle_pure _
    · exact idle_bind (idle_memcpy _ _ _) fun buf =>
        idle_readResponseLoop bufsize expectBytes fuel _ buf
    · exact idle_bind hreset fun _ => .fail Idle.refl
    · exact idle_bind hreset fun _ => idle_failWith _

theorem idle_ykReadResponseFromKey (slot : UInt8) (flags bufsize expectBytes : UInt32) :
    Moves (Idle id) (ykReadResponseFromKey H slot flags bufsize expectBytes) :=
  idle_bind (idle_ykWaitForKeyStatus H _ _ _ _ _) fun _ => idle_bind (idle_memcpy _ _ _) fun _ =>
    idle_readResponseLoop H _ _ _ _ _

theorem idle_ykReadFromKey (slot : UInt8) (bufsize : ℕ) :
    Moves (Idle id) (ykReadFromKey H slot bufsize) :=
  .ite (idle_failWith _) <| idle_bind (idle_read H) fun _ => idle_pure _

theorem idle_ykGetStatus : Moves (Idle id) (ykGetStatus H) :=
  idle_bind (idle_ykReadFromKey H _ _) fun _ => .ite (idle_failWith _) (idle_pure _)

end Idle

/-! ## Writing a frame -/

section Write

/-- What arrives of a run of the handshake is what it has given, and maybe one report more. -/
theorem Sender.run_arrives {rs : List Report} {abort : Report} (hab : abort.part = none) :
    ∀ {t : List Event} {s s' : Sender rs} {xs : List Report}, s.run abort t = some s' →
      Arrives (outgoing t) xs → ∃ n, s'.taken ≤ s.taken + n ∧
        xs.filterMap Report.part = ((rs.drop s.taken).take n).filterMap Report.part
  | [], s, s', xs, h, hxs => by
    obtain rfl := Option.some.inj h
    rw [hxs.eq_nil]
    exact ⟨0, Nat.le_refl _, rfl⟩
  | e :: t, s, s', xs, h, hxs => by
    simp only [run_cons, Option.bind_eq_some_iff] at h
    obtain ⟨s₁, h₁, h⟩ := h
    have ih := fun {ys} (hys : Arrives (outgoing t) ys) => run_arrives hab h hys
    rcases step_cases h₁ with
      ⟨-, ⟨ms, rfl, rfl⟩ | ⟨rfl, rfl⟩ | ⟨q, rfl, -, rfl⟩ | ⟨q, rfl, -, rfl⟩ | ⟨ok, rfl, rfl⟩⟩
        | ⟨-, r, hr, ⟨rfl, hlt, rfl⟩ | ⟨rfl, rfl⟩⟩
    · exact ih hxs
    · exact ih hxs
    · exact ih hxs
    · exact ih hxs
    · -- whether the reset arrives makes no difference
      cases hxs with
      | sent _ _ hxs =>
        rw [List.filterMap_cons_none hab]
        exact ih hxs
      | lost _ hxs => exact ih hxs
    · have hdrop : rs.drop s.taken = r :: rs.drop (s.taken + 1) := by
        rw [List.drop_eq_getElem?_toList_append, hr]
        rfl
      cases hxs with
      | sent _ _ hxs =>
        obtain ⟨n, hn, hpart⟩ := ih hxs
        refine ⟨n + 1, by rw [give_taken] at hn; omega, ?_⟩
        rw [hdrop, List.take_succ_cons, List.filterMap_cons, List.filterMap_cons, hpart, give_taken]
    · cases hxs with
      | lost _ hxs => exact ih hxs
      | sent _ _ hxs =>
        -- nothing comes behind a write that failed
        obtain rfl : t = [] := by
          cases t with
          | nil => rfl
          | cons e t => simp [run_cons, step_closed (inPhase_phase s .closed)] at h
        obtain rfl := Option.some.inj h
        obtain rfl := hxs.eq_nil
        refine ⟨1, Nat.le_succ _, ?_⟩
        rw [List.drop_eq_getElem?_toList_append, hr]
        rfl

variable {H : Host σ}

theorem part_partReport {s : ℕ} {part : List UInt8} (hs : s < 10) (h : part.length = 7) :
    (partReport s part).part = some (s, part) := by
  have hseq : ScriptedKey.seqOf (partReport s part) = s := by
    have hxor : ∀ s : Fin 10,
        ((UInt8.ofNat s ||| slotWriteFlag) ^^^ slotWriteFlag).toNat = s.val := by decide
    rw [ScriptedKey.seqOf, status_partReport h]
    exact hxor ⟨s, hs⟩
  rw [Report.part, hseq, if_pos hs, data_partReport h]

theorem filterMap_canonicalReports {frame : List UInt8} (hf : frame.length = 70) (n : ℕ) :
    ((canonicalReports frame).take n).filterMap Report.part = (frameParts frame).take n := by
  rw [canonicalReports, ← List.map_take, List.filterMap_map]
  have h : ∀ p ∈ (frameParts frame).take n,
      (Report.part ∘ fun p => partReport p.1 p.2) p = some p := by
    intro p hp
    obtain ⟨hs, hlen⟩ := mem_frameParts hf (List.mem_of_mem_take hp)
    exact part_partReport hs hlen
  rw [List.filterMap_congr h, List.filterMap_some]

/-- A frame that is sent is the one request, as soon as all its parts have arrived. -/
theorem asks_of_sends {x : Yk σ Unit} {frame : List UInt8} (hf : frame.length = 70)
    (h : ∀ w, Sends x w (Sender.init (canonicalReports frame))) : Asks id x [frame] := by
  have hlen : (frameParts frame).length = (canonicalReports frame).length :=
    (List.length_map _).symm
  have hrun : ∀ w, ∃ t s', (x w).2.trace = w.trace ++ t ∧
      ((x w).1 = .ok () ∧ s' = (frameParts frame).length ∨ (x w).1 = .fail) ∧
        ∀ buf rs, Arrives (outgoing t) rs → ∃ n, s' ≤ n ∧ requests buf rs
          = if (frameParts frame).length ≤ n then [frame] else [] := by
    intro w
    obtain ⟨t, s', ht, hrun, hend⟩ := h w
    refine ⟨t, s'.taken, ht, ?_, fun buf rs hrs => ?_⟩
    · exact hend.imp (fun hok => ⟨hok.1, hok.2.1.trans hlen.symm⟩) fun hfail => hfail.1
    · obtain ⟨n, hn, hparts⟩ := Sender.run_arrives part_dummyReport hrun hrs
      rw [show (Sender.init (canonicalReports frame)).taken = 0 from rfl, Nat.zero_add] at hn
      refine ⟨n, hn, ?_⟩
      rw [requests, hparts]
      exact (congrArg _ (filterMap_canonicalReports hf n)).trans
        (Buffer.frames_take_encode hf (by decide) buf n)
  constructor
  · intro w
    obtain ⟨t, s', ht, -, h⟩ := hrun w
    refine ⟨t, ht, fun buf rs hrs => ?_⟩
    obtain ⟨n, -, hn⟩ := h buf rs hrs
    rw [hn]
    split_ifs
    · exact List.Sublist.refl _
    · exact List.nil_sublist _
  · intro w a w' hok
    obtain ⟨t, s', ht, hend, h⟩ := hrun w
    rw [hok] at ht hend
    obtain ⟨-, rfl⟩ := hend.resolve_right (by simp)
    refine ⟨t, ht, fun buf rs hrs => ?_⟩
    obtain ⟨n, hle, hn⟩ := h buf rs hrs
    rw [hn, if_pos hle]

/-- A payload that is too long is refused before anything is sent. -/
theorem ykWriteToKey_asks (slot : UInt8) (buf : List UInt8) {n : ℕ} (hn : n < 2 ^ 32) :
    Asks id (ykWriteToKey H slot buf (Int32.ofNat n))
      [wireFrame H.yubikeyCrc16 slot (buf.take n)] := by
  by_cases h64 : n ≤ slotDataSize
  · by_cases hbuf : n ≤ buf.length
    · exact asks_of_sends (length_wireFrame _ _ (by rw [List.length_take]; omega))
        (ykWriteToKey_sends slot h64 hbuf)
    · have hfault : ∀ w, ykWriteToKey H slot buf (Int32.ofNat n) w = (.fault, w) := fun w => by
        have hsize : sizeT (Int32.ofNat n) = n := sizeT_ofNat (Nat.lt_of_le_of_lt h64 (by decide))
        rw [ykWriteToKey, hsize, if_neg (Nat.not_lt.2 h64), loadBytes, if_neg hbuf]
        rfl
      refine .of_never (fun w => ?_) (fun w a => ?_) _
      · rw [hfault]
        exact .refl w
      · rw [hfault]
        intro h
        cases h
  · have hfail : ykWriteToKey H slot buf (Int32.ofNat n) = failWith .EWRONGSIZ := by
      rw [ykWriteToKey, if_pos (lt_sizeT_ofNat (by decide) (by omega) hn)]
    rw [hfail]
    exact asks_failWith _ _

end Write

/-! ## The functions that ask a key -/

section Functions

variable (H : Host σ)

def serialRequest (crc16 : List UInt8 → UInt16) : List UInt8 := wireFrame crc16 slotDeviceSerial []

def capabilitiesRequest (crc16 : List UInt8 → UInt16) : List UInt8 :=
  wireFrame crc16 slotYk4Capabilities []

theorem ykGetSerial_asks (slot : UInt8) (flags : UInt32) :
    Asks id (ykGetSerial H slot flags) [serialRequest H.yubikeyCrc16] :=
  (ykWriteToKey_asks (n := 0) slotDeviceSerial _ (by decide)).then_idle fun _ =>
    idle_bind (idle_ykReadResponseFromKey H _ _ _ _) fun _ => idle_pure _

theorem ykGetCapabilities_asks (slot : UInt8) (flags : UInt32) (capabilities : List UInt8)
    (len : UInt32) :
    Asks id (ykGetCapabilities H slot flags capabilities len)
      [capabilitiesRequest H.yubikeyCrc16] := by
  refine (ykWriteToKey_asks (n := 0) slotYk4Capabilities _ (by decide)).then_idle fun _ =>
    idle_bind (idle_ykReadResponseFromKey H _ _ _ _) fun p => ?_
  exact .ite (idle_failWith _) (idle_pure _)

theorem ykChallengeResponse_asks (ykCmd : UInt8) (mayBlock : Bool) (challengeLen : UInt32)
    (challenge : List UInt8) (responseLen : UInt32) :
    Asks id (ykChallengeResponse H ykCmd mayBlock challengeLen challenge responseLen)
      [wireFrame H.yubikeyCrc16 ykCmd (challenge.take challengeLen.toNat)] := by
  unfold ykChallengeResponse
  cases chalRespBytes ykCmd with
  | none => exact asks_failWith _ _
  | some expectBytes =>
    exact (ykWriteToKey_asks ykCmd _ challengeLen.toNat_lt).then_idle fun _ =>
      idle_bind (idle_ykReadResponseFromKey H _ _ _ _) fun _ => idle_pure _

theorem ykWrite_asks (ykCmd : UInt8) (buf : List UInt8) {n : ℕ} (hn : n < 2 ^ 32) :
    Asks id (ykWrite H ykCmd buf n) [wireFrame H.yubikeyCrc16 ykCmd (buf.take n)] := by
  refine .idle_then (idle_ykGetStatus H) fun stat => (ykWriteToKey_asks ykCmd buf hn).then_idle
    fun _ => idle_bind (idle_ykWaitForKeyStatus H _ _ _ _ _) fun _ =>
      idle_bind (idle_ykGetStatus H) fun stat' => idle_bind (idle_of_trace fun _ => rfl) fun _ => ?_
  exact .ite (idle_pure _) (.ite (idle_pure _) (.fail Idle.refl))

end Functions

/-! ## Finding a key -/

section Open

variable (U : Usb σ)

theorem idle_busCall (f : σ → Except (Option YkErr) Unit × σ) : Moves (Idle id) (busCall f) := by
  refine idle_of_trace fun w => ?_
  unfold busCall
  split <;> rfl

theorem idle_ykOpenKey (index : ℤ) : Moves (Idle id) (ykOpenKey U index) := by
  have hset : ∀ f : World σ → Option YkErr,
      Moves (Idle id) (Proc.modify fun w => { w with ykErrno := f w }) :=
    fun _ => idle_of_trace fun _ => rfl
  have hopen := fun vendorId => (idle_busCall (U.ykusbOpenDevice vendorId index)).attempt
  refine idle_bind (hopen _) fun found => .ite (idle_bind (idle_pure _) ?_)
    (idle_bind (hset _) fun _ => idle_bind (hopen _) ?_)
  all_goals
    refine fun found => .ite (.fail Idle.refl) <| .get_bind fun w =>
      idle_bind (idle_ykGetStatus U.toHost).attempt fun st => ?_
    cases st with
    | some _ => exact hset _
    | none =>
      exact .get_bind fun w => idle_bind (idle_busCall _).attempt fun _ =>
        idle_bind (hset _) fun _ => .fail Idle.refl

end Open

end YkPers
