import YkPers.Proofs.LibusbCalls

/-!
# Runs over libusb

A bus that logs its calls is used as the bus without the log (`logged_sim`), so the log tells which
calls a run over any bus makes: they are in libusb's order (`ykpersonalize_inOrder`,
`Ykchalresp.ykchalresp_inOrder`, `Ykinfo.ykinfo_inOrder`).
-/

namespace YkPers

variable {δ τ α : Type} (B : LibusbBus δ τ)

/-! ## The log changes nothing -/

def LibusbSession.unlogged (s : LibusbSession δ (τ × List (LibusbCall δ))) : LibusbSession δ τ :=
  ⟨s.lib.1, s.inited, s.handle⟩

theorem logged_scanDevices (vendorId : ℕ) (index : ℤ) : ∀ (list : List δ) (found : ℕ)
    (dev : Option δ) (s : τ × List (LibusbCall δ)),
      (B.logged.scanDevices vendorId index list found dev s).1
        = (B.scanDevices vendorId index list found dev s.1).1
      ∧ (B.logged.scanDevices vendorId index list found dev s).2.1
        = (B.scanDevices vendorId index list found dev s.1).2 := by
  intro list
  induction list with
  | nil => exact fun _ _ _ => ⟨rfl, rfl⟩
  | cons x xs ih =>
    intro found dev s
    unfold LibusbBus.scanDevices
    rcases hrun : B.getDeviceDescriptor x s.1 with ⟨⟨rc, desc⟩, t⟩
    have hlog : B.logged.getDeviceDescriptor x s
        = ((rc, desc), t, s.2 ++ [.getDeviceDescriptor x]) := by
      simp only [LibusbBus.logged, noted, hrun]
    rw [hlog]
    dsimp only
    split_ifs
    · exact ⟨rfl, rfl⟩
    · exact ih _ _ _
    · exact ih _ _ _

theorem logged_configure (x : δ) (s : τ × List (LibusbCall δ)) :
    (B.logged.configure x s).1 = B.configure x s.1 := by
  simp only [LibusbBus.configure, LibusbBus.logged, noted]
  split_ifs <;> rfl

theorem logged_prepareHandle (x : δ) (s : τ × List (LibusbCall δ)) :
    (B.logged.prepareHandle x s).1 = B.prepareHandle x s.1 := by
  have hactive : ∀ s, B.logged.kernelDriverActive x s = ((B.kernelDriverActive x s.1).1,
      (B.kernelDriverActive x s.1).2, s.2 ++ [.kernelDriverActive x]) := fun _ => rfl
  have hdetach : ∀ s, B.logged.detachKernelDriver x s = ((B.detachKernelDriver x s.1).1,
      (B.detachKernelDriver x s.1).2, s.2 ++ [.detachKernelDriver x]) := fun _ => rfl
  simp only [LibusbBus.prepareHandle, hactive, hdetach]
  split_ifs
  · rfl
  · exact logged_configure B x _
  · rfl
  · exact logged_configure B x _

theorem logged_ykusbRead (x : δ) (s : τ × List (LibusbCall δ)) :
    ((B.logged.transfers x).ykusbRead s).1 = ((B.transfers x).ykusbRead s.1).1
      ∧ ((B.logged.transfers x).ykusbRead s).2.1 = ((B.transfers x).ykusbRead s.1).2 := by
  simp only [Libusb.ykusbRead, LibusbBus.logged, noted]
  split_ifs <;> exact ⟨rfl, rfl⟩

theorem logged_ykusbWrite (x : δ) (r : Report) (s : τ × List (LibusbCall δ)) :
    ((B.logged.transfers x).ykusbWrite r s).1 = ((B.transfers x).ykusbWrite r s.1).1
      ∧ ((B.logged.transfers x).ykusbWrite r s).2.1 = ((B.transfers x).ykusbWrite r s.1).2 := by
  simp only [Libusb.ykusbWrite, LibusbBus.logged, noted]
  split_ifs <;> exact ⟨rfl, rfl⟩

/-- A call on the session with a log is the call on the session without. -/
def Unlogs (f : LibusbSession δ (τ × List (LibusbCall δ)) →
      α × LibusbSession δ (τ × List (LibusbCall δ)))
    (g : LibusbSession δ τ → α × LibusbSession δ τ) : Prop :=
  ∀ s, (f s).1 = (g s.unlogged).1 ∧ (f s).2.unlogged = (g s.unlogged).2

theorem Unlogs.answers {f : LibusbSession δ (τ × List (LibusbCall δ)) →
      α × LibusbSession δ (τ × List (LibusbCall δ))}
    {g : LibusbSession δ τ → α × LibusbSession δ τ} (h : Unlogs f g) :
    Answers (fun s s' => s.unlogged = s') f g := by
  rintro s _ rfl
  exact h s

theorem unlogs_transfer {f : {τ : Type} → Libusb τ → τ → Except (Option YkErr) α × τ}
    (hf : ∀ x (s : τ × List (LibusbCall δ)), (f (B.logged.transfers x) s).1
        = (f (B.transfers x) s.1).1
      ∧ (f (B.logged.transfers x) s).2.1 = (f (B.transfers x) s.1).2) :
    Unlogs (B.logged.transfer f) (B.transfer f) := by
  rintro ⟨lib, inited, handle⟩
  cases handle with
  | none => exact ⟨rfl, rfl⟩
  | some x =>
    obtain ⟨h1, h2⟩ := hf x lib
    exact ⟨h1, congrArg (LibusbSession.mk · inited (some x)) h2⟩

theorem unlogs_openDevice (vendorId : ℕ) (index : ℤ) :
    Unlogs (B.logged.ykusbOpenDevice vendorId index) (B.ykusbOpenDevice vendorId index) := by
  rintro ⟨lib, inited, handle⟩
  have hlist : B.logged.getDeviceList lib = ((B.getDeviceList lib.1).1, (B.getDeviceList lib.1).2,
      lib.2 ++ [.getDeviceList]) := rfl
  have hscan := logged_scanDevices B vendorId index (B.getDeviceList lib.1).1 0 none
    ((B.getDeviceList lib.1).2, lib.2 ++ [.getDeviceList])
  unfold LibusbBus.ykusbOpenDevice
  rw [hlist]
  dsimp only [LibusbSession.unlogged]
  generalize B.scanDevices vendorId index (B.getDeviceList lib.1).1 0 none
    (B.getDeviceList lib.1).2 = p at hscan ⊢
  generalize B.logged.scanDevices vendorId index (B.getDeviceList lib.1).1 0 none
    ((B.getDeviceList lib.1).2, lib.2 ++ [.getDeviceList]) = q at hscan ⊢
  obtain ⟨r, t⟩ := p
  obtain ⟨r', u, log⟩ := q
  obtain ⟨rfl, rfl⟩ := hscan
  match r' with
  | none => exact ⟨rfl, rfl⟩
  | some none => exact ⟨rfl, rfl⟩
  | some (some x) =>
    have hopen : B.logged.libusbOpen x (u, log) = ((B.libusbOpen x u).1, (B.libusbOpen x u).2,
        log ++ [.open x (B.libusbOpen x u).1]) := rfl
    simp only [hopen]
    split_ifs
    · exact ⟨rfl, rfl⟩
    · exact ⟨rfl, congrArg (LibusbSession.mk · inited (some x)) (logged_prepareHandle B x _)⟩

theorem unlogs_start : Unlogs B.logged.ykusbStart B.ykusbStart := by
  rintro ⟨lib, inited, handle⟩
  rcases hrun : B.libusbInit lib.1 with ⟨rc, t⟩
  have hinit : B.logged.libusbInit lib = (rc, t, lib.2 ++ [.init rc]) := by
    simp only [LibusbBus.logged, noted, hrun]
  simp only [LibusbBus.ykusbStart, LibusbSession.unlogged, hinit, hrun]
  split_ifs <;> exact ⟨rfl, rfl⟩

theorem unlogs_stop : Unlogs B.logged.ykusbStop B.ykusbStop := by
  rintro ⟨lib, inited, handle⟩
  cases inited <;> exact ⟨rfl, rfl⟩

theorem unlogs_closeDevice : Unlogs B.logged.ykusbCloseDevice B.ykusbCloseDevice := by
  rintro ⟨lib, inited, handle⟩
  cases handle <;> exact ⟨rfl, rfl⟩

theorem logged_sim (endian : Endian) (crc16 : List UInt8 → UInt16) :
    UsbSim (fun s s' => s.unlogged = s') (B.logged.usb endian crc16) (B.usb endian crc16) where
  host :=
    { endian := rfl
      yubikeyCrc16 := rfl
      read := (unlogs_transfer B (f := Libusb.ykusbRead) (logged_ykusbRead B)).answers
      write := fun r => (unlogs_transfer B (f := fun L => L.ykusbWrite r)
        fun x s => logged_ykusbWrite B x r s).answers }
  start := (unlogs_start B).answers
  stop := (unlogs_stop B).answers
  openDevice vendorId index := (unlogs_openDevice B vendorId index).answers
  closeDevice := (unlogs_closeDevice B).answers

theorem unlogs_getVidPid : Unlogs B.logged.ykusbGetVidPid B.ykusbGetVidPid := by
  rintro ⟨lib, inited, handle⟩
  cases handle with
  | none => exact ⟨rfl, rfl⟩
  | some x =>
    rcases hrun : B.getDeviceDescriptor x lib.1 with ⟨⟨rc, desc⟩, t⟩
    have hlog : B.logged.getDeviceDescriptor x lib
        = ((rc, desc), t, lib.2 ++ [.getDeviceDescriptor x]) := by
      simp only [LibusbBus.logged, noted, hrun]
    simp only [LibusbBus.ykusbGetVidPid, LibusbSession.unlogged, hlog, hrun]
    split_ifs <;> exact ⟨rfl, rfl⟩

/-! ## The programs -/

/-- Nothing is initialised, and no handle is open. -/
def LibusbSession.fresh (t : τ) : LibusbSession δ τ := ⟨t, false, none⟩

section Programs

variable [DecidableEq δ] (endian : Endian) (crc16 : List UInt8 → UInt16) (t : τ)

theorem fresh_down : LibusbPhase .down (.fresh (t, []) : LibusbSession δ _) := ⟨rfl, rfl, rfl⟩

theorem after_of_phase {p : KeyPhase} {s : LibusbSession δ (τ × List (LibusbCall δ))}
    (h : LibusbPhase p s) : ∃ q, LibusbState.after s.lib.2 = some q := by
  cases p with
  | down => exact ⟨_, h.2.2⟩
  | up => exact ⟨_, h.2.2⟩
  | opened =>
    obtain ⟨-, x, -, hs⟩ := h
    exact ⟨_, hs⟩

/-- Over any bus, the program calls libusb in its order. Where it returns, nothing is claimed, open
or initialised, unless it left by the `exit` behind an output that cannot be opened, with the key
still open. -/
theorem ykpersonalize_inOrder (M : MainEnv) (fuel : ℕ) (argv : List (List Char))
    (stdin : List Char) (scanCodes deviceInfo accessCode : List UInt8) (data : List Char) :
    let r := ykpersonalize (B.logged.usb endian crc16) M fuel
      (.start argv stdin scanCodes deviceInfo accessCode data (.fresh (t, [])))
    let r' := ykpersonalize (B.usb endian crc16) M fuel
      (.start argv stdin scanCodes deviceInfo accessCode data (.fresh t))
    let calls := r.2.session.world.dev.lib.2
    (r.1 = r'.1 ∧ SameRun (fun s s' => s.unlogged = s') (fun _ => True) r.2 r'.2) ∧
      (∃ q, LibusbState.after calls = some q) ∧
      ∀ code, r.1 = .ok code → LibusbState.after calls = some .off ∨
        (∃ x, LibusbState.after calls = some (.opened x)) ∧ code = 1 ∧
          Unwritable M r.2.session.args := by
  intro r r' calls
  refine ⟨?_, ?_⟩
  · refine sim_ykpersonalize M (logged_sim B endian crc16) fuel _ _ ?_
    exact ⟨⟨rfl, rfl, rfl, rfl⟩, rfl, trivial, rfl, rfl, rfl, rfl⟩
  · have h := (triple_ykpersonalize M (libusb_lifecycle B endian crc16) fuel).run
      (s := .start argv stdin scanCodes deviceInfo accessCode data (.fresh (t, [])))
      ⟨rfl, fresh_down t⟩
    have hphase : InPhase LibusbPhase r.2 := by
      refine h.any ?_ (fun _ h => h.elim) fun _ h => h
      rintro code m (hdown | ⟨hopened, -⟩)
      · exact ⟨_, hdown⟩
      · exact ⟨_, hopened⟩
    obtain ⟨p, hp⟩ := hphase
    refine ⟨after_of_phase hp, fun code hcode => ?_⟩
    rcases h.of_ok hcode with hdown | ⟨⟨-, x, -, hx⟩, hone, hunwritable⟩
    · exact .inl hdown.2.2
    · exact .inr ⟨⟨x, hx⟩, hone, hunwritable⟩

/-- So do the two smaller programs, which always let the key go. -/
theorem Ykchalresp.ykchalresp_inOrder (E : Ykchalresp.Env) (argv : List (List Char)) :
    let r := ykchalresp (B.logged.usb endian crc16) E argv (.start (.fresh (t, [])))
    let r' := ykchalresp (B.usb endian crc16) E argv (.start (.fresh t))
    let calls := r.2.world.dev.lib.2
    (r.1 = r'.1 ∧ SameState (fun s s' => s.unlogged = s') (fun _ => True) r.2 r'.2) ∧
      (∃ q, LibusbState.after calls = some q) ∧
      ∀ code, r.1 = .ok code → LibusbState.after calls = some .off := by
  intro r r' calls
  refine ⟨?_, ?_⟩
  · refine sim_ykchalresp E (logged_sim B endian crc16) argv _ _ ?_
    exact ⟨⟨rfl, rfl, rfl⟩, rfl, trivial, rfl, rfl, rfl⟩
  · have h := (triple_ykchalresp (libusb_lifecycle B endian crc16) E argv).run
      (s := .start (.fresh (t, []))) ⟨rfl, fresh_down t⟩
    have hphase : InPhase LibusbPhase r.2 :=
      h.any (fun _ _ h => ⟨_, h⟩) (fun _ h => h.elim) fun _ h => h
    obtain ⟨p, hp⟩ := hphase
    exact ⟨after_of_phase hp, fun code hcode => (h.of_ok hcode).2.2⟩

theorem Ykinfo.ykinfo_inOrder (E : Ykinfo.Env) (argv : List (List Char)) :
    let r := ykinfo (B.logged.usbIds endian crc16) E argv (.start (.fresh (t, [])))
    let r' := ykinfo (B.usbIds endian crc16) E argv (.start (.fresh t))
    let calls := r.2.world.dev.lib.2
    (r.1 = r'.1 ∧
      Ykchalresp.SameState (fun s s' => s.unlogged = s') (fun _ => True) r.2 r'.2) ∧
      (∃ q, LibusbState.after calls = some q) ∧
      ∀ code, r.1 = .ok code → LibusbState.after calls = some .off := by
  intro r r' calls
  refine ⟨?_, ?_⟩
  · refine sim_ykinfo E ⟨logged_sim B endian crc16, (unlogs_getVidPid B).answers⟩ argv _ _ ?_
    exact ⟨⟨rfl, rfl, rfl⟩, rfl, trivial, rfl, rfl, rfl⟩
  · have h := (triple_ykinfo (U := B.logged.usbIds endian crc16)
      (libusb_lifecycle B endian crc16) (leads_getVidPid B) E argv).run
      (s := .start (.fresh (t, []))) ⟨rfl, fresh_down t⟩
    have hphase : Ykchalresp.InPhase LibusbPhase r.2 :=
      h.any (fun _ _ h => ⟨_, h⟩) (fun _ h => h.elim) fun _ h => h
    obtain ⟨p, hp⟩ := hphase
    exact ⟨after_of_phase hp, fun code hcode => (h.of_ok hcode).2.2⟩

end Programs

end YkPers
