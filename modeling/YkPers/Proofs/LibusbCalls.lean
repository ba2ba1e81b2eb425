import YkPers.LibusbCalls
import YkPers.Proofs.ToolsLifecycle

/-!
# libusb is called in its order

The libusb-1.0 backend has a life cycle, in which what the log of the calls leads to is fixed by
the phase (`libusb_lifecycle`). So whatever libusb returns, a program calls it in its order, and
where the program returns, nothing is claimed, open or initialised.
-/

namespace YkPers

variable {δ τ α : Type} [DecidableEq δ] (B : LibusbBus δ τ)

/-- The calls in the log lead to `q`. -/
def Stands (s : τ × List (LibusbCall δ)) (q : LibusbState δ) : Prop :=
  LibusbState.after s.2 = some q

section Calls

variable {q r : LibusbState δ} {s : τ × List (LibusbCall δ)}

theorem stands_noted {f : τ → α × τ} {call : α → LibusbCall δ} (h : Stands s q)
    (hc : q.step (call (f s.1).1) = some r) : Stands (noted f call s).2 r := follows_concat h hc

theorem stands_notedUnit {f : τ → τ} {call : LibusbCall δ} (h : Stands s q)
    (hc : q.step call = some r) : Stands (notedUnit f call s) r := follows_concat h hc

theorem stands_scanDevices (vendorId : ℕ) (index : ℤ) : ∀ (list : List δ) (found : ℕ)
    (dev : Option δ) (s : τ × List (LibusbCall δ)), Stands s .ready →
      Stands (B.logged.scanDevices vendorId index list found dev s).2 .ready := by
  intro list
  induction list with
  | nil => exact fun _ _ _ h => h
  | cons x xs ih =>
    intro found dev s h
    have hdesc : Stands (B.logged.getDeviceDescriptor x s).2 .ready := stands_noted h rfl
    unfold LibusbBus.scanDevices
    generalize B.logged.getDeviceDescriptor x s = p at hdesc ⊢
    obtain ⟨⟨rc, desc⟩, t⟩ := p
    dsimp only
    split_ifs
    · exact hdesc
    · exact ih _ _ _ hdesc
    · exact ih _ _ _ hdesc

theorem stands_configure {x : δ} (h : Stands s (.opened x)) :
    Stands (B.logged.configure x s) (.opened x) := by
  have hget : Stands (B.logged.getConfiguration x s).2 (.opened x) :=
    stands_noted h (LibusbState.onHandle_self _ _)
  unfold LibusbBus.configure
  generalize B.logged.getConfiguration x s = p at hget ⊢
  obtain ⟨⟨rc, currentCfg⟩, t⟩ := p
  dsimp only
  split_ifs
  · exact hget
  · exact stands_noted hget (LibusbState.onHandle_self _ _)
  · exact hget

theorem stands_prepareHandle {x : δ} (h : Stands s (.opened x)) :
    Stands (B.logged.prepareHandle x s) (.opened x) := by
  have hactive : Stands (B.logged.kernelDriverActive x s).2 (.opened x) :=
    stands_noted h (LibusbState.onHandle_self _ _)
  unfold LibusbBus.prepareHandle
  generalize B.logged.kernelDriverActive x s = p at hactive ⊢
  obtain ⟨active, t⟩ := p
  have hdetach : Stands (B.logged.detachKernelDriver x t).2 (.opened x) :=
    stands_noted hactive (LibusbState.onHandle_self _ _)
  dsimp only
  split_ifs
  · exact hdetach
  · exact stands_configure B hdetach
  · exact hactive
  · exact stands_configure B hactive

/-! ## Transfers -/

variable {x : δ}

theorem stands_claim (h : Stands s (.opened x)) :
    Stands ((B.logged.transfers x).claimInterface s).2
      (if ((B.logged.transfers x).claimInterface s).1 = 0 then .claimed x else .opened x) :=
  stands_noted h (LibusbState.onHandle_self _ _)

theorem stands_release (h : Stands s (.claimed x)) :
    Stands ((B.logged.transfers x).releaseInterface s).2 (.opened x) :=
  stands_noted h (LibusbState.onHandle_self _ _)

theorem stands_ykusbWrite (r : Report) (h : Stands s (.opened x)) :
    Stands ((B.logged.transfers x).ykusbWrite r s).2 (.opened x) := by
  have hclaim := stands_claim B h
  unfold Libusb.ykusbWrite
  generalize (B.logged.transfers x).claimInterface s = p at hclaim ⊢
  obtain ⟨claim, t⟩ := p
  dsimp only at hclaim ⊢
  by_cases h0 : claim = 0
  · rw [if_pos h0] at hclaim
    have hout : Stands ((B.logged.transfers x).controlTransferOut r t).2 (.claimed x) :=
      stands_noted hclaim (LibusbState.onHandle_self _ _)
    have hrelease := stands_release B hout
    simp only [if_pos h0]
    split_ifs <;> exact hrelease
  · rw [if_neg h0] at hclaim
    simp only [if_neg h0]
    split_ifs <;> exact hclaim

theorem stands_ykusbRead (h : Stands s (.opened x)) :
    Stands ((B.logged.transfers x).ykusbRead s).2 (.opened x) := by
  have hclaim := stands_claim B h
  unfold Libusb.ykusbRead
  generalize (B.logged.transfers x).claimInterface s = p at hclaim ⊢
  obtain ⟨claim, t⟩ := p
  dsimp only at hclaim ⊢
  by_cases h0 : claim = 0
  · rw [if_pos h0] at hclaim
    have hin : Stands ((B.logged.transfers x).controlTransferIn t).2 (.claimed x) :=
      stands_noted hclaim (LibusbState.onHandle_self _ _)
    have hrelease := stands_release B hin
    simp only [if_pos h0]
    split_ifs <;> exact hrelease
  · rw [if_neg h0] at hclaim
    simp only [if_neg h0]
    split_ifs <;> exact hclaim

end Calls

/-! ## The life cycle -/

/-- What holds of the backend and of the log in each phase. -/
def LibusbPhase : KeyPhase → LibusbSession δ (τ × List (LibusbCall δ)) → Prop
  | .down, s => s.inited = false ∧ s.handle = none ∧ Stands s.lib .off
  | .up, s => s.inited = true ∧ s.handle = none ∧ Stands s.lib .ready
  | .opened, s => s.inited = true ∧ ∃ x, s.handle = some x ∧ Stands s.lib (.opened x)

theorem leads_transfer {f : Libusb (τ × List (LibusbCall δ)) → τ × List (LibusbCall δ) →
      Except (Option YkErr) α × (τ × List (LibusbCall δ))}
    (hf : ∀ {x s}, Stands s (.opened x) → Stands (f (B.logged.transfers x) s).2 (.opened x)) :
    Leads (B.logged.transfer f) (LibusbPhase .opened) (LibusbPhase .opened)
      (LibusbPhase .opened) := by
  rintro s ⟨hinit, x, hx, hs⟩
  have h := hf hs
  unfold LibusbBus.transfer
  rw [hx]
  dsimp only
  generalize f (B.logged.transfers x) s.lib = p at h ⊢
  obtain ⟨_ | _, t⟩ := p <;> exact ⟨hinit, x, rfl, h⟩

theorem leads_openDevice (vendorId : ℕ) (index : ℤ) :
    Leads (B.logged.ykusbOpenDevice vendorId index) (LibusbPhase .up) (LibusbPhase .opened)
      (LibusbPhase .up) := by
  rintro s ⟨hinit, hnone, hs⟩
  have hlist : Stands (B.logged.getDeviceList s.lib).2 .ready := stands_noted hs rfl
  unfold LibusbBus.ykusbOpenDevice
  generalize B.logged.getDeviceList s.lib = p at hlist ⊢
  obtain ⟨list, t⟩ := p
  have hscan := stands_scanDevices B vendorId index list 0 none t hlist
  dsimp only
  generalize B.logged.scanDevices vendorId index list 0 none t = p at hscan ⊢
  obtain ⟨_ | _ | x, u⟩ := p
  · exact ⟨hinit, hnone, hscan⟩
  · exact ⟨hinit, hnone, hscan⟩
  · have hopen : Stands (B.logged.libusbOpen x u).2
        (if (B.logged.libusbOpen x u).1 = 0 then .opened x else .ready) := stands_noted hscan rfl
    rcases hrun : B.logged.libusbOpen x u with ⟨rc, v⟩
    rw [hrun] at hopen
    simp only [hrun]
    by_cases hrc : rc ≠ 0
    · rw [if_neg hrc] at hopen
      rw [if_pos hrc]
      exact ⟨hinit, hnone, hopen⟩
    · rw [if_pos (not_not.1 hrc)] at hopen
      rw [if_neg hrc]
      exact ⟨hinit, x, rfl, stands_prepareHandle B hopen⟩

theorem leads_start : Leads B.logged.ykusbStart (LibusbPhase .down) (LibusbPhase .up)
    (LibusbPhase .down) := by
  rintro s ⟨hinit, hnone, hs⟩
  have h : Stands (B.logged.libusbInit s.lib).2
      (if (B.logged.libusbInit s.lib).1 = 0 then .ready else .off) := stands_noted hs rfl
  unfold LibusbBus.ykusbStart
  rcases hrun : B.logged.libusbInit s.lib with ⟨rc, t⟩
  rw [hrun] at h
  dsimp only
  by_cases hrc : rc ≠ 0
  · rw [if_neg hrc] at h
    rw [if_pos hrc]
    exact ⟨hinit, hnone, h⟩
  · rw [if_pos (not_not.1 hrc)] at h
    rw [if_neg hrc]
    exact ⟨rfl, hnone, h⟩

theorem leads_closeDevice : Leads B.logged.ykusbCloseDevice (LibusbPhase .opened)
    (LibusbPhase .up) (LibusbPhase .up) := by
  rintro s ⟨hinit, x, hx, hs⟩
  have hattach : Stands (B.logged.attachKernelDriver x s.lib) (.opened x) :=
    stands_notedUnit hs (LibusbState.onHandle_self _ _)
  have hclose : Stands (B.logged.libusbClose x (B.logged.attachKernelDriver x s.lib)) .ready :=
    stands_notedUnit hattach (LibusbState.onHandle_self _ _)
  unfold LibusbBus.ykusbCloseDevice
  rw [hx]
  exact ⟨hinit, rfl, hclose⟩

/-- A backend that was not started refuses to stop. -/
theorem leads_stop : Leads B.logged.ykusbStop (fun s => LibusbPhase .down s ∨ LibusbPhase .up s)
    (LibusbPhase .down) (LibusbPhase .down) := by
  rintro s (⟨hinit, hnone, hs⟩ | ⟨hinit, hnone, hs⟩)
  · rw [LibusbBus.ykusbStop, hinit]
    exact ⟨hinit, hnone, hs⟩
  · rw [LibusbBus.ykusbStop, hinit]
    exact ⟨rfl, hnone, stands_notedUnit hs rfl⟩

theorem libusb_lifecycle (endian : Endian) (crc16 : List UInt8 → UInt16) :
    Lifecycle (B.logged.usb endian crc16) LibusbPhase where
  start := leads_start B
  openDevice := leads_openDevice B
  read := leads_transfer B (f := Libusb.ykusbRead) (stands_ykusbRead B)
  write r := leads_transfer B (f := fun L => L.ykusbWrite r) (stands_ykusbWrite B r)
  closeDevice := leads_closeDevice B
  stop := leads_stop B

/-- The ids of the key are read off the handle. -/
theorem leads_getVidPid : Leads B.logged.ykusbGetVidPid (LibusbPhase .opened)
    (LibusbPhase .opened) (LibusbPhase .opened) := by
  rintro s ⟨hinit, x, hx, hs⟩
  have h : Stands (B.logged.getDeviceDescriptor x s.lib).2 (.opened x) :=
    stands_noted hs (LibusbState.onHandle_self _ _)
  unfold LibusbBus.ykusbGetVidPid
  rw [hx]
  rcases hrun : B.logged.getDeviceDescriptor x s.lib with ⟨⟨rc, desc⟩, t⟩
  rw [hrun] at h
  simp only [hrun]
  split_ifs <;> exact ⟨hinit, x, rfl, h⟩

end YkPers
