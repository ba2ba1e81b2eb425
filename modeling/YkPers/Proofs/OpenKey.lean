import YkPers.LibusbDevices
import YkPers.Proofs.WriteCommand

/-!
# Which key an index opens

A scan for a vendor opens the device at the index among the devices of that vendor
(`scanDevices_eq`). The second scan starts its index at 0 again, and is made only where the first
finds nothing, so that an index opens a device of the second vendor only if there are that many of
the first vendor at most, and of the second one more. It also forgets why the first scan failed, so
that a key that is found and not opened is reported as such only where the second scan finds one,
too.
-/

namespace YkPers

open Proc (attempt)

section Scan

variable {δ τ : Type} (B : LibusbBus δ τ)

theorem scanPids_of_notMem (x : δ) {idProduct : ℕ} (index : ℤ) :
    ∀ {pids : List ℕ} (found : ℕ) (dev : Option δ), idProduct ∉ pids →
      LibusbBus.scanPids x idProduct index pids found dev = (found, dev)
  | [], _, _, _ => rfl
  | pid :: pids, found, dev, h => by
    rw [LibusbBus.scanPids, if_neg (List.ne_of_not_mem_cons h),
      scanPids_of_notMem x index found dev (List.not_mem_of_not_mem_cons h)]

/-- A product in the table is counted once. -/
theorem scanPids_of_mem (x : δ) {idProduct : ℕ} (index : ℤ) :
    ∀ {pids : List ℕ} (found : ℕ) (dev : Option δ), pids.Nodup → idProduct ∈ pids →
      LibusbBus.scanPids x idProduct index pids found dev
        = (found + 1, if (found : ℤ) = index then some x else dev)
  | [], _, _, _, h => absurd h List.not_mem_nil
  | pid :: pids, found, dev, hn, h => by
    obtain ⟨hpid, hn⟩ := List.nodup_cons.1 hn
    rw [LibusbBus.scanPids]
    by_cases heq : idProduct = pid
    · subst heq
      rw [if_pos rfl, scanPids_of_notMem x index _ dev hpid]
      split_ifs <;> rfl
    · rw [if_neg heq, scanPids_of_mem x index found dev hn
        ((List.mem_cons.1 h).resolve_left heq)]

variable {B} {ds : List δ} {desc : δ → DeviceDescriptor}

/-- A device of a vendor with a product id in the table. -/
def isOf (desc : δ → DeviceDescriptor) (vendorId : ℕ) (x : δ) : Bool :=
  (desc x).idVendor = vendorId && (desc x).idProduct ∈ ykPids

/-- The device at the index among those of the vendor, counted on from `found`. -/
theorem scanDevices_eq {xs : List δ}
    (hdesc : ∀ x ∈ xs, ∀ t, (B.getDeviceDescriptor x t).1 = (0, desc x)) (vendorId i : ℕ) :
    ∀ (found : ℕ) (dev : Option δ) (t : τ), ∃ t', B.scanDevices vendorId i xs found dev t
      = (some (if found ≤ i then (xs.filter (isOf desc vendorId))[i - found]?.or dev else dev),
          t') := by
  induction xs with
  | nil =>
    intro found dev t
    exact ⟨t, by simp [LibusbBus.scanDevices]⟩
  | cons x xs ih =>
    intro found dev t
    have hx := hdesc x List.mem_cons_self t
    have ih := ih fun y hy => hdesc y (List.mem_cons_of_mem x hy)
    rcases hg : B.getDeviceDescriptor x t with ⟨p, t₁⟩
    rw [hg] at hx
    obtain rfl : p = (0, desc x) := hx
    rw [LibusbBus.scanDevices, hg]
    simp only [ne_eq, not_true_eq_false, if_false]
    by_cases hv : (desc x).idVendor = vendorId
    · by_cases hp : (desc x).idProduct ∈ ykPids
      · have hof : isOf desc vendorId x = true := by simp [isOf, hv, hp]
        rw [if_pos hv, scanPids_of_mem x i found dev (by decide) hp, List.filter_cons_of_pos hof]
        obtain ⟨t', h⟩ := ih (found + 1) (if (found : ℤ) = i then some x else dev) t₁
        refine ⟨t', h.trans (congrArg (fun o => (some o, t')) ?_)⟩
        -- the index is behind `x`, or that of `x`, or passed
        rcases Nat.lt_trichotomy found i with hlt | rfl | hgt
        · have hne : ¬ (found : ℤ) = i := by omega
          have hsub : i - found = i - (found + 1) + 1 := by omega
          rw [if_pos (Nat.succ_le_of_lt hlt), if_pos (Nat.le_of_lt hlt), if_neg hne, hsub,
            List.getElem?_cons_succ]
        · rw [if_neg (Nat.not_succ_le_self found), if_pos (Nat.le_refl found), if_pos rfl,
            Nat.sub_self, List.getElem?_cons_zero, Option.some_or]
        · have hne : ¬ (found : ℤ) = i := by omega
          rw [if_neg (by omega : ¬ found + 1 ≤ i), if_neg (Nat.not_le_of_gt hgt), if_neg hne]
      · have hof : ¬ isOf desc vendorId x = true := by simp [isOf, hp]
        rw [if_pos hv, scanPids_of_notMem x i found dev hp, List.filter_cons_of_neg hof]
        exact ih found dev t₁
    · have hof : ¬ isOf desc vendorId x = true := by simp [isOf, hv]
      rw [if_neg hv, List.filter_cons_of_neg hof]
      exact ih found dev t₁

end Scan

/-! ## One device -/

section Open

variable {δ τ : Type} {B : LibusbBus δ τ} {ds : List δ} {desc : δ → DeviceDescriptor}

/-- A device that `yk_open_key` looks for. -/
def isSupported (desc : δ → DeviceDescriptor) (x : δ) : Bool :=
  isOf desc yubicoVid x || isOf desc 0x1d50 x

/-- The devices connected are `ds`, and their descriptors can be read. -/
structure ListsDevices (B : LibusbBus δ τ) (ds : List δ) (desc : δ → DeviceDescriptor) : Prop where
  list : ∀ t, (B.getDeviceList t).1 = ds
  descriptor : ∀ x ∈ ds, ∀ t, (B.getDeviceDescriptor x t).1 = (0, desc x)

/-- The devices connected are `ds`, and what libusb returns for them: the descriptors can be read,
and a supported device can be opened and answers a status request. -/
structure Connected (B : LibusbBus δ τ) (ds : List δ) (desc : δ → DeviceDescriptor) : Prop where
  list : ∀ t, (B.getDeviceList t).1 = ds
  descriptor : ∀ x ∈ ds, ∀ t, (B.getDeviceDescriptor x t).1 = (0, desc x)
  opens : ∀ x ∈ ds, isSupported desc x → ∀ t, (B.libusbOpen x t).1 = 0
  answers : ∀ x ∈ ds, isSupported desc x → ∀ t, ∃ r t', (B.transfers x).ykusbRead t = (.ok r, t')

theorem Connected.listsDevices (h : Connected B ds desc) : ListsDevices B ds desc :=
  ⟨h.list, h.descriptor⟩

theorem ListsDevices.scan (h : ListsDevices B ds desc) (vendorId i : ℕ) (t : τ) :
    ∃ t', B.scanDevices vendorId i (B.getDeviceList t).1 0 none (B.getDeviceList t).2
      = (some (ds.filter (isOf desc vendorId))[i]?, t') := by
  obtain ⟨t', ht⟩ := scanDevices_eq h.descriptor vendorId i 0 none (B.getDeviceList t).2
  exact ⟨t', by simpa [h.list t] using ht⟩

theorem ListsDevices.ykusbOpenDevice_none (h : ListsDevices B ds desc) {vendorId i : ℕ}
    (hi : (ds.filter (isOf desc vendorId))[i]? = none) (s : LibusbSession δ τ) :
    ∃ t, B.ykusbOpenDevice vendorId i s = (.error (some .ENOKEY), { s with lib := t }) := by
  obtain ⟨t, ht⟩ := h.scan vendorId i s.lib
  rw [hi] at ht
  exact ⟨t, by simp only [LibusbBus.ykusbOpenDevice, ht]⟩

theorem Connected.ykusbOpenDevice_some (h : Connected B ds desc) {vendorId i : ℕ} {x : δ}
    (hi : (ds.filter (isOf desc vendorId))[i]? = some x) (hx : isSupported desc x)
    (s : LibusbSession δ τ) :
    ∃ t, B.ykusbOpenDevice vendorId i s = (.ok ⟨⟩, { s with lib := t, handle := some x }) := by
  obtain ⟨t, ht⟩ := h.listsDevices.scan vendorId i s.lib
  rw [hi] at ht
  have hmem : x ∈ ds := List.mem_of_mem_filter (List.mem_of_getElem? hi)
  have ho := h.opens x hmem hx t
  rcases hb : B.libusbOpen x t with ⟨rc, t'⟩
  rw [hb] at ho
  obtain rfl : rc = 0 := ho
  exact ⟨B.prepareHandle x t', by simp [LibusbBus.ykusbOpenDevice, ht, hb]⟩

end Open

/-! ## The two scans -/

section YkOpenKey

variable {σ : Type} {U : Usb σ} {i : ℤ} {w w₀ w₁ w₂ : World σ} {st : YkStatus}

theorem ykOpenKey_of_first (h : busCall (U.ykusbOpenDevice yubicoVid i) w = (.ok ⟨⟩, w₁))
    (hst : ykGetStatus U.toHost w₁ = (.ok st, w₂)) :
    ykOpenKey U i w = (.ok ⟨⟩, { w₂ with ykErrno := w₁.ykErrno }) := by
  rw [ykOpenKey, Proc.bind_ok (Proc.attempt_ok h)]
  simp only [Option.isSome_some, if_true, Proc.pure_bind_run, Option.isNone_some,
    Bool.false_eq_true, if_false, Proc.get_bind_run]
  rw [Proc.bind_ok (Proc.attempt_ok hst)]
  rfl

theorem ykOpenKey_of_second (h : busCall (U.ykusbOpenDevice yubicoVid i) w = (.fail, w₀))
    (h' : busCall (U.ykusbOpenDevice 0x1d50 i) { w₀ with ykErrno := none } = (.ok ⟨⟩, w₁))
    (hst : ykGetStatus U.toHost w₁ = (.ok st, w₂)) :
    ykOpenKey U i w = (.ok ⟨⟩, { w₂ with ykErrno := w₁.ykErrno }) := by
  rw [ykOpenKey, Proc.bind_ok (Proc.attempt_fail h)]
  simp only [Option.isSome_none, Bool.false_eq_true, if_false]
  rw [Proc.modify_bind_run, Proc.bind_ok (Proc.attempt_ok h')]
  simp only [Option.isNone_some, Bool.false_eq_true, if_false, Proc.get_bind_run]
  rw [Proc.bind_ok (Proc.attempt_ok hst)]
  rfl

theorem ykOpenKey_of_none (h : busCall (U.ykusbOpenDevice yubicoVid i) w = (.fail, w₀))
    (h' : busCall (U.ykusbOpenDevice 0x1d50 i) { w₀ with ykErrno := none } = (.fail, w₁)) :
    ykOpenKey U i w = (.fail, w₁) := by
  rw [ykOpenKey, Proc.bind_ok (Proc.attempt_fail h)]
  simp only [Option.isSome_none, Bool.false_eq_true, if_false]
  rw [Proc.modify_bind_run, Proc.bind_ok (Proc.attempt_fail h')]
  rfl

variable (U i) in
/-- One of the two scans opens a device. -/
def Opened (w w₁ : World σ) : Prop :=
  busCall (U.ykusbOpenDevice yubicoVid i) w = (.ok ⟨⟩, w₁)
    ∨ ∃ w₀, busCall (U.ykusbOpenDevice yubicoVid i) w = (.fail, w₀)
      ∧ busCall (U.ykusbOpenDevice 0x1d50 i) { w₀ with ykErrno := none } = (.ok ⟨⟩, w₁)

theorem busCall_cases (f : σ → Except (Option YkErr) Unit × σ) (w : World σ) :
    (∃ w', busCall f w = (.ok ⟨⟩, w')) ∨ ∃ w', busCall f w = (.fail, w') := by
  unfold busCall
  rcases f w.dev with ⟨e | u, d⟩
  · exact .inr ⟨_, rfl⟩
  · exact .inl ⟨_, rfl⟩

/-- What the status read leaves in `yk_errno` outlives the close. -/
theorem Opened.unread (h : Opened U i w w₁) (hst : ykGetStatus U.toHost w₁ = (.fail, w₂)) :
    ∃ w', ykOpenKey U i w = (.fail, w') ∧ w'.ykErrno = w₂.ykErrno := by
  obtain ⟨r, w₃, hclose⟩ : ∃ r w₃, attempt (busCall U.ykusbCloseDevice) w₂ = (.ok r, w₃) := by
    rcases busCall_cases U.ykusbCloseDevice w₂ with ⟨w₃, hc⟩ | ⟨w₃, hc⟩
    · exact ⟨_, w₃, Proc.attempt_ok hc⟩
    · exact ⟨_, w₃, Proc.attempt_fail hc⟩
  refine ⟨{ w₃ with ykErrno := w₂.ykErrno }, ?_, rfl⟩
  rcases h with h | ⟨w₀, h₀, h⟩
  · rw [ykOpenKey, Proc.bind_ok (Proc.attempt_ok h)]
    simp only [Option.isSome_some, if_true, Proc.pure_bind_run, Option.isNone_some,
      Bool.false_eq_true, if_false, Proc.get_bind_run]
    rw [Proc.bind_ok (Proc.attempt_fail hst)]
    exact (Proc.bind_ok hclose).trans rfl
  · rw [ykOpenKey, Proc.bind_ok (Proc.attempt_fail h₀)]
    simp only [Option.isSome_none, Bool.false_eq_true, if_false]
    rw [Proc.modify_bind_run, Proc.bind_ok (Proc.attempt_ok h)]
    simp only [Option.isNone_some, Bool.false_eq_true, if_false, Proc.get_bind_run]
    rw [Proc.bind_ok (Proc.attempt_fail hst)]
    exact (Proc.bind_ok hclose).trans rfl

end YkOpenKey

section Indices

variable {δ τ : Type} {B : LibusbBus δ τ} {ds : List δ} {desc : δ → DeviceDescriptor}
  {endian : Endian} {crc16 : List UInt8 → UInt16} {i : ℕ} {x : δ}

/-- `yk_open_key` with an index opens the device. -/
def Opens (U : Usb (LibusbSession δ τ)) (i : ℕ) (w : World (LibusbSession δ τ)) (x : δ) : Prop :=
  ∃ w', ykOpenKey U i w = (.ok ⟨⟩, w') ∧ w'.dev.handle = some x

/-- `yk_open_key` with an index returns `NULL` with `YK_ENOKEY`. -/
def NotFound (U : Usb (LibusbSession δ τ)) (i : ℕ) (w : World (LibusbSession δ τ)) : Prop :=
  ∃ w', ykOpenKey U i w = (.fail, w') ∧ w'.ykErrno = some .ENOKEY

theorem Opens.not_notFound {U : Usb (LibusbSession δ τ)} {w : World (LibusbSession δ τ)}
    (hx : Opens U i w x) : ¬ NotFound U i w := by
  rintro ⟨w₂, h₂, -⟩
  obtain ⟨w₁, h₁, -⟩ := hx
  simpa using (Prod.mk.inj (h₁.symm.trans h₂)).1

variable (endian crc16) in
theorem Connected.busCall_some (h : Connected B ds desc) {vendorId : ℕ}
    (hi : (ds.filter (isOf desc vendorId))[i]? = some x) (hx : isSupported desc x)
    (w : World (LibusbSession δ τ)) :
    ∃ w₁ st w₂, busCall ((B.usb endian crc16).ykusbOpenDevice vendorId i) w = (.ok ⟨⟩, w₁)
      ∧ ykGetStatus (B.usb endian crc16).toHost w₁ = (.ok st, w₂) ∧ w₂.dev.handle = some x := by
  obtain ⟨t, ht⟩ := h.ykusbOpenDevice_some hi hx w.dev
  obtain ⟨r, t', hr⟩ := h.answers x (List.mem_of_mem_filter (List.mem_of_getElem? hi)) hx t
  refine ⟨{ w with dev := { w.dev with lib := t, handle := some x } }, _, _, ?_,
    ykGetStatus_of_ok (r := r) (d := { w.dev with lib := t', handle := some x }) ?_, rfl⟩
  · simp only [busCall, LibusbBus.usb, ht]
  · simp only [LibusbBus.usb, LibusbBus.transfer, hr]

variable (endian crc16) in
theorem ListsDevices.busCall_none (h : ListsDevices B ds desc) {vendorId : ℕ}
    (hi : (ds.filter (isOf desc vendorId))[i]? = none) (w : World (LibusbSession δ τ)) :
    ∃ w₁, busCall ((B.usb endian crc16).ykusbOpenDevice vendorId i) w = (.fail, w₁)
      ∧ w₁.ykErrno = some .ENOKEY := by
  obtain ⟨t, ht⟩ := h.ykusbOpenDevice_none hi w.dev
  refine ⟨{ w with dev := { w.dev with lib := t }, ykErrno := some .ENOKEY }, ?_, rfl⟩
  simp only [busCall, LibusbBus.usb, ht]
  rfl

theorem isOf_other {x : δ} (h : isOf desc 0x1d50 x = true) : isOf desc yubicoVid x = false := by
  simp only [isOf, Bool.and_eq_true, decide_eq_true_eq] at h
  simp [isOf, h.1, yubicoVid]

/-- The index is one into the devices of Yubico, and where it is behind their end, the same index
into those of the other vendor. -/
theorem Connected.opens_of_getElem? (h : Connected B ds desc)
    (hi : ((ds.filter (isOf desc yubicoVid))[i]?.or (ds.filter (isOf desc 0x1d50))[i]?) = some x)
    (w : World (LibusbSession δ τ)) : Opens (B.usb endian crc16) i w x := by
  rcases h₁ : (ds.filter (isOf desc yubicoVid))[i]? with _ | y
  · rw [h₁, Option.none_or] at hi
    have hx : isSupported desc x := by
      simp [isSupported, (List.mem_filter.1 (List.mem_of_getElem? hi)).2]
    obtain ⟨w₀, h₀, -⟩ := h.listsDevices.busCall_none endian crc16 h₁ w
    obtain ⟨w₁, st, w₂, hc, hst, hw⟩ := h.busCall_some endian crc16 hi hx
      { w₀ with ykErrno := none }
    exact ⟨_, ykOpenKey_of_second h₀ hc hst, hw⟩
  · obtain rfl : y = x := by simpa [h₁] using hi
    have hx : isSupported desc y := by
      simp [isSupported, (List.mem_filter.1 (List.mem_of_getElem? h₁)).2]
    obtain ⟨w₁, st, w₂, hc, hst, hw⟩ := h.busCall_some endian crc16 h₁ hx w
    exact ⟨_, ykOpenKey_of_first hc hst, hw⟩

theorem Connected.notFound_of_getElem? (h : Connected B ds desc)
    (h₁ : (ds.filter (isOf desc yubicoVid))[i]? = none)
    (h₂ : (ds.filter (isOf desc 0x1d50))[i]? = none) (w : World (LibusbSession δ τ)) :
    NotFound (B.usb endian crc16) i w := by
  obtain ⟨w₀, h₀, -⟩ := h.listsDevices.busCall_none endian crc16 h₁ w
  obtain ⟨w₁, hc, hw⟩ := h.listsDevices.busCall_none endian crc16 h₂
    { w₀ with ykErrno := none }
  exact ⟨w₁, ykOpenKey_of_none h₀ hc, hw⟩

theorem perm_supported (ds : List δ) (desc : δ → DeviceDescriptor) :
    (ds.filter (isOf desc yubicoVid) ++ ds.filter (isOf desc 0x1d50)).Perm
      (ds.filter (isSupported desc)) := by
  have h := List.filter_append_perm (isOf desc yubicoVid) (ds.filter (isSupported desc))
  rw [List.filter_filter, List.filter_filter] at h
  have hf : ds.filter (fun x => isOf desc yubicoVid x && isSupported desc x)
      = ds.filter (isOf desc yubicoVid) := by
    refine List.filter_congr fun x _ => ?_
    simp only [isSupported]
    cases isOf desc yubicoVid x <;> rfl
  have hg : ds.filter (fun x => !isOf desc yubicoVid x && isSupported desc x)
      = ds.filter (isOf desc 0x1d50) := by
    refine List.filter_congr fun x _ => ?_
    simp only [isSupported]
    rcases ho : isOf desc 0x1d50 x with _ | _
    · cases isOf desc yubicoVid x <;> rfl
    · simp [isOf_other ho]
  rwa [hf, hg] at h

/-- Every supported device is opened by one index below their number, each call from its own state,
and an index from there on opens none. -/
structure Enumerates (B : LibusbBus δ τ) (ds : List δ) (desc : δ → DeviceDescriptor)
    (endian : Endian) (crc16 : List UInt8 → UInt16) (ws : ℕ → World (LibusbSession δ τ)) :
    Prop where
  opened : ∃ xs : List δ, xs.Perm (ds.filter (isSupported desc))
    ∧ ∀ i (h : i < xs.length), Opens (B.usb endian crc16) i (ws i) xs[i]
  ends : ∀ i, (ds.filter (isSupported desc)).length ≤ i → NotFound (B.usb endian crc16) i (ws i)

/-- With devices of both vendors, the last index is behind the end of both lists. -/
theorem Connected.not_enumerates (h : Connected B ds desc)
    (h₁ : 0 < (ds.filter (isOf desc yubicoVid)).length)
    (h₂ : 0 < (ds.filter (isOf desc 0x1d50)).length) (ws : ℕ → World (LibusbSession δ τ)) :
    ¬ Enumerates B ds desc endian crc16 ws := by
  rintro ⟨⟨xs, hxs, hopen⟩, -⟩
  have hlen := (hxs.trans (perm_supported ds desc).symm).length_eq
  rw [List.length_append] at hlen
  have hlast := hopen (xs.length - 1) (by omega)
  refine hlast.not_notFound (h.notFound_of_getElem? ?_ ?_ _)
  · rw [List.getElem?_eq_none_iff]
    omega
  · rw [List.getElem?_eq_none_iff]
    omega

/-- The indices enumerate the supported devices just where they are all of one vendor. -/
theorem ykOpenKey_enumerates_iff (h : Connected B ds desc)
    (ws : ℕ → World (LibusbSession δ τ)) :
    Enumerates B ds desc endian crc16 ws
      ↔ ds.filter (isOf desc yubicoVid) = [] ∨ ds.filter (isOf desc 0x1d50) = [] := by
  constructor
  · intro he
    by_contra hne
    rw [not_or, ← ne_eq, ← ne_eq, ← List.length_pos_iff, ← List.length_pos_iff] at hne
    exact h.not_enumerates hne.1 hne.2 ws he
  · intro hone
    have hperm := perm_supported ds desc
    refine ⟨⟨_, hperm, fun i hi => h.opens_of_getElem? ?_ _⟩, fun i hi => ?_⟩
    · rcases hone with hone | hone <;>
        simp only [hone, List.nil_append, List.append_nil] at hi ⊢ <;> simp [hi]
    · rw [← hperm.length_eq, List.length_append] at hi
      refine h.notFound_of_getElem? ?_ ?_ _
      · rw [List.getElem?_eq_none_iff]
        omega
      · rw [List.getElem?_eq_none_iff]
        omega

end Indices

/-! ## Keys that cannot be used -/

section Unusable

variable {δ τ : Type} {B : LibusbBus δ τ} {ds : List δ} {desc : δ → DeviceDescriptor}
  {endian : Endian} {crc16 : List UInt8 → UInt16} {i : ℕ} {x : δ}

variable (endian crc16) in
/-- A device that is found and not opened is a USB error. -/
theorem ListsDevices.busCall_refused (h : ListsDevices B ds desc) {vendorId : ℕ}
    (hi : (ds.filter (isOf desc vendorId))[i]? = some x) {w w₁ : World (LibusbSession δ τ)}
    (hw : busCall ((B.usb endian crc16).ykusbOpenDevice vendorId i) w = (.fail, w₁)) :
    w₁.ykErrno = some .EUSBERR := by
  obtain ⟨t, ht⟩ := h.scan vendorId i w.dev.lib
  rw [hi] at ht
  simp only [busCall, LibusbBus.usb, LibusbBus.ykusbOpenDevice, ht] at hw
  split_ifs at hw
  · exact (congrArg World.ykErrno (Prod.mk.inj hw).2).symm
  · simp at hw

/-- `yk_open_key` tells a key that is there and cannot be opened, and passes on why the status could
not be read. -/
structure TellsWhy (U : Usb (LibusbSession δ τ)) (ds : List δ) (desc : δ → DeviceDescriptor)
    (i : ℕ) (w : World (LibusbSession δ τ)) : Prop where
  refused : ∀ x, (ds.filter (isOf desc yubicoVid))[i]? = some x → (∀ w₁, ¬ Opened U i w w₁) →
    ∃ w', ykOpenKey U i w = (.fail, w') ∧ w'.ykErrno = some .EUSBERR
  unread : ∀ w₁ e d, Opened U i w w₁ → U.ykusbRead w₁.dev = (.error (some e), d) →
    ∃ w', ykOpenKey U i w = (.fail, w') ∧ w'.ykErrno = some e

/-- The second scan overwrites the code of the first, with that of a device of its own where there
is one. -/
theorem ykOpenKey_tellsWhy_iff (h : ListsDevices B ds desc) (i : ℕ)
    (w : World (LibusbSession δ τ)) :
    TellsWhy (B.usb endian crc16) ds desc i w
      ↔ (ds.filter (isOf desc yubicoVid))[i]? = none
        ∨ (busCall ((B.usb endian crc16).ykusbOpenDevice yubicoVid i) w).1 = .ok ⟨⟩
        ∨ (ds.filter (isOf desc 0x1d50))[i]? ≠ none := by
  constructor
  · intro htells
    by_contra hcond
    simp only [not_or, not_not] at hcond
    obtain ⟨hfirst, hclosed, hsecond⟩ := hcond
    obtain ⟨x, hx⟩ := Option.ne_none_iff_exists'.1 hfirst
    rcases busCall_cases ((B.usb endian crc16).ykusbOpenDevice yubicoVid i) w with
      ⟨w₀, h₀⟩ | ⟨w₀, h₀⟩
    · exact hclosed (by rw [h₀])
    obtain ⟨w₁, h₁, hnokey⟩ := h.busCall_none endian crc16 hsecond { w₀ with ykErrno := none }
    have hnone : ∀ w', ¬ Opened (B.usb endian crc16) i w w' := by
      rintro w' (ho | ⟨w₀', h₀', ho⟩)
      · simp [h₀] at ho
      · obtain rfl : w₀ = w₀' := (Prod.mk.inj (h₀.symm.trans h₀')).2
        simp [h₁] at ho
    obtain ⟨w', hrun, herr⟩ := htells.refused x hx hnone
    obtain rfl : w' = w₁ := (Prod.mk.inj (hrun.symm.trans (ykOpenKey_of_none h₀ h₁))).2
    simp [hnokey] at herr
  · intro hcond
    refine ⟨fun x hx hnone => ?_, fun w₁ e d ho hread => ?_⟩
    · rcases busCall_cases ((B.usb endian crc16).ykusbOpenDevice yubicoVid i) w with
        ⟨w₀, h₀⟩ | ⟨w₀, h₀⟩
      · exact absurd (.inl h₀) (hnone w₀)
      obtain ⟨y, hy⟩ : ∃ y, (ds.filter (isOf desc 0x1d50))[i]? = some y := by
        rcases hcond with hfirst | hok | hsecond
        · simp [hx] at hfirst
        · simp [h₀] at hok
        · exact Option.ne_none_iff_exists'.1 hsecond
      rcases busCall_cases ((B.usb endian crc16).ykusbOpenDevice 0x1d50 i)
        { w₀ with ykErrno := none } with ⟨w₁, h₁⟩ | ⟨w₁, h₁⟩
      · exact absurd (.inr ⟨w₀, h₀, h₁⟩) (hnone w₁)
      · exact ⟨w₁, ykOpenKey_of_none h₀ h₁, h.busCall_refused endian crc16 hy h₁⟩
    · obtain ⟨w', hrun, herr⟩ := ho.unread (ykGetStatus_of_error hread)
      exact ⟨w', hrun, herr⟩

end Unusable

/-! ## A bus on which every call succeeds -/

def steadyBus {δ : Type} (ds : List δ) (desc : δ → DeviceDescriptor) : LibusbBus δ Unit where
  libusbInit t := (0, t)
  libusbExit t := t
  getDeviceList t := (ds, t)
  getDeviceDescriptor x t := ((0, desc x), t)
  libusbOpen _ t := (0, t)
  kernelDriverActive _ t := (0, t)
  detachKernelDriver _ t := (0, t)
  attachKernelDriver _ t := t
  getConfiguration _ t := ((0, 1), t)
  setConfiguration _ _ t := (0, t)
  libusbClose _ t := t
  transfers _ :=
    { claimInterface := fun t => (0, t)
      controlTransferIn := fun t => ((featureRptSize, []), t)
      controlTransferOut := fun _ t => (featureRptSize, t)
      releaseInterface := fun t => (0, t) }
  stray t := t

theorem steadyBus_connected {δ : Type} (ds : List δ) (desc : δ → DeviceDescriptor) :
    Connected (steadyBus ds desc) ds desc where
  list _ := rfl
  descriptor _ _ _ := rfl
  opens _ _ _ _ := rfl
  answers _ _ _ _ := ⟨_, _, rfl⟩

/-- A YubiKey, and a device of the other vendor. -/
def twoVendors : Bool → DeviceDescriptor
  | false => ⟨yubicoVid, 0x0010⟩
  | true => ⟨0x1d50, 0x60fc⟩

def startSession : World (LibusbSession Bool Unit) := ⟨⟨⟨⟩, true, none⟩, none, []⟩

/-- Three YubiKeys of different kinds, and a mouse among them. -/
def manyDevices : ℕ → DeviceDescriptor
  | 0 => ⟨yubicoVid, 0x0010⟩
  | 1 => ⟨0x046d, 0xc077⟩
  | 2 => ⟨yubicoVid, 0x0110⟩
  | _ => ⟨yubicoVid, 0x0407⟩

theorem ykOpenKey_enumerates_iff_one :
    Enumerates (steadyBus [0, 1, 2, 3] manyDevices) [0, 1, 2, 3] manyDevices .little (fun _ => 0)
      fun _ => ⟨⟨⟨⟩, true, none⟩, none, []⟩ :=
  (ykOpenKey_enumerates_iff (steadyBus_connected [0, 1, 2, 3] manyDevices) _).2
    (.inr (by decide))

/-- With a device of each vendor, index 1 opens neither. -/
theorem ykOpenKey_skips_other :
    Connected (steadyBus [false, true] twoVendors) [false, true] twoVendors
      ∧ ([false, true].filter (isSupported twoVendors)).length = 2
      ∧ ¬ Enumerates (steadyBus [false, true] twoVendors) [false, true] twoVendors .little
        (fun _ => 0) fun _ => startSession :=
  ⟨steadyBus_connected _ _, by decide,
    (steadyBus_connected _ _).not_enumerates (by decide) (by decide) _⟩

/-- On this bus, no device lets itself be opened. -/
def lockedBus {δ : Type} (ds : List δ) (desc : δ → DeviceDescriptor) : LibusbBus δ Unit :=
  { steadyBus ds desc with libusbOpen := fun _ t => (-3, t) }

theorem lockedBus_listed {δ : Type} (ds : List δ) (desc : δ → DeviceDescriptor) :
    ListsDevices (lockedBus ds desc) ds desc := ⟨fun _ => rfl, fun _ _ _ => rfl⟩

theorem ykOpenKey_tellsWhy_both :
    TellsWhy ((lockedBus [false, true] twoVendors).usb .little fun _ => 0) [false, true]
      twoVendors 0 startSession :=
  (ykOpenKey_tellsWhy_iff (lockedBus_listed [false, true] twoVendors) 0 _).2
    (.inr (.inr (by decide)))

/-- The only key is there and cannot be opened. -/
theorem ykOpenKey_locked :
    (∃ w', ykOpenKey ((lockedBus [false] twoVendors).usb .little fun _ => 0) 0 startSession
        = (.fail, w') ∧ w'.ykErrno = some .ENOKEY)
      ∧ ¬ TellsWhy ((lockedBus [false] twoVendors).usb .little fun _ => 0) [false] twoVendors 0
        startSession := by
  have hrun : ∃ w', ykOpenKey ((lockedBus [false] twoVendors).usb .little fun _ => 0) 0
      startSession = (.fail, w') ∧ w'.ykErrno = some .ENOKEY := ⟨_, rfl, rfl⟩
  refine ⟨hrun, fun htells => ?_⟩
  obtain ⟨w₁, h₁, hnokey⟩ := hrun
  have hnone : ∀ w', ¬ Opened ((lockedBus [false] twoVendors).usb .little fun _ => 0) 0
      startSession w' := by
    rintro w' (h | ⟨w₀, -, h⟩)
    · exact absurd (congrArg Prod.fst h) nofun
    · exact absurd (congrArg Prod.fst h) nofun
  obtain ⟨w₂, h₂, herr⟩ := htells.refused false (by decide) hnone
  obtain rfl : w₁ = w₂ := (Prod.mk.inj (h₁.symm.trans h₂)).2
  simp [hnokey] at herr

end YkPers
