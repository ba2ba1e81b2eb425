import YkPers.Lib.Proc
import YkPers.Lib.Buffer
import YkPers.Ykdef

/-!
# The USB backend and the state of a session

A backend is what `_ykusb_read` and `_ykusb_write` do to a device of any kind. A session runs on
the device's state, `yk_errno`, and a log of what was done: sleeps, reads and writes, each
transfer with how it ended.
-/

namespace YkPers

/-- `_ykusb_read` and `_ykusb_write` over the device states `σ`. A transfer that fails says which
code it stored in `yk_errno`, if it stored one. -/
structure Backend (σ : Type) where
  ykusbRead : σ → Except (Option YkErr) Report × σ
  ykusbWrite : Report → σ → Except (Option YkErr) Unit × σ

/-- A host: its backend, its byte order, and the checksum of the libyubikey it links. -/
structure Host (σ : Type) extends Backend σ where
  endian : Endian
  yubikeyCrc16 : List UInt8 → UInt16

/-- A transfer that fails stores a code in `yk_errno`. -/
structure Backend.SetsErrno {σ : Type} (B : Backend σ) : Prop where
  read : ∀ d, (B.ykusbRead d).1 ≠ .error none
  write : ∀ r d, (B.ykusbWrite r d).1 ≠ .error none

inductive Event where
  | sleep (ms : ℕ)
  | read (r : Option Report)
  | write (r : Report) (ok : Bool)
  deriving DecidableEq

/-- The log ends with the latest event. -/
structure World (σ : Type) where
  dev : σ
  ykErrno : Option YkErr
  trace : List Event

/-- The functions of `ykcore.c`: `fail` is a return of 0. -/
abbrev Yk (σ : Type) := Proc (World σ)

variable {σ α : Type}

namespace World

def log (w : World σ) (t : List Event) : World σ := { w with trace := w.trace ++ t }

@[simp] theorem log_dev (w : World σ) (t : List Event) : (w.log t).dev = w.dev := rfl

@[simp] theorem log_ykErrno (w : World σ) (t : List Event) : (w.log t).ykErrno = w.ykErrno := rfl

@[simp] theorem log_trace (w : World σ) (t : List Event) : (w.log t).trace = w.trace ++ t := rfl

@[simp] theorem log_nil (w : World σ) : w.log [] = w := by simp [log]

@[simp] theorem log_log (w : World σ) (t u : List Event) : (w.log t).log u = w.log (t ++ u) := by
  simp [log]

end World

/-- `yk_errno = e; return 0`. -/
def failWith (e : YkErr) : Yk σ α := fun w => (.fail, { w with ykErrno := some e })

@[simp] theorem failWith_run (e : YkErr) (w : World σ) :
    (failWith e : Yk σ α) w = (.fail, { w with ykErrno := some e }) := rfl

def setErrno (e : YkErr) : Yk σ Unit := fun w => (.ok (), { w with ykErrno := some e })

@[simp] theorem setErrno_run (e : YkErr) (w : World σ) :
    (setErrno e : Yk σ Unit) w = (.ok (), { w with ykErrno := some e }) := rfl

def sleep (ms : ℕ) : Yk σ Unit := fun w => (.ok (), w.log [.sleep ms])

@[simp] theorem sleep_run (ms : ℕ) (w : World σ) : sleep ms w = (.ok (), w.log [.sleep ms]) := rfl

namespace Backend

variable (B : Backend σ)

def read : Yk σ Report := fun w =>
  match B.ykusbRead w.dev with
  | (.ok r, d) => (.ok r, { w with dev := d, trace := w.trace ++ [.read (some r)] })
  | (.error e, d) =>
    (.fail, { dev := d, ykErrno := e <|> w.ykErrno, trace := w.trace ++ [.read none] })

def write (r : Report) : Yk σ Unit := fun w =>
  match B.ykusbWrite r w.dev with
  | (.ok _, d) => (.ok (), { w with dev := d, trace := w.trace ++ [.write r true] })
  | (.error e, d) =>
    (.fail, { dev := d, ykErrno := e <|> w.ykErrno, trace := w.trace ++ [.write r false] })

variable {B} {w : World σ} {r : Report} {d : σ} {e : Option YkErr}

theorem read_of_ok (h : B.ykusbRead w.dev = (.ok r, d)) :
    B.read w = (.ok r, { w with dev := d, trace := w.trace ++ [.read (some r)] }) := by
  simp only [read, h]

theorem read_of_error (h : B.ykusbRead w.dev = (.error e, d)) :
    B.read w
      = (.fail, { dev := d, ykErrno := e <|> w.ykErrno, trace := w.trace ++ [.read none] }) := by
  simp only [read, h]

theorem write_of_ok {u : Unit} (h : B.ykusbWrite r w.dev = (.ok u, d)) :
    B.write r w = (.ok (), { w with dev := d, trace := w.trace ++ [.write r true] }) := by
  simp only [write, h]

theorem write_of_error (h : B.ykusbWrite r w.dev = (.error e, d)) :
    B.write r w = (.fail,
      { dev := d, ykErrno := e <|> w.ykErrno, trace := w.trace ++ [.write r false] }) := by
  simp only [write, h]

end Backend

/-- `memcpy` into a buffer: bytes past its end are not the caller's. -/
def memcpy {S : Type} (buf : List UInt8) (off : ℕ) (xs : List UInt8) : Proc S (List UInt8) :=
  if off + xs.length ≤ buf.length then pure (Buffer.store buf off xs) else Proc.fault

/-! ## Replies -/

/-- From `d`, reading gives `rs` one after the other and leaves the device in `d'`. -/
def Backend.Serves (B : Backend σ) : σ → List Report → σ → Prop
  | d, [], d' => d = d'
  | d, r :: rs, d' => ∃ e, B.ykusbRead d = (.ok r, e) ∧ B.Serves e rs d'

/-! ## Reading a log -/

@[simp] def Event.written : Event → Option Report
  | .write r _ => some r
  | _ => none

@[simp] def Event.delivered : Event → Option Report
  | .write r true => some r
  | _ => none

@[simp] def Event.received : Event → Option Report
  | .read r => r
  | _ => none

@[simp] def Event.succeeded : Event → Bool
  | .sleep _ => true
  | .read r => r.isSome
  | .write _ ok => ok

/-- The reports a log writes, sent or not. -/
def writes (t : List Event) : List Report := t.filterMap Event.written

/-- The reports a log gets to the device. -/
def sent (t : List Event) : List Report := t.filterMap Event.delivered

def reads (t : List Event) : List Report := t.filterMap Event.received

def events (x : Yk σ α) (w : World σ) : List Event := (x w).2.trace.drop w.trace.length

section Log

@[simp] theorem writes_nil : writes [] = [] := rfl

@[simp] theorem sent_nil : sent [] = [] := rfl

@[simp] theorem reads_nil : reads [] = [] := rfl

@[simp] theorem writes_cons (e : Event) (t : List Event) :
    writes (e :: t) = e.written.toList ++ writes t := by
  rw [writes, List.filterMap_cons]
  cases e.written <;> rfl

@[simp] theorem sent_cons (e : Event) (t : List Event) :
    sent (e :: t) = e.delivered.toList ++ sent t := by
  rw [sent, List.filterMap_cons]
  cases e.delivered <;> rfl

@[simp] theorem reads_cons (e : Event) (t : List Event) :
    reads (e :: t) = e.received.toList ++ reads t := by
  rw [reads, List.filterMap_cons]
  cases e.received <;> rfl

@[simp] theorem writes_append (t u : List Event) : writes (t ++ u) = writes t ++ writes u := by
  simp [writes]

@[simp] theorem sent_append (t u : List Event) : sent (t ++ u) = sent t ++ sent u := by
  simp [sent]

@[simp] theorem reads_append (t u : List Event) : reads (t ++ u) = reads t ++ reads u := by
  simp [reads]

theorem events_of_run {x : Yk σ α} {w : World σ} {t : List Event}
    (h : (x w).2.trace = w.trace ++ t) : events x w = t := by
  rw [events, h, List.drop_left]

end Log

section Serves

variable {B : Backend σ}

theorem Backend.serves_append {rs qs : List Report} :
    ∀ {d d' : σ}, B.Serves d (rs ++ qs) d' ↔ ∃ e, B.Serves d rs e ∧ B.Serves e qs d' := by
  induction rs with
  | nil => intro d d'; simp [Backend.Serves]
  | cons r rs ih =>
    intro d d'
    simp only [List.cons_append, Backend.Serves, ih]
    constructor
    · rintro ⟨e, h1, e', h2, h3⟩
      exact ⟨e', ⟨e, h1, h2⟩, h3⟩
    · rintro ⟨e', ⟨e, h1, h2⟩, h3⟩
      exact ⟨e, h1, e', h2, h3⟩

theorem Backend.write_eq_ok {w w' : World σ} {r : Report} {u : Unit}
    (h : B.write r w = (.ok u, w')) :
    B.ykusbWrite r w.dev = (.ok (), w'.dev)
      ∧ w' = { w with dev := w'.dev, trace := w.trace ++ [.write r true] } := by
  unfold Backend.write at h
  split at h
  · rename_i d hd
    simp only [Prod.mk.injEq] at h
    obtain ⟨-, rfl⟩ := h
    exact ⟨hd, rfl⟩
  · simp at h

end Serves

end YkPers
