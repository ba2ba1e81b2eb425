import YkPers.Ykpersonalize

/-!
# The life of a session with a key

What the calls of a backend are for: the backend is started, opens a key, which is then read and
written, closes it and is stopped. `Lifecycle U I` says that each call leads from the phase it may
be made in to the phase it is for, whether it succeeds or not, where `I` is what a device state
satisfies in each phase.
-/

namespace YkPers

inductive KeyPhase where
  | down
  | up
  | opened
  deriving DecidableEq

variable {σ α : Type}

/-- From a state that satisfies `P`, a call that returns ends in `Q`, and one that fails in `E`. -/
def Leads (f : σ → Except (Option YkErr) α × σ) (P Q E : σ → Prop) : Prop :=
  ∀ d, P d → match f d with
    | (.ok _, d') => Q d'
    | (.error _, d') => E d'

structure Lifecycle (U : Usb σ) (I : KeyPhase → σ → Prop) : Prop where
  start : Leads U.ykusbStart (I .down) (I .up) (I .down)
  openDevice : ∀ vendorId index,
    Leads (U.ykusbOpenDevice vendorId index) (I .up) (I .opened) (I .up)
  read : Leads U.ykusbRead (I .opened) (I .opened) (I .opened)
  write : ∀ r, Leads (U.ykusbWrite r) (I .opened) (I .opened) (I .opened)
  closeDevice : Leads U.ykusbCloseDevice (I .opened) (I .up) (I .up)
  stop : Leads U.ykusbStop (fun d => I .down d ∨ I .up d) (I .down) (I .down)

end YkPers
