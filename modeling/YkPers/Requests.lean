import YkPers.Lib.Frames
import YkPers.ScriptedKey

/-!
# What a key is asked

The key's side of `yk_write_to_key`, over the reports of a whole run: it puts the part that a
report carries in its place, and takes the frame as a request behind the last part (`requests`). Of
the reports in a log, those that the host could not write may have arrived all the same.
-/

namespace YkPers

/-- A reset carries no part. -/
def Report.part (r : Report) : Option (ℕ × List UInt8) :=
  if ScriptedKey.seqOf r < 10 then some (ScriptedKey.seqOf r, r.data) else none

def Event.outgoing : Event → Option (Report × Bool)
  | .write r ok => some (r, ok)
  | _ => none

/-- What a log writes, each with whether that succeeded. -/
def outgoing (t : List Event) : List (Report × Bool) := t.filterMap Event.outgoing

/-- What a key that holds `buf` takes of the reports that arrive. -/
def requests (buf : List UInt8) (rs : List Report) : List (List UInt8) :=
  Buffer.frames 0 7 10 buf (rs.filterMap Report.part)

open scoped List

variable {σ S : Type} (world : S → World σ)

/-- Since `s`, whatever arrived and whatever the key held, `L` holds of its requests. -/
def HasAsked (L : List (List UInt8) → Prop) (s s' : S) : Prop :=
  ∃ t, (world s').trace = (world s).trace ++ t ∧
    ∀ buf rs, Arrives (outgoing t) rs → L (requests buf rs)

/-- However `x` ends, it has made no requests but these in their order, and all where it returns. -/
structure Asks {α : Type} (x : Proc S α) (gs : List (List UInt8)) : Prop where
  any : ∀ s, HasAsked world (· <+ gs) s (x s).2
  ok : ∀ s a s', x s = (.ok a, s') → HasAsked world (· = gs) s s'

end YkPers
