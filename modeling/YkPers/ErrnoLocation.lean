import YkPers.Lib.Variable
import Mathlib.Data.Int.Notation
import Mathlib.Data.Nat.Notation
import Mathlib.Logic.Function.Basic

/-!
# Where `yk_errno` is

`_yk_errno_location` of `ykcore.c`, which `_ykp_errno_location` of `ykpers.c` repeats word for word,
run by any number of threads at once. Each statement that reads or writes something shared is a step
of its own (`Pc`), and the scheduler puts the steps of the threads in any order. A system call may
fail whenever it is made. Through the pointer, a thread then makes the next of its accesses to
`yk_errno`.
-/

namespace YkPers

namespace ErrnoLocation

/-- An `int *` of the function. -/
inductive IntPtr where
  | null
  | nothreadErrno
  | cell (p : ℕ)
  deriving DecidableEq

/-- The statement that a thread is at. -/
inductive Pc where
  | idle
  -- `if (tsd_init == 0)`
  | testInit
  -- `rc = YK_TSD_INIT(errno_key, free)`
  | createKey
  -- `tsd_init = 1` or `tsd_init = -1`
  | setInit (value : ℤ)
  -- `if (YK_TSD_GET(int *, errno_key) == NULL)`
  | testKey
  -- `p = calloc(1, sizeof(int))`
  | calloc
  -- `tsd_init = -1` where there is no `p`, or `YK_TSD_SET(errno_key, p)`
  | keep (p : Option ℕ)
  -- `if (tsd_init == 1)`
  | testReady
  -- `return YK_TSD_GET(int *, errno_key)`
  | get
  -- the access through what was returned
  | access (ptr : IntPtr)
  | crashed
  deriving DecidableEq

/-- The static variables, the thread-specific data of all keys, the heap, and the threads with the
accesses they are still to make. -/
structure System (T : Type) where
  tsdInit : ℤ
  nothreadErrno : ℤ
  errnoKey : ℕ
  nextKey : ℕ
  specific : ℕ → T → Option ℕ
  nextCell : ℕ
  heap : ℕ → ℤ
  pc : T → Pc
  todo : T → List (Access ℤ)
  log : List (T × Made ℤ)

variable {T : Type} [DecidableEq T]

/-- The static variables are 0; other keys and other memory may be in use. -/
def System.fresh (todo : T → List (Access ℤ)) (nextKey nextCell : ℕ)
    (specific : ℕ → T → Option ℕ) (heap : ℕ → ℤ) : System T where
  tsdInit := 0
  nothreadErrno := 0
  errnoKey := 0
  nextKey := nextKey
  specific := specific
  nextCell := nextCell
  heap := heap
  pc _ := .idle
  todo := todo
  log := []

def System.goto (s : System T) (t : T) (pc : Pc) : System T :=
  { s with pc := Function.update s.pc t pc }

/-- What `YK_TSD_GET` returns to a thread. -/
def System.mine (s : System T) (t : T) : Option ℕ := s.specific s.errnoKey t

/-- A new key has no value in any thread. -/
def System.created (s : System T) : System T :=
  { s with
    errnoKey := s.nextKey
    nextKey := s.nextKey + 1
    specific := Function.update s.specific s.nextKey fun _ => none }

def System.allocated (s : System T) : System T :=
  { s with nextCell := s.nextCell + 1, heap := Function.update s.heap s.nextCell 0 }

def System.setSpecific (s : System T) (t : T) (p : ℕ) : System T :=
  { s with
    specific := Function.update s.specific s.errnoKey
      (Function.update (s.specific s.errnoKey) t (some p)) }

/-- `*ptr`; a null pointer is not read. -/
def System.read (s : System T) : IntPtr → ℤ
  | .null => 0
  | .nothreadErrno => s.nothreadErrno
  | .cell p => s.heap p

def System.write (s : System T) (v : ℤ) : IntPtr → System T
  | .null => s
  | .nothreadErrno => { s with nothreadErrno := v }
  | .cell p => { s with heap := Function.update s.heap p v }

/-- The thread has made an access. -/
def System.made (s : System T) (t : T) (rest : List (Access ℤ)) (m : Made ℤ) : System T :=
  { s with todo := Function.update s.todo t rest, log := s.log ++ [(t, m)] }.goto t .idle

def System.access (s : System T) (t : T) (ptr : IntPtr) : System T :=
  if ptr = .null then s.goto t .crashed
  else
    match s.todo t with
    | [] => s
    | .store v :: rest => (s.write v ptr).made t rest (.stored v)
    | .load :: rest => s.made t rest (.loaded (s.read ptr))

/-- The next step of a thread; a system call made in it succeeds where `ok` says so. -/
def step : T × Bool → System T → System T
  | (t, ok), s =>
    match s.pc t with
    | .idle => if s.todo t = [] then s else s.goto t .testInit
    | .testInit => s.goto t (if s.tsdInit = 0 then .createKey else .testKey)
    | .createKey => if ok then s.created.goto t (.setInit 1) else s.goto t (.setInit (-1))
    | .setInit value => { s with tsdInit := value }.goto t .testKey
    | .testKey => s.goto t (if s.mine t = none then .calloc else .testReady)
    | .calloc =>
      if ok then s.allocated.goto t (.keep (some s.nextCell)) else s.goto t (.keep none)
    | .keep none => { s with tsdInit := -1 }.goto t .testReady
    | .keep (some p) => (if ok then s.setSpecific t p else s).goto t .testReady
    | .testReady => s.goto t (if s.tsdInit = 1 then .get else .access .nothreadErrno)
    | .get => s.goto t (.access (match s.mine t with | some p => .cell p | none => .null))
    | .access ptr => s.access t ptr
    | .crashed => s

def System.run (s : System T) (schedule : List (T × Bool)) : System T := runSteps step s schedule

/-- The accesses that a thread has made. -/
def System.accesses (s : System T) (t : T) : List (Made ℤ) :=
  (s.log.filter fun e => e.1 = t).map Prod.snd

end ErrnoLocation

end YkPers
