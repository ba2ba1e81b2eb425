import Mathlib.Data.List.Induction
import Mathlib.Algebra.Ring.Nat

/-!
# `getopt`

The option scanner of POSIX: options are letters behind a `-`, several may share an element, and
the argument of an option is the rest of its element or, where that is empty, the next element.
The scan ends at the first element that is not an option, and behind `--`. Each option leaves less
to be scanned, and so does a step back, but for one into the element of the option (`remaining_lt`).
-/

/-- Where the scan stands. `nextchar` is the rest of the element at `optind`, `[]` between two
elements. -/
structure Getopt where
  argv : List (List Char)
  optind : ℕ
  nextchar : List Char

namespace Getopt

inductive Scanned where
  | flag (c : Char)
  | arg (c : Char) (optarg : List Char)
  | missing (optopt : Char)
  | unknown (optopt : Char)
  deriving DecidableEq

def start (argv : List (List Char)) : Getopt := ⟨argv, 1, []⟩

/-- Whether `c` takes an argument; `none` where it is not an option. -/
def takesArg : List Char → Char → Option Bool
  | [], _ => none
  | o :: os, c => if o = c ∧ c ≠ ':' then some (os.head? = some ':') else takesArg os c

/-- The scan goes on behind a letter, in the same element or at the next one. -/
def past (g : Getopt) : List Char → Getopt
  | [] => { g with optind := g.optind + 1, nextchar := [] }
  | rest => { g with nextchar := rest }

/-- The letter `c`, with `rest` behind it in its element. -/
def letter (optstring : List Char) (g : Getopt) (c : Char) (rest : List Char) : Scanned × Getopt :=
  match takesArg optstring c, rest with
  | none, _ => (.unknown c, g.past rest)
  | some false, _ => (.flag c, g.past rest)
  | some true, _ :: _ => (.arg c rest, g.past [])
  | some true, [] =>
    match g.argv[g.optind + 1]? with
    | some a => (.arg c a, { g with optind := g.optind + 2, nextchar := [] })
    | none => (if optstring.head? = some ':' then .missing c else .unknown c,
        { g with optind := g.optind + 2, nextchar := [] })

/-- One call, `none` for the result -1. -/
def getopt (optstring : List Char) (g : Getopt) : Option Scanned × Getopt :=
  match g.nextchar with
  | c :: rest => ((letter optstring g c rest).map some id)
  | [] =>
    match g.argv[g.optind]? with
    | some ['-', '-'] => (none, { g with optind := g.optind + 1 })
    | some ('-' :: c :: rest) => ((letter optstring g c rest).map some id)
    | _ => (none, g)

/-- The caller's `optind--`. -/
def stepBack (g : Getopt) : Getopt := { g with optind := g.optind - 1 }

section Scans

variable {optstring : List Char} {g g' : Getopt} {o : Scanned} {c : Char} {rest optarg : List Char}

/-! ## Where the scan stands -/

/-- The letters from where the scan stands to the end of its element; `[]` where it ends. -/
def letters (g : Getopt) : List Char :=
  match g.nextchar with
  | c :: rest => c :: rest
  | [] =>
    match g.argv[g.optind]? with
    | some ['-', '-'] => []
    | some ('-' :: c :: rest) => c :: rest
    | _ => []

variable (optstring) in
/-- Between two elements: the scan ends at the element, or stands before its letters. -/
theorem element_cases (g : Getopt) (hn : g.nextchar = []) :
    (g.letters = [] ∧ (g.getopt optstring).1 = none) ∨
      ∃ c rest, g.argv[g.optind]? = some ('-' :: c :: rest) ∧ g.letters = c :: rest ∧
        g.getopt optstring = (letter optstring g c rest).map some id := by
  simp only [letters, getopt, hn]
  split
  · exact .inl ⟨rfl, rfl⟩
  · rename_i c rest _ he
    exact .inr ⟨c, rest, he, rfl, rfl⟩
  · exact .inl ⟨rfl, rfl⟩

theorem getopt_of_letters (h : g.letters = c :: rest) :
    g.getopt optstring = (letter optstring g c rest).map some id := by
  rcases hn : g.nextchar with _ | ⟨d, ds⟩
  · rcases element_cases optstring g hn with ⟨hnil, -⟩ | ⟨d, ds, -, hl, hg⟩
    · rw [hnil] at h
      cases h
    · obtain ⟨rfl, rfl⟩ := List.cons.inj (hl.symm.trans h)
      exact hg
  · simp only [letters, hn] at h
    obtain ⟨rfl, rfl⟩ := List.cons.inj h
    simp only [getopt, hn]

variable (optstring) in
theorem getopt_of_letters_nil (h : g.letters = []) : (g.getopt optstring).1 = none := by
  rcases hn : g.nextchar with _ | ⟨d, ds⟩
  · rcases element_cases optstring g hn with ⟨-, hnone⟩ | ⟨d, ds, -, hl, -⟩
    · exact hnone
    · rw [hl] at h
      cases h
  · simp only [letters, hn] at h
    cases h

/-- An option that is scanned is the letter at which the scan stands. -/
theorem letters_of_getopt (h : g.getopt optstring = (some o, g')) :
    ∃ c rest, g.letters = c :: rest ∧ letter optstring g c rest = (o, g') := by
  rcases hl : g.letters with _ | ⟨c, rest⟩
  · have hnone := getopt_of_letters_nil optstring hl
    rw [h] at hnone
    cases hnone
  · rw [getopt_of_letters hl] at h
    obtain ⟨h1, h2⟩ := Prod.mk.inj h
    exact ⟨c, rest, rfl, Prod.ext (Option.some.inj h1) h2⟩

/-- The scan stands behind the letters `done` of its element, before `post`. -/
structure At (g : Getopt) (done post : List Char) : Prop where
  element : g.argv[g.optind]? = some ('-' :: (done ++ post))
  nextchar : g.nextchar = if done = [] then [] else post

theorem At.letters {done : List Char} (h : g.At done (c :: rest)) (hc : c ≠ '-') :
    g.letters = c :: rest := by
  have hn := h.nextchar
  by_cases hd : done = []
  · have he := h.element
    rw [hd, List.nil_append] at he
    rw [if_pos hd] at hn
    rcases element_cases [] g hn with ⟨hnil, -⟩ | ⟨d, ds, he', hl, -⟩
    · simp only [Getopt.letters, hn, he] at hnil
      split at hnil
      · simp_all
      · cases hnil
      · simp_all
    · rw [he] at he'
      obtain ⟨rfl, rfl⟩ := List.cons.inj (List.cons.inj (Option.some.inj he')).2
      exact hl
  · rw [if_neg hd] at hn
    simp only [Getopt.letters, hn]

theorem at_nil_of_letters (hn : g.nextchar = []) (h : g.letters = c :: rest) :
    g.At [] (c :: rest) := by
  refine ⟨?_, by rw [hn, if_pos rfl]⟩
  rcases element_cases [] g hn with ⟨hnil, -⟩ | ⟨d, ds, he, hl, -⟩
  · rw [hnil] at h
    cases h
  · obtain ⟨rfl, rfl⟩ := List.cons.inj (hl.symm.trans h)
    exact he

theorem At.past {done : List Char} (h : g.At done (c :: rest)) (hr : rest ≠ []) :
    (g.past rest).At (done ++ [c]) rest := by
  rcases rest with _ | ⟨d, rest⟩
  · exact absurd rfl hr
  · exact ⟨by simpa [Getopt.past] using h.element, by simp [Getopt.past]⟩

/-- Letters are left in an element behind an option without an argument only. -/
theorem nextchar_of_letter (h : letter optstring g c rest = (o, g')) (hn : g'.nextchar ≠ []) :
    (o = .flag c ∧ takesArg optstring c = some false ∨ o = .unknown c) ∧ g' = g.past rest ∧
      rest ≠ [] ∧ g'.nextchar = rest := by
  rcases ht : takesArg optstring c with _ | _ | _ <;> rcases rest with _ | ⟨d, rest⟩ <;>
    simp only [letter, ht] at h
  case none.cons =>
    obtain ⟨rfl, rfl⟩ := Prod.mk.inj h
    exact ⟨.inr rfl, rfl, List.cons_ne_nil _ _, rfl⟩
  case some.false.cons =>
    obtain ⟨rfl, rfl⟩ := Prod.mk.inj h
    exact ⟨.inl ⟨rfl, rfl⟩, rfl, List.cons_ne_nil _ _, rfl⟩
  case some.true.nil =>
    split at h <;> obtain ⟨rfl, rfl⟩ := Prod.mk.inj h <;> exact absurd rfl hn
  all_goals
    obtain ⟨rfl, rfl⟩ := Prod.mk.inj h
    exact absurd rfl hn

/-! ## Progress -/

/-- The elements from an index on, each with one more than its characters. -/
def size (argv : List (List Char)) (i : ℕ) : ℕ := ((argv.drop i).map fun e => e.length + 1).sum

theorem size_succ_le (argv : List (List Char)) (i : ℕ) : size argv (i + 1) ≤ size argv i := by
  rw [size, size, ← List.drop_drop]
  rcases argv.drop i with _ | ⟨e, es⟩ <;> simp

theorem size_of_getElem? {argv : List (List Char)} {i : ℕ} {e : List Char}
    (h : argv[i]? = some e) : size argv i = e.length + 1 + size argv (i + 1) := by
  obtain ⟨hi, rfl⟩ := List.getElem?_eq_some_iff.1 h
  rw [size, size, List.drop_eq_getElem_cons hi, List.map_cons, List.sum_cons]

/-- How much there is to be scanned. -/
def remaining (g : Getopt) : ℕ :=
  match g.nextchar with
  | c :: rest => (c :: rest).length + size g.argv (g.optind + 1)
  | [] => size g.argv g.optind

theorem remaining_of_letters (h : g.letters = c :: rest) :
    rest.length + 1 + size g.argv (g.optind + 1) ≤ g.remaining := by
  rcases hn : g.nextchar with _ | ⟨d, ds⟩
  · rcases element_cases [] g hn with ⟨hnil, -⟩ | ⟨d, ds, he, hl, -⟩
    · rw [hnil] at h
      cases h
    · obtain ⟨rfl, rfl⟩ := List.cons.inj (hl.symm.trans h)
      simp only [remaining, hn, size_of_getElem? he, List.length_cons]
      omega
  · simp only [letters, hn] at h
    obtain ⟨rfl, rfl⟩ := List.cons.inj h
    simp only [remaining, hn, List.length_cons, Nat.le_refl]

theorem remaining_past (g : Getopt) (rest : List Char) :
    (g.past rest).remaining = rest.length + size g.argv (g.optind + 1) := by
  rcases rest with _ | ⟨c, rest⟩ <;> simp [past, remaining]

/-- The argument of `c` is the rest of its element, `optarg`. -/
def Attached (optstring : List Char) (g : Getopt) (c : Char) (optarg : List Char) : Prop :=
  optarg ≠ [] ∧ g.letters = c :: optarg ∧ takesArg optstring c = some true

/-- Each option leaves less to be scanned; so it is behind a step back from an argument that is an
element of its own. -/
theorem remaining_lt (h : g.getopt optstring = (some o, g')) :
    g'.remaining < g.remaining ∧ ∀ c optarg, o = .arg c optarg →
      Attached optstring g c optarg ∧ g' = g.past [] ∨ g'.stepBack.remaining < g.remaining := by
  obtain ⟨c, rest, hl, hlet⟩ := letters_of_getopt h
  have hle := remaining_of_letters hl
  unfold letter at hlet
  split at hlet
  · obtain ⟨rfl, rfl⟩ := Prod.mk.inj hlet
    rw [remaining_past]
    exact ⟨by omega, nofun⟩
  · obtain ⟨rfl, rfl⟩ := Prod.mk.inj hlet
    rw [remaining_past]
    exact ⟨by omega, nofun⟩
  · rename_i ht
    obtain ⟨rfl, rfl⟩ := Prod.mk.inj hlet
    rw [remaining_past]
    refine ⟨by simp only [List.length_nil, List.length_cons] at *; omega, ?_⟩
    rintro c' optarg ho
    obtain ⟨rfl, rfl⟩ := Scanned.arg.inj ho
    exact .inl ⟨⟨List.cons_ne_nil _ _, hl, ht⟩, rfl⟩
  · have hsize := size_succ_le g.argv (g.optind + 1)
    split at hlet
    · rename_i a ha
      obtain ⟨rfl, rfl⟩ := Prod.mk.inj hlet
      have hstep : size g.argv (g.optind + 1) = a.length + 1 + size g.argv (g.optind + 2) :=
        size_of_getElem? ha
      rw [List.length_nil] at hle
      refine ⟨?_, fun c' optarg _ => .inr ?_⟩
      · show size g.argv (g.optind + 2) < g.remaining
        omega
      · show size g.argv (g.optind + 1) < g.remaining
        omega
    · have hend : size g.argv (g.optind + 2) ≤ size g.argv (g.optind + 1) := size_succ_le _ _
      obtain ⟨rfl, rfl⟩ := Prod.mk.inj hlet
      rw [List.length_nil] at hle
      refine ⟨?_, fun c' optarg ho => ?_⟩
      · show size g.argv (g.optind + 2) < g.remaining
        omega
      · split_ifs at ho

/-! ## A whole scan -/

variable (optstring) in
/-- What the calls return one after the other up to -1, and where the scan stands then. -/
def scan (g : Getopt) : List Scanned × Getopt :=
  match _ : g.getopt optstring with
  | (none, g') => ([], g')
  | (some o, g') => (o :: (scan g').1, (scan g').2)
termination_by g.remaining
decreasing_by all_goals exact (remaining_lt ‹_›).1

theorem scan_of_none (h : g.getopt optstring = (none, g')) : scan optstring g = ([], g') := by
  rw [scan]
  split <;> simp_all

theorem scan_of_some (h : g.getopt optstring = (some o, g')) :
    scan optstring g = (o :: (scan optstring g').1, (scan optstring g').2) := by
  rw [scan]
  split
  · simp_all
  · rename_i h'
    rw [h] at h'
    obtain ⟨h1, rfl⟩ := Prod.mk.inj h'
    rw [Option.some.inj h1]

end Scans

/-! ## Reading the options -/

section Reading

variable {ε α β : Type}

theorem except_bind_eq_ok {x : Except ε α} {f : α → Except ε β} {b : β} :
    x >>= f = .ok b ↔ ∃ a, x = .ok a ∧ f a = .ok b := by
  cases x with
  | error e => simp [bind, Except.bind]
  | ok a => simp [bind, Except.bind]

/-- What each option preserves, of the options before it and what was read of them, holds in the end
where none of them is an error. -/
theorem foldlM_ok {f : β → α → Except ε β} {P : List α → β → Prop} {start : β} (hnil : P [] start)
    (hstep : ∀ {opts o b b'}, P opts b → f b o = .ok b' → P (opts ++ [o]) b') {opts : List α} :
    ∀ {b : β}, opts.foldlM f start = .ok b → P opts b := by
  induction opts using List.reverseRecOn with
  | nil =>
    intro b h
    cases h
    exact hnil
  | append_singleton opts o ih =>
    intro b h
    rw [List.foldlM_append] at h
    obtain ⟨u, hu, h⟩ := except_bind_eq_ok.1 h
    obtain ⟨u', hu', h⟩ := except_bind_eq_ok.1 h
    cases h
    exact hstep (ih hu) hu'

end Reading

end Getopt
