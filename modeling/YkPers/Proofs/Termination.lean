import YkPers.Proofs.Decodes

/-!
# Where the option loop ends

The cases of `-a` and `-c` step back behind an argument that begins with `-`. That is progress where
the argument is an element of its own, and `-c` then reads from the console. Where the argument of
`-a` is the rest of its element, the scan is put back to the front of the element, and the letters
before the `-a` are handled once more. The loop goes on for ever exactly where none of them is
refused then (`optionLoop_ends_iff`).
-/

namespace YkPers

open Proc (Moves)

/-! ## Turns -/

section Turns

variable {E : ArgsEnv} {o : Getopt.Scanned} {s t u : ArgsState}

theorem version_loopFrame : LoopFrame (fun y y' => y'.cfg.version = y.cfg.version)
    (fun s s' => s'.ykp.cfg.version = s.ykp.cfg.version) where
  onYkp := ⟨fun _ _ _ h k => k.trans h, fun _ _ h => h.version⟩
  trans _ _ _ h k := k.trans h
  same _ _ h := by rw [h.ykp]
  ykp _ _ h := h
  flag _ _ _ _ _ _ := rfl
  command _ _ _ := rfl
  clear _ := rfl
  any _ _ h _ _ _ := by rw [h]

theorem handle_version (o : Getopt.Scanned) (s : ArgsState) :
    (handle E o s).2.ykp.cfg.version = s.ykp.cfg.version := by
  rcases ho : gates o with _ | _
  · exact version_loopFrame.handle E ho s
  · rw [gates_ykp ho]

/-- What a turn does: the scan goes on behind the option, marks are only set, and the console is no
longer than before. -/
structure Stepped (s : ArgsState) (o : Getopt.Scanned) (u : ArgsState) : Prop where
  scanned : ∃ g, s.getopt.getopt optstring = (some o, g) ∧ u.getopt = resume g o
  clear : ∀ m ∈ (optionKind o).guards, s.seen m = false
  seen : ∀ m, u.seen m = (s.seen m || (optionKind o).mark = some m)
  version : u.ykp.cfg.version = s.ykp.cfg.version
  stdin : u.stdin.length ≤ s.stdin.length

theorem stepped_of_turn (h : Turns.Turn scanNext (handle E) s o u) : Stepped s o u := by
  obtain ⟨t, hn, hu⟩ := h
  obtain ⟨h1, rfl⟩ := Prod.mk.inj hn
  have hhandled := handle_ok hu
  have hversion := handle_version (E := E) o { s with getopt := (s.getopt.getopt optstring).2 }
  have hkept := handle_kept (E := E) o { s with getopt := (s.getopt.getopt optstring).2 }
  rw [hu] at hversion hkept
  exact ⟨⟨_, Prod.ext h1 rfl, hhandled.getopt⟩, hhandled.clear, hhandled.seen, hversion,
    hkept.stdin⟩

end Turns

/-! ## The letters before the scan -/

section Letters

variable {E : ArgsEnv} {o : Getopt.Scanned} {s₀ s t u : ArgsState} {os : List Getopt.Scanned}
  {c : Char} {done post rest : List Char}

/-- A letter has been handled: it takes no argument, its mark is set, and if it asks for a swap the
firmware can do it. -/
structure Settled (s : ArgsState) (c : Char) : Prop where
  flag : Getopt.takesArg optstring c = some false
  helps : helps (.flag c) = false
  marked : ∀ m, (optionKind (.flag c)).mark = some m → s.seen m = true
  swap : c = 'x' → commandError s.ykp.cfg slotSwap = none

/-- The letters before the scan have been handled. -/
def Behind (s : ArgsState) : Prop :=
  s.getopt.nextchar ≠ [] → ∃ done, done ≠ [] ∧ s.getopt.At done s.getopt.nextchar ∧
    ∀ c ∈ done, Settled s c

theorem Settled.stepped (h : Settled s c) (hs : Stepped s o u) : Settled u c where
  flag := h.flag
  helps := h.helps
  marked m hm := by rw [hs.seen, h.marked m hm, Bool.true_or]
  swap hc := by rw [commandError_congr hs.version, h.swap hc]

/-- What is handled is settled. -/
theorem settled_of_turn (h : Turns.Turn scanNext (handle E) s (.flag c) u)
    (hc : Getopt.takesArg optstring c = some false) : Settled u c := by
  have hs := stepped_of_turn h
  obtain ⟨t, hn, hu⟩ := h
  obtain ⟨-, hhelps, hrefused⟩ := handle_keeps hu
  refine ⟨hc, hhelps, fun m hm => by simp [hs.seen, hm], ?_⟩
  rintro rfl
  have hversion := handle_version (E := E) (.flag 'x') t
  rw [hu] at hversion
  rw [commandError_congr hversion]
  by_contra hne
  exact hrefused ⟨rfl, rfl, (handle_ok hu).clear, hne⟩

theorem resume_nextchar (g : Getopt) (o : Getopt.Scanned) :
    (resume g o).nextchar = g.nextchar := by
  unfold resume
  split <;> first | rfl | (split <;> rfl)

theorem behind_of_turn (hb : Behind s) (h : Turns.Turn scanNext (handle E) s o u) : Behind u := by
  intro hn
  have hs := stepped_of_turn h
  obtain ⟨g, hg, hu⟩ := hs.scanned
  obtain ⟨c, rest, hl, hlet⟩ := Getopt.letters_of_getopt hg
  rw [hu, resume_nextchar] at hn
  obtain ⟨⟨rfl, hc⟩ | rfl, rfl, hrest, hnext⟩ := Getopt.nextchar_of_letter hlet hn
  swap
  · obtain ⟨t, -, hu⟩ := h
    exact absurd (handle_keeps hu).2.1 (by simp [helps])
  have hgetopt : u.getopt = s.getopt.past rest := hu
  rw [hgetopt, hnext]
  have hsettled := settled_of_turn h hc
  rcases hnc : s.getopt.nextchar with _ | ⟨d, ds⟩
  · refine ⟨[c], List.cons_ne_nil _ _, (Getopt.at_nil_of_letters hnc hl).past hrest, ?_⟩
    simpa using hsettled
  · obtain ⟨done, hne, hat, hdone⟩ := hb (by rw [hnc]; exact List.cons_ne_nil _ _)
    simp only [Getopt.letters, hnc] at hl
    rw [hnc, hl] at hat
    refine ⟨done ++ [c], by simp, hat.past hrest, fun d hd => ?_⟩
    rcases List.mem_append.1 hd with hd | hd
    · exact (hdone d hd).stepped hs
    · rwa [List.mem_singleton.1 hd]

theorem behind_of_reaches (h₀ : s₀.getopt.nextchar = []) (h : Reaches E s₀ os s) : Behind s :=
  h.invariant (P := fun _ s => Behind s) (fun hn => absurd h₀ hn)
    fun _ _ _ _ hb ht => behind_of_turn hb ht

/-! ## Letters that are handled once more -/

/-- The argument of `-a` is the rest of its element and an option itself, and none of the letters
before the `-a` is refused when it is handled once more. -/
def Replays (s : ArgsState) : Prop :=
  ∃ done rest, s.getopt.At done ('a' :: '-' :: rest) ∧
    ∀ c ∈ done, ∀ m ∈ (optionKind (.flag c)).guards, s.seen m = false

/-- A letter that has been handled is handled again where it is not guarded against. -/
theorem Settled.handle_again (h : Settled s c)
    (hclear : ∀ m ∈ (optionKind (.flag c)).guards, s.seen m = false) :
    ∃ u, handle E (.flag c) s = (.ok ⟨⟩, u) := by
  have hc : c ∈ ['u', '1', '2', 'x', 'z', 'd', 'v', 'y', 'V'] := by
    have hhelps := h.helps
    simpa only [YkPers.helps, decide_eq_false_iff_not, not_not] using hhelps
  have hslot : ∀ {k : Kind}, optionKind (.flag c) = k → k.mark = some .slot → .slot ∉ k.guards :=
    fun hk hm hg => by
      subst hk
      exact Bool.false_ne_true ((hclear _ hg).symm.trans (h.marked _ hm))
  simp only [List.mem_cons, List.not_mem_nil, or_false] at hc
  rcases hc with rfl | rfl | rfl | rfl | rfl | rfl | rfl | rfl | rfl
  · have h1 : s.slotChosen = false := hclear .slot (by decide)
    have h2 : s.swapSeen = false := hclear .swap (by decide)
    have h3 : s.ndefSeen = false := hclear .ndefRequest (by decide)
    have hrun : (caseU s).1 = .ok ⟨⟩ := by
      rw [caseU, Proc.get_bind_run, h1, h2, h3]
      rfl
    exact ⟨_, Proc.run_eq hrun⟩
  · exact absurd (by decide) (hslot (k := .slot1) rfl rfl)
  · exact absurd (by decide) (hslot (k := .slot2) rfl rfl)
  · have hfree : (s.slotChosen || s.optionSeen || s.updateSeen || s.ndefSeen || s.zap ||
        s.usbModeSeen || s.scanMapSeen || s.deviceInfoSeen) = false := by
      simpa [optionKind, Kind.guards, ArgsState.seen, and_assoc] using hclear
    have hcommand := configureCommand_run slotSwap s
    rw [h.swap rfl] at hcommand
    have hguard : ∀ msg, rejectIf false msg s = (.ok ⟨⟩, s) := fun _ => rfl
    have hrun : (caseX s).1 = .ok ⟨⟩ := by
      rw [caseX, Proc.get_bind_run, hfree, Proc.bind_ok (hguard _), Proc.bind_ok hcommand]
      rfl
    exact ⟨_, Proc.run_eq hrun⟩
  · have hfree : (s.swapSeen || s.updateSeen || s.ndefSeen || s.usbModeSeen || s.scanMapSeen ||
        s.deviceInfoSeen) = false := by
      simpa [optionKind, Kind.guards, ArgsState.seen, and_assoc] using hclear
    have hrun : (caseZ s).1 = .ok ⟨⟩ := by
      rw [caseZ, Proc.get_bind_run, hfree]
      rfl
    exact ⟨_, Proc.run_eq hrun⟩
  all_goals exact ⟨_, rfl⟩

theorem scanNext_eq {g : Getopt} (h : s.getopt.getopt optstring = (some o, g)) :
    scanNext s = (some o, { s with getopt := g }) := by
  rw [scanNext, h]

theorem letter_flag (hc : Getopt.takesArg optstring c = some false)
    (hl : s.getopt.letters = c :: rest) :
    s.getopt.getopt optstring = (some (.flag c), s.getopt.past rest) := by
  simp only [Getopt.getopt_of_letters hl, Getopt.letter, hc, Prod.map_apply, id]

theorem takesArg_dash : Getopt.takesArg optstring '-' = none := by decide

theorem ne_dash (hc : Getopt.takesArg optstring c = some false) : c ≠ '-' := by
  rintro rfl
  rw [takesArg_dash] at hc
  cases hc

/-- `-a` with its argument in its element puts the scan back to the front of the element. -/
theorem turn_replay (h : s.getopt.At done ('a' :: '-' :: rest)) :
    ∃ u, Turns.Turn scanNext (handle E) s (.arg 'a' ('-' :: rest)) u ∧
      u.getopt.At [] (done ++ 'a' :: '-' :: rest) ∧ u.seen = s.seen ∧ u.ykp = s.ykp := by
  have hg : s.getopt.getopt optstring = (some (.arg 'a' ('-' :: rest)), s.getopt.past []) := by
    have ha : Getopt.takesArg optstring 'a' = some true := by decide
    simp only [Getopt.getopt_of_letters (h.letters (by decide)), Getopt.letter, ha, Prod.map_apply,
      id]
  exact ⟨_, ⟨_, scanNext_eq hg, rfl⟩, ⟨h.element, rfl⟩, rfl, rfl⟩

/-- A head that replays is met again and again. -/
theorem not_stops_of_replays (hb : Behind t) (h : Replays t) :
    ¬ Turns.Stops scanNext (handle E) t := by
  obtain ⟨done, rest, hat, hclear⟩ := h
  have hsettled : ∀ c ∈ done, Settled t c := by
    intro c hc
    have hne : done ≠ [] := List.ne_nil_of_mem hc
    have hn := hat.nextchar
    rw [if_neg hne] at hn
    obtain ⟨done', -, hat', hdone⟩ := hb (by rw [hn]; exact List.cons_ne_nil _ _)
    have helement := hat.element.symm.trans hat'.element
    rw [hn] at helement
    have hsame := (List.cons.inj (Option.some.inj helement)).2
    exact hdone c (List.append_cancel_right hsame ▸ hc)
  refine Turns.not_stops (J := fun s => ∃ pre post, done = pre ++ post ∧
    s.getopt.At pre (post ++ 'a' :: '-' :: rest) ∧ s.seen = t.seen ∧
      s.ykp.cfg.version = t.ykp.cfg.version) ?_ ⟨done, [], by simp, by simpa using hat, rfl, rfl⟩
  rintro s ⟨pre, post, hsplit, hs, hseen, hversion⟩
  rcases post with _ | ⟨c, post⟩
  · obtain ⟨u, hu, hfront, husees, hykp⟩ := turn_replay (E := E) hs
    refine ⟨_, u, hu, [], done, rfl, ?_, husees.trans hseen, by rw [hykp, hversion]⟩
    rwa [hsplit, List.append_nil]
  · have hc : c ∈ done := by rw [hsplit]; simp
    have hflag := (hsettled c hc).flag
    have hg := letter_flag hflag (hs.letters (ne_dash hflag))
    have hagain : Settled { s with getopt := s.getopt.past (post ++ 'a' :: '-' :: rest) } c :=
      ⟨hflag, (hsettled c hc).helps, fun m hm => (congrFun hseen m).trans
        ((hsettled c hc).marked m hm), fun hx => by
          rw [commandError_congr hversion, (hsettled c hc).swap hx]⟩
    obtain ⟨u, hu⟩ := hagain.handle_again (E := E) fun m hm =>
      (congrFun hseen m).trans (hclear c hc m hm)
    have hstep := stepped_of_turn ⟨_, scanNext_eq hg, hu⟩
    refine ⟨_, u, ⟨_, scanNext_eq hg, hu⟩, pre ++ [c], post, by simp [hsplit], ?_, ?_,
      hstep.version.trans hversion⟩
    · rw [(handle_ok hu).getopt]
      exact hs.past (by simp)
    · -- its mark is set already
      funext m
      rw [hstep.seen, hseen]
      by_cases hm : (optionKind (.flag c)).mark = some m
      · rw [(hsettled c hc).marked m hm, Bool.true_or]
      · simp [hm]

end Letters

/-! ## Progress -/

section Progress

variable {E : ArgsEnv} {o : Getopt.Scanned} {s₀ s u : ArgsState} {os : List Getopt.Scanned}

/-- Where one of the letters that are handled once more is guarded against, the loop ends. -/
theorem stops_of_guarded {tail : List Char} (ht : tail ≠ []) :
    ∀ (post : List Char) {pre : List Char} {s : ArgsState}, s.getopt.At pre (post ++ tail) →
      (∀ c ∈ post, Getopt.takesArg optstring c = some false) →
      (∃ c ∈ post, ∃ m ∈ (optionKind (.flag c)).guards, s.seen m = true) →
      Turns.Stops scanNext (handle E) s
  | [], _, _, _, _, h => by
    obtain ⟨c, hc, -⟩ := h
    cases hc
  | c :: post, pre, s, hat, hflags, h => by
    refine .of_next handle_ne_diverge fun o u hturn => ?_
    have hstep := stepped_of_turn hturn
    have hflag := hflags c List.mem_cons_self
    obtain ⟨g, hg, hu⟩ := hstep.scanned
    rw [letter_flag hflag (hat.letters (ne_dash hflag))] at hg
    obtain ⟨ho, rfl⟩ := Prod.mk.inj hg
    obtain rfl := Option.some.inj ho
    have hnext : u.getopt.At (pre ++ [c]) (post ++ tail) := by
      rw [hu]
      exact hat.past (by simp [ht])
    obtain ⟨d, hd, m, hm, hs⟩ := h
    rcases List.mem_cons.1 hd with rfl | hd
    · rw [hstep.clear m hm] at hs
      cases hs
    · refine stops_of_guarded ht post hnext (fun c hc => hflags c (List.mem_cons_of_mem _ hc)) ?_
      exact ⟨d, hd, m, hm, by rw [hstep.seen, hs, Bool.true_or]⟩

/-- Less is to be read from the console, or as much of it and less to be scanned. -/
def Less (u s : ArgsState) : Prop :=
  Prod.Lex (· < ·) (· < ·) (u.stdin.length, u.getopt.remaining)
    (s.stdin.length, s.getopt.remaining)

theorem wellFounded_less : WellFounded Less :=
  InvImage.wf (fun s : ArgsState => (s.stdin.length, s.getopt.remaining))
    (Prod.lex Nat.lt_wfRel Nat.lt_wfRel).wf

theorem less_of_remaining (hstdin : u.stdin.length ≤ s.stdin.length)
    (h : u.getopt.remaining < s.getopt.remaining) : Less u s := by
  unfold Less
  rcases hstdin.lt_or_eq with hlt | heq
  · exact .left _ _ hlt
  · rw [heq]
    exact .right _ h

theorem caseC_reads {optarg : List Char} (ho : isOption optarg = true)
    (h : caseC optarg s = (.ok ⟨⟩, u)) : u.stdin.length < s.stdin.length := by
  unfold caseC at h
  rw [if_pos ho, stepBack, Proc.modify_bind_run] at h
  obtain ⟨p, stderr, stdin, hrun, -, hlt⟩ := promptForData_run
    " Access code, 6 bytes (12 characters hex) : " { s with getopt := s.getopt.stepBack }
  rw [promptAccessCode, Proc.bind_ok hrun, Proc.modify_bind_run] at h
  split_ifs at h with hp
  · cases (Prod.mk.inj h).1
  · rw [← (Prod.mk.inj h).2]
    exact hlt (not_not.1 hp)

/-- The letters before the scan, at every head. -/
theorem at_of_behind {l : List Char} {c : Char} (hb : Behind s)
    (hl : s.getopt.letters = c :: l) :
    ∃ done, s.getopt.At done (c :: l) ∧ ∀ d ∈ done, Settled s d := by
  rcases hn : s.getopt.nextchar with _ | ⟨d, ds⟩
  · exact ⟨[], Getopt.at_nil_of_letters hn hl, by simp⟩
  · obtain ⟨done, -, hat, hdone⟩ := hb (by rw [hn]; exact List.cons_ne_nil _ _)
    simp only [Getopt.letters, hn] at hl
    rw [hn, hl] at hat
    exact ⟨done, hat, hdone⟩

/-- A turn from a head that does not replay leaves less to be done, or leads to the end. -/
theorem stops_or_less (hb : Behind s) (hr : ¬ Replays s)
    (h : Turns.Turn scanNext (handle E) s o u) :
    Turns.Stops scanNext (handle E) u ∨ Less u s := by
  have hstep := stepped_of_turn h
  obtain ⟨g, hg, hu⟩ := hstep.scanned
  obtain ⟨hless, hback⟩ := Getopt.remaining_lt hg
  have hforward : u.getopt = g → Turns.Stops scanNext (handle E) u ∨ Less u s := fun hug =>
    .inr (less_of_remaining hstep.stdin (by rw [hug]; exact hless))
  unfold resume at hu
  split at hu
  · rename_i optarg
    split_ifs at hu with ho
    · rcases hback 'a' optarg rfl with ⟨⟨hne, hl, -⟩, rfl⟩ | hlt
      · obtain ⟨rest, rfl⟩ : ∃ rest, optarg = '-' :: rest := by
          rcases optarg with _ | ⟨d, rest⟩
          · exact absurd rfl hne
          · have hd : d = '-' := by simpa [isOption] using ho
            exact ⟨rest, by rw [hd]⟩
        obtain ⟨done, hat, hdone⟩ := at_of_behind hb hl
        -- a letter before the `-a` is guarded against, and meets the mark again
        obtain ⟨c, hc, m, hm, hs⟩ : ∃ c ∈ done, ∃ m ∈ (optionKind (.flag c)).guards,
            s.seen m = true := by
          by_contra hno
          push Not at hno
          exact hr ⟨done, rest, hat, fun c hc m hm => Bool.eq_false_iff.2 (hno c hc m hm)⟩
        have hfront : u.getopt.At [] (done ++ 'a' :: '-' :: rest) := by
          rw [hu]
          exact ⟨hat.element, rfl⟩
        exact .inl (stops_of_guarded (List.cons_ne_nil _ _) done hfront
          (fun c hc => (hdone c hc).flag) ⟨c, hc, m, hm, by rw [hstep.seen, hs, Bool.true_or]⟩)
      · exact .inr (less_of_remaining hstep.stdin (by rw [hu]; exact hlt))
    · exact hforward hu
  · rename_i optarg
    split_ifs at hu with ho
    · obtain ⟨t, hn, hrun⟩ := h
      obtain rfl := (Prod.mk.inj hn).2
      have hreads := caseC_reads ho hrun
      exact .inr (.left _ _ hreads)
    · exact hforward hu
  · exact hforward hu

/-- The option loop ends exactly where it comes to no element that it replays for ever: a `-a` whose
argument begins with `-` in the same element, behind letters of which none is refused when it comes
a second time. -/
theorem optionLoop_ends_iff (E : ArgsEnv) (argv : List (List Char)) (stdin : List Char)
    (scanCodes deviceInfo : List UInt8) :
    (∃ fuel, (optionLoop E fuel (loopStart E argv stdin scanCodes deviceInfo)).1 ≠ .diverge) ↔
      ∀ os s, Reaches E (loopStart E argv stdin scanCodes deviceInfo) os s → ¬ Replays s := by
  have hstart : (loopStart E argv stdin scanCodes deviceInfo).getopt.nextchar = [] := rfl
  simp only [optionLoop_eq]
  constructor
  · intro hstops os s hs hr
    exact not_stops_of_replays (behind_of_reaches hstart hs) hr (hs.stops_iff.1 hstops)
  · intro h
    refine Turns.stops_of_wellFounded wellFounded_less (K := fun s => ∃ os, Reaches E
      (loopStart E argv stdin scanCodes deviceInfo) os s) handle_ne_diverge ?_ _ ⟨[], .start⟩
    rintro s o u ⟨os, hs⟩ hturn
    exact (stops_or_less (behind_of_reaches hstart hs) (h os s hs) hturn).imp_right
      fun hless => ⟨⟨_, hs.turn hturn⟩, hless⟩

open ScriptedHost (env) in
/-- `-a-x` is read as the key `-x`, put back, and read as the key `-x`. -/
theorem optionLoop_diverges :
    ¬ ∃ fuel, (optionLoop (env 3 0 0) fuel (loopStart (env 3 0 0)
      ["ykpersonalize".toList, "-a-x".toList] [] [] [])).1 ≠ .diverge := by
  simp only [optionLoop_eq]
  exact not_stops_of_replays (fun hn => absurd rfl hn) ⟨[], ['x'], ⟨rfl, rfl⟩, by simp⟩

end Progress

end YkPers
