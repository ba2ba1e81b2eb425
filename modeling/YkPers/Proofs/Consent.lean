import YkPers.Proofs.OathId
import YkPers.Proofs.Prepare
import YkPers.ScriptedMain

/-!
# When the program writes to the key

A run writes to the key at most once, and only with consent (`program_consented`). No step over the
options has failed before, if the identifier of the token could be set (`failed_step_ends`).
-/

namespace YkPers

open Proc (Moves attempt)

section Runs

variable {σ : Type} {U : Usb σ} {M : MainEnv} {fuel : ℕ} {keyIndex : ℤ} {inf : Option Input}
  {m m' v u : MainState σ} {answers : List (List Char)} {call : Programming}

/-! ## What is known at the commit -/

theorem oathId_gates (st : YkStatus) {t t' : MainState σ}
    (h : applyOathId U M st t = (.ok ⟨⟩, t')) :
    SameGates t.session.args t'.session.args := by
  rcases applyOathId_ok h with ⟨-, rfl⟩ | ⟨-, r, s, hset, rfl⟩
  · exact .refl _
  · exact (gates_loopFrame.toFrame.setOathId _ _ gates_loopFrame.flag _).attempt.of_eq_ok hset

theorem oathId_texts (st : YkStatus) {t t' : MainState σ}
    (h : applyOathId U M st t = (.ok ⟨⟩, t')) :
    SameTexts t.session.args t'.session.args := by
  have hset : Moves (OfArgs SameTexts)
      (setOathId (M.argsEnv st) U.toHost t.session.args.oathid) :=
    sameTexts.setOathId _ _ (fun _ _ => trivial) (fun _ _ _ _ _ _ => trivial) _
  rcases applyOathId_ok h with ⟨-, rfl⟩ | ⟨-, r, s, hrun, rfl⟩
  · exact .refl _
  · exact hset.attempt.of_eq_ok hrun

/-- What the options said is what the commit asks about, and what it writes of the strings. -/
theorem AtCommit.said (h : AtCommit U M fuel keyIndex inf m v u) : ∃ st t,
    parseOptions U M fuel keyIndex m = (.ok st, t) ∧ SameGates t.session.args u.session.args ∧
      SameTexts t.session.args u.session.args ∧ u.session.args.outfname = none := by
  obtain ⟨st, t, t', ht, hid, hpass, hout⟩ := prepare_ok h.prepared
  have himport : SameGates v.session.args u.session.args ∧
      SameTexts v.session.args u.session.args := by
    rcases importFile_ok h.imported with rfl | ⟨text, himport⟩
    · exact ⟨.refl _, .refl _⟩
    · exact ⟨himport.gates, himport.texts⟩
  exact ⟨st, t, ht, ((oathId_gates st hid).trans hpass.gates).trans himport.1,
    ((oathId_texts st hid).trans hpass.texts).trans himport.2, himport.1.outfname.trans hout⟩

/-- The one step that has failed before the commit is the one over the identifier. -/
theorem AtCommit.failed_iff (h : AtCommit U M fuel keyIndex inf m v u) (hm : m.acts = []) :
    ∃ st t, parseOptions U M fuel keyIndex m = (.ok st, t) ∧
      ∀ step, .step step false ∈ u.acts ↔ step = .setOathId ∧ t.session.args.oathid ≠ [] ∧
        ¬ OathIdAccepted (M.argsEnv st) U.toHost t.session := by
  obtain ⟨st, t, t', ht, hid, hpass, -⟩ := prepare_ok h.prepared
  refine ⟨st, t, ht, fun step => ?_⟩
  have himport : Logs (fun a => ∃ text, a = .step (.importConfig text) true) v u := by
    rcases importFile_ok h.imported with rfl | ⟨text, himport⟩
    · exact .refl _
    · exact .single ⟨text, rfl⟩ himport.acts
  have hlater : .step step false ∈ u.acts ↔ .step step false ∈ t'.acts := by
    refine ⟨fun hu => ?_, fun ht' => himport.mem_of_mem (hpass.logs.mem_of_mem ht')⟩
    refine (hpass.logs.mem_or ((himport.mem_or hu).resolve_right ?_)).resolve_right ?_
    · simp
    · simp [Act.Passed]
  have hfirst : Act.step step false ∉ t.acts := by simp [(parseOptions_ok ht).2, hm]
  rw [hlater]
  rcases applyOathId_ok hid with ⟨hnone, rfl⟩ | ⟨hsome, r, s, hset, rfl⟩
  · exact iff_of_false hfirst fun hx => hx.2.1 hnone
  · have hr : r.isSome = true ↔ OathIdAccepted (M.argsEnv st) U.toHost t.session := by
      rw [← setOathId_ok_iff]
      rcases r with _ | _
      · refine iff_of_false Bool.false_ne_true fun hok => ?_
        rw [Proc.attempt_ok (Proc.run_eq hok)] at hset
        cases (Prod.mk.inj hset).1
      · exact iff_of_true rfl (congrArg Prod.fst (Proc.of_attempt_ok hset))
    rw [List.mem_append, or_iff_right hfirst, ← hr, List.mem_singleton, Act.step.injEq]
    rcases r with _ | _ <;> simp [hsome]

end Runs

/-! ## Consent -/

section Results

variable {σ : Type} (U : Usb σ) (M : MainEnv) (fuel : ℕ) (argv : List (List Char))
  (stdin : List Char) (scanCodes deviceInfo accessCode : List UInt8) (data : List Char) (dev : σ)

/-- A run does not write to the key, or it does so once: without `-s` and `-d`, and with `-y` or
behind as many answers of `y` or `yes` as the call needs. -/
theorem program_consented :
    let run := ykpersonalize U M fuel
      (.start argv stdin scanCodes deviceInfo accessCode data dev)
    let given := scans fuel (Getopt.start argv)
    (∀ a ∈ run.2.acts, a.isProgram = false) ∨ ∃ pre call post,
      run.2.acts = pre ++ .program call :: post ∧ (∀ a ∈ pre ++ post, a.isProgram = false) ∧
      (∀ name, .arg 's' name ∉ given) ∧ .flag 'd' ∉ given ∧
      (.flag 'y' ∈ given ∨ ∃ earlier, ∃ answers : List (List Char),
        pre = earlier ++ answers.map .answer ∧ answers.length = call.prompts ∧
          ∀ a ∈ answers, a = "y".toList ∨ a = "yes".toList) := by
  intro run given
  rcases ykpersonalize_outcome U M fuel
    (.start argv stdin scanCodes deviceInfo accessCode data dev) with
    hgrows | ⟨keyIndex, inf, v, u, answers, call, h⟩
  · exact .inl (hgrows.none rfl)
  refine .inr ?_
  obtain ⟨post, hacts, hpost⟩ := h.acts
  obtain ⟨st, t, ht, hgates, -, hout⟩ := h.atCommit.said
  have hsaid : Said given u.session.args :=
    (argsToConfig_said (parseOptions_ok ht).1).of_same hgates
  refine ⟨u.acts ++ answers.map .answer, call, post, hacts, ?_, hsaid.outfname.1 hout, ?_, ?_⟩
  · intro a ha
    simp only [List.mem_append, List.mem_map] at ha
    rcases ha with (ha | ⟨line, -, rfl⟩) | ha
    · exact h.atCommit.grows.none rfl a ha
    · rfl
    · exact a.isProgram_of_isReport (hpost a ha)
  · rw [← hsaid.dryRun, h.dryRun]
    exact Bool.false_ne_true
  · have hconsent := h.consented
    unfold Consented at hconsent
    split_ifs at hconsent with hy
    · exact .inl (hsaid.autocommit.1 hy)
    · refine .inr ⟨u.acts, answers, rfl, hconsent.1, fun a ha => ?_⟩
      simpa [agrees] using hconsent.2 a ha

/-! ## Failures -/

/-- Wherever the options ask for an identifier, it can be set. -/
def OathIdHonoured (m : MainState σ) : Prop :=
  ∀ keyIndex st t, prescan M fuel m.session.args.getopt 0 = some (.goOn keyIndex) →
    parseOptions U M fuel keyIndex m = (.ok st, t) → t.session.args.oathid ≠ [] →
      OathIdAccepted (M.argsEnv st) U.toHost t.session

/-- Behind a step that failed, nothing is written to the key. -/
def EndsAtFailure (acts : List Act) : Prop :=
  ∀ pre step post, acts = pre ++ .step step false :: post → ∀ a ∈ post, a.isProgram = false

/-- A step that fails ends the run, if the identifier that the options ask for can be set. Where it
cannot be set, a run that writes to the key does so behind the failure. -/
theorem failed_step_ends :
    let m : MainState σ := .start argv stdin scanCodes deviceInfo accessCode data dev
    let acts := (ykpersonalize U M fuel m).2.acts
    (OathIdHonoured U M fuel m → EndsAtFailure acts) ∧
      (¬ OathIdHonoured U M fuel m → ∀ call, .program call ∈ acts → ¬ EndsAtFailure acts) := by
  intro m acts
  rcases ykpersonalize_outcome U M fuel m with hgrows | ⟨keyIndex, inf, v, u, answers, call, h⟩
  · refine ⟨fun _ pre step post hsplit a ha => hgrows.none rfl a ?_, fun _ call hcall => ?_⟩
    · show a ∈ acts
      rw [hsplit]
      exact List.mem_append_right pre (List.mem_cons_of_mem _ ha)
    · cases hgrows.none rfl _ hcall
  obtain ⟨post, hacts, hpost⟩ := h.acts
  obtain ⟨st, t, ht, hfailed⟩ := h.atCommit.failed_iff rfl
  have hend : EndsAtFailure acts ↔ ∀ step, Act.step step false ∉ u.acts := by
    constructor
    · intro hends step hu
      obtain ⟨pre, rest, hu⟩ := List.append_of_mem hu
      have hcall := hends pre step (rest ++ answers.map .answer ++ .program call :: post)
        (by simp [acts, hacts, hu]) (.program call) (by simp)
      cases hcall
    · intro hnone pre step rest hsplit
      have hmem : Act.step step false ∈ acts := by simp [hsplit]
      exact absurd (h.step_mem.1 hmem) (hnone step)
  have hhonoured : OathIdHonoured U M fuel m ↔ ∀ step, Act.step step false ∉ u.acts := by
    constructor
    · intro hon step hu
      obtain ⟨-, hid, hnot⟩ := (hfailed step).1 hu
      exact hnot (hon keyIndex st t h.prescanned ht hid)
    · intro hnone keyIndex' st' t' hscan ht' hid
      obtain rfl := Prescan.goOn.inj (Option.some.inj (hscan.symm.trans h.prescanned))
      obtain ⟨h1, rfl⟩ := Prod.mk.inj (ht'.symm.trans ht)
      obtain rfl := Ret.ok.inj h1
      by_contra hnot
      exact hnone .setOathId ((hfailed .setOathId).2 ⟨rfl, hid, hnot⟩)
  rw [hend, hhonoured]
  exact ⟨id, fun hn _ _ => hn⟩

end Results

theorem not_endsAtFailure {acts pre : List Act} {step : OptionStep} {n : ℕ}
    (htake : acts.take n = pre ++ [.step step false])
    (hdrop : true ∈ (acts.drop n).map Act.isProgram) : ¬ EndsAtFailure acts := by
  intro hends
  obtain ⟨a, ha, hcall⟩ := List.mem_map.1 hdrop
  have hsplit : acts = pre ++ .step step false :: acts.drop n := by
    rw [List.append_cons, ← htake, List.take_append_drop]
  exact Bool.false_ne_true ((hends pre step _ hsplit a ha).symm.trans hcall)

section Examples

open ScriptedMain

/-- An identifier without `-ooath-hotp` is refused, and the slot is written all the same. -/
theorem oath_id_failure_ignored :
    let run := ykpersonalize usb (env [] []) 20
      (start ["ykpersonalize", "-1", "-y", "-ooath-id"] "" (accepting 8))
    run.1 = .ok 0 ∧ run.2.acts.take 2 = [.step .argsToConfig true, .step .setOathId false] ∧
      (run.2.acts.drop 2).map Act.isProgram = [true] ∧ ¬ EndsAtFailure run.2.acts := by
  have htake : (ykpersonalize usb (env [] []) 20
      (start ["ykpersonalize", "-1", "-y", "-ooath-id"] "" (accepting 8))).2.acts.take 2
        = [.step .argsToConfig true] ++ [.step .setOathId false] := by decide +kernel
  have hdrop : ((ykpersonalize usb (env [] []) 20
      (start ["ykpersonalize", "-1", "-y", "-ooath-id"] "" (accepting 8))).2.acts.drop 2).map
        Act.isProgram = [true] := by decide +kernel
  exact ⟨by decide +kernel, htake, hdrop, not_endsAtFailure htake (by rw [hdrop]; decide)⟩

end Examples

end YkPers
