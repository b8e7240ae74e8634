import BitprimNetwork.Protocols.Version

/-!
# What the version handshake achieves

The handshake waits for two things, the peer's version and its verack, in either order. It fails
as soon as anything ends it first: the handshake timer, the channel stop, or (at level 70002)
the peer rejecting our version as obsolete or duplicate. The peer's version must also be
acceptable, which the code checks on receipt: the configured protocol range must be sane and the
peer sufficient. `Handshake` is that description as a machine over the same events as the
code, and `Handshake.result` is the one code the session's handler should receive.

The two levels are joined by `Refines`, a simulation relation: a waiting handshake corresponds to
a running protocol whose join has counted what has arrived, and a finished one to a cleared join
whose record holds exactly the result. Every step keeps it (`refines_step`), so after any run
the code's record *is* the abstract result. The properties the handshake promises are proved on
the abstract machine, over lists of events, and carried down.
-/

namespace Network

open Async

/-- The abstract handshake. -/
inductive Handshake where
  /-- Waiting; `version` is the peer's accepted version, if it has arrived, and `verack` says
  whether the peer's verack has. -/
  | waiting (version : Option VersionMessage) (verack : Bool)
  /-- Both arrived in time: the peer version `m` was accepted. -/
  | succeeded (m : VersionMessage)
  /-- The handshake failed with `ec`. -/
  | failed (ec : Code)

/-- A reject that ends the handshake: at level 70002, a reject of our version as obsolete or
duplicate. -/
def rejectsVersion (bip61 : Bool) (r : RejectMessage) : Bool :=
  bip61 && r.message == versionCommand && (r.code == .obsolete || r.code == .duplicate)

/-- The events that end a handshake still waiting. -/
def VersionEvent.fatal (bip61 : Bool) : VersionEvent → Bool
  | .timer | .stop => true
  | .reject r => rejectsVersion bip61 r
  | _ => false

/-- The events before the first one that ends the handshake. -/
def untilFatal (bip61 : Bool) (es : List VersionEvent) : List VersionEvent :=
  es.takeWhile fun e ↦ !e.fatal bip61

/-- The first version message among the events. -/
def firstVersion : List VersionEvent → Option VersionMessage
  | [] => none
  | .version m :: _ => some m
  | _ :: es => firstVersion es

namespace Handshake

section Abstract

variable (accept : VersionMessage → Bool) (bip61 : Bool)

/-- One event of the abstract handshake. A finished handshake ignores everything. -/
def step : Handshake → VersionEvent → Handshake
  | waiting none a, .version m =>
    if accept m then (if a then succeeded m else waiting (some m) false)
    else failed .channelStopped
  | waiting (some m) a, .version _ => waiting (some m) a
  | waiting (some m) _, .verack => succeeded m
  | waiting none _, .verack => waiting none true
  | waiting v a, .reject r => if rejectsVersion bip61 r then failed .channelStopped else waiting v a
  | waiting _ _, .timer => failed .channelTimeout
  | waiting _ _, .stop => failed .channelStopped
  | h, _ => h

/-- The code the session's handler receives, once the handshake is over. -/
def result : Handshake → Option Code
  | waiting _ _ => none
  | succeeded _ => some .success
  | failed ec => some ec

@[simp] theorem run_succeeded (m : VersionMessage) (es : List VersionEvent) :
    run (step accept bip61) (succeeded m) es = succeeded m := by
  induction es with
  | nil => rfl
  | cons e es ih => cases e <;> exact ih

@[simp] theorem run_failed (ec : Code) (es : List VersionEvent) :
    run (step accept bip61) (failed ec) es = failed ec := by
  induction es with
  | nil => rfl
  | cons e es ih => cases e <;> exact ih

/-- A fatal event ends a waiting handshake in failure. -/
theorem step_fatal {v : Option VersionMessage} {a : Bool} {e : VersionEvent}
    (he : e.fatal bip61) : ∃ ec, ec ≠ .success ∧ step accept bip61 (waiting v a) e = failed ec := by
  cases e with
  | version m => simp [VersionEvent.fatal] at he
  | verack => simp [VersionEvent.fatal] at he
  | reject r =>
    simp only [VersionEvent.fatal] at he
    exact ⟨.channelStopped, by simp, by cases v <;> simp [step, he]⟩
  | timer => exact ⟨.channelTimeout, by simp, by cases v <;> rfl⟩
  | stop => exact ⟨.channelStopped, by simp, by cases v <;> rfl⟩

/-- **Completion.** A run in which the timer expires or the channel stops has a result. -/
theorem run_result_isSome (es : List VersionEvent) (hes : .timer ∈ es ∨ .stop ∈ es) :
    ∀ h : Handshake, (run (step accept bip61) h es).result.isSome := by
  induction es with
  | nil => simp at hes
  | cons e es ih =>
    intro h
    cases h with
    | succeeded m => rw [run_succeeded]; rfl
    | failed ec => rw [run_failed]; rfl
    | waiting v a =>
      rw [run_cons]
      by_cases hend : e = .timer ∨ e = .stop
      · have hfatal : e.fatal bip61 := by rcases hend with rfl | rfl <;> rfl
        obtain ⟨ec, -, hec⟩ := step_fatal accept bip61 (v := v) (a := a) hfatal
        rw [hec, run_failed]
        rfl
      · have hes' : .timer ∈ es ∨ .stop ∈ es := by
          simp only [List.mem_cons] at hes
          tauto
        exact ih hes' _

/-- What the handshake needs to succeed from a waiting state: among the events before the first
fatal one, the first version is one `handle_receive_version` accepts (unless one is accepted
already), and a verack arrives (unless one has already). -/
def SucceedsFrom (v : Option VersionMessage) (a : Bool) (es : List VersionEvent) : Prop :=
  (v.isSome ∨ ∃ m, firstVersion (untilFatal bip61 es) = some m ∧ accept m) ∧
    (a ∨ .verack ∈ untilFatal bip61 es)

/-- **The success condition.** A waiting handshake ends in success exactly when the rest of
the run meets `SucceedsFrom`. -/
theorem run_succeeds_iff (es : List VersionEvent) :
    ∀ (v : Option VersionMessage) (a : Bool), ¬(v.isSome ∧ a) →
      ((run (step accept bip61) (waiting v a) es).result = some .success ↔
        SucceedsFrom accept bip61 v a es) := by
  induction es with
  | nil =>
    intro v a hva
    simp only [run_nil, result, SucceedsFrom, untilFatal, List.takeWhile_nil, firstVersion,
      List.not_mem_nil,
      or_false, reduceCtorEq, false_iff]
    rintro ⟨hv, ha⟩
    exact hva ⟨by simpa using hv, ha⟩
  | cons e es ih =>
    intro v a hva
    rw [run_cons]
    by_cases hf : e.fatal bip61
    · obtain ⟨ec, hec, hstep⟩ := step_fatal accept bip61 (v := v) (a := a) hf
      simp only [hstep, run_failed, result, Option.some.injEq, hec, false_iff, SucceedsFrom,
        untilFatal, List.takeWhile_cons, hf, Bool.not_true, Bool.false_eq_true, if_false, firstVersion,
        List.not_mem_nil, or_false]
      rintro ⟨hv, ha⟩
      exact hva ⟨by simpa using hv, ha⟩
    · have hcons : untilFatal bip61 (e :: es) = e :: untilFatal bip61 es := by
        simp [untilFatal, hf]
      simp only [SucceedsFrom, hcons]
      cases e with
      | version m =>
        cases v with
        | none =>
          by_cases hm : accept m
          · cases a
            · simp only [step, hm, if_true, Bool.false_eq_true, if_false]
              rw [ih _ _ (by simp)]
              simp [SucceedsFrom, firstVersion, hm]
            · simp [step, hm, result, firstVersion]
          · simp [step, hm, result, firstVersion]
        | some m₀ =>
          simp only [step]
          rw [ih _ _ hva]
          simp [SucceedsFrom]
      | verack =>
        cases v with
        | none =>
          simp only [step]
          rw [ih _ _ (by simp)]
          simp [SucceedsFrom, firstVersion]
        | some m₀ => simp [step, result]
      | reject r =>
        have hr : rejectsVersion bip61 r = false := by simpa [VersionEvent.fatal] using hf
        have hstep : step accept bip61 (waiting v a) (.reject r) = waiting v a := by
          cases v <;> simp [step, hr]
        rw [hstep, ih _ _ hva]
        simp [SucceedsFrom, firstVersion]
      | timer => simp [VersionEvent.fatal] at hf
      | stop => simp [VersionEvent.fatal] at hf

/-- The accepted version of a successful handshake is the first version among the events. -/
theorem run_eq_succeeded (es : List VersionEvent) :
    ∀ (v : Option VersionMessage) (a : Bool) (m : VersionMessage),
      run (step accept bip61) (waiting v a) es = succeeded m →
        v = some m ∨ (v = none ∧ firstVersion es = some m) := by
  induction es with
  | nil => simp
  | cons e es ih =>
    intro v a m hrun
    rw [run_cons] at hrun
    by_cases hf : e.fatal bip61
    · obtain ⟨ec, -, hstep⟩ := step_fatal accept bip61 (v := v) (a := a) hf
      rw [hstep, run_failed] at hrun
      cases hrun
    · cases e with
      | version m' =>
        cases v with
        | none =>
          by_cases hm : accept m'
          · cases a
            · simp only [step, hm, if_true, Bool.false_eq_true, if_false] at hrun
              rcases ih _ _ _ hrun with h | ⟨h, -⟩
              · simp_all [firstVersion]
              · cases h
            · simp only [step, hm, if_true, run_succeeded] at hrun
              simp_all [firstVersion]
          · simp [step, hm] at hrun
        | some m₀ =>
          rcases ih _ _ _ (by simpa [step] using hrun) with h | ⟨h, -⟩
          · exact .inl h
          · cases h
      | verack =>
        cases v with
        | none =>
          rcases ih _ _ _ (by simpa [step] using hrun) with h | ⟨-, h⟩
          · cases h
          · exact .inr ⟨rfl, by simpa [firstVersion] using h⟩
        | some m₀ =>
          simp only [step, run_succeeded, succeeded.injEq] at hrun
          exact .inl (by rw [hrun])
      | reject r =>
        have hr : rejectsVersion bip61 r = false := by simpa [VersionEvent.fatal] using hf
        have hstep : step accept bip61 (waiting v a) (.reject r) = waiting v a := by
          cases v <;> simp [step, hr]
        rw [hstep] at hrun
        rcases ih _ _ _ hrun with h | ⟨h, h'⟩
        · exact .inl h
        · exact .inr ⟨h, by simpa [firstVersion] using h'⟩
      | timer => simp [VersionEvent.fatal] at hf
      | stop => simp [VersionEvent.fatal] at hf

/-- What every reachable state satisfies: an accepted version is acceptable, and a failure
carries an error. -/
def Sound : Handshake → Prop
  | waiting v _ => ∀ m, v = some m → accept m
  | succeeded m => accept m
  | failed ec => ec ≠ .success

theorem sound_step {h : Handshake} (hh : Sound accept h) (e : VersionEvent) :
    Sound accept (step accept bip61 h e) := by
  cases h with
  | waiting v a =>
    cases e with
    | version m =>
      cases v with
      | none =>
        simp only [step]
        split_ifs <;> simp_all [Sound]
      | some m₀ => exact hh
    | verack =>
      cases v with
      | none => simp [step, Sound]
      | some m₀ => exact hh m₀ rfl
    | reject r =>
      have hr : step accept bip61 (waiting v a) (.reject r) =
          if rejectsVersion bip61 r then failed .channelStopped else waiting v a := by
        cases v <;> rfl
      rw [hr]
      split_ifs
      · simp [Sound]
      · exact hh
    | timer => cases v <;> simp [step, Sound]
    | stop => cases v <;> simp [step, Sound]
  | succeeded m => cases e <;> exact hh
  | failed ec => cases e <;> exact hh

theorem sound_run (es : List VersionEvent) :
    Sound accept (run (step accept bip61) (waiting none false) es) :=
  run_invariant (I := Sound accept) (step accept bip61) (fun _ e hh ↦ sound_step accept bip61 hh e)
    es (by simp [Sound])

/-- A reachable state whose result is success is a success with an acceptable version. -/
theorem eq_succeeded_of_result {h : Handshake} (hh : Sound accept h)
    (hres : h.result = some .success) : ∃ m, h = succeeded m ∧ accept m := by
  cases h with
  | waiting v a => simp [result] at hres
  | succeeded m => exact ⟨m, rfl, hh⟩
  | failed ec =>
    simp only [result, Option.some.injEq] at hres
    exact absurd hres hh

end Abstract

end Handshake

/-! ## The code refines the abstract handshake -/

namespace Handshake

/-- The calls a waiting handshake's join has counted: one for the accepted version, one for
the verack. -/
def waitCount (v : Option VersionMessage) (a : Bool) : ℕ :=
  (if v.isSome then 1 else 0) + (if a then 1 else 0)

/-- The join of a waiting handshake. -/
def waitJoin (v : Option VersionMessage) (a : Bool) : Join :=
  ⟨.onError, 2, waitCount v a, by unfold waitCount; split <;> split <;> omega⟩

/-- The simulation relation. A waiting handshake is a running protocol with its timer armed,
whose join has counted what has arrived and whose subscriptions stand for what has not; a
finished one has a cleared join whose record is the result. -/
def Refines (s : Settings) (bip61 : Bool) (p : VersionProtocol) : Handshake → Prop
  | waiting v a =>
    ¬(v.isSome ∧ a) ∧ p.events = Events.started ∧ p.join = waitJoin v a ∧ p.completions = [] ∧
      p.versionSubscribed = v.isNone ∧ p.verackSubscribed = !a ∧ p.rejectSubscribed = bip61 ∧
      ∀ m, v = some m → p.negotiated = min m.value s.protocolMaximum ∧ p.peer = some m
  | succeeded m =>
    p.join.cleared ∧ p.completions = [.success] ∧ p.versionSubscribed = false ∧
      p.negotiated = min m.value s.protocolMaximum ∧ p.peer = some m
  | failed ec => p.join.cleared ∧ p.completions = [ec]

/-- What the code records is the abstract result. -/
theorem completions_eq_of_refines {s : Settings} {bip61 : Bool} {p : VersionProtocol}
    {h : Handshake} (hr : Refines s bip61 p h) : p.completions = h.result.toList := by
  cases h with
  | waiting v a => exact hr.2.2.2.1
  | succeeded m => exact hr.2.1
  | failed ec => exact hr.2

variable (s : Settings) (lv : Levels) (par : VersionParams)

/-- The peers the code accepts on receipt of their version. -/
def accept (m : VersionMessage) : Bool := configValid s lv && sufficientPeer s par m

theorem refines_start : Refines s par.bip61 (VersionProtocol.start s par) (waiting none false) :=
  ⟨by simp, rfl, rfl, rfl, rfl, rfl, rfl, by simp⟩

/-- A finished handshake stays as it is, and so does its refinement. -/
theorem refines_step_finished {p : VersionProtocol} {h : Handshake}
    (hh : ∀ v a, h ≠ waiting v a) (hr : Refines s par.bip61 p h) (e : VersionEvent) :
    Refines s par.bip61 (VersionProtocol.step s lv par p e) (step (accept s lv par) par.bip61 h e) := by
  cases h with
  | waiting v a => exact absurd rfl (hh v a)
  | succeeded m =>
    obtain ⟨hcl, hc, hvs, hneg, hpeer⟩ := hr
    obtain ⟨hj', hc'⟩ := @VersionProtocol.step_of_cleared s lv par _ hcl e
    obtain ⟨hneg', hpeer', hvs'⟩ :=
      @VersionProtocol.step_of_not_versionSubscribed s lv par _ hvs e
    have hstep : step (accept s lv par) par.bip61 (succeeded m) e = succeeded m := by
      cases e <;> rfl
    rw [hstep]
    exact ⟨hj' ▸ hcl, hc' ▸ hc, hvs', hneg' ▸ hneg, hpeer' ▸ hpeer⟩
  | failed ec =>
    obtain ⟨hcl, hc⟩ := hr
    obtain ⟨hj', hc'⟩ := @VersionProtocol.step_of_cleared s lv par _ hcl e
    have hstep : step (accept s lv par) par.bip61 (failed ec) e = failed ec := by
      cases e <;> rfl
    rw [hstep]
    exact ⟨hj' ▸ hcl, hc' ▸ hc⟩

/-- An error completes a waiting join. -/
theorem waitJoin_call_error {v : Option VersionMessage} {a : Bool} (hva : ¬(v.isSome ∧ a))
    (ec : Code) (hec : ec ≠ .success) :
    ((waitJoin v a).call Code.success ec).1.cleared ∧
      ((waitJoin v a).call Code.success ec).2 = true := by
  have hlt : ¬(waitJoin v a).cleared := by
    cases v <;> cases a <;> simp_all [waitJoin, waitCount, Join.cleared]
  have ht : Join.terminal Code.success (waitJoin v a).mode ec := by simp [waitJoin, Join.terminal, hec]
  obtain ⟨hcount, hfire⟩ := Join.call_of_terminal hlt ht
  exact ⟨by rw [Join.cleared_iff, hcount, Join.call_clearance], hfire⟩

/-- The first success is counted. -/
theorem waitJoin_call_first {v : Option VersionMessage} {a : Bool} (h : waitCount v a = 1) :
    (waitJoin none false).call Code.success Code.success = (waitJoin v a, false) := by
  have hj : waitJoin v a = ⟨.onError, 2, 1, by omega⟩ := by simp [waitJoin, h]
  rw [hj]
  rfl

/-- The second success completes the join. -/
theorem waitJoin_call_second {v : Option VersionMessage} {a : Bool} (h : waitCount v a = 1) :
    ((waitJoin v a).call Code.success Code.success).1.cleared ∧
      ((waitJoin v a).call Code.success Code.success).2 = true := by
  have hj : waitJoin v a = ⟨.onError, 2, 1, by omega⟩ := by simp [waitJoin, h]
  rw [hj]
  exact ⟨rfl, rfl⟩

/-- An error reaching a waiting protocol fails the handshake with it. -/
theorem refines_setEvent_error {q : VersionProtocol} {v : Option VersionMessage} {a : Bool}
    (hva : ¬(v.isSome ∧ a)) (hrun : q.events.running) (hj : q.join = waitJoin v a)
    (hc : q.completions = []) (ec : Code) (hec : ec ≠ .success) :
    Refines s par.bip61 (q.setEvent ec) (failed ec) := by
  obtain ⟨hcl, hfire⟩ := waitJoin_call_error hva ec hec
  rw [VersionProtocol.setEvent_of_running hrun]
  simp only [hj, hc, hfire, if_true, List.nil_append]
  exact ⟨hcl, rfl⟩

/-- A peer's version reaching a waiting protocol: while the version subscription stands it
is counted when acceptable and fails the handshake otherwise. -/
theorem refines_version_waiting {p : VersionProtocol} {v : Option VersionMessage} {a : Bool}
    (hr : Refines s par.bip61 p (waiting v a)) (m : VersionMessage) :
    Refines s par.bip61 (VersionProtocol.step s lv par p (.version m))
      (step (accept s lv par) par.bip61 (waiting v a) (.version m)) := by
  obtain ⟨hva, hev, hj, hc, hvs, has, hrs, hneg⟩ := hr
  have hrun : p.events.running := by rw [hev]; rfl
  cases v with
  | none =>
    obtain ⟨q, hqe, hqj, hqc, hqvs, hqva, hqr, hqneg, heq⟩ :=
      @VersionProtocol.handleReceiveVersion_spec s lv par _ hrun m
    have hqrun : q.events.running := by rw [hqe]; exact hrun
    simp only [Option.isNone_none] at hvs
    simp only [VersionProtocol.step, hvs, if_true, heq,
      VersionProtocol.setEvent_of_running hqrun, hqj, hj, hqc, hc, step]
    by_cases hacc : accept s lv par m
    · have hacc' : (configValid s lv && sufficientPeer s par m) = true := hacc
      obtain ⟨hn, hp⟩ := hqneg hacc'
      simp only [hacc', if_true, hacc]
      cases a
      · rw [waitJoin_call_first (v := some m) (a := false) rfl]
        refine ⟨by simp, by simp [hqe, hev, Events.started], rfl, rfl, hqvs, ?_, ?_, ?_⟩
        · simp [hqva, has]
        · simp [hqr, hrs]
        · intro m' hm'
          cases hm'
          exact ⟨hn, hp⟩
      · obtain ⟨hcl, hfire⟩ := waitJoin_call_second (v := none) (a := true) rfl
        simp only [if_true, hfire]
        exact ⟨hcl, rfl, hqvs, hn, hp⟩
    · have hacc' : (configValid s lv && sufficientPeer s par m) = false := by
        simpa [accept] using hacc
      simp only [hacc', Bool.false_eq_true, if_false, hacc]
      obtain ⟨hcl, hfire⟩ := waitJoin_call_error (v := none) (a := a) hva
        .channelStopped (by simp)
      simp only [hfire, if_true]
      exact ⟨hcl, rfl⟩
  | some m₀ =>
    simp only [Option.isNone_some] at hvs
    simp only [VersionProtocol.step, hvs, step]
    exact ⟨hva, hev, hj, hc, hvs, has, hrs, hneg⟩

/-- A verack reaching a waiting protocol is counted once, and completes the handshake after
an accepted version. -/
theorem refines_verack_waiting {p : VersionProtocol} {v : Option VersionMessage} {a : Bool}
    (hr : Refines s par.bip61 p (waiting v a)) :
    Refines s par.bip61 (VersionProtocol.step s lv par p .verack)
      (step (accept s lv par) par.bip61 (waiting v a) .verack) := by
  obtain ⟨hva, hev, hj, hc, hvs, has, hrs, hneg⟩ := hr
  have hrun : p.events.running := by rw [hev]; rfl
  cases v with
  | none =>
    cases a with
    | false =>
      simp only [Bool.not_false] at has
      simp only [VersionProtocol.step, has, if_true, VersionProtocol.handleReceiveVerack, hrun,
        Bool.not_true, Bool.false_eq_true, if_false, step]
      rw [VersionProtocol.setEvent_of_running (p := { p with verackSubscribed := false }) hrun]
      simp only [hj, waitJoin_call_first (v := none) (a := true) rfl, hc, Bool.false_eq_true,
        if_false]
      exact ⟨by simp, by simp [hev, Events.started], rfl, rfl, hvs, rfl, hrs, by simp⟩
    | true =>
      simp only [Bool.not_true] at has
      simp only [VersionProtocol.step, has, Bool.false_eq_true, if_false, step]
      exact ⟨hva, hev, hj, hc, hvs, has, hrs, hneg⟩
  | some m =>
    cases a with
    | false =>
      simp only [Bool.not_false] at has
      obtain ⟨hn, hp⟩ := hneg m rfl
      obtain ⟨hcl, hfire⟩ := waitJoin_call_second (v := some m) (a := false) rfl
      simp only [VersionProtocol.step, has, if_true, VersionProtocol.handleReceiveVerack, hrun,
        Bool.not_true, Bool.false_eq_true, if_false, step]
      rw [VersionProtocol.setEvent_of_running (p := { p with verackSubscribed := false }) hrun]
      simp only [hj, hfire, if_true, hc, List.nil_append]
      exact ⟨hcl, rfl, by simpa using hvs, hn, hp⟩
    | true => exact absurd ⟨rfl, rfl⟩ hva

/-- A reject reaching a waiting protocol fails the handshake exactly when it rejects our
version at level 70002. -/
theorem refines_reject_waiting {p : VersionProtocol} {v : Option VersionMessage} {a : Bool}
    (hr : Refines s par.bip61 p (waiting v a)) (r : RejectMessage) :
    Refines s par.bip61 (VersionProtocol.step s lv par p (.reject r))
      (step (accept s lv par) par.bip61 (waiting v a) (.reject r)) := by
  obtain ⟨hva, hev, hj, hc, hvs, has, hrs, hneg⟩ := hr
  have hrun : p.events.running := by rw [hev]; rfl
  have hkeep : Refines s par.bip61 p (waiting v a) := ⟨hva, hev, hj, hc, hvs, has, hrs, hneg⟩
  -- The abstract machine fails exactly on the rejects that the handler fails on.
  by_cases hrej : rejectsVersion par.bip61 r
  · obtain ⟨hb, hm, hcode⟩ : par.bip61 = true ∧ r.message = versionCommand ∧
        (r.code = .obsolete ∨ r.code = .duplicate) := by
      simpa [rejectsVersion, and_assoc] using hrej
    have hstep : step (accept s lv par) par.bip61 (waiting v a) (.reject r) =
        failed .channelStopped := by
      cases v <;> simp [step, hrej]
    have hsub : p.rejectSubscribed = true := hrs.trans hb
    have hfail := refines_setEvent_error s par (q := { p with rejectSubscribed := false }) hva hrun
      hj hc .channelStopped (by simp)
    rw [hstep]
    simp only [VersionProtocol.step, hsub, if_true, VersionProtocol.handleReceiveReject, hrun,
      Bool.not_true, Bool.false_eq_true, if_false, hm, ne_eq, not_true_eq_false]
    rcases hcode with h | h
    · simpa only [h, if_true] using hfail
    · simpa only [h, reduceCtorEq, if_false, if_true] using hfail
  · have hstep : step (accept s lv par) par.bip61 (waiting v a) (.reject r) = waiting v a := by
      cases v <;> simp [step, hrej]
    rw [hstep]
    have hkept : VersionProtocol.step s lv par p (.reject r) = p := by
      simp only [rejectsVersion, Bool.and_eq_true, beq_iff_eq, Bool.or_eq_true, not_and] at hrej
      simp only [VersionProtocol.step, hrs, VersionProtocol.handleReceiveReject, hrun,
        Bool.not_true, Bool.false_eq_true, if_false]
      split_ifs with hb hm h₁ h₂ <;> simp_all
    rw [hkept]
    exact hkeep

/-- A step from a waiting handshake. -/
theorem refines_step_waiting {p : VersionProtocol} {v : Option VersionMessage} {a : Bool}
    (hr : Refines s par.bip61 p (waiting v a)) (e : VersionEvent) :
    Refines s par.bip61 (VersionProtocol.step s lv par p e)
      (step (accept s lv par) par.bip61 (waiting v a) e) := by
  cases e with
  | version m => exact refines_version_waiting s lv par hr m
  | verack => exact refines_verack_waiting s lv par hr
  | reject r => exact refines_reject_waiting s lv par hr r
  | timer =>
    obtain ⟨hva, hev, hj, hc, -⟩ := hr
    have hrun : p.events.running := by rw [hev]; rfl
    have harmed : p.events.armed := by rw [hev]; rfl
    have hstep : step (accept s lv par) par.bip61 (waiting v a) .timer = failed .channelTimeout := by
      cases v <;> rfl
    rw [hstep]
    simp only [VersionProtocol.step, harmed, if_true, VersionProtocol.handleTimer, hrun,
      Bool.not_true, Bool.false_eq_true, if_false]
    exact refines_setEvent_error s par (q := { p with events := ⟨true, false⟩ })
      hva rfl hj hc .channelTimeout (by simp)
  | stop =>
    obtain ⟨hva, hev, hj, hc, -⟩ := hr
    have hrun : p.events.running := by rw [hev]; rfl
    have hstep : step (accept s lv par) par.bip61 (waiting v a) .stop = failed .channelStopped := by
      cases v <;> rfl
    rw [hstep]
    exact refines_setEvent_error s par hva hrun hj hc .channelStopped (by simp)

/-- Each step keeps the refinement. -/
theorem refines_step {p : VersionProtocol} {h : Handshake} (hr : Refines s par.bip61 p h)
    (e : VersionEvent) :
    Refines s par.bip61 (VersionProtocol.step s lv par p e)
      (step (accept s lv par) par.bip61 h e) := by
  cases h with
  | waiting v a => exact refines_step_waiting s lv par hr e
  | succeeded m => exact refines_step_finished s lv par (by simp) hr e
  | failed ec => exact refines_step_finished s lv par (by simp) hr e

/-- **Simulation.** After any events the protocol refines the abstract handshake run on the
same events. -/
theorem refines_run (es : List VersionEvent) :
    Refines s par.bip61 (run (VersionProtocol.step s lv par) (VersionProtocol.start s par) es)
      (run (step (accept s lv par) par.bip61) (waiting none false) es) :=
  run_simulation (R := Refines s par.bip61) (fun _ _ e hr ↦ refines_step s lv par hr e) es
    (refines_start s par)

/-- A protocol that has called its handler with success has set the peer version. -/
theorem peer_of_success {es : List VersionEvent}
    (h : .success ∈ (run (VersionProtocol.step s lv par) (VersionProtocol.start s par) es).completions) :
    ∃ m, (run (VersionProtocol.step s lv par) (VersionProtocol.start s par) es).peer = some m := by
  have hR := refines_run s lv par es
  rw [completions_eq_of_refines hR, Option.mem_toList] at h
  obtain ⟨m, hm, -⟩ := eq_succeeded_of_result _ (sound_run (accept s lv par) par.bip61 es) h
  rw [hm] at hR
  exact ⟨m, hR.2.2.2.2⟩

end Handshake

/-- **The version handshake.** For every configuration and every order of events, the
session's handler is called at most once, and exactly once when the timer expires or the
channel stops. It receives success exactly when, before the first event that ends the
handshake, the peer's first version is acceptable and its verack arrives. On success the
channel's peer version is the first version the peer sent, and its negotiated version is that
version capped at `protocol_maximum`, which lies in the configured range. -/
theorem versionProtocol_handshake (s : Settings) (lv : Levels) (par : VersionParams)
    (es : List VersionEvent) :
    let p := run (VersionProtocol.step s lv par) (VersionProtocol.start s par) es
    p.completions.length ≤ 1 ∧
    ((.timer ∈ es ∨ .stop ∈ es) → p.completions.length = 1) ∧
    (p.completions = [.success] ↔
      (∃ m, firstVersion (untilFatal par.bip61 es) = some m ∧ configValid s lv ∧
        sufficientPeer s par m) ∧ .verack ∈ untilFatal par.bip61 es) ∧
    (p.completions = [.success] → ∃ m, firstVersion es = some m ∧ p.peer = some m ∧
      p.negotiated = min m.value s.protocolMaximum ∧
      s.protocolMinimum ≤ p.negotiated ∧ p.negotiated ≤ s.protocolMaximum) := by
  intro p
  -- Everything is read off the abstract run that the protocol refines.
  generalize hh : run (Handshake.step (Handshake.accept s lv par) par.bip61) (.waiting none false)
    es = h
  have hR : Handshake.Refines s par.bip61 p h := hh ▸ Handshake.refines_run s lv par es
  have hc : p.completions = h.result.toList := Handshake.completions_eq_of_refines hR
  have hsuccess : p.completions = [.success] ↔ h.result = some .success := by
    rw [hc]
    cases h.result <;> simp
  refine ⟨?_, ?_, ?_, ?_⟩
  · rw [hc]
    cases h.result <;> simp
  · intro hes
    have hsome := Handshake.run_result_isSome (Handshake.accept s lv par) par.bip61 es hes
      (.waiting none false)
    rw [hh] at hsome
    obtain ⟨ec, hec⟩ := Option.isSome_iff_exists.mp hsome
    rw [hc, hec]
    rfl
  · rw [hsuccess, ← hh, Handshake.run_succeeds_iff _ _ es none false (by simp)]
    simp [Handshake.SucceedsFrom, Handshake.accept]
  · intro hsucc
    obtain ⟨m, rfl, hacc⟩ := Handshake.eq_succeeded_of_result _
      (hh ▸ Handshake.sound_run (Handshake.accept s lv par) par.bip61 es) (hsuccess.mp hsucc)
    obtain ⟨-, -, -, hneg, hpeer⟩ := hR
    have hfirst : firstVersion es = some m := by
      rcases Handshake.run_eq_succeeded _ _ es none false m hh with h | ⟨-, h⟩
      · cases h
      · exact h
    obtain ⟨hcv, hsp⟩ : configValid s lv ∧ sufficientPeer s par m := by
      simpa [Handshake.accept] using hacc
    have hmin : s.protocolMinimum ≤ m.value := by
      simp only [sufficientPeer, decide_eq_true_eq] at hsp
      exact hsp.2.2
    have hrange : s.protocolMinimum ≤ s.protocolMaximum := by
      simp only [configValid, decide_eq_true_eq] at hcv
      exact hcv.2.2
    refine ⟨m, hfirst, hpeer, hneg, ?_, ?_⟩ <;> rw [hneg] <;> omega

/-- A protocol at level 70002 with the default settings, whose peer sends an acceptable version
and its verack before the timer expires, has called its handler exactly once, with success, and
has set the peer's version. -/
theorem versionProtocol_handshake_default :
    let s : Settings := ⟨31402, 70013, 176⟩
    let par : VersionParams := ⟨1, 1, true⟩
    let p := run (VersionProtocol.step s ⟨31402, 70013⟩ par) (VersionProtocol.start s par)
      [.version ⟨70015, 1, 7⟩, .verack, .timer]
    p.completions.length = 1 ∧ ∃ m, firstVersion [.version ⟨70015, 1, 7⟩, .verack, .timer] = some m ∧
      p.peer = some m ∧ p.negotiated = min m.value s.protocolMaximum ∧
      s.protocolMinimum ≤ p.negotiated ∧ p.negotiated ≤ s.protocolMaximum :=
  ⟨(versionProtocol_handshake ⟨31402, 70013, 176⟩ ⟨31402, 70013⟩ ⟨1, 1, true⟩ _).2.1 (by decide),
    (versionProtocol_handshake ⟨31402, 70013, 176⟩ ⟨31402, 70013⟩ ⟨1, 1, true⟩ _).2.2.2 (by decide)⟩

end Network
