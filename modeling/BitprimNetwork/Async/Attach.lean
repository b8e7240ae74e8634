import Mathlib.Logic.Function.Basic
import BitprimNetwork.Async.Run

/-!
# A component and the sessions it starts

A component often hands a call to a session it starts, with a handler that resumes the call when
the session calls it. The component then relies on the session: that it calls the handler at most
once, and only while the call waits for it. Nothing in the component checks either.

`Attach` describes such a pair. The component waits on keys (a call, or a call and the kind of
session it waits for); `Attach` gives the component's step, when it waits on a key, the session a
key starts when the component begins to wait on it, the session's step, the codes the session has
passed to its handler, and the component's event by which each code reaches it. `Attach.compose`
runs the two together. The component's own events go to the component; a session's events go to
the session, and each new call of its handler reaches the component as its report. After every
step of the component, each key it has begun to wait on starts its session: a report may move a
call on to the next session it waits for.

## What holds

`Attach.Lawful` is what the composition needs: invariants of the component and of the sessions
that their steps keep, a session that calls its handler at most once and starts without having
called it, and a component whose keys wait until their own session reports. Then `Attach.Inv`
holds over every run (`inv_run`): a key waits exactly while its session has not called its
handler. So every call of a session's handler finds its key waiting (`reports_accepted`), the
component of every run is a run of the component alone (`main_run`), what a report leaves in the
component stays there (`answered_of_handled`), and when every session can be brought to call its
handler, every wait can be brought to its end (`exists_report`).

Nothing here mentions a particular component.
-/

namespace Async

/-- A component with states `σ` and events `ε` that waits on keys `κ`, and the sessions it starts,
with states `τ`, events `φ` and handler codes `ρ`. -/
structure Attach (σ ε κ τ φ ρ : Type*) where
  /-- The component's step. -/
  step : σ → ε → σ
  /-- The component waits on key `k` for its session. -/
  waits : σ → κ → Bool
  /-- The session that key `k` starts in state `s`. -/
  start : σ → κ → τ
  /-- The session's step. -/
  sessionStep : τ → φ → τ
  /-- The codes the session has passed to its handler, in order. -/
  handled : τ → List ρ
  /-- The component's event for the handler's call with `r` on key `k`. -/
  report : κ → ρ → ε
  /-- The component's events that only its sessions make. -/
  fromSession : ε → Bool

/-- The component, and the session of each key that started one. -/
structure Attached (σ κ τ : Type*) where
  /-- The component. -/
  main : σ
  /-- The session whose handler resumes each key. -/
  sessions : κ → Option τ

/-- What happens to the component and its sessions. -/
inductive AttachEvent (ε κ φ : Type*) where
  /-- An event of the component; those only sessions make come from the sessions instead. -/
  | main (e : ε)
  /-- An event of the session of key `key`. -/
  | session (key : κ) (f : φ)

namespace Attach

variable {σ ε κ τ φ ρ : Type*} (A : Attach σ ε κ τ φ ρ)

/-- The sessions after the component went from `s` to `s'`: each key it now waits on has started
its session. -/
def spawn (sessions : κ → Option τ) (s s' : σ) (k : κ) : Option τ :=
  if A.waits s k = false ∧ A.waits s' k = true then some (A.start s' k) else sessions k

/-- The component takes an event, and each key it begins to wait on starts its session. -/
def advance (x : Attached σ κ τ) (e : ε) : Attached σ κ τ :=
  ⟨A.step x.main e, A.spawn x.sessions x.main (A.step x.main e)⟩

/-- The component takes, in order, the codes that key `k`'s session passed to its handler. -/
def deliver (x : Attached σ κ τ) (k : κ) (codes : List ρ) : Attached σ κ τ :=
  codes.foldl (fun x r ↦ A.advance x (A.report k r)) x

@[simp] theorem advance_main (x : Attached σ κ τ) (e : ε) : (A.advance x e).main = A.step x.main e :=
  rfl

theorem advance_sessions (x : Attached σ κ τ) (e : ε) (k : κ) :
    (A.advance x e).sessions k = A.spawn x.sessions x.main (A.step x.main e) k := rfl

@[simp] theorem deliver_nil (x : Attached σ κ τ) (k : κ) : A.deliver x k [] = x := rfl

theorem deliver_singleton (x : Attached σ κ τ) (k : κ) (r : ρ) :
    A.deliver x k [r] = A.advance x (A.report k r) := rfl

/-- Delivering the codes is a run of the component. -/
theorem main_deliver (x : Attached σ κ τ) (k : κ) (codes : List ρ) :
    (A.deliver x k codes).main = run A.step x.main (codes.map (A.report k)) := by
  induction codes generalizing x with
  | nil => rfl
  | cons r codes ih => exact ih (A.advance x (A.report k r))

section Compose

variable [DecidableEq κ]

/-- One event of the component with its sessions. -/
def compose (x : Attached σ κ τ) : AttachEvent ε κ φ → Attached σ κ τ
  | .main e => if A.fromSession e then x else A.advance x e
  | .session k f =>
    match x.sessions k with
    | some t =>
      -- The session moves on, and its handler's new calls reach the component.
      A.deliver ⟨x.main, Function.update x.sessions k (some (A.sessionStep t f))⟩ k
        ((A.handled (A.sessionStep t f)).drop (A.handled t).length)
    | none => x

/-! ## What each event does -/

variable (x : Attached σ κ τ)

theorem compose_main {e : ε} (he : A.fromSession e = false) :
    A.compose x (.main e) = A.advance x e := by
  simp [compose, he]

theorem compose_main_of_fromSession {e : ε} (he : A.fromSession e = true) :
    A.compose x (.main e) = x := by
  simp [compose, he]

theorem compose_session {k : κ} {t : τ} (ht : x.sessions k = some t) (f : φ) :
    A.compose x (.session k f) =
      A.deliver ⟨x.main, Function.update x.sessions k (some (A.sessionStep t f))⟩ k
        ((A.handled (A.sessionStep t f)).drop (A.handled t).length) := by
  simp [compose, ht]

theorem compose_session_of_none {k : κ} (ht : x.sessions k = none) (f : φ) :
    A.compose x (.session k f) = x := by
  simp [compose, ht]

end Compose

/-! ## What the composition needs -/

/-- What the composition needs of the component, with its invariant `I`, and of the sessions,
with theirs `J`. `Ans s k r` is what the component keeps of the report `r` on key `k`. -/
structure Lawful (I : σ → Prop) (J : τ → Prop) (Ans : σ → κ → ρ → Prop) : Prop where
  inv_step : ∀ s e, I s → I (A.step s e)
  inv_sessionStep : ∀ t f, J t → J (A.sessionStep t f)
  inv_start : ∀ s k, I s → J (A.start s k)
  /-- A session only adds calls of its handler. -/
  handled_prefix : ∀ t f, A.handled t <+: A.handled (A.sessionStep t f)
  /-- A session calls its handler at most once. -/
  handled_le_one : ∀ t, J t → (A.handled t).length ≤ 1
  /-- A session starts, as its key starts waiting, without having called its handler. -/
  start_handled : ∀ s e k, I s → A.waits s k = false → A.waits (A.step s e) k = true →
    A.handled (A.start (A.step s e) k) = []
  /-- A waiting key keeps waiting through every event that no session makes. -/
  waits_step : ∀ s e k, I s → A.waits s k = true → A.fromSession e = false →
    A.waits (A.step s e) k = true
  /-- A session's report on a waiting key ends its wait, -/
  waits_report_self : ∀ s k r, I s → A.waits s k = true →
    A.waits (A.step s (A.report k r)) k = false
  /-- and no other key's. -/
  waits_report : ∀ s k r k', I s → A.waits s k = true → k' ≠ k → A.waits s k' = true →
    A.waits (A.step s (A.report k r)) k' = true
  /-- A report on a waiting key leaves its mark. -/
  answered_report : ∀ s k r, I s → A.waits s k = true → Ans (A.step s (A.report k r)) k r
  /-- What a report left stays. -/
  answered_step : ∀ s e k r, I s → Ans s k r → Ans (A.step s e) k r

variable {A} {I : σ → Prop} {J : τ → Prop} {Ans : σ → κ → ρ → Prop}

/-- What one event of a session adds to its handler's calls: nothing, or its one call. -/
theorem Lawful.handled_step_cases (hA : A.Lawful I J Ans) {t : τ} (ht : J t) (f : φ) :
    A.handled (A.sessionStep t f) = A.handled t ∨
      A.handled t = [] ∧ ∃ r, A.handled (A.sessionStep t f) = [r] := by
  obtain ⟨u, hu⟩ := hA.handled_prefix t f
  have hlen := hA.handled_le_one _ (hA.inv_sessionStep t f ht)
  rw [← hu] at hlen ⊢
  cases u with
  | nil => exact .inl (List.append_nil _)
  | cons r u =>
    -- The handler's one call is the new one.
    have hlen' : (A.handled t).length + (u.length + 1) ≤ 1 := by simpa using hlen
    have h0 : A.handled t = [] := List.eq_nil_of_length_eq_zero (by omega)
    have hu0 : u = [] := List.eq_nil_of_length_eq_zero (by omega)
    exact .inr ⟨h0, r, by simp [h0, hu0]⟩

/-! ## The invariant -/

variable (A J Ans)

/-- What holds of key `k`: it waits exactly while its session has not called its handler, and its
session keeps the session invariant, each call of its handler having left its mark. -/
structure KeyInv (x : Attached σ κ τ) (k : κ) : Prop where
  waits : A.waits x.main k = true ↔ ∃ t, x.sessions k = some t ∧ A.handled t = []
  session : ∀ t, x.sessions k = some t → J t ∧ ∀ r ∈ A.handled t, Ans x.main k r

variable (I)

/-- What holds of the component and its sessions in every run. -/
structure Inv (x : Attached σ κ τ) : Prop where
  main : I x.main
  key : ∀ k, KeyInv A J Ans x k

variable {A I J Ans}

/-- A component with no waiting key, and no session. -/
theorem inv_init {s : σ} (hs : I s) (hw : ∀ k, A.waits s k = false) :
    Inv A I J Ans ⟨s, fun _ ↦ none⟩ where
  main := hs
  key k := ⟨by simp [hw k], fun _ h ↦ by cases h⟩

/-- A key's part of the invariant reads only the component and the key's own session. -/
theorem KeyInv.congr {x y : Attached σ κ τ} {k : κ} (hk : KeyInv A J Ans x k)
    (hmain : y.main = x.main) (hs : y.sessions k = x.sessions k) : KeyInv A J Ans y k := by
  refine ⟨?_, ?_⟩ <;> rw [hmain, hs]
  · exact hk.waits
  · exact hk.session

variable {x : Attached σ κ τ}

/-- A key that the component's event does not take out of its wait keeps its part of the
invariant: the session it starts, if it begins to wait, has not called its handler. -/
theorem KeyInv.advance (hA : A.Lawful I J Ans) {k : κ} (hk : KeyInv A J Ans x k) (hI : I x.main)
    {e : ε} (hkeep : A.waits x.main k = true → A.waits (A.step x.main e) k = true) :
    KeyInv A J Ans (A.advance x e) k := by
  have hI' : I (A.step x.main e) := hA.inv_step _ e hI
  by_cases hnew : A.waits x.main k = false ∧ A.waits (A.step x.main e) k = true
  · -- The key has just begun to wait, and its session has just started.
    have h0 : A.handled (A.start (A.step x.main e) k) = [] :=
      hA.start_handled _ e k hI hnew.1 hnew.2
    have hs : (A.advance x e).sessions k = some (A.start (A.step x.main e) k) := by
      rw [advance_sessions, spawn, if_pos hnew]
    refine ⟨?_, fun t ht ↦ ?_⟩
    · rw [advance_main, hs]
      exact ⟨fun _ ↦ ⟨_, rfl, h0⟩, fun _ ↦ hnew.2⟩
    · rw [hs, Option.some.injEq] at ht
      subst ht
      exact ⟨hA.inv_start _ k hI', by simp [h0]⟩
  · -- Otherwise the key waits after the event exactly if it waited before.
    have hs : (A.advance x e).sessions k = x.sessions k := by
      rw [advance_sessions, spawn, if_neg hnew]
    have hw : A.waits (A.step x.main e) k = true ↔ A.waits x.main k = true := by
      refine ⟨fun hw ↦ ?_, hkeep⟩
      cases hw₀ : A.waits x.main k
      · exact absurd ⟨hw₀, hw⟩ hnew
      · rfl
    refine ⟨?_, fun t ht ↦ ?_⟩
    · rw [advance_main, hs, hw]
      exact hk.waits
    · rw [hs] at ht
      obtain ⟨hJ, hans⟩ := hk.session t ht
      exact ⟨hJ, fun r hr ↦ hA.answered_step _ e k r hI (hans r hr)⟩

variable [DecidableEq κ]

/-- A session event that makes no new call of its handler leaves the component as it was. -/
theorem Inv.update_of_handled (h : Inv A I J Ans x) {k : κ} {t t' : τ}
    (ht : x.sessions k = some t) (ht' : J t') (hh : A.handled t' = A.handled t) :
    Inv A I J Ans ⟨x.main, Function.update x.sessions k (some t')⟩ := by
  refine ⟨h.main, fun k' ↦ ?_⟩
  by_cases hk : k' = k
  · subst hk
    obtain ⟨-, hans⟩ := (h.key k').session t ht
    refine ⟨?_, fun t₁ ht₁ ↦ ?_⟩
    · simp only [Function.update_self, Option.some.injEq, exists_eq_left', hh]
      rw [(h.key k').waits]
      simp [ht]
    · simp only [Function.update_self, Option.some.injEq] at ht₁
      subst ht₁
      exact ⟨ht', hh ▸ hans⟩
  · exact (h.key k').congr rfl (Function.update_of_ne hk _ _)

variable (hA : A.Lawful I J Ans)
include hA

/-- A component event keeps the invariant. -/
theorem Inv.main_step (h : Inv A I J Ans x) {e : ε} (he : A.fromSession e = false) :
    Inv A I J Ans (A.compose x (.main e)) := by
  rw [compose_main A x he]
  exact ⟨hA.inv_step _ e h.main,
    fun k ↦ (h.key k).advance hA h.main fun hw ↦ hA.waits_step _ e k h.main hw he⟩

/-- The handler's one call reaches the component, whose key waits for it: the key's wait ends,
every other key keeps its part, and each key the report makes wait starts its session. -/
theorem Inv.report (h : Inv A I J Ans x) {k : κ} {t t' : τ} (ht : x.sessions k = some t)
    (h0 : A.handled t = []) (ht' : J t') {r : ρ} (h1 : A.handled t' = [r]) :
    Inv A I J Ans (A.advance ⟨x.main, Function.update x.sessions k (some t')⟩ (A.report k r)) := by
  have hwait : A.waits x.main k = true := (h.key k).waits.2 ⟨t, ht, h0⟩
  refine ⟨hA.inv_step _ _ h.main, fun k' ↦ ?_⟩
  by_cases hk : k' = k
  · -- The reported key: its wait ends, and its session keeps the handler's one call.
    subst hk
    have hdone : A.waits (A.step x.main (A.report k' r)) k' = false :=
      hA.waits_report_self _ k' r h.main hwait
    have hs : (A.advance ⟨x.main, Function.update x.sessions k' (some t')⟩
        (A.report k' r)).sessions k' = some t' := by
      rw [advance_sessions, spawn, if_neg (by simp [hwait])]
      exact Function.update_self _ _ _
    refine ⟨?_, fun t₁ ht₁ ↦ ?_⟩
    · rw [advance_main, hs]
      simp [hdone, h1]
    · rw [hs, Option.some.injEq] at ht₁
      subst ht₁
      refine ⟨ht', fun r₀ hr₀ ↦ ?_⟩
      rw [h1, List.mem_singleton] at hr₀
      subst hr₀
      exact hA.answered_report _ k' r₀ h.main hwait
  · -- Any other key was left as it was, and keeps waiting if it waited.
    have hk' : KeyInv A J Ans ⟨x.main, Function.update x.sessions k (some t')⟩ k' :=
      (h.key k').congr rfl (Function.update_of_ne hk _ _)
    exact hk'.advance hA h.main fun hw ↦ hA.waits_report _ k r k' h.main hwait hk hw

theorem Inv.session_step (h : Inv A I J Ans x) (k : κ) (f : φ) :
    Inv A I J Ans (A.compose x (.session k f)) := by
  cases ht : x.sessions k with
  | none => rwa [compose_session_of_none A x ht]
  | some t =>
    rw [compose_session A x ht]
    have hJ : J t := ((h.key k).session t ht).1
    have ht' : J (A.sessionStep t f) := hA.inv_sessionStep t f hJ
    rcases hA.handled_step_cases hJ f with hsame | ⟨h0, r, h1⟩
    · rw [hsame, List.drop_length, deliver_nil]
      exact h.update_of_handled ht ht' hsame
    · rw [h1, h0, List.length_nil, List.drop_zero, deliver_singleton]
      exact h.report hA ht h0 ht' h1

theorem Inv.compose (h : Inv A I J Ans x) (e : AttachEvent ε κ φ) :
    Inv A I J Ans (A.compose x e) := by
  cases e with
  | main e =>
    cases he : A.fromSession e
    · exact h.main_step hA he
    · rwa [compose_main_of_fromSession A x he]
  | session k f => exact h.session_step hA k f

/-- **Every run.** The invariant holds after any interleaving of the component's and the
sessions' events. -/
theorem inv_run (hx : Inv A I J Ans x) (es : List (AttachEvent ε κ φ)) :
    Inv A I J Ans (run A.compose x es) :=
  run_invariant _ (I := Inv A I J Ans) (fun _ e h ↦ h.compose hA e) es hx

omit hA in
/-- **The component alone.** The component of every run is the component after some of its own
events: those of the run, and the sessions' reports. -/
theorem main_run (x : Attached σ κ τ) (es : List (AttachEvent ε κ φ)) :
    ∃ es', (run A.compose x es).main = run A.step x.main es' := by
  refine run_invariant _ (I := fun y : Attached σ κ τ ↦ ∃ es', y.main = run A.step x.main es') ?_
    es ⟨[], rfl⟩
  rintro y e ⟨es', hes'⟩
  cases e with
  | main e =>
    cases he : A.fromSession e
    · refine ⟨es' ++ [e], ?_⟩
      rw [compose_main A y he, advance_main, run_concat, ← hes']
    · rw [compose_main_of_fromSession A y he]
      exact ⟨es', hes'⟩
  | session k f =>
    cases ht : y.sessions k with
    | none =>
      rw [compose_session_of_none A y ht]
      exact ⟨es', hes'⟩
    | some t =>
      refine ⟨es' ++ ((A.handled (A.sessionStep t f)).drop (A.handled t).length).map
        (A.report k), ?_⟩
      rw [compose_session A y ht, main_deliver, run_append, ← hes']

/-- **No report is dropped.** In every run, each session has called its handler at most once, and
its key waits for it exactly until then: every call of a session's handler finds its key
waiting. -/
theorem reports_accepted (hx : Inv A I J Ans x) (es : List (AttachEvent ε κ φ)) {k : κ} {t : τ}
    (ht : (run A.compose x es).sessions k = some t) :
    (A.handled t).length ≤ 1 ∧ (A.waits (run A.compose x es).main k = true ↔ A.handled t = []) := by
  have h := (inv_run hA hx es).key k
  refine ⟨hA.handled_le_one t (h.session t ht).1, ?_⟩
  rw [h.waits]
  constructor
  · rintro ⟨t', ht', h0⟩
    rw [ht] at ht'
    cases ht'
    exact h0
  · intro h0
    exact ⟨t, ht, h0⟩

/-- **What a report leaves stays.** In every run, each code a session passed to its handler has
left its mark in the component. -/
theorem answered_of_handled (hx : Inv A I J Ans x) (es : List (AttachEvent ε κ φ)) {k : κ} {t : τ}
    (ht : (run A.compose x es).sessions k = some t) {r : ρ} (hr : r ∈ A.handled t) :
    Ans (run A.compose x es).main k r :=
  (((inv_run hA hx es).key k).session t ht).2 r hr

/-- The session of a waiting key, run until its handler's first call: the component takes that
call and no other event. -/
theorem exists_report_of_run (hx : Inv A I J Ans x) {k : κ} {t : τ} (ht : x.sessions k = some t)
    (h0 : A.handled t = []) {fs : List φ} (hfs : A.handled (run A.sessionStep t fs) ≠ []) :
    ∃ (fs' : List φ) (r : ρ), A.waits (run A.compose x (fs'.map (.session k))).main k = false ∧
      Ans (run A.compose x (fs'.map (.session k))).main k r := by
  -- The induction is on the session's events, with the component waiting until the first call.
  induction fs generalizing x t with
  | nil => exact absurd h0 hfs
  | cons f fs ih =>
    have hJ : J t := ((hx.key k).session t ht).1
    have ht' : J (A.sessionStep t f) := hA.inv_sessionStep t f hJ
    rcases hA.handled_step_cases hJ f with hsame | ⟨-, r, h1⟩
    · -- No call yet: only the session moved on.
      have hy : A.compose x (.session k f) =
          ⟨x.main, Function.update x.sessions k (some (A.sessionStep t f))⟩ := by
        rw [compose_session A x ht, hsame, List.drop_length, deliver_nil]
      have hy' : Inv A I J Ans (A.compose x (.session k f)) := by
        rw [hy]
        exact hx.update_of_handled ht ht' hsame
      have hyk : (A.compose x (.session k f)).sessions k = some (A.sessionStep t f) := by
        simp [hy]
      obtain ⟨fs', r, hw, hans⟩ := ih hy' hyk (hsame.trans h0) hfs
      exact ⟨f :: fs', r, hw, hans⟩
    · -- The handler's call: the component takes it.
      have hwait : A.waits x.main k = true := (hx.key k).waits.2 ⟨t, ht, h0⟩
      have hy : A.compose x (.session k f) =
          A.advance ⟨x.main, Function.update x.sessions k (some (A.sessionStep t f))⟩
            (A.report k r) := by
        rw [compose_session A x ht, h1, h0, List.length_nil, List.drop_zero, deliver_singleton]
      refine ⟨[f], r, ?_, ?_⟩ <;> rw [List.map_singleton, run_cons, run_nil, hy, advance_main]
      · exact hA.waits_report_self _ k r hx.main hwait
      · exact hA.answered_report _ k r hx.main hwait

/-- **Every wait can end.** If every session can be brought to call its handler, then from any
point of any run a waiting key's session can be: after some of its events the key no longer
waits, and its report has left its mark. -/
theorem exists_report (hlive : ∀ t, J t → ∃ fs, A.handled (run A.sessionStep t fs) ≠ [])
    (hx : Inv A I J Ans x) (es : List (AttachEvent ε κ φ)) {k : κ}
    (hk : A.waits (run A.compose x es).main k = true) :
    ∃ (fs : List φ) (r : ρ), A.waits (run A.compose x (es ++ fs.map (.session k))).main k = false ∧
      Ans (run A.compose x (es ++ fs.map (.session k))).main k r := by
  have h := inv_run hA hx es
  obtain ⟨t, ht, h0⟩ := (h.key k).waits.1 hk
  obtain ⟨fs, hfs⟩ := hlive t ((h.key k).session t ht).1
  simp only [run_append]
  exact exists_report_of_run hA h ht h0 hfs

end Attach

end Async
