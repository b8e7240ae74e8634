import BitprimNetwork.Async.Attach
import BitprimNetwork.Node
import BitprimNetwork.Sessions.Batch
import BitprimNetwork.Sessions.Inbound
import BitprimNetwork.Sessions.Outbound
import BitprimNetwork.Sessions.Seed

/-!
# The node with its sessions

The node model takes each session's report as an event, and handles it only when its call waits
for that session. `p2p` starts a seed session from `handle_hosts_loaded`, an inbound session from
`run`, and an outbound session from `handle_inbound_started`, each with the next step of the call
as its handler, and nothing in `p2p` checks how often that handler runs. A session that called it
twice would have the caller's handler called twice, and the node model would hide it by dropping
the second report. This module composes the node with the sessions it starts and shows that the
guard never drops a report, and that no call is left without an answer that its sessions can
give.

## The composition

`attach` is the node with its sessions as an `Async.Attach`, keyed by the call and the kind of
session it waits for. A call waits for a session while it is in flight at that session's stage.
It begins to wait only when the session is configured to run; the session then starts, on a
thread of its own: `session_seed::start` with the pool's size, `session_inbound::start` and
`session_outbound::start`. Each call of a session's handler reaches the node as the call's report
from that session, and those reports come from the sessions only. A session's stop is one of its
own events: `p2p::stop` relays it to the sessions on other threads, so it may come at any later
point. The manual session's report stays an event of the node, since it carries the hosts file.

## What holds

`lawful` checks what the composition needs, from the node's and the sessions' own lemmas. Then,
in every run:

* the node is a run of the node model (`node_run`), so what holds of the node holds here;
* every session has called its handler at most once, and its call waits for it exactly until
  then (`session_reports_accepted`): each report a session makes finds its call waiting;
* each code a session passed to its handler reached the call (`session_answers`): the seed
  session's answers a start call, or `service_stopped` does on a stopped node; the inbound
  session's failure answers a run call, and its success moves the call on to the outbound
  session, or answers it; the outbound session's answers the run call;
* from any point, every call in flight is answered after some events of its own sessions and,
  for a start call that waits for its manual session, that session's report
  (`exists_answer`).
-/

namespace Network

open Async

/-- The sessions, besides the manual one, whose handler resumes a call of `p2p::start` or
`p2p::run`. -/
inductive NodeSessionKind where
  /-- `session_seed`, started by `p2p::handle_hosts_loaded`. -/
  | seed
  /-- `session_inbound`, started by `p2p::run`. -/
  | inbound
  /-- `session_outbound`, started by `p2p::handle_inbound_started`. -/
  | outbound
  deriving DecidableEq

namespace NodeSessionKind

/-- The stage at which a call waits for the session. -/
def stage : NodeSessionKind → NodeStage
  | .seed => .seed
  | .inbound => .inbound
  | .outbound => .outbound

/-- The report of the session's handler: `p2p::handle_started`, `p2p::handle_inbound_started` or
`p2p::handle_running`. -/
def report : NodeSessionKind → Code → Report
  | .seed, ec => .seeded ec
  | .inbound, ec => .inboundStarted ec
  | .outbound, ec => .outboundStarted ec

@[simp] theorem stage_report (kind : NodeSessionKind) (ec : Code) :
    (kind.report ec).stage = kind.stage := by
  cases kind <;> rfl

theorem stage_ne_manual (kind : NodeSessionKind) : kind.stage ≠ .manual := by
  cases kind <;> simp [stage]

theorem stage_injective : Function.Injective stage := by
  rintro (_ | _ | _) (_ | _ | _) h <;> first | rfl | simp [stage] at h

end NodeSessionKind

/-- A session that `p2p` started. -/
inductive NodeSession where
  | seed (t : Seed)
  | inbound (t : Inbound)
  | outbound (t : OutboundStart)

/-- What happens to a session. -/
inductive NodeSessionEvent where
  | seed (e : SeedEvent)
  | inbound (e : InboundEvent)
  | outbound (e : OutboundStartEvent)

/-- The reports that only the node's sessions make: every report but the manual session's. -/
def NodeEvent.fromSession : NodeEvent → Bool
  | .report _ r => r.stage != .manual
  | _ => false

/-- What the node's sessions read beyond the node's own settings. -/
structure SessionSettings where
  /-- `seeds.size()`. -/
  seeds : ℕ
  /-- `connect_batch_size` and `blacklists`. -/
  batch : BatchSettings

/-- Six mainnet seeds, batches of five connections, and no blacklist. -/
def mainnetSessions : SessionSettings := ⟨6, ⟨5, []⟩⟩

namespace NodeSessions

variable {c : ℕ} (cfg : NodeSettings) (ss : SessionSettings) (net : P2p)

/-- What `session_seed` reads of the settings: the pool's capacity and `seeds.size()`. -/
def seedSettings : SeedSettings := ⟨cfg.hostPoolCapacity, ss.seeds⟩

/-- What `session_inbound` reads of the settings. -/
def inboundSettings : InboundSettings :=
  ⟨cfg.inboundPort, cfg.inboundConnections, cfg.outboundConnections, cfg.peers.length,
    ss.batch.blacklists⟩

/-- The session that `attach_seed_session`, `attach_inbound_session` or `attach_outbound_session`
creates, once its `start` has run: the seed session on the channel collections `net` with the
pool's size. -/
def startSession (n : Node c) : NodeSessionKind → NodeSession
  | .seed => .seed (Seed.start (seedSettings cfg ss) n.hosts.count net)
  | .inbound => .inbound (Inbound.start (inboundSettings cfg ss))
  | .outbound => .outbound (OutboundStart.start cfg.outboundConnections)

/-- One event of a session; an event of another kind of session does nothing. -/
def sessionStep : NodeSession → NodeSessionEvent → NodeSession
  | .seed t, .seed f => .seed (t.step (seedSettings cfg ss) f)
  | .inbound t, .inbound f => .inbound (t.step (inboundSettings cfg ss) f)
  | .outbound t, .outbound f => .outbound (t.step ss.batch.batchSize cfg.outboundConnections f)
  | t, _ => t

/-- The codes a session passed to its handler. -/
def handled : NodeSession → List Code
  | .seed t => t.handled
  | .inbound t => t.handled
  | .outbound t => t.handled

/-- Each session's own invariant. -/
def SessionInv : NodeSession → Prop
  | .seed t => Seed.Inv (seedSettings cfg ss) t
  | .inbound t => t.Inv
  | .outbound t => t.Inv

/-- The node and its sessions. -/
def attach : Attach (Node c) NodeEvent (ℕ × NodeSessionKind) NodeSession NodeSessionEvent Code where
  step := Node.step cfg
  waits n k := n.calls.inFlight.contains (k.1, k.2.stage)
  start n k := startSession cfg ss net n k.2
  sessionStep := sessionStep cfg ss
  handled := handled
  report k ec := .report k.1 (k.2.report ec)
  fromSession := NodeEvent.fromSession

/-- `p2p` with the session of each call and kind that started one. -/
abbrev Running (c : ℕ) := Attached (Node c) (ℕ × NodeSessionKind) NodeSession

/-- What happens to the node and its sessions. -/
abbrev RunningEvent := AttachEvent NodeEvent (ℕ × NodeSessionKind) NodeSessionEvent

/-- The node that `p2p(settings)` constructs, with no session. -/
def create : Running (min maxAddress cfg.hostPoolCapacity) := ⟨Node.create cfg, fun _ ↦ none⟩

/-- One event of the node with its sessions. -/
def step : Running c → RunningEvent → Running c := (attach cfg ss net).compose

/-- The call an event belongs to: a node event's, or the call whose session it is. -/
def RunningEvent.call? : RunningEvent → Option ℕ
  | .main e => e.call?
  | .session k _ => some k.1

/-- What a session's report leaves in the node. -/
def Answered (n : Node c) : ℕ × NodeSessionKind → Code → Prop
  | (i, .seed), ec => ∃ ec', (i, ec') ∈ n.calls.answers ∧ (ec' = ec ∨ ec' = .serviceStopped)
  | (i, .inbound), ec => (ec.isError = true → (i, ec) ∈ n.calls.answers) ∧
      (i ∈ n.calls.answered ∨ (i, NodeStage.outbound) ∈ n.calls.inFlight)
  | (i, .outbound), ec => (i, ec) ∈ n.calls.answers

/-! ## The sessions -/

section Sessions

variable {cfg ss}

theorem sessionStep_seed (t : Seed) (f : SeedEvent) :
    sessionStep cfg ss (.seed t) (.seed f) = .seed (t.step (seedSettings cfg ss) f) := rfl

/-- A seed session's events run the seed session. -/
theorem run_seed (t : Seed) (fs : List SeedEvent) :
    run (sessionStep cfg ss) (.seed t) (fs.map .seed) = .seed (run (Seed.step (seedSettings cfg ss)) t fs) := by
  induction fs generalizing t with
  | nil => rfl
  | cons f fs ih => exact ih (t.step (seedSettings cfg ss) f)

theorem inv_sessionStep {t : NodeSession} (ht : SessionInv cfg ss t) (f : NodeSessionEvent) :
    SessionInv cfg ss (sessionStep cfg ss t f) := by
  cases t <;> cases f
  case seed.seed t f => exact Seed.inv_step ht f
  case inbound.inbound t f => exact Inbound.inv_step ht f
  case outbound.outbound t f => exact OutboundStart.inv_step ht f
  all_goals exact ht

theorem handled_prefix (t : NodeSession) (f : NodeSessionEvent) :
    handled t <+: handled (sessionStep cfg ss t f) := by
  cases t <;> cases f
  case seed.seed t f => exact Seed.handled_prefix_step t f
  case inbound.inbound t f => exact Inbound.handled_prefix_step t f
  case outbound.outbound t f => exact OutboundStart.handled_prefix_step t f
  all_goals exact List.prefix_refl _

theorem handled_length_le_one {t : NodeSession} (ht : SessionInv cfg ss t) :
    (handled t).length ≤ 1 := by
  cases t with
  | seed t => exact Seed.handled_length_le_one ht
  | inbound t => exact Inbound.Inv.handled_length_le_one ht
  | outbound t => exact OutboundStart.handled_length_le_one ht

theorem inv_startSession (n : Node c) (kind : NodeSessionKind) :
    SessionInv cfg ss (startSession cfg ss net n kind) := by
  cases kind with
  | seed => exact Seed.inv_start _ _
  | inbound => exact Inbound.inv_start
  | outbound => exact OutboundStart.inv_start

/-- A session configured to run starts without having called its handler. -/
theorem handled_startSession (n : Node c) {kind : NodeSessionKind}
    (hconf : kind.stage.Configured cfg) : handled (startSession cfg ss net n kind) = [] := by
  cases kind with
  | seed =>
    have hcap : (seedSettings cfg ss).hostPoolCapacity ≠ 0 := hconf
    exact Seed.start_handled hcap _ _
  | inbound =>
    obtain ⟨hport, hconn⟩ := hconf
    simp [startSession, handled, Inbound.start, inboundSettings, hport, hconn]
  | outbound =>
    have hout : cfg.outboundConnections ≠ 0 := hconf
    simp [startSession, handled, OutboundStart.start, hout]

/-- Every session can be brought to call its handler. -/
theorem handled_ne_nil {t : NodeSession} (ht : SessionInv cfg ss t) :
    ∃ fs, handled (run (sessionStep cfg ss) t fs) ≠ [] := by
  cases t with
  | seed t =>
    -- Its seeds can all end.
    obtain ⟨fs, hset⟩ := Seed.exists_settled ht
    have hrun : Seed.Inv (seedSettings cfg ss) (run (Seed.step (seedSettings cfg ss)) t fs) :=
      run_invariant _ (I := Seed.Inv (seedSettings cfg ss)) (fun _ f h ↦ Seed.inv_step h f) fs ht
    refine ⟨fs.map .seed, fun h0 ↦ ?_⟩
    rw [run_seed] at h0
    have h0' : (run (Seed.step (seedSettings cfg ss)) t fs).handled = [] := h0
    have hone := Seed.handled_length_of_settled hrun hset
    rw [h0', List.length_nil] at hone
    cases hone
  | inbound t =>
    -- The posted `handle_started` calls it, if it has not run.
    cases hd : t.delegated
    · refine ⟨[], fun h0 ↦ ?_⟩
      have hone := ht.answered hd
      rw [run_nil, handled] at h0
      rw [h0, List.length_nil] at hone
      cases hone
    · exact ⟨[.inbound (.started .success)], Inbound.handled_started hd .success⟩
  | outbound t =>
    cases hd : t.delegated
    · refine ⟨[], ?_⟩
      have h1 : OutboundStart.Inv t := ht
      rw [OutboundStart.Inv, hd, if_neg Bool.false_ne_true] at h1
      simp [handled, h1]
    · refine ⟨[.outbound .started], ?_⟩
      simp [run_cons, run_nil, sessionStep, handled, OutboundStart.handled_step_started ht hd]

end Sessions

/-! ## What the composition needs -/

section Lawful

variable {cfg ss net}

theorem waits_iff {n : Node c} {k : ℕ × NodeSessionKind} :
    (attach cfg ss net).waits n k = true ↔ (k.1, k.2.stage) ∈ n.calls.inFlight := by
  simp [attach]

/-- A call begins to wait only for a session configured to run, which starts without having
called its handler. -/
theorem start_handled {n : Node c} {e : NodeEvent} {k : ℕ × NodeSessionKind}
    (hw : (attach cfg ss net).waits n k = false)
    (hw' : (attach cfg ss net).waits (Node.step cfg n e) k = true) :
    handled (startSession cfg ss net (Node.step cfg n e) k.2) = [] := by
  rw [Bool.eq_false_iff, ne_eq, waits_iff] at hw
  rw [waits_iff] at hw'
  exact handled_startSession net _ (Node.configured_of_enters_step n hw hw')

/-- A call keeps waiting for a session through every event but that session's report. -/
theorem waits_step {n : Node c} (h : n.Inv) {e : NodeEvent} {k : ℕ × NodeSessionKind}
    (hw : (attach cfg ss net).waits n k = true) (he : e.fromSession = false) :
    (attach cfg ss net).waits (Node.step cfg n e) k = true := by
  rw [waits_iff] at hw ⊢
  refine h.mem_inFlight_step_of_stage hw fun r hr ↦ ?_
  -- The only report that is not a session's is the manual session's.
  subst hr
  have hman : r.stage = .manual := by simpa [NodeEvent.fromSession] using he
  rw [hman]
  exact (NodeSessionKind.stage_ne_manual k.2).symm

/-- A session's report ends its call's wait for it, -/
theorem waits_report_self {n : Node c} {k : ℕ × NodeSessionKind}
    (hw : (attach cfg ss net).waits n k = true) (ec : Code) :
    (attach cfg ss net).waits (Node.step cfg n (.report k.1 (k.2.report ec))) k = false := by
  rw [waits_iff, ← NodeSessionKind.stage_report k.2 ec] at hw
  rw [Bool.eq_false_iff, ne_eq, waits_iff, ← NodeSessionKind.stage_report k.2 ec]
  exact Node.not_mem_inFlight_report n hw

/-- and no other wait: another call's is left as it was, and the call waits for one session at a
time. -/
theorem waits_report {n : Node c} (h : n.Inv) {k k' : ℕ × NodeSessionKind}
    (hw : (attach cfg ss net).waits n k = true) (ec : Code) (hk : k' ≠ k)
    (hw' : (attach cfg ss net).waits n k' = true) :
    (attach cfg ss net).waits (Node.step cfg n (.report k.1 (k.2.report ec))) k' = true := by
  rw [waits_iff] at hw hw' ⊢
  obtain ⟨i, kind⟩ := k
  obtain ⟨j, kind'⟩ := k'
  by_cases hji : j = i
  · subst hji
    have hkind : kind' = kind :=
      NodeSessionKind.stage_injective (h.partitioned.eq_of_mem hw' hw)
    exact absurd (by rw [hkind]) hk
  · exact h.mem_inFlight_step hw' (by simpa [NodeEvent.call?] using Ne.symm hji)

/-- What each report leaves in the node. -/
theorem answered_report {n : Node c} {k : ℕ × NodeSessionKind}
    (hw : (attach cfg ss net).waits n k = true) (ec : Code) :
    Answered (Node.step cfg n (.report k.1 (k.2.report ec))) k ec := by
  rw [waits_iff] at hw
  obtain ⟨i, kind⟩ := k
  dsimp only at hw
  cases kind with
  | seed =>
    -- `handle_started` passes the code on, or `service_stopped` on a stopped node.
    simp only [Answered, NodeSessionKind.report]
    refine ⟨if n.stopped then .serviceStopped else ec, ?_, ?_⟩
    · rw [Node.calls_step_seeded n hw ec]
      simp [Calls.settle]
    · split_ifs
      · exact .inr rfl
      · exact .inl rfl
  | inbound =>
    -- `handle_inbound_started` passes a failure on, or starts the outbound session.
    have hg : (i, (Report.inboundStarted ec).stage) ∈ n.calls.inFlight := hw
    simp only [Answered, NodeSessionKind.report]
    rw [Node.calls_step_report n hg]
    simp only [Node.handle, Node.settle_calls, Node.handleInboundStarted, Node.startOutbound,
      Node.handleRunning_eq]
    split_ifs with he hout
    · exact ⟨fun _ ↦ by simp [Calls.settle], .inl (Calls.mem_answered_settle_answer _)⟩
    · exact ⟨fun h ↦ absurd h he, .inl (Calls.mem_answered_settle_answer _)⟩
    · exact ⟨fun h ↦ absurd h he, .inr Calls.mem_inFlight_settle_await⟩
  | outbound =>
    -- `handle_running` passes the code on.
    have hg : (i, (Report.outboundStarted ec).stage) ∈ n.calls.inFlight := hw
    simp only [Answered, NodeSessionKind.report]
    rw [Node.calls_step_report n hg]
    simp [Node.handle, Node.handleRunning_eq, Calls.settle]

/-- What a report left stays: answers stay, and a call that waits for its outbound session keeps
waiting until it is answered. -/
theorem answered_step {n : Node c} (h : n.Inv) {k : ℕ × NodeSessionKind} {ec : Code}
    (ha : Answered n k ec) (e : NodeEvent) : Answered (Node.step cfg n e) k ec := by
  have hpre : n.calls.answers <+: (Node.step cfg n e).calls.answers := Node.answers_prefix_step n e
  obtain ⟨i, kind⟩ := k
  cases kind with
  | seed =>
    obtain ⟨ec', hans, hec'⟩ := ha
    exact ⟨ec', hpre.subset hans, hec'⟩
  | inbound =>
    obtain ⟨herr, hnext⟩ := ha
    refine ⟨fun he ↦ hpre.subset (herr he), ?_⟩
    rcases hnext with hans | hout
    · exact .inl (Calls.mem_answered_of_prefix hpre hans)
    · exact (h.mem_inFlight_or_answered_step rfl hout e).symm
  | outbound => exact hpre.subset ha

variable (cfg ss net)

theorem lawful :
    (attach (c := c) cfg ss net).Lawful Node.Inv (SessionInv cfg ss) Answered where
  inv_step _ e h := Node.inv_step h e
  inv_sessionStep _ f h := inv_sessionStep h f
  inv_start n k _ := inv_startSession net n k.2
  handled_prefix := handled_prefix
  handled_le_one _ h := handled_length_le_one h
  start_handled _ _ _ _ hw hw' := start_handled hw hw'
  waits_step _ _ _ h hw he := waits_step h hw he
  waits_report_self _ _ ec _ hw := waits_report_self hw ec
  waits_report _ _ ec _ h hw hk hw' := waits_report h hw ec hk hw'
  answered_report _ _ ec _ hw := answered_report hw ec
  answered_step _ e _ _ h ha := answered_step h ha e

end Lawful

theorem inv_create :
    Attach.Inv (attach cfg ss net) Node.Inv (SessionInv cfg ss) Answered (create cfg) :=
  Attach.inv_init Node.inv_create fun k ↦ by simp [attach, Node.create, Calls.empty]

/-! ## The node with its sessions in every run -/

/-- **The node is the node model.** The node of every run of the composition is the node model
after some events: each event of the composition is one of the node's, or a session's report. -/
theorem node_run (es : List RunningEvent) :
    ∃ es', (run (step cfg ss net) (create cfg) es).main = run (Node.step cfg) (Node.create cfg) es' :=
  Attach.main_run (create cfg) es

/-- **No session report is dropped.** In every run, each seed, inbound and outbound session has
called its handler at most once, and its call waits for it exactly until then. So when a session
calls `p2p::handle_started`, `p2p::handle_inbound_started` or `p2p::handle_running`, the node
waits for that report: the node model's guard on reports never discards one. -/
theorem session_reports_accepted (es : List RunningEvent) {i : ℕ} {kind : NodeSessionKind}
    {t : NodeSession} (ht : (run (step cfg ss net) (create cfg) es).sessions (i, kind) = some t) :
    (handled t).length ≤ 1 ∧
      ((i, kind.stage) ∈ (run (step cfg ss net) (create cfg) es).main.calls.inFlight ↔
        handled t = []) := by
  obtain ⟨hle, hwait⟩ := Attach.reports_accepted (lawful cfg ss net) (inv_create cfg ss net) es ht
  rw [waits_iff] at hwait
  exact ⟨hle, hwait⟩

/-- A run call on the default settings, with no inbound connection configured, waits for its
outbound session, which has started without calling its handler. -/
theorem session_reports_accepted_run :
    (run (step mainnetNode mainnetSessions ⟨⟨false, []⟩, ⟨false, []⟩⟩) (create mainnetNode)
        [.main .run]).sessions (0, .outbound) = some (.outbound (OutboundStart.start 8)) ∧
      (handled (.outbound (OutboundStart.start 8))).length ≤ 1 ∧
      ((0, NodeSessionKind.outbound.stage) ∈ (run (step mainnetNode mainnetSessions
          ⟨⟨false, []⟩, ⟨false, []⟩⟩) (create mainnetNode) [.main .run]).main.calls.inFlight ↔
        handled (.outbound (OutboundStart.start 8)) = []) := by
  have ht : (run (step mainnetNode mainnetSessions ⟨⟨false, []⟩, ⟨false, []⟩⟩) (create mainnetNode)
      [.main .run]).sessions (0, .outbound) = some (.outbound (OutboundStart.start 8)) := rfl
  exact ⟨ht, session_reports_accepted mainnetNode mainnetSessions _ _ ht⟩

/-- **What each session's code does.** In every run, each code a session passed to its handler
reached its call as `Answered` says. -/
theorem session_answers (es : List RunningEvent) {k : ℕ × NodeSessionKind} {t : NodeSession}
    (ht : (run (step cfg ss net) (create cfg) es).sessions k = some t) {ec : Code}
    (hec : ec ∈ handled t) : Answered (run (step cfg ss net) (create cfg) es).main k ec :=
  Attach.answered_of_handled (lawful cfg ss net) (inv_create cfg ss net) es ht hec

/-! ## Every call can end -/

/-- From any point, a call that waits for a session is, after some events of that session, no
longer waiting for it, and the session's code has reached it. -/
theorem exists_session_report (es : List RunningEvent) {k : ℕ × NodeSessionKind}
    (hk : (k.1, k.2.stage) ∈ (run (step cfg ss net) (create cfg) es).main.calls.inFlight) :
    ∃ (fs : List NodeSessionEvent) (ec : Code),
      Answered (run (step cfg ss net) (create cfg) (es ++ fs.map (.session k))).main k ec := by
  obtain ⟨fs, ec, -, hans⟩ := Attach.exists_report (lawful cfg ss net)
    (fun _ ht ↦ handled_ne_nil ht) (inv_create cfg ss net) es (waits_iff.2 hk)
  exact ⟨fs, ec, hans⟩

/-- The events of one session all belong to its call. -/
theorem call_session {k : ℕ × NodeSessionKind} {fs : List NodeSessionEvent} :
    ∀ e ∈ fs.map (AttachEvent.session k), RunningEvent.call? e = some k.1 := by
  simp [RunningEvent.call?]

/-- A run call that waits for its outbound session is answered after some of its events. -/
theorem exists_answer_outbound (es : List RunningEvent) {i : ℕ}
    (hi : (i, NodeStage.outbound) ∈ (run (step cfg ss net) (create cfg) es).main.calls.inFlight) :
    ∃ es', (∀ e ∈ es', RunningEvent.call? e = some i) ∧
      i ∈ (run (step cfg ss net) (create cfg) (es ++ es')).main.calls.answered := by
  obtain ⟨fs, ec, hans⟩ := exists_session_report cfg ss net es (k := (i, .outbound)) hi
  exact ⟨_, call_session, List.mem_map_of_mem (f := Prod.fst) hans⟩

/-- A run call that waits for its inbound session is answered after some events of its inbound
and outbound sessions. -/
theorem exists_answer_inbound (es : List RunningEvent) {i : ℕ}
    (hi : (i, NodeStage.inbound) ∈ (run (step cfg ss net) (create cfg) es).main.calls.inFlight) :
    ∃ es', (∀ e ∈ es', RunningEvent.call? e = some i) ∧
      i ∈ (run (step cfg ss net) (create cfg) (es ++ es')).main.calls.answered := by
  obtain ⟨fs, ec, -, hans | hout⟩ := exists_session_report cfg ss net es (k := (i, .inbound)) hi
  · exact ⟨_, call_session, hans⟩
  · -- The inbound session's success moved the call on to its outbound session.
    obtain ⟨es', hcall, hans⟩ := exists_answer_outbound cfg ss net _ hout
    refine ⟨_ ++ es', fun e he ↦ ?_, by rwa [← List.append_assoc]⟩
    rcases List.mem_append.1 he with he | he
    · exact call_session e he
    · exact hcall e he

/-- A start call that waits for its seed session is answered after some of its events. -/
theorem exists_answer_seed (es : List RunningEvent) {i : ℕ}
    (hi : (i, NodeStage.seed) ∈ (run (step cfg ss net) (create cfg) es).main.calls.inFlight) :
    ∃ es', (∀ e ∈ es', RunningEvent.call? e = some i) ∧
      i ∈ (run (step cfg ss net) (create cfg) (es ++ es')).main.calls.answered := by
  obtain ⟨fs, ec, ec', hans, -⟩ := exists_session_report cfg ss net es (k := (i, .seed)) hi
  exact ⟨_, call_session, List.mem_map_of_mem (f := Prod.fst) hans⟩

/-- **Every call can end.** From any point of any run, every call of `p2p::start` or `p2p::run`
in flight is answered after some events of its own: its manual session's report, and events of
its seed, inbound and outbound sessions. Whatever else has happened, the node leaves no call
without an answer that its sessions can give. -/
theorem exists_answer (es : List RunningEvent) {i : ℕ}
    (hi : i ∈ (run (step cfg ss net) (create cfg) es).main.calls.flying) :
    ∃ es', (∀ e ∈ es', RunningEvent.call? e = some i) ∧
      i ∈ (run (step cfg ss net) (create cfg) (es ++ es')).main.calls.answered := by
  obtain ⟨⟨j, st⟩, hst, rfl⟩ := List.mem_map.1 hi
  dsimp only
  cases st with
  | manual =>
    -- The manual session's report answers the call, or moves it on to its seed session.
    have hinv : (run (step cfg ss net) (create cfg) es).main.Inv :=
      (Attach.inv_run (lawful cfg ss net) (inv_create cfg ss net) es).main
    have hstep : run (step cfg ss net) (create cfg) (es ++ [.main (.report j (.manualStarted none))]) =
        (attach cfg ss net).advance (run (step cfg ss net) (create cfg) es)
          (.report j (.manualStarted none)) := by
      rw [run_concat]
      exact Attach.compose_main _ _ rfl
    have hg : (j, (Report.manualStarted none).stage) ∈
        (run (step cfg ss net) (create cfg) es).main.calls.inFlight := hst
    rcases @Node.progress_step _ cfg _ _ _ hg with hans | ⟨st', hnext, hseed⟩
    · refine ⟨[.main (.report j (.manualStarted none))], by simp [RunningEvent.call?, NodeEvent.call?], ?_⟩
      rw [hstep, Attach.advance_main]
      exact hans
    · cases hnext
      have hseed' : (j, NodeStage.seed) ∈ (run (step cfg ss net) (create cfg)
          (es ++ [.main (.report j (.manualStarted none))])).main.calls.inFlight := by
        rw [hstep, Attach.advance_main]
        exact hseed
      obtain ⟨es', hcall, hans⟩ := exists_answer_seed cfg ss net _ hseed'
      refine ⟨_ :: es', fun e he ↦ ?_, by rwa [List.append_assoc, List.singleton_append] at hans⟩
      rcases List.mem_cons.1 he with rfl | he
      · simp [RunningEvent.call?, NodeEvent.call?]
      · exact hcall e he
  | seed => exact exists_answer_seed cfg ss net es hst
  | inbound => exact exists_answer_inbound cfg ss net es hst
  | outbound => exact exists_answer_outbound cfg ss net es hst

/-- The start call of a first start waits for its manual session; its sessions can answer it. -/
theorem exists_answer_started :
    0 ∈ (run (step mainnetNode mainnetSessions ⟨⟨false, []⟩, ⟨false, []⟩⟩) (create mainnetNode)
        [.main .start]).main.calls.flying ∧
      ∃ es', (∀ e ∈ es', RunningEvent.call? e = some 0) ∧
        0 ∈ (run (step mainnetNode mainnetSessions ⟨⟨false, []⟩, ⟨false, []⟩⟩) (create mainnetNode)
          ([.main .start] ++ es')).main.calls.answered := by
  have hi : 0 ∈ (run (step mainnetNode mainnetSessions ⟨⟨false, []⟩, ⟨false, []⟩⟩)
      (create mainnetNode) [.main .start]).main.calls.flying := by
    decide
  exact ⟨hi, exists_answer mainnetNode mainnetSessions _ _ hi⟩

end NodeSessions

end Network
