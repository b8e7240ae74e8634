import BitprimNetwork.Async.Calls
import BitprimNetwork.Async.Run
import BitprimNetwork.Hosts

/-!
# The node's start, run and stop sequences

`p2p::start(handler)` refuses a node that is running with `operation_failed`. Otherwise it marks
the node running and starts a new manual session. When that session has started,
`handle_manual_started` loads the host pool from the hosts file, and `handle_hosts_loaded` starts
a new seed session; when seeding ends, `handle_started` calls the handler. Each of the three
handlers first answers `service_stopped` if the node has stopped meanwhile, then passes a failure
on. `p2p::run(handler)` connects every configured peer through the manual session, then starts
the inbound session and, once it has started, the outbound session; it checks for a stop nowhere.
`p2p::stop()` stops the host pool, which saves it to the hosts file, marks the node stopped and
drops the manual session; it returns whether the pool stopped cleanly.

## The model

`Node` is the node with its host pool. Every call of `start` and `run` is numbered, and the calls
not yet answered are in flight with the session they wait for (`Async.Calls`). The report of a
session on the call it was started for, a new call of `start` or `run`, and `p2p::stop` come in
any order. A session starts on a thread of its own and reports later, except where it is not
configured to run: then it calls its handler at once. A fresh manual session always starts:
`session::start` on a new session succeeds. What the seed, inbound and outbound sessions report
is left open here; their own models say what it can be.

## What holds

Every call is, at every point of every run, in flight at one stage or answered once
(`calls_answered_once`). A call is answered once the sessions it waits for have reported,
whatever else happens meanwhile (`answered_after_reports`). After `p2p::stop`, until the next
`p2p::start`, every start call still in flight is answered `service_stopped`
(`stopped_start_answers_service_stopped`). While the node runs and no start call waits for its
manual session, the host pool runs (`pool_running_of_running`). `p2p::run` passes the configured
peers to the manual session exactly when the node runs, since the node holds one exactly then
(`run_connects_peers`).
-/

namespace Network

open Async

/-- The settings the start, run and stop sequences read. -/
structure NodeSettings where
  /-- `host_pool_capacity`. -/
  hostPoolCapacity : ℕ
  /-- `inbound_port`. -/
  inboundPort : ℕ
  /-- `inbound_connections`. -/
  inboundConnections : ℕ
  /-- `outbound_connections`. -/
  outboundConnections : ℕ
  /-- `peers`, each endpoint as the authority it names. -/
  peers : List Authority

/-- A mainnet node with a pool of a thousand hosts: inbound port 8333 with no inbound
connections, eight outbound connections and no configured peers. -/
def mainnetNode : NodeSettings := ⟨1000, 8333, 0, 8, []⟩

/-- The session a call of `start` or `run` waits for. -/
inductive NodeStage where
  /-- `start` waits for its manual session to start. -/
  | manual
  /-- `start` waits for its seed session to end. -/
  | seed
  /-- `run` waits for its inbound session to start. -/
  | inbound
  /-- `run` waits for its outbound session to start. -/
  | outbound
  deriving DecidableEq, Repr

/-- The session a call waits for next, if it is not answered when this one reports. -/
def NodeStage.next : NodeStage → Option NodeStage
  | .manual => some .seed
  | .seed => none
  | .inbound => some .outbound
  | .outbound => none

/-- A call waits for at most two sessions in turn. -/
theorem NodeStage.next_next : ∀ {st st' : NodeStage}, st.next = some st' → st'.next = none := by
  rintro (_ | _ | _ | _) st' h <;> simp only [NodeStage.next, reduceCtorEq, Option.some.injEq] at h
  all_goals
    subst h
    rfl

/-- No session is followed by itself. -/
theorem NodeStage.next_ne_self : ∀ st : NodeStage, st.next ≠ some st := by
  rintro (_ | _ | _ | _) <;> simp [NodeStage.next]

/-- The session at stage `st` is configured to run. Otherwise its `start` calls the handler at
once, and no call waits for it. -/
def NodeStage.Configured (cfg : NodeSettings) : NodeStage → Prop
  | .manual => True
  | .seed => cfg.hostPoolCapacity ≠ 0
  | .inbound => cfg.inboundPort ≠ 0 ∧ cfg.inboundConnections ≠ 0
  | .outbound => cfg.outboundConnections ≠ 0

/-- What a session reports on the call it was started for. -/
inductive Report where
  /-- The manual session has started; the hosts file's lines are `file`, or `none` when its
  stream is bad. -/
  | manualStarted (file : Option (List Authority))
  /-- The seed session has ended with `ec`. -/
  | seeded (ec : Code)
  /-- The inbound session has started with `ec`. -/
  | inboundStarted (ec : Code)
  /-- The outbound session has started with `ec`. -/
  | outboundStarted (ec : Code)
  deriving DecidableEq

/-- The stage at which a report is expected. -/
def Report.stage : Report → NodeStage
  | .manualStarted _ => .manual
  | .seeded _ => .seed
  | .inboundStarted _ => .inbound
  | .outboundStarted _ => .outbound

/-- `p2p` with its host pool. -/
structure Node (c : ℕ) where
  /-- `stopped_`. -/
  stopped : Bool
  /-- `hosts_`. -/
  hosts : Hosts c
  /-- `manual_` holds a session. -/
  manual : Bool
  /-- The calls of `start` and `run`. -/
  calls : Calls NodeStage Code
  /-- The peers passed to the manual session's `connect`, in order. -/
  connects : List Authority
  /-- What each call of `stop` returned. -/
  stops : List Bool

/-- What happens to the node. -/
inductive NodeEvent where
  /-- `p2p::start(handler)`. -/
  | start
  /-- `p2p::run(handler)`. -/
  | run
  /-- `p2p::stop()`; the hosts file's output stream is bad if `fileBad`. -/
  | stop (fileBad : Bool)
  /-- The session that call `call` waits for reports. -/
  | report (call : ℕ) (r : Report)
  deriving DecidableEq

/-- The call an event reports on. -/
def NodeEvent.call? : NodeEvent → Option ℕ
  | .report call _ => some call
  | _ => none

theorem NodeEvent.eq_report_of_call {e : NodeEvent} {i : ℕ} (h : e.call? = some i) :
    ∃ r, e = .report i r := by
  cases e with
  | report j r =>
    cases h
    exact ⟨r, rfl⟩
  | _ => cases h

/-- A handler's decision on its call. -/
abbrev Outcome := Calls.Outcome NodeStage Code

namespace Node

variable {c : ℕ} (cfg : NodeSettings)

/-! ## The handlers -/

/-- `p2p::handle_started(ec, handler)`. -/
def handleStarted (stopped : Bool) (ec : Code) : Outcome :=
  if stopped then .answer .serviceStopped
  else if ec.isError then .answer ec
  -- This is the end of the start sequence.
  else .answer .success

/-- `session_seed::start(handler)` with `p2p::handle_started` as the handler: without an address
pool it calls the handler at once with success. -/
def startSeed (stopped : Bool) : Outcome :=
  if cfg.hostPoolCapacity = 0 then handleStarted stopped .success else .await .seed

/-- `p2p::handle_hosts_loaded(ec, handler)`. -/
def handleHostsLoaded (stopped : Bool) (ec : Code) : Outcome :=
  if stopped then .answer .serviceStopped
  else if ec.isError then .answer ec
  else startSeed cfg stopped

/-- `p2p::handle_running(ec, handler)`. -/
def handleRunning (ec : Code) : Outcome :=
  if ec.isError then .answer ec
  -- This is the end of the run sequence.
  else .answer .success

/-- `session_outbound::start(handler)` with `p2p::handle_running` as the handler: without
outbound connections it calls the handler at once with success. -/
def startOutbound : Outcome :=
  if cfg.outboundConnections = 0 then handleRunning .success else .await .outbound

/-- `p2p::handle_inbound_started(ec, handler)`. -/
def handleInboundStarted (ec : Code) : Outcome :=
  if ec.isError then .answer ec else startOutbound cfg

/-- `session_inbound::start(handler)` with `p2p::handle_inbound_started` as the handler: without
an inbound port or inbound connections it calls the handler at once with success. -/
def startInbound : Outcome :=
  if cfg.inboundPort = 0 ∨ cfg.inboundConnections = 0 then handleInboundStarted cfg .success
  else .await .inbound

/-! ## The node -/

/-- The node that `p2p(settings)` constructs: stopped, with a stopped pool. -/
def create : Node (min maxAddress cfg.hostPoolCapacity) :=
  ⟨true, Hosts.create cfg.hostPoolCapacity, false, Calls.empty, [], []⟩

/-- Call `call` is settled as its handler decided. -/
def settle (n : Node c) (call : ℕ) (o : Outcome) : Node c :=
  { n with calls := n.calls.settle call o }

/-- `p2p::handle_manual_started(ec, handler)`: `hosts::start()` loads the pool from the file. -/
def handleManualStarted (n : Node c) (call : ℕ) (ec : Code) (file : Option (List Authority)) :
    Node c :=
  if n.stopped then n.settle call (.answer .serviceStopped)
  else if ec.isError then n.settle call (.answer ec)
  else
    let r := n.hosts.start file
    { n with hosts := r.2 }.settle call (handleHostsLoaded cfg n.stopped r.1)

/-- `p2p::start(handler)`: a new manual session is started. -/
def start (n : Node c) : Node c :=
  if !n.stopped then { n with calls := n.calls.answerNew .operationFailed }
  else { n with stopped := false, manual := true, calls := n.calls.issue .manual }

/-- `p2p::connect(peer)`: through the manual session, unless the node has stopped. -/
def connect (n : Node c) (peer : Authority) : Node c :=
  if n.stopped then n
  else if n.manual then { n with connects := n.connects ++ [peer] } else n

/-- `p2p::run(handler)`: the configured peers are connected, then the inbound session starts. -/
def run (n : Node c) : Node c :=
  let n := cfg.peers.foldl connect n
  { n with calls := n.calls.issue .inbound }.settle n.calls.count (startInbound cfg)

/-- `p2p::stop()`: the pool is stopped and saved, and the node marked stopped. -/
def stop (n : Node c) (fileBad : Bool) : Node c :=
  let r := n.hosts.stop fileBad
  { n with hosts := r.2, stopped := true, manual := false, stops := n.stops ++ [r.1 == .success] }

/-- A session's report, handled by the handler its call was started with. -/
def handle (n : Node c) (call : ℕ) : Report → Node c
  -- A new manual session always starts.
  | .manualStarted file => n.handleManualStarted cfg call .success file
  | .seeded ec => n.settle call (handleStarted n.stopped ec)
  | .inboundStarted ec => n.settle call (handleInboundStarted cfg ec)
  | .outboundStarted ec => n.settle call (handleRunning ec)

/-- One event; a report comes only for a call that waits for it. -/
def step (n : Node c) : NodeEvent → Node c
  | .start => n.start
  | .run => n.run cfg
  | .stop fileBad => n.stop fileBad
  | .report call r => if (call, r.stage) ∈ n.calls.inFlight then n.handle cfg call r else n

/-! ## What each handler decides -/

variable {cfg}

/-- A handler at stage `st` answers its call, or leaves it waiting for the next session. -/
def Follows (st : NodeStage) (o : Outcome) : Prop := ∀ s, o = .await s → st.next = some s

/-- `handle_started` always calls its handler. -/
theorem handleStarted_ne_await (stopped : Bool) (ec : Code) (s : NodeStage) :
    handleStarted stopped ec ≠ .await s := by
  unfold handleStarted
  split_ifs <;> simp

/-- `handle_running` always calls its handler. -/
theorem handleRunning_ne_await (ec : Code) (s : NodeStage) : handleRunning ec ≠ .await s := by
  unfold handleRunning
  split_ifs <;> simp

/-- `handle_started` calls its handler with the session's code, or `service_stopped` on a
stopped node. -/
theorem handleStarted_eq (stopped : Bool) (ec : Code) :
    handleStarted stopped ec = .answer (if stopped then .serviceStopped else ec) := by
  unfold handleStarted
  split_ifs with hs he
  · rfl
  · rfl
  · -- Not an error: the code is success.
    rw [Bool.not_eq_true, Code.isError_eq_false_iff] at he
    rw [he]

/-- `handle_hosts_loaded` leaves its call waiting only for the seed session, which it starts only
with an address pool configured. -/
theorem handleHostsLoaded_eq_await {stopped : Bool} {ec : Code} {s : NodeStage}
    (h : handleHostsLoaded cfg stopped ec = .await s) : cfg.hostPoolCapacity ≠ 0 ∧ s = .seed := by
  unfold handleHostsLoaded startSeed at h
  split_ifs at h with _ _ hcap
  · exact absurd h (handleStarted_ne_await _ _ _)
  · cases h
    exact ⟨hcap, rfl⟩

theorem handleHostsLoaded_follows (stopped : Bool) (ec : Code) :
    Follows .manual (handleHostsLoaded cfg stopped ec) := by
  intro s hs
  rw [(handleHostsLoaded_eq_await hs).2]
  rfl

theorem handleInboundStarted_follows (ec : Code) :
    Follows .inbound (handleInboundStarted cfg ec) := by
  intro s hs
  unfold handleInboundStarted startOutbound at hs
  split_ifs at hs
  · exact absurd hs (handleRunning_ne_await _ _)
  · cases hs
    rfl

/-- A handler leaves its call waiting only for a session configured to run. -/
def Configures (cfg : NodeSettings) (o : Outcome) : Prop := ∀ st, o = .await st → st.Configured cfg

theorem configures_answer (ec : Code) : Configures cfg (.answer ec) := fun _ h ↦ by cases h

theorem handleStarted_configures (stopped : Bool) (ec : Code) :
    Configures cfg (handleStarted stopped ec) :=
  fun st h ↦ absurd h (handleStarted_ne_await stopped ec st)

/-- `handle_running` passes the outbound session's code on. -/
theorem handleRunning_eq (ec : Code) : handleRunning ec = .answer ec := by
  unfold handleRunning
  split_ifs with he
  · rfl
  · -- Not an error: the code is success.
    rw [Bool.not_eq_true, Code.isError_eq_false_iff] at he
    rw [he]

theorem handleHostsLoaded_configures (stopped : Bool) (ec : Code) :
    Configures cfg (handleHostsLoaded cfg stopped ec) := by
  intro st h
  obtain ⟨hcap, rfl⟩ := handleHostsLoaded_eq_await h
  exact hcap

theorem handleInboundStarted_configures (ec : Code) :
    Configures cfg (handleInboundStarted cfg ec) := by
  intro st h
  unfold handleInboundStarted startOutbound at h
  -- A failure answers the call at once.
  split_ifs at h with he hout
  · rw [handleRunning_eq] at h
    cases h
  · cases h
    exact hout

theorem startInbound_configures : Configures cfg (startInbound cfg) := by
  intro st h
  unfold startInbound at h
  split_ifs at h with hin
  · exact handleInboundStarted_configures .success st h
  · cases h
    push Not at hin
    exact hin

/-! ## What each call does to the node -/

section Fields

variable (n : Node c)

@[simp] theorem settle_calls (i : ℕ) (o : Outcome) : (n.settle i o).calls = n.calls.settle i o :=
  rfl

@[simp] theorem start_stopped : n.start.stopped = false := by
  unfold start
  split_ifs with h <;> simp_all

theorem start_calls :
    n.start.calls = if n.stopped then n.calls.issue .manual else n.calls.answerNew .operationFailed := by
  unfold start
  cases n.stopped <;> rfl

/-- `p2p::connect` on each peer in turn: every peer goes to the manual session if the node runs
and holds one, and none otherwise. -/
theorem foldl_connect (peers : List Authority) :
    peers.foldl connect n =
      { n with connects := n.connects ++ if n.stopped = false ∧ n.manual = true then peers else [] } := by
  induction peers generalizing n with
  | nil => simp
  | cons p peers ih =>
    rw [List.foldl_cons, ih]
    cases hs : n.stopped <;> cases hm : n.manual <;> simp [connect, hs, hm]

/-- `p2p::run` connects the peers, then starts the inbound session for a new call. -/
theorem run_eq :
    n.run cfg =
      { n with
        calls := (n.calls.issue .inbound).settle n.calls.count (startInbound cfg)
        connects := n.connects ++ if n.stopped = false ∧ n.manual = true then cfg.peers else [] } := by
  simp [run, foldl_connect, settle]

@[simp] theorem run_stopped : (n.run cfg).stopped = n.stopped := by rw [run_eq]

@[simp] theorem run_manual : (n.run cfg).manual = n.manual := by rw [run_eq]

@[simp] theorem run_hosts : (n.run cfg).hosts = n.hosts := by rw [run_eq]

theorem run_calls :
    (n.run cfg).calls = (n.calls.issue .inbound).settle n.calls.count (startInbound cfg) := by
  rw [run_eq]

@[simp] theorem stop_stopped (b : Bool) : (n.stop b).stopped = true := rfl

/-- A report changes only the calls and the pool. -/
theorem handle_frame (i : ℕ) (r : Report) :
    n.handle cfg i r =
      { n with calls := (n.handle cfg i r).calls, hosts := (n.handle cfg i r).hosts } := by
  cases r with
  | manualStarted file =>
    simp only [handle, handleManualStarted]
    split_ifs <;> rfl
  | _ => rfl

@[simp] theorem handle_stopped (i : ℕ) (r : Report) : (n.handle cfg i r).stopped = n.stopped := by
  rw [handle_frame]

@[simp] theorem handle_manual (i : ℕ) (r : Report) : (n.handle cfg i r).manual = n.manual := by
  rw [handle_frame]

end Fields

variable (n : Node c) (i : ℕ)

/-- A report settles its call: it is answered, or waits for the next session. -/
theorem handle_calls (r : Report) :
    ∃ o, (n.handle cfg i r).calls = n.calls.settle i o ∧ Follows r.stage o := by
  cases r with
  | manualStarted file =>
    simp only [handle, handleManualStarted]
    split_ifs
    · exact ⟨.answer _, rfl, fun s hs ↦ by cases hs⟩
    · exact ⟨.answer _, rfl, fun s hs ↦ by cases hs⟩
    · exact ⟨_, rfl, handleHostsLoaded_follows _ _⟩
  | seeded ec => exact ⟨_, rfl, fun s hs ↦ absurd hs (handleStarted_ne_await _ _ _)⟩
  | inboundStarted ec => exact ⟨_, rfl, handleInboundStarted_follows ec⟩
  | outboundStarted ec => exact ⟨_, rfl, fun s hs ↦ absurd hs (handleRunning_ne_await _ _)⟩

/-- On a stopped node, a report on a start call answers it `service_stopped`. -/
theorem handle_calls_of_stopped (hs : n.stopped = true) {r : Report}
    (hr : r.stage = .manual ∨ r.stage = .seed) :
    (n.handle cfg i r).calls = n.calls.settle i (.answer .serviceStopped) := by
  cases r with
  | manualStarted file => simp [handle, handleManualStarted, hs]
  | seeded ec => simp [handle, handleStarted, hs]
  | inboundStarted ec => simp [Report.stage] at hr
  | outboundStarted ec => simp [Report.stage] at hr

/-- On a running node, the manual session's report loads the pool. -/
theorem handle_manualStarted_hosts (hs : n.stopped = false) (file : Option (List Authority)) :
    (n.handle cfg i (.manualStarted file)).hosts = (n.hosts.start file).2 := by
  simp [handle, handleManualStarted, hs, settle]

/-- Only the manual session's report touches the pool. -/
theorem handle_hosts_of_ne {r : Report} (hr : r.stage ≠ .manual) :
    (n.handle cfg i r).hosts = n.hosts := by
  cases r with
  | manualStarted file => simp [Report.stage] at hr
  | seeded ec => rfl
  | inboundStarted ec => rfl
  | outboundStarted ec => rfl

/-- A report leaves its call waiting only for a session configured to run. -/
theorem handle_configures (r : Report) :
    ∃ o, (n.handle cfg i r).calls = n.calls.settle i o ∧ Configures cfg o := by
  cases r with
  | manualStarted file =>
    simp only [handle, handleManualStarted]
    split_ifs
    · exact ⟨_, rfl, configures_answer _⟩
    · exact ⟨_, rfl, configures_answer _⟩
    · exact ⟨_, rfl, handleHostsLoaded_configures _ _⟩
  | seeded ec => exact ⟨_, rfl, handleStarted_configures _ _⟩
  | inboundStarted ec => exact ⟨_, rfl, handleInboundStarted_configures ec⟩
  | outboundStarted ec => exact ⟨_, rfl, fun st h ↦ by rw [handleRunning_eq] at h; cases h⟩

/-! ## What an event does to the other calls -/

/-- `p2p::run` leaves the calls made before it as they were. -/
theorem keeps_run {i : ℕ} (hi : i < n.calls.count) : Calls.Keeps i n.calls (n.run cfg).calls := by
  rw [run_calls]
  exact (Calls.keeps_issue hi _).trans (Calls.keeps_settle hi.ne _)

/-- An event that does not report on call `i` leaves it as it was. -/
theorem keeps_step {i : ℕ} (hi : i < n.calls.count) {e : NodeEvent} (he : e.call? ≠ some i) :
    Calls.Keeps i n.calls (step cfg n e).calls := by
  cases e with
  | start =>
    rw [step, start_calls]
    split_ifs
    · exact Calls.keeps_issue hi _
    · exact Calls.keeps_answerNew hi _
  | run => exact keeps_run n hi
  | stop b => exact .refl _
  | report j r =>
    have hne : i ≠ j := by
      rintro rfl
      exact he rfl
    rw [step]
    split_ifs
    · obtain ⟨o, ho, -⟩ := handle_calls n j r
      rw [ho]
      exact Calls.keeps_settle hne o
    · exact .refl _

/-- Events only add calls. -/
theorem count_le_step (e : NodeEvent) : n.calls.count ≤ (step cfg n e).calls.count := by
  cases e with
  | start =>
    rw [step, start_calls]
    split_ifs <;> simp
  | run => simp [step, run_calls]
  | stop b => exact le_rfl
  | report j r =>
    rw [step]
    split_ifs
    · obtain ⟨o, ho, -⟩ := handle_calls n j r
      rw [ho, Calls.settle_count]
    · exact le_rfl

/-- Only `p2p::start` starts a stopped node. -/
theorem stopped_step (hs : n.stopped = true) {e : NodeEvent} (he : e ≠ .start) :
    (step cfg n e).stopped = true := by
  cases e with
  | start => exact absurd rfl he
  | run => rwa [step, run_stopped]
  | stop b => rfl
  | report j r =>
    rw [step]
    split_ifs
    · rwa [handle_stopped]
    · exact hs

/-- A call begins to wait for a session only if the session is configured to run. -/
theorem configured_of_enters_step {i : ℕ} {st : NodeStage} (hi : (i, st) ∉ n.calls.inFlight)
    {e : NodeEvent} (h : (i, st) ∈ (step cfg n e).calls.inFlight) : st.Configured cfg := by
  cases e with
  | start =>
    rw [step, start_calls] at h
    split_ifs at h
    · -- The new call waits for its manual session, which always starts.
      rw [Calls.issue_inFlight, List.mem_append, List.mem_singleton] at h
      rcases h with h | h
      · exact absurd h hi
      · cases h
        trivial
    · exact absurd h hi
  | run =>
    rw [step, run_calls, Calls.mem_inFlight_settle] at h
    rcases h with ⟨h, hne⟩ | ⟨-, h⟩
    · rw [Calls.issue_inFlight, List.mem_append, List.mem_singleton] at h
      rcases h with h | h
      · exact absurd h hi
      · exact absurd (Prod.mk.inj h).1 hne
    · exact startInbound_configures st h
  | stop b => exact absurd h hi
  | report j r =>
    rw [step] at h
    split_ifs at h
    · obtain ⟨o, ho, hconf⟩ := handle_configures n j r
      rw [ho, Calls.mem_inFlight_settle] at h
      rcases h with ⟨h, -⟩ | ⟨-, h⟩
      · exact absurd h hi
      · exact hconf st h
    · exact absurd h hi

/-- A report on a call that waits for it is handled. -/
theorem calls_step_report {i : ℕ} {r : Report} (hi : (i, r.stage) ∈ n.calls.inFlight) :
    (step cfg n (.report i r)).calls = (n.handle cfg i r).calls := by
  rw [step, if_pos hi]

/-- A session's report ends its call's wait for that session. -/
theorem not_mem_inFlight_report {i : ℕ} {r : Report} (hi : (i, r.stage) ∈ n.calls.inFlight) :
    (i, r.stage) ∉ (step cfg n (.report i r)).calls.inFlight := by
  rw [step, if_pos hi]
  obtain ⟨o, ho, hfollows⟩ := handle_calls n i r
  rw [ho, Calls.mem_inFlight_settle]
  rintro (⟨-, hne⟩ | ⟨-, h⟩)
  · exact hne rfl
  · exact NodeStage.next_ne_self _ (hfollows _ h)

/-- The seed session's report answers its call: with the session's code, or `service_stopped` on
a stopped node. -/
theorem calls_step_seeded {i : ℕ} (hi : (i, NodeStage.seed) ∈ n.calls.inFlight) (ec : Code) :
    (step cfg n (.report i (.seeded ec))).calls =
      n.calls.settle i (.answer (if n.stopped then .serviceStopped else ec)) := by
  have hg : (i, (Report.seeded ec).stage) ∈ n.calls.inFlight := hi
  rw [step, if_pos hg, handle, settle_calls, handleStarted_eq]

/-! ## The invariant -/

/-- What holds of the node in every run. -/
structure Inv (n : Node c) : Prop where
  /-- Every call waits at one stage or is answered once. -/
  partitioned : n.calls.Partitioned
  /-- The node holds a manual session exactly while it runs. -/
  manual : n.manual = !n.stopped
  /-- While the node runs and no start call waits for its manual session, the pool runs. -/
  pool : n.stopped = false → (∀ j, (j, NodeStage.manual) ∉ n.calls.inFlight) →
    n.hosts.stopped = false ∨ n.hosts.disabled = true

variable {n}

theorem inv_create : Inv (create cfg) :=
  ⟨Calls.partitioned_empty, rfl, fun hs ↦ by simp [create] at hs⟩

theorem Inv.start (h : Inv n) : Inv n.start := by
  cases hs : n.stopped
  · -- A running node refuses the call at once.
    have hn : n.start = { n with calls := n.calls.answerNew .operationFailed } := by
      simp [Node.start, hs]
    rw [hn]
    exact ⟨h.partitioned.answerNew _, h.manual, h.pool⟩
  · -- A stopped node starts a manual session, which the new call waits for.
    have hn : n.start = { n with stopped := false, manual := true, calls := n.calls.issue .manual } := by
      simp [Node.start, hs]
    rw [hn]
    exact ⟨h.partitioned.issue _, rfl, fun _ hnone ↦ absurd (by simp) (hnone n.calls.count)⟩

/-- The calls made before a new one keep their stages. -/
theorem Inv.mem_inFlight_run (h : Inv n) {j : ℕ} {st : NodeStage} (hj : (j, st) ∈ n.calls.inFlight) :
    (j, st) ∈ (n.run cfg).calls.inFlight :=
  ((keeps_run n (h.partitioned.lt_count (Calls.mem_flying_of_mem hj))).inFlight st).2 hj

theorem Inv.run (h : Inv n) : Inv (n.run cfg) := by
  have hcount : n.calls.count ∈ (n.calls.issue .inbound).flying := by simp [Calls.flying]
  refine ⟨?_, by simpa using h.manual, ?_⟩
  · rw [run_calls]
    exact (h.partitioned.issue _).settle hcount _
  · intro hs hnone
    rw [run_hosts]
    exact h.pool (by simpa using hs) fun j hj ↦ hnone j (h.mem_inFlight_run hj)

theorem Inv.stop (h : Inv n) (b : Bool) : Inv (n.stop b) :=
  ⟨h.partitioned, rfl, fun hs ↦ by simp at hs⟩

theorem Inv.handle (h : Inv n) {i : ℕ} {r : Report} (hi : (i, r.stage) ∈ n.calls.inFlight) :
    Inv (n.handle cfg i r) := by
  obtain ⟨o, ho, -⟩ := handle_calls n i r
  refine ⟨?_, by simpa using h.manual, ?_⟩
  · rw [ho]
    exact h.partitioned.settle (Calls.mem_flying_of_mem hi) o
  · intro hs hnone
    rw [handle_stopped] at hs
    by_cases hr : r.stage = .manual
    · -- The manual session's report loads the pool.
      cases r with
      | manualStarted file =>
        rw [handle_manualStarted_hosts n i hs]
        exact Hosts.start_running _ _
      | _ => simp [Report.stage] at hr
    · -- Any other report leaves the pool, and the calls waiting for a manual session, as they
      -- were: its own call waits for another session.
      rw [handle_hosts_of_ne n i hr]
      refine h.pool hs fun j hj ↦ hnone j ?_
      have hne : j ≠ i := by
        rintro rfl
        exact hr (h.partitioned.eq_of_mem hi hj)
      rw [ho]
      exact ((Calls.keeps_settle hne o).inFlight _).2 hj

theorem inv_step (h : Inv n) (e : NodeEvent) : Inv (step cfg n e) := by
  cases e with
  | start => exact h.start
  | run => exact h.run
  | stop b => exact h.stop b
  | report i r =>
    by_cases hi : (i, r.stage) ∈ n.calls.inFlight
    · rw [step, if_pos hi]
      exact h.handle hi
    · rw [step, if_neg hi]
      exact h

theorem inv_run (es : List NodeEvent) : Inv (Async.run (step cfg) (create cfg) es) :=
  run_invariant (step cfg) (I := Inv) (fun _ e h ↦ inv_step h e) es inv_create

/-! ## Calls over a run -/

/-- Every event only adds answers. -/
theorem answers_prefix_step (n : Node c) (e : NodeEvent) :
    n.calls.answers <+: (step cfg n e).calls.answers := by
  cases e with
  | start =>
    rw [step, start_calls]
    split_ifs
    · exact List.prefix_refl _
    · exact List.prefix_append _ _
  | run =>
    rw [step, run_calls]
    exact Calls.answers_prefix_settle (q := n.calls.issue .inbound) _
  | stop b => exact List.prefix_refl _
  | report i r =>
    rw [step]
    split_ifs
    · obtain ⟨o, ho, -⟩ := handle_calls n i r
      rw [ho]
      exact Calls.answers_prefix_settle _
    · exact List.prefix_refl _

/-- A call answered stays answered. -/
theorem answered_run {n : Node c} {i : ℕ} (hi : i ∈ n.calls.answered) (es : List NodeEvent) :
    i ∈ (Async.run (step cfg) n es).calls.answered :=
  Calls.mem_answered_of_prefix
    (prefix_run (step cfg) (fun m ↦ m.calls.answers) (@answers_prefix_step c cfg) n es) hi

/-- An event that does not report on call `i` leaves it waiting where it was. -/
theorem Inv.mem_inFlight_step (h : Inv n) {i : ℕ} {st : NodeStage}
    (hi : (i, st) ∈ n.calls.inFlight) {e : NodeEvent} (he : e.call? ≠ some i) :
    (i, st) ∈ (step cfg n e).calls.inFlight :=
  ((keeps_step n (h.partitioned.lt_count (Calls.mem_flying_of_mem hi)) he).inFlight st).2 hi

/-- An event leaves a call waiting at `st` unless it is the call's report from that session. -/
theorem Inv.mem_inFlight_step_of_stage (h : Inv n) {i : ℕ} {st : NodeStage}
    (hi : (i, st) ∈ n.calls.inFlight) {e : NodeEvent} (he : ∀ r, e = .report i r → r.stage ≠ st) :
    (i, st) ∈ (step cfg n e).calls.inFlight := by
  by_cases hcall : e.call? = some i
  · obtain ⟨r, rfl⟩ := NodeEvent.eq_report_of_call hcall
    -- A report from another session finds the call not waiting for it.
    have hg : (i, r.stage) ∉ n.calls.inFlight := fun hg ↦ he r rfl (h.partitioned.eq_of_mem hg hi)
    rw [step, if_neg hg]
    exact hi
  · exact h.mem_inFlight_step hi hcall

/-- Events that do not report on call `i` leave it waiting where it was. -/
theorem Inv.waits_run (h : Inv n) {i : ℕ} {st : NodeStage} (hi : (i, st) ∈ n.calls.inFlight)
    {es : List NodeEvent} (hes : ∀ e ∈ es, e.call? ≠ some i) :
    Inv (Async.run (step cfg) n es) ∧ (i, st) ∈ (Async.run (step cfg) n es).calls.inFlight :=
  run_invariant_of_mem (step cfg) (I := fun m ↦ Inv m ∧ (i, st) ∈ m.calls.inFlight) es
    (fun _ e he hm ↦ ⟨inv_step hm.1 e, hm.1.mem_inFlight_step hm.2 (hes e he)⟩) ⟨h, hi⟩

/-- A report on a waiting call answers it, or leaves it waiting for the next session. -/
theorem progress_step {i : ℕ} {r : Report} (hi : (i, r.stage) ∈ n.calls.inFlight) :
    i ∈ (step cfg n (.report i r)).calls.answered ∨
      ∃ st, r.stage.next = some st ∧ (i, st) ∈ (step cfg n (.report i r)).calls.inFlight := by
  rw [step, if_pos hi]
  obtain ⟨o, ho, hfollows⟩ := handle_calls n i r
  rw [ho]
  cases o with
  | answer ec => exact .inl (Calls.mem_answered_settle_answer _)
  | await st => exact .inr ⟨st, hfollows st rfl, Calls.mem_inFlight_settle_await⟩

/-- A call that waits for its last session keeps waiting for it until it is answered. -/
theorem Inv.mem_inFlight_or_answered_step (h : Inv n) {i : ℕ} {st : NodeStage}
    (hst : st.next = none) (hi : (i, st) ∈ n.calls.inFlight) (e : NodeEvent) :
    (i, st) ∈ (step cfg n e).calls.inFlight ∨ i ∈ (step cfg n e).calls.answered := by
  by_cases he : ∃ r, e = .report i r ∧ r.stage = st
  · -- The session's report answers the call: no session follows.
    obtain ⟨r, rfl, rfl⟩ := he
    rcases progress_step hi with hans | ⟨st', hnext, -⟩
    · exact .inr hans
    · rw [hst] at hnext
      cases hnext
  · push Not at he
    exact .inl (h.mem_inFlight_step_of_stage hi he)

/-! ## After a stop -/

/-- On a stopped node, call `i` waits for a session of the start sequence, or has been answered
`service_stopped`. -/
structure StoppedStart (i : ℕ) (n : Node c) : Prop where
  inv : Inv n
  stopped : n.stopped = true
  lt_count : i < n.calls.count
  waits : ∀ st, (i, st) ∈ n.calls.inFlight → st = .manual ∨ st = .seed
  answered : ∀ ec, (i, ec) ∈ n.calls.answers → ec = .serviceStopped

/-- Until the next `p2p::start`, the node stays stopped, and a report on call `i` answers it
`service_stopped`. -/
theorem StoppedStart.keep {i : ℕ} (h : StoppedStart i n) {e : NodeEvent} (he : e ≠ .start) :
    StoppedStart i (step cfg n e) := by
  have hinv : Inv (step cfg n e) := inv_step h.inv e
  have hstopped : (step cfg n e).stopped = true := stopped_step n h.stopped he
  have hcount : i < (step cfg n e).calls.count := h.lt_count.trans_le (count_le_step n e)
  by_cases hcall : e.call? = some i
  · -- The call's own report: a stopped node answers it `service_stopped`.
    obtain ⟨r, rfl⟩ := NodeEvent.eq_report_of_call hcall
    by_cases hg : (i, r.stage) ∈ n.calls.inFlight
    · have hcalls : (step cfg n (.report i r)).calls = n.calls.settle i (.answer .serviceStopped) := by
        rw [step, if_pos hg]
        exact handle_calls_of_stopped n i h.stopped (h.waits _ hg)
      refine ⟨hinv, hstopped, hcount, fun st hst ↦ ?_, fun ec hec ↦ ?_⟩
      · rw [hcalls, Calls.mem_inFlight_settle] at hst
        simp at hst
      · rw [hcalls, Calls.mem_answers_settle] at hec
        rcases hec with hec | ⟨-, hec⟩
        · exact h.answered ec hec
        · cases hec
          rfl
    · rw [step, if_neg hg]
      exact h
  · -- Any other event leaves the call as it was.
    have hkeep : Calls.Keeps i n.calls (step cfg n e).calls := keeps_step n h.lt_count hcall
    exact ⟨hinv, hstopped, hcount, fun st hst ↦ h.waits st ((hkeep.inFlight st).1 hst),
      fun ec hec ↦ h.answered ec ((hkeep.answers ec).1 hec)⟩

/-! ## The node in every run -/

variable (cfg)

/-- **No call lost, none answered twice.** In every run of the node, each call of `p2p::start`
and `p2p::run` made so far either waits for exactly one session or has been answered, exactly
once. -/
theorem calls_answered_once (es : List NodeEvent) :
    (Async.run (step cfg) (create cfg) es).calls.Partitioned :=
  (inv_run es).partitioned

/-- **Every call is answered once its sessions have reported.** From any point of any run, a call
of `p2p::start` or `p2p::run` that waits for a session is answered once that session has
reported and then, if the call moved on to the next session, that one too, whatever happens in
between: other calls, other reports, `p2p::stop`. -/
theorem answered_after_reports (es₀ es₁ es₂ : List NodeEvent) {i : ℕ} {r₁ r₂ : Report}
    (hi : (i, r₁.stage) ∈ (Async.run (step cfg) (create cfg) es₀).calls.inFlight)
    (hr₂ : ∀ st, r₁.stage.next = some st → r₂.stage = st)
    (h₁ : ∀ e ∈ es₁, e.call? ≠ some i) (h₂ : ∀ e ∈ es₂, e.call? ≠ some i) :
    i ∈ (Async.run (step cfg) (create cfg)
      (es₀ ++ es₁ ++ .report i r₁ :: es₂ ++ [.report i r₂])).calls.answered := by
  rw [run_concat, run_append, run_cons, run_append]
  -- The call waits for its session until it reports.
  obtain ⟨hinv, hwait⟩ := (inv_run es₀).waits_run hi h₁
  rcases progress_step hwait with hans | ⟨st, hnext, hwait'⟩
  · exact Calls.mem_answered_of_prefix (answers_prefix_step _ _) (answered_run hans es₂)
  · -- It moved on to the next session, which is its last.
    obtain ⟨-, hwait''⟩ := (inv_step hinv _).waits_run hwait' h₂
    rw [← hr₂ st hnext] at hwait''
    rcases progress_step hwait'' with hans | ⟨st', hnext', -⟩
    · exact hans
    · rw [hr₂ st hnext, NodeStage.next_next hnext] at hnext'
      cases hnext'

theorem answered_after_reports_start :
    (0, (Report.manualStarted (some [])).stage) ∈
        (Async.run (step mainnetNode) (create mainnetNode) [.start]).calls.inFlight ∧
      (∀ st, (Report.manualStarted (some [])).stage.next = some st →
        (Report.seeded .success).stage = st) ∧
      (∀ e ∈ ([] : List NodeEvent), e.call? ≠ some 0) ∧ (∀ e ∈ [NodeEvent.run], e.call? ≠ some 0) ∧
      0 ∈ (Async.run (step mainnetNode) (create mainnetNode)
        ([.start] ++ [] ++ .report 0 (.manualStarted (some [])) :: [.run] ++
          [.report 0 (.seeded .success)])).calls.answered := by
  have hi : (0, (Report.manualStarted (some [])).stage) ∈
      (Async.run (step mainnetNode) (create mainnetNode) [.start]).calls.inFlight := by decide
  have hr₂ : ∀ st, (Report.manualStarted (some [])).stage.next = some st →
      (Report.seeded .success).stage = st := by
    intro st hst
    simpa [Report.stage, NodeStage.next] using hst
  have h₁ : ∀ e ∈ ([] : List NodeEvent), e.call? ≠ some 0 := by simp
  have h₂ : ∀ e ∈ [NodeEvent.run], e.call? ≠ some 0 := by simp [NodeEvent.call?]
  exact ⟨hi, hr₂, h₁, h₂, answered_after_reports mainnetNode [.start] [] [.run] hi hr₂ h₁ h₂⟩

/-- **A stop ends the start sequences in flight.** In every run, after `p2p::stop` and until the
next `p2p::start`, every call of `p2p::start` still in flight at the stop is answered
`service_stopped`, whatever its sessions report. -/
theorem stopped_start_answers_service_stopped (es₀ es : List NodeEvent) (b : Bool)
    (hes : NodeEvent.start ∉ es) {i : ℕ} {st : NodeStage}
    (hi : (i, st) ∈ (Async.run (step cfg) (create cfg) (es₀ ++ [.stop b])).calls.inFlight)
    (hst : st = .manual ∨ st = .seed) {ec : Code}
    (hec : (i, ec) ∈ (Async.run (step cfg) (create cfg) (es₀ ++ .stop b :: es)).calls.answers) :
    ec = .serviceStopped := by
  have hinv : Inv (Async.run (step cfg) (create cfg) (es₀ ++ [.stop b])) := inv_run _
  have hstart : StoppedStart i (Async.run (step cfg) (create cfg) (es₀ ++ [.stop b])) := by
    refine ⟨hinv, by rw [run_concat, step, stop_stopped], hinv.partitioned.lt_count (Calls.mem_flying_of_mem hi),
      fun st' hst' ↦ hinv.partitioned.eq_of_mem hi hst' ▸ hst, fun ec' hec' ↦ ?_⟩
    exact absurd (List.mem_map_of_mem (f := Prod.fst) hec')
      (hinv.partitioned.not_answered (Calls.mem_flying_of_mem hi))
  have hrun := run_invariant_of_mem (step cfg) (I := StoppedStart i) es
    (fun _ e he h ↦ h.keep (fun hstart ↦ hes (hstart ▸ he))) hstart
  rw [← List.singleton_append, ← List.append_assoc, run_append] at hec
  exact hrun.answered ec hec

theorem stopped_start_answers_service_stopped_manual :
    NodeEvent.start ∉ [NodeEvent.report 0 (.manualStarted (some []))] ∧
      (0, NodeStage.manual) ∈
        (Async.run (step mainnetNode) (create mainnetNode) ([.start] ++ [.stop false])).calls.inFlight ∧
      (NodeStage.manual = .manual ∨ NodeStage.manual = .seed) ∧
      (0, Code.serviceStopped) ∈ (Async.run (step mainnetNode) (create mainnetNode)
        ([.start] ++ .stop false :: [.report 0 (.manualStarted (some []))])).calls.answers ∧
      Code.serviceStopped = .serviceStopped := by
  have hes : NodeEvent.start ∉ [NodeEvent.report 0 (.manualStarted (some []))] := by decide
  have hi : (0, NodeStage.manual) ∈ (Async.run (step mainnetNode) (create mainnetNode)
      ([.start] ++ [.stop false])).calls.inFlight := by decide
  have hec : (0, Code.serviceStopped) ∈ (Async.run (step mainnetNode) (create mainnetNode)
      ([.start] ++ .stop false :: [.report 0 (.manualStarted (some []))])).calls.answers := by
    decide
  exact ⟨hes, hi, .inl rfl, hec,
    stopped_start_answers_service_stopped mainnetNode [.start] _ false hes hi (.inl rfl) hec⟩

/-- **The pool runs while the node runs.** In every run, whenever the node is running and no call
of `p2p::start` waits for its manual session, the host pool is running, unless it is disabled. -/
theorem pool_running_of_running (es : List NodeEvent)
    (hs : (Async.run (step cfg) (create cfg) es).stopped = false)
    (hnone : ∀ i, (i, NodeStage.manual) ∉ (Async.run (step cfg) (create cfg) es).calls.inFlight) :
    (Async.run (step cfg) (create cfg) es).hosts.stopped = false ∨
      (Async.run (step cfg) (create cfg) es).hosts.disabled = true :=
  (inv_run es).pool hs hnone

theorem pool_running_of_running_loaded :
    let n := Async.run (step mainnetNode) (create mainnetNode)
      [.start, .report 0 (.manualStarted (some []))]
    n.stopped = false ∧ (∀ i, (i, NodeStage.manual) ∉ n.calls.inFlight) ∧
      (n.hosts.stopped = false ∨ n.hosts.disabled = true) := by
  intro n
  have hs : n.stopped = false := by decide
  -- The start call now waits for its seed session.
  have hflight : n.calls.inFlight = [(0, .seed)] := by decide
  have hnone : ∀ i, (i, NodeStage.manual) ∉ n.calls.inFlight := by simp [hflight]
  exact ⟨hs, hnone, pool_running_of_running mainnetNode _ hs hnone⟩

end Node

end Network
