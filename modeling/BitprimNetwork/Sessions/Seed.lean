import Mathlib.Data.Finset.Card
import BitprimNetwork.Sessions.Registration

/-!
# Seeding the address pool

`session_seed::start(handler)` fills an empty address pool from the configured seeds. With no
pool configured it reports success at once. Otherwise `session::start` posts `handle_started`,
which reports success when the pool already holds addresses, `operation_failed` when there are no
seeds to ask, and else starts one `start_seed` per seed, all reporting to one join handler:
`synchronize(complete, seeds.size(), on_count)`, which calls `handle_complete` on its last call.
`handle_complete` reports success when the pool has grown by at least one address, and
`peer_throttling` otherwise.

Each seed connects, is checked against the blacklist, is registered as a channel and runs
`protocol_seed_31402`; whichever of these fails, or the seed protocol's own end, calls the join
handler. The seed protocol's end is taken as one event: its handler is behind
`synchronize(complete, 3, on_error)`, which calls it once.

## What holds

`Inv` is kept by every event. A seed has called the join handler exactly when it has finished,
and at most once; so `handle_complete` runs once, when the last seed finishes, and the start
handler is called at most once, and exactly once when every seed has finished
(`handled_length_of_settled`). Every seed can be brought to its end (`exists_settled`, by
induction on the seeds still to call the join handler), and the step that calls the handler
leaves a state where its code is success exactly when the pool was not empty, or has grown by
then (`exists_reporting_step`). With no pool configured the handler reports success although no
address was added and no seed was asked (`run_without_pool`).
-/

namespace Network

open Async

/-- The settings `session_seed` reads. -/
structure SeedSettings where
  /-- `host_pool_capacity`. -/
  hostPoolCapacity : ℕ
  /-- `seeds.size()`. -/
  seeds : ℕ

/-- Where one seed is. -/
inductive SeedStage where
  /-- `connector->connect` is in flight. -/
  | connecting
  /-- The channel `c` is registered, and its start sequence is `r`. -/
  | registered (c : Channel) (r : Registration)
  /-- `protocol_seed_31402` runs on the channel with the join handler. -/
  | seeding
  /-- The seed has called the join handler. -/
  | finished
  deriving DecidableEq

/-- One call of `session_seed::start`. -/
structure Seed where
  /-- The session's `stopped_`. -/
  stopped : Bool
  /-- The channel collections of `p2p`. -/
  network : P2p
  /-- `address_count()`. -/
  addresses : ℕ
  /-- `handle_started` has been posted and has not run. -/
  delegated : Bool
  /-- The `start_size` that `handle_started` read. -/
  startSize : ℕ
  /-- The seeds, by their position in the settings, once `start_seeding` has run. -/
  seeds : List SeedStage
  /-- The seeds that called the join handler, in order. -/
  joined : List ℕ
  /-- The codes the start handler received. -/
  handled : List Code

/-- What happens to the seeding. -/
inductive SeedEvent where
  /-- The posted `handle_started` runs. -/
  | started
  /-- Seed `k`'s connector calls back with `ec`, and on success with the channel `c`, whose
  address is `blocked` or not. -/
  | connected (k : ℕ) (ec : Code) (c : Channel) (blocked : Bool)
  /-- Seed `k`'s registered channel starts, ends its handshake or stops. -/
  | channel (k : ℕ) (e : RegistrationEvent)
  /-- Seed `k`'s `protocol_seed_31402` ends with `ec`. -/
  | seeded (k : ℕ) (ec : Code)
  /-- The address pool now holds `n` addresses. -/
  | addresses (n : ℕ)
  /-- The network stops the session. -/
  | stop

namespace Seed

variable (cfg : SeedSettings)

/-- Seed `k` moves to `st`. -/
def setStage (s : Seed) (k : ℕ) (st : SeedStage) : Seed := { s with seeds := s.seeds.set k st }

/-- `session_seed::handle_complete(start_size, handler)`: success only if the pool has grown. -/
def handleComplete (s : Seed) : Seed :=
  { s with
    handled := s.handled ++ [if s.startSize + 1 ≤ s.addresses then .success else .peerThrottling] }

/-- The join handler of `start_seeding`, called by seed `k`: `handle_complete` runs on its last
call. -/
def join (s : Seed) (k : ℕ) : Seed :=
  if (s.joined ++ [k]).length = cfg.seeds then { s with joined := s.joined ++ [k] }.handleComplete
  else { s with joined := s.joined ++ [k] }

/-- Seed `k` is done, and calls the join handler; its code is not passed on. -/
def finish (s : Seed) (k : ℕ) : Seed := (s.setStage k .finished).join cfg k

/-- `session_seed::start_seed(seed, handler)`. -/
def startSeed (s : Seed) (k : ℕ) : Seed := if s.stopped then s.finish cfg k else s

/-- `session_seed::start_seeding(start_size, handler)`: one `start_seed` for each seed, in
order. -/
def startSeeding (s : Seed) : Seed :=
  (List.range cfg.seeds).foldl (fun t k ↦ t.startSeed cfg k)
    { s with seeds := List.replicate cfg.seeds .connecting }

/-- `session_seed::handle_started(ec, handler)`, after `session::start` succeeded. -/
def handleStarted (s : Seed) : Seed :=
  let s := { s with delegated := false, startSize := s.addresses }
  if s.startSize ≠ 0 then { s with handled := s.handled ++ [.success] }
  else if cfg.seeds = 0 then { s with handled := s.handled ++ [.operationFailed] }
  else s.startSeeding cfg

/-- `session_seed::handle_channel_start(ec, channel, handler)`: a failure goes to the join
handler, and otherwise `attach_protocols` starts `protocol_seed_31402` with it. -/
def handleChannelStart (s : Seed) (k : ℕ) (ec : Code) : Seed :=
  if ec.isError then s.finish cfg k
  -- `protocol_seed_31402::start` ends at once with `not_found` when no pool is configured.
  else if cfg.hostPoolCapacity = 0 then s.finish cfg k
  else s.setStage k .seeding

/-- The start sequence of seed `k`'s channel went from `r` to `r'`, and the start handler runs if
it was called; `handle_channel_stop` only logs. -/
def registrationDone (s : Seed) (k : ℕ) (c : Channel) (r r' : Registration) : Seed :=
  match r'.started.drop r.started.length with
  | ec :: _ => ({ s with network := r'.network }.setStage k (.registered c r')).handleChannelStart
      cfg k ec
  | [] => { s with network := r'.network }.setStage k (.registered c r')

/-- `session_seed::handle_connect(ec, channel, seed, connector, handler)`. -/
def handleConnect (s : Seed) (k : ℕ) (ec : Code) (c : Channel) (blocked : Bool) : Seed :=
  if ec.isError then s.finish cfg k
  -- `address_blocked`.
  else if blocked then s.finish cfg k
  else
    s.registrationDone cfg k c (Registration.unregistered s.network)
      (Registration.register .base c s.stopped s.network)

/-- One event. What a seed does not wait for does not come. -/
def step (s : Seed) : SeedEvent → Seed
  | .started => if s.delegated then s.handleStarted cfg else s
  | .connected k ec c blocked =>
    match s.seeds[k]? with
    | some .connecting => s.handleConnect cfg k ec c blocked
    | _ => s
  | .channel k e =>
    match s.seeds[k]? with
    | some (.registered c r) => s.registrationDone cfg k c r (r.step .base c e)
    | _ => s
  | .seeded k _ =>
    match s.seeds[k]? with
    -- `handle_seeding_complete`: the handler, then the channel stops.
    | some .seeding => s.finish cfg k
    | _ => s
  | .addresses n => if n ≤ cfg.hostPoolCapacity then { s with addresses := n } else s
  | .stop => { s with stopped := true }

/-- `session_seed::start(handler)` on a new session, with `address_count()` at `addresses`.
`session::start` succeeds on a new session and posts `handle_started`. -/
def start (addresses : ℕ) (n : P2p) : Seed :=
  if cfg.hostPoolCapacity = 0 then ⟨true, n, addresses, false, 0, [], [], [.success]⟩
  else ⟨false, n, addresses, true, 0, [], [], []⟩

/-! ## What each step does -/

theorem finish_eq (s : Seed) (k : ℕ) :
    s.finish cfg k =
      { s with
        seeds := s.seeds.set k .finished
        joined := s.joined ++ [k]
        handled := s.handled ++
          if s.joined.length + 1 = cfg.seeds then
            [if s.startSize + 1 ≤ s.addresses then .success else .peerThrottling]
          else [] } := by
  unfold finish join setStage handleComplete
  split_ifs <;> simp_all

/-- Whatever seed `k` was, it is overwritten by the start handler's outcome. -/
theorem handleChannelStart_setStage (s : Seed) (k : ℕ) (st : SeedStage) (ec : Code) :
    (s.setStage k st).handleChannelStart cfg k ec = s.handleChannelStart cfg k ec := by
  simp [handleChannelStart, finish_eq, setStage]

theorem registrationDone_of_started {s : Seed} {k : ℕ} {c : Channel} {r r' : Registration}
    {ec : Code} {rest : List Code} (h : r'.started.drop r.started.length = ec :: rest) :
    s.registrationDone cfg k c r r' = { s with network := r'.network }.handleChannelStart cfg k ec := by
  rw [registrationDone, h]
  exact handleChannelStart_setStage cfg _ k _ ec

theorem registrationDone_of_not_started {s : Seed} {k : ℕ} {c : Channel} {r r' : Registration}
    (h : r'.started.drop r.started.length = []) :
    s.registrationDone cfg k c r r' = { s with network := r'.network }.setStage k (.registered c r') := by
  rw [registrationDone, h]

/-- A step is the handler of its event, where the event finds the session or its seed waiting
for it; otherwise the event changes nothing. -/
theorem step_cases (s : Seed) (e : SeedEvent) :
    s.step cfg e = s ∨
      (e = .started ∧ s.delegated = true ∧ s.step cfg e = s.handleStarted cfg) ∨
      (∃ k ec c blocked, e = .connected k ec c blocked ∧ s.seeds[k]? = some .connecting ∧
        s.step cfg e = s.handleConnect cfg k ec c blocked) ∨
      (∃ k ev c r, e = .channel k ev ∧ s.seeds[k]? = some (.registered c r) ∧
        s.step cfg e = s.registrationDone cfg k c r (r.step .base c ev)) ∨
      (∃ k ec, e = .seeded k ec ∧ s.seeds[k]? = some .seeding ∧ s.step cfg e = s.finish cfg k) ∨
      (∃ n, e = .addresses n ∧ n ≤ cfg.hostPoolCapacity ∧
        s.step cfg e = { s with addresses := n }) ∨
      (e = .stop ∧ s.step cfg e = { s with stopped := true }) := by
  cases e with
  | started =>
    by_cases hd : s.delegated
    · exact .inr (.inl ⟨rfl, hd, if_pos hd⟩)
    · exact .inl (if_neg hd)
  | connected k ec c blocked =>
    -- The connector's callback finds the seed connecting, or nothing to do.
    have hstep : s.step cfg (.connected k ec c blocked) =
        match s.seeds[k]? with
        | some .connecting => s.handleConnect cfg k ec c blocked
        | _ => s := rfl
    rw [hstep]
    split
    · next hk => exact .inr (.inr (.inl ⟨k, ec, c, blocked, rfl, hk, rfl⟩))
    · exact .inl rfl
  | channel k ev =>
    have hstep : s.step cfg (.channel k ev) =
        match s.seeds[k]? with
        | some (.registered c r) => s.registrationDone cfg k c r (r.step .base c ev)
        | _ => s := rfl
    rw [hstep]
    split
    · next c r hk => exact .inr (.inr (.inr (.inl ⟨k, ev, c, r, rfl, hk, rfl⟩)))
    · exact .inl rfl
  | seeded k ec =>
    have hstep : s.step cfg (.seeded k ec) =
        match s.seeds[k]? with
        | some .seeding => s.finish cfg k
        | _ => s := rfl
    rw [hstep]
    split
    · next hk => exact .inr (.inr (.inr (.inr (.inl ⟨k, ec, rfl, hk, rfl⟩))))
    · exact .inl rfl
  | addresses n =>
    by_cases hn : n ≤ cfg.hostPoolCapacity
    · exact .inr (.inr (.inr (.inr (.inr (.inl ⟨n, rfl, hn, if_pos hn⟩)))))
    · exact .inl (if_neg hn)
  | stop => exact .inr (.inr (.inr (.inr (.inr (.inr ⟨rfl, rfl⟩)))))

/-! ## The invariant -/

/-- What every run from `start` keeps. -/
structure Inv (s : Seed) : Prop where
  /-- The seeds are contacted only once `handle_started` has run, all of them, and only when
  the pool was empty. -/
  seeds : s.seeds = [] ∨ s.delegated = false ∧ s.seeds.length = cfg.seeds ∧ s.startSize = 0
  /-- No seed calls the join handler twice. -/
  nodup : s.joined.Nodup
  /-- A seed has called the join handler exactly when it has finished. -/
  mem_joined : ∀ k, k ∈ s.joined ↔ s.seeds[k]? = some .finished
  /-- A registered seed's start sequence has not ended. -/
  registered : ∀ (k : ℕ) (c : Channel) (r : Registration), s.seeds[k]? = some (.registered c r) →
    r.stage ≠ .ended
  /-- The start handler: not before `handle_started`, at once on an early end, and otherwise on
  the join handler's last call. -/
  handled : s.handled.length =
    if s.delegated then 0 else if s.seeds = [] then 1 else if s.joined.length = cfg.seeds then 1 else 0

variable {cfg} {s : Seed}

/-- The seeds that called the join handler are among the configured ones. -/
theorem Inv.lt_of_mem_joined (hs : Inv cfg s) {k : ℕ} (hk : k ∈ s.joined) : k < s.seeds.length := by
  obtain ⟨h, -⟩ := List.getElem?_eq_some_iff.1 ((hs.mem_joined k).1 hk)
  exact h

/-- While seed `k` has not finished, some seed has yet to call the join handler. -/
theorem Inv.length_joined_lt (hs : Inv cfg s) {k : ℕ} (hk : k < s.seeds.length)
    (hnf : s.seeds[k]? ≠ some .finished) : s.joined.length < s.seeds.length := by
  have hsub : s.joined.toFinset ⊆ (Finset.range s.seeds.length).erase k := by
    intro j hj
    rw [List.mem_toFinset] at hj
    refine Finset.mem_erase.2 ⟨?_, Finset.mem_range.2 (hs.lt_of_mem_joined hj)⟩
    rintro rfl
    exact hnf ((hs.mem_joined j).1 hj)
  have hcard := Finset.card_le_card hsub
  rw [List.toFinset_card_of_nodup hs.nodup, Finset.card_erase_of_mem (Finset.mem_range.2 hk),
    Finset.card_range] at hcard
  omega

/-- Once every seed has finished, every seed has called the join handler. -/
theorem Inv.length_joined_eq (hs : Inv cfg s) (hall : ∀ st ∈ s.seeds, st = .finished) :
    s.joined.length = s.seeds.length := by
  have hset : s.joined.toFinset = Finset.range s.seeds.length := by
    ext j
    rw [List.mem_toFinset, Finset.mem_range]
    refine ⟨hs.lt_of_mem_joined, fun hj ↦ (hs.mem_joined j).2 ?_⟩
    rw [List.getElem?_eq_getElem hj, hall _ (List.getElem_mem hj)]
  rw [← List.toFinset_card_of_nodup hs.nodup, hset, Finset.card_range]

/-- A seed that finishes calls the join handler, for the first time. -/
theorem inv_finish (hs : Inv cfg s) {k : ℕ} {st : SeedStage} (hk : s.seeds[k]? = some st)
    (hst : st ≠ .finished) : Inv cfg (s.finish cfg k) := by
  have hlt : k < s.seeds.length := (List.getElem?_eq_some_iff.1 hk).1
  have hnf : s.seeds[k]? ≠ some .finished := by
    rw [hk]
    exact fun h ↦ hst (Option.some.inj h)
  have hseeds : s.delegated = false ∧ s.seeds.length = cfg.seeds ∧ s.startSize = 0 :=
    hs.seeds.resolve_left (List.ne_nil_of_length_pos (by omega))
  have hnot : k ∉ s.joined := fun h ↦ hnf ((hs.mem_joined k).1 h)
  have hjoined := hs.length_joined_lt hlt hnf
  rw [finish_eq]
  refine ⟨.inr ⟨hseeds.1, by simpa using hseeds.2.1, hseeds.2.2⟩, ?_, ?_, ?_, ?_⟩
  · refine List.nodup_append.2 ⟨hs.nodup, List.nodup_singleton k, ?_⟩
    intro a ha b hb
    rw [List.mem_singleton] at hb
    subst hb
    rintro rfl
    exact hnot ha
  · intro j
    by_cases hj : j = k
    · subst hj
      simp [hlt]
    · simp [Ne.symm hj, hj, hs.mem_joined j]
  · intro j c r hj
    have hjk : j ≠ k := by
      rintro rfl
      simp [hlt] at hj
    rw [List.getElem?_set_ne (Ne.symm hjk)] at hj
    exact hs.registered j c r hj
  · -- The join handler completes on its last call.
    have hprev : s.handled.length = 0 := by
      rw [hs.handled, if_neg (by simp [hseeds.1]),
        if_neg (List.ne_nil_of_length_pos (by omega)), if_neg (by omega)]
    have hne : s.seeds.set k .finished ≠ [] := by
      simpa using List.ne_nil_of_length_pos (by omega)
    simp only [hseeds.1, hne, Bool.false_eq_true, if_false, List.length_append, hprev,
      List.length_singleton]
    split_ifs <;> simp

/-- A seed that has not finished moves to another stage that is not finished either. -/
theorem inv_setStage (hs : Inv cfg s) {k : ℕ} {st st' : SeedStage} (hk : s.seeds[k]? = some st)
    (hst : st ≠ .finished) (hst' : st' ≠ .finished)
    (hreg : ∀ c r, st' = .registered c r → r.stage ≠ .ended) : Inv cfg (s.setStage k st') := by
  have hlt : k < s.seeds.length := (List.getElem?_eq_some_iff.1 hk).1
  have hnotk : k ∉ s.joined := fun h ↦ hst (Option.some.inj (hk.symm.trans ((hs.mem_joined k).1 h)))
  have hne : s.seeds.set k st' ≠ [] := by simpa using List.ne_nil_of_length_pos (by omega)
  refine ⟨?_, hs.nodup, ?_, ?_, ?_⟩
  · rcases hs.seeds with h | h
    · exact absurd h (List.ne_nil_of_length_pos (by omega))
    · exact .inr ⟨h.1, by simpa [setStage] using h.2.1, h.2.2⟩
  · intro j
    by_cases hj : j = k
    · subst hj
      simp [setStage, hlt, hst', hnotk]
    · simp [setStage, Ne.symm hj, hs.mem_joined j]
  · intro j c r hj
    by_cases hjk : j = k
    · subst hjk
      simp only [setStage, List.getElem?_set_self hlt, Option.some.injEq] at hj
      exact hreg c r hj
    · rw [setStage, List.getElem?_set_ne (Ne.symm hjk)] at hj
      exact hs.registered j c r hj
  · have hseeds : s.seeds ≠ [] := List.ne_nil_of_length_pos (by omega)
    have h := hs.handled
    simp only [setStage, hne, hseeds, if_false] at h ⊢
    exact h

/-- The channel collections play no part in the invariant. -/
theorem Inv.withNetwork (hs : Inv cfg s) (n : P2p) : Inv cfg { s with network := n } :=
  ⟨hs.seeds, hs.nodup, hs.mem_joined, hs.registered, hs.handled⟩

theorem inv_handleChannelStart (hs : Inv cfg s) {k : ℕ} {st : SeedStage}
    (hk : s.seeds[k]? = some st) (hst : st ≠ .finished) (ec : Code) :
    Inv cfg (s.handleChannelStart cfg k ec) := by
  unfold handleChannelStart
  split_ifs
  · exact inv_finish hs hk hst
  · exact inv_finish hs hk hst
  · exact inv_setStage hs hk hst nofun nofun

/-- The registration's steps keep the invariant, given that a start sequence that has not called
`handle_started` has not ended. -/
theorem inv_registrationDone (hs : Inv cfg s) {k : ℕ} {st : SeedStage}
    (hk : s.seeds[k]? = some st) (hst : st ≠ .finished) (c : Channel) {r r' : Registration}
    (hr : r'.started.drop r.started.length = [] → r'.stage ≠ .ended) :
    Inv cfg (s.registrationDone cfg k c r r') := by
  rcases h : r'.started.drop r.started.length with _ | ⟨ec, rest⟩
  · rw [registrationDone_of_not_started cfg h]
    exact inv_setStage (hs.withNetwork r'.network) hk hst nofun fun _ _ he ↦ by
      cases he
      exact hr h
  · rw [registrationDone_of_started cfg h]
    exact inv_handleChannelStart (hs.withNetwork r'.network) hk hst ec

theorem inv_handleConnect (hs : Inv cfg s) {k : ℕ} (hk : s.seeds[k]? = some .connecting)
    (ec : Code) (c : Channel) (blocked : Bool) : Inv cfg (s.handleConnect cfg k ec c blocked) := by
  unfold handleConnect
  split_ifs
  · exact inv_finish hs hk nofun
  · exact inv_finish hs hk nofun
  · refine inv_registrationDone hs hk nofun c fun h ↦ ?_
    -- `register_channel` has called `handle_started` exactly when it ended the sequence.
    rcases Registration.register_started .base c s.stopped s.network with ⟨-, hstage⟩ | ⟨-, ec', h'⟩
    · rw [hstage]
      exact nofun
    · simp [Registration.unregistered, h'] at h

/-- `start_seed` either ends its seed at once or leaves the session alone, so what every
`finish` keeps, the loop of `start_seeding` keeps. -/
theorem foldl_startSeed_of_finish {P : Seed → Prop} (hP : ∀ t k, P t → P (t.finish cfg k))
    (l : List ℕ) : ∀ t, P t → P (l.foldl (fun t k ↦ t.startSeed cfg k) t) := by
  induction l with
  | nil => exact fun t ht ↦ ht
  | cons k l ih =>
    intro t ht
    rw [List.foldl_cons]
    unfold startSeed
    split_ifs
    · exact ih _ (hP t k ht)
    · exact ih t ht

/-- `start_seed` for each seed still connecting. -/
theorem inv_foldl_startSeed (l : List ℕ) (hl : l.Nodup) :
    ∀ t : Seed, Inv cfg t → (∀ k ∈ l, t.seeds[k]? = some .connecting) →
      Inv cfg (l.foldl (fun t k ↦ t.startSeed cfg k) t) := by
  induction l with
  | nil => exact fun t ht _ ↦ ht
  | cons k l ih =>
    intro t ht hconn
    obtain ⟨hkl, hl⟩ := List.nodup_cons.1 hl
    rw [List.foldl_cons]
    unfold startSeed
    split_ifs
    · -- A stopped session ends each seed at once.
      refine ih hl _ (inv_finish ht (hconn k (by simp)) nofun) fun j hj ↦ ?_
      have hjk : j ≠ k := fun h ↦ hkl (h ▸ hj)
      rw [finish_eq, List.getElem?_set_ne (Ne.symm hjk)]
      exact hconn j (List.mem_cons_of_mem k hj)
    · exact ih hl t ht fun j hj ↦ hconn j (List.mem_cons_of_mem k hj)

theorem inv_handleStarted (hs : Inv cfg s) (hd : s.delegated = true) :
    Inv cfg (s.handleStarted cfg) := by
  have hseeds : s.seeds = [] := hs.seeds.resolve_right (by simp [hd])
  have hjoined : s.joined = [] := List.eq_nil_iff_forall_not_mem.2 fun k hk ↦ by
    simpa [hseeds] using (hs.mem_joined k).1 hk
  have hhandled : s.handled = [] := by simpa [hd] using hs.handled
  unfold handleStarted
  dsimp only
  split_ifs with ha hn
  · -- The pool already holds addresses.
    exact ⟨.inl hseeds, by simp [hjoined], by simp [hseeds, hjoined], by simp [hseeds],
      by simp [hseeds, hhandled]⟩
  · -- No seed is configured.
    exact ⟨.inl hseeds, by simp [hjoined], by simp [hseeds, hjoined], by simp [hseeds],
      by simp [hseeds, hhandled]⟩
  · -- Every seed is contacted, starting from `connecting`.
    refine inv_foldl_startSeed (List.range cfg.seeds) (List.nodup_range) _ ?_ fun k hk ↦ ?_
    · refine ⟨.inr ⟨rfl, by simp, by simpa using ha⟩, by simp [hjoined], fun k ↦ ?_,
        fun k c r h ↦ ?_, ?_⟩
      · simp only [hjoined, List.not_mem_nil, false_iff]
        rw [List.getElem?_replicate]
        split_ifs <;> simp
      · rw [List.getElem?_replicate] at h
        split_ifs at h
        simp at h
      · simp [hhandled, hjoined, hn, Ne.symm hn, List.replicate_eq_nil_iff]
    · rw [List.getElem?_replicate, if_pos (List.mem_range.1 hk)]

/-- **One step.** Every event keeps the invariant. -/
theorem inv_step (hs : Inv cfg s) (e : SeedEvent) : Inv cfg (s.step cfg e) := by
  rcases step_cases cfg s e with h | ⟨-, hd, h⟩ | ⟨k, ec, c, blocked, -, hk, h⟩ |
      ⟨k, ev, c, r, -, hk, h⟩ | ⟨k, ec, -, hk, h⟩ | ⟨n, -, -, h⟩ | ⟨-, h⟩ <;> rw [h]
  · exact hs
  · exact inv_handleStarted hs hd
  · exact inv_handleConnect hs hk ec c blocked
  · refine inv_registrationDone hs hk nofun c fun h ↦ ?_
    -- A step that ends the start sequence calls `handle_started`.
    rcases Registration.step_started .base c r ev with ⟨-, hend⟩ | ⟨-, -, ec, h'⟩
    · exact fun he ↦ hs.registered k c r hk (hend.1 he)
    · simp [h'] at h
  · exact inv_finish hs hk nofun
  · exact ⟨hs.seeds, hs.nodup, hs.mem_joined, hs.registered, hs.handled⟩
  · exact ⟨hs.seeds, hs.nodup, hs.mem_joined, hs.registered, hs.handled⟩


theorem inv_start (addresses : ℕ) (n : P2p) : Inv cfg (start cfg addresses n) := by
  unfold start
  split_ifs
  · exact ⟨.inl rfl, List.nodup_nil, by simp, by simp, rfl⟩
  · exact ⟨.inl rfl, List.nodup_nil, by simp, by simp, rfl⟩

/-- **Every run.** The invariant holds after any interleaving of events. -/
theorem inv_run (addresses : ℕ) (n : P2p) (es : List SeedEvent) :
    Inv cfg (run (step cfg) (start cfg addresses n) es) :=
  run_invariant (step cfg) (I := Inv cfg) (fun _ e hs ↦ inv_step hs e) es (inv_start addresses n)

/-! ## The start handler is called once -/

/-- `handle_started` has run and every seed has finished. -/
def Settled (s : Seed) : Prop := s.delegated = false ∧ ∀ st ∈ s.seeds, st = .finished

theorem handled_length_le_one (hs : Inv cfg s) : s.handled.length ≤ 1 := by
  rw [hs.handled]
  split_ifs <;> simp

/-- **Exactly once.** Once every seed has finished, the start handler has been called once. -/
theorem handled_length_of_settled (hs : Inv cfg s) (h : Settled s) : s.handled.length = 1 := by
  rw [hs.handled, if_neg (by simp [h.1])]
  split_ifs with hnil hlen
  · rfl
  · rfl
  · rcases hs.seeds with h0 | ⟨-, hlen', -⟩
    · exact absurd h0 hnil
    · exact absurd ((hs.length_joined_eq h.2).trans hlen') hlen

/-- A start sequence that calls the start handler with an error ends the seed. -/
theorem registrationDone_of_error {k : ℕ} {c : Channel} {r r' : Registration} {ec : Code}
    (h : r'.started = r.started ++ [ec]) (hec : ec.isError) :
    s.registrationDone cfg k c r r' = { s with network := r'.network }.finish cfg k := by
  have hdrop : r'.started.drop r.started.length = [ec] := by simp [h]
  rw [registrationDone_of_started cfg hdrop]
  simp [handleChannelStart, hec]

/-- Each of a seed's outcomes that ends it: a connect failure, a channel that fails to start or
to complete its handshake, and the seed protocol's end. -/
theorem exists_step_finish (hs : Inv cfg s) {k : ℕ} {st : SeedStage} (hk : s.seeds[k]? = some st)
    (hst : st ≠ .finished) : ∃ e n, s.step cfg e = { s with network := n }.finish cfg k := by
  cases st with
  | connecting =>
    refine ⟨.connected k (.other 0) ⟨0, 0, ⟨0, 0⟩⟩ false, s.network, ?_⟩
    simp [step, hk, handleConnect, Code.isError]
  | registered c r =>
    have hr := hs.registered k c r hk
    cases hstage : r.stage with
    | starting =>
      refine ⟨.channel k (.channelStart (.other 0)),
        (r.step .base c (.channelStart (.other 0))).network, ?_⟩
      have hstarted :
          (r.step .base c (.channelStart (.other 0))).started = r.started ++ [.other 0] :=
        (Registration.step_channelStart_of_error .base c hstage (by decide)).1
      simp only [step, hk]
      exact registrationDone_of_error hstarted rfl
    | handshaking =>
      refine ⟨.channel k (.handshake (.other 0) none),
        (r.step .base c (.handshake (.other 0) none)).network, ?_⟩
      have hstarted := (Registration.step_handshake_of_handshaking .base c hstage (.other 0) none).1
      simp only [handleHandshake, Code.isError] at hstarted
      simp only [step, hk]
      exact registrationDone_of_error hstarted rfl
    | ended => exact absurd hstage hr
  | seeding => exact ⟨.seeded k .success, s.network, by simp [step, hk]⟩
  | finished => exact absurd rfl hst

/-- **Every seed can end.** From any state that has run `handle_started`, some outcomes of the
seeds still pending end them all. -/
theorem exists_settled_of_started (hs : Inv cfg s) (hd : s.delegated = false) :
    ∃ es, Settled (run (step cfg) s es) := by
  -- The induction is on the number of seeds that have not called the join handler.
  induction h : s.seeds.length - s.joined.length generalizing s with
  | zero =>
    refine ⟨[], ?_⟩
    show Settled s
    refine ⟨hd, fun st hst ↦ ?_⟩
    obtain ⟨k, hk, rfl⟩ := List.getElem_of_mem hst
    by_contra hnf
    have := hs.length_joined_lt hk (by rw [List.getElem?_eq_getElem hk]; simpa using hnf)
    omega
  | succ m ih =>
    have hex : ∃ (k : ℕ) (st : SeedStage), s.seeds[k]? = some st ∧ st ≠ .finished := by
      by_contra hno
      push Not at hno
      have hall : ∀ st ∈ s.seeds, st = .finished := fun st hst ↦ by
        obtain ⟨k, hk, rfl⟩ := List.getElem_of_mem hst
        exact hno k _ (List.getElem?_eq_getElem hk)
      have := hs.length_joined_eq hall
      omega
    obtain ⟨k, st, hk, hst⟩ := hex
    obtain ⟨e, n, he⟩ := exists_step_finish hs hk hst
    have hlt :=
      hs.length_joined_lt (List.getElem?_eq_some_iff.1 hk).1 (by rw [hk]; simpa using hst)
    obtain ⟨es, hes⟩ := ih (inv_step hs e) (by rw [he, finish_eq]; exact hd)
      (by rw [he, finish_eq]; simp; omega)
    exact ⟨e :: es, hes⟩

theorem delegated_handleStarted (s : Seed) : (s.handleStarted cfg).delegated = false := by
  unfold handleStarted startSeeding
  dsimp only
  split_ifs
  · rfl
  · rfl
  · exact foldl_startSeed_of_finish (P := fun t ↦ t.delegated = false)
      (fun t k ht ↦ by rw [finish_eq]; exact ht) _ _ rfl

theorem exists_settled (hs : Inv cfg s) : ∃ es, Settled (run (step cfg) s es) := by
  cases hd : s.delegated
  · exact exists_settled_of_started hs hd
  · -- `handle_started` runs first.
    have hd' : (s.step cfg .started).delegated = false := by
      simp only [step, hd, if_true]
      exact delegated_handleStarted s
    obtain ⟨es, hes⟩ := exists_settled_of_started (inv_step hs .started) hd'
    exact ⟨.started :: es, hes⟩

/-! ## What the start handler receives

Each outcome of a seed changes the session by `finish`, by a new stage or by the network's new
state, so what these keep, `handle_channel_start`, the end of a registration and
`handle_connect` keep. -/

section Outcomes

variable {P : Seed → Prop} (hfin : ∀ t k, P t → P (t.finish cfg k))
  (hset : ∀ t k st, P t → P (t.setStage k st)) (hnet : ∀ t n, P t → P { t with network := n })
include hfin hset

theorem handleChannelStart_of_finish {t : Seed} (ht : P t) (k : ℕ) (ec : Code) :
    P (t.handleChannelStart cfg k ec) := by
  unfold handleChannelStart
  split_ifs
  · exact hfin t k ht
  · exact hfin t k ht
  · exact hset t k _ ht

include hnet

theorem registrationDone_of_finish {t : Seed} (ht : P t) (k : ℕ) (c : Channel)
    (r r' : Registration) : P (t.registrationDone cfg k c r r') := by
  unfold registrationDone
  split
  · exact handleChannelStart_of_finish hfin hset (hset _ k _ (hnet t _ ht)) k _
  · exact hset _ k _ (hnet t _ ht)

theorem handleConnect_of_finish {t : Seed} (ht : P t) (k : ℕ) (ec : Code) (c : Channel)
    (blocked : Bool) : P (t.handleConnect cfg k ec c blocked) := by
  unfold handleConnect
  split_ifs
  · exact hfin t k ht
  · exact hfin t k ht
  · exact registrationDone_of_finish hfin hset hnet ht k c _ _

end Outcomes

/-- **The handler's log.** A step only adds calls of the start handler. -/
theorem handled_prefix_step (s : Seed) (e : SeedEvent) : s.handled <+: (s.step cfg e).handled := by
  have hfin : ∀ (t : Seed) k, s.handled <+: t.handled → s.handled <+: (t.finish cfg k).handled :=
    fun t k ht ↦ by
      rw [finish_eq]
      exact ht.trans (List.prefix_append _ _)
  have hset : ∀ (t : Seed) k st, s.handled <+: t.handled → s.handled <+: (t.setStage k st).handled :=
    fun _ _ _ ht ↦ ht
  have hnet : ∀ (t : Seed) n, s.handled <+: t.handled →
      s.handled <+: ({ t with network := n } : Seed).handled := fun _ _ ht ↦ ht
  rcases step_cases cfg s e with h | ⟨-, -, h⟩ | ⟨k, ec, c, blocked, -, -, h⟩ |
      ⟨k, ev, c, r, -, -, h⟩ | ⟨k, ec, -, -, h⟩ | ⟨n, -, -, h⟩ | ⟨-, h⟩ <;> simp only [h]
  · exact List.prefix_rfl
  · unfold handleStarted startSeeding
    dsimp only
    split_ifs
    · exact List.prefix_append _ _
    · exact List.prefix_append _ _
    · exact foldl_startSeed_of_finish hfin _ _ List.prefix_rfl
  · exact handleConnect_of_finish hfin hset hnet List.prefix_rfl k ec c blocked
  · exact registrationDone_of_finish hfin hset hnet List.prefix_rfl k _ _ _
  · exact hfin s k List.prefix_rfl
  · exact List.prefix_rfl
  · exact List.prefix_rfl

/-- The code the start handler is to receive in `s`: success exactly when the pool was not
empty when `handle_started` read its size, or has grown by at least one address since. -/
def Reports (s : Seed) (c : Code) : Prop :=
  c = .success ↔ s.startSize ≠ 0 ∨ s.startSize + 1 ≤ s.addresses

/-- Every code the start handler received is the one it is to receive, and the size read by
`handle_started` is zero (the seeds are only asked then). -/
def Reported (s : Seed) : Prop := s.startSize = 0 ∧ ∀ c ∈ s.handled, Reports s c

theorem reported_finish {t : Seed} (ht : Reported t) (k : ℕ) : Reported (t.finish cfg k) := by
  obtain ⟨h0, hc⟩ := ht
  rw [finish_eq]
  refine ⟨h0, fun c hmem ↦ ?_⟩
  rcases List.mem_append.1 hmem with hold | hnew
  · exact hc c hold
  · -- `handle_complete` with a start size of zero.
    split_ifs at hnew with _ hgrown
    · simp only [List.mem_singleton] at hnew
      subst hnew
      rw [h0] at hgrown
      simp [Reports, h0, hgrown]
    · simp only [List.mem_singleton] at hnew
      subst hnew
      simp only [Reports, h0]
      simp at hgrown ⊢
      omega
    · simp at hnew

/-- The start handler's code is the one it is to receive, whatever event calls it. -/
theorem reported_step (hs : Inv cfg s) (h0 : s.handled = []) (e : SeedEvent) :
    ∀ c ∈ (s.step cfg e).handled, Reports (s.step cfg e) c := by
  -- Outside `handle_started`, an event reaches a seed, so the seeds exist and the size read is 0.
  have hseed : ∀ {k : ℕ} {st : SeedStage}, s.seeds[k]? = some st → Reported s := fun hk ↦
    ⟨(hs.seeds.resolve_left fun h ↦ by simp [h] at hk).2.2, by simp [h0]⟩
  have hset : ∀ (t : Seed) k st, Reported t → Reported (t.setStage k st) := fun _ _ _ ht ↦ ht
  have hnet : ∀ (t : Seed) n, Reported t → Reported ({ t with network := n } : Seed) :=
    fun _ _ ht ↦ ht
  rcases step_cases cfg s e with h | ⟨-, -, h⟩ | ⟨k, ec, c, blocked, -, hk, h⟩ |
      ⟨k, ev, c, r, -, hk, h⟩ | ⟨k, ec, -, hk, h⟩ | ⟨n, -, -, h⟩ | ⟨-, h⟩ <;> rw [h]
  · simp [h0]
  · unfold handleStarted startSeeding
    dsimp only
    split_ifs with ha hn
    · intro c hc
      simp only [h0, List.nil_append, List.mem_singleton] at hc
      simp [hc, Reports, ha]
    · intro c hc
      simp only [h0, List.nil_append, List.mem_singleton] at hc
      simp only [ne_eq, Decidable.not_not] at ha
      simp [hc, Reports, ha]
    · refine (foldl_startSeed_of_finish (P := Reported) (fun t k ht ↦ reported_finish ht k) _ _ ?_).2
      simp only [ne_eq, Decidable.not_not] at ha
      exact ⟨ha, by simp [h0]⟩
  · exact (handleConnect_of_finish (fun t k ht ↦ reported_finish ht k) hset hnet
      (hseed hk) k ec c blocked).2
  · exact (registrationDone_of_finish (fun t k ht ↦ reported_finish ht k) hset hnet
      (hseed hk) k _ _ _).2
  · exact (reported_finish (hseed hk) k).2
  · simp [h0]
  · simp [h0]

/-- **The reported code.** When the start handler has been called during a run, the run has a
step that called it, from a state where it had not been called, and that step's state is one
where its code is the one to report. -/
theorem exists_reporting_step (hs : Inv cfg s) (h0 : s.handled = []) {c : Code}
    (es : List SeedEvent) (hc : (run (step cfg) s es).handled = [c]) :
    ∃ es₁ e es₂, es = es₁ ++ e :: es₂ ∧ (run (step cfg) s es₁).handled = [] ∧
      Reports (run (step cfg) s (es₁ ++ [e])) c := by
  induction es using List.reverseRecOn with
  | nil => simp [h0] at hc
  | append_singleton es e ih =>
    have hinv : Inv cfg (run (step cfg) s es) :=
      run_invariant (step cfg) (I := Inv cfg) (fun _ e ht ↦ inv_step ht e) es hs
    have hprefix : (run (step cfg) s es).handled <+: ((run (step cfg) s es).step cfg e).handled :=
      handled_prefix_step _ e
    rw [run_concat] at hc
    rw [hc] at hprefix
    rcases hlog : (run (step cfg) s es).handled with _ | ⟨c', rest⟩
    · -- The handler is called by this event.
      refine ⟨es, e, [], rfl, hlog, ?_⟩
      rw [run_concat]
      exact reported_step hinv hlog e c (by simp [hc])
    · -- The handler was called before, with the same code.
      have hrest : c' :: rest = [c] := by
        rw [hlog] at hprefix
        exact hprefix.eq_of_length (le_antisymm hprefix.length_le (by simp))
      obtain ⟨es₁, e₁, es₂, rfl, h₁, h₂⟩ := ih (by rw [hlog, hrest])
      exact ⟨es₁, e₁, es₂ ++ [e], by simp, h₁, h₂⟩

/-! ## From `start` -/

/-- A configured pool leaves the start handler to `handle_started`. -/
theorem start_handled (hcap : cfg.hostPoolCapacity ≠ 0) (addresses : ℕ) (n : P2p) :
    (start cfg addresses n).handled = [] := by
  simp [start, hcap]

/-- With a pool configured, whatever each seed's connect, blacklist check, registration and seed
protocol do, and whenever the pool grows or the session stops: the start handler is called at most
once, and once every seed has finished it has been called; the pending seeds can always be brought
to their end; each seed calls the join handler at most once, and has called it exactly when it has
finished; and the handler's code is success exactly when the pool was not empty, or had grown by
the time the handler was called. -/
theorem seed_start_once (hcap : cfg.hostPoolCapacity ≠ 0) (addresses : ℕ) (n : P2p)
    (es : List SeedEvent) :
    (run (step cfg) (start cfg addresses n) es).handled.length ≤ 1 ∧
      (Settled (run (step cfg) (start cfg addresses n) es) →
        (run (step cfg) (start cfg addresses n) es).handled.length = 1) ∧
      (∃ es', Settled (run (step cfg) (start cfg addresses n) (es ++ es'))) ∧
      (run (step cfg) (start cfg addresses n) es).joined.Nodup ∧
      (∀ k, k ∈ (run (step cfg) (start cfg addresses n) es).joined ↔
        (run (step cfg) (start cfg addresses n) es).seeds[k]? = some .finished) ∧
      ∀ c, (run (step cfg) (start cfg addresses n) es).handled = [c] →
        ∃ es₁ e es₂, es = es₁ ++ e :: es₂ ∧
          (run (step cfg) (start cfg addresses n) es₁).handled = [] ∧
          Reports (run (step cfg) (start cfg addresses n) (es₁ ++ [e])) c := by
  have hs : Inv cfg (run (step cfg) (start cfg addresses n) es) := inv_run addresses n es
  refine ⟨handled_length_le_one hs, handled_length_of_settled hs, ?_, hs.nodup, hs.mem_joined,
    fun c hc ↦ exists_reporting_step (inv_start addresses n) (start_handled hcap addresses n) es hc⟩
  obtain ⟨es', hes'⟩ := exists_settled hs
  exact ⟨es', by rwa [run_append]⟩

/-- Two seeds that cannot be reached: the handler is called once, when the second one fails. -/
theorem seed_start_once_unreachable :
    (⟨1000, 2⟩ : SeedSettings).hostPoolCapacity ≠ 0 ∧
      (run (step ⟨1000, 2⟩) (start ⟨1000, 2⟩ 0 ⟨⟨false, []⟩, ⟨false, []⟩⟩)
        [.started, .connected 0 (.other 0) ⟨0, 0, ⟨0, 0⟩⟩ false,
          .connected 1 (.other 0) ⟨0, 0, ⟨0, 0⟩⟩ false]).handled.length = 1 :=
  ⟨by decide, (seed_start_once (by decide) 0 _ _).2.1 ⟨rfl, by decide⟩⟩

/-- With no pool configured, `start` reports success although the pool is empty and stays so, and
no seed is ever asked, whatever happens next. -/
theorem run_without_pool (seeds : ℕ) (n : P2p) (es : List SeedEvent) :
    (run (step ⟨0, seeds⟩) (start ⟨0, seeds⟩ 0 n) es).handled = [.success] ∧
      (run (step ⟨0, seeds⟩) (start ⟨0, seeds⟩ 0 n) es).addresses = 0 ∧
      (run (step ⟨0, seeds⟩) (start ⟨0, seeds⟩ 0 n) es).joined = [] := by
  -- No seed exists and `handle_started` is never posted, so only the pool size and the stop
  -- flag can change, and the pool admits no address.
  have hstep : ∀ (t : Seed) (e : SeedEvent),
      t.delegated = false ∧ t.seeds = [] ∧ t.handled = [.success] ∧ t.addresses = 0 ∧
        t.joined = [] →
      (t.step ⟨0, seeds⟩ e).delegated = false ∧ (t.step ⟨0, seeds⟩ e).seeds = [] ∧
        (t.step ⟨0, seeds⟩ e).handled = [.success] ∧ (t.step ⟨0, seeds⟩ e).addresses = 0 ∧
        (t.step ⟨0, seeds⟩ e).joined = [] := by
    rintro t e ⟨hd, hseeds, hh, ha, hj⟩
    rcases step_cases ⟨0, seeds⟩ t e with h | ⟨-, hd', -⟩ | ⟨k, -, -, -, -, hk, -⟩ |
        ⟨k, -, c, r, -, hk, -⟩ | ⟨k, -, -, hk, -⟩ | ⟨m, -, hm, h⟩ | ⟨-, h⟩
    · rw [h]
      exact ⟨hd, hseeds, hh, ha, hj⟩
    · rw [hd] at hd'
      exact absurd hd' Bool.false_ne_true
    -- An event for a seed finds none.
    · rw [hseeds, List.getElem?_nil] at hk
      cases hk
    · rw [hseeds, List.getElem?_nil] at hk
      cases hk
    · rw [hseeds, List.getElem?_nil] at hk
      cases hk
    · rw [h]
      exact ⟨hd, hseeds, hh, Nat.le_zero.1 hm, hj⟩
    · rw [h]
      exact ⟨hd, hseeds, hh, ha, hj⟩
  have hrun := run_invariant (step ⟨0, seeds⟩) (I := fun t ↦ t.delegated = false ∧ t.seeds = [] ∧
    t.handled = [.success] ∧ t.addresses = 0 ∧ t.joined = []) hstep es
    (s := start ⟨0, seeds⟩ 0 n) ⟨rfl, rfl, rfl, rfl, rfl⟩
  exact ⟨hrun.2.2.1, hrun.2.2.2.1, hrun.2.2.2.2⟩

/-- Two seeds and an empty pool that no address message can fill: success, with no seed asked. -/
theorem start_without_pool :
    (run (step ⟨0, 2⟩) (start ⟨0, 2⟩ 0 ⟨⟨false, []⟩, ⟨false, []⟩⟩)
        [.started, .addresses 5]).handled = [.success] ∧
      (run (step ⟨0, 2⟩) (start ⟨0, 2⟩ 0 ⟨⟨false, []⟩, ⟨false, []⟩⟩)
        [.started, .addresses 5]).addresses = 0 ∧
      (run (step ⟨0, 2⟩) (start ⟨0, 2⟩ 0 ⟨⟨false, []⟩, ⟨false, []⟩⟩)
        [.started, .addresses 5]).joined = [] :=
  run_without_pool 2 _ _

end Seed

end Network
