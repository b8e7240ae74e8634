import BitprimNetwork.Pending

/-!
# Sessions and the channels of `p2p`

A session hands each channel it creates to `session::register_channel`, which starts the
channel, runs the version handshake and, once the handshake succeeds, stores the channel in
`p2p`'s set of open channels. The subclasses change two steps of that sequence:

* `session_outbound::start_channel` first *pends* the channel in `p2p`'s set of channels whose
  handshake is in progress, and wraps the start handler in `do_unpend`, which takes the channel
  out of that set again whenever the start sequence ends, with whatever code;
* `session_inbound::handshake_complete` refuses a channel whose peer's version nonce is one of
  the pending channels' nonces: the connection is to this node itself.

This file models the channel collections of `p2p` and the steps of the start sequence that read
or change them.
-/

namespace Network

/-- A channel as the sessions see it. -/
structure Channel where
  /-- The channel's identity (its shared pointer). -/
  id : ℕ
  /-- The nonce the session gives the channel before it starts, sent in its version. -/
  nonce : ℕ
  /-- The remote endpoint. -/
  authority : Authority
  deriving DecidableEq, Repr

/-- `session::blacklisted(authority)`: a blacklisted address has the same ip. -/
def blacklisted (blacklists : List Authority) (authority : Authority) : Bool :=
  blacklists.any fun blocked ↦ authority.ip == blocked.ip

/-- `session::stopped(ec)`: the session has stopped, or the code says the service has. -/
def stoppedBy (stopped : Bool) (ec : Code) : Bool := stopped || ec == .serviceStopped

/-- The channel collections of `p2p`. -/
structure P2p where
  /-- `pending_handshake_`: outbound channels whose handshake is in progress. -/
  pendingHandshake : Pending Channel
  /-- `pending_close_`: the open channels. -/
  pendingClose : Pending Channel
  deriving DecidableEq, Repr

namespace P2p

/-- `p2p::pend(channel)`. -/
def pend (n : P2p) (c : Channel) : Code × P2p :=
  let r := n.pendingHandshake.store c
  (r.1, { n with pendingHandshake := r.2 })

/-- `p2p::unpend(channel)`. -/
def unpend (n : P2p) (c : Channel) : P2p :=
  { n with pendingHandshake := n.pendingHandshake.remove c }

/-- `p2p::pending(version_nonce)`: some pending channel has this nonce. -/
def pending (n : P2p) (nonce : ℕ) : Bool :=
  n.pendingHandshake.existsMatch (·.nonce == nonce)

/-- `p2p::store(channel)`: refused if a channel to the same authority is open. -/
def store (n : P2p) (c : Channel) : Code × P2p :=
  let r := n.pendingClose.storeMatching c (·.authority == c.authority)
  (r.1, { n with pendingClose := r.2 })

/-- `p2p::remove(channel)`. -/
def remove (n : P2p) (c : Channel) : P2p :=
  { n with pendingClose := n.pendingClose.remove c }

/-- `p2p::stop` on the channel collections: `pending::stop(service_stopped)` makes each refuse
new channels and stops every channel in it with `service_stopped`, those whose handshake is in
progress first. The channels leave the collections later, through their own stop handlers. The
second component is the stop calls, in order. -/
def stop (n : P2p) : P2p × List (Channel × Code) :=
  (⟨n.pendingHandshake.stop, n.pendingClose.stop⟩,
    (n.pendingHandshake.elements ++ n.pendingClose.elements).map fun c ↦ (c, .serviceStopped))

@[simp] theorem store_pendingHandshake (n : P2p) (c : Channel) :
    (n.store c).2.pendingHandshake = n.pendingHandshake := rfl

@[simp] theorem unpend_pendingClose (n : P2p) (c : Channel) :
    (n.unpend c).pendingClose = n.pendingClose := rfl

@[simp] theorem pend_pendingClose (n : P2p) (c : Channel) :
    (n.pend c).2.pendingClose = n.pendingClose := rfl

/-- `pend` inserts a channel that is not pending exactly when it succeeds. -/
theorem count_pend {n : P2p} {c : Channel} (h : c ∉ n.pendingHandshake.elements) :
    (n.pend c).2.pendingHandshake.elements.count c = if (n.pend c).1 = .success then 1 else 0 :=
  Pending.count_storeMatching h _

/-- `store` inserts a channel that is not open exactly when it succeeds. -/
theorem count_store {n : P2p} {c : Channel} (h : c ∉ n.pendingClose.elements) :
    (n.store c).2.pendingClose.elements.count c = if (n.store c).1 = .success then 1 else 0 :=
  Pending.count_storeMatching h _

/-- A pending channel's nonce is pending. -/
theorem pending_of_mem {n : P2p} {c : Channel} (h : c ∈ n.pendingHandshake.elements) :
    n.pending c.nonce := by
  simp only [pending, Pending.existsMatch, List.any_eq_true, beq_iff_eq]
  exact ⟨c, h, rfl⟩

/-- `p2p::stop` stops every channel with `service_stopped`. -/
theorem eq_serviceStopped_of_mem_stop {n : P2p} {c : Channel} {ec : Code} (h : (c, ec) ∈ n.stop.2) :
    ec = .serviceStopped := by
  simp only [stop, List.mem_map, Prod.mk.injEq] at h
  obtain ⟨_, _, -, rfl⟩ := h
  rfl

end P2p

/-! ## The handshake steps of the start sequence -/

/-- `session::handshake_complete`: store the channel among the open ones. -/
def handshakeComplete (c : Channel) (n : P2p) : Code × P2p := n.store c

/-- `session_inbound::handshake_complete`: refuse a connection to this node itself, recognised
by the peer's version nonce, then complete as every session does. The code reads the peer
version, which the version protocol has set once it succeeds. -/
def inboundHandshakeComplete (c : Channel) (peer : Option VersionMessage) (n : P2p) :
    Code × P2p :=
  if peer.any fun m ↦ n.pending m.nonce then (.acceptFailed, n) else handshakeComplete c n

/-- `session::handle_handshake(ec)`, with the session's own `handshake_complete`: a failed
handshake passes its code on. -/
def handleHandshake (complete : P2p → Code × P2p) (n : P2p) (ec : Code) : Code × P2p :=
  if ec.isError then (ec, n) else complete n

/-- `session_outbound::do_unpend`: whatever the start sequence ended with, the channel leaves
the pending set before the code is passed on. -/
def doUnpend (c : Channel) (r : Code × P2p) : Code × P2p := (r.1, r.2.unpend c)

/-- `handle_handshake` passes success on only from a handshake that succeeded. -/
theorem handleHandshake_eq_success {complete : P2p → Code × P2p} {n : P2p} {ec : Code}
    (h : (handleHandshake complete n ec).1 = .success) : ec = .success := by
  unfold handleHandshake at h
  split_ifs at h with herr
  · exact h
  · simpa using herr

@[simp] theorem inboundHandshakeComplete_pendingHandshake (c : Channel)
    (peer : Option VersionMessage) (n : P2p) :
    (inboundHandshakeComplete c peer n).2.pendingHandshake = n.pendingHandshake := by
  unfold inboundHandshakeComplete
  split_ifs <;> rfl

@[simp] theorem handleHandshake_inbound_pendingHandshake (c : Channel)
    (peer : Option VersionMessage) (n : P2p) (ec : Code) :
    (handleHandshake (inboundHandshakeComplete c peer) n ec).2.pendingHandshake =
      n.pendingHandshake := by
  unfold handleHandshake
  split_ifs <;> simp

/-- The inbound session passes success on only for a peer whose nonce is not pending. -/
theorem not_pending_of_inbound_success {c : Channel} {m : VersionMessage} {n : P2p} {ec : Code}
    (h : (handleHandshake (inboundHandshakeComplete c (some m)) n ec).1 = .success) :
    n.pending m.nonce = false := by
  unfold handleHandshake inboundHandshakeComplete at h
  split_ifs at h with herr hp
  · simp_all
  · simpa using hp

end Network
