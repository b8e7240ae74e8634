import BitprimNetwork.Protocols.Handshake
import BitprimNetwork.Sessions.Session

/-!
# A connection from the node to itself

When the outbound session connects to the node's own listener, one TCP connection has two
channels: the outbound one, which the outbound session pended before starting it, and the
inbound one, which the inbound session accepted. Each runs a version protocol, and each reads
the messages the other sends, in order. The inbound session detects the loopback when its
handshake completes: the peer's version carries the outbound channel's nonce, and
`session_inbound::handshake_complete` refuses it if that nonce is pending.

`Loopback` is the two protocols with the two sessions around them; an event delivers the next
message in flight to one side, or expires or stops one side. Each session's start sequence runs
as soon as its protocol calls its handler, exactly as in the code, where the handler runs
inside the message handler that completes the handshake.

The outbound channel leaves the pending set as soon as *its* handshake completes
(`do_unpend`), so the check catches the loopback only when the inbound handshake completes
first: `inboundStarted_success_outbound_ended` proves that an inbound success always comes after
the outbound sequence has ended, and the last section gives an order of the four handshake
messages in which both channels register.
-/

namespace Network

open Async

/-- The event a message sent by a version protocol is to the peer's protocol that reads it;
`m` is the sender's version message. -/
def VersionSent.received (m : VersionMessage) : VersionSent → VersionEvent
  | .version => .version m
  | .verack => .verack
  | .reject r => .reject r

theorem VersionSent.eq_of_received {m m' : VersionMessage} {msg : VersionSent}
    (h : msg.received m = .version m') : m' = m := by
  cases msg <;> simp_all [received]

/-- The two ends of a connection from the node to itself. -/
inductive Side where
  | outbound
  | inbound
  deriving DecidableEq, Repr

/-- The settings of a loopback connection and its two channels. -/
structure LoopbackSetup where
  /-- The network settings both sessions read. -/
  settings : Settings
  /-- The protocol levels of bitprim-core. -/
  levels : Levels
  /-- The parameters the outbound session gives its version protocol. -/
  outboundParams : VersionParams
  /-- The parameters the inbound session gives its version protocol. -/
  inboundParams : VersionParams
  /-- The channel the outbound session opened. -/
  outboundChannel : Channel
  /-- The channel the inbound session accepted: the other end of the same connection. -/
  inboundChannel : Channel

/-- The two handshakes of a loopback connection and what the sessions did with them. -/
structure Loopback where
  /-- The outbound channel's version protocol. -/
  outbound : VersionProtocol
  /-- The inbound channel's version protocol. -/
  inbound : VersionProtocol
  /-- How many of the inbound protocol's messages the outbound channel has read. -/
  readByOutbound : ℕ
  /-- How many of the outbound protocol's messages the inbound channel has read. -/
  readByInbound : ℕ
  /-- The channel collections of `p2p`. -/
  network : P2p
  /-- The codes the outbound start sequence ended with, as `do_unpend` passed them on. -/
  outboundStarted : List Code
  /-- The codes the inbound start sequence ended with. -/
  inboundStarted : List Code

/-- The events of a loopback run. -/
inductive LoopbackEvent where
  /-- The next message in flight to this side arrives. -/
  | deliver (side : Side)
  /-- This side's handshake timer expires. -/
  | timer (side : Side)
  /-- This side's channel stops. -/
  | stop (side : Side)
  deriving DecidableEq, Repr

namespace Loopback

variable (L : LoopbackSetup)

/-- The version message the outbound channel sends. -/
def outboundVersion : VersionMessage :=
  versionFactory L.settings L.outboundParams L.outboundChannel.nonce

/-- The version message the inbound channel sends. -/
def inboundVersion : VersionMessage :=
  versionFactory L.settings L.inboundParams L.inboundChannel.nonce

/-- Both channels have started their version protocols, on the network `n`. -/
def start (n : P2p) : Loopback where
  outbound := VersionProtocol.start L.settings L.outboundParams
  inbound := VersionProtocol.start L.settings L.inboundParams
  readByOutbound := 0
  readByInbound := 0
  network := n
  outboundStarted := []
  inboundStarted := []

/-- The outbound handshake ends with `ec`: `session::handle_handshake` with the base
`handshake_complete`, then `do_unpend`. -/
def outboundCompleted (l : Loopback) (ec : Code) : Loopback :=
  let r := doUnpend L.outboundChannel
    (handleHandshake (handshakeComplete L.outboundChannel) l.network ec)
  { l with network := r.2, outboundStarted := l.outboundStarted ++ [r.1] }

/-- The inbound handshake ends with `ec`: `session::handle_handshake` with
`session_inbound::handshake_complete`. -/
def inboundCompleted (l : Loopback) (ec : Code) : Loopback :=
  let r := handleHandshake (inboundHandshakeComplete L.inboundChannel l.inbound.peer) l.network ec
  { l with network := r.2, inboundStarted := l.inboundStarted ++ [r.1] }

/-- An event reaches the outbound protocol; the session then runs once for each call the
protocol makes of its handler. -/
def stepOutbound (l : Loopback) (e : VersionEvent) : Loopback :=
  let p := VersionProtocol.step L.settings L.levels L.outboundParams l.outbound e
  run (outboundCompleted L) { l with outbound := p }
    (p.completions.drop l.outbound.completions.length)

/-- An event reaches the inbound protocol, and the session runs as for the outbound one. -/
def stepInbound (l : Loopback) (e : VersionEvent) : Loopback :=
  let p := VersionProtocol.step L.settings L.levels L.inboundParams l.inbound e
  run (inboundCompleted L) { l with inbound := p }
    (p.completions.drop l.inbound.completions.length)

/-- One event of a loopback run. A side reads the other's messages in the order they were sent,
and a delivery with nothing in flight does nothing. -/
def step (l : Loopback) : LoopbackEvent → Loopback
  | .deliver .outbound =>
    match l.inbound.sent[l.readByOutbound]? with
    | some msg =>
      stepOutbound L { l with readByOutbound := l.readByOutbound + 1 }
        (msg.received (inboundVersion L))
    | none => l
  | .deliver .inbound =>
    match l.outbound.sent[l.readByInbound]? with
    | some msg =>
      stepInbound L { l with readByInbound := l.readByInbound + 1 }
        (msg.received (outboundVersion L))
    | none => l
  | .timer .outbound => stepOutbound L l .timer
  | .timer .inbound => stepInbound L l .timer
  | .stop .outbound => stepOutbound L l .stop
  | .stop .inbound => stepInbound L l .stop

/-! ## The inbound check and the outbound pending set -/

/-- What every loopback run keeps: the inbound protocol is a run of the version protocol whose
peer, if any, is the outbound channel's version; the outbound channel stays pending until its
start sequence ends; and the inbound sequence succeeds only after that. -/
structure Inv (l : Loopback) : Prop where
  inbound_reachable : ∃ es, l.inbound =
    run (VersionProtocol.step L.settings L.levels L.inboundParams)
      (VersionProtocol.start L.settings L.inboundParams) es
  inbound_peer : ∀ m, l.inbound.peer = some m → m = outboundVersion L
  pended : l.outboundStarted = [] → L.outboundChannel ∈ l.network.pendingHandshake.elements
  registered : .success ∈ l.inboundStarted → l.outboundStarted ≠ []

variable {L}

theorem inv_start {n : P2p} (hn : L.outboundChannel ∈ n.pendingHandshake.elements) :
    Inv L (start L n) where
  inbound_reachable := ⟨[], rfl⟩
  inbound_peer := by simp [start, VersionProtocol.start]
  pended := fun _ ↦ hn
  registered := by simp [start]

/-- The outbound sequence ending keeps the invariant: from now on nothing is pending for it. -/
theorem inv_outboundCompleted {l : Loopback} (hl : Inv L l) (ec : Code) :
    Inv L (outboundCompleted L l ec) where
  inbound_reachable := hl.inbound_reachable
  inbound_peer := hl.inbound_peer
  pended := by simp [outboundCompleted]
  registered := by simp [outboundCompleted]

theorem inv_stepOutbound {l : Loopback} (hl : Inv L l) (e : VersionEvent) :
    Inv L (stepOutbound L l e) := by
  simp only [stepOutbound]
  exact run_invariant (I := Inv L) _ (fun _ ec h ↦ inv_outboundCompleted h ec) _
    ⟨hl.inbound_reachable, hl.inbound_peer, hl.pended, hl.registered⟩

/-- The inbound sequence ending keeps the invariant, when a success comes with the peer version
set. A success needs the peer's nonce not to be pending, so the outbound sequence has ended. -/
theorem inv_inboundCompleted {l : Loopback} (hl : Inv L l) {ec : Code}
    (hpeer : ec = .success → l.inbound.peer.isSome) : Inv L (inboundCompleted L l ec) where
  inbound_reachable := hl.inbound_reachable
  inbound_peer := hl.inbound_peer
  pended := by simpa [inboundCompleted] using hl.pended
  registered := by
    intro hs
    simp only [inboundCompleted, List.mem_append, List.mem_singleton] at hs ⊢
    rcases hs with hs | hs
    · exact hl.registered hs
    · -- The code is success, so the handshake succeeded and the check found nothing pending.
      have hec : ec = .success := by
        unfold handleHandshake at hs
        split_ifs at hs with herr
        · exact hs.symm
        · simpa [Code.isError] using herr
      obtain ⟨m, hm⟩ := Option.isSome_iff_exists.mp (hpeer hec)
      rw [hm] at hs
      have hnp := not_pending_of_inbound_success hs.symm
      rw [hl.inbound_peer m hm] at hnp
      intro hout
      have hmem := P2p.pending_of_mem (hl.pended hout)
      have hnonce : (outboundVersion L).nonce = L.outboundChannel.nonce := rfl
      rw [hnonce, hmem] at hnp
      cases hnp

/-- An event reaching the inbound protocol keeps the invariant, if it is a version message only
when it is the outbound channel's. -/
theorem inv_stepInbound {l : Loopback} (hl : Inv L l) {e : VersionEvent}
    (he : ∀ m, e = .version m → m = outboundVersion L) : Inv L (stepInbound L l e) := by
  obtain ⟨es, hes⟩ := hl.inbound_reachable
  have hreach : VersionProtocol.step L.settings L.levels L.inboundParams l.inbound e =
      run (VersionProtocol.step L.settings L.levels L.inboundParams)
        (VersionProtocol.start L.settings L.inboundParams) (es ++ [e]) := by
    rw [run_concat, ← hes]
  have hpeer : ∀ m, (VersionProtocol.step L.settings L.levels L.inboundParams l.inbound e).peer =
      some m → m = outboundVersion L := by
    intro m hm
    rcases VersionProtocol.step_peer l.inbound e with hkeep | ⟨m', rfl, hm'⟩
    · exact hl.inbound_peer m (hkeep ▸ hm)
    · rw [hm', Option.some.injEq] at hm
      rw [← hm]
      exact he m' rfl
  simp only [stepInbound]
  generalize VersionProtocol.step L.settings L.levels L.inboundParams l.inbound e = p at hreach hpeer
  have hl' : Inv L { l with inbound := p } := ⟨⟨_, hreach⟩, hpeer, hl.pended, hl.registered⟩
  -- Every call of the session's handler is one the protocol recorded, and a recorded success
  -- means the peer version is set.
  refine (run_invariant_of_mem (I := fun x ↦ Inv L x ∧ x.inbound = p) _ _ ?_ ⟨hl', rfl⟩).1
  rintro x ec hec ⟨hx, hxp⟩
  refine ⟨inv_inboundCompleted hx fun hs ↦ ?_, hxp⟩
  rw [hs, hreach] at hec
  obtain ⟨m, hm⟩ := Handshake.peer_of_success L.settings L.levels L.inboundParams
    (List.mem_of_mem_drop hec)
  rw [hxp, hreach, hm]
  rfl

theorem inv_step {l : Loopback} (hl : Inv L l) (e : LoopbackEvent) : Inv L (step L l e) := by
  cases e with
  | deliver side =>
    cases side with
    | outbound =>
      simp only [step]
      split
      · refine inv_stepOutbound ?_ _
        exact ⟨hl.inbound_reachable, hl.inbound_peer, hl.pended, hl.registered⟩
      · exact hl
    | inbound =>
      simp only [step]
      split
      · refine inv_stepInbound ?_ fun m hm ↦ VersionSent.eq_of_received hm
        exact ⟨hl.inbound_reachable, hl.inbound_peer, hl.pended, hl.registered⟩
      · exact hl
  | timer side => cases side <;> simp only [step] <;> first
      | exact inv_stepOutbound hl _
      | exact inv_stepInbound hl nofun
  | stop side => cases side <;> simp only [step] <;> first
      | exact inv_stepOutbound hl _
      | exact inv_stepInbound hl nofun

/-- **The loopback check works only one way round.** In every run from a network where the
outbound channel is pending, the inbound start sequence succeeds only after the outbound one
has ended, that is, only once the outbound channel is no longer pending. -/
theorem inboundStarted_success_outbound_ended (n : P2p)
    (hn : L.outboundChannel ∈ n.pendingHandshake.elements) (es : List LoopbackEvent)
    (hs : .success ∈ (run (step L) (start L n) es).inboundStarted) :
    (run (step L) (start L n) es).outboundStarted ≠ [] :=
  (run_invariant (I := Inv L) _ (fun _ e h ↦ inv_step h e) es (inv_start hn)).registered hs

/-! ## Both channels register -/

/-- A node at the default protocol levels whose configured services are `node_network`,
connected to itself on 127.0.0.1:8333 from port 50000. The outbound session requires
`node_network` of its peer, the inbound one nothing. -/
def selfConnection : LoopbackSetup where
  settings := ⟨31402, 70013, 176⟩
  levels := ⟨31402, 70013⟩
  outboundParams := ⟨1, 1, true⟩
  inboundParams := ⟨1, 0, true⟩
  outboundChannel := ⟨1, 0x1234, ⟨0x7f000001, 8333⟩⟩
  inboundChannel := ⟨2, 0x5678, ⟨0x7f000001, 50000⟩⟩

/-- The network as the outbound session left it: only the outbound channel pending, no channel
open. -/
def selfConnectionNetwork : P2p :=
  ⟨⟨false, [selfConnection.outboundChannel]⟩, ⟨false, []⟩⟩

/-- The order of the four handshake messages: the two versions cross, then the inbound side's
verack reaches the outbound side before the outbound side's verack reaches the inbound one. -/
def veracksCrossLate : List LoopbackEvent :=
  [.deliver .outbound, .deliver .inbound, .deliver .outbound, .deliver .inbound]

/-- In that order the outbound handshake completes first and unpends its channel, so the inbound
check finds nothing pending: both start sequences succeed and both channels of the connection to
itself are open. -/
theorem loopback_both_registered :
    (run (step selfConnection) (start selfConnection selfConnectionNetwork)
        veracksCrossLate).outboundStarted = [.success] ∧
      (run (step selfConnection) (start selfConnection selfConnectionNetwork)
        veracksCrossLate).inboundStarted = [.success] ∧
      (run (step selfConnection) (start selfConnection selfConnectionNetwork)
        veracksCrossLate).network.pendingClose.elements =
        [selfConnection.outboundChannel, selfConnection.inboundChannel] := by
  decide

/-- In that run the inbound success indeed comes after the outbound start sequence ended. -/
theorem inboundStarted_success_outbound_ended_selfConnection :
    selfConnection.outboundChannel ∈ selfConnectionNetwork.pendingHandshake.elements ∧
      .success ∈ (run (step selfConnection) (start selfConnection selfConnectionNetwork)
        veracksCrossLate).inboundStarted ∧
      (run (step selfConnection) (start selfConnection selfConnectionNetwork)
        veracksCrossLate).outboundStarted ≠ [] := by
  have hn : selfConnection.outboundChannel ∈ selfConnectionNetwork.pendingHandshake.elements := by
    decide
  have hs : .success ∈ (run (step selfConnection) (start selfConnection selfConnectionNetwork)
      veracksCrossLate).inboundStarted := by decide
  exact ⟨hn, hs, inboundStarted_success_outbound_ended selfConnectionNetwork hn veracksCrossLate hs⟩

end Loopback

end Network
