import BitprimNetwork.Sessions.Channel
import BitprimNetwork.Protocols.Ping
import BitprimNetwork.Protocols.SeedProtocol

/-!
# Every stop of a channel is a failure

`proxy::stop(ec)` asserts that `ec` is a failure. This file gathers the callers of it in the
library and shows that none of them passes success:

* the proxy itself, when a read or a send fails and when a heading or a payload fails a test
  (`handle_read_heading`, `handle_read_payload`, `handle_send`);
* the channel's two timers (`handle_expiration`, `handle_inactivity`);
* `session::handle_start`, when the start sequence of a channel fails;
* the protocols, through `protocol::stop`: ping (`protocol_ping_31402::send_ping` and the
  handlers of `protocol_ping_60001`), address (`handle_store_addresses`), reject
  (`handle_receive_reject`), seed (`handle_seeding_complete`), and the version protocol, whose
  completion the session passes on;
* `p2p::stop`, through the `stop` of its channel collections.

A socket error reaches `proxy::stop(const boost_code&)`, which converts it with
`error::boost_to_error_code` of bitprim-core. The models take the conversion as a parameter
`toCode`, and the result assumes what bitprim-core promises of it: a non-zero socket error
converts to a failure.

## The callers as one predicate

`StopCall toCode ec` says that some caller, in some run of its model, calls `proxy::stop(ec)`.
Two of the callers take in stops made elsewhere: the read cycle stops the channel with what an
invoked handler asked for, and a session's channel is stopped by code outside its read cycle.
Their constructors ask that those stops be stop calls themselves, so `StopCall` is the least set
of codes closed under every caller, and `stopCall_isError` is one induction over it, with one
case per caller.

Of the seed protocol the result asks more: its `handle_seeding_complete` passes its join's code
to `stop` unchanged, and that code is a failure because at most two successes ever reach the
three-count join (`SeedProtocol.Reachable.count_success_le`).
-/

namespace Network

open Async

/-! ## The handlers that test `stopped(ec)` first -/

/-- The shape shared by the timer handlers of `channel` and the handlers of the address, reject
and ping protocols: nothing happens once `stopped(ec)` holds (the channel or the protocol has
stopped, or `ec` is one of the two stop codes); otherwise the handler stops the channel with
`code` when its test `fails`. -/
def stopUnlessStopped (stopped : Bool) (ec : Code) (fails : Bool) (code : Code) : Option Code :=
  if stopped || ec.isStop then none
  else if fails then some code
  else none

theorem stopUnlessStopped_isError {stopped fails : Bool} {ec code x : Code}
    (h : stopUnlessStopped stopped ec fails code = some x) (hcode : fails = true → code.isError) :
    x.isError := by
  unfold stopUnlessStopped at h
  split_ifs at h with hstop hfails
  cases h
  exact hcode hfails

namespace Channel

/-- `channel::handle_expiration`: the channel's lifetime is over. -/
def handleExpiration (stopped : Bool) (ec : Code) : Option Code :=
  stopUnlessStopped stopped ec true .channelTimeout

/-- `channel::handle_inactivity`: the peer has been silent too long. -/
def handleInactivity (stopped : Bool) (ec : Code) : Option Code :=
  stopUnlessStopped stopped ec true .channelTimeout

end Channel

/-- `protocol_address_31402::handle_store_addresses`: the host pool failed to store the peer's
addresses. -/
def ProtocolAddress31402.handleStoreAddresses (stopped : Bool) (ec : Code) : Option Code :=
  stopUnlessStopped stopped ec ec.isError ec

/-- `protocol_reject_70002::handle_receive_reject`: a failed subscription stops the channel with
`channel_stopped`, whatever the failure. -/
def ProtocolReject70002.handleReceiveReject (stopped : Bool) (ec : Code) : Option Code :=
  stopUnlessStopped stopped ec ec.isError .channelStopped

/-- `protocol_ping_31402::send_ping`: the ping timer's `channel_timeout` is its period coming
round, and only another failure stops the channel. -/
def ProtocolPing31402.sendPing (stopped : Bool) (ec : Code) : Option Code :=
  stopUnlessStopped stopped ec (ec.isError && ec != .channelTimeout) ec

/-! ## The proxy's own failures -/

namespace Proxy

variable (toCode : ℕ → Code)

/-- The test that opens `proxy::handle_read_heading` and `proxy::handle_read_payload`: a running
proxy whose read failed with the socket error `ec` stops with its conversion. A read that
succeeded goes on to the tests of the read cycle. -/
def readFailure (stopped : Bool) (ec : ℕ) : Option Code :=
  if stopped then none
  else if ec ≠ 0 then some (toCode ec)
  else none

/-- `proxy::handle_send`: the send's handler gets the converted code, and a running proxy stops
with it when it is a failure. -/
def handleSend (stopped : Bool) (ec : ℕ) : Option Code :=
  let error := toCode ec
  if stopped then none
  else if error.isError then some error
  else none

variable {toCode}

theorem readFailure_isError (hboost : ∀ ec, ec ≠ 0 → (toCode ec).isError) {stopped : Bool}
    {ec : ℕ} {x : Code} (h : readFailure toCode stopped ec = some x) : x.isError := by
  unfold readFailure at h
  split_ifs at h with hstop hec
  cases h
  exact hboost ec hec

theorem handleSend_isError {stopped : Bool} {ec : ℕ} {x : Code}
    (h : handleSend toCode stopped ec = some x) : x.isError := by
  unfold handleSend at h
  dsimp only at h
  split_ifs at h with hstop herror
  cases h
  exact herror

end Proxy

/-! ## The callers of `proxy::stop` -/

/-- `StopCall toCode ec`: some caller calls `proxy::stop(ec)` in some run of its model. -/
inductive StopCall (toCode : ℕ → Code) : Code → Prop
  /-- `handle_read_heading` or `handle_read_payload` after a failed read. -/
  | readFailure {stopped : Bool} {ec : ℕ} {x : Code} :
      Proxy.readFailure toCode stopped ec = some x → StopCall toCode x
  /-- `handle_send` after a failed send. -/
  | handleSend {stopped : Bool} {ec : ℕ} {x : Code} :
      Proxy.handleSend toCode stopped ec = some x → StopCall toCode x
  /-- The read cycle over any bytes, on a proxy stopped only by stop calls so far, with
  subscribers whose invoked handlers stop the channel only by stop calls: its tests of headings
  and payloads, and what the handlers asked for. -/
  | readCycle {σ Message : Type} (w : Wire Message) (cfg : ProxySettings)
      (subs : Subscribers σ Message) (p : Proxy σ Message) (bytes : List UInt8) {x : Code}
      (hp : ∀ ec ∈ p.stops, StopCall toCode ec)
      (hsubs : ∀ st version type m ec,
        (subs.invoke st version type m).2.stop = some ec → StopCall toCode ec) :
      x ∈ (readCycle w cfg subs p bytes).stops → StopCall toCode x
  /-- A session's channel from the start of its read cycle, stopped from elsewhere only by stop
  calls: its read cycle, its version protocol and its start sequence. -/
  | channelRun (w : Wire PeerMessage) (cfg : ProxySettings) (C : ChannelSetup)
      (es : List ChannelEvent) {x : Code}
      (hes : ∀ ec, ChannelEvent.stop ec ∈ es → StopCall toCode ec) :
      x ∈ (ChannelRun.ofEvents w cfg C es).proxy.stops → StopCall toCode x
  /-- `channel::handle_expiration`. -/
  | handleExpiration {stopped : Bool} {ec x : Code} :
      Channel.handleExpiration stopped ec = some x → StopCall toCode x
  /-- `channel::handle_inactivity`. -/
  | handleInactivity {stopped : Bool} {ec x : Code} :
      Channel.handleInactivity stopped ec = some x → StopCall toCode x
  /-- `session::handle_start`, in any run of the start sequence of any session. -/
  | handleStart (kind : SessionKind) (c : Channel) (sessionStopped : Bool) (n : P2p)
      (es : List RegistrationEvent) {x : Code} :
      x ∈ (run (Registration.step kind c) (Registration.register kind c sessionStopped n) es).stopCalls →
        StopCall toCode x
  /-- The handlers of `protocol_ping_60001`, in any run of the protocol. -/
  | ping {s : Ping} {x : Code} : Ping.Reachable s → x ∈ s.stops → StopCall toCode x
  /-- `protocol_ping_31402::send_ping`. -/
  | sendPing {stopped : Bool} {ec x : Code} :
      ProtocolPing31402.sendPing stopped ec = some x → StopCall toCode x
  /-- `protocol_address_31402::handle_store_addresses`. -/
  | handleStoreAddresses {stopped : Bool} {ec x : Code} :
      ProtocolAddress31402.handleStoreAddresses stopped ec = some x → StopCall toCode x
  /-- `protocol_reject_70002::handle_receive_reject`. -/
  | handleReceiveReject {stopped : Bool} {ec x : Code} :
      ProtocolReject70002.handleReceiveReject stopped ec = some x → StopCall toCode x
  /-- `protocol_seed_31402::handle_seeding_complete`, in any run of the protocol. -/
  | seed {s : SeedProtocol} {x : Code} : SeedProtocol.Reachable s → x ∈ s.stops → StopCall toCode x
  /-- `p2p::stop`, on any channel collections. -/
  | p2pStop (n : P2p) {c : Channel} {x : Code} : (c, x) ∈ n.stop.2 → StopCall toCode x

/-- **No caller passes success.** When `boost_to_error_code` converts every socket error to a
failure, every code any caller passes to `proxy::stop` is a failure. -/
theorem stopCall_isError {toCode : ℕ → Code} (hboost : ∀ ec, ec ≠ 0 → (toCode ec).isError)
    {x : Code} (h : StopCall toCode x) : x.isError := by
  induction h with
  | readFailure h => exact Proxy.readFailure_isError hboost h
  | handleSend h => exact Proxy.handleSend_isError h
  | readCycle w cfg subs p bytes hp hsubs hx ihp ihsubs =>
    -- the induction hypotheses say the stops the cycle takes in are failures
    exact readCycle_stops w cfg ihsubs ihp bytes _ hx
  | channelRun w cfg C es hes hx ihes => exact ChannelRun.stops_ofEvents ihes _ hx
  | handleExpiration h => exact stopUnlessStopped_isError h fun _ ↦ rfl
  | handleInactivity h => exact stopUnlessStopped_isError h fun _ ↦ rfl
  | handleStart kind c sessionStopped n es hx => exact Registration.stopCalls_run sessionStopped n es _ hx
  | ping hs hx => exact hs.stops_isError _ hx
  | sendPing h =>
    refine stopUnlessStopped_isError h fun hfails ↦ ?_
    exact (Bool.and_eq_true_iff.1 hfails).1
  | handleStoreAddresses h => exact stopUnlessStopped_isError h id
  | handleReceiveReject h => exact stopUnlessStopped_isError h fun _ ↦ rfl
  | seed hs hx => exact hs.stops_isError _ hx
  | p2pStop n hx =>
    rw [P2p.eq_serviceStopped_of_mem_stop hx]
    rfl


/-! ## The assertion of `proxy::stop` -/

/-- **`proxy::stop` never receives success.** When `boost_to_error_code` converts every socket
error to a failure, every caller passes `proxy::stop` a failure; and in every run of the seed
protocol at most two successes reach its three-count join, so `handle_seeding_complete` is only
ever called with a failure. -/
theorem proxy_stop_receives_failure {toCode : ℕ → Code}
    (hboost : ∀ ec, ec ≠ 0 → (toCode ec).isError) :
    (∀ x, StopCall toCode x → x.isError) ∧
      ∀ s : SeedProtocol, SeedProtocol.Reachable s →
        s.joined.count .success ≤ 2 ∧ ∀ ec ∈ s.handled, ec.isError := by
  constructor
  · intro x h
    exact stopCall_isError hboost h
  · intro s hs
    exact ⟨hs.count_success_le, hs.inv.handled⟩

/-- The assertion holds under a conversion that keeps every socket error apart. -/
theorem proxy_stop_receives_failure_converted :
    (∀ ec, ec ≠ 0 → (if ec = 0 then Code.success else Code.other ec).isError) ∧
      (∀ x, StopCall (fun ec ↦ if ec = 0 then Code.success else Code.other ec) x → x.isError) ∧
        ∀ s : SeedProtocol, SeedProtocol.Reachable s →
          s.joined.count .success ≤ 2 ∧ ∀ ec ∈ s.handled, ec.isError := by
  have hboost : ∀ ec, ec ≠ 0 → (if ec = 0 then Code.success else Code.other ec).isError := by
    intro ec hec
    simp [hec, Code.isError]
  exact ⟨hboost, proxy_stop_receives_failure hboost⟩

end Network
