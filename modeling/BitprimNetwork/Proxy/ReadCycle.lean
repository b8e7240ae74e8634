import BitprimNetwork.Core

/-!
# The proxy read cycle

A channel reads its socket in a cycle (`proxy.cpp`): `read_heading` asks for
`heading::maximum_size()` bytes, `handle_read_heading` decodes and checks the heading,
`read_payload` asks for the `payload_size` bytes it announces, and `handle_read_payload` checks
the payload, hands it to `message_subscriber::load`, and goes round again. The first failed
check stops the channel, and a stopped channel reads nothing more.

`load` decodes the payload with the message type's `from_data` at the channel's current
negotiated version and, on success, notifies the type's subscribers: block, transaction, verack
and version messages are *invoked* — their handlers run before `load` returns — and every other
type is *relayed*, its handlers running later. Only after `load` returns does the proxy test
whether the decoder consumed the whole payload.

## The model

The heading decoder, the checksum and the message decoders belong to bitprim-core and are the
parameters collected in `Wire`. The subscribers are a parameter too: `Subscribers` says what an
invoked handler may do to its channel before the cycle continues — set the negotiated version,
or stop the channel — and what a relay does to the subscribers' state. The proxy records every
message it hands to subscribers in `delivered` and every code it stops with in `stops`.

`readCycle` runs the cycle over the bytes a peer has sent so far; a read that asks for more
bytes than remain is pending, and the cycle rests there. `readFrame` is one turn of the cycle on
a frame that has fully arrived, the unit the channel-level models step by.
-/

namespace Network

/-- The fields of a decoded heading (`message::heading`) that the read cycle reads. -/
structure Heading where
  /-- `is_valid()`. -/
  valid : Bool
  /-- `magic()`. -/
  magic : ℕ
  /-- `payload_size()`. -/
  payloadSize : ℕ
  /-- `checksum()`. -/
  checksum : ℕ
  /-- `type()`, the message type named by the heading's command. -/
  type : MessageType
  deriving DecidableEq, Repr

/-- What the read cycle uses of bitprim-core's message library. `fromData t v payload` decodes a
message of type `t` at protocol version `v`; it returns the message and the number of payload
bytes left unread after it, or `none` when decoding fails. -/
structure Wire (Message : Type) where
  /-- `heading::maximum_size()`, the fixed size of a heading. -/
  maximumSize : ℕ
  maximumSize_pos : 0 < maximumSize
  /-- `heading::factory_from_data`. -/
  factoryFromData : List UInt8 → Heading
  /-- `bitcoin_checksum`. -/
  bitcoinChecksum : List UInt8 → ℕ
  /-- `Message::from_data` for each message type. -/
  fromData : MessageType → ℕ → List UInt8 → Option (Message × ℕ)

/-- The settings a proxy fixes at construction. -/
structure ProxySettings where
  /-- `settings.identifier`, the network magic. -/
  protocolMagic : ℕ
  /-- `heading::maximum_payload_size(protocol_maximum, witness)`. -/
  maximumPayload : ℕ
  /-- `settings.validate_checksum`. -/
  validateChecksum : Bool

/-- How `message_subscriber::load` notifies the subscribers of a message. -/
inductive Notify where
  /-- `handle`: `subscriber->invoke`, the handlers run before `load` returns. -/
  | invoke
  /-- `relay`: `subscriber->relay`, the handlers run later. -/
  | relay
  deriving DecidableEq, Repr

/-- The dispatch table of `message_subscriber::load`: `none` for an unknown type. -/
def loadNotify : MessageType → Option Notify
  | .unknown => none
  | .block | .transaction | .verack | .version => some .invoke
  | _ => some .relay

/-- What an invoked handler does to its channel before control returns to the read cycle. -/
structure Effect where
  /-- `set_negotiated_version`. -/
  setVersion : Option ℕ
  /-- `stop`, with its code. -/
  stop : Option Code

/-- The subscribers behind `message_subscriber`, with state `σ`. -/
structure Subscribers (σ Message : Type) where
  /-- Invoke the handlers of a message now, given the channel's negotiated version. -/
  invoke : σ → ℕ → MessageType → Message → σ × Effect
  /-- Relay a message to the handlers, to run later. -/
  relay : σ → MessageType → Message → σ

/-- The read side of a proxy. -/
structure Proxy (σ Message : Type) where
  /-- `stopped_`. -/
  stopped : Bool
  /-- `version_`, the negotiated version that payloads are decoded at. -/
  version : ℕ
  /-- The codes `stop` was called with, in order. -/
  stops : List Code
  /-- The messages handed to subscribers, in order, with their types. -/
  delivered : List (MessageType × Message)
  /-- The subscribers' state. -/
  subscribers : σ

variable {σ Message : Type}

namespace Proxy

/-- `proxy::stop`: it is not short-circuited, so every call is recorded. -/
def stop (p : Proxy σ Message) (ec : Code) : Proxy σ Message :=
  { p with stopped := true, stops := p.stops ++ [ec] }

/-- Apply what an invoked handler did to the channel. -/
def apply (p : Proxy σ Message) (e : Effect) : Proxy σ Message :=
  let p := match e.setVersion with
    | some v => { p with version := v }
    | none => p
  match e.stop with
  | some ec => p.stop ec
  | none => p

@[simp] theorem stop_stopped (p : Proxy σ Message) (ec : Code) : (p.stop ec).stopped = true := rfl

@[simp] theorem stop_stops (p : Proxy σ Message) (ec : Code) :
    (p.stop ec).stops = p.stops ++ [ec] := rfl

@[simp] theorem stop_delivered (p : Proxy σ Message) (ec : Code) :
    (p.stop ec).delivered = p.delivered := rfl

@[simp] theorem stop_version (p : Proxy σ Message) (ec : Code) :
    (p.stop ec).version = p.version := rfl

@[simp] theorem apply_delivered (p : Proxy σ Message) (e : Effect) :
    (p.apply e).delivered = p.delivered := by
  unfold apply; split <;> split <;> rfl

theorem apply_stopped (p : Proxy σ Message) (e : Effect) :
    (p.apply e).stopped = (p.stopped || e.stop.isSome) := by
  unfold apply; split <;> split <;> simp_all [stop]

@[simp] theorem stop_subscribers (p : Proxy σ Message) (ec : Code) :
    (p.stop ec).subscribers = p.subscribers := rfl

@[simp] theorem apply_subscribers (p : Proxy σ Message) (e : Effect) :
    (p.apply e).subscribers = p.subscribers := by
  unfold apply; split <;> split <;> rfl

@[simp] theorem apply_version (p : Proxy σ Message) (e : Effect) :
    (p.apply e).version = e.setVersion.getD p.version := by
  unfold apply; split <;> split <;> simp_all [stop]

end Proxy

section Cycle

variable (w : Wire Message) (cfg : ProxySettings) (subs : Subscribers σ Message)

/-- The checks of `handle_read_heading`, in order: the code the channel stops with, if any. -/
def headingError (head : Heading) : Option Code :=
  if !head.valid then some .badStream
  else if head.magic ≠ cfg.protocolMagic then some .badStream
  else if cfg.maximumPayload < head.payloadSize then some .badStream
  else none

/-- `message_subscriber::load` followed by the notification it makes: the code it returns, the
proxy after the notification, and the number of payload bytes the decoder left unread. -/
def load (p : Proxy σ Message) (type : MessageType) (payload : List UInt8) :
    Code × Proxy σ Message × ℕ :=
  match loadNotify type with
  | none => (.notFound, p, payload.length)
  | some mode =>
    match w.fromData type p.version payload with
    | none => (.badStream, p, payload.length)
    | some (m, unread) =>
      let p := { p with delivered := p.delivered ++ [(type, m)] }
      match mode with
      | .relay => (.success, { p with subscribers := subs.relay p.subscribers type m }, unread)
      | .invoke =>
        let r := subs.invoke p.subscribers p.version type m
        (.success, { p with subscribers := r.1 }.apply r.2, unread)

/-- `handle_read_payload` on a payload that has fully arrived. -/
def handleReadPayload (p : Proxy σ Message) (head : Heading) (payload : List UInt8) :
    Proxy σ Message :=
  if p.stopped then p
  else if cfg.validateChecksum ∧ head.checksum ≠ w.bitcoinChecksum payload then p.stop .badStream
  else
    -- A failed decode delivers nothing; the trailing-bytes test comes after `load` notified.
    match load w subs p head.type payload with
    | (code, p', unread) =>
      if code ≠ .success then p'.stop code
      else if unread ≠ 0 then p'.stop .badStream
      else p'

/-- One turn of the cycle on a frame whose heading and payload have both arrived:
`handle_read_heading` and, when its checks pass, `handle_read_payload`. -/
def readFrame (p : Proxy σ Message) (head : Heading) (payload : List UInt8) : Proxy σ Message :=
  if p.stopped then p
  else
    match headingError cfg head with
    | some ec => p.stop ec
    | none => handleReadPayload w cfg subs p head payload

/-- The read cycle over the bytes a peer has sent. It rests when the next read asks for more
bytes than remain. -/
def readCycle (p : Proxy σ Message) (bytes : List UInt8) : Proxy σ Message :=
  if p.stopped then p
  else if bytes.length < w.maximumSize then p
  else
    let head := w.factoryFromData (bytes.take w.maximumSize)
    match headingError cfg head with
    | some ec => p.stop ec
    | none =>
      let rest := bytes.drop w.maximumSize
      if rest.length < head.payloadSize then p
      else readCycle (handleReadPayload w cfg subs p head (rest.take head.payloadSize))
        (rest.drop head.payloadSize)
termination_by bytes.length
decreasing_by
  have := w.maximumSize_pos
  simp only [List.length_drop]
  omega

end Cycle

end Network

/-! ## One payload -/

namespace Network

variable {σ Message : Type} (w : Wire Message) (cfg : ProxySettings) (subs : Subscribers σ Message)

/-- The message `load` hands to subscribers, if any: the type must be known and the payload
must decode at the channel's version. -/
def decoded (p : Proxy σ Message) (type : MessageType) (payload : List UInt8) : Option Message :=
  match loadNotify type with
  | none => none
  | some _ => (w.fromData type p.version payload).map Prod.fst

/-- `load` delivers exactly the decoded message. -/
theorem load_delivered (p : Proxy σ Message) (type : MessageType) (payload : List UInt8) :
    (load w subs p type payload).2.1.delivered =
      p.delivered ++ ((decoded w p type payload).map fun m ↦ (type, m)).toList := by
  unfold load decoded
  rcases loadNotify type with _ | mode
  · simp
  · rcases h : w.fromData type p.version payload with _ | ⟨m, unread⟩
    · simp
    · cases mode <;> simp

/-- `load` succeeds exactly when it decodes a message. -/
theorem load_code_eq_success (p : Proxy σ Message) (type : MessageType) (payload : List UInt8) :
    (load w subs p type payload).1 = .success ↔ (decoded w p type payload).isSome := by
  unfold load decoded
  rcases loadNotify type with _ | mode
  · simp
  · rcases h : w.fromData type p.version payload with _ | ⟨m, unread⟩
    · simp
    · cases mode <;> simp

/-- **What one payload delivers.** A running channel whose checksum test passes hands the
decoded message to subscribers, whatever the decoder left unread; otherwise nothing is
delivered. -/
theorem handleReadPayload_delivered (p : Proxy σ Message) (head : Heading)
    (payload : List UInt8) :
    (handleReadPayload w cfg subs p head payload).delivered =
      if p.stopped ∨ (cfg.validateChecksum ∧ head.checksum ≠ w.bitcoinChecksum payload) then
        p.delivered
      else p.delivered ++ ((decoded w p head.type payload).map fun m ↦ (head.type, m)).toList := by
  unfold handleReadPayload
  by_cases hs : p.stopped
  · simp [hs]
  · by_cases hc : cfg.validateChecksum ∧ head.checksum ≠ w.bitcoinChecksum payload
    · simp [hs, hc]
    · simp only [hs, hc, Bool.false_eq_true, if_false, or_self]
      have hd := load_delivered w subs p head.type payload
      rcases h : load w subs p head.type payload with ⟨code, p', unread⟩
      rw [h] at hd
      split_ifs <;> simpa using hd

end Network

/-! ## The cycle, frame by frame -/

namespace Network

variable {σ Message : Type} (w : Wire Message) (cfg : ProxySettings) (subs : Subscribers σ Message)

/-- A stopped channel reads nothing more. -/
theorem readCycle_of_stopped {p : Proxy σ Message} (h : p.stopped) (bytes : List UInt8) :
    readCycle w cfg subs p bytes = p := by
  rw [readCycle, if_pos h]

/-- A heading that fails a check stops the channel with its code. -/
theorem readCycle_of_headingError {p : Proxy σ Message} (h : ¬p.stopped) {bytes : List UInt8}
    (hlen : w.maximumSize ≤ bytes.length) {ec : Code}
    (hhead : headingError cfg (w.factoryFromData (bytes.take w.maximumSize)) = some ec) :
    readCycle w cfg subs p bytes = p.stop ec := by
  rw [readCycle, if_neg h, if_neg (by omega)]
  simp only [hhead]

/-- A frame that has fully arrived, with a heading that passes its checks, is handled and the
cycle goes on with the bytes after it. -/
theorem readCycle_of_frame {p : Proxy σ Message} (h : ¬p.stopped) (headBytes payload rest : List UInt8)
    (hlen : headBytes.length = w.maximumSize)
    (hhead : headingError cfg (w.factoryFromData headBytes) = none)
    (hsize : (w.factoryFromData headBytes).payloadSize = payload.length) :
    readCycle w cfg subs p (headBytes ++ payload ++ rest) =
      readCycle w cfg subs (handleReadPayload w cfg subs p (w.factoryFromData headBytes) payload)
        rest := by
  have htake : (headBytes ++ payload ++ rest).take w.maximumSize = headBytes := by
    rw [List.append_assoc, ← hlen, List.take_left]
  have hdrop : (headBytes ++ payload ++ rest).drop w.maximumSize = payload ++ rest := by
    rw [List.append_assoc, ← hlen, List.drop_left]
  rw [readCycle, if_neg h, if_neg (by simp; omega)]
  simp only [htake, hhead, hdrop, hsize, List.length_append, List.take_left, List.drop_left]
  rw [if_neg (by omega)]

/-! ## A ping with one byte too many

A frame whose payload decodes but leaves bytes unread. The heading and ping decoders below
follow bitprim-core on this input: a heading is the little-endian magic, the twelve-byte
command, the payload size and the checksum; a ping at version 60001 or later is its eight-byte
nonce. The peer sends a mainnet `ping` heading announcing nine payload bytes, then the nonce `1`
and one more byte. -/

/-- The little-endian value of a byte string. -/
def littleEndian (bytes : List UInt8) : ℕ := bytes.foldr (fun b acc ↦ b.toNat + 256 * acc) 0

/-- The heading layout and the ping decoder of bitprim-core, on ping messages. -/
def pingWire : Wire ℕ where
  maximumSize := 24
  maximumSize_pos := by decide
  factoryFromData bytes :=
    { valid := true
      magic := littleEndian (bytes.take 4)
      payloadSize := littleEndian ((bytes.drop 16).take 4)
      checksum := littleEndian ((bytes.drop 20).take 4)
      type := if (bytes.drop 4).take 12 = [0x70, 0x69, 0x6e, 0x67, 0, 0, 0, 0, 0, 0, 0, 0]
        then .ping else .unknown }
  bitcoinChecksum _ := 0
  fromData type version payload :=
    match type with
    | .ping =>
      if 60001 ≤ version then
        if 8 ≤ payload.length then some (littleEndian (payload.take 8), payload.length - 8)
        else none
      else some (0, payload.length)
    | _ => none

/-- Mainnet magic, the pre-witness payload limit, and no checksum validation (the default). -/
def mainnetProxySettings : ProxySettings := ⟨0xd9b4bef9, 1800003, false⟩

/-- Subscribers that do nothing to the channel. -/
def quietSubscribers : Subscribers Unit ℕ := ⟨fun _ _ _ _ ↦ ((), ⟨none, none⟩), fun _ _ _ ↦ ()⟩

/-- A freshly started channel at protocol version 70013. -/
def startedProxy : Proxy Unit ℕ := ⟨false, 70013, [], [], ()⟩

/-- A ping heading announcing nine bytes, the eight-byte nonce `1`, and a trailing byte. -/
def pingWithTrailingByte : List UInt8 :=
  [0xf9, 0xbe, 0xb4, 0xd9, 0x70, 0x69, 0x6e, 0x67, 0, 0, 0, 0, 0, 0, 0, 0, 9, 0, 0, 0, 0, 0, 0, 0,
    1, 0, 0, 0, 0, 0, 0, 0, 0xff]

/-- The frame with a trailing byte is delivered to the ping subscribers, and only then is the
channel stopped with `bad_stream`. -/
theorem readCycle_delivers_trailing_bytes :
    (readCycle pingWire mainnetProxySettings quietSubscribers startedProxy
        pingWithTrailingByte).delivered = [(.ping, 1)] ∧
      (readCycle pingWire mainnetProxySettings quietSubscribers startedProxy
        pingWithTrailingByte).stops = [.badStream] := by
  have hsplit : pingWithTrailingByte =
      pingWithTrailingByte.take 24 ++ [1, 0, 0, 0, 0, 0, 0, 0, 0xff] ++ [] := rfl
  rw [hsplit, readCycle_of_frame pingWire mainnetProxySettings quietSubscribers (by decide) _ _ _
    rfl (by decide) (by decide), readCycle_of_stopped _ _ _ (by decide)]
  exact ⟨rfl, rfl⟩

end Network

/-! ## What a frame does to the subscribers

Whatever the checks decide, a frame reaches the subscribers in at most one way: `load` relays
one decoded message, or invokes its handlers and applies what they asked for. Models of the
channel above the read cycle step by this one fact and never unfold `readFrame`. -/

namespace Network

variable {σ Message : Type} (w : Wire Message) (cfg : ProxySettings) (subs : Subscribers σ Message)

/-- The ways the read cycle can take the subscribers' state and the channel's version from `p` to
`q` on a frame of type `type`: leave them alone, relay one message, or invoke the handlers of one
message and apply what they asked for, a stop they asked for leaving the channel stopped. -/
def SubscribersStep (p q : Proxy σ Message) (type : MessageType) : Prop :=
  (q.subscribers = p.subscribers ∧ q.version = p.version) ∨
  (∃ m, loadNotify type = some .relay ∧ q.subscribers = subs.relay p.subscribers type m ∧
    q.version = p.version) ∨
  (∃ m, loadNotify type = some .invoke ∧
    q.subscribers = (subs.invoke p.subscribers p.version type m).1 ∧
    q.version = (subs.invoke p.subscribers p.version type m).2.setVersion.getD p.version ∧
    ((subs.invoke p.subscribers p.version type m).2.stop.isSome → q.stopped))

theorem subscribersStep_refl (p : Proxy σ Message) (type : MessageType) :
    SubscribersStep subs p p type :=
  .inl ⟨rfl, rfl⟩

/-- A stop after the handlers changes neither the subscribers nor the version. -/
theorem SubscribersStep.stop {p q : Proxy σ Message} {type : MessageType}
    (h : SubscribersStep subs p q type) (ec : Code) : SubscribersStep subs p (q.stop ec) type := by
  rcases h with ⟨hs, hv⟩ | ⟨m, hn, hs, hv⟩ | ⟨m, hn, hs, hv, -⟩
  · exact .inl ⟨hs, hv⟩
  · exact .inr (.inl ⟨m, hn, hs, hv⟩)
  · exact .inr (.inr ⟨m, hn, hs, hv, fun _ ↦ rfl⟩)

theorem load_subscribersStep (p : Proxy σ Message) (type : MessageType) (payload : List UInt8) :
    SubscribersStep subs p (load w subs p type payload).2.1 type := by
  unfold load
  rcases hn : loadNotify type with _ | mode
  · exact subscribersStep_refl subs p type
  · rcases w.fromData type p.version payload with _ | ⟨m, unread⟩
    · exact subscribersStep_refl subs p type
    · cases mode with
      | relay => exact .inr (.inl ⟨m, hn, rfl, rfl⟩)
      | invoke =>
        refine .inr (.inr ⟨m, hn, by simp, by simp, fun h ↦ ?_⟩)
        simp [Proxy.apply_stopped, h]

theorem handleReadPayload_subscribersStep (p : Proxy σ Message) (head : Heading)
    (payload : List UInt8) :
    SubscribersStep subs p (handleReadPayload w cfg subs p head payload) head.type := by
  unfold handleReadPayload
  split_ifs
  · exact subscribersStep_refl subs p head.type
  · exact (subscribersStep_refl subs p head.type).stop subs .badStream
  · have h := load_subscribersStep w subs p head.type payload
    rcases hl : load w subs p head.type payload with ⟨code, q, unread⟩
    rw [hl] at h
    dsimp only
    split_ifs
    · exact h.stop subs code
    · exact h.stop subs .badStream
    · exact h

/-- **One frame.** The read cycle reaches the subscribers by one relay or one invocation. -/
theorem readFrame_subscribersStep (p : Proxy σ Message) (head : Heading) (payload : List UInt8) :
    SubscribersStep subs p (readFrame w cfg subs p head payload) head.type := by
  unfold readFrame
  split_ifs
  · exact subscribersStep_refl subs p head.type
  · split
    · exact (subscribersStep_refl subs p head.type).stop subs _
    · exact handleReadPayload_subscribersStep w cfg subs p head payload

end Network

/-! ## The codes the read cycle stops with

The read cycle's own tests stop the channel with `bad_stream` or with the code `load` failed
with, never with success. Every other stop of the cycle is one an invoked handler asked for, so
the cycle stops only with failures as long as the handlers do. -/

namespace Network

variable {σ Message : Type}

/-- The invoked handlers stop the channel only with failures. -/
def Subscribers.StopsOnFailure (subs : Subscribers σ Message) : Prop :=
  ∀ st version type m ec, (subs.invoke st version type m).2.stop = some ec → ec.isError

namespace Proxy

@[simp] theorem apply_stops (p : Proxy σ Message) (e : Effect) :
    (p.apply e).stops = p.stops ++ e.stop.toList := by
  unfold apply; split <;> split <;> simp_all [stop]

theorem stops_stop {p : Proxy σ Message} (hp : ∀ x ∈ p.stops, x.isError) {ec : Code}
    (hec : ec.isError) : ∀ x ∈ (p.stop ec).stops, x.isError :=
  Code.forall_isError_concat hp hec

theorem stops_apply {p : Proxy σ Message} (hp : ∀ x ∈ p.stops, x.isError) {e : Effect}
    (he : ∀ ec, e.stop = some ec → ec.isError) : ∀ x ∈ (p.apply e).stops, x.isError := by
  intro x hx
  rw [apply_stops] at hx
  rcases List.mem_append.1 hx with hx | hx
  · exact hp x hx
  · exact he x (by simpa using hx)

end Proxy

variable (w : Wire Message) (cfg : ProxySettings) {subs : Subscribers σ Message}

/-- Every heading check fails with `bad_stream`. -/
theorem headingError_eq_badStream {head : Heading} {ec : Code}
    (h : headingError cfg head = some ec) : ec = .badStream := by
  unfold headingError at h
  split_ifs at h <;> cases h <;> rfl

section StopsOnFailure

variable (hsubs : subs.StopsOnFailure)
include hsubs

theorem load_stops {p : Proxy σ Message} (hp : ∀ x ∈ p.stops, x.isError) (type : MessageType)
    (payload : List UInt8) : ∀ x ∈ (load w subs p type payload).2.1.stops, x.isError := by
  unfold load
  rcases loadNotify type with _ | mode
  · exact hp
  · rcases w.fromData type p.version payload with _ | ⟨m, unread⟩
    · exact hp
    · cases mode with
      | relay => exact hp
      | invoke =>
        refine Proxy.stops_apply ?_ (hsubs _ _ _ _)
        exact hp

theorem handleReadPayload_stops {p : Proxy σ Message} (hp : ∀ x ∈ p.stops, x.isError)
    (head : Heading) (payload : List UInt8) :
    ∀ x ∈ (handleReadPayload w cfg subs p head payload).stops, x.isError := by
  unfold handleReadPayload
  split_ifs
  · exact hp
  · exact Proxy.stops_stop hp rfl
  · have h := load_stops w hsubs hp head.type payload
    rcases hl : load w subs p head.type payload with ⟨code, q, unread⟩
    rw [hl] at h
    dsimp only
    -- the failed `load`, then the trailing bytes
    split_ifs with hcode
    · exact Proxy.stops_stop h (Code.isError_of_ne hcode)
    · exact Proxy.stops_stop h rfl
    · exact h

theorem readFrame_stops {p : Proxy σ Message} (hp : ∀ x ∈ p.stops, x.isError) (head : Heading)
    (payload : List UInt8) : ∀ x ∈ (readFrame w cfg subs p head payload).stops, x.isError := by
  unfold readFrame
  split_ifs
  · exact hp
  · split
    · next ec hhead =>
      rw [headingError_eq_badStream cfg hhead] at *
      exact Proxy.stops_stop hp rfl
    · exact handleReadPayload_stops w cfg hsubs hp head payload

/-- **The read cycle's stops.** Over any bytes, a cycle whose invoked handlers stop only with
failures stops the channel only with failures. -/
theorem readCycle_stops {p : Proxy σ Message} (hp : ∀ x ∈ p.stops, x.isError)
    (bytes : List UInt8) : ∀ x ∈ (readCycle w cfg subs p bytes).stops, x.isError := by
  fun_induction readCycle w cfg subs p bytes with
  | case1 p bytes hstop => exact hp
  | case2 p bytes hstop hshort => exact hp
  | case3 p bytes hstop hshort head ec hhead =>
    rw [headingError_eq_badStream cfg hhead] at *
    exact Proxy.stops_stop hp rfl
  | case4 p bytes hstop hshort head hhead rest hrest => exact hp
  | case5 p bytes hstop hshort head hhead rest hrest ih =>
    exact ih (handleReadPayload_stops w cfg hsubs hp head _)

end StopsOnFailure

end Network
