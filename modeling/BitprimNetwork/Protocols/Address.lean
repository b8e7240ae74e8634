import BitprimNetwork.Hosts
import BitprimNetwork.Proxy.Stop

/-!
# The address protocol

`protocol_address_31402` runs on every channel and trades addresses with the peer through
`p2p`'s host pool. `start` sends the node's own address when one is configured. Without a pool it
does nothing else; with one it subscribes to the peer's `address` and `get_address` messages and
asks the peer for addresses. Each `address` message goes to the pool by `p2p::store`, whose
handler stops the channel on a failure, and the handler stays subscribed. A `get_address` is
answered with the addresses `p2p::fetch_addresses` gives, if any, and the handler does not
subscribe again: "one response per connection permitted". When the channel stops, every handler
is called with `channel_stopped` and returns without subscribing again.

## The model

`AddressProtocol` is the protocol on one channel together with the host pool, which it shares
with every other channel and session of the node: the peer's messages, the channel's stop and
any other call on the pool (`Hosts.step`) come in any order. The pool is the model of `Hosts`, so
what `hosts::store(list, handler)` passes to `handle_store_addresses` is what that model computes.

## What holds

The protocol sends its start messages and then at most one message, a non-empty reply
(`sent_start_then_one_reply`). The lists it passes to the pool are exactly the address messages
the peer sent before the channel stopped, each once and in order, and none when no pool is
configured (`stored_received`). It never stops its channel (`address_protocol_never_stops`): the
pool reports success or `service_stopped` and nothing else, so the failure branch of
`handle_store_addresses` is never taken.
-/

namespace Network

open Async

/-- The settings `protocol_address_31402` reads. -/
structure AddressSettings where
  /-- `self`, the endpoint the node advertises; a zero port advertises none. -/
  self : Authority
  /-- `host_pool_capacity`. -/
  hostPoolCapacity : ℕ

/-- `configured_self(settings)`: the node's own address, unless `self` has a zero port. -/
def configuredSelf (cfg : AddressSettings) : List NetworkAddress :=
  if cfg.self.port = 0 then [] else [cfg.self.toNetworkAddress]

/-- The messages the address protocol sends. -/
inductive AddressMessage where
  /-- An `address` message. -/
  | address (addresses : List NetworkAddress)
  /-- A `get_address` message. -/
  | getAddress
  deriving DecidableEq, Repr

/-- The address protocol of one channel, with the node's host pool. -/
structure AddressProtocol (c : ℕ) where
  /-- `p2p`'s host pool. -/
  pool : Hosts c
  /-- The channel has stopped, and `protocol_events` has cleared its handler. -/
  stopped : Bool
  /-- `handle_receive_address` is subscribed. -/
  addressSubscribed : Bool
  /-- `handle_receive_get_address` is subscribed. -/
  getAddressSubscribed : Bool
  /-- The messages sent, in order. -/
  sent : List AddressMessage
  /-- The address lists passed to `p2p::store`, in order. -/
  stored : List (List NetworkAddress)
  /-- The codes the protocol stopped the channel with. -/
  stops : List Code

/-- What happens to the address protocol and the pool. -/
inductive AddressEvent where
  /-- The peer's `address` message arrives; the pool's sampling draws `random`. -/
  | address (addresses : List NetworkAddress) (random : ℕ)
  /-- The peer's `get_address` message arrives; the pool's fetch draws `divisor`. -/
  | getAddress (divisor : ℕ)
  /-- Some other part of the node calls the pool. -/
  | pool (e : Hosts.Event)
  /-- The channel stops. -/
  | stop

/-- The address lists a peer sends before the channel stops. -/
def AddressEvent.received : List AddressEvent → List (List NetworkAddress)
  | [] => []
  | .address addresses _ :: es => addresses :: received es
  | .stop :: _ => []
  | _ :: es => received es

namespace AddressProtocol

variable {c : ℕ} (isValid : NetworkAddress → Bool) (cfg : AddressSettings)

/-- The messages `start` sends: the node's own address if configured, then `get_address` if
there is a pool. -/
def startMessages : List AddressMessage :=
  (if configuredSelf cfg = [] then [] else [.address (configuredSelf cfg)]) ++
    if cfg.hostPoolCapacity = 0 then [] else [.getAddress]

/-- `protocol_address_31402::start()` on a channel, with the pool as it is. -/
def start (pool : Hosts c) : AddressProtocol c :=
  let p : AddressProtocol c := ⟨pool, false, false, false,
    if configuredSelf cfg = [] then [] else [.address (configuredSelf cfg)], [], []⟩
  -- Without a pool to store them in, addresses are neither asked for nor handled.
  if cfg.hostPoolCapacity = 0 then p
  else { p with
    addressSubscribed := true
    getAddressSubscribed := true
    sent := p.sent ++ [.getAddress] }

section start
variable (pool : Hosts c)

@[simp] theorem start_sent : (start cfg pool).sent = startMessages cfg := by
  unfold start startMessages
  split_ifs <;> simp

@[simp] theorem start_stopped : (start cfg pool).stopped = false := by
  unfold start
  split_ifs <;> rfl

@[simp] theorem start_addressSubscribed :
    (start cfg pool).addressSubscribed = (cfg.hostPoolCapacity != 0) := by
  by_cases hcap : cfg.hostPoolCapacity = 0 <;> simp [start, hcap]

@[simp] theorem start_stored : (start cfg pool).stored = [] := by
  unfold start
  split_ifs <;> rfl

@[simp] theorem start_stops : (start cfg pool).stops = [] := by
  unfold start
  split_ifs <;> rfl

end start

/-- `handle_store_addresses(ec)`. -/
def handleStoreAddresses (p : AddressProtocol c) (ec : Code) : AddressProtocol c :=
  match ProtocolAddress31402.handleStoreAddresses p.stopped ec with
  | some error => { p with stops := p.stops ++ [error] }
  | none => p

/-- `handle_receive_address(ec, message)`: the addresses go to the pool, which calls
`handle_store_addresses` before it returns, and the handler stays subscribed. -/
def handleReceiveAddress (p : AddressProtocol c) (addresses : List NetworkAddress)
    (random : ℕ) : AddressProtocol c :=
  if p.stopped then { p with addressSubscribed := false }
  else
    let r := p.pool.storeList isValid addresses random
    { { p with pool := r.2, stored := p.stored ++ [addresses] }.handleStoreAddresses r.1 with
      addressSubscribed := true }

/-- `handle_receive_get_address(ec, message)`: what the pool gives goes back to the peer, if
anything, and the handler does not subscribe again. -/
def handleReceiveGetAddress (p : AddressProtocol c) (divisor : ℕ) : AddressProtocol c :=
  if p.stopped then { p with getAddressSubscribed := false }
  else
    -- The code of `fetch_addresses` is not read; a failed fetch gives no addresses.
    let addresses := (p.pool.fetchList divisor).2
    { p with
      sent := if addresses = [] then p.sent else p.sent ++ [.address addresses]
      getAddressSubscribed := false }

/-- The channel stops: its message subscribers call every handler with `channel_stopped`, and
each returns without subscribing again. -/
def stop (p : AddressProtocol c) : AddressProtocol c :=
  { p with stopped := true, addressSubscribed := false, getAddressSubscribed := false }

/-- One event; a message reaches a handler only while it is subscribed. -/
def step (p : AddressProtocol c) : AddressEvent → AddressProtocol c
  | .address addresses random =>
    if p.addressSubscribed then p.handleReceiveAddress isValid addresses random else p
  | .getAddress divisor => if p.getAddressSubscribed then p.handleReceiveGetAddress divisor else p
  | .pool e => { p with pool := Hosts.step isValid p.pool e }
  | .stop => p.stop

/-! ## What each handler does -/

/-- `hosts::store(list, handler)` reports success or `service_stopped`, and nothing else. -/
theorem storeList_code (h : Hosts c) (addresses : List NetworkAddress) (random : ℕ) :
    (h.storeList isValid addresses random).1 = .success ∨
      (h.storeList isValid addresses random).1 = .serviceStopped := by
  unfold Hosts.storeList
  split_ifs
  · exact .inl rfl
  · exact .inr rfl
  · exact .inl rfl

variable {isValid cfg}

/-- Neither code the pool reports stops the channel. -/
theorem handleStoreAddresses_eq_self (p : AddressProtocol c) {ec : Code}
    (hec : ec = .success ∨ ec = .serviceStopped) : p.handleStoreAddresses ec = p := by
  have hnone : ProtocolAddress31402.handleStoreAddresses p.stopped ec = none := by
    rcases hec with rfl | rfl <;> simp [ProtocolAddress31402.handleStoreAddresses, stopUnlessStopped]
  rw [handleStoreAddresses, hnone]

/-- A running protocol passes an address message to the pool and stays subscribed. -/
theorem handleReceiveAddress_of_running {p : AddressProtocol c} (hs : p.stopped = false)
    (addresses : List NetworkAddress) (random : ℕ) :
    p.handleReceiveAddress isValid addresses random =
      { p with
        pool := (p.pool.storeList isValid addresses random).2
        stored := p.stored ++ [addresses]
        addressSubscribed := true } := by
  rw [handleReceiveAddress, if_neg (by simp [hs])]
  dsimp only
  rw [handleStoreAddresses_eq_self _ (storeList_code isValid p.pool addresses random)]

/-- A running protocol answers `get_address` with what the pool gives, if anything, and stops
listening for it. -/
theorem handleReceiveGetAddress_of_running {p : AddressProtocol c} (hs : p.stopped = false)
    (divisor : ℕ) :
    p.handleReceiveGetAddress divisor =
      { p with
        sent := if (p.pool.fetchList divisor).2 = [] then p.sent
          else p.sent ++ [.address (p.pool.fetchList divisor).2]
        getAddressSubscribed := false } := by
  rw [handleReceiveGetAddress, if_neg (by simp [hs])]

section Fields

variable (p : AddressProtocol c) (divisor : ℕ)

@[simp] theorem handleReceiveGetAddress_stored : (p.handleReceiveGetAddress divisor).stored = p.stored := by
  unfold handleReceiveGetAddress; split_ifs <;> rfl

@[simp] theorem handleReceiveGetAddress_stops : (p.handleReceiveGetAddress divisor).stops = p.stops := by
  unfold handleReceiveGetAddress; split_ifs <;> rfl

@[simp] theorem handleReceiveGetAddress_stopped :
    (p.handleReceiveGetAddress divisor).stopped = p.stopped := by
  unfold handleReceiveGetAddress; split_ifs <;> rfl

@[simp] theorem handleReceiveGetAddress_addressSubscribed :
    (p.handleReceiveGetAddress divisor).addressSubscribed = p.addressSubscribed := by
  unfold handleReceiveGetAddress; split_ifs <;> rfl

@[simp] theorem handleReceiveGetAddress_getAddressSubscribed :
    (p.handleReceiveGetAddress divisor).getAddressSubscribed = false := by
  unfold handleReceiveGetAddress; split_ifs <;> rfl

end Fields

/-- A subscribed address handler belongs to a running protocol, and every event keeps it so. -/
theorem step_running {p : AddressProtocol c} (hp : p.addressSubscribed = true → p.stopped = false)
    (e : AddressEvent) :
    (step isValid p e).addressSubscribed = true → (step isValid p e).stopped = false := by
  cases e with
  | address addresses random =>
    by_cases hs : p.addressSubscribed = true
    · rw [step, if_pos hs, handleReceiveAddress_of_running (hp hs)]
      exact fun _ ↦ hp hs
    · rw [step, if_neg hs]
      exact hp
  | getAddress divisor =>
    by_cases hs : p.getAddressSubscribed = true
    · rw [step, if_pos hs]
      simpa using hp
    · rw [step, if_neg hs]
      exact hp
  | pool e => exact hp
  | stop =>
    intro hs
    simp [step, stop] at hs

/-! ## The pool receives what the peer sent -/

/-- From any state whose address handler belongs to a running protocol, a run passes to the pool
the address lists the peer sends before the channel stops, if the handler is subscribed, and
nothing otherwise. The induction is on the events. -/
theorem stored_run (p : AddressProtocol c) (hp : p.addressSubscribed = true → p.stopped = false)
    (es : List AddressEvent) :
    (run (step isValid) p es).stored =
      p.stored ++ if p.addressSubscribed then AddressEvent.received es else [] := by
  induction es generalizing p with
  | nil => cases p.addressSubscribed <;> simp [AddressEvent.received]
  | cons e es ih =>
    rw [run_cons, ih _ (step_running hp e)]
    cases e with
    | address addresses random =>
      by_cases hs : p.addressSubscribed = true
      · rw [step, if_pos hs, handleReceiveAddress_of_running (hp hs)]
        simp [hs, AddressEvent.received]
      · rw [step, if_neg hs]
        simp [hs]
    | getAddress divisor =>
      by_cases hs : p.getAddressSubscribed = true
      · rw [step, if_pos hs]
        simp [AddressEvent.received]
      · rw [step, if_neg hs]
        simp [AddressEvent.received]
    | pool e =>
      cases ha : p.addressSubscribed <;> simp [ha, AddressEvent.received, step]
    | stop => simp [AddressEvent.received, step, stop]

/-! ## The invariant -/

variable (cfg) in
/-- What holds of the address protocol in every run. -/
structure Inv (p : AddressProtocol c) : Prop where
  /-- The start messages, then at most one non-empty reply, and none while `get_address` is
  still subscribed. -/
  sent : ∃ r, p.sent = startMessages cfg ++ r ∧ r.length ≤ 1 ∧
    (∀ m ∈ r, ∃ l, m = .address l ∧ l ≠ []) ∧ (p.getAddressSubscribed = true → r = [])
  /-- The protocol has not stopped its channel. -/
  stops : p.stops = []
  /-- A subscribed address handler belongs to a running protocol, ... -/
  running : p.addressSubscribed = true → p.stopped = false
  /-- ... and so does a subscribed `get_address` handler. -/
  getAddressRunning : p.getAddressSubscribed = true → p.stopped = false

theorem inv_start (pool : Hosts c) : Inv cfg (start cfg pool) :=
  ⟨⟨[], by simp, by simp, by simp, fun _ ↦ rfl⟩, start_stops cfg pool,
    fun _ ↦ start_stopped cfg pool, fun _ ↦ start_stopped cfg pool⟩

theorem inv_step {p : AddressProtocol c} (h : Inv cfg p) (e : AddressEvent) :
    Inv cfg (step isValid p e) := by
  obtain ⟨r, hsent, hlen, hreply, hfresh⟩ := h.sent
  cases e with
  | address addresses random =>
    by_cases hs : p.addressSubscribed = true
    · rw [step, if_pos hs, handleReceiveAddress_of_running (h.running hs)]
      exact ⟨⟨r, hsent, hlen, hreply, hfresh⟩, h.stops, fun _ ↦ h.running hs, h.getAddressRunning⟩
    · rw [step, if_neg hs]
      exact h
  | getAddress divisor =>
    by_cases hs : p.getAddressSubscribed = true
    · -- The one reply: the pool's addresses, if it gives any.
      rw [step, if_pos hs, handleReceiveGetAddress_of_running (h.getAddressRunning hs)]
      have hr : r = [] := hfresh hs
      refine ⟨?_, h.stops, h.running, fun hs' ↦ by simp at hs'⟩
      split_ifs with hnil
      · exact ⟨r, hsent, hlen, hreply, fun hs' ↦ by simp at hs'⟩
      · refine ⟨[.address (p.pool.fetchList divisor).2], by simp [hsent, hr], by simp, ?_,
          fun hs' ↦ by simp at hs'⟩
        intro m hm
        exact ⟨_, List.mem_singleton.1 hm, hnil⟩
    · rw [step, if_neg hs]
      exact h
  | pool e => exact ⟨⟨r, hsent, hlen, hreply, hfresh⟩, h.stops, h.running, h.getAddressRunning⟩
  | stop =>
    -- Both handlers are unsubscribed, so the last two fields hold vacuously.
    refine ⟨⟨r, hsent, hlen, hreply, fun hs' ↦ by simp [step, stop] at hs'⟩, h.stops,
      fun hs' ↦ by simp [step, stop] at hs', fun hs' ↦ by simp [step, stop] at hs'⟩

theorem inv_run (pool : Hosts c) (es : List AddressEvent) :
    Inv cfg (run (step isValid) (start cfg pool) es) :=
  run_invariant (step isValid) (I := Inv cfg) (fun _ e h ↦ inv_step h e) es (inv_start pool)

/-! ## The address protocol in every run -/

/-- **One reply per connection.** In every run, whatever the peer sends and whatever else calls
the pool, the protocol sends its start messages (its own address if configured, then
`get_address` if there is a pool) and after them at most one message, a non-empty reply. -/
theorem sent_start_then_one_reply (pool : Hosts c) (es : List AddressEvent) :
    ∃ r, (run (step isValid) (start cfg pool) es).sent = startMessages cfg ++ r ∧
      r.length ≤ 1 ∧ ∀ m ∈ r, ∃ l, m = .address l ∧ l ≠ [] := by
  obtain ⟨r, hsent, hlen, hreply, -⟩ := (inv_run pool es).sent
  exact ⟨r, hsent, hlen, hreply⟩

/-- **Every address message reaches the pool.** In every run, the lists the protocol passes to
`p2p::store` are the address messages the peer sent before the channel stopped, each once and
in order; with no pool configured, there are none. -/
theorem stored_received (pool : Hosts c) (es : List AddressEvent) :
    (run (step isValid) (start cfg pool) es).stored =
      if cfg.hostPoolCapacity = 0 then [] else AddressEvent.received es := by
  rw [stored_run _ (inv_start pool).running, start_stored, start_addressSubscribed]
  by_cases hcap : cfg.hostPoolCapacity = 0 <;> simp [hcap]

/-- **The address protocol never stops its channel.** In every run, whatever the peer sends and
whatever else calls the pool, `handle_store_addresses` receives success or `service_stopped`
and never stops the channel. -/
theorem address_protocol_never_stops (pool : Hosts c) (es : List AddressEvent) :
    (run (step isValid) (start cfg pool) es).stops = [] :=
  (inv_run pool es).stops

end AddressProtocol

end Network
