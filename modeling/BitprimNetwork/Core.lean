import BitprimNetwork.Async.Join

/-!
# What the network library takes from bitprim-core

The network code passes `code` values to every handler, reads message types off headings, and
handles a few messages field by field. This file fixes the Lean counterparts of those pieces of
bitprim-core: the error codes, the message types, and the fields of the version and reject
messages that the handshake reads. Everything else about a message stays opaque to the models
and is a parameter where it is used.

An error code is success or one of the network errors by name; every other failure (a socket
error converted by `boost_to_error_code`, say) is `other n`. In C++ `if (ec)` tests for any code
but success, and that is `Code.isError`.
-/

namespace Network

/-- The error codes that reach the handlers of the network library (`error::error_code_t`). -/
inductive Code where
  | success
  | serviceStopped
  | operationFailed
  | notFound
  | fileSystem
  | badStream
  | channelTimeout
  | channelStopped
  | addressInUse
  | acceptFailed
  | addressBlocked
  | peerThrottling
  | resolveFailed
  /-- Any other failure, such as a converted socket error. -/
  | other (n : ℕ)
  deriving DecidableEq, Repr

namespace Code

/-- `if (ec)`: the code is not success. -/
def isError (ec : Code) : Bool := ec != .success

/-- The two stop codes that `protocol_events::stopped(ec)` treats as the end of a protocol. -/
def isStop (ec : Code) : Bool := ec == .channelStopped || ec == .serviceStopped

@[simp] theorem isError_success : isError .success = false := rfl

@[simp] theorem isError_eq_false_iff (ec : Code) : isError ec = false ↔ ec = .success := by
  simp [isError]

@[simp] theorem isStop_success : isStop .success = false := rfl

@[simp] theorem isStop_channelStopped : isStop .channelStopped = true := rfl

@[simp] theorem isStop_serviceStopped : isStop .serviceStopped = true := rfl

@[simp] theorem isStop_channelTimeout : isStop .channelTimeout = false := rfl

theorem isError_of_isStop {ec : Code} (h : isStop ec = true) : isError ec = true := by
  cases ec <;> simp_all [isStop, isError]

theorem isError_of_ne {ec : Code} (h : ec ≠ .success) : isError ec = true := by
  simpa [isError] using h

/-- A log of failures stays one when a failure is appended. -/
theorem forall_isError_concat {l : List Code} (hl : ∀ x ∈ l, isError x = true) {ec : Code}
    (hec : isError ec = true) : ∀ x ∈ l ++ [ec], isError x = true := by
  intro x hx
  rcases List.mem_append.1 hx with hx | hx
  · exact hl x hx
  · rw [List.mem_singleton.1 hx]
    exact hec

end Code

/-- The message types a heading can name (`message::message_type`). -/
inductive MessageType where
  | unknown
  | address | alert | block | blockTransactions | compactBlock | feeFilter | filterAdd
  | filterClear | filterLoad | getAddress | getBlocks | getBlockTransactions | getData
  | getHeaders | headers | inventory | memoryPool | merkleBlock | notFound | ping | pong
  | reject | sendCompact | sendHeaders | transaction | verack | version
  deriving DecidableEq, Repr

/-- The fields of a peer's version message that the handshake reads. -/
structure VersionMessage where
  /-- The peer's protocol version (`value()`). -/
  value : ℕ
  /-- The services the peer declares, a bit field. -/
  services : ℕ
  /-- The nonce the peer chose for its channel. -/
  nonce : ℕ
  deriving DecidableEq, Repr

/-- The reason codes of a reject message (`reject::reason_code`). -/
inductive RejectReason where
  | undefined | malformed | invalid | obsolete | duplicate | nonstandard | dust
  | insufficientFee | checkpoint
  deriving DecidableEq, Repr

/-- The fields of a reject message that the protocols read. -/
structure RejectMessage where
  /-- The command of the message being rejected. -/
  message : String
  /-- Why it was rejected. -/
  code : RejectReason
  /-- The free-text reason. -/
  reason : String
  deriving DecidableEq, Repr

/-- `version::command`. -/
def versionCommand : String := "version"

/-- A network endpoint, `config::authority`: an IP address and a port. -/
structure Authority where
  /-- The address, as a number. -/
  ip : ℕ
  /-- The port. -/
  port : ℕ
  deriving DecidableEq, Repr

/-- The protocol levels of bitprim-core's `version::level` that the network code compares with. -/
structure Levels where
  /-- `level::minimum`, the lowest version the library can speak. -/
  minimum : ℕ
  /-- `level::maximum`, the highest version the library can speak. -/
  maximum : ℕ

/-- The network settings the modelled code reads (`network::settings`). -/
structure Settings where
  /-- `protocol_minimum`. -/
  protocolMinimum : ℕ
  /-- `protocol_maximum`, also the version a channel starts at. -/
  protocolMaximum : ℕ
  /-- `invalid_services`, the service bits a peer must not declare. -/
  invalidServices : ℕ

end Network
