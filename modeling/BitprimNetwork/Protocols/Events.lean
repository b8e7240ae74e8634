import BitprimNetwork.Core

/-!
# Stateful protocols: `protocol_events` and `protocol_timer`

A stateful protocol keeps one event handler (`protocol_events::handler_`). `set_event(ec)` calls
it with `ec`, and a stop code clears it first, so the handler sees at most one stop code and
nothing after it: a protocol whose handler is cleared is *stopped*. Its message handlers test the
same thing on entry (`stopped(ec)`), and return without acting once it holds.

`protocol_timer` adds one deadline and wraps the handler in `handle_notify`, which cancels the
deadline when the code is `channel_stopped`. When the deadline expires `handle_timer` sets the
event `channel_timeout`, unless the protocol is stopped, and a perpetual timer is then started
again. A cancelled deadline never calls back.

`Events` is this shared state; each protocol model keeps one and follows `setEvent` with its own
handler. The handler itself is not stored: every model knows which handler it installed.
-/

namespace Network

/-- The state `protocol_events` and `protocol_timer` keep for one protocol. -/
structure Events where
  /-- `handler_` is still set: the protocol has not seen a stop code. -/
  running : Bool
  /-- The protocol's deadline is started and will call back once. -/
  armed : Bool
  deriving DecidableEq, Repr

namespace Events

/-- A protocol started with its timer running. -/
def started : Events := ⟨true, true⟩

/-- `protocol_events::stopped(ec)`: the handler is cleared or the code is a stop code. -/
def stoppedBy (e : Events) (ec : Code) : Bool := !e.running || ec.isStop

/-- `set_event(ec)` through `handle_notify`: the state afterwards, and whether the protocol's
handler is called with `ec`. -/
def setEvent (e : Events) (ec : Code) : Events × Bool :=
  if e.running then (⟨!ec.isStop, e.armed && ec != .channelStopped⟩, true) else (e, false)

/-- `reset_timer`: a running protocol starts its deadline again. -/
def resetTimer (e : Events) : Events := if e.running then { e with armed := true } else e

@[simp] theorem setEvent_of_not_running {e : Events} (h : e.running = false) (ec : Code) :
    e.setEvent ec = (e, false) := by
  simp [setEvent, h]

@[simp] theorem setEvent_of_running {e : Events} (h : e.running = true) (ec : Code) :
    e.setEvent ec = (⟨!ec.isStop, e.armed && ec != .channelStopped⟩, true) := by
  simp [setEvent, h]

@[simp] theorem stoppedBy_success (e : Events) : e.stoppedBy .success = !e.running := by
  simp [stoppedBy]

end Events

end Network
