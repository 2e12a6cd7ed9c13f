import PiksiBuildroot.Lib.PeriodicTimer

/-!
# Health monitors

A health monitor has a callback for messages, whose result says whether the timer of the monitor is
reset, a callback for the timer, and further events, such as the notification of a setting. With
them it is a component with a periodic timer (`Monitor.component`). Observation messages with the
sender id 0 are forwarded from the base station.
-/

namespace PiksiBuildroot.HealthDaemon

open Lib

/-- The size of `observation_header_t`. -/
def observationHeaderSize : Nat := 11

/-- The size of `packed_obs_content_t`. -/
def packedObsContentSize : Nat := 17

/-- The offset of `sid.code` in `packed_obs_content_t`. -/
def sidCodeOffset : Nat := 16

/-- A message of the type `SBP_MSG_OBS` with at least a header. -/
structure ObsMessage where
  senderId : BitVec 16
  payload : List (BitVec 8)
  header_le : observationHeaderSize ≤ payload.length
  length_lt : payload.length < 256
  deriving DecidableEq

/-- Source: `MSG_FORWARD_SENDER_ID`. -/
def msgForwardSenderId : BitVec 16 := 0

/-- The message is a base observation. -/
def ObsMessage.FromBase (m : ObsMessage) : Prop := m.senderId = msgForwardSenderId

instance (m : ObsMessage) : Decidable m.FromBase := by
  unfold ObsMessage.FromBase
  infer_instance

/-- What a monitor is told: a message, or another event. -/
inductive Input (ε : Type)
  | message (m : ObsMessage)
  | other (e : ε)
  deriving DecidableEq

/-- The base observation that an input is. -/
def Input.baseObs {ε : Type} : Input ε → Option ObsMessage
  | .message m => if m.FromBase then some m else none
  | .other _ => none

/-- The event that an input is. -/
def Input.event {ε : Type} : Input ε → Option ε
  | .message _ => none
  | .other e => some e

/-- Source: `health_monitor_s`. The context is that of the callbacks; the callback for messages
returns 0 to reset the timer, the one for the timer says whether it warns, and other events say
whether they call `health_monitor_reset_timer`. -/
structure Monitor (σ ε : Type) where
  timerPeriod : Nat
  context : σ
  msgCb : σ → ObsMessage → σ × Int
  timerCb : σ → σ × Bool
  notify : σ → ε → σ × Bool

namespace Monitor

variable {σ ε : Type} (monitor : Monitor σ ε)

/-- Source: `timer_active`, as `health_monitor_init` sets it. -/
def timerActive : Bool := monitor.timerPeriod != 0

/-- The context after a message, and whether the timer is reset. Source:
`health_monitor_message_callback`. -/
def healthMonitorMessageCallback (ctx : σ) (m : ObsMessage) : σ × Bool :=
  let result := monitor.msgCb ctx m
  (result.1, result.2 == 0 && monitor.timerActive)

/-- The monitor with its timer. -/
def component : TimedComponent σ (Input ε) where
  period := monitor.timerPeriod
  init := monitor.context
  input ctx
    | .message m => monitor.healthMonitorMessageCallback ctx m
    | .other e => monitor.notify ctx e
  expire := monitor.timerCb

end Monitor

end PiksiBuildroot.HealthDaemon
