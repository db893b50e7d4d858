import LocalPlatform.Lib.Machine
import Mathlib.Data.String.Basic

/-!
# Alert deliveries

The row of one dedupe key in `alert_events`, and its rows in `alert_deliveries`, one for each
channel.

* `deliveryGate` and `recordDelivery` are the two sides of an attempt, and `dispatchAlert` runs the
  channels that are due.
* `emitAlert`, `updateAlertStatus`, `redeliverOpenAlerts` and `requeueDeadLetterDeliveries` are the
  calls.  A call carries what its environment decides: the times that it reads, and whether a
  webhook that is asked accepts.
* `State.episode` is no column.  It counts what happened since the alert was opened or reopened, and
  ends when the alert is resolved.
* Titles, messages and errors are left out: nothing here reads them.
-/

namespace LocalPlatform.Alerts

open Machines

/-! ## Configuration -/

inductive Channel where
  | webhook
  | escalationWebhook
  deriving DecidableEq

/-- What the environment variables say, and the retry delays of each channel. -/
structure Config where
  webhookUrl : Bool
  escalationUrl : Bool
  minSeverity : String
  escalateAfter : ℕ
  escalationAfter : ℕ
  cooldownSeconds : ℕ
  maxAttempts : ℕ
  retryDelay : Channel → ℕ → ℕ

/-- `_SEVERITY_RANK` -/
def severityRank (severity : String) : Option ℕ :=
  [("debug", 0), ("info", 1), ("warning", 2), ("error", 3), ("critical", 4)].lookup severity

/-! ## The rows -/

inductive AlertStatus where
  | opened
  | acknowledged
  | resolved
  deriving DecidableEq

structure Alert where
  severity : String
  status : AlertStatus
  count : ℕ
  cooldownUntil : Option ℕ
  deriving DecidableEq

inductive DeliveryStatus where
  | success
  | failed
  | deadLetter
  | reopened
  deriving DecidableEq

structure Delivery where
  status : DeliveryStatus
  attemptCount : ℕ
  nextRetryAt : Option ℕ
  deriving DecidableEq

/-- What happened on a channel in the running episode, and how many attempts of its row are from
before it. -/
structure Tally where
  accepted : ℕ
  rejected : ℕ
  carried : ℕ
  deriving DecidableEq

structure State where
  alert : Option Alert
  delivery : Channel → Option Delivery
  episode : Option (Channel → Tally)

/-! ## An attempt -/

/-- What a webhook does that is asked, and the times around it. -/
structure Answer where
  checkedAt : ℕ
  accepted : Bool
  recordedAt : ℕ
  deriving DecidableEq

/-- `_delivery_gate`: an attempt is held back. -/
def deliveryGate (now : ℕ) (delivery : Option Delivery) : Bool :=
  match delivery with
  | none => false
  | some row =>
    row.status = .success ∨ row.status = .deadLetter ∨ row.nextRetryAt.any (fun retry => now < retry)

/-- `_record_delivery` -/
def recordDelivery (config : Config) (channel : Channel) (delivery : Option Delivery)
    (answer : Answer) : Delivery :=
  let attemptCount := (delivery.map Delivery.attemptCount).getD 0 + 1
  let terminal := ¬ answer.accepted ∧ config.maxAttempts ≤ attemptCount
  { status := if answer.accepted then .success else if terminal then .deadLetter else .failed
    attemptCount := attemptCount
    nextRetryAt := if answer.accepted ∨ terminal then none
      else some (answer.recordedAt + config.retryDelay channel attemptCount) }

def Tally.count (answer : Answer) (tally : Tally) : Tally :=
  if answer.accepted then { tally with accepted := tally.accepted + 1 }
  else { tally with rejected := tally.rejected + 1 }

/-- The channel is asked, and the answer recorded. -/
def State.attempt (config : Config) (s : State) (channel : Channel) (answer : Answer) : State :=
  { s with
    delivery := Function.update s.delivery channel
      (some (recordDelivery config channel (s.delivery channel) answer))
    episode := s.episode.map (fun tallies =>
      Function.update tallies channel ((tallies channel).count answer)) }

/-! ## Dispatch -/

/-- What the environment decides in a dispatch. -/
structure Turn where
  cooldownCheckedAt : ℕ
  answer : Channel → Answer
  deliveredAt : ℕ

structure Mode where
  webhookUrl : Option Bool
  force : Bool
  respectRetrySchedule : Bool
  deriving DecidableEq

def inCooldown (alert : Alert) (mode : Mode) (turn : Turn) : Bool :=
  ¬ mode.force ∧ alert.cooldownUntil.any (fun cooldown => turn.cooldownCheckedAt < cooldown)

/-- `str(alert.get("severity") or "warning").lower()` -/
def effectiveSeverity (alert : Alert) : String :=
  (if alert.severity = "" then "warning" else alert.severity).toLower

/-- `dispatch_alert` comes to the channel. -/
def due (config : Config) (alert : Alert) (mode : Mode) (turn : Turn) : Channel → Bool
  | .webhook =>
    ¬ inCooldown alert mode turn ∧ mode.webhookUrl.getD config.webhookUrl ∧
      (severityRank config.minSeverity.toLower).getD 4 ≤
        (severityRank (effectiveSeverity alert)).getD 0
  | .escalationWebhook =>
    config.escalationUrl ∧ ¬ inCooldown alert mode turn ∧ effectiveSeverity alert = "critical" ∧
      config.escalationAfter ≤ alert.count

/-- The channel is asked: it is due, and not held back. -/
def asked (config : Config) (s : State) (alert : Alert) (mode : Mode) (turn : Turn)
    (channel : Channel) : Bool :=
  due config alert mode turn channel ∧
    ¬ (mode.respectRetrySchedule ∧ deliveryGate (turn.answer channel).checkedAt (s.delivery channel))

/-- `_dispatch_webhook_channel`, if it is due -/
def dispatchChannel (config : Config) (alert : Alert) (mode : Mode) (turn : Turn) (s : State)
    (channel : Channel) : State :=
  if asked config s alert mode turn channel then s.attempt config channel (turn.answer channel)
  else s

/-- `dispatch_alert` -/
def dispatchAlert (config : Config) (alert : Alert) (mode : Mode) (turn : Turn) (s : State) : State :=
  let delivered := [Channel.webhook, .escalationWebhook].any (fun channel =>
    asked config s alert mode turn channel ∧ (turn.answer channel).accepted)
  let after := dispatchChannel config alert mode turn
    (dispatchChannel config alert mode turn s .webhook) .escalationWebhook
  if delivered ∧ ¬ mode.force then
    { after with alert := after.alert.map (fun row =>
        { row with cooldownUntil := some (turn.deliveredAt + config.cooldownSeconds) }) }
  else after

/-! ## The calls -/

structure EmitCall where
  severity : String
  webhookUrl : Option Bool
  turn : Turn

def Tally.start (delivery : Option Delivery) : Tally :=
  { accepted := 0, rejected := 0, carried := (delivery.map Delivery.attemptCount).getD 0 }

def State.begin (s : State) : State :=
  { s with episode := some (fun channel => Tally.start (s.delivery channel)) }

/-- `status='reopened',next_retry_at=null` -/
def Delivery.reopen (delivery : Delivery) : Delivery :=
  { delivery with status := .reopened, nextRetryAt := none }

/-- The alert of a call is written: inserted, reopened or counted. -/
def writeAlert (config : Config) (s : State) (severity : String) : State :=
  let escalated (count : ℕ) : String :=
    if severity.toLower ∈ ["warning", "error"] ∧ config.escalateAfter ≤ count then "critical"
    else severity
  match s.alert with
  | none =>
    { s.begin with
      alert := some { severity := escalated 1, status := .opened, count := 1,
                      cooldownUntil := none } }
  | some row =>
    let count := row.count + 1
    match row.status with
    | .resolved =>
      { s.begin with
        alert := some { severity := escalated count, status := .opened, count := count,
                        cooldownUntil := none }
        delivery := fun channel => (s.delivery channel).map Delivery.reopen }
    | .acknowledged => { s with alert := some { row with severity := escalated count, count := count } }
    | .opened => { s with alert := some { row with severity := escalated count, count := count } }

def emitMode (call : EmitCall) : Mode :=
  { webhookUrl := call.webhookUrl, force := false, respectRetrySchedule := true }

/-- `emit_alert` -/
def emitAlert (config : Config) (s : State) (call : EmitCall) : State :=
  let written := writeAlert config s call.severity
  match written.alert with
  | some alert => dispatchAlert config alert (emitMode call) call.turn written
  | none => written

structure RedeliverCall where
  /-- The alert is among the first `limit` ones. -/
  reached : Bool
  selectedAt : ℕ
  turn : Turn

/-- The alert is selected for another delivery. -/
def selected (s : State) (now : ℕ) (alert : Alert) : Bool :=
  (alert.status = .opened ∨ alert.status = .acknowledged) ∧
    [Channel.webhook, .escalationWebhook].all (fun channel =>
      (s.delivery channel).all (fun row => row.status ≠ .success ∧ row.status ≠ .deadLetter ∧
        ¬ row.nextRetryAt.any (fun retry => now < retry)))

def redeliverMode : Mode :=
  { webhookUrl := none, force := true, respectRetrySchedule := true }

/-- `redeliver_open_alerts` -/
def redeliverOpenAlerts (config : Config) (s : State) (call : RedeliverCall) : State :=
  match s.alert with
  | none => s
  | some alert =>
    if (config.webhookUrl ∨ config.escalationUrl) ∧ call.reached ∧
        selected s call.selectedAt alert then
      dispatchAlert config alert redeliverMode call.turn s
    else s

def resolveMode : Mode :=
  { webhookUrl := none, force := true, respectRetrySchedule := false }

inductive StatusCall where
  | acknowledge
  | resolve (turn : Turn)

/-- `update_alert_status` -/
def updateAlertStatus (config : Config) (s : State) (call : StatusCall) : State :=
  match s.alert with
  | none => s
  | some alert =>
    match call with
    | .acknowledge => { s with alert := some { alert with status := .acknowledged } }
    | .resolve turn =>
      let resolved : Alert := { alert with status := .resolved, cooldownUntil := none }
      dispatchAlert config resolved resolveMode turn
        { s with alert := some resolved, episode := none }

/-- `status='failed',attempt_count=0,next_retry_at=?` -/
def Delivery.requeue (now : ℕ) (delivery : Delivery) : Delivery :=
  if delivery.status = .deadLetter then
    { status := .failed, attemptCount := 0, nextRetryAt := some now }
  else delivery

def Tally.requeue (delivery : Option Delivery) (tally : Tally) : Tally :=
  if delivery.any (fun row => row.status = .deadLetter) then { tally with carried := 0 } else tally

/-- `requeue_dead_letter_deliveries` -/
def requeueDeadLetterDeliveries (s : State) (now : ℕ) : State :=
  { s with
    delivery := fun channel => (s.delivery channel).map (Delivery.requeue now)
    episode := s.episode.map (fun tallies channel =>
      (tallies channel).requeue (s.delivery channel)) }

inductive Call where
  | emit (call : EmitCall)
  | update (call : StatusCall)
  | redeliver (call : RedeliverCall)
  | requeue (now : ℕ)

def perform (config : Config) (s : State) : Call → State
  | .emit call => emitAlert config s call
  | .update call => updateAlertStatus config s call
  | .redeliver call => redeliverOpenAlerts config s call
  | .requeue now => requeueDeadLetterDeliveries s now

def alerts (config : Config) : Machine State Call where
  allowed := fun _ _ => True
  next := perform config

def start : State where
  alert := none
  delivery := fun _ => none
  episode := none

end LocalPlatform.Alerts
