import LocalPlatform.Alerts.Deliveries

/-!
# The deliveries of an episode

* `Delivered` is what a channel is promised in an episode: at most one delivery, of which its row
  tells, and no dead letter before `maxAttempts` attempts of this episode were refused.
* A row that is reopened keeps its attempts, and those of the notice of a resolution are counted as
  well.  `NothingCarried` is what a call must meet: no refusal ends the attempts of a row that has
  some from before the episode.
* `Counted` is what the calls then keep of a row and its tally.
-/

namespace LocalPlatform.Alerts

open Machines

/-! ## The promise -/

def Delivery.isIn (status : DeliveryStatus) (delivery : Option Delivery) : Bool :=
  delivery.any (fun row => row.status = status)

/-- A channel in an episode, with its row. -/
structure Delivered (config : Config) (delivery : Option Delivery) (tally : Tally) : Prop where
  once : tally.accepted ≤ 1
  success : Delivery.isIn .success delivery ↔ tally.accepted = 1
  dead : Delivery.isIn .deadLetter delivery → config.maxAttempts ≤ tally.rejected
  /-- What is not delivered yet is tried again, from some time on. -/
  retried : tally.accepted = 0 → ¬ Delivery.isIn .deadLetter delivery →
    ∃ retry, ∀ now, retry ≤ now → deliveryGate now delivery = false

def DeliveriesSound (config : Config) (s : State) : Prop :=
  ∀ tallies, s.episode = some tallies →
    ∀ channel, Delivered config (s.delivery channel) (tallies channel)

/-! ## The condition -/

def entered (config : Config) (s : State) : Call → State
  | .emit call => writeAlert config s call.severity
  | .update _ | .redeliver _ | .requeue _ => s

/-- The call asks the channel, and this is refused. -/
def refused (config : Config) (s : State) : Call → Channel → Bool
  | .emit call, channel =>
    (writeAlert config s call.severity).alert.any (fun alert =>
      asked config (writeAlert config s call.severity) alert (emitMode call) call.turn channel) ∧
        ¬ (call.turn.answer channel).accepted
  | .redeliver call, channel =>
    s.alert.any (fun alert => selected s call.selectedAt alert ∧
      asked config s alert redeliverMode call.turn channel) ∧
        (config.webhookUrl ∨ config.escalationUrl) ∧ call.reached ∧
          ¬ (call.turn.answer channel).accepted
  | .update _, _ | .requeue _, _ => false

/-- The next attempt of the row is not its last, or all its attempts are of this episode, or there
is only one. -/
def OwnAttempts (config : Config) (delivery : Option Delivery) (tally : Tally) : Prop :=
  tally.carried = 0 ∨ (delivery.map Delivery.attemptCount).getD 0 + 1 < config.maxAttempts ∨
    config.maxAttempts ≤ 1

/-- No refusal of the call makes a dead letter with attempts from before the episode. -/
def NothingCarried (config : Config) (s : State) (call : Call) : Prop :=
  ∀ tallies ∈ (entered config s call).episode, ∀ channel ∈ [Channel.webhook, .escalationWebhook],
    refused config s call channel →
      OwnAttempts config ((entered config s call).delivery channel) (tallies channel)

instance (config : Config) (delivery : Option Delivery) (tally : Tally) :
    Decidable (OwnAttempts config delivery tally) :=
  inferInstanceAs (Decidable (_ ∨ _ ∨ _))

instance (config : Config) (s : State) (call : Call) : Decidable (NothingCarried config s call) :=
  match h : (entered config s call).episode with
  | none => .isTrue (fun tallies htallies => absurd (h ▸ htallies) (Option.not_mem_none tallies))
  | some tallies =>
    decidable_of_iff (∀ channel ∈ [Channel.webhook, .escalationWebhook],
        refused config s call channel →
          OwnAttempts config ((entered config s call).delivery channel) (tallies channel))
      ⟨fun hall found hfound => by
        rw [h, Option.mem_some] at hfound
        exact hfound ▸ hall,
      fun hall => hall tallies (h ▸ Option.mem_some_self tallies)⟩

instance (config : Config) (s : State) (call : Call) : Decidable ((alerts config).allowed s call) :=
  .isTrue trivial

/-! ## A channel -/

/-- What is kept of a row and its tally. -/
structure Counted (config : Config) (delivery : Option Delivery) (tally : Tally) : Prop where
  accepted : tally.accepted = if Delivery.isIn .success delivery then 1 else 0
  attempts : ¬ Delivery.isIn .success delivery →
    (delivery.map Delivery.attemptCount).getD 0 ≤ tally.carried + tally.rejected
  dead : Delivery.isIn .deadLetter delivery → config.maxAttempts ≤ tally.rejected

section Channel

variable {config : Config} {delivery : Option Delivery} {tally : Tally}

theorem deliveryGate_open {now : ℕ} (h : deliveryGate now delivery = false) :
    Delivery.isIn .success delivery = false ∧ Delivery.isIn .deadLetter delivery = false := by
  cases delivery with
  | none => exact ⟨rfl, rfl⟩
  | some row =>
    simp only [deliveryGate, decide_eq_false_iff_not, not_or] at h
    simp [Delivery.isIn, h.1, h.2.1]

theorem deliveryGate_opens (hsuccess : ¬ Delivery.isIn .success delivery)
    (hdead : ¬ Delivery.isIn .deadLetter delivery) :
    ∃ retry, ∀ now, retry ≤ now → deliveryGate now delivery = false := by
  cases delivery with
  | none => exact ⟨0, fun _ _ => rfl⟩
  | some row =>
    simp only [Delivery.isIn, Option.any_some, decide_eq_true_eq] at hsuccess hdead
    refine ⟨row.nextRetryAt.getD 0, fun now hnow => ?_⟩
    have hretry : row.nextRetryAt.any (fun retry => now < retry) = false := by
      cases hnext : row.nextRetryAt with
      | none => rfl
      | some retry =>
        rw [hnext, Option.getD_some] at hnow
        simp only [Option.any_some, decide_eq_false_iff_not]
        omega
    simp [deliveryGate, hsuccess, hdead, hretry]

theorem Counted.delivered (h : Counted config delivery tally) : Delivered config delivery tally where
  once := by
    rw [h.accepted]
    split <;> omega
  success := by
    rw [h.accepted]
    split <;> simp_all
  dead := h.dead
  retried := by
    intro haccepted hdead
    refine deliveryGate_opens ?_ hdead
    intro hsuccess
    rw [h.accepted, if_pos hsuccess] at haccepted
    omega

theorem Counted.attempt (h : Counted config delivery tally) {channel : Channel} {answer : Answer}
    {now : ℕ} (hgate : deliveryGate now delivery = false)
    (hown : ¬ answer.accepted → OwnAttempts config delivery tally) :
    Counted config (some (recordDelivery config channel delivery answer)) (tally.count answer) := by
  have hsuccess := (deliveryGate_open hgate).1
  have hattempts := h.attempts (by rw [hsuccess]; exact Bool.false_ne_true)
  have haccepted := h.accepted
  rw [hsuccess, if_neg Bool.false_ne_true] at haccepted
  cases hanswer : answer.accepted with
  | true =>
    have hstatus : (recordDelivery config channel delivery answer).status = .success := by
      simp [recordDelivery, hanswer]
    refine ⟨?_, ?_, ?_⟩
    · simp [Tally.count, hanswer, haccepted, Delivery.isIn, hstatus]
    · intro hnot
      simp [Delivery.isIn, hstatus] at hnot
    · intro hdead
      simp [Delivery.isIn, hstatus] at hdead
  | false =>
    have hown := hown (by rw [hanswer]; exact Bool.false_ne_true)
    have hcount : (recordDelivery config channel delivery answer).attemptCount =
        (delivery.map Delivery.attemptCount).getD 0 + 1 := rfl
    have hstatus : (recordDelivery config channel delivery answer).status =
        if config.maxAttempts ≤ (delivery.map Delivery.attemptCount).getD 0 + 1 then .deadLetter
        else .failed := by
      simp [recordDelivery, hanswer]
    have hrejected : (tally.count answer) = { tally with rejected := tally.rejected + 1 } := by
      simp [Tally.count, hanswer]
    refine ⟨?_, ?_, ?_⟩
    · have hnot : Delivery.isIn .success
          (some (recordDelivery config channel delivery answer)) = false := by
        simp only [Delivery.isIn, Option.any_some, hstatus]
        split <;> rfl
      rw [hnot, if_neg Bool.false_ne_true, hrejected]
      exact haccepted
    · intro _
      rw [hrejected, Option.map_some, Option.getD_some, hcount]
      show _ ≤ tally.carried + (tally.rejected + 1)
      omega
    · intro hdead
      have hlast : config.maxAttempts ≤ (delivery.map Delivery.attemptCount).getD 0 + 1 := by
        by_contra hmore
        simp [Delivery.isIn, hstatus, hmore] at hdead
      rw [hrejected]
      show config.maxAttempts ≤ tally.rejected + 1
      -- all the attempts are of this episode, or there is only one
      rcases hown with hnone | hmore | hone
      · omega
      · omega
      · omega

theorem Counted.start : Counted config (delivery.map Delivery.reopen) (Tally.start delivery) := by
  cases delivery with
  | none => exact ⟨rfl, fun _ => le_rfl, fun h => absurd h Bool.false_ne_true⟩
  | some row => exact ⟨rfl, fun _ => le_rfl, fun h => absurd h Bool.false_ne_true⟩

theorem Counted.requeue (h : Counted config delivery tally) (now : ℕ) :
    Counted config (delivery.map (Delivery.requeue now)) (tally.requeue delivery) := by
  cases delivery with
  | none => exact h
  | some row =>
    by_cases hdead : row.status = .deadLetter
    · have haccepted : tally.accepted = 0 := by
        simpa [Delivery.isIn, hdead] using h.accepted
      refine ⟨?_, ?_, ?_⟩
      · simp [Tally.requeue, Delivery.requeue, Delivery.isIn, hdead, haccepted]
      · intro _
        simp [Delivery.requeue, hdead]
      · intro hstill
        simp [Delivery.requeue, Delivery.isIn, hdead] at hstill
    · have hrow : (some row).map (Delivery.requeue now) = some row := by
        simp [Delivery.requeue, hdead]
      have htally : tally.requeue (some row) = tally := by
        simp [Tally.requeue, hdead]
      rw [hrow, htally]
      exact h

end Channel

/-! ## Dispatch -/

section Dispatch

variable {config : Config} {alert : Alert} {mode : Mode} {turn : Turn} {s : State}

theorem dispatchChannel_delivery_of_ne {asking channel : Channel} (h : channel ≠ asking) :
    (dispatchChannel config alert mode turn s asking).delivery channel = s.delivery channel := by
  unfold dispatchChannel
  split
  · exact Function.update_of_ne h _ _
  · rfl

theorem dispatchChannel_delivery (channel : Channel) :
    (dispatchChannel config alert mode turn s channel).delivery channel =
      if asked config s alert mode turn channel then
        some (recordDelivery config channel (s.delivery channel) (turn.answer channel))
      else s.delivery channel := by
  unfold dispatchChannel
  split
  · exact Function.update_self _ _ _
  · rfl

theorem asked_dispatchChannel {asking channel : Channel} (h : channel ≠ asking) :
    asked config (dispatchChannel config alert mode turn s asking) alert mode turn channel =
      asked config s alert mode turn channel := by
  unfold asked
  rw [dispatchChannel_delivery_of_ne h]

theorem dispatchChannel_episode (asking : Channel) :
    (dispatchChannel config alert mode turn s asking).episode =
      s.episode.map (fun tallies channel =>
        if channel = asking ∧ asked config s alert mode turn channel then
          (tallies channel).count (turn.answer channel)
        else tallies channel) := by
  unfold dispatchChannel
  split
  · next hasked =>
    show s.episode.map _ = _
    congr 1
    funext tallies channel
    by_cases hchannel : channel = asking
    · subst hchannel
      simp [hasked]
    · simp [hchannel]
  · next hasked =>
    have hnone : ∀ channel, ¬ (channel = asking ∧ asked config s alert mode turn channel) := by
      rintro channel ⟨rfl, hnow⟩
      exact hasked hnow
    simp [hnone]

theorem dispatchAlert_channels :
    let after := dispatchChannel config alert mode turn
      (dispatchChannel config alert mode turn s .webhook) .escalationWebhook
    (dispatchAlert config alert mode turn s).delivery = after.delivery ∧
      (dispatchAlert config alert mode turn s).episode = after.episode := by
  unfold dispatchAlert
  dsimp only
  split <;> exact ⟨rfl, rfl⟩

theorem webhooks_ne : Channel.escalationWebhook ≠ .webhook := by decide

theorem dispatchAlert_delivery (channel : Channel) :
    (dispatchAlert config alert mode turn s).delivery channel =
      if asked config s alert mode turn channel then
        some (recordDelivery config channel (s.delivery channel) (turn.answer channel))
      else s.delivery channel := by
  rw [dispatchAlert_channels.1]
  cases channel with
  | webhook => rw [dispatchChannel_delivery_of_ne webhooks_ne.symm, dispatchChannel_delivery]
  | escalationWebhook =>
    rw [dispatchChannel_delivery, asked_dispatchChannel webhooks_ne,
      dispatchChannel_delivery_of_ne webhooks_ne]

theorem dispatchAlert_episode :
    (dispatchAlert config alert mode turn s).episode = s.episode.map (fun tallies channel =>
      if asked config s alert mode turn channel then
        (tallies channel).count (turn.answer channel)
      else tallies channel) := by
  rw [dispatchAlert_channels.2, dispatchChannel_episode, dispatchChannel_episode, Option.map_map]
  congr 1
  funext tallies channel
  cases channel with
  | webhook => simp
  | escalationWebhook => simp [asked_dispatchChannel webhooks_ne]

theorem dispatchAlert_alert :
    (dispatchAlert config alert mode turn s).alert.isSome = s.alert.isSome := by
  have hchannel (t : State) (channel : Channel) :
      (dispatchChannel config alert mode turn t channel).alert = t.alert := by
    unfold dispatchChannel
    split <;> rfl
  unfold dispatchAlert
  dsimp only
  split
  · simp only [Option.isSome_map, hchannel]
  · simp only [hchannel]

end Dispatch

/-! ## The calls -/

/-- What every call keeps. -/
structure Kept (config : Config) (s : State) : Prop where
  /-- An alert that was not written has no deliveries. -/
  fresh : s.alert = none → ∀ channel, s.delivery channel = none
  counted : ∀ tallies, s.episode = some tallies →
    ∀ channel, Counted config (s.delivery channel) (tallies channel)

section Calls

variable {config : Config} {s : State}

theorem Kept.start (config : Config) : Kept config start where
  fresh := fun _ _ => rfl
  counted := fun _ htallies => absurd htallies (Option.some_ne_none _).symm

theorem Kept.sound (h : Kept config s) : DeliveriesSound config s :=
  fun tallies htallies channel => (h.counted tallies htallies channel).delivered

theorem Kept.dispatch (h : Kept config s) {alert : Alert} {mode : Mode} {turn : Turn}
    (hwritten : s.alert.isSome) (hmode : s.episode ≠ none → mode.respectRetrySchedule)
    (hown : ∀ tallies ∈ s.episode, ∀ channel, asked config s alert mode turn channel →
      ¬ (turn.answer channel).accepted →
        OwnAttempts config (s.delivery channel) (tallies channel)) :
    Kept config (dispatchAlert config alert mode turn s) where
  fresh := by
    intro hnone
    have hsome : (dispatchAlert config alert mode turn s).alert.isSome = s.alert.isSome :=
      dispatchAlert_alert
    rw [hnone, hwritten] at hsome
    exact absurd hsome Bool.false_ne_true
  counted := by
    intro after hafter channel
    rw [dispatchAlert_episode, Option.map_eq_some_iff] at hafter
    obtain ⟨tallies, htallies, rfl⟩ := hafter
    rw [dispatchAlert_delivery]
    have hbefore := h.counted tallies htallies channel
    by_cases hasked : asked config s alert mode turn channel
    · have hrespect := hmode (by rw [htallies]; exact Option.some_ne_none tallies)
      have hgate : deliveryGate (turn.answer channel).checkedAt (s.delivery channel) = false := by
        simp only [asked, hrespect, decide_eq_true_eq, true_and, Bool.not_eq_true] at hasked
        exact hasked.2
      simp only [hasked, if_true]
      exact hbefore.attempt hgate (hown tallies htallies channel hasked)
    · simp only [hasked, if_false, Bool.false_eq_true]
      exact hbefore

theorem Kept.write (h : Kept config s) (severity : String) :
    Kept config (writeAlert config s severity) ∧ (writeAlert config s severity).alert.isSome := by
  unfold writeAlert
  cases halert : s.alert with
  | none =>
    refine ⟨⟨fun hnone => absurd hnone (Option.some_ne_none _), ?_⟩, rfl⟩
    intro tallies htallies channel
    have hstart : Counted config ((s.delivery channel).map Delivery.reopen)
        (Tally.start (s.delivery channel)) := Counted.start
    rw [h.fresh halert channel] at hstart
    rw [← Option.some.inj htallies]
    show Counted config (s.delivery channel) (Tally.start (s.delivery channel))
    rw [h.fresh halert channel]
    exact hstart
  | some row =>
    cases hstatus : row.status with
    | resolved =>
      simp only [hstatus]
      refine ⟨⟨fun hnone => absurd hnone (Option.some_ne_none _), ?_⟩, rfl⟩
      intro tallies htallies channel
      rw [← Option.some.inj htallies]
      exact Counted.start
    | acknowledged =>
      simp only [hstatus]
      exact ⟨⟨fun hnone => absurd hnone (Option.some_ne_none _), h.counted⟩, rfl⟩
    | opened =>
      simp only [hstatus]
      exact ⟨⟨fun hnone => absurd hnone (Option.some_ne_none _), h.counted⟩, rfl⟩

theorem mem_channels (channel : Channel) : channel ∈ [Channel.webhook, .escalationWebhook] := by
  cases channel <;> decide

theorem Kept.emit (h : Kept config s) {call : EmitCall} (hown : NothingCarried config s (.emit call)) :
    Kept config (emitAlert config s call) := by
  have hwrite := h.write call.severity
  cases halert : (writeAlert config s call.severity).alert with
  | none =>
    rw [halert] at hwrite
    exact absurd hwrite.2 Bool.false_ne_true
  | some alert =>
    simp only [emitAlert, halert]
    refine hwrite.1.dispatch hwrite.2 (fun _ => rfl) ?_
    intro tallies htallies channel hasked hrefused
    apply hown tallies htallies channel (mem_channels channel)
    simp [refused, halert, hasked, hrefused]

theorem Kept.redeliver (h : Kept config s) {call : RedeliverCall}
    (hown : NothingCarried config s (.redeliver call)) :
    Kept config (redeliverOpenAlerts config s call) := by
  unfold redeliverOpenAlerts
  cases halert : s.alert with
  | none => exact h
  | some alert =>
    dsimp only
    split
    · next hselected =>
      refine h.dispatch (by rw [halert]; rfl) (fun _ => rfl) ?_
      intro tallies htallies channel hasked hrefused
      apply hown tallies htallies channel (mem_channels channel)
      simp only [refused, halert, Option.any_some, hasked, hselected.2.2, decide_true, and_self,
        decide_eq_true_eq]
      exact ⟨trivial, hselected.1, hselected.2.1, hrefused⟩
    · exact h

theorem Kept.update (h : Kept config s) (call : StatusCall) :
    Kept config (updateAlertStatus config s call) := by
  unfold updateAlertStatus
  cases halert : s.alert with
  | none => exact h
  | some alert =>
    cases call with
    | acknowledge => exact ⟨fun hnone => absurd hnone (Option.some_ne_none _), h.counted⟩
    | resolve turn =>
      dsimp only
      refine Kept.dispatch ?_ rfl (fun hrunning => absurd rfl hrunning) ?_
      · exact ⟨fun hnone => absurd hnone (Option.some_ne_none _),
          fun tallies htallies => absurd htallies (Option.some_ne_none tallies).symm⟩
      · intro tallies htallies
        exact absurd htallies (Option.not_mem_none tallies)

theorem Kept.requeue (h : Kept config s) (now : ℕ) :
    Kept config (requeueDeadLetterDeliveries s now) where
  fresh := by
    intro hnone channel
    show (s.delivery channel).map _ = none
    rw [h.fresh hnone channel, Option.map_none]
  counted := by
    intro after hafter channel
    obtain ⟨tallies, htallies, rfl⟩ := Option.map_eq_some_iff.mp hafter
    exact (h.counted tallies htallies channel).requeue now

theorem Kept.perform (h : Kept config s) {call : Call} (hown : NothingCarried config s call) :
    Kept config (perform config s call) := by
  cases call with
  | emit call => exact h.emit hown
  | update call => exact h.update call
  | redeliver call => exact h.redeliver hown
  | requeue now => exact h.requeue now

end Calls

/-- In a run where no refusal ends the attempts of a row that has some from before the episode, each
channel is delivered to at most once in an episode, and given up only after all its attempts. -/
theorem alerts_deliver (config : Config) (calls : List Call)
    (h : ((alerts config).restrict (NothingCarried config)).Accepts start calls) :
    DeliveriesSound config ((alerts config).after start calls) := by
  have hstep : ∀ s call, Kept config s →
      ((alerts config).restrict (NothingCarried config)).allowed s call →
        Kept config (((alerts config).restrict (NothingCarried config)).next s call) :=
    fun s call hs hallowed => hs.perform hallowed.2
  exact (Machine.invariant hstep calls start (Kept.start config) h).sound

/-! ## A second episode -/

def sampleConfig : Config where
  webhookUrl := true
  escalationUrl := false
  minSeverity := "error"
  escalateAfter := 3
  escalationAfter := 1
  cooldownSeconds := 900
  maxAttempts := 3
  retryDelay := fun _ _ => 60

def sampleTurn (now : ℕ) (accepted : Bool) : Turn where
  cooldownCheckedAt := now
  answer := fun _ => { checkedAt := now, accepted := accepted, recordedAt := now }
  deliveredAt := now

def sampleEmit (now : ℕ) (accepted : Bool) : Call :=
  .emit { severity := "critical", webhookUrl := none, turn := sampleTurn now accepted }

/-- Refused, delivered, emitted again, resolved. -/
def firstEpisode : List Call :=
  [sampleEmit 0 false,
   .redeliver { reached := true, selectedAt := 100, turn := sampleTurn 100 true },
   sampleEmit 200 true,
   .update .acknowledge,
   .update (.resolve (sampleTurn 300 true))]

/-- The second episode is delivered to at once. -/
def twoEpisodes : List Call := firstEpisode ++ [sampleEmit 400 true]

theorem twoEpisodes_deliver :
    DeliveriesSound sampleConfig ((alerts sampleConfig).after start twoEpisodes) :=
  alerts_deliver sampleConfig twoEpisodes (by decide +kernel)

/-- The second episode is refused once, after three attempts for the first one. -/
def carriedEpisode : List Call := firstEpisode ++ [sampleEmit 400 false]

theorem carriedEpisode_dead :
    ¬ DeliveriesSound sampleConfig ((alerts sampleConfig).after start carriedEpisode) := by
  intro h
  cases hepisode : ((alerts sampleConfig).after start carriedEpisode).episode with
  | none =>
    have hrunning : ((alerts sampleConfig).after start carriedEpisode).episode.isSome = true := by
      decide +kernel
    rw [hepisode] at hrunning
    exact absurd hrunning Bool.false_ne_true
  | some tallies =>
    have hdead := (h tallies hepisode .webhook).dead (by decide +kernel)
    have hrejected : (((alerts sampleConfig).after start carriedEpisode).episode.map
        (fun tallies => (tallies .webhook).rejected)) = some 1 := by decide +kernel
    rw [hepisode, Option.map_some, Option.some.injEq] at hrejected
    rw [hrejected] at hdead
    exact absurd hdead (by decide)

end LocalPlatform.Alerts
