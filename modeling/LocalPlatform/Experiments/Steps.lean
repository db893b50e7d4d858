import LocalPlatform.Experiments.Quarantine

/-!
# The steps of the calls

A call on a batch refreshes it several times and dispatches or cancels item by
item in between, and other calls can come between these steps.

* `BatchStep` are these steps and `stepMachine` runs them in any order.
* A preorder of the transactions holds of every run of them.
-/

namespace LocalPlatform.Experiments

open Paper Transaction Transaction.TxM Machines

/-! ## Steps -/

/-- `reconcile_backtest` up to its first transaction. -/
def reconcileFirst (runId : String) : TxM ExperimentDb BatchError Unit := do
  let run ← TxM.read (fun db => .ok (db.backtest runId))
  match run with
  | none => pure ()
  | some run =>
    match run.batchItemId with
    | none => pure ()
    | some itemId => TxM.tx (reconcileItem run itemId)

/-- `deliver` when the worker dies before the evaluation is written, or another
call comes before that. -/
def deliverFirst (runId status : String) (error : Option String) (statistics : Statistics) :
    TxM ExperimentDb BatchError Unit := do
  TxM.tx (fun db => .ok ((), updateRun runId (fun run =>
    { run with status := status, error := error, statistics := statistics }) db))
  reconcileFirst runId

/-- The part of `retry_failed` before it dispatches. -/
def requeueFailed : TxM ExperimentDb BatchError Unit := do
  let (batch, items) ← TxM.read (fun db => .ok (db.batch, db.items))
  if batch.status ∉ finishedStatuses then
    TxM.fail (.leanWebError "Only a completed batch can retry failed items.")
  else if ¬ items.any (fun item => item.status == .failed) then
    TxM.fail (.leanWebError "The batch has no failed items to retry.")
  else TxM.tx (fun db => .ok ((), requeueItems [.failed] db))

/-- The part of `restart_cancelled` before it dispatches. -/
def requeueCancelled : TxM ExperimentDb BatchError Unit := do
  let (batch, items) ← TxM.read (fun db => .ok (db.batch, db.items))
  if ¬ batch.cancelRequested ∨ batch.status ∉ finishedStatuses then
    TxM.fail (.leanWebError "Only a completed cancelled batch can be restarted.")
  else if ¬ items.any (fun item => item.status ∈ restartable) then
    TxM.fail (.leanWebError "The cancelled batch has no unfinished items to restart.")
  else TxM.tx (fun db => .ok ((), requeueItems restartable db))

/-- A step of a call, or the delivery of a run, whole or in part.  A dispatch uses
the batch and the item as it read them. -/
inductive BatchStep where
  | refresh
  | dispatchItem (env : DispatchEnv) (batch : Batch) (item : BatchItem)
  | deliver (runId status : String) (error : Option String) (statistics : Statistics)
  | deliverFirst (runId status : String) (error : Option String) (statistics : Statistics)
  | finishItem (itemId : Nat) (statistics : Statistics) (error : Option String)
  | cancelItems
  | cancelBacktest (runId : String)
  | requeueFailed
  | requeueCancelled

/-- The program of a step. -/
def BatchStep.program : BatchStep → TxM ExperimentDb BatchError Unit
  | .refresh => Experiments.refresh
  | .dispatchItem env batch item => Experiments.dispatchItem env batch item
  | .deliver runId status error statistics => Experiments.deliver runId status error statistics
  | .deliverFirst runId status error statistics =>
    Experiments.deliverFirst runId status error statistics
  | .finishItem itemId statistics error => Experiments.finishItem itemId statistics error
  | .cancelItems => TxM.tx (fun db => .ok ((), Experiments.cancelItems db))
  | .cancelBacktest runId => Experiments.cancelBacktest runId
  | .requeueFailed => Experiments.requeueFailed
  | .requeueCancelled => Experiments.requeueCancelled

/-- The backtest service names a run by a text that is not empty. -/
def DispatchEnv.Names (env : DispatchEnv) (itemId : Nat) : Prop :=
  match env.createRun itemId with
  | .ok (runId, _) => runId ≠ ""
  | .error _ => True

instance (env : DispatchEnv) (itemId : Nat) : Decidable (env.Names itemId) := by
  unfold DispatchEnv.Names
  split <;> infer_instance

/-- Every sequence of steps. -/
abbrev stepMachine : Machine ExperimentDb BatchStep where
  allowed := fun db step =>
    match step with
    | .dispatchItem env _ item => env.Names item.id
    | .finishItem _ _ _ => db.batch.kind = "research"
    | _ => True
  next := fun db step => (step.program db).state

theorem Transactional.step {R : ExperimentDb → ExperimentDb → Prop} (h : Transactional R)
    (step : BatchStep) : Within R step.program := by
  have hW := h.within
  cases step with
  | refresh => exact h.refresh hW
  | dispatchItem env batch item => exact h.dispatchItem hW env batch item
  | deliver runId status error statistics => exact h.deliver hW runId status error statistics
  | deliverFirst runId status error statistics =>
    refine hW.bind (composes_write hW (fun db => h.runs db _)) (fun _ => ?_)
    refine hW.bind (hW.read _) (fun run => ?_)
    cases run with
    | none => exact hW.pure _
    | some run =>
      show Within R (match run.batchItemId with | none => _ | some itemId => _)
      cases run.batchItemId with
      | none => exact hW.pure _
      | some itemId => exact hW.tx (fun _ _ _ hrun => h.reconcileItem hrun)
  | finishItem itemId statistics error => exact h.finishItem hW itemId statistics error
  | cancelItems => exact composes_write hW h.cancelItems
  | cancelBacktest runId => exact h.cancelBacktest hW runId
  | requeueFailed =>
    refine hW.bind (hW.read _) (fun snapshot => ?_)
    show Within R (if _ then _ else if _ then _ else _)
    split_ifs
    · exact composes_write hW (h.requeueItems _)
    · exact hW.fail _
    · exact hW.fail _
  | requeueCancelled =>
    refine hW.bind (hW.read _) (fun snapshot => ?_)
    show Within R (if _ then _ else if _ then _ else _)
    split_ifs
    · exact hW.fail _
    · exact composes_write hW (h.requeueItems _)
    · exact hW.fail _

theorem Transactional.after {R : ExperimentDb → ExperimentDb → Prop} (h : Transactional R) :
    ∀ (steps : List BatchStep) (db : ExperimentDb), R db (stepMachine.after db steps) := by
  intro steps
  induction steps with
  | nil => exact h.refl
  | cons step steps ih =>
    intro db
    exact h.trans _ _ _ (h.step step db).2 (ih _)

end LocalPlatform.Experiments
