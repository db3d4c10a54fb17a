import Nestra.EarlyStopping
import Nestra.StateDict
import Nestra.PyString
import Mathlib.Data.List.Range
import Mathlib.Tactic.Linarith

/-
  The training orchestrator of utils/trainer.py: the
  ProductionTrainer state, its epoch loop with early
  stopping and plateau scheduling, the final restore of the
  best checkpoint, and the training-history part of the
  exported metadata.

  The model, loss and optimizer are opaque: one training
  pass and one validation pass per epoch (`EpochPasses`),
  which may update the tensors in storage in place and
  return the epoch's average losses.

  Main declarations:
    * `ReduceLROnPlateau.step`
    * `ProductionTrainer.init`, `ProductionTrainer.train`
    * `ProductionTrainer.train_eq_epochLoop`, `ProductionTrainer.train_frame`
    * `ProductionTrainer.train_history`
-/

------------------------------------------------------------
-- Plateau Scheduling
------------------------------------------------------------

namespace Nestra

/-
  torch.optim.lr_scheduler.ReduceLROnPlateau in mode 'min'
  with threshold_mode 'rel'; `best = none` is its initial
  value +inf.
-/
structure ReduceLROnPlateau (α : Type) where
  factor : α
  patience : Nat
  minLr : α
  threshold : α
  cooldown : Nat
  eps : α
  best : Option α
  numBadEpochs : Nat
  cooldownCounter : Nat

namespace ReduceLROnPlateau

variable {α : Type}
variable [Sub α] [Mul α] [LT α] [OfScientific α]
variable [DecidableRel (fun a b : α => a < b)]

/-
  The scheduler as the trainer builds it: factor 0.5,
  patience 5, min_lr 1e-6, with torch's defaults threshold
  1e-4, cooldown 0 and eps 1e-8.
-/
def init
    (factor : α)
    (patience : Nat)
    (minLr : α) : ReduceLROnPlateau α :=
  { factor := factor
    patience := patience
    minLr := minLr
    threshold := 0.0001
    cooldown := 0
    eps := 0.00000001
    best := none
    numBadEpochs := 0
    cooldownCounter := 0 }

/- `is_better` for mode 'min', threshold_mode 'rel'. -/
def isBetter
    (sch : ReduceLROnPlateau α)
    (a : α) : Bool :=
  match sch.best with
  | none => true
  | some best => decide (a < best * (1.0 - sch.threshold))

/-
  `step(metrics)`: the new scheduler state and the new
  learning rate of the optimizer's parameter group.
-/
def step
    (sch : ReduceLROnPlateau α)
    (metric lr : α) : ReduceLROnPlateau α × α :=
  let sch₁ :=
    if sch.isBetter metric then
      { sch with best := some metric, numBadEpochs := 0 }
    else
      { sch with numBadEpochs := sch.numBadEpochs + 1 }
  let sch₂ :=
    if 0 < sch₁.cooldownCounter then
      { sch₁ with
        cooldownCounter := sch₁.cooldownCounter - 1
        numBadEpochs := 0 }
    else
      sch₁
  if sch₂.patience < sch₂.numBadEpochs then
    let newLr :=
      if lr * sch₂.factor < sch₂.minLr then sch₂.minLr
      else lr * sch₂.factor
    ({ sch₂ with
        cooldownCounter := sch₂.cooldown
        numBadEpochs := 0 },
      if sch₂.eps < lr - newLr then newLr else lr)
  else
    (sch₂, lr)

/-
  The scheduler and the learning rate after `n` steps on the
  validation losses `valLoss 0, …, valLoss (n - 1)`: the
  rate in effect during epoch `n`.
-/
def afterSteps
    (sch : ReduceLROnPlateau α)
    (lr : α)
    (valLoss : Nat → α) : Nat → ReduceLROnPlateau α × α
  | 0 => (sch, lr)
  | n + 1 =>
      (afterSteps sch lr valLoss n).1.step (valLoss n)
        (afterSteps sch lr valLoss n).2

end ReduceLROnPlateau

end Nestra

------------------------------------------------------------
-- The Trainer State
------------------------------------------------------------

namespace Nestra

/- `self.history`: the three per-epoch lists. -/
structure History (α : Type) where
  trainLoss : List α
  valLoss : List α
  learningRate : List α

/-
  The state of a ProductionTrainer that training reads and
  writes. `store` holds the model's tensors; `lr` is
  `optimizer.param_groups[0]['lr']`.
-/
structure ProductionTrainer (α τ : Type) where
  model : Module
  store : Storage τ
  lr : α
  scheduler : ReduceLROnPlateau α
  earlyStopping : EarlyStopping α StateDict
  batchSize : Nat
  epochs : Nat
  history : History α

/-
  One training pass (`_train_epoch`) and one validation pass
  (`_validate_epoch`) of epoch `i`; the training pass runs
  at the given learning rate and may update the tensors in
  storage in place. A raised exception is an `error`.
-/
structure EpochPasses (α τ : Type) where
  trainEpoch : Nat → α → Storage τ → Except String (Storage τ × α)
  validateEpoch : Nat → Storage τ → Except String α

namespace ProductionTrainer

variable {α τ : Type}
variable [Add α] [Sub α] [Mul α] [LT α] [OfScientific α]
variable [DecidableRel (fun a b : α => a < b)]

/-
  `ProductionTrainer.__init__` with the source's defaults;
  the seeding, device choice and printing are in
  `Nestra.Pipeline`.
-/
def init
    (model : Module)
    (store : Storage τ)
    (learningRate : α := 0.001)
    (batchSize : Nat := 32)
    (epochs : Nat := 100)
    (patience : Int := 15) : ProductionTrainer α τ :=
  { model := model
    store := store
    lr := learningRate
    scheduler := ReduceLROnPlateau.init 0.5 5 0.000001
    earlyStopping := EarlyStopping.init patience 0.0001 "min"
    batchSize := batchSize
    epochs := epochs
    history := ⟨[], [], []⟩ }

/- `_update_training_state`: the new trainer and whether to stop. -/
def updateTrainingState
    (t : ProductionTrainer α τ)
    (_epoch : Nat)
    (trainLoss valLoss : α) : ProductionTrainer α τ × Bool :=
  let currentLr := t.lr
  let history : History α :=
    { trainLoss := t.history.trainLoss ++ [trainLoss]
      valLoss := t.history.valLoss ++ [valLoss]
      learningRate := t.history.learningRate ++ [currentLr] }
  let scheduled := t.scheduler.step valLoss t.lr
  let stopped :=
    t.earlyStopping.call valLoss (StateDict.copy t.model.stateDict)
  ({ t with
      history := history
      scheduler := scheduled.1
      lr := scheduled.2
      earlyStopping := stopped.1 }, stopped.2)

/-
  The epoch loop `for epoch in range(self.epochs)` of
  `train`, over the epochs still to run, with its `break`.
-/
def epochLoop
    (passes : EpochPasses α τ) :
    ProductionTrainer α τ → List Nat →
      Except String (ProductionTrainer α τ)
  | t, [] => .ok t
  | t, epoch :: rest => do
      let (store, trainLoss) ← passes.trainEpoch epoch t.lr t.store
      let valLoss ← passes.validateEpoch epoch store
      let (t', stop) :=
        updateTrainingState { t with store := store } epoch
          trainLoss valLoss
      if stop then .ok t' else epochLoop passes t' rest

/-
  `_finalize_training`: load `early_stopping.best_state`
  when it is a non-empty dict.
-/
def finalizeTraining
    (t : ProductionTrainer α τ) : ProductionTrainer α τ :=
  match t.earlyStopping.bestState with
  | some sd =>
      if sd.isEmpty then t
      else { t with store := t.model.loadStateDict sd t.store }
  | none => t

/- `train`: the trainer whose `model` and `store` are returned. -/
def train
    (passes : EpochPasses α τ)
    (t : ProductionTrainer α τ) :
    Except String (ProductionTrainer α τ) := do
  let t ← epochLoop passes t (List.range t.epochs)
  pure t.finalizeTraining

end ProductionTrainer

end Nestra

------------------------------------------------------------
-- One Epoch
------------------------------------------------------------

namespace Nestra

namespace ProductionTrainer

variable {α τ : Type}
variable [Add α] [Sub α] [Mul α] [LT α] [OfScientific α]
variable [DecidableRel (fun a b : α => a < b)]
variable (t : ProductionTrainer α τ) (epoch : Nat) (trainLoss valLoss : α)

@[simp] theorem updateTrainingState_model :
    (t.updateTrainingState epoch trainLoss valLoss).1.model = t.model :=
  rfl

@[simp] theorem updateTrainingState_store :
    (t.updateTrainingState epoch trainLoss valLoss).1.store = t.store :=
  rfl

@[simp] theorem updateTrainingState_epochs :
    (t.updateTrainingState epoch trainLoss valLoss).1.epochs = t.epochs :=
  rfl

/- The history only grows, by one entry per list. -/
@[simp] theorem updateTrainingState_history :
    (t.updateTrainingState epoch trainLoss valLoss).1.history =
      ⟨t.history.trainLoss ++ [trainLoss],
        t.history.valLoss ++ [valLoss],
        t.history.learningRate ++ [t.lr]⟩ :=
  rfl

@[simp] theorem updateTrainingState_scheduler :
    (t.updateTrainingState epoch trainLoss valLoss).1.scheduler =
      (t.scheduler.step valLoss t.lr).1 :=
  rfl

@[simp] theorem updateTrainingState_lr :
    (t.updateTrainingState epoch trainLoss valLoss).1.lr =
      (t.scheduler.step valLoss t.lr).2 :=
  rfl

/- Early stopping sees the validation loss and a shallow copy. -/
@[simp] theorem updateTrainingState_earlyStopping :
    (t.updateTrainingState epoch trainLoss valLoss).1.earlyStopping =
      (t.earlyStopping.call valLoss
        (StateDict.copy t.model.stateDict)).1 :=
  rfl

@[simp] theorem updateTrainingState_stop :
    (t.updateTrainingState epoch trainLoss valLoss).2 =
      (t.earlyStopping.call valLoss
        (StateDict.copy t.model.stateDict)).2 :=
  rfl

end ProductionTrainer

end Nestra

------------------------------------------------------------
-- The Epoch Loop
------------------------------------------------------------

namespace Nestra

/- A computation that may raise succeeds iff each part does. -/
theorem Except.bind_eq_ok
    {ε β γ : Type}
    {x : Except ε β}
    {f : β → Except ε γ}
    {c : γ} :
    x.bind f = .ok c ↔ ∃ b, x = .ok b ∧ f b = .ok c := by
  cases x <;> simp [Except.bind]

namespace ProductionTrainer

variable {α τ : Type}
variable [Add α] [Sub α] [Mul α] [LT α] [OfScientific α]
variable [DecidableRel (fun a b : α => a < b)]

/- One iteration of the epoch loop. -/
theorem epochLoop_cons
    (passes : EpochPasses α τ)
    (t : ProductionTrainer α τ)
    (epoch : Nat)
    (rest : List Nat) :
    epochLoop passes t (epoch :: rest) =
      (passes.trainEpoch epoch t.lr t.store).bind fun r =>
        (passes.validateEpoch epoch r.1).bind fun valLoss =>
          let u := updateTrainingState { t with store := r.1 } epoch
            r.2 valLoss
          if u.2 then .ok u.1 else epochLoop passes u.1 rest :=
  rfl

/- An epoch whose training pass raises ends the run with its error. -/
theorem epochLoop_cons_eq_error
    (passes : EpochPasses α τ)
    (t : ProductionTrainer α τ)
    (epoch : Nat)
    (rest : List Nat)
    {msg : String}
    (hRaise : passes.trainEpoch epoch t.lr t.store = .error msg) :
    epochLoop passes t (epoch :: rest) = .error msg := by
  rw [epochLoop_cons, hRaise]
  rfl

/- A run whose first training pass raises fails with that error. -/
theorem train_eq_error
    (passes : EpochPasses α τ)
    {t : ProductionTrainer α τ}
    (hEpochs : 0 < t.epochs)
    {msg : String}
    (hRaise : passes.trainEpoch 0 t.lr t.store = .error msg) :
    train passes t = .error msg := by
  obtain ⟨n, hn⟩ : ∃ n, t.epochs = n + 1 := ⟨t.epochs - 1, by omega⟩
  rw [train, hn, List.range_succ_eq_map, epochLoop_cons_eq_error passes t 0 _ hRaise]
  rfl

end ProductionTrainer

end Nestra

------------------------------------------------------------
-- The Checkpoint Is an Alias
------------------------------------------------------------

namespace Nestra

namespace ProductionTrainer

variable {α τ : Type}
variable [Add α] [Sub α] [Mul α] [LT α] [OfScientific α]
variable [DecidableRel (fun a b : α => a < b)]

/-
  Every checkpoint early stopping holds is the shallow copy
  `model.state_dict().copy()` of the trainer's own model.
-/
def SnapshotInv (t : ProductionTrainer α τ) : Prop :=
  t.earlyStopping.bestState = none ∨
    t.earlyStopping.bestState = some (StateDict.copy t.model.stateDict)

omit [Add α] [Sub α] [Mul α] [LT α] [OfScientific α]
  [DecidableRel (fun a b : α => a < b)] in
theorem snapshotInv_of_bestState_none
    {t : ProductionTrainer α τ}
    (hNone : t.earlyStopping.bestState = none) :
    SnapshotInv t :=
  Or.inl hNone

/- Early stopping records nothing but the snapshot it is given. -/
omit [Mul α] [OfScientific α] in
theorem call_bestState
    (es : EarlyStopping α StateDict)
    (score : α)
    (snapshot : StateDict) :
    (es.call score snapshot).1.bestState = es.bestState ∨
      (es.call score snapshot).1.bestState = some snapshot := by
  rcases hBest : es.bestScore with _ | best
  · simp [hBest]
  · cases hImproved : es.isImproved score <;>
      simp [hBest, hImproved]

theorem snapshotInv_updateTrainingState
    {t : ProductionTrainer α τ}
    (hInv : SnapshotInv t)
    (epoch : Nat)
    (trainLoss valLoss : α) :
    SnapshotInv (t.updateTrainingState epoch trainLoss valLoss).1 := by
  unfold SnapshotInv at hInv ⊢
  rcases call_bestState t.earlyStopping valLoss
      (StateDict.copy t.model.stateDict) with hKeep | hNew
  · simpa [hKeep] using hInv
  · simp [hNew]

/- The loop keeps the invariant. -/
theorem snapshotInv_epochLoop
    (passes : EpochPasses α τ)
    (epochs : List Nat) :
    ∀ {t t' : ProductionTrainer α τ},
      SnapshotInv t →
      epochLoop passes t epochs = .ok t' →
      SnapshotInv t' := by
  induction epochs with
  | nil => rintro t t' hInv ⟨⟩; exact hInv
  | cons epoch rest ih =>
      intro t t' hInv hRun
      rw [epochLoop_cons] at hRun
      obtain ⟨⟨store, trainLoss⟩, -, hRun⟩ := Except.bind_eq_ok.1 hRun
      obtain ⟨valLoss, -, hRun⟩ := Except.bind_eq_ok.1 hRun
      have hNext := snapshotInv_updateTrainingState
        (t := { t with store := store }) hInv epoch trainLoss valLoss
      dsimp only at hRun
      split at hRun
      · cases hRun; exact hNext
      · exact ih hNext hRun

/-
  What every epoch's bookkeeping carries from `k` to `k + 1`
  epochs, after any training pass, holds after every run of
  the loop that returns, at the number of epochs it ran,
  which is at most the number it was given.
-/
theorem epochLoop_inv
    (P : Nat → ProductionTrainer α τ → Prop)
    (hStep : ∀ (k : Nat) (t : ProductionTrainer α τ) (store : Storage τ) (epoch : Nat)
      (trainLoss valLoss : α), P k t →
        P (k + 1) (updateTrainingState { t with store := store } epoch trainLoss valLoss).1)
    (passes : EpochPasses α τ)
    (epochs : List Nat) :
    ∀ {k : Nat} {t t' : ProductionTrainer α τ}, P k t →
      epochLoop passes t epochs = .ok t' → ∃ j ≤ epochs.length, P (k + j) t' := by
  induction epochs with
  | nil => rintro k t t' hP ⟨⟩; exact ⟨0, le_rfl, hP⟩
  | cons epoch rest ih =>
      intro k t t' hP hRun
      rw [epochLoop_cons] at hRun
      obtain ⟨⟨store, trainLoss⟩, -, hRun⟩ := Except.bind_eq_ok.1 hRun
      obtain ⟨valLoss, -, hRun⟩ := Except.bind_eq_ok.1 hRun
      have hNext := hStep k t store epoch trainLoss valLoss hP
      dsimp only at hRun
      split at hRun
      · cases hRun
        exact ⟨1, by simp, hNext⟩
      · obtain ⟨j, hj, hP'⟩ := ih hNext hRun
        exact ⟨j + 1, by simp [hj], by rwa [Nat.add_right_comm, Nat.add_assoc] at hP'⟩

/-
  `_finalize_training` changes nothing on a trainer whose
  checkpoint is the shallow copy: loading it copies every
  tensor onto itself.
-/
omit [Add α] [Sub α] [Mul α] [LT α] [OfScientific α]
  [DecidableRel (fun a b : α => a < b)] in
theorem finalizeTraining_eq_self
    {t : ProductionTrainer α τ}
    (hInv : SnapshotInv t) :
    t.finalizeTraining = t := by
  rcases hInv with hNone | hSome
  · simp [finalizeTraining, hNone]
  · simp only [finalizeTraining, hSome,
      Module.loadStateDict_stateDict_copy]
    split <;> rfl

/-
  For every run whose trainer starts with no checkpoint or
  a shallow one, `train` returns exactly the trainer of the
  last executed epoch: the restore of the best checkpoint
  has no effect.
-/
theorem train_eq_epochLoop
    (passes : EpochPasses α τ)
    {t : ProductionTrainer α τ}
    (hInv : SnapshotInv t) :
    train passes t = epochLoop passes t (List.range t.epochs) := by
  unfold train
  rcases hRun : epochLoop passes t (List.range t.epochs) with _ | t'
  · rfl
  · simp [bind, Except.bind, pure, Except.pure,
      finalizeTraining_eq_self (snapshotInv_epochLoop passes _ hInv hRun)]

/-
  Passes that always succeed and leave the tensors in place
  make a run that succeeds and ends with the tensors it
  started from.
-/
theorem epochLoop_frame
    (passes : EpochPasses α τ)
    (hTrain : ∀ i lr s, ∃ l, passes.trainEpoch i lr s = .ok (s, l))
    (hVal : ∀ i s, ∃ v, passes.validateEpoch i s = .ok v) :
    ∀ (epochs : List Nat) (t : ProductionTrainer α τ),
      ∃ t', epochLoop passes t epochs = .ok t' ∧ t'.store = t.store
  | [], t => ⟨t, rfl, rfl⟩
  | epoch :: rest, t => by
      obtain ⟨trainLoss, hTrainLoss⟩ := hTrain epoch t.lr t.store
      obtain ⟨valLoss, hValLoss⟩ := hVal epoch t.store
      rw [epochLoop_cons, hTrainLoss]
      simp only [Except.bind, hValLoss]
      split
      · exact ⟨_, rfl, rfl⟩
      · exact epochLoop_frame passes hTrain hVal rest _

/- Passes that never raise make every run return, wherever it stops. -/
theorem epochLoop_ok
    (passes : EpochPasses α τ)
    (hTrain : ∀ i lr s, ∃ r, passes.trainEpoch i lr s = .ok r)
    (hVal : ∀ i s, ∃ v, passes.validateEpoch i s = .ok v) :
    ∀ (epochs : List Nat) (t : ProductionTrainer α τ), ∃ t', epochLoop passes t epochs = .ok t'
  | [], t => ⟨t, rfl⟩
  | epoch :: rest, t => by
      obtain ⟨r, hr⟩ := hTrain epoch t.lr t.store
      obtain ⟨valLoss, hValLoss⟩ := hVal epoch r.1
      rw [epochLoop_cons, hr]
      simp only [Except.bind, hValLoss]
      split
      · exact ⟨_, rfl⟩
      · exact epochLoop_ok passes hTrain hVal rest _

theorem train_ok
    (passes : EpochPasses α τ)
    (hTrain : ∀ i lr s, ∃ r, passes.trainEpoch i lr s = .ok r)
    (hVal : ∀ i s, ∃ v, passes.validateEpoch i s = .ok v)
    (t : ProductionTrainer α τ) :
    ∃ t', train passes t = .ok t' := by
  obtain ⟨t', hRun⟩ := epochLoop_ok passes hTrain hVal (List.range t.epochs) t
  exact ⟨t'.finalizeTraining, by simp only [train, hRun]; rfl⟩

/- The same for `train`, from a trainer with no checkpoint or a shallow one. -/
theorem train_frame
    (passes : EpochPasses α τ)
    (hTrain : ∀ i lr s, ∃ l, passes.trainEpoch i lr s = .ok (s, l))
    (hVal : ∀ i s, ∃ v, passes.validateEpoch i s = .ok v)
    {t : ProductionTrainer α τ}
    (hInv : SnapshotInv t) :
    ∃ t', train passes t = .ok t' ∧ t'.store = t.store := by
  rw [train_eq_epochLoop passes hInv]
  exact epochLoop_frame passes hTrain hVal _ t

end ProductionTrainer

end Nestra

------------------------------------------------------------
-- Runs Driven by Sequences
------------------------------------------------------------

namespace Nestra

/-
  Passes that, at epoch `i`, update the tensors in place by
  `update i lr` and report the average losses `trainLoss i`
  and `valLoss i`: any sequence of updates and losses.
-/
def EpochPasses.ofSequences
    {α τ : Type}
    (update : Nat → α → Storage τ → Storage τ)
    (trainLoss valLoss : Nat → α) : EpochPasses α τ :=
  { trainEpoch := fun i lr s => .ok (update i lr s, trainLoss i)
    validateEpoch := fun i _ => .ok (valLoss i) }

namespace ProductionTrainer

variable {α τ : Type}
variable [Add α] [Sub α] [Mul α] [LT α] [OfScientific α]
variable [DecidableRel (fun a b : α => a < b)]
variable (update : Nat → α → Storage τ → Storage τ)
variable (trainLoss valLoss : Nat → α)

/- The trainer after epochs `0, …, n - 1` with no stop. -/
def runEpochs
    (t : ProductionTrainer α τ) : Nat → ProductionTrainer α τ
  | 0 => t
  | n + 1 =>
      let t' := runEpochs t n
      (updateTrainingState
        { t' with store := update n t'.lr t'.store } n
        (trainLoss n) (valLoss n)).1

/- Whether the loop's epoch `i` signals a stop. -/
def stopsAt
    (t : ProductionTrainer α τ)
    (i : Nat) : Bool :=
  let t' := runEpochs update trainLoss valLoss t i
  (updateTrainingState
    { t' with store := update i t'.lr t'.store } i
    (trainLoss i) (valLoss i)).2

/- The calls early stopping receives in the first `n` epochs. -/
def stopCalls
    (t : ProductionTrainer α τ)
    (n : Nat) : List (α × StateDict) :=
  (List.range n).map fun i => (valLoss i, StateDict.copy t.model.stateDict)

@[simp] theorem runEpochs_model
    (t : ProductionTrainer α τ)
    (n : Nat) :
    (runEpochs update trainLoss valLoss t n).model = t.model := by
  induction n with
  | zero => rfl
  | succ n ih => simp [runEpochs, ih]

@[simp] theorem runEpochs_epochs
    (t : ProductionTrainer α τ)
    (n : Nat) :
    (runEpochs update trainLoss valLoss t n).epochs = t.epochs := by
  induction n with
  | zero => rfl
  | succ n ih => simp [runEpochs, ih]

/- One iteration of the loop under sequence passes. -/
theorem epochLoop_ofSequences_cons
    (t : ProductionTrainer α τ)
    (a : Nat)
    (rest : List Nat) :
    epochLoop (EpochPasses.ofSequences update trainLoss valLoss)
        (runEpochs update trainLoss valLoss t a) (a :: rest) =
      if stopsAt update trainLoss valLoss t a then
        .ok (runEpochs update trainLoss valLoss t (a + 1))
      else
        epochLoop (EpochPasses.ofSequences update trainLoss valLoss)
          (runEpochs update trainLoss valLoss t (a + 1)) rest :=
  rfl

/-
  The loop over epochs `a, …, a + n - 1` from the trainer of
  epoch `a` runs up to and including the first epoch that
  signals a stop.
-/
theorem epochLoop_runEpochs
    (t : ProductionTrainer α τ)
    (a n : Nat) :
    epochLoop (EpochPasses.ofSequences update trainLoss valLoss)
        (runEpochs update trainLoss valLoss t a) (List.range' a n) =
      .ok (runEpochs update trainLoss valLoss t
        (a + min n (((List.range' a n).map
          (stopsAt update trainLoss valLoss t)).findIdx id + 1))) := by
  induction n generalizing a with
  | zero => simp [epochLoop]
  | succ n ih =>
      rw [List.range'_succ, epochLoop_ofSequences_cons]
      cases hStop : stopsAt update trainLoss valLoss t a
      · rw [if_neg (by simp), ih (a + 1)]
        simp only [List.map_cons, List.findIdx_cons, hStop, id, cond_false]
        congr 2
        omega
      · simp [List.findIdx_cons, hStop]

omit [Add α] [Sub α] [Mul α] [LT α] [OfScientific α]
  [DecidableRel (fun a b : α => a < b)] in
theorem stopCalls_succ
    (t : ProductionTrainer α τ)
    (n : Nat) :
    stopCalls valLoss t (n + 1) =
      stopCalls valLoss t n ++
        [(valLoss n, StateDict.copy t.model.stateDict)] := by
  simp [stopCalls, List.range_succ]

/- Early stopping after `n` epochs has seen the first `n` losses. -/
theorem runEpochs_earlyStopping
    (t : ProductionTrainer α τ)
    (n : Nat) :
    (runEpochs update trainLoss valLoss t n).earlyStopping =
      t.earlyStopping.feed (stopCalls valLoss t n) := by
  induction n with
  | zero => rfl
  | succ n ih =>
      simp [runEpochs, ih, stopCalls_succ]

/- The stop flags of the loop are the values early stopping returns. -/
theorem map_stopsAt_range
    (t : ProductionTrainer α τ)
    (n : Nat) :
    (List.range n).map (stopsAt update trainLoss valLoss t) =
      t.earlyStopping.returns (stopCalls valLoss t n) := by
  induction n with
  | zero => rfl
  | succ n ih =>
      rw [List.range_succ, List.map_append, ih, stopCalls_succ,
        EarlyStopping.returns_snoc]
      simp [stopsAt, runEpochs_earlyStopping]

/- Scheduler and learning rate follow `afterSteps`. -/
theorem runEpochs_scheduler_lr
    (t : ProductionTrainer α τ)
    (n : Nat) :
    (runEpochs update trainLoss valLoss t n).scheduler =
        (t.scheduler.afterSteps t.lr valLoss n).1 ∧
      (runEpochs update trainLoss valLoss t n).lr =
        (t.scheduler.afterSteps t.lr valLoss n).2 := by
  induction n with
  | zero => exact ⟨rfl, rfl⟩
  | succ n ih =>
      simp [runEpochs, ReduceLROnPlateau.afterSteps, ih.1, ih.2]

/-
  After `n` epochs each history list has gained one entry
  per epoch: the losses and the rate in effect.
-/
theorem runEpochs_history
    (t : ProductionTrainer α τ)
    (n : Nat) :
    (runEpochs update trainLoss valLoss t n).history =
      ⟨t.history.trainLoss ++ (List.range n).map trainLoss,
        t.history.valLoss ++ (List.range n).map valLoss,
        t.history.learningRate ++ (List.range n).map
          (fun i => (t.scheduler.afterSteps t.lr valLoss i).2)⟩ := by
  induction n with
  | zero => simp [runEpochs]
  | succ n ih =>
      simp [runEpochs, ih, List.range_succ,
        (runEpochs_scheduler_lr update trainLoss valLoss t n).2]

end ProductionTrainer

end Nestra

------------------------------------------------------------
-- Export Metadata
------------------------------------------------------------

namespace Nestra

/- `norm_params`, the dict `normalize_features` returns. -/
structure NormParams (α : Type) where
  means : List α
  stds : List α

/- The 'trainHistory' entry of the metadata side-car. -/
structure TrainHistory (α : Type) where
  finalTrainLoss : Option α
  finalValLoss : Option α
  epochs : Nat

/- The metadata side-car `_save_metadata` writes. -/
structure Metadata (α : Type) where
  modelType : String
  version : String
  normParams : NormParams α
  inputSize : Nat
  trainHistory : TrainHistory α
  exportedAt : String
  device : String

namespace ProductionTrainer

variable {α τ : Type}

/- The 'trainHistory' summary of `self.history`. -/
def trainHistory (t : ProductionTrainer α τ) : TrainHistory α :=
  { finalTrainLoss := t.history.trainLoss.getLast?
    finalValLoss := t.history.valLoss.getLast?
    epochs := t.history.trainLoss.length }

/-
  `_save_metadata`: the side-car's path and contents.
  `exportedAt` stands for `datetime.now().isoformat()` and
  `device` for `str(self.device)`.
-/
def saveMetadata
    (t : ProductionTrainer α τ)
    (outputPath modelName : String)
    (normParams : NormParams α)
    (inputSize : Nat)
    (exportedAt device : String) : String × Metadata α :=
  (pyReplace outputPath ".onnx" "_metadata.json",
    { modelType := modelName
      version := "2.0.0"
      normParams := normParams
      inputSize := inputSize
      trainHistory := t.trainHistory
      exportedAt := exportedAt
      device := device })

/-
  `export_onnx`: the ONNX graph export is opaque; this is
  the side-car written after it.
-/
def exportOnnx
    (t : ProductionTrainer α τ)
    (outputPath : String)
    (inputSize : Nat)
    (modelName : String)
    (normParams : NormParams α)
    (exportedAt device : String) : String × Metadata α :=
  t.saveMetadata outputPath modelName normParams inputSize exportedAt device

end ProductionTrainer

end Nestra

------------------------------------------------------------
-- The Training History
------------------------------------------------------------

namespace Nestra

namespace ProductionTrainer

variable {α τ : Type}
variable [Add α] [Sub α] [Mul α] [LT α] [OfScientific α]
variable [DecidableRel (fun a b : α => a < b)]

omit [Add α] [Sub α] [Mul α] [LT α] [OfScientific α]
  [DecidableRel (fun a b : α => a < b)] in
theorem getLast?_range
    (n : Nat) :
    (List.range n).getLast? =
      if n = 0 then none else some (n - 1) := by
  cases n with
  | zero => rfl
  | succ n => simp [List.range_succ]

/-
  The loop over a budget `n` runs the epochs up to and
  including the first one whose early-stopping call returns
  `true`, and at most `n`.
-/
theorem epochLoop_range
    (update : Nat → α → Storage τ → Storage τ)
    (trainLoss valLoss : Nat → α)
    (t : ProductionTrainer α τ)
    (n : Nat) :
    epochLoop (EpochPasses.ofSequences update trainLoss valLoss) t
        (List.range n) =
      .ok (runEpochs update trainLoss valLoss t
        (min n ((t.earlyStopping.returns
          (stopCalls valLoss t n)).findIdx id + 1))) := by
  have hRun := epochLoop_runEpochs update trainLoss valLoss t 0 n
  rw [← List.range_eq_range', map_stopsAt_range] at hRun
  simpa using hRun

/-
  A fresh trainer fed any sequence of in-place updates and
  average losses runs exactly `E = min(epochs, k)` epochs,
  `k` the first epoch whose early-stopping call returns
  `true`; a stop comes no earlier than epoch `patience + 1`;
  the history holds, per executed epoch, its losses and the
  learning rate in effect, and every prefix of it was
  already the history of the loop after that many epochs;
  the metadata summary reports the last entries and `E`.
-/
theorem train_history
    (model : Module)
    (store : Storage τ)
    (learningRate : α)
    (batchSize epochs : Nat)
    (patience : Int)
    (update : Nat → α → Storage τ → Storage τ)
    (trainLoss valLoss : Nat → α) :
    let t₀ : ProductionTrainer α τ :=
      init model store learningRate batchSize epochs patience
    let passes := EpochPasses.ofSequences update trainLoss valLoss
    let stops := t₀.earlyStopping.returns (stopCalls valLoss t₀ epochs)
    let E := min epochs (stops.findIdx id + 1)
    ∃ t, train passes t₀ = .ok t ∧
      t = runEpochs update trainLoss valLoss t₀ E ∧
      t.history.trainLoss = (List.range E).map trainLoss ∧
      t.history.valLoss = (List.range E).map valLoss ∧
      t.history.learningRate = (List.range E).map
        (fun i => (t₀.scheduler.afterSteps learningRate valLoss i).2) ∧
      (true ∈ stops → patience + 1 ≤ (E : Int)) ∧
      (∀ e ≤ E, ∃ tₑ, epochLoop passes t₀ (List.range e) = .ok tₑ ∧
        tₑ.history.trainLoss = t.history.trainLoss.take e ∧
        tₑ.history.valLoss = t.history.valLoss.take e ∧
        tₑ.history.learningRate = t.history.learningRate.take e) ∧
      t.trainHistory =
        { finalTrainLoss := if E = 0 then none else some (trainLoss (E - 1))
          finalValLoss := if E = 0 then none else some (valLoss (E - 1))
          epochs := E } := by
  intro t₀ passes stops E
  have hInv : SnapshotInv t₀ := Or.inl rfl
  have hFresh : EarlyStopping.Fresh t₀.earlyStopping :=
    EarlyStopping.fresh_init patience 0.0001 "min"
  have hEmpty : t₀.history = ⟨[], [], []⟩ := rfl
  have hLr : t₀.lr = learningRate := rfl
  have hHistory := fun n => runEpochs_history update trainLoss valLoss t₀ n
  simp only [hEmpty, hLr, List.nil_append] at hHistory
  have hLoop := epochLoop_range update trainLoss valLoss t₀ epochs
  have hStopsLen : stops.length = epochs := by simp [stops, stopCalls]
  refine ⟨runEpochs update trainLoss valLoss t₀ E,
    (train_eq_epochLoop passes hInv).trans hLoop, rfl, by simp [hHistory],
    by simp [hHistory], by simp [hHistory], ?_, ?_, ?_⟩
  · intro hMem
    have hLt : stops.findIdx id < stops.length :=
      List.findIdx_lt_length_of_exists ⟨true, hMem, rfl⟩
    have hTrue : stops[stops.findIdx id]? = some true := by
      rw [List.getElem?_eq_getElem hLt]
      simpa using List.findIdx_getElem (w := hLt)
    have hPatience := EarlyStopping.patience_lt_of_returns hFresh _ _ hTrue
    have hPatienceEq : t₀.earlyStopping.patience = patience := rfl
    omega
  · intro e he
    have hE : E ≤ epochs := Nat.min_le_left _ _
    have hPrefix : t₀.earlyStopping.returns (stopCalls valLoss t₀ e) =
        stops.take e := by
      show _ = (t₀.earlyStopping.returns (stopCalls valLoss t₀ epochs)).take e
      rw [← map_stopsAt_range update trainLoss valLoss,
        ← map_stopsAt_range update trainLoss valLoss, ← List.map_take,
        List.take_range, Nat.min_eq_left (by omega)]
    refine ⟨_, epochLoop_range update trainLoss valLoss t₀ e, ?_⟩
    rw [hPrefix, List.findIdx_take,
      show min e (min e (stops.findIdx id) + 1) = e by omega]
    simp [hHistory, ← List.map_take, List.take_range, Nat.min_eq_left he]
  · by_cases hZero : E = 0 <;>
      simp [trainHistory, hHistory, getLast?_range, hZero]

end ProductionTrainer

end Nestra

------------------------------------------------------------
-- The Restore and the Stop on Concrete Runs
------------------------------------------------------------

namespace Nestra

namespace ProductionTrainer

/-
  A late regression: epoch 0 sets the weight to 1 with
  validation loss 1, epoch 1 sets it to 2 with loss 2. Early
  stopping keeps best score 1 from epoch 0, after which the
  weight was 1, yet `train` returns the weight 2 of the last
  epoch.
-/
theorem train_keeps_last_epoch_after_late_regression :
    let model : Module := ⟨[("weight", 0)], by simp⟩
    let t₀ : ProductionTrainer ℚ Int := init model (fun _ => 0) 0.001 32 2 20
    let passes := EpochPasses.ofSequences
      (fun i _ s => s.write 0 ((i : Int) + 1)) (fun _ => 0)
      (fun i => if i = 0 then 1 else 2)
    (∃ t₁, epochLoop passes t₀ (List.range 1) = .ok t₁ ∧
        t₁.model.values t₁.store = [("weight", 1)]) ∧
      ∃ t, train passes t₀ = .ok t ∧
        t.earlyStopping.bestScore = some 1 ∧
        t.model.values t.store = [("weight", 2)] := by
  intro model t₀ passes
  have hReturns : ∀ n ≤ 2,
      t₀.earlyStopping.returns
          (stopCalls (fun i => if i = 0 then (1 : ℚ) else 2) t₀ n) =
        List.replicate n false := by
    intro n hn
    rcases Nat.le_succ_iff.1 hn with hn | rfl
    · rcases Nat.le_one_iff_eq_zero_or_eq_one.1 hn with rfl | rfl <;> rfl
    · simp [stopCalls, List.range_succ, EarlyStopping.returns,
        EarlyStopping.call, EarlyStopping.isImproved, t₀, init,
        EarlyStopping.init]
      norm_num
  refine ⟨⟨_, epochLoop_range _ _ _ t₀ 1, ?_⟩,
    _, (train_eq_epochLoop _ (Or.inl rfl)).trans
      (epochLoop_range _ _ _ t₀ 2), ?_⟩
  · rw [hReturns 1 (by decide)]
    simp [runEpochs, Module.values, Storage.write, model, t₀, init]
  · rw [hReturns 2 le_rfl]
    simp [runEpochs, t₀, init, EarlyStopping.init, EarlyStopping.call,
      EarlyStopping.isImproved, Module.values, Storage.write, model]
    norm_num

variable {α τ : Type}
variable [Add α] [Sub α] [Mul α] [LT α] [OfScientific α]
variable [DecidableRel (fun a b : α => a < b)]

/-
  The trainer's early stopping, fed any losses that each
  fall more than its `min_delta = 0.0001` below the previous
  one, never returns `true`; so `train` on such validation
  losses runs its whole epoch budget.
-/
theorem never_stops_of_steep_decrease
    (model : Module)
    (store : Storage τ)
    (learningRate : α)
    (batchSize epochs : Nat)
    (patience : Int)
    (update : Nat → α → Storage τ → Storage τ)
    (trainLoss valLoss : Nat → α)
    (hSteep : ∀ i, valLoss (i + 1) < valLoss i - 0.0001) :
    let t₀ : ProductionTrainer α τ :=
      init model store learningRate batchSize epochs patience
    (∀ calls : List (α × StateDict),
        (calls.map Prod.fst).Chain' (fun a b => b < a - 0.0001) →
        ∀ b ∈ t₀.earlyStopping.returns calls, b = false) ∧
      ∃ t, train (EpochPasses.ofSequences update trainLoss valLoss) t₀ =
          .ok t ∧
        t.history.valLoss = (List.range epochs).map valLoss := by
  intro t₀
  have hNever : ∀ calls : List (α × StateDict),
      (calls.map Prod.fst).Chain' (fun a b => b < a - 0.0001) →
      ∀ b ∈ t₀.earlyStopping.returns calls, b = false :=
    fun calls hChain =>
      EarlyStopping.returns_false_of_steep_fresh
        (EarlyStopping.fresh_init patience 0.0001 "min") rfl calls hChain
  have hChain : ((stopCalls valLoss t₀ epochs).map Prod.fst).Chain'
      (fun a b => b < a - 0.0001) := by
    rw [stopCalls, List.map_map, List.chain'_map]
    cases epochs with
    | zero => exact List.chain'_nil
    | succ n =>
        exact (List.chain'_range_succ _ n).2 (fun m _ => hSteep m)
  have hNone : (t₀.earlyStopping.returns
      (stopCalls valLoss t₀ epochs)).findIdx id = epochs := by
    rw [List.findIdx_eq_length_of_false
      (fun b hb => by simpa using hNever _ hChain b hb)]
    simp [stopCalls]
  refine ⟨hNever, _, (train_eq_epochLoop _ (Or.inl rfl)).trans
    (epochLoop_range update trainLoss valLoss t₀ epochs), ?_⟩
  rw [hNone, Nat.min_eq_left (Nat.le_succ epochs),
    runEpochs_history]
  rfl

theorem never_stops_of_steep_decrease_on_unit_drops :
    (∀ i : Nat, -(((i + 1 : Nat) : ℚ)) < -((i : Nat) : ℚ) - 0.0001) ∧
      let t₀ : ProductionTrainer ℚ Int :=
        init ⟨[("weight", 0)], by simp⟩ (fun _ => 0) 0.001 32 3 1
      (∀ calls : List (ℚ × StateDict),
          (calls.map Prod.fst).Chain' (fun a b => b < a - 0.0001) →
          ∀ b ∈ t₀.earlyStopping.returns calls, b = false) ∧
        ∃ t, train (EpochPasses.ofSequences (fun _ _ s => s) (fun _ => 0)
            (fun i => -((i : Nat) : ℚ))) t₀ = .ok t ∧
          t.history.valLoss =
            (List.range 3).map (fun i => -((i : Nat) : ℚ)) := by
  have hSteep : ∀ i : Nat, -(((i + 1 : Nat) : ℚ)) < -((i : Nat) : ℚ) - 0.0001 := by
    intro i
    push_cast
    norm_num
    linarith
  exact ⟨hSteep, never_stops_of_steep_decrease _ _ _ _ _ _ _ _ _ hSteep⟩

/-
  Validation losses `1, 0.99999, 0.99998` strictly decrease,
  but by less than `min_delta`: with patience 1 the trainer
  stops after the second of its three epochs.
-/
theorem train_stops_on_slow_decrease :
    let valLoss : Nat → ℚ := fun i => 1 - (i : ℚ) / 100000
    let t₀ : ProductionTrainer ℚ Int :=
      init ⟨[("weight", 0)], by simp⟩ (fun _ => 0) 0.001 32 3 1
    (∀ i, valLoss (i + 1) < valLoss i) ∧
      ∃ t, train (EpochPasses.ofSequences (fun _ _ s => s) (fun _ => 0)
          valLoss) t₀ = .ok t ∧
        t.history.valLoss = [1, 1 - 1 / 100000] := by
  intro valLoss t₀
  have hTwo : t₀.earlyStopping.returns (stopCalls valLoss t₀ 2) =
      [false, true] := by
    simp [stopCalls, List.range_succ, EarlyStopping.returns,
      EarlyStopping.call, EarlyStopping.isImproved, t₀, init,
      EarlyStopping.init, valLoss]
    norm_num
  have hFirst : (t₀.earlyStopping.returns
      (stopCalls valLoss t₀ 3)).findIdx id = 1 := by
    rw [stopCalls_succ, EarlyStopping.returns_snoc, hTwo]
    rfl
  refine ⟨fun i => by simp only [valLoss]; push_cast; linarith,
    _, (train_eq_epochLoop _ (Or.inl rfl)).trans
      (epochLoop_range _ _ _ t₀ 3), ?_⟩
  rw [hFirst, runEpochs_history]
  simp [valLoss, t₀, init, List.range_succ]

end ProductionTrainer

end Nestra
