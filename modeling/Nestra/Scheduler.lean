import Mathlib
import Nestra.Trainer

/-
  The plateau scheduler of utils/trainer.py over whole runs:
  `ReduceLROnPlateau(optimizer, mode='min', factor=0.5,
  patience=5, min_lr=1e-6)`, stepped once per epoch in
  `_update_training_state` with the epoch's validation loss.

  One step either keeps the learning rate or sets it to
  `max(lr * factor, min_lr)`, and only when that is more
  than `eps` lower and at least `patience + 1` bad epochs
  have been counted since the count last restarted. So over
  any losses the rate never rises, never falls below
  `min(lr₀, min_lr)`, is always `lr₀ · factor^c` or
  `min_lr` with `c` the changes so far, and changes at most
  once every `patience + 1` steps.

  The trainer refines that run: for every run of `train`,
  whatever its passes compute, its rate, its scheduler and
  the rates it records are those of the scheduler run on the
  validation losses its history records.

  Main declarations:
    * `ReduceLROnPlateau.step_cases`, `ReduceLROnPlateau.lrChanges`
    * `ReduceLROnPlateau.plateau_lr_run_law`
    * `ProductionTrainer.ScheduleFollows`, `ProductionTrainer.scheduleFollows_train`
    * `ProductionTrainer.train_follows_plateau_schedule`
    * `ProductionTrainer.train_learning_rates_halve_at_most_every_six_epochs`
-/

------------------------------------------------------------
-- One Step
------------------------------------------------------------

namespace Nestra

namespace ReduceLROnPlateau

variable {α : Type}

/- Two schedulers with the same configuration, whatever their counters. -/
structure SameConfig
    (s sch : ReduceLROnPlateau α) : Prop where
  factor_eq : s.factor = sch.factor
  patience_eq : s.patience = sch.patience
  minLr_eq : s.minLr = sch.minLr
  threshold_eq : s.threshold = sch.threshold
  cooldown_eq : s.cooldown = sch.cooldown
  eps_eq : s.eps = sch.eps

theorem SameConfig.trans
    {s₁ s₂ s₃ : ReduceLROnPlateau α}
    (h₁ : SameConfig s₁ s₂)
    (h₂ : SameConfig s₂ s₃) :
    SameConfig s₁ s₃ :=
  ⟨h₁.1.trans h₂.1, h₁.2.trans h₂.2, h₁.3.trans h₂.3, h₁.4.trans h₂.4, h₁.5.trans h₂.5,
    h₁.6.trans h₂.6⟩

variable [LinearOrderedField α]

/-
  The bookkeeping of `step` before the reduction test: the
  improvement check and the cooldown keep the configuration
  and add at most one bad epoch.
-/
theorem step_eq_reduce
    (sch : ReduceLROnPlateau α)
    (metric lr : α) :
    ∃ s : ReduceLROnPlateau α, SameConfig s sch ∧ s.numBadEpochs ≤ sch.numBadEpochs + 1 ∧
      sch.step metric lr =
        if s.patience < s.numBadEpochs then
          ({ s with cooldownCounter := s.cooldown, numBadEpochs := 0 },
            if s.eps < lr - (if lr * s.factor < s.minLr then s.minLr else lr * s.factor) then
              (if lr * s.factor < s.minLr then s.minLr else lr * s.factor)
            else lr)
        else (s, lr) := by
  refine ⟨_, ?_, ?_, rfl⟩ <;> split_ifs <;>
    first
    | exact ⟨rfl, rfl, rfl, rfl, rfl, rfl⟩
    | (dsimp only; omega)

/-
  Everything a step can do: keep the learning rate, or, with
  at least `patience` bad epochs counted before it, restart
  the count and set the rate to `max(lr * factor, min_lr)`
  when that is more than `eps` below it.
-/
theorem step_cases
    (sch : ReduceLROnPlateau α)
    (metric lr : α) :
    ∃ s : ReduceLROnPlateau α, SameConfig s sch ∧ s.numBadEpochs ≤ sch.numBadEpochs + 1 ∧
      (sch.step metric lr = (s, lr) ∨
        (sch.patience ≤ sch.numBadEpochs ∧ s.numBadEpochs = 0 ∧
          sch.eps < lr - (if lr * sch.factor < sch.minLr then sch.minLr else lr * sch.factor) ∧
          sch.step metric lr =
            (s, if lr * sch.factor < sch.minLr then sch.minLr else lr * sch.factor))) := by
  obtain ⟨s, hCfg, hBad, hStep⟩ := step_eq_reduce sch metric lr
  have hNewLr : (if lr * s.factor < s.minLr then s.minLr else lr * s.factor) =
      if lr * sch.factor < sch.minLr then sch.minLr else lr * sch.factor := by
    rw [hCfg.factor_eq, hCfg.minLr_eq]
  rw [hStep, hNewLr]
  set newLr := if lr * sch.factor < sch.minLr then sch.minLr else lr * sch.factor
  by_cases hReduce : s.patience < s.numBadEpochs
  · have hLate : sch.patience ≤ sch.numBadEpochs := by
      have := hCfg.patience_eq
      omega
    rw [if_pos hReduce]
    refine ⟨{ s with cooldownCounter := s.cooldown, numBadEpochs := 0 },
      ⟨hCfg.1, hCfg.2, hCfg.3, hCfg.4, hCfg.5, hCfg.6⟩, Nat.zero_le _, ?_⟩
    by_cases hEps : s.eps < lr - newLr
    · rw [if_pos hEps]
      exact Or.inr ⟨hLate, rfl, hCfg.eps_eq ▸ hEps, rfl⟩
    · rw [if_neg hEps]
      exact Or.inl rfl
  · rw [if_neg hReduce]
    exact ⟨s, hCfg, hBad, Or.inl rfl⟩

theorem sameConfig_step
    (sch : ReduceLROnPlateau α)
    (metric lr : α) :
    SameConfig (sch.step metric lr).1 sch := by
  obtain ⟨s, hCfg, -, hStep | ⟨-, -, -, hStep⟩⟩ := step_cases sch metric lr <;>
    rw [hStep] <;> exact hCfg

theorem numBadEpochs_step_le
    (sch : ReduceLROnPlateau α)
    (metric lr : α) :
    (sch.step metric lr).1.numBadEpochs ≤ sch.numBadEpochs + 1 := by
  obtain ⟨s, -, hBad, hStep | ⟨-, -, -, hStep⟩⟩ := step_cases sch metric lr <;>
    rw [hStep] <;> exact hBad

/- `step_cases` read off the returned learning rate. -/
theorem step_lr_cases
    (sch : ReduceLROnPlateau α)
    (metric lr : α) :
    (sch.step metric lr).2 = lr ∨
      (sch.patience ≤ sch.numBadEpochs ∧ (sch.step metric lr).1.numBadEpochs = 0 ∧
        sch.eps < lr - (sch.step metric lr).2 ∧
        (sch.step metric lr).2 =
          if lr * sch.factor < sch.minLr then sch.minLr else lr * sch.factor) := by
  obtain ⟨s, -, -, hStep | ⟨hLate, hZero, hEps, hStep⟩⟩ := step_cases sch metric lr <;>
    rw [hStep]
  · exact Or.inl rfl
  · exact Or.inr ⟨hLate, hZero, hEps, rfl⟩

theorem minLr_le_newLr
    (sch : ReduceLROnPlateau α)
    (lr : α) :
    sch.minLr ≤ if lr * sch.factor < sch.minLr then sch.minLr else lr * sch.factor := by
  split_ifs with h
  · exact le_rfl
  · exact not_lt.1 h

end ReduceLROnPlateau

end Nestra

------------------------------------------------------------
-- Runs of the Scheduler
------------------------------------------------------------

namespace Nestra

namespace ReduceLROnPlateau

variable {α : Type} [LinearOrderedField α]
variable (sch : ReduceLROnPlateau α) (lr : α) (valLoss : Nat → α)

theorem afterSteps_succ
    (n : Nat) :
    sch.afterSteps lr valLoss (n + 1) =
      (sch.afterSteps lr valLoss n).1.step (valLoss n) (sch.afterSteps lr valLoss n).2 :=
  rfl

/- A run reads the losses of the steps it takes and no other. -/
theorem afterSteps_congr
    {v w : Nat → α} :
    ∀ n, (∀ i < n, v i = w i) → sch.afterSteps lr v n = sch.afterSteps lr w n
  | 0, _ => rfl
  | n + 1, h => by
      rw [afterSteps_succ, afterSteps_succ, afterSteps_congr n fun i hi => h i (by omega),
        h n (by omega)]

theorem sameConfig_afterSteps
    (n : Nat) :
    SameConfig (sch.afterSteps lr valLoss n).1 sch := by
  induction n with
  | zero => exact ⟨rfl, rfl, rfl, rfl, rfl, rfl⟩
  | succ n ih => exact (sameConfig_step _ _ _).trans ih

/- The number of the first `n` steps that change the learning rate. -/
def lrChanges
    (n : Nat) : Nat :=
  ((List.range n).filter fun k =>
    (sch.afterSteps lr valLoss (k + 1)).2 ≠ (sch.afterSteps lr valLoss k).2).length

theorem lrChanges_succ
    (n : Nat) :
    sch.lrChanges lr valLoss (n + 1) = sch.lrChanges lr valLoss n +
      if (sch.afterSteps lr valLoss (n + 1)).2 ≠ (sch.afterSteps lr valLoss n).2 then 1
      else 0 := by
  simp only [lrChanges, List.range_succ, List.filter_append, List.length_append]
  split_ifs with h <;> simp [h]

/-
  Each change of the learning rate needs `patience + 1` bad
  epochs counted since the count last restarted: over `n`
  steps the changes and the running count fit in `n`.
-/
theorem lrChanges_mul_add_numBadEpochs_le
    (n : Nat) :
    sch.lrChanges lr valLoss n * (sch.patience + 1) +
        (sch.afterSteps lr valLoss n).1.numBadEpochs ≤ n + sch.numBadEpochs := by
  induction n with
  | zero => simp [lrChanges, afterSteps]
  | succ n ih =>
      have hBad := numBadEpochs_step_le (sch.afterSteps lr valLoss n).1 (valLoss n)
        (sch.afterSteps lr valLoss n).2
      have hPat := (sameConfig_afterSteps sch lr valLoss n).patience_eq
      rw [lrChanges_succ, afterSteps_succ]
      rcases step_lr_cases (sch.afterSteps lr valLoss n).1 (valLoss n)
          (sch.afterSteps lr valLoss n).2 with hKeep | ⟨hLate, hZero, -, -⟩
      · rw [if_neg (not_not.2 hKeep), add_zero]
        omega
      · split_ifs
        · rw [hZero, Nat.add_mul, one_mul]
          omega
        · rw [add_zero]
          omega

/- With `eps ≥ 0` the learning rate never increases. -/
theorem afterSteps_lr_succ_le
    (hEps : 0 ≤ sch.eps)
    (n : Nat) :
    (sch.afterSteps lr valLoss (n + 1)).2 ≤ (sch.afterSteps lr valLoss n).2 := by
  have hEpsN := (sameConfig_afterSteps sch lr valLoss n).eps_eq
  rw [afterSteps_succ]
  rcases step_lr_cases (sch.afterSteps lr valLoss n).1 (valLoss n)
      (sch.afterSteps lr valLoss n).2 with hKeep | ⟨-, -, hDrop, -⟩
  · exact hKeep.le
  · rw [hEpsN] at hDrop
    linarith

/- The learning rate never goes below the smaller of its start and `min_lr`. -/
theorem min_le_afterSteps_lr
    (n : Nat) :
    min lr sch.minLr ≤ (sch.afterSteps lr valLoss n).2 := by
  induction n with
  | zero => exact min_le_left _ _
  | succ n ih =>
      have hMin := (sameConfig_afterSteps sch lr valLoss n).minLr_eq
      rw [afterSteps_succ]
      rcases step_lr_cases (sch.afterSteps lr valLoss n).1 (valLoss n)
          (sch.afterSteps lr valLoss n).2 with hKeep | ⟨-, -, -, hNew⟩
      · rw [hKeep]
        exact ih
      · rw [hNew]
        exact (min_le_right _ _).trans (hMin ▸ minLr_le_newLr _ _)

/-
  With `eps ≥ 0` the learning rate is the start scaled by
  `factor` once per change so far, or `min_lr`; once at
  `min_lr` it stays there.
-/
theorem afterSteps_lr_eq
    (hEps : 0 ≤ sch.eps)
    (n : Nat) :
    (sch.afterSteps lr valLoss n).2 = lr * sch.factor ^ sch.lrChanges lr valLoss n ∨
      (sch.afterSteps lr valLoss n).2 = sch.minLr := by
  induction n with
  | zero => exact Or.inl (by simp [lrChanges, afterSteps])
  | succ n ih =>
      have hCfg := sameConfig_afterSteps sch lr valLoss n
      rw [lrChanges_succ]
      rcases step_lr_cases (sch.afterSteps lr valLoss n).1 (valLoss n)
          (sch.afterSteps lr valLoss n).2 with hKeep | ⟨-, -, hDrop, hNew⟩
      · rw [← afterSteps_succ] at hKeep
        rw [if_neg (not_not.2 hKeep), add_zero, hKeep]
        exact ih
      · rw [← afterSteps_succ] at hDrop hNew
        rw [hCfg.eps_eq] at hDrop
        rw [hCfg.factor_eq, hCfg.minLr_eq] at hNew
        have hNe : (sch.afterSteps lr valLoss (n + 1)).2 ≠ (sch.afterSteps lr valLoss n).2 :=
          fun h => by
            rw [h, sub_self] at hDrop
            exact absurd hDrop (not_lt.2 hEps)
        rw [if_pos hNe, hNew]
        rcases ih with hPow | hFloor
        · rw [hPow]
          split_ifs
          · exact Or.inr rfl
          · exact Or.inl (by rw [pow_succ, mul_assoc])
        · have hAbove := minLr_le_newLr sch (sch.afterSteps lr valLoss n).2
          rw [← hNew] at hAbove
          rw [hFloor] at hDrop
          exact absurd hDrop (not_lt.2 (by linarith))

/-
  `ReduceLROnPlateau(factor, patience, min_lr)` with torch's
  `eps = 1e-8`, from any learning rate and over any
  validation losses: after every number `n` of steps the
  rate has not risen at the next step, is at least
  `min(lr₀, min_lr)`, is `lr₀ · factor^c` or `min_lr` where
  `c` counts its changes so far, and `c · (patience + 1) ≤ n`.
-/
theorem plateau_lr_run_law
    (factor : α)
    (patience : Nat)
    (minLr lr : α)
    (valLoss : Nat → α)
    (n : Nat) :
    let sch : ReduceLROnPlateau α := init factor patience minLr
    (sch.afterSteps lr valLoss (n + 1)).2 ≤ (sch.afterSteps lr valLoss n).2 ∧
      min lr minLr ≤ (sch.afterSteps lr valLoss n).2 ∧
      ((sch.afterSteps lr valLoss n).2 = lr * factor ^ sch.lrChanges lr valLoss n ∨
        (sch.afterSteps lr valLoss n).2 = minLr) ∧
      sch.lrChanges lr valLoss n * (patience + 1) ≤ n := by
  intro sch
  have hEps : 0 ≤ sch.eps := by norm_num [sch, init]
  exact ⟨afterSteps_lr_succ_le sch lr valLoss hEps n, min_le_afterSteps_lr sch lr valLoss n,
    afterSteps_lr_eq sch lr valLoss hEps n,
    (Nat.le_add_right _ _).trans (lrChanges_mul_add_numBadEpochs_le sch lr valLoss n)⟩

end ReduceLROnPlateau

end Nestra

------------------------------------------------------------
-- The Trainer's Schedule
------------------------------------------------------------

namespace Nestra

namespace ProductionTrainer

variable {α τ : Type}

@[simp] theorem finalizeTraining_history
    (t : ProductionTrainer α τ) :
    t.finalizeTraining.history = t.history := by
  unfold finalizeTraining
  split
  · split <;> rfl
  · rfl

@[simp] theorem finalizeTraining_scheduler
    (t : ProductionTrainer α τ) :
    t.finalizeTraining.scheduler = t.scheduler := by
  unfold finalizeTraining
  split
  · split <;> rfl
  · rfl

@[simp] theorem finalizeTraining_lr
    (t : ProductionTrainer α τ) :
    t.finalizeTraining.lr = t.lr := by
  unfold finalizeTraining
  split
  · split <;> rfl
  · rfl

variable [LinearOrderedField α]

theorem train_eq_ok
    {passes : EpochPasses α τ}
    {t t' : ProductionTrainer α τ}
    (hRun : train passes t = .ok t') :
    ∃ t₁, epochLoop passes t (List.range t.epochs) = .ok t₁ ∧ t₁.finalizeTraining = t' := by
  unfold train at hRun
  rcases hLoop : epochLoop passes t (List.range t.epochs) with _ | t₁
  · rw [hLoop] at hRun
    cases hRun
  · rw [hLoop] at hRun
    exact ⟨t₁, rfl, Except.ok.inj hRun⟩

/-
  The trainer's rate, scheduler and recorded rates are those
  of the scheduler run from `sch` at rate `lr` on the
  validation losses its history records, one step per
  recorded epoch.
-/
structure ScheduleFollows
    (sch : ReduceLROnPlateau α)
    (lr : α)
    (t : ProductionTrainer α τ) : Prop where
  length_trainLoss : t.history.trainLoss.length = t.history.valLoss.length
  learningRate_eq : t.history.learningRate = (List.range t.history.valLoss.length).map
    fun i => (sch.afterSteps lr (fun j => t.history.valLoss.getD j 0) i).2
  schedule_eq : (t.scheduler, t.lr) =
    sch.afterSteps lr (fun j => t.history.valLoss.getD j 0) t.history.valLoss.length

/- One epoch's bookkeeping is one step of the scheduler run. -/
theorem scheduleFollows_updateTrainingState
    {sch : ReduceLROnPlateau α}
    {lr : α}
    {t : ProductionTrainer α τ}
    (h : ScheduleFollows sch lr t)
    (store : Storage τ)
    (epoch : Nat)
    (trainLoss valLoss : α) :
    ScheduleFollows sch lr
      (updateTrainingState { t with store := store } epoch trainLoss valLoss).1 := by
  have hOld : ∀ n ≤ t.history.valLoss.length,
      sch.afterSteps lr (fun j => (t.history.valLoss ++ [valLoss]).getD j 0) n =
        sch.afterSteps lr (fun j => t.history.valLoss.getD j 0) n :=
    fun n hn => sch.afterSteps_congr lr n fun i hi => List.getD_append _ _ _ _ (by omega)
  have hLast : (t.history.valLoss ++ [valLoss]).getD t.history.valLoss.length 0 = valLoss := by
    simp
  have hLr : (sch.afterSteps lr (fun j => t.history.valLoss.getD j 0)
      t.history.valLoss.length).2 = t.lr := (congrArg Prod.snd h.schedule_eq).symm
  refine ⟨?_, ?_, ?_⟩ <;>
    simp only [updateTrainingState_history, updateTrainingState_scheduler,
      updateTrainingState_lr, List.length_append, List.length_singleton]
  · rw [h.length_trainLoss]
  · rw [List.range_succ, List.map_append, List.map_singleton, hOld _ le_rfl, hLr,
      h.learningRate_eq]
    congr 1
    exact List.map_congr_left fun i hi => by rw [hOld i (List.mem_range.1 hi).le]
  · rw [ReduceLROnPlateau.afterSteps_succ, hOld _ le_rfl, hLast, ← h.schedule_eq]

/-
  Every run of `train` that returns, from a fresh trainer and
  with any passes, follows the trainer's scheduler on the
  validation losses it recorded, over at most `epochs`
  epochs.
-/
theorem scheduleFollows_train
    (passes : EpochPasses α τ)
    (model : Module)
    (store : Storage τ)
    (learningRate : α)
    (batchSize epochs : Nat)
    (patience : Int)
    {t : ProductionTrainer α τ}
    (hRun : train passes (init model store learningRate batchSize epochs patience) = .ok t) :
    ScheduleFollows (ReduceLROnPlateau.init 0.5 5 0.000001) learningRate t ∧
      t.history.valLoss.length ≤ epochs := by
  obtain ⟨t₁, hLoop, rfl⟩ := train_eq_ok hRun
  obtain ⟨j, hj, hFollow, hLen⟩ := epochLoop_inv
    (fun k t => ScheduleFollows (ReduceLROnPlateau.init 0.5 5 0.000001) learningRate t ∧
      t.history.valLoss.length = k)
    (fun k t store epoch trainLoss valLoss hP =>
      ⟨scheduleFollows_updateTrainingState hP.1 store epoch trainLoss valLoss, by simp [hP.2]⟩)
    passes _ (k := 0) (t := init model store learningRate batchSize epochs patience)
    ⟨⟨rfl, rfl, rfl⟩, rfl⟩ hLoop
  refine ⟨⟨?_, ?_, ?_⟩, ?_⟩ <;>
    simp only [finalizeTraining_history, finalizeTraining_scheduler, finalizeTraining_lr]
  · exact hFollow.length_trainLoss
  · exact hFollow.learningRate_eq
  · exact hFollow.schedule_eq
  · simpa [hLen] using hj

/- A list read off an antitone sequence is non-increasing. -/
theorem chain'_map_range
    {f : Nat → α}
    (h : ∀ i, f (i + 1) ≤ f i) :
    ∀ n, ((List.range n).map f).Chain' (fun a b => b ≤ a)
  | 0 => List.chain'_nil
  | n + 1 => (List.chain'_map f).2 ((List.chain'_range_succ _ n).2 fun m _ => h m)

/-
  For every run of `train` that returns, whatever its passes
  compute: the recorded learning rates never increase, and
  the rate recorded for epoch `e` is at least
  `min(lr₀, 1e-6)` and is either `1e-6` or `lr₀` halved `k`
  times for some `k ≤ e / 6`.
-/
theorem train_learning_rates_halve_at_most_every_six_epochs
    (passes : EpochPasses α τ)
    (model : Module)
    (store : Storage τ)
    (learningRate : α)
    (batchSize epochs : Nat)
    (patience : Int)
    {t : ProductionTrainer α τ}
    (hRun : train passes (init model store learningRate batchSize epochs patience) = .ok t) :
    t.history.learningRate.Chain' (fun a b => b ≤ a) ∧
      ∀ (e : Nat) (x : α), t.history.learningRate[e]? = some x →
        min learningRate 0.000001 ≤ x ∧
          ((∃ k ≤ e / 6, x = learningRate * 0.5 ^ k) ∨ x = 0.000001) := by
  obtain ⟨hFollow, -⟩ :=
    scheduleFollows_train passes model store learningRate batchSize epochs patience hRun
  set sch : ReduceLROnPlateau α := ReduceLROnPlateau.init 0.5 5 0.000001
  set v := fun j => t.history.valLoss.getD j 0
  have hEps : 0 ≤ sch.eps := by norm_num [sch, ReduceLROnPlateau.init]
  rw [hFollow.learningRate_eq]
  refine ⟨chain'_map_range (sch.afterSteps_lr_succ_le learningRate v hEps) _,
    fun e x hx => ?_⟩
  obtain ⟨-, rfl⟩ := List.getElem?_eq_some_iff.1 hx
  rw [List.getElem_map, List.getElem_range]
  have hSpace : sch.lrChanges learningRate v e * (5 + 1) + _ ≤ e + 0 :=
    sch.lrChanges_mul_add_numBadEpochs_le learningRate v e
  refine ⟨sch.min_le_afterSteps_lr learningRate v e, ?_⟩
  rcases sch.afterSteps_lr_eq learningRate v hEps e with hPow | hFloor
  · exact Or.inl ⟨_, (Nat.le_div_iff_mul_le (by norm_num)).2 (by omega), hPow⟩
  · exact Or.inr hFloor

theorem train_learning_rates_halve_on_constant_losses :
    ∃ t : ProductionTrainer ℚ Int,
      train (EpochPasses.ofSequences (fun _ _ s => s) (fun _ => 1) (fun _ => 1))
          (init ⟨[("weight", 0)], by simp⟩ (fun _ => 0) 0.001 32 8 20) = .ok t ∧
        t.history.learningRate.Chain' (fun a b => b ≤ a) ∧
        ∀ (e : Nat) (x : ℚ), t.history.learningRate[e]? = some x →
          min 0.001 0.000001 ≤ x ∧
            ((∃ k ≤ e / 6, x = 0.001 * 0.5 ^ k) ∨ x = 0.000001) :=
  have hRun := (train_eq_epochLoop _ (Or.inl rfl)).trans (epochLoop_range _ _ _ _ _)
  ⟨_, hRun, train_learning_rates_halve_at_most_every_six_epochs _ _ _ _ _ _ _ hRun⟩

end ProductionTrainer

end Nestra
