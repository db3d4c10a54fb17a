import Nestra.EarlyStopping

/-
  The two modes of the early-stopping machine
  (utils/trainer.py, `EarlyStopping._is_improved`): mode
  'min' improves on `score < best_score - min_delta`, every
  other mode on `score > best_score + min_delta`.

  Over exact scores the two are mirror images. `Mirror`
  relates a machine in a mode other than 'min' to one in
  mode 'min' whose best score is the negated one and whose
  counter, flag and checkpoint agree; each call on `score`
  and on `-score` keeps it and returns the same value. So a
  run on `s` and a run on `-s` return the same values and
  improve, hence take their snapshots, at the same calls.

  Main declarations:
    * `EarlyStopping.Mirror`, `EarlyStopping.mirror_call`
    * `EarlyStopping.mirror_feed`
    * `EarlyStopping.max_mode_mirrors_min`
-/

------------------------------------------------------------
-- One Call
------------------------------------------------------------

namespace Nestra

namespace EarlyStopping

variable {α σ : Type}
variable [LinearOrderedAddCommGroup α]

/-
  `es` in a mode other than 'min' and `esMin` in mode 'min'
  are in the same state up to the sign of the best score.
-/
structure Mirror
    (es esMin : EarlyStopping α σ) : Prop where
  patience_eq : esMin.patience = es.patience
  minDelta_eq : esMin.minDelta = es.minDelta
  mode_ne : es.mode ≠ "min"
  mode_eq : esMin.mode = "min"
  counter_eq : esMin.counter = es.counter
  bestScore_eq : esMin.bestScore = es.bestScore.map Neg.neg
  shouldStop_eq : esMin.shouldStop = es.shouldStop
  bestState_eq : esMin.bestState = es.bestState

variable {es esMin : EarlyStopping α σ}

/- Mirrored machines judge `score` and `-score` alike. -/
theorem isImproved_neg
    (h : Mirror es esMin)
    (score : α) :
    esMin.isImproved (-score) = es.isImproved score := by
  rcases hBest : es.bestScore with _ | best
  · simp [isImproved, hBest, h.bestScore_eq]
  · have hFlip : -score < -best - es.minDelta ↔ best + es.minDelta < score := by
      rw [← neg_add', neg_lt_neg_iff]
    simp [isImproved, hBest, h.bestScore_eq, h.mode_ne, h.mode_eq, h.minDelta_eq, hFlip]

/- One call on `score` and on `-score` keeps `Mirror` and returns the same value. -/
theorem mirror_call
    (h : Mirror es esMin)
    (score : α)
    (snapshot : σ) :
    Mirror (es.call score snapshot).1 (esMin.call (-score) snapshot).1 ∧
      (esMin.call (-score) snapshot).2 = (es.call score snapshot).2 := by
  have hImp := isImproved_neg h score
  rcases hBest : es.bestScore with _ | best
  · have hBestMin : esMin.bestScore = none := by simp [h.bestScore_eq, hBest]
    rw [call_first hBest, call_first hBestMin]
    exact ⟨{ h with bestScore_eq := rfl, bestState_eq := rfl }, rfl⟩
  · have hBestMin : esMin.bestScore = some (-best) := by simp [h.bestScore_eq, hBest]
    cases hI : es.isImproved score
    · rw [call_not_improved hBest hI, call_not_improved hBestMin (hImp.trans hI)]
      refine ⟨{ h with counter_eq := ?_, shouldStop_eq := ?_ }, ?_⟩ <;>
        simp [h.counter_eq, h.shouldStop_eq, h.patience_eq]
    · rw [call_improved hBest hI, call_improved hBestMin (hImp.trans hI)]
      exact ⟨{ h with counter_eq := rfl, bestScore_eq := rfl, bestState_eq := rfl },
        h.shouldStop_eq⟩

end EarlyStopping

end Nestra

------------------------------------------------------------
-- Runs
------------------------------------------------------------

namespace Nestra

namespace EarlyStopping

variable {α σ : Type}
variable [LinearOrderedAddCommGroup α]

/-
  Runs on `calls` and on the negated scores keep `Mirror`,
  return the same values and improve at the same calls.
-/
theorem mirror_feed
    (calls : List (α × σ)) :
    ∀ {es esMin : EarlyStopping α σ}, Mirror es esMin →
      Mirror (es.feed calls) (esMin.feed (calls.map fun c => (-c.1, c.2))) ∧
        esMin.returns (calls.map fun c => (-c.1, c.2)) = es.returns calls ∧
        esMin.improvements (calls.map fun c => (-c.1, c.2)) = es.improvements calls := by
  induction calls with
  | nil => exact fun h => ⟨h, rfl, rfl⟩
  | cons c calls ih =>
      intro es esMin h
      obtain ⟨hStep, hValue⟩ := mirror_call h c.1 c.2
      obtain ⟨hRun, hReturns, hImps⟩ := ih hStep
      refine ⟨by simpa using hRun, ?_, ?_⟩
      · simp only [List.map_cons, returns, hValue, hReturns]
      · simp only [List.map_cons, improvements, isImproved_neg h, hImps]

/-
  `EarlyStopping(patience, min_delta, mode)` with any mode
  other than 'min', fed any scores `s`, and
  `EarlyStopping(patience, min_delta, 'min')` fed `-s`
  return the same values and improve, so take their
  snapshots, at the same calls; after every call their
  counters, flags and checkpoints agree and their best
  scores are opposite.
-/
theorem max_mode_mirrors_min
    [OfScientific α]
    (p : Int)
    (δ : α)
    (mode : String)
    (hMode : mode ≠ "min")
    (calls : List (α × σ)) :
    let es : EarlyStopping α σ := init p δ mode
    let esMin : EarlyStopping α σ := init p δ "min"
    let negated := calls.map fun c => (-c.1, c.2)
    esMin.returns negated = es.returns calls ∧
      esMin.improvements negated = es.improvements calls ∧
      ∀ k, (esMin.feed (negated.take k)).counter = (es.feed (calls.take k)).counter ∧
        (esMin.feed (negated.take k)).shouldStop = (es.feed (calls.take k)).shouldStop ∧
        (esMin.feed (negated.take k)).bestState = (es.feed (calls.take k)).bestState ∧
        (esMin.feed (negated.take k)).bestScore =
          (es.feed (calls.take k)).bestScore.map Neg.neg := by
  intro es esMin negated
  have h : Mirror es esMin := ⟨rfl, rfl, hMode, rfl, rfl, rfl, rfl, rfl⟩
  obtain ⟨-, hReturns, hImps⟩ := mirror_feed calls h
  refine ⟨hReturns, hImps, fun k => ?_⟩
  have hPrefix := (mirror_feed (calls.take k) h).1
  rw [List.map_take] at hPrefix
  exact ⟨hPrefix.counter_eq, hPrefix.shouldStop_eq, hPrefix.bestState_eq, hPrefix.bestScore_eq⟩

theorem max_mode_mirrors_min_on_two_calls :
    "max" ≠ "min" ∧
      let calls : List (ℚ × Unit) := [(1, ()), (2, ())]
      let es : EarlyStopping ℚ Unit := init 2 0.0001 "max"
      let esMin : EarlyStopping ℚ Unit := init 2 0.0001 "min"
      let negated := calls.map fun c => (-c.1, c.2)
      esMin.returns negated = es.returns calls ∧
        esMin.improvements negated = es.improvements calls ∧
        ∀ k, (esMin.feed (negated.take k)).counter = (es.feed (calls.take k)).counter ∧
          (esMin.feed (negated.take k)).shouldStop = (es.feed (calls.take k)).shouldStop ∧
          (esMin.feed (negated.take k)).bestState = (es.feed (calls.take k)).bestState ∧
          (esMin.feed (negated.take k)).bestScore =
            (es.feed (calls.take k)).bestScore.map Neg.neg :=
  ⟨by decide, max_mode_mirrors_min 2 (0.0001 : ℚ) "max" (by decide) [(1, ()), (2, ())]⟩

end EarlyStopping

end Nestra
