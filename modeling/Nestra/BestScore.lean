import Nestra.EarlyStopping

/-
  The best score of the early-stopping machine in mode
  'min' (utils/trainer.py, `EarlyStopping.__call__` and
  `_is_improved`), over exact scores.

  With `min_delta ≥ 0`, after every call of a run from a
  fresh machine: the best score and the best state are those
  of the latest call that improved, the first call
  included; every change of the best score lowers it by
  more than `min_delta`; and the best score is at most
  `min_delta` above every score fed so far.

  Main declarations:
    * `EarlyStopping.call_best_cases`
    * `EarlyStopping.BestLaw`, `EarlyStopping.bestLaw_feed`
    * `EarlyStopping.best_score_law`
-/

------------------------------------------------------------
-- One Call
------------------------------------------------------------

namespace Nestra

namespace EarlyStopping

variable {α σ : Type}
variable [LinearOrderedAddCommGroup α]

/-
  A call either improves and records its score and state,
  or keeps the best score and state it found.
-/
theorem call_best_cases
    (es : EarlyStopping α σ)
    (score : α)
    (snapshot : σ) :
    (es.isImproved score = true ∧
        (es.call score snapshot).1.bestScore = some score ∧
        (es.call score snapshot).1.bestState = some snapshot) ∨
      (es.isImproved score = false ∧
        (es.call score snapshot).1.bestScore = es.bestScore ∧
        (es.call score snapshot).1.bestState = es.bestState) := by
  rcases hBest : es.bestScore with _ | best
  · simp [hBest]
  · cases hImproved : es.isImproved score <;> simp [hBest, hImproved]

theorem isImproved_min
    {es : EarlyStopping α σ}
    (hMode : es.mode = "min")
    {best : α}
    (hBest : es.bestScore = some best)
    (score : α) :
    es.isImproved score = decide (score < best - es.minDelta) := by
  simp [isImproved, hBest, hMode]

/- In mode 'min' a call that changes the best score lowers it by more than `minDelta`. -/
theorem call_bestScore_lt
    {es : EarlyStopping α σ}
    (hMode : es.mode = "min")
    {best best' : α}
    (hBest : es.bestScore = some best)
    (score : α)
    (snapshot : σ)
    (hNew : (es.call score snapshot).1.bestScore = some best')
    (hNe : best' ≠ best) :
    best' < best - es.minDelta := by
  rcases call_best_cases es score snapshot with ⟨hImp, hScore, -⟩ | ⟨-, hScore, -⟩
  · obtain rfl : score = best' := Option.some.inj (hScore.symm.trans hNew)
    simpa [isImproved_min hMode hBest] using hImp
  · exact absurd (Option.some.inj ((hNew.symm.trans hScore).trans hBest)) hNe

end EarlyStopping

end Nestra

------------------------------------------------------------
-- Runs
------------------------------------------------------------

namespace Nestra

namespace EarlyStopping

variable {α σ : Type}
variable [LinearOrderedAddCommGroup α]

@[simp] theorem feed_minDelta
    (es : EarlyStopping α σ)
    (calls : List (α × σ)) :
    (es.feed calls).minDelta = es.minDelta := by
  induction calls using List.reverseRecOn with
  | nil => rfl
  | append_singleton calls c ih => simp [ih]

@[simp] theorem feed_mode
    (es : EarlyStopping α σ)
    (calls : List (α × σ)) :
    (es.feed calls).mode = es.mode := by
  induction calls using List.reverseRecOn with
  | nil => rfl
  | append_singleton calls c ih => simp [ih]

@[simp] theorem length_improvements
    (es : EarlyStopping α σ)
    (calls : List (α × σ)) :
    (es.improvements calls).length = calls.length := by
  induction calls generalizing es with
  | nil => rfl
  | cons d calls ih => simp [improvements, ih]

/-
  What holds after the calls `calls` of a run from `es₀`:
  the best score and state come from the latest improving
  call; each call that changes the best score lowers it by
  more than `minDelta`; no score fed lies more than
  `minDelta` below the best score.
-/
structure BestLaw
    (es₀ : EarlyStopping α σ)
    (calls : List (α × σ)) : Prop where
  latest :
    ∃ (j : Nat) (c : α × σ), calls[j]? = some c ∧
      (es₀.improvements calls)[j]? = some true ∧
      (∀ i : Nat, j < i → (es₀.improvements calls)[i]? ≠ some true) ∧
      (es₀.feed calls).bestScore = some c.1 ∧
      (es₀.feed calls).bestState = some c.2
  drop :
    ∀ k best best',
      (es₀.feed (calls.take k)).bestScore = some best →
      (es₀.feed (calls.take (k + 1))).bestScore = some best' →
      best' ≠ best → best' < best - es₀.minDelta
  le_add_minDelta :
    ∀ best, (es₀.feed calls).bestScore = some best →
      ∀ c ∈ calls, best ≤ c.1 + es₀.minDelta

variable {es₀ : EarlyStopping α σ}

/- The latest improving call after one more call. -/
theorem latest_snoc
    (hFresh : Fresh es₀)
    (calls : List (α × σ))
    (c : α × σ)
    (ih : calls ≠ [] → ∃ (j : Nat) (d : α × σ), calls[j]? = some d ∧
      (es₀.improvements calls)[j]? = some true ∧
      (∀ i : Nat, j < i → (es₀.improvements calls)[i]? ≠ some true) ∧
      (es₀.feed calls).bestScore = some d.1 ∧
      (es₀.feed calls).bestState = some d.2) :
    ∃ (j : Nat) (d : α × σ), (calls ++ [c])[j]? = some d ∧
      (es₀.improvements (calls ++ [c]))[j]? = some true ∧
      (∀ i : Nat, j < i → (es₀.improvements (calls ++ [c]))[i]? ≠ some true) ∧
      (es₀.feed (calls ++ [c])).bestScore = some d.1 ∧
      (es₀.feed (calls ++ [c])).bestState = some d.2 := by
  rw [improvements_snoc, feed_snoc]
  rcases call_best_cases (es₀.feed calls) c.1 c.2 with ⟨hImp, hScore, hState⟩ | ⟨hImp, hScore, hState⟩
  · refine ⟨calls.length, c, by simp, by simp [hImp], fun i hi => ?_, hScore, hState⟩
    rw [List.getElem?_eq_none (by simp; omega)]
    simp
  · have hNe : calls ≠ [] := by
      rintro rfl
      simp [hFresh.bestScore_eq] at hImp
    obtain ⟨j, d, hd, hj, hLater, hBest, hBestState⟩ := ih hNe
    have hj' : j < calls.length := (List.getElem?_eq_some_iff.1 hd).1
    have hLen : j < (es₀.improvements calls).length := by simpa using hj'
    refine ⟨j, d, by rwa [List.getElem?_append_left hj'],
      by rwa [List.getElem?_append_left hLen], fun i hi => ?_,
      hScore.trans hBest, hState.trans hBestState⟩
    rcases Nat.lt_or_ge i calls.length with hi' | hi'
    · rw [List.getElem?_append_left (by simpa using hi')]
      exact hLater i hi
    · rw [List.getElem?_append_right (by simpa using hi'), hImp]
      cases i - (es₀.improvements calls).length <;> simp

/- The bound on the best score after one more call. -/
theorem le_add_minDelta_snoc
    (hMode : es₀.mode = "min")
    (hδ : 0 ≤ es₀.minDelta)
    (calls : List (α × σ))
    (c : α × σ)
    (ih : ∀ best, (es₀.feed calls).bestScore = some best →
      ∀ d ∈ calls, best ≤ d.1 + es₀.minDelta) :
    ∀ best, (es₀.feed (calls ++ [c])).bestScore = some best →
      ∀ d ∈ calls ++ [c], best ≤ d.1 + es₀.minDelta := by
  intro best' hNew d hd
  rw [feed_snoc] at hNew
  have hMode' : (es₀.feed calls).mode = "min" := by simp [hMode]
  rcases List.mem_append.1 hd with hd | hd
  · rcases hBest : (es₀.feed calls).bestScore with _ | best
    · have hNil : calls = [] := by
        by_contra hNe
        simpa [hBest] using bestScore_feed_isSome es₀ hNe
      simp [hNil] at hd
    · have hPrev := ih best hBest d hd
      rcases call_best_cases (es₀.feed calls) c.1 c.2 with ⟨hImp, hScore, -⟩ | ⟨-, hScore, -⟩
      · obtain rfl : c.1 = best' := Option.some.inj (hScore.symm.trans hNew)
        have hLt : c.1 < best - es₀.minDelta := by
          simpa [isImproved_min hMode' hBest] using hImp
        have hSub : best - es₀.minDelta ≤ best := sub_le_self best hδ
        exact (hLt.trans_le hSub).le.trans hPrev
      · obtain rfl : best = best' := Option.some.inj ((hBest.symm.trans hScore.symm).trans hNew)
        exact hPrev
  · obtain rfl := List.mem_singleton.1 hd
    rcases call_best_cases (es₀.feed calls) d.1 d.2 with ⟨-, hScore, -⟩ | ⟨hImp, hScore, -⟩
    · obtain rfl : d.1 = best' := Option.some.inj (hScore.symm.trans hNew)
      exact le_add_of_nonneg_right hδ
    · have hBest : (es₀.feed calls).bestScore = some best' := hScore.symm.trans hNew
      have hNot : ¬ d.1 < best' - es₀.minDelta := by
        simpa [isImproved_min hMode' hBest] using hImp
      exact sub_le_iff_le_add.1 (not_lt.1 hNot)

/-
  Every run of a fresh machine in mode 'min' with
  `minDelta ≥ 0` obeys `BestLaw` after each of its calls.
-/
theorem bestLaw_feed
    (hFresh : Fresh es₀)
    (hMode : es₀.mode = "min")
    (hδ : 0 ≤ es₀.minDelta)
    {calls : List (α × σ)}
    (hNe : calls ≠ []) :
    BestLaw es₀ calls := by
  have hLatest : ∀ calls : List (α × σ), calls ≠ [] → ∃ (j : Nat) (c : α × σ), calls[j]? = some c ∧
      (es₀.improvements calls)[j]? = some true ∧
      (∀ i : Nat, j < i → (es₀.improvements calls)[i]? ≠ some true) ∧
      (es₀.feed calls).bestScore = some c.1 ∧
      (es₀.feed calls).bestState = some c.2 := by
    intro calls
    induction calls using List.reverseRecOn with
    | nil => exact fun h => absurd rfl h
    | append_singleton calls c ih => exact fun _ => latest_snoc hFresh calls c ih
  have hLe : ∀ calls : List (α × σ), ∀ best, (es₀.feed calls).bestScore = some best →
      ∀ c ∈ calls, best ≤ c.1 + es₀.minDelta := by
    intro calls
    induction calls using List.reverseRecOn with
    | nil => simp
    | append_singleton calls c ih => exact le_add_minDelta_snoc hMode hδ calls c ih
  refine ⟨hLatest calls hNe, fun k best best' hBest hNew hNe' => ?_, hLe calls⟩
  have hMode' : (es₀.feed (calls.take k)).mode = "min" := by simp [hMode]
  rcases Nat.lt_or_ge k calls.length with hk | hk
  · rw [List.take_succ, List.getElem?_eq_getElem hk, Option.toList_some, feed_snoc] at hNew
    simpa using call_bestScore_lt hMode' hBest _ _ hNew hNe'
  · rw [List.take_of_length_le (by omega), ← List.take_of_length_le hk] at hNew
    exact absurd (Option.some.inj (hNew.symm.trans hBest)) hNe'

/-
  The machine `EarlyStopping(patience, min_delta, 'min')`
  with any patience and `min_delta ≥ 0` obeys `BestLaw`
  after every call of every run.
-/
theorem best_score_law
    [OfScientific α]
    (p : Int)
    (δ : α)
    (hδ : 0 ≤ δ)
    (calls : List (α × σ))
    (hNe : calls ≠ []) :
    BestLaw (init p δ "min") calls :=
  bestLaw_feed (fresh_init p δ "min") rfl hδ hNe

theorem best_score_law_on_three_calls :
    (0 : ℚ) ≤ 0.0001 ∧ [((3 : ℚ), ()), (1, ()), (2, ())] ≠ [] ∧
      BestLaw (init 20 (0.0001 : ℚ) "min") [((3 : ℚ), ()), (1, ()), (2, ())] :=
  ⟨by norm_num, by simp, best_score_law 20 0.0001 (by norm_num) _ (by simp)⟩

end EarlyStopping

end Nestra
