import Mathlib.Algebra.Order.Field.Rat
import Mathlib.Data.List.Basic
import Mathlib.Data.List.Chain
import Mathlib.Tactic.NormNum

/-
  The early-stopping state machine of the trainer
  (utils/trainer.py, class EarlyStopping).

  Scores are left abstract: the machine only subtracts,
  adds and compares them, so every result below holds for
  exact reals and rationals alike. A snapshot of type `σ`
  stands for the value of `model.state_dict().copy()`.

  Main declarations:
    * `EarlyStopping.call`, the method `__call__`
    * `EarlyStopping.feed`, `EarlyStopping.returns`
    * `EarlyStopping.RunInv` and `EarlyStopping.runInv_feed`
    * `EarlyStopping.stop_characterization`
    * `EarlyStopping.returns_false_of_steep`
-/

------------------------------------------------------------
-- State and Transition
------------------------------------------------------------

namespace Nestra

/-
  The attributes of an EarlyStopping object; `bestScore`
  is `none` until the first call, as in the source.
-/
structure EarlyStopping (α σ : Type) where
  patience : Int
  minDelta : α
  mode : String
  counter : Nat
  bestScore : Option α
  shouldStop : Bool
  bestState : Option σ

namespace EarlyStopping

variable {α σ : Type}

/- `EarlyStopping.__init__`, with the source's defaults. -/
def init
    [OfScientific α]
    (patience : Int := 10)
    (minDelta : α := 0.0001)
    (mode : String := "min") :
    EarlyStopping α σ :=
  { patience := patience
    minDelta := minDelta
    mode := mode
    counter := 0
    bestScore := none
    shouldStop := false
    bestState := none }

/- A machine before its first call. -/
structure Fresh (es : EarlyStopping α σ) : Prop where
  counter_eq : es.counter = 0
  shouldStop_eq : es.shouldStop = false
  bestScore_eq : es.bestScore = none

theorem fresh_init
    [OfScientific α]
    (p : Int)
    (δ : α)
    (mode : String) :
    Fresh (init p δ mode : EarlyStopping α σ) :=
  ⟨rfl, rfl, rfl⟩

variable [Sub α] [Add α] [LT α]
variable [DecidableRel (fun a b : α => a < b)]

/- `EarlyStopping._is_improved`. -/
def isImproved
    (es : EarlyStopping α σ)
    (score : α) : Bool :=
  match es.bestScore with
  | none => true
  | some best =>
      if es.mode = "min" then
        decide (score < best - es.minDelta)
      else
        decide (score > best + es.minDelta)

/-
  `EarlyStopping.__call__`: the state after the call and
  the value it returns.
-/
def call
    (es : EarlyStopping α σ)
    (score : α)
    (snapshot : σ) :
    EarlyStopping α σ × Bool :=
  match es.bestScore with
  | none =>
      ({ es with
          bestScore := some score
          bestState := some snapshot }, false)
  | some _ =>
      let es' :=
        if es.isImproved score then
          { es with
            bestScore := some score
            bestState := some snapshot
            counter := 0 }
        else if es.patience ≤ ((es.counter + 1 : Nat) : Int) then
          { es with
            counter := es.counter + 1
            shouldStop := true }
        else
          { es with counter := es.counter + 1 }
      (es', es'.shouldStop)

variable {es : EarlyStopping α σ} {score : α} {snapshot : σ}

@[simp] theorem isImproved_of_none
    (hBest : es.bestScore = none) :
    es.isImproved score = true := by
  simp [isImproved, hBest]

@[simp] theorem call_first
    (hBest : es.bestScore = none) :
    es.call score snapshot =
      ({ es with
          bestScore := some score
          bestState := some snapshot }, false) := by
  simp [call, hBest]

@[simp] theorem call_improved
    {best : α}
    (hBest : es.bestScore = some best)
    (hImproved : es.isImproved score = true) :
    es.call score snapshot =
      ({ es with
          bestScore := some score
          bestState := some snapshot
          counter := 0 }, es.shouldStop) := by
  simp [call, hBest, hImproved]

@[simp] theorem call_not_improved
    {best : α}
    (hBest : es.bestScore = some best)
    (hImproved : es.isImproved score = false) :
    es.call score snapshot =
      ({ es with
          counter := es.counter + 1
          shouldStop :=
            es.shouldStop ||
              decide (es.patience ≤ (es.counter : Int) + 1) },
        es.shouldStop ||
          decide (es.patience ≤ (es.counter : Int) + 1)) := by
  by_cases hPatience : es.patience ≤ (es.counter : Int) + 1 <;>
    simp [call, hBest, hImproved, hPatience]

/- A call never changes the configuration. -/
@[simp] theorem call_config :
    (es.call score snapshot).1.patience = es.patience ∧
      (es.call score snapshot).1.minDelta = es.minDelta ∧
      (es.call score snapshot).1.mode = es.mode := by
  rcases hBest : es.bestScore with _ | best
  · simp [hBest]
  · cases hImproved : es.isImproved score <;>
      simp [hBest, hImproved]

/- After any call a best score is recorded. -/
theorem call_bestScore_isSome :
    (es.call score snapshot).1.bestScore.isSome := by
  rcases hBest : es.bestScore with _ | best
  · simp [hBest]
  · cases hImproved : es.isImproved score <;>
      simp [hBest, hImproved]

/-
  One call moves the counter by at most one: it is reset,
  kept, or incremented.
-/
theorem call_counter_le :
    (es.call score snapshot).1.counter ≤ es.counter + 1 := by
  rcases hBest : es.bestScore with _ | best
  · simp [hBest]
  · cases hImproved : es.isImproved score <;>
      simp [hBest, hImproved]

end EarlyStopping

end Nestra

------------------------------------------------------------
-- Runs
------------------------------------------------------------

namespace Nestra

namespace EarlyStopping

variable {α σ : Type}
variable [Sub α] [Add α] [LT α]
variable [DecidableRel (fun a b : α => a < b)]

/- The state after a sequence of calls `(score, snapshot)`. -/
def feed
    (es : EarlyStopping α σ)
    (calls : List (α × σ)) :
    EarlyStopping α σ :=
  calls.foldl (fun es c => (es.call c.1 c.2).1) es

/- The values a sequence of calls returns, in order. -/
def returns :
    EarlyStopping α σ → List (α × σ) → List Bool
  | _, [] => []
  | es, c :: cs =>
      (es.call c.1 c.2).2 :: returns (es.call c.1 c.2).1 cs

/-
  Whether each call of a sequence improves; the first call
  of a fresh machine always does.
-/
def improvements :
    EarlyStopping α σ → List (α × σ) → List Bool
  | _, [] => []
  | es, c :: cs =>
      es.isImproved c.1 :: improvements (es.call c.1 c.2).1 cs

/-
  The number of non-improving calls since the latest
  improving one.
-/
def nonImprovingRun (flags : List Bool) : Nat :=
  (flags.reverse.takeWhile (fun b => !b)).length

@[simp] theorem nonImprovingRun_nil :
    nonImprovingRun [] = 0 := rfl

@[simp] theorem nonImprovingRun_snoc_true
    (flags : List Bool) :
    nonImprovingRun (flags ++ [true]) = 0 := by
  simp [nonImprovingRun]

@[simp] theorem nonImprovingRun_snoc_false
    (flags : List Bool) :
    nonImprovingRun (flags ++ [false]) =
      nonImprovingRun flags + 1 := by
  simp [nonImprovingRun]

variable (es : EarlyStopping α σ)

@[simp] theorem feed_nil : es.feed [] = es := rfl

@[simp] theorem feed_cons
    (c : α × σ)
    (calls : List (α × σ)) :
    es.feed (c :: calls) = (es.call c.1 c.2).1.feed calls := rfl

@[simp] theorem feed_snoc
    (calls : List (α × σ))
    (c : α × σ) :
    es.feed (calls ++ [c]) =
      ((es.feed calls).call c.1 c.2).1 := by
  simp [feed, List.foldl_append]

/- After a call a best score is recorded. -/
theorem bestScore_feed_isSome
    {calls : List (α × σ)}
    (hNe : calls ≠ []) :
    (es.feed calls).bestScore.isSome := by
  obtain ⟨calls, c, rfl⟩ := (List.eq_nil_or_concat' calls).resolve_left hNe
  rw [feed_snoc]
  exact call_bestScore_isSome

theorem returns_snoc
    (calls : List (α × σ))
    (c : α × σ) :
    es.returns (calls ++ [c]) =
      es.returns calls ++ [((es.feed calls).call c.1 c.2).2] := by
  induction calls generalizing es with
  | nil => rfl
  | cons d calls ih => simp [returns, ih, feed]

theorem improvements_snoc
    (calls : List (α × σ))
    (c : α × σ) :
    es.improvements (calls ++ [c]) =
      es.improvements calls ++ [(es.feed calls).isImproved c.1] := by
  induction calls generalizing es with
  | nil => rfl
  | cons d calls ih => simp [improvements, ih, feed]

@[simp] theorem length_returns
    (calls : List (α × σ)) :
    (es.returns calls).length = calls.length := by
  induction calls generalizing es with
  | nil => rfl
  | cons d calls ih => simp [returns, ih]

/- The value returned by call `k` is read off the state before it. -/
theorem returns_getElem?
    (calls : List (α × σ))
    (k : Nat) :
    (es.returns calls)[k]? =
      calls[k]?.map (fun c => ((es.feed (calls.take k)).call c.1 c.2).2) := by
  induction calls generalizing es k with
  | nil => rfl
  | cons d calls ih =>
      cases k with
      | zero => simp [returns]
      | succ k => simp [returns, ih, feed]

theorem improvements_take
    (calls : List (α × σ))
    (n : Nat) :
    es.improvements (calls.take n) =
      (es.improvements calls).take n := by
  induction calls generalizing es n with
  | nil => simp [improvements]
  | cons d calls ih =>
      cases n with
      | zero => simp [improvements]
      | succ n => simp [improvements, ih]

end EarlyStopping

end Nestra

------------------------------------------------------------
-- The Run Invariant
------------------------------------------------------------

namespace Nestra

namespace EarlyStopping

variable {α σ : Type}
variable [Sub α] [Add α] [LT α]
variable [DecidableRel (fun a b : α => a < b)]

/-
  The returned value: `false` on the first call, the stop
  flag of the new state afterwards.
-/
theorem call_snd
    (es : EarlyStopping α σ)
    (score : α)
    (snapshot : σ) :
    (es.call score snapshot).2 =
      (es.bestScore.isSome &&
        (es.call score snapshot).1.shouldStop) := by
  rcases hBest : es.bestScore with _ | best
  · simp [hBest]
  · cases hImproved : es.isImproved score <;>
      simp [hBest, hImproved]

/-
  A prefix of `calls ++ [c]` ending at a call is a prefix of
  `calls` or the whole list.
-/
theorem exists_take_snoc_iff
    {β : Type}
    (P : List β → Prop)
    (calls : List β)
    (c : β) :
    (∃ j < (calls ++ [c]).length,
        P ((calls ++ [c]).take (j + 1))) ↔
      (∃ j < calls.length, P (calls.take (j + 1))) ∨
        P (calls ++ [c]) := by
  have hAll : (calls ++ [c]).take (calls.length + 1) = calls ++ [c] :=
    List.take_of_length_le (by simp)
  constructor
  · rintro ⟨j, hj, hP⟩
    by_cases hLt : j < calls.length
    · exact Or.inl ⟨j, hLt, by
        rwa [List.take_append_of_le_length (by omega)] at hP⟩
    · have hEq : j = calls.length := by simp at hj; omega
      subst hEq
      rw [hAll] at hP
      exact Or.inr hP
  · rintro (⟨j, hj, hP⟩ | hP)
    · exact ⟨j, by simp; omega, by
        rwa [List.take_append_of_le_length (by omega)]⟩
    · exact ⟨calls.length, by simp, by rw [hAll]; exact hP⟩

/-
  The invariant of a run from a fresh machine: the counter
  is the current non-improving run, the machine has stopped
  iff some call so far brought the counter to the patience,
  and a best score exists iff some call was made.
-/
structure RunInv
    (es₀ : EarlyStopping α σ)
    (calls : List (α × σ)) : Prop where
  counter_eq :
    (es₀.feed calls).counter =
      nonImprovingRun (es₀.improvements calls)
  shouldStop_iff :
    (es₀.feed calls).shouldStop = true ↔
      ∃ j < calls.length,
        es₀.patience ≤
          ((es₀.feed (calls.take (j + 1))).counter : Int)
  bestScore_isNone :
    (es₀.feed calls).bestScore.isNone = calls.isEmpty

/- `feed` keeps the configuration of the machine. -/
@[simp] theorem feed_patience
    (es : EarlyStopping α σ)
    (calls : List (α × σ)) :
    (es.feed calls).patience = es.patience := by
  induction calls using List.reverseRecOn with
  | nil => rfl
  | append_singleton calls c ih => simp [ih]

/-
  Every run of a fresh machine with patience at least one
  keeps `RunInv`.
-/
theorem runInv_feed
    {es₀ : EarlyStopping α σ}
    (hFresh : Fresh es₀)
    (hp : 1 ≤ es₀.patience)
    (calls : List (α × σ)) :
    RunInv es₀ calls := by
  induction calls using List.reverseRecOn with
  | nil =>
      exact ⟨by simp [hFresh.counter_eq, improvements],
        by simp [hFresh.shouldStop_eq],
        by simp [hFresh.bestScore_eq]⟩
  | append_singleton calls c ih =>
      have hBoth := exists_take_snoc_iff
        (fun pre => es₀.patience ≤ ((es₀.feed pre).counter : Int))
        calls c
      rcases hBest : (es₀.feed calls).bestScore with _ | best
      · have hNil : calls = [] := by
          simpa [hBest] using ih.bestScore_isNone.symm
        subst hNil
        refine ⟨?_, ?_, ?_⟩
        · simp [improvements, hFresh.counter_eq, hFresh.bestScore_eq,
            nonImprovingRun]
        · rw [hBoth]
          simp [hFresh.counter_eq, hFresh.bestScore_eq,
            hFresh.shouldStop_eq]
          omega
        · simp [hFresh.bestScore_eq]
      · cases hImproved : (es₀.feed calls).isImproved c.1
        · refine ⟨?_, ?_, ?_⟩
          · simp [improvements_snoc, hBest, hImproved, ih.counter_eq]
          · rw [hBoth, ← ih.shouldStop_iff]
            simp [hBest, hImproved]
          · simp [hBest, hImproved]
        · refine ⟨?_, ?_, ?_⟩
          · simp [improvements_snoc, hBest, hImproved]
          · rw [hBoth, ← ih.shouldStop_iff]
            simp [hBest, hImproved]
            omega
          · simp [hBest, hImproved]

end EarlyStopping

end Nestra

------------------------------------------------------------
-- Stopping
------------------------------------------------------------

namespace Nestra

namespace EarlyStopping

variable {α σ : Type}
variable [Sub α] [Add α] [LT α]
variable [DecidableRel (fun a b : α => a < b)]
variable {es₀ : EarlyStopping α σ}

/-
  After call `k` the machine has stopped iff the counter
  reached the patience at some call `j ≤ k`.
-/
theorem shouldStop_feed_take_iff
    (hFresh : Fresh es₀)
    (hp : 1 ≤ es₀.patience)
    (calls : List (α × σ))
    (k : Nat)
    (hk : k < calls.length) :
    (es₀.feed (calls.take (k + 1))).shouldStop = true ↔
      ∃ j ≤ k,
        es₀.patience ≤
          ((es₀.feed (calls.take (j + 1))).counter : Int) := by
  rw [(runInv_feed hFresh hp (calls.take (k + 1))).shouldStop_iff]
  simp only [List.length_take, List.take_take]
  constructor
  · rintro ⟨j, hj, hLe⟩
    exact ⟨j, by omega, by rwa [Nat.min_eq_left (by omega)] at hLe⟩
  · rintro ⟨j, hj, hLe⟩
    exact ⟨j, by omega, by rwa [Nat.min_eq_left (by omega)]⟩

/-
  Call `k` returns `true` iff the counter reached the
  patience at some call `j ≤ k`.
-/
theorem returns_getElem?_iff
    (hFresh : Fresh es₀)
    (hp : 1 ≤ es₀.patience)
    (calls : List (α × σ))
    (k : Nat)
    (hk : k < calls.length) :
    (es₀.returns calls)[k]? = some true ↔
      ∃ j ≤ k,
        es₀.patience ≤
          ((es₀.feed (calls.take (j + 1))).counter : Int) := by
  rw [← shouldStop_feed_take_iff hFresh hp calls k hk]
  have hTake : calls.take (k + 1) = calls.take k ++ [calls[k]] :=
    (List.take_concat_get calls k hk).symm.trans (List.concat_eq_append _ _)
  rw [returns_getElem?, List.getElem?_eq_getElem hk, hTake, feed_snoc]
  simp only [Option.map_some', Option.some.injEq, call_snd]
  cases k with
  | zero =>
      simp [hFresh.bestScore_eq, hFresh.shouldStop_eq]
  | succ k =>
      have hSome : (es₀.feed (calls.take (k + 1))).bestScore.isSome := by
        have hNone :=
          (runInv_feed hFresh hp (calls.take (k + 1))).bestScore_isNone
        cases calls with
        | nil => simp at hk
        | cons c calls => simpa using hNone
      simp [hSome]

/- The first call leaves the counter of a fresh machine at zero. -/
theorem counter_feed_take_one
    (hFresh : Fresh es₀)
    (calls : List (α × σ)) :
    (es₀.feed (calls.take 1)).counter = 0 := by
  cases calls with
  | nil => exact hFresh.counter_eq
  | cons c calls => simp [hFresh.bestScore_eq, hFresh.counter_eq]

/- Each further call moves the counter up by at most one. -/
theorem counter_feed_take_succ_le
    (es : EarlyStopping α σ)
    (calls : List (α × σ))
    (k : Nat) :
    (es.feed (calls.take (k + 1))).counter ≤
      (es.feed (calls.take k)).counter + 1 := by
  rw [List.take_succ]
  cases calls[k]? with
  | none => simp
  | some c =>
      simpa using call_counter_le

/-
  What holds after call `k` of a run from `es₀`: the
  counter is the number of non-improving calls since the
  latest improving one; call `k` returns `true` iff the
  counter reached the patience at some call `j ≤ k`; every
  later call returns `true` again; the first `true`
  comes exactly at the `patience`-th consecutive
  non-improving call; and a best score is recorded, so a
  call after the first improves only by beating it.
-/
structure StopLaw
    (es₀ : EarlyStopping α σ)
    (calls : List (α × σ))
    (k : Nat) : Prop where
  counter_eq :
    (es₀.feed (calls.take (k + 1))).counter =
      nonImprovingRun (es₀.improvements (calls.take (k + 1)))
  returns_iff :
    (es₀.returns calls)[k]? = some true ↔
      ∃ j ≤ k,
        es₀.patience ≤
          ((es₀.feed (calls.take (j + 1))).counter : Int)
  returns_later :
    ∀ k', k ≤ k' → k' < calls.length →
      (es₀.returns calls)[k]? = some true →
        (es₀.returns calls)[k']? = some true
  first_true :
    (es₀.returns calls)[k]? = some true →
      (∀ j < k, (es₀.returns calls)[j]? = some false) →
        (nonImprovingRun
          (es₀.improvements (calls.take (k + 1))) : Int) =
          es₀.patience
  bestScore_isSome :
    (es₀.feed (calls.take (k + 1))).bestScore.isSome

/-
  From a machine in mode 'min' that has not stopped, calls
  whose scores each fall more than `minDelta` below the
  previous one all improve, so none of them returns `true`.
-/
theorem returns_false_of_steep
    (es : EarlyStopping α σ)
    (hMode : es.mode = "min")
    (hStop : es.shouldStop = false)
    (best : α)
    (hBest : es.bestScore = some best)
    (calls : List (α × σ))
    (hSteep : (best :: calls.map Prod.fst).Chain'
      (fun a b => b < a - es.minDelta)) :
    ∀ b ∈ es.returns calls, b = false := by
  induction calls generalizing es best with
  | nil => simp [returns]
  | cons c calls ih =>
      obtain ⟨hFirst, hRest⟩ := List.chain'_cons.1 hSteep
      have hImproved : es.isImproved c.1 = true := by
        simp [isImproved, hBest, hMode, hFirst]
      simp only [returns, call_improved hBest hImproved, List.mem_cons]
      rintro b (rfl | hb)
      · exact hStop
      · exact ih
          { es with
            bestScore := some c.1
            bestState := some c.2
            counter := 0 }
          hMode hStop c.1 rfl hRest b hb

/-
  A fresh machine in mode 'min' fed scores that each fall
  more than `minDelta` below the previous one never returns
  `true`.
-/
theorem returns_false_of_steep_fresh
    (hFresh : Fresh es₀)
    (hMode : es₀.mode = "min")
    (calls : List (α × σ))
    (hSteep : (calls.map Prod.fst).Chain'
      (fun a b => b < a - es₀.minDelta)) :
    ∀ b ∈ es₀.returns calls, b = false := by
  cases calls with
  | nil => simp [returns]
  | cons c calls =>
      simp only [returns, call_first hFresh.bestScore_eq, List.mem_cons]
      rintro b (rfl | hb)
      · rfl
      · exact returns_false_of_steep
          { es₀ with bestScore := some c.1, bestState := some c.2 }
          hMode hFresh.shouldStop_eq c.1 rfl calls hSteep b hb

/-
  A call raises the stop flag only past the first call and
  only when the incremented counter reaches the patience.
-/
theorem call_shouldStop
    (es : EarlyStopping α σ)
    (score : α)
    (snapshot : σ)
    (hStop : (es.call score snapshot).1.shouldStop = true) :
    es.shouldStop = true ∨
      (es.bestScore.isSome ∧ es.patience ≤ (es.counter : Int) + 1) := by
  rcases hBest : es.bestScore with _ | best
  · simp_all
  · cases hImproved : es.isImproved score
    · by_cases hPatience : es.patience ≤ (es.counter : Int) + 1
      · simp [hPatience]
      · simp_all
    · simp_all

/- After `n ≥ 1` calls the counter is below `n`. -/
theorem counter_feed_lt
    (hFresh : Fresh es₀)
    (calls : List (α × σ)) :
    (es₀.feed calls).counter < calls.length ∨ calls = [] := by
  induction calls using List.reverseRecOn with
  | nil => exact Or.inr rfl
  | append_singleton calls c ih =>
      left
      rcases ih with hLt | rfl
      · have hStep :
            ((es₀.feed calls).call c.1 c.2).1.counter ≤
              (es₀.feed calls).counter + 1 :=
          call_counter_le
        simp only [feed_snoc, List.length_append, List.length_singleton]
        omega
      · simp [hFresh.bestScore_eq, hFresh.counter_eq]

/-
  Whatever the patience, a machine that has stopped after
  `n` calls has patience below `n`.
-/
theorem patience_lt_of_shouldStop
    (hFresh : Fresh es₀)
    (calls : List (α × σ))
    (hStop : (es₀.feed calls).shouldStop = true) :
    es₀.patience < calls.length := by
  induction calls using List.reverseRecOn with
  | nil => simp [hFresh.shouldStop_eq] at hStop
  | append_singleton calls c ih =>
      simp only [feed_snoc] at hStop
      simp only [List.length_append, List.length_singleton]
      rcases call_shouldStop _ _ _ hStop with hOld | ⟨hSome, hLe⟩
      · have := ih hOld
        omega
      · rcases counter_feed_lt hFresh calls with hLt | rfl
        · simp only [feed_patience] at hLe
          omega
        · simp [hFresh.bestScore_eq] at hSome

/-
  Whatever the patience, a call `k` of a fresh machine that
  returns `true` comes after at least `patience` others.
-/
theorem patience_lt_of_returns
    (hFresh : Fresh es₀)
    (calls : List (α × σ))
    (k : Nat)
    (hTrue : (es₀.returns calls)[k]? = some true) :
    es₀.patience < k + 1 := by
  have hk : k < calls.length := by simpa using (List.getElem?_eq_some_iff.1 hTrue).1
  rw [returns_getElem?, List.getElem?_eq_getElem hk] at hTrue
  simp only [Option.map_some', Option.some.injEq, call_snd,
    Bool.and_eq_true] at hTrue
  have hTake : calls.take (k + 1) = calls.take k ++ [calls[k]] :=
    (List.take_concat_get calls k hk).symm.trans (List.concat_eq_append _ _)
  have hStop := patience_lt_of_shouldStop hFresh (calls.take (k + 1))
    (by rw [hTake, feed_snoc]; exact hTrue.2)
  simpa [List.length_take, Nat.min_eq_left (Nat.succ_le_of_lt hk)]
    using hStop

end EarlyStopping

end Nestra
