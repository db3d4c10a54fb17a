import Mathlib
import Nestra.Explanation
import Nestra.Trainer

/-
  The training tables of the four entry points
  (train_waste_predictor.py, train_time_estimator.py,
  train_anomaly_predictor.py, train_algorithm_selector.py):
  with at least 100 loaded records, the feature rows
  `[r.get(k, 0) for k in feature_keys]` and the labels each
  main reads off a record; otherwise the rows
  `generate_synthetic_data` draws, labelled by its rules.

  A record is the dict `json.load` returns, of JSON values
  whose numbers are exact: NaN, the infinities and integers
  beyond the float range are outside the model. NumPy's
  float32 conversion of a record value is a parameter
  `toFloat32`, and its rounding of a computed label a
  parameter `float32`, applied where a main casts
  (`.astype(np.float32)`, `dtype=np.float32`, a store into a
  float32 array); the random draws of the synthetic features
  are the given rows.

  Every label the algorithm selector trains on is one of
  its three classes, whatever the records hold; an unknown
  or missing algorithm name is silently class 0. On the
  records the anomaly predictor never targets its fifth
  output (`quality_problem`), which only the synthetic
  labels reach. Under a rounding that keeps order on
  `[0, 1]` and keeps 0 and 1 (`ValidFloat32`), every anomaly
  target lies in `[0, 1]` and every synthetic waste and time
  target in its rounded clip range; the records' regression
  targets are not clipped below.

  Main declarations:
    * `JsonValue`, `Record.get`, `recordFeatures`, `ValidFloat32`
    * `algorithmLabel`, `syntheticAlgorithmLabel`, `algorithmSelectorData`
    * `anomalyLabel`, `syntheticAnomalyLabel`, `anomalyPredictorData`
    * `recordTarget`, `wasteLabel`, `syntheticWasteLabel`, `wastePredictorData`
    * `timeLabel`, `syntheticTimeLabel`, `timeEstimatorData`
    * `algorithmSelectorData_labels_are_classes`
    * `anomalyPredictorData_targets`
    * `wastePredictorData_targets`, `timeEstimatorData_targets`
-/

------------------------------------------------------------
-- Record Values
------------------------------------------------------------

namespace Nestra

/- A value of a loaded record, as `json.load` returns it. -/
inductive JsonValue (α : Type) where
  | null
  | bool (b : Bool)
  | num (x : α)
  | str (s : String)
  | arr (xs : List (JsonValue α))
  | obj (entries : List (String × JsonValue α))

namespace JsonValue

variable {α : Type}

/- Python's `bool(v)`. -/
def truthy
    [Zero α]
    [DecidableEq α] : JsonValue α → Bool
  | null => false
  | bool b => b
  | num x => x ≠ 0
  | str s => s ≠ ""
  | arr xs => !xs.isEmpty
  | obj entries => !entries.isEmpty

/- `v == s` for a string `s`: only a string of the same text is equal. -/
def eqStr
    (s : String) : JsonValue α → Bool
  | str t => t == s
  | _ => false

/- The TypeError of `v / d` for a float `d` and a `v` of type `typeName`. -/
def unsupportedDiv
    (typeName : String) : String :=
  "unsupported operand type(s) for /: \x27" ++ typeName ++ "\x27 and \x27float\x27"

/- `v / d` for a float `d`: numbers and booleans divide, the rest raise. -/
def divFloat
    [DivisionRing α]
    (d : α) : JsonValue α → Except String α
  | num x => .ok (x / d)
  | bool b => .ok ((if b then 1 else 0) / d)
  | null => .error (unsupportedDiv "NoneType")
  | str _ => .error (unsupportedDiv "str")
  | arr _ => .error (unsupportedDiv "list")
  | obj _ => .error (unsupportedDiv "dict")

end JsonValue

namespace Record

variable {β : Type}

/- `r.get(k, default)`. -/
def get
    (x : Record β)
    (k : String)
    (default : β) : β :=
  (x.entries.lookup k).getD default

end Record

/- Python's `min(a, b)`: `b` only when it is smaller. -/
def pyMin
    {α : Type}
    [LT α]
    [DecidableRel (fun a b : α => a < b)]
    (a b : α) : α :=
  if b < a then b else a

/- Over a linear order Python's `min` is the lattice minimum. -/
theorem pyMin_eq_min
    {α : Type}
    [LinearOrder α]
    (a b : α) :
    pyMin a b = min a b := by
  unfold pyMin
  split_ifs with h
  · exact (min_eq_right h.le).symm
  · exact (min_eq_left (not_lt.1 h)).symm

/- `raw_data and len(raw_data) >= 100`: whether a main trains on the records. -/
def usesRecords
    {β : Type}
    (rawData : List β) : Bool :=
  !rawData.isEmpty && decide (100 ≤ rawData.length)

/-
  What the range lemmas ask of NumPy's rounding to float32:
  round to nearest keeps order on `[0, 1]` and leaves the
  representable values 0 and 1 as they are.
-/
structure ValidFloat32
    {α : Type}
    [Preorder α]
    [Zero α]
    [One α]
    (float32 : α → α) : Prop where
  monotoneOn : MonotoneOn float32 (Set.Icc 0 1)
  map_zero : float32 0 = 0
  map_one : float32 1 = 1

namespace ValidFloat32

variable {α : Type} [Preorder α] [Zero α] [One α] {float32 : α → α}

/- Rounding keeps a value of `[lo, hi] ⊆ [0, 1]` between the rounded ends. -/
theorem mem_Icc_round
    (h : ValidFloat32 float32)
    {lo hi x : α}
    (hlo : 0 ≤ lo)
    (hhi : hi ≤ 1)
    (hx : lo ≤ x ∧ x ≤ hi) :
    float32 lo ≤ float32 x ∧ float32 x ≤ float32 hi :=
  ⟨h.monotoneOn ⟨hlo, hx.1.trans (hx.2.trans hhi)⟩ ⟨hlo.trans hx.1, hx.2.trans hhi⟩ hx.1,
    h.monotoneOn ⟨hlo.trans hx.1, hx.2.trans hhi⟩ ⟨hlo.trans (hx.1.trans hx.2), hhi⟩ hx.2⟩

/- Rounding maps `[0, 1]` into itself. -/
theorem mem_unit
    (h : ValidFloat32 float32)
    {x : α}
    (hx : 0 ≤ x ∧ x ≤ 1) :
    0 ≤ float32 x ∧ float32 x ≤ 1 := by
  simpa only [h.map_zero, h.map_one] using h.mem_Icc_round le_rfl le_rfl hx

end ValidFloat32

/-
  `np.array([[r.get(k, 0) for k in feature_keys] for r in
  raw_data], dtype=np.float32)`, with `toFloat32` NumPy's
  conversion of one value.
-/
def recordFeatures
    {α : Type}
    [Zero α]
    (toFloat32 : JsonValue α → Except String α)
    (featureKeys : List String)
    (rawData : List (Record (JsonValue α))) : Except String (List (List α)) :=
  rawData.mapM fun r => featureKeys.mapM fun k => toFloat32 (r.get k (.num 0))

section Traversals

variable {ε β γ : Type}

/- A traversal that succeeds relates each input to its own result. -/
theorem mapM_eq_ok_forall₂
    {f : β → Except ε γ} :
    ∀ {xs : List β} {ys : List γ},
      xs.mapM f = .ok ys → List.Forall₂ (fun x y => f x = .ok y) xs ys
  | [], _, h => by cases h; exact .nil
  | x :: xs, ys, h => by
      rw [List.mapM_cons] at h
      obtain ⟨y, hy, h⟩ := Except.bind_eq_ok.1 h
      obtain ⟨ys', hys, h⟩ := Except.bind_eq_ok.1 h
      cases h
      exact .cons hy (mapM_eq_ok_forall₂ hys)

/- What a relation says of its right side holds of the whole right list. -/
theorem Forall₂.forall_mem_right
    {R : β → γ → Prop}
    {P : γ → Prop}
    (hR : ∀ x y, R x y → P y) :
    ∀ {xs : List β} {ys : List γ}, List.Forall₂ R xs ys → ∀ y ∈ ys, P y
  | _, _, .nil => by simp
  | _, _, .cons h hs => by
      simpa [hR _ _ h] using Forall₂.forall_mem_right hR hs

end Traversals

/- The feature table has one row per record and one column per key. -/
theorem recordFeatures_shape
    {α : Type}
    [Zero α]
    {toFloat32 : JsonValue α → Except String α}
    {featureKeys : List String}
    {rawData : List (Record (JsonValue α))}
    {rows : List (List α)}
    (h : recordFeatures toFloat32 featureKeys rawData = .ok rows) :
    rows.length = rawData.length ∧ ∀ row ∈ rows, row.length = featureKeys.length := by
  have hRows := mapM_eq_ok_forall₂ h
  exact ⟨hRows.length_eq.symm,
    Forall₂.forall_mem_right (P := fun row => row.length = featureKeys.length)
      (fun _ _ hRow => (mapM_eq_ok_forall₂ hRow).length_eq.symm) hRows⟩

end Nestra

------------------------------------------------------------
-- The Algorithm Selector's Labels
------------------------------------------------------------

namespace Nestra

section Lookup

variable {α : Type}

/- `ALGORITHMS`, the selector's classes in output order. -/
def algorithms : List String :=
  ["BOTTOM_LEFT", "GUILLOTINE", "MAXRECTS"]

/- The `feature_keys` of train_algorithm_selector.py. -/
def algorithmFeatureKeys : List String :=
  ["pieceSizeVariance", "smallPieceRatio", "largePieceRatio", "squarePieceRatio",
    "uniqueShapeCount", "rotationAllowed", "grainConstraintRatio", "stockVariety",
    "standardSizeRatio", "bottomLeftHistoricalWaste", "guillotineHistoricalWaste",
    "maxrectsHistoricalWaste", "totalPieceCount", "totalStockCount"]

/-
  `algo_map.get(v, 0)` for `algo_map = {a: i for i, a in
  enumerate(ALGORITHMS)}`: a name's index, 0 for any other
  hashable value, TypeError for a list or a dict.
-/
def algoMapGet : JsonValue α → Except String Nat
  | .str s => .ok ((algorithms.indexOf? s).getD 0)
  | .arr _ => .error "unhashable type: \x27list\x27"
  | .obj _ => .error "unhashable type: \x27dict\x27"
  | _ => .ok 0

/- `algo_map.get(r.get('bestAlgorithm', 'BOTTOM_LEFT'), 0)`. -/
def algorithmLabel
    (r : Record (JsonValue α)) : Except String Nat :=
  algoMapGet (r.get "bestAlgorithm" (.str "BOTTOM_LEFT"))

theorem indexOf_algorithms
    (s : String) :
    (algorithms.indexOf? s).getD 0 =
      if s = "GUILLOTINE" then 1 else if s = "MAXRECTS" then 2 else 0 := by
  simp only [algorithms, List.indexOf?, List.findIdx?]
  by_cases h0 : s = "BOTTOM_LEFT"
  · subst h0; rfl
  by_cases h1 : s = "GUILLOTINE"
  · subst h1; rfl
  by_cases h2 : s = "MAXRECTS"
  · subst h2; rfl
  simp [h0, h1, h2, Ne.symm h0, Ne.symm h1, Ne.symm h2]

/-
  A looked-up label is a class, and it is class 1 or 2
  exactly when the value is that class's name: every other
  value, an unknown name included, is class 0.
-/
theorem algoMapGet_spec
    {v : JsonValue α}
    {k : Nat}
    (h : algoMapGet v = .ok k) :
    k < 3 ∧ ∀ j, 0 < j → j < 3 → (k = j ↔ v = .str (algorithms.getD j "")) := by
  cases v <;> simp only [algoMapGet, Except.ok.injEq, reduceCtorEq] at h
  case str s =>
    subst h
    rw [indexOf_algorithms]
    refine ⟨by split_ifs <;> omega, fun j hj hj3 => ?_⟩
    rcases (show j = 1 ∨ j = 2 by omega) with rfl | rfl <;>
      by_cases h1 : s = "GUILLOTINE" <;> by_cases h2 : s = "MAXRECTS" <;>
      simp_all [algorithms]
  all_goals
    subst h
    refine ⟨by omega, fun j hj _ => ⟨fun h => absurd h (by omega), fun h => ?_⟩⟩
    cases h

end Lookup

section Synthetic

variable {α : Type} [LinearOrderedField α]

/-
  The scan of `np.argmin`: `best` is the index of the first
  smallest value `bestValue` so far and `i` the index of the
  next value.
-/
def argminAux
    (best : Nat)
    (bestValue : α)
    (i : Nat) : List α → Nat
  | [] => best
  | y :: ys =>
      if y < bestValue then argminAux i y (i + 1) ys
      else argminAux best bestValue (i + 1) ys

/- The scan ends on an index of the values it has seen. -/
theorem argminAux_lt
    {best : Nat}
    {bestValue : α}
    {i : Nat}
    (hBest : best < i) :
    ∀ ys : List α, argminAux best bestValue i ys < i + ys.length
  | [] => by simpa [argminAux] using hBest
  | y :: ys => by
      simp only [argminAux, List.length_cons]
      split_ifs
      · exact (argminAux_lt (Nat.lt_succ_self i) ys).trans_le (by omega)
      · exact (argminAux_lt (by omega) ys).trans_le (by omega)

/- `np.argmin` of the non-empty list `x :: xs`: the index of its first smallest value. -/
def argmin
    (x : α)
    (xs : List α) : Nat :=
  argminAux 0 x 1 xs

/-
  The label `generate_synthetic_data` gives a feature row:
  MAXRECTS for a high size variance, GUILLOTINE for grain
  constraints, BOTTOM_LEFT for small pieces, else the
  algorithm of least historical waste.
-/
def syntheticAlgorithmLabel
    (row : List α) : Nat :=
  if row.getD 0 0 > 0.7 then 2
  else if row.getD 6 0 > 0.5 then 1
  else if row.getD 1 0 > 0.6 then 0
  else argmin (row.getD 9 0) [row.getD 10 0, row.getD 11 0]

theorem syntheticAlgorithmLabel_lt
    (row : List α) :
    syntheticAlgorithmLabel row < 3 := by
  unfold syntheticAlgorithmLabel
  split_ifs
  all_goals first | omega | exact argminAux_lt Nat.one_pos _

/-
  The features and labels train_algorithm_selector.py's
  `main` trains on: from the records when there are enough,
  else from the synthetic rows `syntheticRows`.
-/
def algorithmSelectorData
    (toFloat32 : JsonValue α → Except String α)
    (rawData : List (Record (JsonValue α)))
    (syntheticRows : List (List α)) : Except String (List (List α) × List Nat) :=
  if usesRecords rawData then do
    let features ← recordFeatures toFloat32 algorithmFeatureKeys rawData
    let labels ← rawData.mapM algorithmLabel
    pure (features, labels)
  else .ok (syntheticRows, syntheticRows.map syntheticAlgorithmLabel)

/-
  Every label the selector trains on is one of the three
  outputs of its network. On the records, each record has
  one label and one row of the 14 features, and a record is
  labelled GUILLOTINE or MAXRECTS exactly when it names that
  algorithm: any other value is BOTTOM_LEFT.
-/
theorem algorithmSelectorData_labels_are_classes
    (toFloat32 : JsonValue α → Except String α)
    (rawData : List (Record (JsonValue α)))
    (syntheticRows : List (List α))
    {features : List (List α)}
    {labels : List Nat}
    (hData : algorithmSelectorData toFloat32 rawData syntheticRows = .ok (features, labels)) :
    (∀ l ∈ labels, l < 3) ∧
      (usesRecords rawData = true →
        features.length = rawData.length ∧ (∀ row ∈ features, row.length = 14) ∧
          List.Forall₂ (fun r l => ∀ k, 0 < k → k < 3 →
            (l = k ↔ r.get "bestAlgorithm" (.str "BOTTOM_LEFT") = .str (algorithms.getD k "")))
            rawData labels) := by
  unfold algorithmSelectorData at hData
  split at hData
  case isTrue =>
    obtain ⟨rows, hRows, hData⟩ := Except.bind_eq_ok.1 hData
    obtain ⟨classes, hClasses, hData⟩ := Except.bind_eq_ok.1 hData
    cases hData
    have hSpec := (mapM_eq_ok_forall₂ hClasses).imp fun _ _ h => algoMapGet_spec h
    exact ⟨Forall₂.forall_mem_right (fun _ _ h => h.1) hSpec,
      fun _ => ⟨(recordFeatures_shape hRows).1, (recordFeatures_shape hRows).2,
        hSpec.imp fun _ _ h => h.2⟩⟩
  case isFalse hSynthetic =>
    cases hData
    exact ⟨List.forall_mem_map.2 fun row _ => syntheticAlgorithmLabel_lt row,
      fun h => absurd h hSynthetic⟩

end Synthetic

end Nestra

------------------------------------------------------------
-- The Anomaly Predictor's Labels
------------------------------------------------------------

namespace Nestra

variable {α : Type} [LinearOrderedField α]

/- The `feature_keys` of train_anomaly_predictor.py. -/
def anomalyFeatureKeys : List String :=
  ["currentWaste", "currentTime", "currentEfficiency", "wasteDeviation",
    "timeDeviation", "efficiencyDeviation", "recentAnomalyCount",
    "avgHistoricalWaste", "avgHistoricalTime", "dayOfWeek", "hourOfDay", "isWeekend"]

/-
  The `label_vec` train_anomaly_predictor.py's `main` gives
  a record: `[risk, high_waste, slow_production,
  machine_issue, quality_problem]`, risk 0.8 and the flag of
  the first matching type for an anomaly, risk 0.1 otherwise.
-/
def anomalyLabel
    (r : Record (JsonValue α)) : List α :=
  let hadAnomaly := r.get "hadAnomaly" (.num 0)
  let atype := r.get "anomalyType" .null
  let labelVec : List α := List.replicate 5 0.0
  if hadAnomaly.truthy then
    let labelVec := labelVec.set 0 0.8
    if atype.eqStr "high_waste" then labelVec.set 1 1.0
    else if atype.eqStr "slow_production" then labelVec.set 2 1.0
    else if atype.eqStr "machine_issue" then labelVec.set 3 1.0
    else labelVec
  else labelVec.set 0 0.1

/-
  A record's target is one of five vectors: it never marks
  `quality_problem` and marks at most one anomaly type.
-/
theorem anomalyLabel_cases
    (r : Record (JsonValue α)) :
    anomalyLabel r ∈ ([[0.1, 0.0, 0.0, 0.0, 0.0], [0.8, 0.0, 0.0, 0.0, 0.0],
      [0.8, 1.0, 0.0, 0.0, 0.0], [0.8, 0.0, 1.0, 0.0, 0.0],
      [0.8, 0.0, 0.0, 1.0, 0.0]] : List (List α)) := by
  unfold anomalyLabel
  dsimp only
  split_ifs
  · exact .tail _ (.tail _ (.head _))
  · exact .tail _ (.tail _ (.tail _ (.head _)))
  · exact .tail _ (.tail _ (.tail _ (.tail _ (.head _))))
  · exact .tail _ (.head _)
  · exact .head _

/-
  Every record target has five entries, each in `[0, 1]`:
  each assignment puts such a value into such a vector.
-/
theorem anomalyLabel_unit
    (r : Record (JsonValue α)) :
    (anomalyLabel r).length = 5 ∧ ∀ x ∈ anomalyLabel r, 0 ≤ x ∧ x ≤ 1 := by
  have hSet : ∀ {l : List α} {a : α} (i : Nat), (∀ x ∈ l, 0 ≤ x ∧ x ≤ 1) → 0 ≤ a ∧ a ≤ 1 →
      ∀ x ∈ l.set i a, 0 ≤ x ∧ x ≤ 1 :=
    fun _ hl ha x hx => (List.mem_or_eq_of_mem_set hx).elim (hl x) (· ▸ ha)
  have hZero : ∀ x ∈ List.replicate 5 (0.0 : α), 0 ≤ x ∧ x ≤ 1 :=
    fun x hx => List.eq_of_mem_replicate hx ▸ by norm_num
  have hRisk := hSet (a := 0.8) 0 hZero (by norm_num)
  have hOne : (0 : α) ≤ 1.0 ∧ (1.0 : α) ≤ 1 := by norm_num
  unfold anomalyLabel
  dsimp only
  split_ifs
  · exact ⟨rfl, hSet 1 hRisk hOne⟩
  · exact ⟨rfl, hSet 2 hRisk hOne⟩
  · exact ⟨rfl, hSet 3 hRisk hOne⟩
  · exact ⟨rfl, hRisk⟩
  · exact ⟨rfl, hSet 0 hZero (by norm_num)⟩

/-
  The labels `generate_synthetic_data` gives a feature row,
  the body of its loop: each rule that fires adds its weight
  to the risk and, but for the time rule, stores its type's
  label into the float32 array; the risk label stored is
  `min(1.0, risk)`.
-/
def syntheticAnomalyLabel
    (float32 : α → α)
    (row : List α) : List α :=
  let f := fun j => row.getD j 0
  let highWaste := decide (f 3 > 1.5)
  let slowProduction := decide (f 4 > 1.0)
  let machineIssue := decide (f 5 < -1.0)
  let recentAnomalies := decide (f 6 ≥ 3)
  let offHours := decide (f 11 = 1 ∨ f 10 > 20 ∨ f 10 < 7)
  let risk : α := 0.0 + (if highWaste then 0.3 else 0) + (if slowProduction then 0.25 else 0) +
    (if machineIssue then 0.25 else 0) + (if recentAnomalies then 0.15 else 0) +
    (if offHours then 0.05 else 0)
  [float32 (pyMin 1.0 risk),
    if highWaste then float32 (pyMin 0.9 (f 3 / 3)) else 0,
    if slowProduction then float32 (pyMin 0.9 (f 4 / 2)) else 0,
    if machineIssue then float32 (pyMin 0.9 (|f 5| / 2)) else 0,
    if recentAnomalies then float32 0.3 else 0]

/- Every synthetic target has five entries, each in `[0, 1]`. -/
theorem syntheticAnomalyLabel_unit
    {float32 : α → α}
    (hRound : ValidFloat32 float32)
    (row : List α) :
    (syntheticAnomalyLabel float32 row).length = 5 ∧
      ∀ x ∈ syntheticAnomalyLabel float32 row, 0 ≤ x ∧ x ≤ 1 := by
  refine ⟨rfl, ?_⟩
  have hMin : ∀ {a : α} (b : α), 0 ≤ a ∧ a ≤ 1 → 0 ≤ b →
      0 ≤ float32 (pyMin a b) ∧ float32 (pyMin a b) ≤ 1 := fun b ha hb =>
    hRound.mem_unit (pyMin_eq_min _ b ▸ ⟨le_min ha.1 hb, (min_le_left _ b).trans ha.2⟩)
  have hIte : ∀ {c : Prop} [Decidable c] {a : α}, (c → 0 ≤ a ∧ a ≤ 1) →
      0 ≤ (if c then a else 0) ∧ (if c then a else 0) ≤ 1 := fun h => by
    split_ifs with hc
    · exact h hc
    · exact ⟨le_rfl, zero_le_one⟩
  obtain ⟨h10, h09, h03, h15, h1⟩ : ((0 : α) ≤ 1.0 ∧ (1.0 : α) ≤ 1) ∧
      ((0 : α) ≤ 0.9 ∧ (0.9 : α) ≤ 1) ∧ ((0 : α) ≤ 0.3 ∧ (0.3 : α) ≤ 1) ∧
      (0 : α) < 1.5 ∧ (0 : α) < 1.0 := by norm_num
  simp only [syntheticAnomalyLabel, List.mem_cons, List.not_mem_nil, or_false, decide_eq_true_eq]
  rintro x (rfl | rfl | rfl | rfl | rfl)
  · exact hMin _ h10 (by positivity)
  · exact hIte fun h => hMin _ h09 (div_nonneg (h15.trans h).le zero_le_three)
  · exact hIte fun h => hMin _ h09 (div_nonneg (h1.trans h).le zero_le_two)
  · exact hIte fun _ => hMin _ h09 (div_nonneg (abs_nonneg _) zero_le_two)
  · exact hIte fun _ => hRound.mem_unit h03

/-
  The features and label vectors train_anomaly_predictor.py's
  `main` trains on: from the records when there are enough,
  their label vectors cast by `np.array(labels_list,
  dtype=np.float32)`, else from the synthetic rows
  `syntheticRows`.
-/
def anomalyPredictorData
    (toFloat32 : JsonValue α → Except String α)
    (float32 : α → α)
    (rawData : List (Record (JsonValue α)))
    (syntheticRows : List (List α)) : Except String (List (List α) × List (List α)) :=
  if usesRecords rawData then do
    let features ← recordFeatures toFloat32 anomalyFeatureKeys rawData
    pure (features, rawData.map fun r => (anomalyLabel r).map float32)
  else .ok (syntheticRows, syntheticRows.map (syntheticAnomalyLabel float32))

/-
  Every target the anomaly predictor trains on has its five
  entries in `[0, 1]`, the range of the network's sigmoid
  heads. On the records, each record has one target and one
  row of the 12 features, and the target is one of the five
  vectors of `anomalyLabel_cases`, rounded: the
  `quality_problem` output is never targeted there.
-/
theorem anomalyPredictorData_targets
    (toFloat32 : JsonValue α → Except String α)
    {float32 : α → α}
    (hRound : ValidFloat32 float32)
    (rawData : List (Record (JsonValue α)))
    (syntheticRows : List (List α))
    {features labels : List (List α)}
    (hData : anomalyPredictorData toFloat32 float32 rawData syntheticRows =
      .ok (features, labels)) :
    (∀ v ∈ labels, v.length = 5 ∧ ∀ x ∈ v, 0 ≤ x ∧ x ≤ 1) ∧
      (usesRecords rawData = true →
        features.length = rawData.length ∧ (∀ row ∈ features, row.length = 12) ∧
          labels.length = rawData.length ∧
          ∀ v ∈ labels, v ∈ ([[0.1, 0.0, 0.0, 0.0, 0.0], [0.8, 0.0, 0.0, 0.0, 0.0],
            [0.8, 1.0, 0.0, 0.0, 0.0], [0.8, 0.0, 1.0, 0.0, 0.0],
            [0.8, 0.0, 0.0, 1.0, 0.0]] : List (List α)).map (List.map float32)) := by
  unfold anomalyPredictorData at hData
  split at hData
  case isTrue =>
    obtain ⟨rows, hRows, hData⟩ := Except.bind_eq_ok.1 hData
    cases hData
    have hUnit : ∀ r : Record (JsonValue α), ((anomalyLabel r).map float32).length = 5 ∧
        ∀ x ∈ (anomalyLabel r).map float32, 0 ≤ x ∧ x ≤ 1 := fun r =>
      ⟨(List.length_map _ _).trans (anomalyLabel_unit r).1,
        List.forall_mem_map.2 fun x hx => hRound.mem_unit ((anomalyLabel_unit r).2 x hx)⟩
    exact ⟨List.forall_mem_map.2 fun r _ => hUnit r,
      fun _ => ⟨(recordFeatures_shape hRows).1, (recordFeatures_shape hRows).2,
        List.length_map _ _,
        List.forall_mem_map.2 fun r _ => List.mem_map_of_mem _ (anomalyLabel_cases r)⟩⟩
  case isFalse hSynthetic =>
    cases hData
    exact ⟨List.forall_mem_map.2 fun row _ => syntheticAnomalyLabel_unit hRound row,
      fun h => absurd h hSynthetic⟩

end Nestra

------------------------------------------------------------
-- The Regression Targets
------------------------------------------------------------

namespace Nestra

variable {α : Type} [LinearOrderedField α]

/- `np.clip(x, lo, hi)`, that is `np.minimum(hi, np.maximum(x, lo))`. -/
def npClip
    (x lo hi : α) : α :=
  min hi (max x lo)

theorem npClip_mem_Icc
    {lo hi : α}
    (h : lo ≤ hi)
    (x : α) :
    lo ≤ npClip x lo hi ∧ npClip x lo hi ≤ hi :=
  ⟨le_min h (le_max_right x lo), min_le_left hi _⟩

/-
  `r.get(key, 0) / d`, the target a regression main reads
  off a record: a record without the key gives 0.
-/
def recordTarget
    (key : String)
    (d : α)
    (r : Record (JsonValue α)) : Except String α :=
  (r.get key (.num 0)).divFloat d

/- A record's target is its number, or its boolean as 0 or 1, over `d`. -/
theorem recordTarget_eq_ok
    {key : String}
    {d y : α}
    {r : Record (JsonValue α)}
    (h : recordTarget key d r = .ok y) :
    (∃ x, r.get key (.num 0) = .num x ∧ y = x / d) ∨
      ∃ b, r.get key (.num 0) = .bool b ∧ y = (if b then 1 else 0) / d := by
  unfold recordTarget at h
  cases hv : r.get key (.num 0) <;> rw [hv] at h <;> cases h
  case num x => exact .inl ⟨x, rfl, rfl⟩
  case bool b => exact .inr ⟨b, rfl, rfl⟩

/-
  A record's target is its number over `d`, and 0 for a
  record without the key.
-/
theorem recordTarget_spec
    {key : String}
    {d y : α}
    {r : Record (JsonValue α)}
    (h : recordTarget key d r = .ok y) :
    (∀ x, r.get key (.num 0) = .num x → y = x / d) ∧
      (r.entries.lookup key = none → y = 0) := by
  have hNum : ∀ x, r.get key (.num 0) = .num x → y = x / d := fun x hx => by
    rcases recordTarget_eq_ok h with ⟨x', hx', rfl⟩ | ⟨b, hb, -⟩
    · rw [hx] at hx'; cases hx'; rfl
    · rw [hx] at hb; cases hb
  exact ⟨hNum, fun hNone => (hNum 0 (by simp [Record.get, hNone])).trans (zero_div d)⟩

/-
  A regression table built from the records has one row and
  one rounded target per record, each target read off its
  own record.
-/
theorem recordTable_eq_ok
    {toFloat32 : JsonValue α → Except String α}
    {float32 : α → α}
    {keys : List String}
    {label : Record (JsonValue α) → Except String α}
    {rawData : List (Record (JsonValue α))}
    {features : List (List α)}
    {labels : List α}
    (h : (do
      let features ← recordFeatures toFloat32 keys rawData
      let labels ← rawData.mapM label
      pure (features, labels.map float32)) = .ok (features, labels)) :
    labels.length = features.length ∧ features.length = rawData.length ∧
      (∀ row ∈ features, row.length = keys.length) ∧
      List.Forall₂ (fun r y => ∃ t, label r = .ok t ∧ y = float32 t) rawData labels := by
  obtain ⟨rows, hRows, h⟩ := Except.bind_eq_ok.1 h
  obtain ⟨targets, hTargets, h⟩ := Except.bind_eq_ok.1 h
  cases h
  have hLabels := mapM_eq_ok_forall₂ hTargets
  have hShape := recordFeatures_shape hRows
  refine ⟨(List.length_map _ _).trans (hLabels.length_eq.symm.trans hShape.1.symm), hShape.1,
    hShape.2, List.forall₂_map_right_iff.2 ?_⟩
  exact hLabels.imp fun _ t ht => ⟨t, ht, rfl⟩

/- The `feature_keys` of train_waste_predictor.py. -/
def wasteFeatureKeys : List String :=
  ["totalPieceCount", "uniquePieceCount", "avgPieceArea", "pieceAreaStdDev",
    "minPieceArea", "maxPieceArea", "pieceAspectRatioMean", "pieceAspectRatioStdDev",
    "totalStockArea", "stockSheetCount", "avgStockArea", "stockAspectRatio",
    "totalDemandToStockRatio", "pieceToStockSizeRatio", "kerf", "allowRotation",
    "materialTypeIndex", "historicalAvgWaste", "lastJobWaste"]

/- `r.get('actualWastePercent', 0) / 100.0`. -/
def wasteLabel
    (r : Record (JsonValue α)) : Except String α :=
  recordTarget "actualWastePercent" 100.0 r

/-
  The waste `generate_synthetic_data` gives a feature row
  and its draw `noise` of `rng.normal(0, 0.02)`: the sum of
  the factors, clipped to `[0.02, 0.50]` and cast to float32.
-/
def syntheticWasteLabel
    (float32 : α → α)
    (row : List α)
    (noise : α) : α :=
  let f := fun j => row.getD j 0
  let baseWaste : α := 0.10
  let demandFactor := -0.15 * (f 12 - 0.5)
  let varietyFactor := 0.05 * (f 1 / f 0)
  let aspectFactor := 0.03 * f 7
  let kerfFactor := 0.01 * f 14
  let rotationFactor := -0.02 * f 15
  let historicalFactor := 0.3 * (f 17 / 100)
  let waste := baseWaste + demandFactor + varietyFactor + aspectFactor + kerfFactor +
    rotationFactor + historicalFactor + noise
  float32 (npClip waste 0.02 0.50)

/-
  The features and targets train_waste_predictor.py's
  `main` trains on: from the records when there are enough,
  their targets cast by `dtype=np.float32`, else from the
  synthetic rows, each with its noise draw.
-/
def wastePredictorData
    (toFloat32 : JsonValue α → Except String α)
    (float32 : α → α)
    (rawData : List (Record (JsonValue α)))
    (syntheticDraws : List (List α × α)) : Except String (List (List α) × List α) :=
  if usesRecords rawData then do
    let features ← recordFeatures toFloat32 wasteFeatureKeys rawData
    let labels ← rawData.mapM wasteLabel
    pure (features, labels.map float32)
  else
    .ok (syntheticDraws.map Prod.fst,
      syntheticDraws.map fun d => syntheticWasteLabel float32 d.1 d.2)

/-
  Every synthetic waste target lies in `[0.02, 0.50]`,
  rounded, whatever the draws; the records' targets are not
  clipped: each is the record's percentage over 100,
  rounded, and 0 for a record without one. Each record has
  one target and one row of the 19 features.
-/
theorem wastePredictorData_targets
    (toFloat32 : JsonValue α → Except String α)
    {float32 : α → α}
    (hRound : ValidFloat32 float32)
    (rawData : List (Record (JsonValue α)))
    (syntheticDraws : List (List α × α))
    {features : List (List α)}
    {labels : List α}
    (hData : wastePredictorData toFloat32 float32 rawData syntheticDraws =
      .ok (features, labels)) :
    labels.length = features.length ∧
      (usesRecords rawData = false → ∀ y ∈ labels, float32 0.02 ≤ y ∧ y ≤ float32 0.50) ∧
      (usesRecords rawData = true →
        features.length = rawData.length ∧ (∀ row ∈ features, row.length = 19) ∧
          List.Forall₂ (fun r y =>
            (∀ x, r.get "actualWastePercent" (.num 0) = .num x → y = float32 (x / 100.0)) ∧
            (r.entries.lookup "actualWastePercent" = none → y = 0)) rawData labels) := by
  unfold wastePredictorData at hData
  split at hData
  case isTrue hRecords =>
    obtain ⟨hLen, hRows, hWidth, hLabels⟩ := recordTable_eq_ok hData
    refine ⟨hLen, fun h => absurd hRecords (by simp [h]), fun _ => ⟨hRows, hWidth, ?_⟩⟩
    refine hLabels.imp fun r y ⟨t, ht, hy⟩ => ?_
    obtain ⟨hNum, hNone⟩ := recordTarget_spec ht
    exact ⟨fun x hx => hy.trans (congrArg float32 (hNum x hx)),
      fun h => hy.trans ((congrArg float32 (hNone h)).trans hRound.map_zero)⟩
  case isFalse hSynthetic =>
    cases hData
    obtain ⟨h002, h050⟩ : (0 : α) ≤ 0.02 ∧ (0.50 : α) ≤ 1 := by norm_num
    exact ⟨by simp, fun _ => List.forall_mem_map.2 fun _ _ =>
        hRound.mem_Icc_round h002 h050 (npClip_mem_Icc (by norm_num) _),
      fun h => absurd h hSynthetic⟩

/- The `feature_keys` of train_time_estimator.py. -/
def timeFeatureKeys : List String :=
  ["totalPieces", "totalCuts", "wastePercentage", "stockUsedCount", "machineType",
    "machineSpeed", "materialTypeIndex", "thickness", "averagePieceArea",
    "maxPieceArea", "operatorAvgTime", "machineAvgTime"]

/- `min(r.get('actualTimeMinutes', 0) / 180.0, 1.0)`. -/
def timeLabel
    (r : Record (JsonValue α)) : Except String α := do
  let t ← recordTarget "actualTimeMinutes" 180.0 r
  pure (pyMin t 1.0)

/-
  The time `generate_synthetic_data` gives a feature row:
  base, cutting and setup time, scaled by the machine type
  and the thickness, over the machine speed, in units of
  180 minutes, clipped to `[0, 1]` and cast to float32.
-/
def syntheticTimeLabel
    (float32 : α → α)
    (row : List α) : α :=
  let f := fun j => row.getD j 0
  let baseTime := f 0 * 0.5
  let cutTime := f 1 * 0.05
  let setupTime := f 3 * 2.0
  let machineMod := 1.0 - f 4 * 0.15
  let thicknessMod := 1.0 + f 7 / 50
  let totalTime := (baseTime + cutTime + setupTime) * machineMod * thicknessMod / f 5
  float32 (npClip (totalTime / 180.0) 0 1)

/-
  The features and targets train_time_estimator.py's
  `main` trains on: from the records when there are enough,
  their targets cast by `dtype=np.float32`, else from the
  synthetic rows.
-/
def timeEstimatorData
    (toFloat32 : JsonValue α → Except String α)
    (float32 : α → α)
    (rawData : List (Record (JsonValue α)))
    (syntheticRows : List (List α)) : Except String (List (List α) × List α) :=
  if usesRecords rawData then do
    let features ← recordFeatures toFloat32 timeFeatureKeys rawData
    let labels ← rawData.mapM timeLabel
    pure (features, labels.map float32)
  else .ok (syntheticRows, syntheticRows.map (syntheticTimeLabel float32))

/-
  Every synthetic time target lies in `[0, 1]`, the range
  of the network's final ReLU clipped at 1. On the records
  each record has one target and one row of the 12
  features, and the target is the record's time over 180,
  capped at 1 and rounded, and 0 for a record without one:
  a negative time gives a target below the network's range.
-/
theorem timeEstimatorData_targets
    (toFloat32 : JsonValue α → Except String α)
    {float32 : α → α}
    (hRound : ValidFloat32 float32)
    (rawData : List (Record (JsonValue α)))
    (syntheticRows : List (List α))
    {features : List (List α)}
    {labels : List α}
    (hData : timeEstimatorData toFloat32 float32 rawData syntheticRows =
      .ok (features, labels)) :
    labels.length = features.length ∧
      (usesRecords rawData = false → ∀ y ∈ labels, 0 ≤ y ∧ y ≤ 1) ∧
      (usesRecords rawData = true →
        features.length = rawData.length ∧ (∀ row ∈ features, row.length = 12) ∧
          List.Forall₂ (fun r y =>
            (∀ x, r.get "actualTimeMinutes" (.num 0) = .num x →
              y = float32 (pyMin (x / 180.0) 1.0)) ∧
            (r.entries.lookup "actualTimeMinutes" = none → y = 0)) rawData labels) := by
  unfold timeEstimatorData at hData
  split at hData
  case isTrue hRecords =>
    obtain ⟨hLen, hRows, hWidth, hLabels⟩ := recordTable_eq_ok hData
    refine ⟨hLen, fun h => absurd hRecords (by simp [h]), fun _ => ⟨hRows, hWidth, ?_⟩⟩
    refine hLabels.imp fun r y ⟨u, hu, hy⟩ => ?_
    obtain ⟨t, ht, hPure⟩ := Except.bind_eq_ok.1 hu
    cases hPure
    obtain ⟨hNum, hNone⟩ := recordTarget_spec ht
    refine ⟨fun x hx => by rw [hy, hNum x hx], fun h => ?_⟩
    rw [hy, hNone h, pyMin_eq_min, min_eq_left (by norm_num), hRound.map_zero]
  case isFalse hSynthetic =>
    cases hData
    exact ⟨by simp, fun _ => List.forall_mem_map.2 fun _ _ =>
        hRound.mem_unit (npClip_mem_Icc zero_le_one _),
      fun h => absurd h hSynthetic⟩

end Nestra
