import Mathlib
import Nestra.Trainer

/-
  utils/data_loader.py: `normalize_features`, the z-score
  transform whose parameters the side-car carries, and
  `save_metadata`, the data loader's own side-car writer.

  NumPy's `mean` and `std` (the population deviation,
  ddof 0) are computed exactly; the square root is a
  parameter `sqrt` so that the definitions run, and the
  theorems take it to be the real square root. Both side-car
  writers name the file by `str.replace`, modelled by
  `pyReplace`.

  Main declarations:
    * `FeatureTable`, `mean`, `populationStd`
    * `normalizeFeatures`, `normalizeFeatures_spec`
    * `saveMetadata`, `sideCar_path_of_inner_onnx`
-/

------------------------------------------------------------
-- Column Statistics
------------------------------------------------------------

namespace Nestra

/- A 2-D `np.ndarray` of features: rows of `width` entries each. -/
structure FeatureTable (α : Type) where
  rows : List (List α)
  width : Nat
  length_row : ∀ r ∈ rows, r.length = width

variable {α : Type} [LinearOrderedField α]

/- Column `j`, `features[:, j]`. -/
def FeatureTable.column
    (X : FeatureTable α)
    (j : Nat) : List α :=
  X.rows.map fun r => r.getD j 0

/- `np.mean` of a column. -/
def mean
    (xs : List α) : α :=
  xs.sum / xs.length

/- `np.std` of a column, the population deviation, with the square root `sqrt`. -/
def populationStd
    (sqrt : α → α)
    (xs : List α) : α :=
  sqrt (mean (xs.map fun x => (x - mean xs) ^ 2))

/-
  The z-score transform of the parameters,
  `(row - means) / stds`, which `normalize_features` applies
  to every row.
-/
def NormParams.normalizeRow
    (p : NormParams α)
    (row : List α) : List α :=
  List.zipWith3 (fun v m s => (v - m) / s) row p.means p.stds

omit [LinearOrderedField α] in
theorem length_zipWith3
    {β γ δ ε : Type}
    (f : β → γ → δ → ε) :
    ∀ (l₁ : List β) (l₂ : List γ) (l₃ : List δ),
      (List.zipWith3 f l₁ l₂ l₃).length = min l₁.length (min l₂.length l₃.length)
  | [], _, _ => (Nat.zero_min _).symm
  | _ :: _, [], _ => by rw [List.length_nil, Nat.zero_min, Nat.min_zero]; rfl
  | _ :: _, _ :: _, [] => by rw [List.length_nil, Nat.min_zero, Nat.min_zero]; rfl
  | _ :: l₁, _ :: l₂, _ :: l₃ => by
      rw [List.length_cons, List.length_cons, List.length_cons, Nat.succ_min_succ,
        Nat.succ_min_succ, ← length_zipWith3 f l₁ l₂ l₃]
      rfl

/-
  `normalize_features(features)`: the column means, the
  population deviations with every one at most `1e-6`
  replaced by `1.0`, and the rows z-scored with them.
-/
def normalizeFeatures
    (sqrt : α → α)
    (X : FeatureTable α) : FeatureTable α × NormParams α :=
  let means := (List.range X.width).map fun j => mean (X.column j)
  let stds := ((List.range X.width).map fun j => populationStd sqrt (X.column j)).map
    fun s => if s > 1e-6 then s else 1.0
  let params : NormParams α := ⟨means, stds⟩
  (⟨X.rows.map params.normalizeRow, X.width, fun r hr => by
      obtain ⟨row, hRow, rfl⟩ := List.mem_map.1 hr
      simp [NormParams.normalizeRow, length_zipWith3, X.length_row row hRow, means, stds]⟩,
    params)

end Nestra

------------------------------------------------------------
-- The Normalized Columns
------------------------------------------------------------

namespace Nestra

variable {α : Type} [LinearOrderedField α]

/- Entry `j` of a z-scored row. -/
theorem getD_zipWith3_sub_div :
    ∀ (row means stds : List α) (j : Nat),
      j < row.length → j < means.length → j < stds.length →
      (List.zipWith3 (fun v m s => (v - m) / s) row means stds).getD j 0 =
        (row.getD j 0 - means.getD j 0) / stds.getD j 1
  | _ :: _, _ :: _, _ :: _, 0, _, _, _ => rfl
  | _ :: row, _ :: means, _ :: stds, j + 1, h₁, h₂, h₃ =>
      getD_zipWith3_sub_div row means stds j (Nat.lt_of_succ_lt_succ h₁)
        (Nat.lt_of_succ_lt_succ h₂) (Nat.lt_of_succ_lt_succ h₃)
  | [], _, _, _, h, _, _ => absurd h (Nat.not_lt_zero _)
  | _ :: _, [], _, _, _, h, _ => absurd h (Nat.not_lt_zero _)
  | _ :: _, _ :: _, [], _, _, _, h => absurd h (Nat.not_lt_zero _)

theorem sum_map_sub_const
    (xs : List α)
    (m : α) :
    (xs.map fun x => x - m).sum = xs.sum - xs.length * m := by
  induction xs with
  | nil => simp
  | cons x xs ih =>
      simp only [List.map_cons, List.sum_cons, ih, List.length_cons]
      push_cast
      ring

/- A column shifted by its mean and scaled by any `s` has mean zero. -/
theorem mean_map_sub_div
    {xs : List α}
    (hNe : xs ≠ [])
    (s : α) :
    mean (xs.map fun x => (x - mean xs) / s) = 0 := by
  have hLen : (xs.length : α) ≠ 0 := Nat.cast_ne_zero.2 (List.length_pos.2 hNe).ne'
  have hCentered : (xs.map fun x => x - mean xs).sum = 0 := by
    rw [sum_map_sub_const, mean, mul_div_cancel₀ _ hLen, sub_self]
  simp only [mean, div_eq_mul_inv, List.sum_map_mul_right] at hCentered ⊢
  rw [hCentered, zero_mul, zero_mul]

theorem mean_map_mul_const
    (xs : List α)
    (f : α → α)
    (c : α) :
    mean (xs.map fun x => f x * c) = mean (xs.map f) * c := by
  simp only [mean, List.sum_map_mul_right, List.length_map]
  ring

/-
  A column with positive population deviation `s`, shifted
  by its mean and scaled by `s`, has deviation one.
-/
theorem populationStd_map_sub_div
    {xs : List ℝ}
    (hNe : xs ≠ [])
    (hPos : 0 < populationStd Real.sqrt xs) :
    populationStd Real.sqrt
      (xs.map fun x => (x - mean xs) / populationStd Real.sqrt xs) = 1 := by
  set s := populationStd Real.sqrt xs
  set var := mean (xs.map fun x => (x - mean xs) ^ 2) with hVar
  have hVarPos : 0 < var := Real.sqrt_pos.1 hPos
  have hSq : s ^ 2 = var := Real.sq_sqrt hVarPos.le
  have hTerm : ∀ x, ((x - mean xs) / s - 0) ^ 2 = (x - mean xs) ^ 2 * (s ^ 2)⁻¹ :=
    fun x => by rw [sub_zero, div_pow, div_eq_mul_inv]
  have hScaled : mean ((xs.map fun x => (x - mean xs) / s).map fun z => (z - 0) ^ 2) =
      var * (s ^ 2)⁻¹ := by
    rw [List.map_map]
    simp only [Function.comp_def, hTerm]
    exact mean_map_mul_const xs _ _
  rw [populationStd, mean_map_sub_div hNe s, hScaled, hSq, mul_inv_cancel₀ hVarPos.ne',
    Real.sqrt_one]

/- Column `j` of the z-scored rows is column `j` z-scored. -/
theorem column_map_normalizeRow
    (X : FeatureTable α)
    (p : NormParams α)
    (hMeans : p.means.length = X.width)
    (hStds : p.stds.length = X.width)
    {j : Nat}
    (hj : j < X.width) :
    (X.rows.map p.normalizeRow).map (fun r => r.getD j 0) =
      (X.column j).map fun x => (x - p.means.getD j 0) / p.stds.getD j 1 := by
  simp only [List.map_map, FeatureTable.column]
  refine List.map_congr_left fun row hRow => ?_
  have hLen := X.length_row row hRow
  exact getD_zipWith3_sub_div row p.means p.stds j (by omega) (by omega) (by omega)

/-
  For every real feature table with at least one row: the
  means are the column means; every deviation kept is above
  `1e-6`, each column deviating by at most `1e-6` gets
  exactly `1.0`, and every other its own deviation;
  `normalized[i][j] = (X[i][j] - means[j]) / stds[j]`; and
  every normalized column has mean zero, and deviation one
  when its raw deviation exceeds `1e-6`.
-/
theorem normalizeFeatures_spec
    (X : FeatureTable ℝ)
    (hRows : X.rows ≠ []) :
    let Z := (normalizeFeatures Real.sqrt X).1
    let params := (normalizeFeatures Real.sqrt X).2
    params.means = (List.range X.width).map (fun j => mean (X.column j)) ∧
      params.stds.length = X.width ∧
      (∀ s ∈ params.stds, 1e-6 < s) ∧
      (∀ j < X.width, populationStd Real.sqrt (X.column j) ≤ 1e-6 →
        params.stds[j]? = some 1) ∧
      (∀ j < X.width, 1e-6 < populationStd Real.sqrt (X.column j) →
        params.stds[j]? = some (populationStd Real.sqrt (X.column j))) ∧
      Z.width = X.width ∧ Z.rows.length = X.rows.length ∧
      (∀ j < X.width, Z.column j =
        (X.column j).map fun x => (x - params.means.getD j 0) / params.stds.getD j 1) ∧
      (∀ j < X.width, mean (Z.column j) = 0) ∧
      (∀ j < X.width, 1e-6 < populationStd Real.sqrt (X.column j) →
        populationStd Real.sqrt (Z.column j) = 1) := by
  intro Z params
  have hStd : ∀ j < X.width, params.stds[j]? =
      some (if populationStd Real.sqrt (X.column j) > 1e-6 then
        populationStd Real.sqrt (X.column j) else 1.0) := by
    intro j hj
    simp [params, normalizeFeatures, hj]
  have hMean : ∀ j < X.width, params.means.getD j 0 = mean (X.column j) := by
    intro j hj
    simp [params, normalizeFeatures, hj]
  have hCol : ∀ j < X.width, Z.column j =
      (X.column j).map fun x => (x - params.means.getD j 0) / params.stds.getD j 1 :=
    fun j hj => column_map_normalizeRow X params (by simp [params, normalizeFeatures])
      (by simp [params, normalizeFeatures]) hj
  have hNe : ∀ j, X.column j ≠ [] := by simp [FeatureTable.column, hRows]
  refine ⟨rfl, by simp [params, normalizeFeatures], ?_, fun j hj hSmall => ?_,
    fun j hj hBig => ?_, rfl, by simp [Z, normalizeFeatures], hCol, fun j hj => ?_,
    fun j hj hBig => ?_⟩
  · simp only [params, normalizeFeatures, List.mem_map, List.mem_range]
    rintro _ ⟨_, ⟨j, -, rfl⟩, rfl⟩
    split_ifs with hBig
    · exact hBig
    · norm_num
  · rw [hStd j hj, if_neg (not_lt.2 hSmall)]
    norm_num
  · rw [hStd j hj, if_pos hBig]
  · rw [hCol j hj, hMean j hj]
    exact mean_map_sub_div (hNe j) _
  · have hScale : params.stds.getD j 1 = populationStd Real.sqrt (X.column j) := by
      rw [List.getD_eq_getElem?_getD, hStd j hj, if_pos hBig, Option.getD_some]
    rw [hCol j hj, hMean j hj, hScale]
    exact populationStd_map_sub_div (hNe j) (lt_trans (by norm_num) hBig)

theorem normalizeFeatures_spec_on_two_rows :
    let X : FeatureTable ℝ := ⟨[[1, 5], [3, 5]], 2, by simp⟩
    X.rows ≠ [] ∧
      let Z := (normalizeFeatures Real.sqrt X).1
      let params := (normalizeFeatures Real.sqrt X).2
      params.means = (List.range X.width).map (fun j => mean (X.column j)) ∧
        params.stds.length = X.width ∧
        (∀ s ∈ params.stds, 1e-6 < s) ∧
        (∀ j < X.width, populationStd Real.sqrt (X.column j) ≤ 1e-6 →
          params.stds[j]? = some 1) ∧
        (∀ j < X.width, 1e-6 < populationStd Real.sqrt (X.column j) →
          params.stds[j]? = some (populationStd Real.sqrt (X.column j))) ∧
        Z.width = X.width ∧ Z.rows.length = X.rows.length ∧
        (∀ j < X.width, Z.column j =
          (X.column j).map fun x => (x - params.means.getD j 0) / params.stds.getD j 1) ∧
        (∀ j < X.width, mean (Z.column j) = 0) ∧
        (∀ j < X.width, 1e-6 < populationStd Real.sqrt (X.column j) →
          populationStd Real.sqrt (Z.column j) = 1) :=
  ⟨by simp, normalizeFeatures_spec _ (by simp)⟩

end Nestra

------------------------------------------------------------
-- The Data Loader's Side-Car
------------------------------------------------------------

namespace Nestra

variable {α : Type}

/- The side-car `save_metadata` writes. -/
structure MetadataV1 (α : Type) where
  modelType : String
  version : String
  normParams : NormParams α
  inputSize : Nat
  updatedAt : String

/-
  `save_metadata(output_path, model_type, norm_params,
  input_size)`: the side-car's path and contents.
-/
def saveMetadata
    (outputPath modelType : String)
    (normParams : NormParams α)
    (inputSize : Nat) : String × MetadataV1 α :=
  (pyReplace outputPath ".onnx" "_metadata.json",
    { modelType := modelType
      version := "1.0.0"
      normParams := normParams
      inputSize := inputSize
      updatedAt := "2025-12-27T16:00:00.000Z" })

/-
  For every artifact path `q ++ '.onnx'`, both side-car
  writers replace every `.onnx` in `q` as well as the
  extension. So when `q` itself contains `.onnx` (a
  directory such as `models.onnx/`), the side-car is not the
  file `q ++ '_metadata.json'` next to the artifact; it is
  never the artifact itself.
-/
theorem sideCar_path_of_inner_onnx
    {τ : Type}
    (t : ProductionTrainer α τ)
    (q : String)
    (hInner : ".onnx".data <:+: q.data)
    (modelName : String)
    (normParams : NormParams α)
    (inputSize : Nat)
    (exportedAt device : String) :
    let trainerPath :=
      (t.saveMetadata (q ++ ".onnx") modelName normParams inputSize exportedAt device).1
    let loaderPath := (saveMetadata (q ++ ".onnx") modelName normParams inputSize).1
    trainerPath = pyReplace q ".onnx" "_metadata.json" ++ "_metadata.json" ∧
      loaderPath = trainerPath ∧
      trainerPath ≠ q ++ "_metadata.json" ∧
      trainerPath ≠ q ++ ".onnx" := by
  intro trainerPath loaderPath
  have hPath : trainerPath = pyReplace q ".onnx" "_metadata.json" ++ "_metadata.json" :=
    pyReplace_append_onnx q
  refine ⟨hPath, rfl, fun hNext => ?_, fun hSelf => ?_⟩
  · rw [hPath, String.ext_iff, String.data_append, String.data_append,
      List.append_left_inj, ← String.ext_iff] at hNext
    exact (pyReplace_onnx_eq_self_iff q).1 hNext hInner
  · have hLast : (pyReplace q ".onnx" "_metadata.json" ++ "_metadata.json").data.getLast? =
        (q ++ ".onnx").data.getLast? := by rw [← hPath, hSelf]
    rw [String.data_append, String.data_append, List.getLast?_append_of_ne_nil _ (by decide),
      List.getLast?_append_of_ne_nil _ (by decide)] at hLast
    exact absurd hLast (by decide)

theorem sideCar_path_of_inner_onnx_in_models_dir :
    ".onnx".data <:+: "models.onnx/waste_predictor".data ∧
      let t : ProductionTrainer ℚ Int :=
        ProductionTrainer.init ⟨[], List.nodup_nil⟩ (fun _ => 0) 0.001 32 150 20
      let trainerPath := (t.saveMetadata ("models.onnx/waste_predictor" ++ ".onnx")
        "waste_predictor" ⟨[], []⟩ 4 "" "cpu").1
      let loaderPath := (saveMetadata ("models.onnx/waste_predictor" ++ ".onnx")
        "waste_predictor" (⟨[], []⟩ : NormParams ℚ) 4).1
      trainerPath = pyReplace "models.onnx/waste_predictor" ".onnx" "_metadata.json" ++
          "_metadata.json" ∧
        loaderPath = trainerPath ∧
        trainerPath ≠ "models.onnx/waste_predictor" ++ "_metadata.json" ∧
        trainerPath ≠ "models.onnx/waste_predictor" ++ ".onnx" :=
  ⟨⟨"models".data, "/waste_predictor".data, rfl⟩,
    sideCar_path_of_inner_onnx _ "models.onnx/waste_predictor"
      ⟨"models".data, "/waste_predictor".data, rfl⟩ _ _ _ _ _⟩

end Nestra
