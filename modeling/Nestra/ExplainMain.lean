import Nestra.Explanation
import Nestra.Preprocessing

/-
  The entry point of explain_model.py: `load_onnx_model`,
  `create_prediction_function`, `generate_shap_explanation`
  with its try block, and `main`, which falls back to the
  mock explanation and turns any other exception into an
  error object.

  onnxruntime and shap are opaque capabilities: each call
  returns a value of its documented shape or raises. Only
  the KernelExplainer construction and `shap_values` run
  inside the try block; the session, the prediction wrapper,
  the expected-value conversion and the final prediction run
  outside it.

  Main declarations:
    * `Session`, `Explainer`, `Runtime`
    * `generateShapExplanation`, `explainAfterShap`
    * `explain`, `main`
    * `PrimaryRun`, `explain_of_primaryRun`, `explain_of_attempt_error`
    * `explanation_wellFormed`, `main_prediction_of_primaryRun`
-/

------------------------------------------------------------
-- Capabilities
------------------------------------------------------------

namespace Nestra

/-
  An onnxruntime InferenceSession: the names of
  `session.get_inputs()`, and `session.run(None, {name: X})[0]`,
  the model's output rows for the input rows `X`.
-/
structure Session (α : Type) where
  inputNames : Except String (List String)
  run : String → List (List α) → Except String (List (List α))

/-
  `shap_values` as KernelExplainer returns it, each array
  flattened: one array, or a list with one array per output.
-/
inductive ShapValues (α : Type)
  | array (flat : List α)
  | perOutput (arrays : List (List α))

/-
  `explainer.expected_value`: a float, a NumPy array (one
  base value per output), or a Python list.
-/
inductive ExpectedValue (α : Type)
  | scalar (v : α)
  | array (vs : List α)
  | list (vs : List α)

/- A constructed KernelExplainer. -/
structure Explainer (α : Type) where
  expectedValue : ExpectedValue α
  shapValues : List (List α) → Except String (ShapValues α)

/-
  The environment `main` runs in: the two optional imports,
  `os.path.exists`, the session constructor,
  `load_background_data` (None on any failure) and
  `shap.KernelExplainer(predict_fn, background)`.
-/
structure Runtime (α : Type) where
  shapAvailable : Bool
  onnxAvailable : Bool
  pathExists : String → Bool
  inferenceSession : String → Except String (Session α)
  loadBackgroundData : String → Option (List (List α))
  kernelExplainer :
    (List (List α) → Except String (List (List α))) → List (List α) →
      Except String (Explainer α)

/- The command-line arguments. -/
structure Args where
  modelType : String
  modelPath : String
  inputData : String
  backgroundData : Option String

/- What `main` prints: the result with its two added keys, or an error object. -/
inductive Output (α : Type)
  | explanation (r : Explanation α) (modelType modelPath : String)
  | error (message : String)

end Nestra

------------------------------------------------------------
-- The Primary Path
------------------------------------------------------------

namespace Nestra

variable {α : Type} [LinearOrderedField α]

/-
  The expected-value conversion of line 80: `float(ev)` when
  `ev` has `__float__` (floats and NumPy arrays do, and an
  array converts only with one element), else `float(ev[0])`.
-/
def ExpectedValue.toFloat : ExpectedValue α → Except String α
  | .scalar v => .ok v
  | .array [v] => .ok v
  | .array _ => .error "only length-1 arrays can be converted to Python scalars"
  | .list (v :: _) => .ok v
  | .list [] => .error "list index out of range"

/- `shap_values[0]` for a list, then `.flatten().tolist()`. -/
def ShapValues.flatten : ShapValues α → Except String (List α)
  | .array flat => .ok flat
  | .perOutput (a :: _) => .ok a
  | .perOutput [] => .error "list index out of range"

/- `float(predict_fn(input_array).flatten()[0])`. -/
def firstEntry
    (rows : List (List α)) : Except String α :=
  match rows.flatten with
  | v :: _ => .ok v
  | [] => .error "index 0 is out of bounds for axis 0 with size 0"

/- `load_onnx_model(model_path)`. -/
def loadOnnxModel
    (rt : Runtime α)
    (modelPath : String) : Except String (Option (Session α)) :=
  if rt.onnxAvailable then (rt.inferenceSession modelPath).map some else .ok none

/- `create_prediction_function(session)`: `predict_fn`. -/
def createPredictionFunction
    (session : Option (Session α)) :
    Except String (List (List α) → Except String (List (List α))) :=
  match session with
  | none => .error "\x27NoneType\x27 object has no attribute \x27get_inputs\x27"
  | some s =>
      match s.inputNames with
      | .ok (name :: _) => .ok (s.run name)
      | .ok [] => .error "list index out of range"
      | .error e => .error e

/- The single input row, ordered by the sorted keys. -/
def inputArray
    (x : Record α) : List (List α) :=
  [(featureNames x).map x.value]

/- `background_data`, or ten all-zero rows. -/
def backgroundArray
    (x : Record α)
    (backgroundData : Option (List (List α))) : List (List α) :=
  backgroundData.getD (List.replicate 10 (List.replicate (featureNames x).length 0))

/-
  Lines 79-115 of `generate_shap_explanation`: everything
  after the try block, outside any handler.
-/
def explainAfterShap
    (x : Record α)
    (predict : List (List α) → Except String (List (List α)))
    (explainer : Explainer α)
    (shapValues : ShapValues α) : Except String (Explanation α) := do
  let expected ← explainer.expectedValue.toFloat
  let flat ← shapValues.flatten
  let importance ← importanceItems (featureNames x) flat
  let output ← predict (inputArray x)
  let prediction ← firstEntry output
  let positive ← contributors (featureNames x) flat (0 < ·)
  let negative ← contributors (featureNames x) flat (· < 0)
  pure (shapResult x flat expected prediction importance positive negative)

/-
  `generate_shap_explanation(session, input_data,
  background_data)`: `(result, None)`, or `(None, str(e))`
  for an exception of the try block.
-/
def generateShapExplanation
    (rt : Runtime α)
    (session : Option (Session α))
    (x : Record α)
    (backgroundData : Option (List (List α))) :
    Except String (Option (Explanation α) × Option String) := do
  let predict ← createPredictionFunction session
  let attempt : Except String (Explainer α × ShapValues α) := do
    let explainer ← rt.kernelExplainer predict (backgroundArray x backgroundData)
    let shapValues ← explainer.shapValues (inputArray x)
    pure (explainer, shapValues)
  match attempt with
  | .error e => pure (none, some e)
  | .ok (explainer, shapValues) => do
      let r ← explainAfterShap x predict explainer shapValues
      pure (some r, none)

/- The background `main` passes: loaded only from an existing path. -/
def backgroundOf
    (rt : Runtime α)
    (path : Option String) : Option (List (List α)) :=
  match path with
  | some p => if p ≠ "" ∧ rt.pathExists p = true then rt.loadBackgroundData p else none
  | none => none

/-
  The body of `main`'s try block after `json.loads`: the
  primary path when both libraries are present and the model
  file exists, else or after a failure the mock explanation.
-/
def explain
    (rt : Runtime α)
    (args : Args)
    (x : Record α) : Except String (Explanation α) := do
  let primary ←
    if rt.shapAvailable && rt.onnxAvailable && rt.pathExists args.modelPath then do
      let session ← loadOnnxModel rt args.modelPath
      let (result, error) ←
        generateShapExplanation rt session x (backgroundOf rt args.backgroundData)
      pure (if error.any (· != "") then none else result)
    else pure none
  match primary with
  | some r => pure r
  | none => pure (generateMockExplanation args.modelType x)

/-
  `main`: what it prints and its exit status, where `parse`
  is `json.loads` on objects of numbers.
-/
def main
    (rt : Runtime α)
    (parse : String → Except String (Record α))
    (args : Args) : Output α × Nat :=
  match parse args.inputData with
  | .error e => (.error ("Invalid JSON input: " ++ e), 1)
  | .ok x =>
      match explain rt args x with
      | .ok r => (.explanation r args.modelType args.modelPath, 0)
      | .error e => (.error ("Explanation failed: " ++ e), 1)

end Nestra

------------------------------------------------------------
-- Runs of the Primary Path
------------------------------------------------------------

namespace Nestra

variable {α : Type} [LinearOrderedField α]

/-
  A run of `main` on record `x` that takes the primary path
  and whose capabilities succeed up to `shap_values`: both
  libraries are present, the model file exists, the session
  loads with first input `name`, and the explainer is built
  and attributes the input row.
-/
structure PrimaryRun
    (rt : Runtime α)
    (args : Args)
    (x : Record α)
    (session : Session α)
    (name : String)
    (explainer : Explainer α)
    (shapValues : ShapValues α) : Prop where
  shap_available : rt.shapAvailable = true
  onnx_available : rt.onnxAvailable = true
  model_exists : rt.pathExists args.modelPath = true
  session_eq : rt.inferenceSession args.modelPath = .ok session
  input_names : ∃ rest, session.inputNames = .ok (name :: rest)
  explainer_eq : rt.kernelExplainer (session.run name)
    (backgroundArray x (backgroundOf rt args.backgroundData)) = .ok explainer
  shapValues_eq : explainer.shapValues (inputArray x) = .ok shapValues

/-
  On such a run the explanation is what the code after the
  try block makes of the attributions; its exceptions are
  not caught by the fallback.
-/
theorem explain_of_primaryRun
    {rt : Runtime α}
    {args : Args}
    {x : Record α}
    {session : Session α}
    {name : String}
    {explainer : Explainer α}
    {shapValues : ShapValues α}
    (hRun : PrimaryRun rt args x session name explainer shapValues) :
    explain rt args x = explainAfterShap x (session.run name) explainer shapValues := by
  obtain ⟨rest, hNames⟩ := hRun.input_names
  cases hAfter : explainAfterShap x (session.run name) explainer shapValues <;>
    simp [explain, hRun.shap_available, hRun.onnx_available, hRun.model_exists,
      loadOnnxModel, hRun.session_eq, generateShapExplanation, createPredictionFunction,
      hNames, hRun.explainer_eq, hRun.shapValues_eq, hAfter, bind, Except.bind, pure,
      Except.pure, Except.map]

/-
  An exception of the try block, in the KernelExplainer
  construction or in `shap_values`, sends `main` to the mock
  explanation.
-/
theorem explain_of_attempt_error
    {rt : Runtime α}
    {args : Args}
    {x : Record α}
    {session : Session α}
    {name : String}
    {rest : List String}
    (hShap : rt.shapAvailable = true)
    (hOnnx : rt.onnxAvailable = true)
    (hExists : rt.pathExists args.modelPath = true)
    (hSession : rt.inferenceSession args.modelPath = .ok session)
    (hNames : session.inputNames = .ok (name :: rest))
    {msg : String}
    (hFail : let background := backgroundArray x (backgroundOf rt args.backgroundData)
      rt.kernelExplainer (session.run name) background = .error msg ∨
        ∃ explainer, rt.kernelExplainer (session.run name) background = .ok explainer ∧
          explainer.shapValues (inputArray x) = .error msg) :
    explain rt args x = .ok (generateMockExplanation args.modelType x) := by
  simp only [explain, hShap, hOnnx, hExists, loadOnnxModel, hSession, generateShapExplanation,
    createPredictionFunction]
  rcases hFail with hBuild | ⟨explainer, hBuild, hValues⟩
  · simp [hNames, hBuild, bind, Except.bind, pure, Except.pure, Except.map]
  · simp [hNames, hBuild, hValues, bind, Except.bind, pure, Except.pure, Except.map]

end Nestra

------------------------------------------------------------
-- What the Primary Path Reports
------------------------------------------------------------

namespace Nestra

variable {α : Type} [LinearOrderedField α]

/-
  The code after the try block succeeds exactly when its
  steps do; its result pairs the sorted names with the
  attributions and lists contributors in name order.
-/
theorem explainAfterShap_eq_ok
    (x : Record α)
    (predict : List (List α) → Except String (List (List α)))
    (explainer : Explainer α)
    (shapValues : ShapValues α)
    {expected : α}
    (hExpected : explainer.expectedValue.toFloat = .ok expected)
    {flat : List α}
    (hFlat : shapValues.flatten = .ok flat)
    (hLen : flat.length = (featureNames x).length)
    {output : List (List α)}
    (hOutput : predict (inputArray x) = .ok output)
    {prediction : α}
    (hFirst : firstEntry output = .ok prediction) :
    explainAfterShap x predict explainer shapValues = .ok
      (shapResult x flat expected prediction ((featureNames x).zip (flat.map abs))
        ((((featureNames x).zip flat).filter fun p => 0 < p.2).map fun p => ⟨p.1, p.2⟩)
        ((((featureNames x).zip flat).filter fun p => p.2 < 0).map fun p => ⟨p.1, p.2⟩)) := by
  simp [explainAfterShap, hExpected, hFlat, importanceItems_eq_ok hLen.ge, hOutput, hFirst,
    contributors_eq_ok hLen.le, bind, Except.bind, pure, Except.pure]

/- Every result of the code after the try block is assembled by `shapResult`. -/
theorem explainAfterShap_inv
    {x : Record α}
    {predict : List (List α) → Except String (List (List α))}
    {explainer : Explainer α}
    {shapValues : ShapValues α}
    {r : Explanation α}
    (h : explainAfterShap x predict explainer shapValues = .ok r) :
    ∃ flat expected prediction importance positive negative,
      shapValues.flatten = .ok flat ∧
      importanceItems (featureNames x) flat = .ok importance ∧
      contributors (featureNames x) flat (0 < ·) = .ok positive ∧
      contributors (featureNames x) flat (· < 0) = .ok negative ∧
      r = shapResult x flat expected prediction importance positive negative := by
  simp only [explainAfterShap, bind, Except.bind_eq_ok] at h
  obtain ⟨expected, -, flat, hFlat, importance, hImp, -, -, prediction, -, positive, hPos,
    negative, hNeg, hResult⟩ := h
  exact ⟨flat, expected, prediction, importance, positive, negative, hFlat, hImp, hPos, hNeg,
    (Except.ok.inj hResult).symm⟩

/-
  A result of the primary path comes from the code after the
  try block, run on the explainer built from the prediction
  wrapper and on its attributions of the input row.
-/
theorem explainAfterShap_of_generateShapExplanation
    {rt : Runtime α}
    {session : Option (Session α)}
    {x : Record α}
    {backgroundData : Option (List (List α))}
    {r : Explanation α}
    {e : Option String}
    (h : generateShapExplanation rt session x backgroundData = .ok (some r, e)) :
    ∃ predict explainer shapValues,
      createPredictionFunction session = .ok predict ∧
      rt.kernelExplainer predict (backgroundArray x backgroundData) = .ok explainer ∧
      explainer.shapValues (inputArray x) = .ok shapValues ∧
      explainAfterShap x predict explainer shapValues = .ok r := by
  simp only [generateShapExplanation, bind, Except.bind_eq_ok] at h
  obtain ⟨predict, hPredict, h⟩ := h
  split at h
  · simp [pure, Except.pure] at h
  · rename_i explainer shapValues hAttempt
    simp only [Except.bind_eq_ok] at h hAttempt
    obtain ⟨built, hBuilt, values, hValues, hPair⟩ := hAttempt
    cases Except.ok.inj hPair
    obtain ⟨r', hAfter, hResult⟩ := h
    cases Except.ok.inj hResult
    exact ⟨predict, _, _, hPredict, hBuilt, hValues, hAfter⟩

end Nestra

------------------------------------------------------------
-- Results and Failures of main
------------------------------------------------------------

namespace Nestra

variable {α : Type} [LinearOrderedField α]

/-
  Both paths build well-formed results with disjoint
  contributor lists. The fallback attributes each feature
  its mock contribution. On the primary path, take the
  attributions the explainer built from the prediction
  wrapper gives for the input row, one per feature: every
  primary result carries exactly those as `shapValues`, and
  when the expected value converts and the prediction is
  read, the primary path does return a result.
-/
theorem explanation_wellFormed :
    (∀ (modelType : String) (x : Record α),
      let r := generateMockExplanation modelType x
      r.WellFormed x ∧ (∀ c ∈ r.positive, ∀ d ∈ r.negative, c.feature ≠ d.feature) ∧
        r.shapValues = (featureNames x).map fun n => mockContribution modelType (x.value n)) ∧
    (∀ (rt : Runtime α) (session : Option (Session α)) (x : Record α)
        (backgroundData : Option (List (List α)))
        (predict : List (List α) → Except String (List (List α)))
        (explainer : Explainer α) (shapValues : ShapValues α) (flat : List α),
      createPredictionFunction session = .ok predict →
      rt.kernelExplainer predict (backgroundArray x backgroundData) = .ok explainer →
      explainer.shapValues (inputArray x) = .ok shapValues →
      shapValues.flatten = .ok flat →
      flat.length = (featureNames x).length →
      (∀ r e, generateShapExplanation rt session x backgroundData = .ok (some r, e) →
        r.shapValues = flat ∧ r.WellFormed x ∧
          ∀ c ∈ r.positive, ∀ d ∈ r.negative, c.feature ≠ d.feature) ∧
      ((∃ v, explainer.expectedValue.toFloat = .ok v) →
        (∃ output v, predict (inputArray x) = .ok output ∧ firstEntry output = .ok v) →
        ∃ r, generateShapExplanation rt session x backgroundData = .ok (some r, none))) := by
  refine ⟨fun modelType x => ?_, ?_⟩
  · have hWF := generateMockExplanation_wellFormed modelType x
    exact ⟨hWF, hWF.disjoint, by simp [generateMockExplanation]⟩
  intro rt session x backgroundData predict explainer shapValues flat hPredict hBuilt hValues
    hFlat hLen
  refine ⟨fun r e h => ?_,
    fun ⟨expected, hExpected⟩ ⟨output, prediction, hOutput, hFirst⟩ => ?_⟩
  · obtain ⟨predict', explainer', shapValues', hPredict', hBuilt', hValues', hAfter⟩ :=
      explainAfterShap_of_generateShapExplanation h
    cases hPredict.symm.trans hPredict'
    cases hBuilt.symm.trans hBuilt'
    cases hValues.symm.trans hValues'
    obtain ⟨flat', expected, prediction, importance, positive, negative, hFlat', hImp, hPos, hNeg,
      rfl⟩ := explainAfterShap_inv hAfter
    cases hFlat.symm.trans hFlat'
    have hWF := shapResult_wellFormed x hLen expected prediction hImp hPos hNeg
    exact ⟨rfl, hWF, hWF.disjoint⟩
  · obtain ⟨r, hAfter⟩ : ∃ r, explainAfterShap x predict explainer shapValues = .ok r :=
      ⟨_, explainAfterShap_eq_ok x predict explainer shapValues hExpected hFlat hLen hOutput
        hFirst⟩
    exact ⟨r, by simp only [generateShapExplanation, hPredict, hBuilt, hValues, hAfter, bind,
      Except.bind, pure, Except.pure]⟩

/-
  On the primary path an expected value that is an array
  with other than one entry, as a model with several
  outputs has, makes `main` print an error object and exit
  with status 1, although every capability returned a value
  of its documented shape.
-/
theorem main_fails_on_vector_expected_value
    {rt : Runtime α}
    {parse : String → Except String (Record α)}
    {args : Args}
    {x : Record α}
    (hParse : parse args.inputData = .ok x)
    {session : Session α}
    {name : String}
    {explainer : Explainer α}
    {shapValues : ShapValues α}
    (hRun : PrimaryRun rt args x session name explainer shapValues)
    {vs : List α}
    (hVector : explainer.expectedValue = .array vs)
    (hLen : vs.length ≠ 1) :
    main rt parse args =
      (.error "Explanation failed: only length-1 arrays can be converted to Python scalars", 1) := by
  have hConvert : explainer.expectedValue.toFloat =
      .error "only length-1 arrays can be converted to Python scalars" := by
    rw [hVector]
    match vs, hLen with
    | [], _ => rfl
    | [_], h => exact absurd rfl h
    | _ :: _ :: _, _ => rfl
  simp [main, hParse, explain_of_primaryRun hRun, explainAfterShap, hConvert, bind, Except.bind]

theorem main_fails_on_five_output_model :
    let x : Record ℚ := ⟨[("currentWaste", 12)], by decide⟩
    let session : Session ℚ := ⟨.ok ["input"], fun _ X => .ok (X.map fun _ => [0, 0, 0, 0, 0])⟩
    let shapValues : ShapValues ℚ := .perOutput [[1], [0], [0], [0], [0]]
    let explainer : Explainer ℚ := ⟨.array [0, 0, 0, 0, 0], fun _ => .ok shapValues⟩
    let rt : Runtime ℚ :=
      ⟨true, true, fun _ => true, fun _ => .ok session, fun _ => none, fun _ _ => .ok explainer⟩
    let args : Args :=
      ⟨"anomaly_predictor", "anomaly_predictor.onnx", "\x7b\"currentWaste\": 12\x7d", none⟩
    let parse : String → Except String (Record ℚ) := fun _ => .ok x
    parse args.inputData = .ok x ∧ PrimaryRun rt args x session "input" explainer shapValues ∧
      explainer.expectedValue = .array [0, 0, 0, 0, 0] ∧ [(0 : ℚ), 0, 0, 0, 0].length ≠ 1 ∧
      main rt parse args =
        (.error "Explanation failed: only length-1 arrays can be converted to Python scalars", 1) := by
  intro x session shapValues explainer rt args parse
  have hRun : PrimaryRun rt args x session "input" explainer shapValues :=
    ⟨rfl, rfl, rfl, rfl, ⟨[], rfl⟩, rfl, rfl⟩
  exact ⟨rfl, hRun, rfl, by decide,
    main_fails_on_vector_expected_value rfl hRun rfl (by decide)⟩

/- `main` prints the explanation the try block builds. -/
theorem main_of_explain
    {rt : Runtime α}
    {parse : String → Except String (Record α)}
    {args : Args}
    {x : Record α}
    (hParse : parse args.inputData = .ok x)
    {r : Explanation α}
    (hExplain : explain rt args x = .ok r) :
    main rt parse args = (.explanation r args.modelType args.modelPath, 0) := by
  simp [main, hParse, hExplain]

/-
  For a model that scores each row by `f`, the prediction the
  primary path reports is `f` at the record's raw values in
  sorted-key order: `main` reads no side-car.
-/
theorem main_prediction_of_primaryRun
    {rt : Runtime α}
    {parse : String → Except String (Record α)}
    {args : Args}
    {x : Record α}
    (hParse : parse args.inputData = .ok x)
    {session : Session α}
    {name : String}
    {explainer : Explainer α}
    {shapValues : ShapValues α}
    (hRun : PrimaryRun rt args x session name explainer shapValues)
    {f : List α → List α}
    (hScore : ∀ rows, session.run name rows = .ok (rows.map f))
    {expected : α}
    (hExpected : explainer.expectedValue.toFloat = .ok expected)
    {flat : List α}
    (hFlat : shapValues.flatten = .ok flat)
    (hLen : flat.length = (featureNames x).length)
    {v : α}
    {vs : List α}
    (hOut : f ((featureNames x).map x.value) = v :: vs) :
    ∃ r, main rt parse args = (.explanation r args.modelType args.modelPath, 0) ∧
      r.prediction = v := by
  have hFirst : firstEntry ((inputArray x).map f) = .ok v := by
    simp [firstEntry, inputArray, hOut]
  exact ⟨_, main_of_explain hParse ((explain_of_primaryRun hRun).trans
    (explainAfterShap_eq_ok x _ explainer shapValues hExpected hFlat hLen (hScore _) hFirst)),
    rfl⟩

theorem main_predicts_from_raw_record :
    let x : Record ℚ := ⟨[("a", 3)], by decide⟩
    let sideCar : NormParams ℚ := ⟨[1], [2]⟩
    let f : List ℚ → List ℚ := fun row => [row.headD 0]
    let session : Session ℚ := ⟨.ok ["input"], fun _ rows => .ok (rows.map f)⟩
    let explainer : Explainer ℚ := ⟨.scalar 0, fun _ => .ok (.array [0])⟩
    let rt : Runtime ℚ :=
      ⟨true, true, fun _ => true, fun _ => .ok session, fun _ => none, fun _ _ => .ok explainer⟩
    let args : Args := ⟨"waste_predictor", "waste_predictor.onnx", "\x7b\"a\": 3\x7d", none⟩
    ∃ r, main rt (fun _ => .ok x) args = (.explanation r args.modelType args.modelPath, 0) ∧
      r.prediction = 3 ∧ sideCar.normalizeRow [3] = [1] ∧ f (sideCar.normalizeRow [3]) = [1] := by
  intro x sideCar f session explainer rt args
  have hRun : PrimaryRun rt args x session "input" explainer (.array [0]) :=
    ⟨rfl, rfl, rfl, rfl, ⟨[], rfl⟩, rfl, rfl⟩
  obtain ⟨r, hMain, hPrediction⟩ : ∃ r, main rt (fun _ => .ok x) args =
      (.explanation r args.modelType args.modelPath, 0) ∧ r.prediction = 3 :=
    main_prediction_of_primaryRun rfl hRun (fun _ => rfl) rfl rfl rfl rfl
  have hNormalize : sideCar.normalizeRow [3] = [1] := by
    norm_num [sideCar, NormParams.normalizeRow, List.zipWith3]
  exact ⟨r, hMain, hPrediction, hNormalize, by rw [hNormalize]; rfl⟩

theorem main_lists_positive_contributors_by_name :
    let x : Record ℚ := ⟨[("a", 0), ("b", 0)], by decide⟩
    let session : Session ℚ := ⟨.ok ["input"], fun _ rows => .ok (rows.map fun _ => [3])⟩
    let explainer : Explainer ℚ := ⟨.scalar 0, fun _ => .ok (.array [1, 2])⟩
    let rt : Runtime ℚ :=
      ⟨true, true, fun _ => true, fun _ => .ok session, fun _ => none, fun _ _ => .ok explainer⟩
    let args : Args :=
      ⟨"waste_predictor", "waste_predictor.onnx", "\x7b\"a\": 0, \"b\": 0\x7d", none⟩
    ∃ r, main rt (fun _ => .ok x) args = (.explanation r args.modelType args.modelPath, 0) ∧
      r.shapValues = [1, 2] ∧ r.featureImportance.map (·.feature) = ["b", "a"] ∧
      r.positive = [⟨"a", 1⟩, ⟨"b", 2⟩] := by
  intro x session explainer rt args
  have hRun : PrimaryRun rt args x session "input" explainer (.array [1, 2]) :=
    ⟨rfl, rfl, rfl, rfl, ⟨[], rfl⟩, rfl, rfl⟩
  have hNames : featureNames x = ["a", "b"] := by
    simp [x, featureNames, Record.keys, String.le_iff_toList_le]
    decide
  have hAfter := explainAfterShap_eq_ok x (session.run "input") explainer (.array [1, 2])
    rfl rfl (by rw [hNames]; rfl) rfl rfl
  refine ⟨_, main_of_explain rfl ((explain_of_primaryRun hRun).trans hAfter), rfl, ?_, ?_⟩ <;>
    simp only [shapResult, hNames] <;> rfl

end Nestra
