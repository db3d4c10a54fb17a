import Nestra.Loaders

/-
  One run of a training entry point, the `main` of
  train_waste_predictor.py and its three siblings after the
  data is loaded: construct the model, construct
  `ProductionTrainer(..., seed=42)`, `prepare_data`, `train`.

  Two generators supply the randomness. The process-global
  torch generator initialises the parameters when the model
  is constructed; after `torch.manual_seed(seed)` in
  `_set_seeds` it drives the loader shuffles and dropout.
  `self.rng = np.random.default_rng(seed)` draws the split's
  permutation. Every main constructs the model before the
  trainer, so the initial parameters come from whatever state
  the global generator was in.

  Main declarations:
    * `TorchGenerator`, `SeededTraining`
    * `trainingPipeline`
    * `trainingPipeline_eq_of_initParams`
    * `trainingPipeline_eq_error_iff`
-/

------------------------------------------------------------
-- Generators
------------------------------------------------------------

namespace Nestra

/-
  The process-global torch generator, with states `G`:
  `torch.manual_seed`, and the parameter initialisation of a
  model's construction, which draws from the generator.
-/
structure TorchGenerator (G τ : Type) where
  manualSeed : Nat → G
  initParams : G → Storage τ × G

/-
  What training draws from the torch generator once it is
  seeded, as functions of the seeded state: the network's
  steps (dropout) and the training loader's permutation at
  each epoch.
-/
structure SeededTraining (G α τ β : Type) where
  network : G → Network α τ β
  draws : G → Nat → List Nat

end Nestra

------------------------------------------------------------
-- The Pipeline
------------------------------------------------------------

namespace Nestra

variable {G α τ ρ ε : Type}
variable [Add α] [Sub α] [Mul α] [LT α] [OfScientific α]
variable [DecidableRel (fun a b : α => a < b)] [Div α] [NatCast α]

/-
  An entry point's run from the generator state `ambient`
  it starts in, with the settings all four mains share
  (lr 0.001, batch size 32, 150 epochs, patience 20,
  val_split 0.2); `permutation seed n` is what
  `default_rng(seed).permutation(n)` draws.
-/
def trainingPipeline
    (gen : TorchGenerator G τ)
    (permutation : Nat → Nat → List Nat)
    (training : SeededTraining G α τ (ρ × ε))
    (model : Module)
    (features : List ρ)
    (labels : List ε)
    (seed : Nat)
    (ambient : G) : Except String (ProductionTrainer α τ) := do
  let store := (gen.initParams ambient).1
  let seeded := gen.manualSeed seed
  let t := ProductionTrainer.init model store 0.001 32 150 20
  let (trainLoader, valLoader) ←
    prepareData features labels (0.2 : ℚ) t.batchSize (permutation seed features.length)
  ProductionTrainer.train
    (EpochPasses.ofLoaders (training.network seeded) trainLoader valLoader
      (training.draws seeded)) t

/-
  The state the run starts in enters it only through the
  parameters the model's construction draws: runs with the
  same seed and data whose initial parameters agree end
  alike.
-/
theorem trainingPipeline_eq_of_initParams
    (gen : TorchGenerator G τ)
    (permutation : Nat → Nat → List Nat)
    (training : SeededTraining G α τ (ρ × ε))
    (model : Module)
    (features : List ρ)
    (labels : List ε)
    (seed : Nat)
    {ambient ambient' : G}
    (hInit : (gen.initParams ambient).1 = (gen.initParams ambient').1) :
    trainingPipeline gen permutation training model features labels seed ambient =
      trainingPipeline gen permutation training model features labels seed ambient' := by
  simp only [trainingPipeline, hInit]

/-
  A run on an admitted table whose split leaves no one-row
  batch, with a network whose steps keep its tensors,
  succeeds and ends with the parameters the model's
  construction drew.
-/
theorem trainingPipeline_frame
    (gen : TorchGenerator G τ)
    (permutation : Nat → Nat → List Nat)
    (training : SeededTraining G α τ (ρ × ε))
    (model : Module)
    (features : List ρ)
    (labels : List ε)
    (seed : Nat)
    (ambient : G)
    (hLab : labels.length = features.length)
    (hPerm : (permutation seed features.length).Perm (List.range features.length))
    (hAdmitted : 100 ≤ features.length)
    (hBatch : features.length * 4 / 5 % 32 ≠ 1)
    (hDraws : ∀ i, (training.draws (gen.manualSeed seed) i).Perm
      (List.range (features.length * 4 / 5)))
    (hFrozen : ∀ lr s b, ((training.network (gen.manualSeed seed)).trainStep lr s b).1 = s) :
    ∃ t, trainingPipeline gen permutation training model features labels seed ambient = .ok t ∧
      t.store = (gen.initParams ambient).1 := by
  obtain ⟨trainLoader, valLoader, hPrep, hTrainLen, hTrainPos, -, hSizes, hVal, -⟩ :=
    prepareData_entry_epochs (α := α) (τ := τ) features labels hLab hPerm hAdmitted
  let net := training.network (gen.manualSeed seed)
  let passes := EpochPasses.ofLoaders net trainLoader valLoader (training.draws (gen.manualSeed seed))
  have hTrain : ∀ i lr s, ∃ l, passes.trainEpoch i lr s = .ok (s, l) := by
    intro i lr s
    have hDraw := hTrainLen ▸ hDraws i
    have hNoOne : 1 ∉ (trainLoader.iter (training.draws (gen.manualSeed seed) i)).map
        List.length := by
      rw [hSizes _ hDraw, one_mem_batchSizes_iff (by decide)]
      exact hBatch
    have hCheck : ∀ b ∈ trainLoader.iter (training.draws (gen.manualSeed seed) i),
        net.checkBatch b = .ok () := fun b hb =>
      (net.checkBatch_eq_ok_iff b).2 (Or.inr fun hOne => hNoOne (hOne ▸ List.mem_map_of_mem _ hb))
    obtain ⟨⟨s', l⟩, hr, hKeep⟩ := net.trainEpoch_ok trainLoader hCheck hTrainPos lr s
    cases hKeep (hFrozen lr)
    exact ⟨l, hr⟩
  let t₀ : ProductionTrainer α τ :=
    ProductionTrainer.init model (gen.initParams ambient).1 0.001 32 150 20
  have hInv : ProductionTrainer.SnapshotInv t₀ :=
    ProductionTrainer.snapshotInv_of_bestState_none rfl
  obtain ⟨t, hRun, hStore⟩ := ProductionTrainer.train_frame passes hTrain
    (fun _ s => hVal net s) hInv
  refine ⟨t, ?_, hStore⟩
  simp only [trainingPipeline, ProductionTrainer.init]
  rw [hPrep]
  exact hRun

/-
  On an admitted table, with permutation draws, a run raises
  exactly when its network has a BatchNorm1d layer and the
  training split leaves a one-row last batch, and then with
  BatchNorm's error, in its first epoch: nothing else can end
  a run with an error, whatever the network computes.
-/
theorem trainingPipeline_eq_error_iff
    (gen : TorchGenerator G τ)
    (permutation : Nat → Nat → List Nat)
    (training : SeededTraining G α τ (ρ × ε))
    (model : Module)
    (features : List ρ)
    (labels : List ε)
    (seed : Nat)
    (ambient : G)
    (hLab : labels.length = features.length)
    (hPerm : (permutation seed features.length).Perm (List.range features.length))
    (hAdmitted : 100 ≤ features.length)
    (hDraws : ∀ i, (training.draws (gen.manualSeed seed) i).Perm
      (List.range (features.length * 4 / 5)))
    (e : String) :
    trainingPipeline gen permutation training model features labels seed ambient = .error e ↔
      ∃ w, (training.network (gen.manualSeed seed)).batchNormWidth = some w ∧
        features.length * 4 / 5 % 32 = 1 ∧ e = batchNormError w := by
  obtain ⟨trainLoader, valLoader, hPrep, hTrainLen, hTrainPos, -, -, hVal, hEpoch⟩ :=
    prepareData_entry_epochs (α := α) (τ := τ) features labels hLab hPerm hAdmitted
  set net := training.network (gen.manualSeed seed)
  let passes := EpochPasses.ofLoaders net trainLoader valLoader (training.draws (gen.manualSeed seed))
  let t₀ : ProductionTrainer α τ :=
    ProductionTrainer.init model (gen.initParams ambient).1 0.001 32 150 20
  have hRun : trainingPipeline gen permutation training model features labels seed ambient =
      ProductionTrainer.train passes t₀ := by
    simp only [trainingPipeline, ProductionTrainer.init]
    rw [hPrep]
    rfl
  have hNoRaise : (∀ i lr s, ∃ r, passes.trainEpoch i lr s = .ok r) →
      ProductionTrainer.train passes t₀ ≠ .error e := fun hTrain hRaise => by
    obtain ⟨t, ht⟩ := ProductionTrainer.train_ok passes hTrain (fun _ s => hVal net s) t₀
    rw [ht] at hRaise
    cases hRaise
  rw [hRun]
  cases hW : net.batchNormWidth with
  | none =>
      simp only [reduceCtorEq, false_and, exists_false, iff_false]
      exact hNoRaise fun i lr s => (net.trainEpoch_ok trainLoader
        (fun b _ => (net.checkBatch_eq_ok_iff b).2 (.inl hW)) hTrainPos lr s).imp fun _ h => h.1
  | some w =>
      by_cases hOne : features.length * 4 / 5 % 32 = 1
      · rw [ProductionTrainer.train_eq_error passes (t := t₀) (Nat.succ_pos 149)
          ((hEpoch net w hW _ (hTrainLen ▸ hDraws 0) _ _).1 hOne)]
        simp [hOne, eq_comm]
      · simp only [hOne, false_and, and_false, exists_false, iff_false]
        exact hNoRaise fun i lr s => (hEpoch net w hW _ (hTrainLen ▸ hDraws i) lr s).2 hOne

/-
  Of 122 rows 97 train, in batches of 32, 32, 32 and 1: a
  network with BatchNorm1d raises, with nothing else.
-/
theorem trainingPipeline_raises_on_122_rows :
    let gen : TorchGenerator Nat Int := ⟨fun s => s, fun g => (fun _ => (g : Int), g + 1)⟩
    let training : SeededTraining Nat ℚ Int (Unit × Unit) :=
      ⟨fun _ => ⟨some 64, fun _ s _ => (s, 0), fun _ _ => 0⟩, fun _ _ => List.range 97⟩
    let model : Module := ⟨[("weight", 0)], by decide⟩
    trainingPipeline gen (fun _ n => List.range n) training model
        (List.replicate 122 ()) (List.replicate 122 ()) 42 0 = .error (batchNormError 64) ↔
      ∃ w, (training.network (gen.manualSeed 42)).batchNormWidth = some w ∧
        (List.replicate 122 ()).length * 4 / 5 % 32 = 1 ∧ batchNormError 64 = batchNormError w :=
  trainingPipeline_eq_error_iff _ _ _ _ _ _ 42 0 rfl (List.Perm.refl _) (by decide)
    (fun _ => List.Perm.refl _) _

/-
  Two runs with seed 42 on the same 100-row table that start
  from the generator states 0 and 1 end with different
  models: the parameters drawn before `manual_seed` differ,
  and training whose steps keep the tensors carries them
  through.
-/
theorem trainingPipeline_depends_on_ambient_state :
    let gen : TorchGenerator Nat Int := ⟨fun s => s, fun g => (fun _ => (g : Int), g + 1)⟩
    let training : SeededTraining Nat ℚ Int (Unit × Unit) :=
      ⟨fun _ => ⟨some 64, fun _ s _ => (s, 0), fun _ _ => 0⟩, fun _ _ => List.range 80⟩
    let model : Module := ⟨[("weight", 0)], by decide⟩
    let run := trainingPipeline gen (fun _ n => List.range n) training model
      (List.replicate 100 ()) (List.replicate 100 ()) 42
    ∃ t t', run 0 = .ok t ∧ run 1 = .ok t' ∧
      model.values t.store = [("weight", 0)] ∧ model.values t'.store = [("weight", 1)] := by
  intro gen training model run
  have hFrame := fun ambient => trainingPipeline_frame gen (fun _ n => List.range n) training
    model (List.replicate 100 ()) (List.replicate 100 ()) 42 ambient rfl (List.Perm.refl _)
    (by decide) (by decide) (fun _ => List.Perm.refl _) (fun _ _ _ => rfl)
  obtain ⟨t, hRun, hStore⟩ := hFrame 0
  obtain ⟨t', hRun', hStore'⟩ := hFrame 1
  exact ⟨t, t', hRun, hRun', by simp [Module.values, hStore, model, gen],
    by simp [Module.values, hStore', model, gen]⟩

end Nestra
