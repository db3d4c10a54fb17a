import Mathlib
import Nestra.Trainer

/-
  The data side of one training run in utils/trainer.py:
  `prepare_data` (seeded permutation, fractional cut, two
  TensorDatasets and two DataLoaders) and the two epoch
  passes `_train_epoch` and `_validate_epoch`, which average
  the batch losses over `len(loader)`.

  A DataLoader without `drop_last` yields consecutive
  batches of `batch_size` rows of its sampler's order, the
  last one shorter. A network with BatchNorm1d layers
  refuses a one-row batch in training mode.

  Main declarations:
    * `toBatches`, `map_length_toBatches`, `flatten_toBatches`
    * `DataLoader.iter_partitions_dataset`
    * `prepareData`, `Network.trainEpoch`, `Network.validateEpoch`
    * `EpochPasses.ofLoaders`
    * `prepareData_split`
    * `prepareData_entry_epochs`, `train_raises_on_one_row_batch`
-/

------------------------------------------------------------
-- Python Slicing and int()
------------------------------------------------------------

namespace Nestra

/- Python's `int(x)` on a float: truncation toward zero. -/
def pyInt
    {κ : Type}
    [LinearOrderedRing κ]
    [FloorRing κ]
    (x : κ) : Int :=
  if 0 ≤ x then ⌊x⌋ else ⌈x⌉

/-
  The position a Python slice bound `k` names in a sequence
  of length `len`: negative bounds count from the end.
-/
def sliceIndex
    (len : Nat)
    (k : Int) : Nat :=
  if 0 ≤ k then min k.toNat len else (len + k).toNat

/- `xs[:k]`. -/
def sliceTo
    {β : Type}
    (xs : List β)
    (k : Int) : List β :=
  xs.take (sliceIndex xs.length k)

/- `xs[k:]`. -/
def sliceFrom
    {β : Type}
    (xs : List β)
    (k : Int) : List β :=
  xs.drop (sliceIndex xs.length k)

/-
  NumPy's fancy indexing `xs[indices]`; an index out of
  range raises IndexError.
-/
def gather
    {β : Type}
    (xs : List β)
    (indices : List Nat) : Except String (List β) :=
  indices.mapM fun i =>
    match xs[i]? with
    | some x => .ok x
    | none => .error "IndexError: index out of bounds"

end Nestra

------------------------------------------------------------
-- Batching
------------------------------------------------------------

namespace Nestra

/-
  Consecutive batches of `batchSize` items, the last one
  shorter: torch's BatchSampler with `drop_last=False`.
-/
def toBatches
    {β : Type}
    (batchSize : Nat)
    (items : List β) : List (List β) :=
  go items.length items
where
  go : Nat → List β → List (List β)
    | 0, _ => []
    | fuel + 1, items =>
        if items.isEmpty then []
        else items.take batchSize :: go fuel (items.drop batchSize)

/-
  The sizes of the batches of `n` rows: full batches, then
  the remainder if there is one.
-/
def batchSizes
    (batchSize n : Nat) : List Nat :=
  List.replicate (n / batchSize) batchSize ++
    if n % batchSize = 0 then [] else [n % batchSize]

theorem batchSizes_of_lt
    {batchSize n : Nat}
    (hPos : 0 < n)
    (hLt : n < batchSize) :
    batchSizes batchSize n = [n] := by
  simp [batchSizes, Nat.div_eq_of_lt hLt, Nat.mod_eq_of_lt hLt,
    Nat.pos_iff_ne_zero.1 hPos]

theorem batchSizes_add
    {batchSize : Nat}
    (hPos : 0 < batchSize)
    (n : Nat) :
    batchSizes batchSize (n + batchSize) =
      batchSize :: batchSizes batchSize n := by
  simp [batchSizes, Nat.add_div_right n hPos, List.replicate_succ]

@[simp] theorem toBatches_go_nil
    {β : Type}
    (batchSize fuel : Nat) :
    toBatches.go batchSize fuel ([] : List β) = [] := by
  cases fuel <;> rfl

/- Enough fuel makes `go` batch the whole list. -/
theorem map_length_toBatches_go
    {β : Type}
    {batchSize : Nat}
    (hPos : 0 < batchSize)
    (fuel : Nat) :
    ∀ items : List β, items.length ≤ fuel →
      (toBatches.go batchSize fuel items).map List.length =
        batchSizes batchSize items.length := by
  induction fuel with
  | zero =>
      intro items hLen
      simp [List.length_eq_zero.1 (Nat.le_zero.1 hLen), toBatches.go,
        batchSizes]
  | succ fuel ih =>
      rintro (_ | ⟨x, rest⟩) hLen
      · simp [toBatches.go, batchSizes]
      · simp only [toBatches.go, List.isEmpty_cons, Bool.false_eq_true,
          if_false, List.map_cons]
        by_cases hShort : (x :: rest).length < batchSize
        · rw [List.drop_eq_nil_of_le hShort.le, List.take_of_length_le hShort.le,
            batchSizes_of_lt (List.length_pos.2 (List.cons_ne_nil x rest)) hShort]
          simp
        · obtain ⟨m, hm⟩ : ∃ m, (x :: rest).length = m + batchSize :=
            ⟨_, (Nat.sub_add_cancel (Nat.le_of_not_lt hShort)).symm⟩
          rw [ih _ (by simp at hLen ⊢; omega), List.length_take, List.length_drop, hm,
            batchSizes_add hPos, Nat.min_eq_left (Nat.le_add_left _ _), Nat.add_sub_cancel]

/- Batching then concatenating gives the rows back. -/
theorem flatten_toBatches_go
    {β : Type}
    {batchSize : Nat}
    (hPos : 0 < batchSize)
    (fuel : Nat) :
    ∀ items : List β, items.length ≤ fuel →
      (toBatches.go batchSize fuel items).flatten = items := by
  induction fuel with
  | zero =>
      intro items hLen
      rw [List.eq_nil_of_length_eq_zero (Nat.le_zero.1 hLen)]
      rfl
  | succ fuel ih =>
      rintro (_ | ⟨x, rest⟩) hLen
      · rfl
      · simp only [toBatches.go, List.isEmpty_cons, Bool.false_eq_true, if_false,
          List.flatten_cons]
        rw [ih _ (by simp at hLen ⊢; omega), List.take_append_drop]

theorem flatten_toBatches
    {β : Type}
    {batchSize : Nat}
    (hPos : 0 < batchSize)
    (items : List β) :
    (toBatches batchSize items).flatten = items :=
  flatten_toBatches_go hPos items.length items le_rfl

/- There are `ceil(n / batch_size)` batches. -/
theorem length_batchSizes
    {batchSize : Nat}
    (hPos : 0 < batchSize)
    (n : Nat) :
    (batchSizes batchSize n).length = (n + batchSize - 1) / batchSize := by
  unfold batchSizes
  have hSplit := Nat.div_add_mod n batchSize
  have hRem := Nat.mod_lt n hPos
  split_ifs with hZero
  · have hEq : n + batchSize - 1 = (batchSize - 1) + batchSize * (n / batchSize) := by omega
    rw [hEq, Nat.add_mul_div_left _ _ hPos,
      Nat.div_eq_of_lt (show batchSize - 1 < batchSize by omega)]
    simp
  · have hEq : n + batchSize - 1 = (n % batchSize - 1) + batchSize * (n / batchSize + 1) := by
      rw [Nat.mul_succ]
      omega
    rw [hEq, Nat.add_mul_div_left _ _ hPos,
      Nat.div_eq_of_lt (show n % batchSize - 1 < batchSize by omega)]
    simp

/- Every batch is non-empty and at most `batch_size` rows. -/
theorem mem_batchSizes
    {batchSize n s : Nat}
    (hPos : 0 < batchSize)
    (hs : s ∈ batchSizes batchSize n) :
    0 < s ∧ s ≤ batchSize := by
  unfold batchSizes at hs
  have hRem := Nat.mod_lt n hPos
  split_ifs at hs <;> simp [List.mem_replicate] at hs <;> omega

/- The batch sizes depend on the number of rows only. -/
theorem map_length_toBatches
    {β : Type}
    {batchSize : Nat}
    (hPos : 0 < batchSize)
    (items : List β) :
    (toBatches batchSize items).map List.length =
      batchSizes batchSize items.length :=
  map_length_toBatches_go hPos items.length items le_rfl

end Nestra

------------------------------------------------------------
-- Datasets and Loaders
------------------------------------------------------------

namespace Nestra

/-
  `TensorDataset(x, y)`: the rows paired by position; the
  two tensors must have the same number of rows.
-/
def tensorDataset
    {ρ ε : Type}
    (xs : List ρ)
    (ys : List ε) : Except String (List (ρ × ε)) :=
  if xs.length = ys.length then .ok (xs.zip ys)
  else .error "Size mismatch between tensors"

/-
  A DataLoader without `drop_last`. Its batch size is
  positive, as torch's BatchSampler requires.
-/
structure DataLoader (β : Type) where
  dataset : List β
  batchSize : Nat
  shuffle : Bool
  batchSize_pos : 0 < batchSize

namespace DataLoader

variable {β : Type}

/-
  `DataLoader(dataset, batch_size=..., shuffle=...)`. It
  builds its sampler first: with `shuffle=True` a
  RandomSampler, which refuses an empty dataset; then a
  BatchSampler, which refuses a batch size below one.
-/
def new
    (dataset : List β)
    (batchSize : Nat)
    (shuffle : Bool) : Except String (DataLoader β) :=
  if shuffle ∧ dataset.length = 0 then
    .error ("num_samples should be a positive integer value, but got num_samples=" ++
      toString dataset.length)
  else if h : 0 < batchSize then .ok ⟨dataset, batchSize, shuffle, h⟩
  else .error ("batch_size should be a positive integer value, but got batch_size=" ++
    toString batchSize)

/- `len(loader)`: the number of batches, the last one partial. -/
def len (loader : DataLoader β) : Nat :=
  (loader.dataset.length + loader.batchSize - 1) / loader.batchSize

/-
  One pass over the loader. The sampler's order is the
  permutation `draw` that RandomSampler draws when the
  loader shuffles, and the dataset's own order otherwise.
-/
def iter
    (loader : DataLoader β)
    (draw : List Nat) : List (List β) :=
  let order :=
    if loader.shuffle then draw else List.range loader.dataset.length
  toBatches loader.batchSize (order.filterMap fun i => loader.dataset[i]?)

end DataLoader

end Nestra

------------------------------------------------------------
-- The Epoch Passes
------------------------------------------------------------

namespace Nestra

/-
  The model and loss as the epoch passes drive them. In
  training mode the first BatchNorm1d layer, of width `w`
  when `batchNormWidth = some w`, refuses a one-row batch.
  `trainStep` is the rest of one step (zero_grad, forward,
  `_compute_loss`, backward, clip_grad_norm_,
  optimizer.step): the new tensors and `loss.item()`.
  `evalLoss` is `loss.item()` in eval mode.
-/
structure Network (α τ β : Type) where
  batchNormWidth : Option Nat
  trainStep : α → Storage τ → List β → Storage τ × α
  evalLoss : Storage τ → List β → α

/- The ValueError of BatchNorm1d on a one-row batch. -/
def batchNormError (width : Nat) : String :=
  "Expected more than 1 value per channel when training, got input size " ++
    "torch.Size([1, " ++ toString width ++ "])"

/- `total_loss / len(loader)` on Python floats. -/
def averageLoss
    {α : Type}
    [Div α]
    [NatCast α]
    (total : α)
    (count : Nat) : Except String α :=
  if count = 0 then .error "float division by zero"
  else .ok (total / (count : α))

namespace Network

variable {α τ β : Type}
variable [Add α] [Div α] [NatCast α] [OfScientific α]

/- The forward pass's batch-shape check in training mode. -/
def checkBatch
    (net : Network α τ β)
    (batch : List β) : Except String Unit :=
  match net.batchNormWidth with
  | some w => if batch.length = 1 then .error (batchNormError w) else .ok ()
  | none => .ok ()

/- One iteration of `_train_epoch`'s batch loop. -/
def trainBatch
    (net : Network α τ β)
    (lr : α)
    (acc : Storage τ × α)
    (batch : List β) : Except String (Storage τ × α) := do
  net.checkBatch batch
  let (store, loss) := net.trainStep lr acc.1 batch
  pure (store, acc.2 + loss)

/- `_train_epoch`: the new tensors and the average loss. -/
def trainEpoch
    (net : Network α τ β)
    (loader : DataLoader β)
    (draw : List Nat)
    (lr : α)
    (store : Storage τ) : Except String (Storage τ × α) := do
  let (store, total) ←
    (loader.iter draw).foldlM (net.trainBatch lr) (store, 0.0)
  let avg ← averageLoss total loader.len
  pure (store, avg)

/- `_validate_epoch`: eval mode, no tensor changes. -/
def validateEpoch
    (net : Network α τ β)
    (loader : DataLoader β)
    (store : Storage τ) : Except String α :=
  averageLoss
    ((loader.iter []).foldl (fun total batch => total + net.evalLoss store batch) 0.0)
    loader.len

end Network

/-
  The passes of `train(train_loader, val_loader)`; `draws i`
  is the permutation the training loader draws in epoch `i`.
-/
def EpochPasses.ofLoaders
    {α τ β : Type}
    [Add α] [Div α] [NatCast α] [OfScientific α]
    (net : Network α τ β)
    (trainLoader valLoader : DataLoader β)
    (draws : Nat → List Nat) : EpochPasses α τ :=
  { trainEpoch := fun i lr s => net.trainEpoch trainLoader (draws i) lr s
    validateEpoch := fun _ s => net.validateEpoch valLoader s }

/-
  `prepare_data(features, labels, val_split)` with the
  trainer's batch size, where `perm` is the permutation
  `self.rng.permutation(len(features))` draws.
-/
def prepareData
    {κ ρ ε : Type}
    [LinearOrderedRing κ]
    [FloorRing κ]
    (features : List ρ)
    (labels : List ε)
    (valSplit : κ)
    (batchSize : Nat)
    (perm : List Nat) :
    Except String (DataLoader (ρ × ε) × DataLoader (ρ × ε)) := do
  let features ← gather features perm
  let labels ← gather labels perm
  let splitIdx := pyInt ((features.length : κ) * (1 - valSplit))
  let trainDs ← tensorDataset (sliceTo features splitIdx) (sliceTo labels splitIdx)
  let valDs ← tensorDataset (sliceFrom features splitIdx) (sliceFrom labels splitIdx)
  let trainLoader ← DataLoader.new trainDs batchSize true
  let valLoader ← DataLoader.new valDs batchSize false
  pure (trainLoader, valLoader)

end Nestra

------------------------------------------------------------
-- Loader Shapes
------------------------------------------------------------

namespace Nestra

/- Fancy indexing with indices in range picks the rows. -/
theorem gather_of_lt
    {β : Type}
    (xs : List β)
    {indices : List Nat}
    (hLt : ∀ i ∈ indices, i < xs.length) :
    gather xs indices = .ok (indices.filterMap fun i => xs[i]?) := by
  induction indices with
  | nil => rfl
  | cons i rest ih =>
      have hi := hLt i (List.mem_cons_self i rest)
      have hRest := ih fun j hj => hLt j (List.mem_cons_of_mem i hj)
      simp only [gather] at hRest ⊢
      rw [List.mapM_cons, hRest, List.filterMap_cons,
        List.getElem?_eq_getElem hi]
      rfl

theorem length_filterMap_getElem?
    {β : Type}
    (xs : List β)
    {indices : List Nat}
    (hLt : ∀ i ∈ indices, i < xs.length) :
    (indices.filterMap fun i => xs[i]?).length = indices.length := by
  induction indices with
  | nil => rfl
  | cons i rest ih =>
      have hi := hLt i (List.mem_cons_self i rest)
      simp [List.filterMap_cons, List.getElem?_eq_getElem hi,
        ih fun j hj => hLt j (List.mem_cons_of_mem i hj)]

theorem lt_of_perm_range
    {draw : List Nat}
    {n : Nat}
    (hPerm : draw.Perm (List.range n))
    {i : Nat}
    (hi : i ∈ draw) :
    i < n :=
  List.mem_range.1 (hPerm.subset hi)

/- Picking rows at indices in range commutes with `[:m]`. -/
theorem take_filterMap_getElem?
    {β : Type}
    (xs : List β)
    {indices : List Nat}
    (hLt : ∀ i ∈ indices, i < xs.length)
    (m : Nat) :
    (indices.filterMap fun i => xs[i]?).take m =
      (indices.take m).filterMap fun i => xs[i]? := by
  induction indices generalizing m with
  | nil => simp
  | cons i rest ih =>
      have hi := hLt i (List.mem_cons_self i rest)
      cases m with
      | zero => simp
      | succ m =>
          simp [List.getElem?_eq_getElem hi,
            ih (fun j hj => hLt j (List.mem_cons_of_mem i hj)) m]

/- And with `[m:]`. -/
theorem drop_filterMap_getElem?
    {β : Type}
    (xs : List β)
    {indices : List Nat}
    (hLt : ∀ i ∈ indices, i < xs.length)
    (m : Nat) :
    (indices.filterMap fun i => xs[i]?).drop m =
      (indices.drop m).filterMap fun i => xs[i]? := by
  induction indices generalizing m with
  | nil => simp
  | cons i rest ih =>
      have hi := hLt i (List.mem_cons_self i rest)
      cases m with
      | zero => rfl
      | succ m =>
          simp [List.getElem?_eq_getElem hi,
            ih (fun j hj => hLt j (List.mem_cons_of_mem i hj)) m]

/- Picking features and labels at the same indices pairs each row with its own label. -/
theorem zip_filterMap_getElem?
    {ρ ε : Type}
    (xs : List ρ)
    (ys : List ε)
    {indices : List Nat}
    (hX : ∀ i ∈ indices, i < xs.length)
    (hY : ∀ i ∈ indices, i < ys.length) :
    (indices.filterMap fun i => xs[i]?).zip (indices.filterMap fun i => ys[i]?) =
      indices.filterMap fun i => (xs.zip ys)[i]? := by
  induction indices with
  | nil => simp
  | cons i rest ih =>
      have hx := hX i (List.mem_cons_self i rest)
      have hy := hY i (List.mem_cons_self i rest)
      have hZip : (xs.zip ys)[i]? = some (xs[i], ys[i]) := by
        rw [List.getElem?_eq_getElem (by simp; omega), List.getElem_zip]
      simp [List.getElem?_eq_getElem hx, List.getElem?_eq_getElem hy, hZip,
        ih (fun j hj => hX j (List.mem_cons_of_mem i hj))
          (fun j hj => hY j (List.mem_cons_of_mem i hj))]

/- Picking every row in order gives the table back. -/
theorem filterMap_getElem?_range
    {β : Type}
    (xs : List β) :
    (List.range xs.length).filterMap (fun i => xs[i]?) = xs := by
  induction xs using List.reverseRecOn with
  | nil => rfl
  | append_singleton xs x ih =>
      have hPrefix : (List.range xs.length).filterMap (fun i => (xs ++ [x])[i]?) = xs :=
        (List.filterMap_congr fun i hi =>
          List.getElem?_append_left (List.mem_range.1 hi)).trans ih
      rw [List.length_append, List.length_singleton, List.range_succ, List.filterMap_append,
        hPrefix]
      simp

namespace DataLoader

variable {β : Type}

/- A loader has a batch iff its dataset has a row. -/
theorem len_pos_iff
    (loader : DataLoader β) :
    0 < loader.len ↔ 0 < loader.dataset.length := by
  have hPos := loader.batchSize_pos
  rw [len, Nat.div_pos_iff (by omega)]
  omega

/-
  Every pass over a loader whose draw is a permutation of
  its rows has the batch sizes of its row count.
-/
theorem map_length_iter
    (loader : DataLoader β)
    {draw : List Nat}
    (hDraw : loader.shuffle → draw.Perm (List.range loader.dataset.length)) :
    (loader.iter draw).map List.length =
      batchSizes loader.batchSize loader.dataset.length := by
  unfold iter
  rw [map_length_toBatches loader.batchSize_pos]
  congr 1
  by_cases hShuffle : loader.shuffle
  · have hPerm := hDraw hShuffle
    rw [if_pos hShuffle, length_filterMap_getElem? _ fun _ hi => lt_of_perm_range hPerm hi,
      hPerm.length_eq, List.length_range]
  · rw [if_neg hShuffle, length_filterMap_getElem? _ fun _ hi => List.mem_range.1 hi,
      List.length_range]

/-
  One pass over a loader, whatever it draws when it
  shuffles as long as that is a permutation of its rows
  (what RandomSampler draws): its batches put every row of
  the dataset in exactly once, in the dataset's order when
  the loader does not shuffle; there are `len(loader)` of
  them, each non-empty and at most `batch_size` rows, all
  but the last exactly `batch_size`.
-/
theorem iter_partitions_dataset
    (loader : DataLoader β)
    {draw : List Nat}
    (hDraw : loader.shuffle → draw.Perm (List.range loader.dataset.length)) :
    (loader.iter draw).flatten.Perm loader.dataset ∧
      (loader.shuffle = false → (loader.iter draw).flatten = loader.dataset) ∧
      (loader.iter draw).map List.length = batchSizes loader.batchSize loader.dataset.length ∧
      (loader.iter draw).length = loader.len ∧
      ∀ b ∈ loader.iter draw, 0 < b.length ∧ b.length ≤ loader.batchSize := by
  have hPos := loader.batchSize_pos
  have hSizes := map_length_iter loader hDraw
  have hInOrder : loader.shuffle = false → (loader.iter draw).flatten = loader.dataset :=
    fun hNo => by
      rw [iter, flatten_toBatches hPos, if_neg (by simp [hNo]), filterMap_getElem?_range]
  refine ⟨?_, hInOrder, hSizes, ?_, fun b hb => ?_⟩
  · cases hShuffle : loader.shuffle
    · rw [hInOrder hShuffle]
    · rw [iter, flatten_toBatches hPos, if_pos hShuffle]
      have hPerm := (hDraw hShuffle).filterMap fun i => loader.dataset[i]?
      rwa [filterMap_getElem?_range] at hPerm
  · rw [← List.length_map _ List.length, hSizes, length_batchSizes hPos, len]
  · exact mem_batchSizes hPos (hSizes ▸ List.mem_map_of_mem List.length hb)

theorem iter_partitions_dataset_on_five_rows :
    let loader : DataLoader Nat := ⟨[10, 20, 30, 40, 50], 2, true, by decide⟩
    (loader.shuffle → [4, 2, 0, 3, 1].Perm (List.range loader.dataset.length)) ∧
      (loader.iter [4, 2, 0, 3, 1]).flatten.Perm loader.dataset ∧
      (loader.shuffle = false → (loader.iter [4, 2, 0, 3, 1]).flatten = loader.dataset) ∧
      (loader.iter [4, 2, 0, 3, 1]).map List.length =
        batchSizes loader.batchSize loader.dataset.length ∧
      (loader.iter [4, 2, 0, 3, 1]).length = loader.len ∧
      ∀ b ∈ loader.iter [4, 2, 0, 3, 1], 0 < b.length ∧ b.length ≤ loader.batchSize :=
  ⟨fun _ => by decide, iter_partitions_dataset _ fun _ => by decide⟩

end DataLoader

/- A one-row batch exists exactly when the remainder is one row. -/
theorem one_mem_batchSizes_iff
    {batchSize n : Nat}
    (hBig : 1 < batchSize) :
    1 ∈ batchSizes batchSize n ↔ n % batchSize = 1 := by
  unfold batchSizes
  split <;> simp [List.mem_replicate] <;> omega

end Nestra

------------------------------------------------------------
-- When an Epoch Raises
------------------------------------------------------------

namespace Nestra

namespace Network

variable {α τ β : Type}
variable [Add α] [Div α] [NatCast α] [OfScientific α]

omit [Add α] [Div α] [NatCast α] [OfScientific α] in
theorem checkBatch_eq_ok_iff
    (net : Network α τ β)
    (batch : List β) :
    net.checkBatch batch = .ok () ↔
      net.batchNormWidth = none ∨ batch.length ≠ 1 := by
  cases hW : net.batchNormWidth <;> by_cases hOne : batch.length = 1 <;>
    simp [checkBatch, hW, hOne]

/- The batch loop raises BatchNorm's error at the first one-row batch. -/
omit [Div α] [NatCast α] [OfScientific α] in
theorem foldlM_trainBatch_eq_error
    (net : Network α τ β)
    {w : Nat}
    (hW : net.batchNormWidth = some w)
    (lr : α)
    (batches : List (List β)) :
    ∀ acc, (∃ b ∈ batches, b.length = 1) →
      batches.foldlM (net.trainBatch lr) acc = .error (batchNormError w) := by
  induction batches with
  | nil => simp
  | cons b rest ih =>
      rintro acc ⟨c, hc, hLen⟩
      by_cases hOne : b.length = 1
      · simp [trainBatch, checkBatch, hW, hOne, bind, Except.bind]
      · have hRest : ∃ c ∈ rest, c.length = 1 :=
          ⟨c, (List.mem_cons.1 hc).resolve_left (by rintro rfl; exact hOne hLen), hLen⟩
        simp [trainBatch, checkBatch, hW, hOne, bind, Except.bind, pure,
          Except.pure, ih _ hRest]

/-
  A batch loop whose batches all pass the check succeeds,
  and ends with the tensors it started from when no step
  changes them.
-/
omit [Div α] [NatCast α] [OfScientific α] in
theorem foldlM_trainBatch_ok
    (net : Network α τ β)
    (lr : α)
    (batches : List (List β)) :
    ∀ acc, (∀ b ∈ batches, net.checkBatch b = .ok ()) →
      ∃ r, batches.foldlM (net.trainBatch lr) acc = .ok r ∧
        ((∀ s b, (net.trainStep lr s b).1 = s) → r.1 = acc.1) := by
  induction batches with
  | nil => exact fun acc _ => ⟨acc, rfl, fun _ => rfl⟩
  | cons b rest ih =>
      intro acc hCheck
      let step := net.trainStep lr acc.1 b
      have hStep : net.trainBatch lr acc b = .ok (step.1, acc.2 + step.2) := by
        simp [trainBatch, hCheck b (List.mem_cons_self b rest), bind,
          Except.bind, pure, Except.pure, step]
      obtain ⟨r, hr, hKeep⟩ :=
        ih (step.1, acc.2 + step.2) fun c hc => hCheck c (List.mem_cons_of_mem b hc)
      exact ⟨r, by simp [List.foldlM_cons, hStep, bind, Except.bind, hr],
        fun hFrame => (hKeep hFrame).trans (hFrame acc.1 b)⟩

theorem trainEpoch_eq_error
    (net : Network α τ β)
    {w : Nat}
    (hW : net.batchNormWidth = some w)
    (loader : DataLoader β)
    {draw : List Nat}
    (hOne : ∃ b ∈ loader.iter draw, b.length = 1)
    (lr : α)
    (store : Storage τ) :
    net.trainEpoch loader draw lr store = .error (batchNormError w) := by
  simp [trainEpoch, foldlM_trainBatch_eq_error net hW lr _ _ hOne, bind,
    Except.bind]

theorem trainEpoch_ok
    (net : Network α τ β)
    (loader : DataLoader β)
    {draw : List Nat}
    (hCheck : ∀ b ∈ loader.iter draw, net.checkBatch b = .ok ())
    (hLen : 0 < loader.len)
    (lr : α)
    (store : Storage τ) :
    ∃ r, net.trainEpoch loader draw lr store = .ok r ∧
      ((∀ s b, (net.trainStep lr s b).1 = s) → r.1 = store) := by
  obtain ⟨r, hr, hKeep⟩ := foldlM_trainBatch_ok net lr _ (store, 0.0) hCheck
  exact ⟨(r.1, r.2 / (loader.len : α)), by
    simp [trainEpoch, hr, averageLoss, Nat.pos_iff_ne_zero.1 hLen, bind,
      Except.bind, pure, Except.pure], hKeep⟩

/- Validation raises only on an empty loader. -/
theorem validateEpoch_ok
    (net : Network α τ β)
    (loader : DataLoader β)
    (hLen : 0 < loader.len)
    (store : Storage τ) :
    ∃ v, net.validateEpoch loader store = .ok v := by
  simp [validateEpoch, averageLoss, Nat.pos_iff_ne_zero.1 hLen]

end Network

end Nestra

------------------------------------------------------------
-- The Split of prepare_data
------------------------------------------------------------

namespace Nestra

theorem sliceIndex_natCast
    {k n : Nat}
    (hLe : k ≤ n) :
    sliceIndex n (k : Int) = k := by
  simp [sliceIndex, hLe]

theorem sliceIndex_le
    (n : Nat)
    (k : Int) :
    sliceIndex n k ≤ n := by
  unfold sliceIndex
  split <;> omega

/- `int(n * (1 - 0.2))` in exact arithmetic. -/
theorem pyInt_mul_one_sub_two_tenths
    (n : Nat) :
    pyInt ((n : ℚ) * (1 - 0.2)) = ((n * 4 / 5 : Nat) : Int) := by
  have hEq : (n : ℚ) * (1 - 0.2) = ((n * 4 : Nat) : ℚ) / ((5 : Nat) : ℚ) := by
    push_cast
    norm_num
    ring
  rw [pyInt, hEq, if_pos (by positivity), Rat.floor_natCast_div_natCast]
  omega

/-
  For a draw of indices in range, `prepare_data` cuts the
  permuted rows at `int(len * (1 - val_split))` and pairs
  each feature row with its label.
-/
theorem prepareData_eq
    {κ ρ ε : Type}
    [LinearOrderedRing κ]
    [FloorRing κ]
    (features : List ρ)
    (labels : List ε)
    (valSplit : κ)
    {batchSize : Nat}
    (hPos : 0 < batchSize)
    {perm : List Nat}
    (hFeat : ∀ i ∈ perm, i < features.length)
    (hLab : ∀ i ∈ perm, i < labels.length)
    (hTrain : 0 < sliceIndex perm.length (pyInt ((perm.length : κ) * (1 - valSplit)))) :
    let xs := perm.filterMap fun i => features[i]?
    let ys := perm.filterMap fun i => labels[i]?
    let k := pyInt ((perm.length : κ) * (1 - valSplit))
    prepareData features labels valSplit batchSize perm =
      .ok (⟨(sliceTo xs k).zip (sliceTo ys k), batchSize, true, hPos⟩,
        ⟨(sliceFrom xs k).zip (sliceFrom ys k), batchSize, false, hPos⟩) := by
  intro xs ys k
  have hxs : xs.length = perm.length := length_filterMap_getElem? features hFeat
  have hys : ys.length = perm.length := length_filterMap_getElem? labels hLab
  simp [prepareData, gather_of_lt features hFeat, gather_of_lt labels hLab,
    tensorDataset, sliceTo, sliceFrom, DataLoader.new, hPos, hxs, hys, sliceIndex_le,
    hTrain.ne', bind, Except.bind, pure, Except.pure]

/-
  A draw that leaves the training part empty makes the
  training loader's RandomSampler raise.
-/
theorem prepareData_eq_error
    {κ ρ ε : Type}
    [LinearOrderedRing κ]
    [FloorRing κ]
    (features : List ρ)
    (labels : List ε)
    (valSplit : κ)
    (batchSize : Nat)
    {perm : List Nat}
    (hFeat : ∀ i ∈ perm, i < features.length)
    (hLab : ∀ i ∈ perm, i < labels.length)
    (hEmpty : sliceIndex perm.length (pyInt ((perm.length : κ) * (1 - valSplit))) = 0) :
    prepareData features labels valSplit batchSize perm =
      .error "num_samples should be a positive integer value, but got num_samples=0" := by
  have hxs := length_filterMap_getElem? features hFeat
  have hys := length_filterMap_getElem? labels hLab
  simp [prepareData, gather_of_lt features hFeat, gather_of_lt labels hLab,
    tensorDataset, sliceTo, sliceFrom, DataLoader.new, hxs, hys, hEmpty, bind,
    Except.bind]
  rfl

/- `int(n * (1 - v))` for `0 < v < 1` is `⌊n (1 - v)⌋`, a cut within the table. -/
theorem sliceIndex_pyInt_split
    {κ : Type}
    [LinearOrderedField κ]
    [FloorRing κ]
    (n : Nat)
    {v : κ}
    (hv0 : 0 < v)
    (hv1 : v < 1) :
    sliceIndex n (pyInt ((n : κ) * (1 - v))) = ⌊(n : κ) * (1 - v)⌋₊ := by
  have hNonneg : 0 ≤ (n : κ) * (1 - v) := mul_nonneg (Nat.cast_nonneg n) (sub_nonneg.2 hv1.le)
  have hLe : ⌊(n : κ) * (1 - v)⌋₊ ≤ n :=
    Nat.floor_le_of_le (mul_le_of_le_one_right (Nat.cast_nonneg n) (sub_le_self 1 hv0.le))
  rw [pyInt, if_pos hNonneg, sliceIndex, if_pos (Int.floor_nonneg.2 hNonneg), Int.floor_toNat,
    Nat.min_eq_left hLe]

variable {ρ ε : Type}

/-
  For every table, every split fraction `0 < v < 1` and
  every permutation `π` drawn, with `m = ⌊n (1 - v)⌋`: when
  `m > 0`, the training loader holds the pairs
  `(X[π i], Y[π i])` for `i < m` and the validation loader
  those for `m ≤ i < n`, so between them every row once and
  with its own label; when `m = 0`, the training loader's
  RandomSampler raises.
-/
theorem prepareData_split
    {κ : Type}
    [LinearOrderedField κ]
    [FloorRing κ]
    (features : List ρ)
    (labels : List ε)
    (hLab : labels.length = features.length)
    {v : κ}
    (hv0 : 0 < v)
    (hv1 : v < 1)
    {batchSize : Nat}
    (hPos : 0 < batchSize)
    {perm : List Nat}
    (hPerm : perm.Perm (List.range features.length)) :
    let split : Except String (DataLoader (ρ × ε) × DataLoader (ρ × ε)) :=
      prepareData features labels v batchSize perm
    let m := ⌊(features.length : κ) * (1 - v)⌋₊
    let pair := fun i => (features.zip labels)[i]?
    (0 < m → ∃ trainLoader valLoader,
      split = .ok (trainLoader, valLoader) ∧
      trainLoader.dataset = (perm.take m).filterMap pair ∧
      valLoader.dataset = (perm.drop m).filterMap pair ∧
      trainLoader.dataset.length = m ∧
      (trainLoader.dataset ++ valLoader.dataset).Perm (features.zip labels)) ∧
    (m = 0 → split =
      .error "num_samples should be a positive integer value, but got num_samples=0") := by
  intro split m pair
  have hFeat : ∀ i ∈ perm, i < features.length := fun _ hi => lt_of_perm_range hPerm hi
  have hLabLt : ∀ i ∈ perm, i < labels.length := fun i hi => hLab ▸ hFeat i hi
  have hPair : ∀ i ∈ perm, i < (features.zip labels).length := fun i hi => by
    simpa [hLab] using hFeat i hi
  have hLen : perm.length = features.length := by rw [hPerm.length_eq, List.length_range]
  have hCut : sliceIndex perm.length (pyInt ((perm.length : κ) * (1 - v))) = m := by
    rw [hLen]
    exact sliceIndex_pyInt_split _ hv0 hv1
  refine ⟨fun hm => ?_, fun hm =>
    prepareData_eq_error features labels v batchSize hFeat hLabLt (hCut.trans hm)⟩
  have hPrep := prepareData_eq features labels v hPos hFeat hLabLt (hCut ▸ hm)
  have hxs := length_filterMap_getElem? features hFeat
  have hys := length_filterMap_getElem? labels hLabLt
  have hTrain : (perm.take m).filterMap pair =
      (sliceTo (perm.filterMap fun i => features[i]?) (pyInt ((perm.length : κ) * (1 - v)))).zip
        (sliceTo (perm.filterMap fun i => labels[i]?) (pyInt ((perm.length : κ) * (1 - v)))) := by
    rw [sliceTo, sliceTo, hxs, hys, hCut, take_filterMap_getElem? features hFeat,
      take_filterMap_getElem? labels hLabLt, zip_filterMap_getElem? features labels
        (fun i hi => hFeat i (List.mem_of_mem_take hi))
        (fun i hi => hLabLt i (List.mem_of_mem_take hi))]
  have hVal : (perm.drop m).filterMap pair =
      (sliceFrom (perm.filterMap fun i => features[i]?) (pyInt ((perm.length : κ) * (1 - v)))).zip
        (sliceFrom (perm.filterMap fun i => labels[i]?) (pyInt ((perm.length : κ) * (1 - v)))) := by
    rw [sliceFrom, sliceFrom, hxs, hys, hCut, drop_filterMap_getElem? features hFeat,
      drop_filterMap_getElem? labels hLabLt, zip_filterMap_getElem? features labels
        (fun i hi => hFeat i (List.mem_of_mem_drop hi))
        (fun i hi => hLabLt i (List.mem_of_mem_drop hi))]
  refine ⟨_, _, hPrep, hTrain.symm, hVal.symm, ?_, ?_⟩
  · have hm' : m ≤ perm.length := hCut ▸ sliceIndex_le _ _
    dsimp only
    rw [← hTrain, length_filterMap_getElem? (features.zip labels)
      (fun i hi => hPair i (List.mem_of_mem_take hi)), List.length_take, Nat.min_eq_left hm']
  · have hRange : (List.range features.length).filterMap pair = features.zip labels := by
      simpa [hLab] using filterMap_getElem?_range (features.zip labels)
    dsimp only
    rw [← hTrain, ← hVal, ← List.filterMap_append, List.take_append_drop, ← hRange]
    exact hPerm.filterMap pair

theorem prepareData_split_on_five_rows :
    let features : List Nat := [10, 20, 30, 40, 50]
    let labels : List Nat := [1, 2, 3, 4, 5]
    labels.length = features.length ∧ (0 : ℚ) < 0.2 ∧ (0.2 : ℚ) < 1 ∧ 0 < 32 ∧
      [3, 0, 4, 1, 2].Perm (List.range features.length) ∧
      let split : Except String (DataLoader (Nat × Nat) × DataLoader (Nat × Nat)) :=
        prepareData features labels (0.2 : ℚ) 32 [3, 0, 4, 1, 2]
      let m := ⌊(features.length : ℚ) * (1 - 0.2)⌋₊
      let pair := fun i => (features.zip labels)[i]?
      (0 < m → ∃ trainLoader valLoader,
        split = .ok (trainLoader, valLoader) ∧
        trainLoader.dataset = ([3, 0, 4, 1, 2].take m).filterMap pair ∧
        valLoader.dataset = ([3, 0, 4, 1, 2].drop m).filterMap pair ∧
        trainLoader.dataset.length = m ∧
        (trainLoader.dataset ++ valLoader.dataset).Perm (features.zip labels)) ∧
      (m = 0 → split =
        .error "num_samples should be a positive integer value, but got num_samples=0") :=
  ⟨rfl, by norm_num, by norm_num, by decide, by decide,
    prepareData_split [10, 20, 30, 40, 50] [1, 2, 3, 4, 5] rfl (show (0 : ℚ) < 0.2 by norm_num) (show (0.2 : ℚ) < 1 by norm_num)
      (show 0 < 32 by decide) (show [3, 0, 4, 1, 2].Perm (List.range 5) by decide)⟩

/-
  A one-row table leaves `⌊1 · (1 - 0.2)⌋ = 0` rows for
  training, and `prepare_data` raises instead of returning
  the split.
-/
theorem prepareData_raises_on_one_row :
    prepareData [(7 : Nat)] [(1 : Nat)] (0.2 : ℚ) 32 [0] =
      .error "num_samples should be a positive integer value, but got num_samples=0" := by
  have hEmpty : sliceIndex [0].length (pyInt (([0].length : ℚ) * (1 - 0.2))) = 0 := by
    rw [sliceIndex_pyInt_split _ (by norm_num) (by norm_num), Nat.floor_eq_zero]
    norm_num
  exact prepareData_eq_error _ _ _ _ (by decide) (by decide) hEmpty

/-
  With the entry points' `val_split = 0.2` and batch size 32,
  the training loader holds `n * 4 / 5` of the `n` rows and
  shuffles; the validation loader holds the rest in order.
-/
theorem prepareData_entry
    (features : List ρ)
    (labels : List ε)
    {perm : List Nat}
    (hLab : labels.length = features.length)
    (hPerm : perm.Perm (List.range features.length))
    (hRows : 2 ≤ features.length) :
    ∃ trainLoader valLoader,
      prepareData features labels (0.2 : ℚ) 32 perm = .ok (trainLoader, valLoader) ∧
      trainLoader.dataset.length = features.length * 4 / 5 ∧
      trainLoader.shuffle = true ∧ trainLoader.batchSize = 32 ∧
      valLoader.dataset.length = features.length - features.length * 4 / 5 ∧
      valLoader.shuffle = false ∧ valLoader.batchSize = 32 := by
  have hLt : ∀ i ∈ perm, i < features.length := fun _ hi => lt_of_perm_range hPerm hi
  have hLen : perm.length = features.length := by
    rw [hPerm.length_eq, List.length_range]
  have hLe : features.length * 4 / 5 ≤ features.length := by omega
  have hCut : sliceIndex features.length ((features.length * 4 / 5 : Nat) : Int) =
      features.length * 4 / 5 := sliceIndex_natCast hLe
  refine ⟨_, _, prepareData_eq features labels (0.2 : ℚ) (by decide) hLt
    (fun i hi => hLab ▸ hLt i hi)
    (by rw [hLen, pyInt_mul_one_sub_two_tenths, hCut]; omega), ?_⟩
  simp only [List.length_zip, sliceTo, sliceFrom, List.length_take, List.length_drop,
    length_filterMap_getElem? features hLt, length_filterMap_getElem? labels
      (fun i hi => hLab ▸ hLt i hi), hLen, pyInt_mul_one_sub_two_tenths, hCut]
  simp [hLe]

end Nestra

------------------------------------------------------------
-- Batch Shapes of the Entry Points
------------------------------------------------------------

namespace Nestra

variable {α τ ρ ε : Type}
variable [Add α] [Div α] [NatCast α] [OfScientific α]

/-
  For every admitted table (at least 100 rows) both loaders
  have batches, so neither average divides by zero and
  validation always succeeds. For every draw, a training
  epoch of a network with BatchNorm1d raises BatchNorm's
  error exactly when the training split leaves a one-row
  last batch, and succeeds otherwise.
-/
theorem prepareData_entry_epochs
    (features : List ρ)
    (labels : List ε)
    {perm : List Nat}
    (hLab : labels.length = features.length)
    (hPerm : perm.Perm (List.range features.length))
    (hAdmitted : 100 ≤ features.length) :
    ∃ trainLoader valLoader,
      prepareData features labels (0.2 : ℚ) 32 perm = .ok (trainLoader, valLoader) ∧
      trainLoader.dataset.length = features.length * 4 / 5 ∧
      0 < trainLoader.len ∧ 0 < valLoader.len ∧
      (∀ draw, draw.Perm (List.range trainLoader.dataset.length) →
        (trainLoader.iter draw).map List.length =
          batchSizes 32 (features.length * 4 / 5)) ∧
      (∀ (net : Network α τ (ρ × ε)) store, ∃ v, net.validateEpoch valLoader store = .ok v) ∧
      ∀ (net : Network α τ (ρ × ε)) (w : Nat), net.batchNormWidth = some w →
        ∀ draw, draw.Perm (List.range trainLoader.dataset.length) → ∀ lr store,
          (features.length * 4 / 5 % 32 = 1 →
            net.trainEpoch trainLoader draw lr store = .error (batchNormError w)) ∧
          (features.length * 4 / 5 % 32 ≠ 1 →
            ∃ r, net.trainEpoch trainLoader draw lr store = .ok r) := by
  obtain ⟨trainLoader, valLoader, hPrep, hTrainLen, -, hTrainBatch, hValLen, -, -⟩ :=
    prepareData_entry features labels hLab hPerm (by omega)
  have hTrainPos : 0 < trainLoader.len := trainLoader.len_pos_iff.2 (by omega)
  have hValPos : 0 < valLoader.len := valLoader.len_pos_iff.2 (by omega)
  have hSizes : ∀ draw, draw.Perm (List.range trainLoader.dataset.length) →
      (trainLoader.iter draw).map List.length =
        batchSizes 32 (features.length * 4 / 5) := fun draw hDraw => by
    rw [trainLoader.map_length_iter fun _ => hDraw, hTrainBatch, hTrainLen]
  refine ⟨trainLoader, valLoader, hPrep, hTrainLen, hTrainPos, hValPos, hSizes,
    fun net store => net.validateEpoch_ok valLoader hValPos store, ?_⟩
  intro net w hW draw hDraw lr store
  have hOneIff : (∃ b ∈ trainLoader.iter draw, b.length = 1) ↔
      features.length * 4 / 5 % 32 = 1 := by
    rw [← one_mem_batchSizes_iff (by decide : 1 < 32), ← hSizes draw hDraw,
      List.mem_map]
  refine ⟨fun hOne => net.trainEpoch_eq_error hW trainLoader (hOneIff.2 hOne) lr store,
    fun hNot => (net.trainEpoch_ok trainLoader (fun b hb => ?_) hTrainPos lr store).imp
      fun _ h => h.1⟩
  exact (net.checkBatch_eq_ok_iff b).2 (Or.inr fun hOne => hNot (hOneIff.1 ⟨b, hb, hOne⟩))

/-
  The smallest admitted size with a one-row training batch:
  of 122 rows, 97 train, in batches of 32, 32, 32 and 1, so
  `train` with the algorithm selector's settings raises in
  its first epoch, whatever the draws and the network's
  BatchNorm1d width.
-/
theorem train_raises_on_one_row_batch
    (row : Fin 122 → ρ)
    (label : Fin 122 → ε)
    {perm : List Nat}
    (hPerm : perm.Perm (List.range 122))
    {draws : Nat → List Nat}
    (hDraws : ∀ i, (draws i).Perm (List.range 97))
    (w : Nat)
    (trainStep : ℚ → Storage τ → List (ρ × ε) → Storage τ × ℚ)
    (evalLoss : Storage τ → List (ρ × ε) → ℚ)
    (model : Module)
    (store : Storage τ) :
    ∃ trainLoader valLoader,
      prepareData (List.ofFn row) (List.ofFn label) (0.2 : ℚ) 32 perm =
        .ok (trainLoader, valLoader) ∧
      (trainLoader.iter (draws 0)).map List.length = [32, 32, 32, 1] ∧
      ProductionTrainer.train
        (EpochPasses.ofLoaders ⟨some w, trainStep, evalLoss⟩ trainLoader valLoader draws)
        (ProductionTrainer.init model store 0.001 32 150 20) = .error (batchNormError w) := by
  have hRows : (List.ofFn row).length = 122 := List.length_ofFn row
  obtain ⟨trainLoader, valLoader, hPrep, hTrainLen, -, -, hSizes, -, hTrain⟩ :=
    prepareData_entry_epochs (α := ℚ) (τ := τ) (List.ofFn row) (List.ofFn label)
      (by rw [List.length_ofFn, List.length_ofFn]) (hRows ▸ hPerm) (by omega)
  rw [hRows] at hTrainLen hSizes hTrain
  have hDraw : (draws 0).Perm (List.range trainLoader.dataset.length) :=
    hTrainLen ▸ hDraws 0
  refine ⟨trainLoader, valLoader, hPrep, hSizes _ hDraw,
    ProductionTrainer.train_eq_error _ (Nat.succ_pos 149) ?_⟩
  exact (hTrain ⟨some w, trainStep, evalLoss⟩ w rfl _ hDraw _ store).1 (by decide)

end Nestra

namespace Nestra

theorem train_raises_on_one_row_batch_at_identity_draws :
    (List.range 122).Perm (List.range 122) ∧
    (∀ i : Nat, ((fun _ => List.range 97) i).Perm (List.range 97)) ∧
    ∃ trainLoader valLoader,
      prepareData (List.ofFn fun _ : Fin 122 => ()) (List.ofFn fun _ : Fin 122 => ())
        (0.2 : ℚ) 32 (List.range 122) = .ok (trainLoader, valLoader) ∧
      (trainLoader.iter (List.range 97)).map List.length = [32, 32, 32, 1] ∧
      ProductionTrainer.train
        (EpochPasses.ofLoaders
          (⟨some 64, fun _ s _ => (s, 0), fun _ _ => 0⟩ : Network ℚ Int (Unit × Unit))
          trainLoader valLoader fun _ => List.range 97)
        (ProductionTrainer.init ⟨[], List.nodup_nil⟩ (fun _ => (0 : Int)) 0.001 32 150 20) =
          .error (batchNormError 64) :=
  ⟨List.Perm.refl _, fun _ => List.Perm.refl _,
    train_raises_on_one_row_batch (fun _ => ()) (fun _ => ()) (List.Perm.refl _)
      (fun _ => List.Perm.refl _) 64 _ _ _ _⟩

end Nestra
