import Mathlib

/-
  The explanation result of explain_model.py and the two
  functions that build it: the result-building part of
  `generate_shap_explanation`, from an attribution vector,
  and `generate_mock_explanation`, the fallback with its
  per-model linear heuristic.

  Both order the features by `sorted(input_data.keys())`,
  rank them with `sorted(..., key=..., reverse=True)`,
  which is stable, and cut the contributor lists at five.
  The primary path lists contributors in feature-name
  order; the fallback in ranking order.

  Main declarations:
    * `Record`, `featureNames`, `sortedDesc`
    * `Explanation`, `Explanation.WellFormed`
    * `importanceItems`, `contributors`
    * `generateMockExplanation`
    * `generateMockExplanation_wellFormed`, `shapResult_wellFormed`
    * `generateMockExplanation_top`
-/

------------------------------------------------------------
-- Records and Ranking
------------------------------------------------------------

namespace Nestra

/-
  A parsed `input_data` object of numbers: `json.loads`
  keeps one value per key.
-/
structure Record (α : Type) where
  entries : List (String × α)
  keys_nodup : (entries.map Prod.fst).Nodup

namespace Record

variable {α : Type}

def keys (x : Record α) : List String :=
  x.entries.map Prod.fst

/- `input_data[k]`, for a key `k` of the record. -/
def value
    [Zero α]
    (x : Record α)
    (k : String) : α :=
  (x.entries.lookup k).getD 0

end Record

/- `sorted(input_data.keys())`. -/
def featureNames
    {α : Type}
    (x : Record α) : List String :=
  x.keys.insertionSort (· ≤ ·)

/- `a` comes no later than `b` when ranking by `key`, largest first. -/
def KeyGe
    {α β : Type}
    [LinearOrder α]
    (key : β → α)
    (a b : β) : Prop :=
  key b ≤ key a

section KeyGe

variable {α β : Type} [LinearOrder α] (key : β → α)

instance : DecidableRel (KeyGe key) :=
  fun a b => inferInstanceAs (Decidable (key b ≤ key a))

instance : IsTotal β (KeyGe key) :=
  ⟨fun a b => le_total (key b) (key a)⟩

instance : IsTrans β (KeyGe key) :=
  ⟨fun _ _ _ hab hbc => le_trans hbc hab⟩

end KeyGe

/-
  `sorted(items, key=key, reverse=True)`: largest key
  first, equal keys in their original order.
-/
def sortedDesc
    {α β : Type}
    [LinearOrder α]
    (key : β → α)
    (items : List β) : List β :=
  items.insertionSort (KeyGe key)

end Nestra

------------------------------------------------------------
-- The Explanation Result
------------------------------------------------------------

namespace Nestra

/- `{"feature": ..., "importance": ..., "value": ...}`. -/
structure ImportanceEntry (α : Type) where
  feature : String
  importance : α
  value : α
  deriving DecidableEq

/- `{"feature": ..., "contribution": ...}`. -/
structure Contributor (α : Type) where
  feature : String
  contribution : α
  deriving DecidableEq

/-
  The dict both explanation functions return;
  `topContributors` is split into its two lists, and
  `isMock` records whether the "isMock": True entry is
  present.
-/
structure Explanation (α : Type) where
  featureNames : List String
  shapValues : List α
  expectedValue : α
  prediction : α
  featureImportance : List (ImportanceEntry α)
  positive : List (Contributor α)
  negative : List (Contributor α)
  isMock : Bool
  deriving DecidableEq

variable {α : Type} [LinearOrderedField α]

/-
  The `feature_importance` dict of the primary path: each
  feature with the magnitude of its attribution. Reading
  `shap_values_flat[i]` past its end raises IndexError.
-/
def importanceItems
    (names : List String)
    (flat : List α) : Except String (List (String × α)) :=
  names.enum.mapM fun p =>
    match flat[p.1]? with
    | some s => .ok (p.2, |s|)
    | none => .error "list index out of range"

/-
  `[{"feature": feature_names[i], "contribution": flat[i]}
  for i in range(len(flat)) if keep(flat[i])]`, before its
  cut at five.
-/
def contributors
    (names : List String)
    (flat : List α)
    (keep : α → Prop)
    [DecidablePred keep] : Except String (List (Contributor α)) :=
  (flat.enum.filter fun p => keep p.2).mapM fun p =>
    match names[p.1]? with
    | some n => .ok ⟨n, p.2⟩
    | none => .error "list index out of range"

/-
  The dict `generate_shap_explanation` returns, from the
  attribution vector `shap_values_flat`, the converted
  expected value, the prediction, the `feature_importance`
  items and the two contributor lists.
-/
def shapResult
    (x : Record α)
    (flat : List α)
    (expected prediction : α)
    (importance : List (String × α))
    (positive negative : List (Contributor α)) : Explanation α :=
  { featureNames := featureNames x
    shapValues := flat
    expectedValue := expected
    prediction := prediction
    featureImportance :=
      (sortedDesc Prod.snd importance).map fun p => ⟨p.1, p.2, x.value p.1⟩
    positive := positive.take 5
    negative := negative.take 5
    isMock := false }

/- The per-feature contribution of the fallback heuristic. -/
def mockContribution
    (modelType : String)
    (val : α) : α :=
  if modelType = "waste_predictor" then (if val > 0 then val * 0.01 else 0.0)
  else if modelType = "time_estimator" then val * 0.05
  else val * 0.02

/- The fallback's `baseline`. -/
def mockBaseline
    (modelType : String) : α :=
  if modelType = "waste_predictor" then 15.0
  else if modelType = "time_estimator" then 30.0
  else 0.5

/- `generate_mock_explanation(model_type, input_data)`. -/
def generateMockExplanation
    (modelType : String)
    (x : Record α) : Explanation α :=
  let names := featureNames x
  let contributions := names.map fun n => (n, mockContribution modelType (x.value n))
  let sortedContribs := sortedDesc (fun p => |p.2|) contributions
  let baseline : α := mockBaseline modelType
  { featureNames := names
    shapValues := contributions.map Prod.snd
    expectedValue := baseline
    prediction := baseline + contributions.foldl (fun s p => s + p.2) 0
    featureImportance := sortedContribs.map fun p => ⟨p.1, |p.2|, x.value p.1⟩
    positive := ((sortedContribs.filter fun p => 0 < p.2).map fun p => ⟨p.1, p.2⟩).take 5
    negative := ((sortedContribs.filter fun p => p.2 < 0).map fun p => ⟨p.1, p.2⟩).take 5
    isMock := true }

/-
  The shape both paths promise for a record: the sorted
  keys, one attribution per feature, each feature ranked
  once by the magnitude of its attribution with the
  record's value, and at most five contributors of each
  sign, each with its own attribution.
-/
structure Explanation.WellFormed
    (r : Explanation α)
    (x : Record α) : Prop where
  featureNames_eq : r.featureNames = Nestra.featureNames x
  length_shapValues : r.shapValues.length = r.featureNames.length
  importance_perm : r.featureImportance.Perm
    (r.featureNames.zipWith (fun n s => ⟨n, |s|, x.value n⟩) r.shapValues)
  importance_sorted : (r.featureImportance.map (·.importance)).Sorted (· ≥ ·)
  positive_pos : ∀ c ∈ r.positive,
    0 < c.contribution ∧ (c.feature, c.contribution) ∈ r.featureNames.zip r.shapValues
  negative_neg : ∀ c ∈ r.negative,
    c.contribution < 0 ∧ (c.feature, c.contribution) ∈ r.featureNames.zip r.shapValues
  length_positive : r.positive.length ≤ 5
  length_negative : r.negative.length ≤ 5

end Nestra

------------------------------------------------------------
-- Names and Rankings
------------------------------------------------------------

namespace Nestra

theorem featureNames_perm
    {α : Type}
    (x : Record α) :
    (featureNames x).Perm x.keys :=
  List.perm_insertionSort _ _

theorem nodup_featureNames
    {α : Type}
    (x : Record α) :
    (featureNames x).Nodup :=
  (featureNames_perm x).nodup_iff.2 x.keys_nodup

/- Pairing distinct names with values gives each name one value. -/
theorem eq_of_mem_zip_of_nodup
    {β γ : Type}
    {a : β}
    {b c : γ} :
    ∀ {l : List β} {m : List γ}, l.Nodup → (a, b) ∈ l.zip m → (a, c) ∈ l.zip m → b = c
  | [], _, _, hb, _ => by simp at hb
  | _ :: _, [], _, hb, _ => by simp at hb
  | x :: l, y :: m, hNodup, hb, hc => by
      have hx : x ∉ l := (List.nodup_cons.1 hNodup).1
      simp only [List.zip_cons_cons, List.mem_cons, Prod.mk.injEq] at hb hc
      rcases hb with ⟨rfl, rfl⟩ | hb <;> rcases hc with ⟨hxc, rfl⟩ | hc
      · rfl
      · exact absurd (List.of_mem_zip hc).1 hx
      · exact absurd (hxc ▸ (List.of_mem_zip hb).1) hx
      · exact eq_of_mem_zip_of_nodup (List.nodup_cons.1 hNodup).2 hb hc

section Ranking

variable {α β : Type} [LinearOrder α] (key : β → α)

theorem perm_sortedDesc
    (items : List β) :
    (sortedDesc key items).Perm items :=
  List.perm_insertionSort _ _

@[simp] theorem mem_sortedDesc
    {items : List β}
    {a : β} :
    a ∈ sortedDesc key items ↔ a ∈ items :=
  List.mem_insertionSort _

theorem sorted_sortedDesc
    (items : List β) :
    (sortedDesc key items).Sorted (KeyGe key) :=
  List.sorted_insertionSort _ _

/- Ranked keys are non-increasing. -/
theorem sorted_map_sortedDesc
    (items : List β) :
    ((sortedDesc key items).map key).Sorted (· ≥ ·) :=
  (sorted_sortedDesc key items).map key fun _ _ h => h

/- Ranking commutes with a map that keeps the key. -/
theorem map_sortedDesc
    {γ : Type}
    (key' : γ → α)
    (f : β → γ)
    (hKey : ∀ a, key' (f a) = key a)
    (items : List β) :
    (sortedDesc key items).map f = sortedDesc key' (items.map f) :=
  List.map_insertionSort _ _ f items fun a _ b _ => by simp only [KeyGe, hKey]

end Ranking

end Nestra

------------------------------------------------------------
-- The Primary Path's Lists
------------------------------------------------------------

namespace Nestra

variable {α : Type} [LinearOrderedField α]

theorem mapM_enumFrom_importance
    (flat : List α) :
    ∀ (names : List String) (k : Nat), k + names.length ≤ flat.length →
      (names.enumFrom k).mapM (fun p =>
        match flat[p.1]? with
        | some s => (.ok (p.2, |s|) : Except String (String × α))
        | none => .error "list index out of range") =
        .ok (names.zip ((flat.drop k).map abs))
  | [], _, _ => rfl
  | n :: rest, k, hLen => by
      have hk : k < flat.length := by simp at hLen; omega
      rw [List.enumFrom_cons, List.mapM_cons,
        mapM_enumFrom_importance flat rest (k + 1) (by simp at hLen ⊢; omega),
        List.drop_eq_getElem_cons hk]
      simp only [List.getElem?_eq_getElem hk]
      rfl

/- With an attribution per feature, each feature gets its magnitude. -/
theorem importanceItems_eq_ok
    {names : List String}
    {flat : List α}
    (hLen : names.length ≤ flat.length) :
    importanceItems names flat = .ok (names.zip (flat.map abs)) :=
  mapM_enumFrom_importance flat names 0 (by omega)

omit [LinearOrderedField α] in
theorem mapM_filter_enumFrom_contributors
    (names : List String)
    (keep : α → Prop)
    [DecidablePred keep] :
    ∀ (flat : List α) (k : Nat), k + flat.length ≤ names.length →
      ((flat.enumFrom k).filter fun p => keep p.2).mapM (fun p =>
        match names[p.1]? with
        | some n => (.ok ⟨n, p.2⟩ : Except String (Contributor α))
        | none => .error "list index out of range") =
        .ok ((((names.drop k).zip flat).filter fun p => keep p.2).map
          fun p => ⟨p.1, p.2⟩)
  | [], _, _ => by simp only [List.enumFrom_nil, List.filter_nil, List.zip_nil_right]; rfl
  | s :: rest, k, hLen => by
      have hk : k < names.length := by simp at hLen; omega
      have ih := mapM_filter_enumFrom_contributors names keep rest (k + 1)
        (by simp at hLen ⊢; omega)
      rw [List.enumFrom_cons, List.drop_eq_getElem_cons hk, List.zip_cons_cons]
      by_cases hs : keep s
      · simp only [List.filter_cons, hs, decide_True, if_true, List.mapM_cons, ih,
          List.getElem?_eq_getElem hk, List.map_cons]
        rfl
      · simp only [List.filter_cons, hs, decide_False, Bool.false_eq_true, if_false, ih]

omit [LinearOrderedField α] in
/-
  With at most one attribution per feature, the contributors
  of a sign are the features of that sign, in name order.
-/
theorem contributors_eq_ok
    {names : List String}
    {flat : List α}
    (hLen : flat.length ≤ names.length)
    (keep : α → Prop)
    [DecidablePred keep] :
    contributors names flat keep =
      .ok (((names.zip flat).filter fun p => keep p.2).map fun p => ⟨p.1, p.2⟩) :=
  mapM_filter_enumFrom_contributors names keep flat 0 (by omega)

end Nestra

------------------------------------------------------------
-- Well-Formed Results
------------------------------------------------------------

namespace Nestra

variable {α : Type} [LinearOrderedField α]

omit [LinearOrderedField α] in
theorem zip_map_self
    {β γ : Type}
    (l : List β)
    (f : β → γ) :
    l.zip (l.map f) = l.map fun a => (a, f a) := by
  simpa using List.zip_map' id f l

omit [LinearOrderedField α] in
/- A kept contributor carries one entry's name and attribution. -/
theorem mem_take_map_filter
    {entries : List (String × α)}
    (keep : α → Prop)
    [DecidablePred keep]
    {k : Nat}
    {c : Contributor α}
    (hc : c ∈ ((entries.filter fun p => keep p.2).map
      fun p => (⟨p.1, p.2⟩ : Contributor α)).take k) :
    keep c.contribution ∧ (c.feature, c.contribution) ∈ entries := by
  obtain ⟨p, hp, rfl⟩ := List.mem_map.1 (List.mem_of_mem_take hc)
  have hFilter := List.mem_filter.1 hp
  exact ⟨of_decide_eq_true hFilter.2, hFilter.1⟩

/-
  Ranking named attributions by magnitude lists each one
  once, largest first.
-/
theorem ranked_perm_sorted
    (x : Record α)
    {entries : List (String × α)}
    {names : List String}
    {vals : List α}
    (hFst : entries.map Prod.fst = names)
    (hSnd : entries.map Prod.snd = vals) :
    let ranked := (sortedDesc (fun p => |p.2|) entries).map
      fun p => (⟨p.1, |p.2|, x.value p.1⟩ : ImportanceEntry α)
    ranked.Perm (names.zipWith (fun n s => ⟨n, |s|, x.value n⟩) vals) ∧
      (ranked.map (·.importance)).Sorted (· ≥ ·) := by
  refine ⟨?_, ?_⟩
  · rw [← hFst, ← hSnd, List.zipWith_map, List.zipWith_same]
    exact (perm_sortedDesc _ entries).map _
  · rw [List.map_map]
    exact sorted_map_sortedDesc (fun p => |p.2|) entries

/- No feature is both a positive and a negative contributor. -/
theorem Explanation.WellFormed.disjoint
    {r : Explanation α}
    {x : Record α}
    (hWF : r.WellFormed x) :
    ∀ c ∈ r.positive, ∀ d ∈ r.negative, c.feature ≠ d.feature := by
  intro c hc d hd hEq
  have hNodup : r.featureNames.Nodup := hWF.featureNames_eq ▸ nodup_featureNames x
  obtain ⟨hPos, hcMem⟩ := hWF.positive_pos c hc
  obtain ⟨hNeg, hdMem⟩ := hWF.negative_neg d hd
  rw [hEq] at hcMem
  have hSame := eq_of_mem_zip_of_nodup hNodup hcMem hdMem
  exact absurd hPos (not_lt.2 (hSame ▸ hNeg.le))

/- The fallback's result is well formed for every record. -/
theorem generateMockExplanation_wellFormed
    (modelType : String)
    (x : Record α) :
    (generateMockExplanation modelType x).WellFormed x := by
  let entries := (featureNames x).map fun n => (n, mockContribution modelType (x.value n))
  have hFst : entries.map Prod.fst = featureNames x := by simp [entries, Function.comp_def]
  have hZip : (featureNames x).zip (entries.map Prod.snd) = entries := by
    simp [entries, zip_map_self]
  obtain ⟨hPerm, hSorted⟩ := ranked_perm_sorted x hFst rfl
  have hMem : ∀ (keep : α → Prop) [DecidablePred keep] {c : Contributor α},
      c ∈ (((sortedDesc (fun p => |p.2|) entries).filter fun p => keep p.2).map
        fun p => (⟨p.1, p.2⟩ : Contributor α)).take 5 →
      keep c.contribution ∧
        (c.feature, c.contribution) ∈ (featureNames x).zip (entries.map Prod.snd) := by
    intro keep _ c hc
    obtain ⟨hKeep, hIn⟩ := mem_take_map_filter keep hc
    exact ⟨hKeep, hZip.symm ▸ (mem_sortedDesc _).1 hIn⟩
  exact
    { featureNames_eq := rfl
      length_shapValues := by simp [generateMockExplanation]
      importance_perm := hPerm
      importance_sorted := hSorted
      positive_pos := fun _ hc => hMem (fun s => 0 < s) hc
      negative_neg := fun _ hc => hMem (fun s => s < 0) hc
      length_positive := List.length_take_le _ _
      length_negative := List.length_take_le _ _ }

/-
  The primary path's result is well formed whenever the
  attribution vector has one entry per feature.
-/
theorem shapResult_wellFormed
    (x : Record α)
    {flat : List α}
    (hLen : flat.length = (featureNames x).length)
    (expected prediction : α)
    {importance : List (String × α)}
    {positive negative : List (Contributor α)}
    (hImp : importanceItems (featureNames x) flat = .ok importance)
    (hPos : contributors (featureNames x) flat (0 < ·) = .ok positive)
    (hNeg : contributors (featureNames x) flat (· < 0) = .ok negative) :
    (shapResult x flat expected prediction importance positive negative).WellFormed x := by
  let entries := (featureNames x).zip flat
  have hFst : entries.map Prod.fst = featureNames x := List.map_fst_zip _ _ hLen.ge
  have hSnd : entries.map Prod.snd = flat := List.map_snd_zip _ _ hLen.le
  have hImportance : importance = entries.map fun p => (p.1, |p.2|) := by
    rw [importanceItems_eq_ok hLen.ge] at hImp
    rw [← Except.ok.inj hImp, List.zip_map_right]
    rfl
  have hRanked : (sortedDesc Prod.snd importance).map
      (fun p => (⟨p.1, p.2, x.value p.1⟩ : ImportanceEntry α)) =
      (sortedDesc (fun p => |p.2|) entries).map
        fun p => (⟨p.1, |p.2|, x.value p.1⟩ : ImportanceEntry α) := by
    rw [hImportance, ← map_sortedDesc (fun p : String × α => |p.2|) Prod.snd
      (fun p : String × α => (p.1, |p.2|)) (fun _ => rfl), List.map_map]
    rfl
  obtain ⟨hPerm, hSorted⟩ := ranked_perm_sorted x hFst hSnd
  rw [contributors_eq_ok hLen.le] at hPos hNeg
  subst hImportance
  cases hPos
  cases hNeg
  exact
    { featureNames_eq := rfl
      length_shapValues := hLen
      importance_perm := by simpa only [shapResult, hRanked] using hPerm
      importance_sorted := by simpa only [shapResult, hRanked] using hSorted
      positive_pos := fun _ hc => mem_take_map_filter (fun s => 0 < s) hc
      negative_neg := fun _ hc => mem_take_map_filter (fun s => s < 0) hc
      length_positive := List.length_take_le _ _
      length_negative := List.length_take_le _ _ }

end Nestra

------------------------------------------------------------
-- The Fallback's Top Contributors
------------------------------------------------------------

namespace Nestra

variable {α : Type} [LinearOrderedField α]

omit [LinearOrderedField α] in
/- What a sorted list keeps in its first `k` entries outranks the rest. -/
theorem key_le_of_mem_take
    {β γ : Type}
    [LinearOrder γ]
    {key : β → γ}
    {l : List β}
    (hSorted : l.Sorted (KeyGe key))
    {k : Nat}
    {c p : β}
    (hc : c ∈ l.take k)
    (hp : p ∈ l)
    (hNot : p ∉ l.take k) :
    key p ≤ key c := by
  rw [← List.take_append_drop k l, List.mem_append] at hp
  exact hSorted.rel_of_mem_take_of_mem_drop hc (hp.resolve_left hNot)

/-
  The fallback's contributors of one sign: at most five,
  ranked by magnitude, and no feature of that sign left out
  has a larger magnitude than one kept.
-/
theorem mock_contributors_top
    (entries : List (String × α))
    (keep : α → Prop)
    [DecidablePred keep]
    {c : Contributor α}
    {p : String × α}
    (hc : c ∈ (((sortedDesc (fun p => |p.2|) entries).filter fun p => keep p.2).map
      fun p => (⟨p.1, p.2⟩ : Contributor α)).take 5)
    (hp : p ∈ entries)
    (hKeep : keep p.2)
    (hNot : (⟨p.1, p.2⟩ : Contributor α) ∉
      (((sortedDesc (fun p => |p.2|) entries).filter fun p => keep p.2).map
        fun p => (⟨p.1, p.2⟩ : Contributor α)).take 5) :
    |p.2| ≤ |c.contribution| := by
  let kept := (sortedDesc (fun p => |p.2|) entries).filter fun p => keep p.2
  have hSorted : kept.Sorted (KeyGe fun p => |p.2|) :=
    (sorted_sortedDesc _ entries).sublist (List.filter_sublist _)
  rw [← List.map_take] at hc hNot
  obtain ⟨q, hq, rfl⟩ := List.mem_map.1 hc
  have hpKept : p ∈ kept := List.mem_filter.2 ⟨(mem_sortedDesc _).2 hp, decide_eq_true hKeep⟩
  exact key_le_of_mem_take hSorted hq hpKept fun hIn => hNot (List.mem_map_of_mem _ hIn)

/- The fallback's kept contributions are in ranking order. -/
theorem mock_contributors_sorted
    (entries : List (String × α))
    (keep : α → Prop)
    [DecidablePred keep]
    {R : α → α → Prop}
    (hR : ∀ a b, keep a → keep b → |b| ≤ |a| → R a b) :
    (((((sortedDesc (fun p => |p.2|) entries).filter fun p => keep p.2).map
      fun p => (⟨p.1, p.2⟩ : Contributor α)).take 5).map (·.contribution)).Sorted R := by
  let kept := (sortedDesc (fun p => |p.2|) entries).filter fun p => keep p.2
  have hSorted : kept.Sorted (KeyGe fun p => |p.2|) :=
    (sorted_sortedDesc _ entries).sublist (List.filter_sublist _)
  have hKeep : ∀ {a}, a ∈ kept.take 5 → keep a.2 := fun ha =>
    of_decide_eq_true (List.mem_filter.1 (List.mem_of_mem_take ha)).2
  rw [← List.map_take, List.map_map]
  exact ((hSorted.sublist (List.take_sublist 5 kept)).imp_of_mem
    fun ha hb hab => hR _ _ (hKeep ha) (hKeep hb) hab).map _ fun _ _ h => h

/-
  On the fallback path the positive contributors are the
  features with the largest positive contributions, largest
  first, and the negative ones those with the most negative,
  most negative first; at most five of each.
-/
theorem generateMockExplanation_top
    (modelType : String)
    (x : Record α) :
    let r := generateMockExplanation modelType x
    (r.positive.map (·.contribution)).Sorted (· ≥ ·) ∧
    (r.negative.map (·.contribution)).Sorted (· ≤ ·) ∧
    (∀ c ∈ r.positive, ∀ p ∈ r.featureNames.zip r.shapValues, 0 < p.2 →
      (⟨p.1, p.2⟩ : Contributor α) ∉ r.positive → p.2 ≤ c.contribution) ∧
    (∀ c ∈ r.negative, ∀ p ∈ r.featureNames.zip r.shapValues, p.2 < 0 →
      (⟨p.1, p.2⟩ : Contributor α) ∉ r.negative → c.contribution ≤ p.2) := by
  intro r
  let entries := (featureNames x).map fun n => (n, mockContribution modelType (x.value n))
  have hZip : r.featureNames.zip r.shapValues = entries := by
    simp [r, generateMockExplanation, entries, zip_map_self]
  refine ⟨?_, ?_, ?_, ?_⟩
  · exact mock_contributors_sorted entries (fun s => 0 < s) fun a b ha hb hab => by
      rwa [abs_of_pos ha, abs_of_pos hb] at hab
  · exact mock_contributors_sorted entries (fun s => s < 0) fun a b ha hb hab => by
      rwa [abs_of_neg ha, abs_of_neg hb, neg_le_neg_iff] at hab
  · intro c hc p hp hPos hNot
    have hcPos := (mem_take_map_filter (fun s => 0 < s) hc).1
    have hAbs := mock_contributors_top entries (fun s => 0 < s) hc (hZip ▸ hp) hPos hNot
    rwa [abs_of_pos hPos, abs_of_pos hcPos] at hAbs
  · intro c hc p hp hNeg hNot
    have hcNeg := (mem_take_map_filter (fun s => s < 0) hc).1
    have hAbs := mock_contributors_top entries (fun s => s < 0) hc (hZip ▸ hp) hNeg hNot
    rwa [abs_of_neg hNeg, abs_of_neg hcNeg, neg_le_neg_iff] at hAbs

end Nestra
