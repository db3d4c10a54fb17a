import Mathlib.Data.List.Basic

/-
  Tensor storage and the state_dict of a module, as the
  trainer uses them (torch.nn.Module.state_dict,
  load_state_dict, and dict.copy in utils/trainer.py).

  `state_dict()` maps each parameter and buffer name to a
  detached tensor that shares storage with the live module:
  the mapping holds references, not values. `dict.copy()`
  copies the mapping and keeps the references. The in-place
  updates of `optimizer.step()` and of BatchNorm's running
  statistics write into that shared storage.

  Main declarations:
    * `Storage`, `Module`, `StateDict`
    * `Module.loadStateDict`
    * `Module.loadStateDict_stateDict_copy`
-/

------------------------------------------------------------
-- Storage
------------------------------------------------------------

namespace Nestra

/- Tensor values of type `τ`, one per storage location. -/
abbrev Storage (τ : Type) :=
  Nat → τ

namespace Storage

variable {τ : Type}

/- An in-place write of one tensor (Tensor.copy_). -/
def write
    (s : Storage τ)
    (loc : Nat)
    (v : τ) : Storage τ :=
  fun l => if l = loc then v else s l

/- Writing a location's own value back changes nothing. -/
@[simp] theorem write_self
    (s : Storage τ)
    (loc : Nat) :
    s.write loc (s loc) = s := by
  funext l
  by_cases hl : l = loc
  · subst hl
    simp [write]
  · simp [write, hl]

end Storage

end Nestra

------------------------------------------------------------
-- Modules and State Dicts
------------------------------------------------------------

namespace Nestra

/-
  A state_dict: each key names the storage location of one
  tensor, in the module's order.
-/
abbrev StateDict :=
  List (String × Nat)

/-
  A module's parameters and buffers, by state_dict key and
  storage location. Keys are distinct, as in every
  torch.nn.Module.
-/
structure Module where
  entries : List (String × Nat)
  keys_nodup : (entries.map Prod.fst).Nodup

/- `dict.copy()`: a new mapping holding the same tensors. -/
def StateDict.copy (sd : StateDict) : StateDict :=
  sd

namespace Module

variable {τ : Type}

/- `Module.state_dict()`: references into the live storage. -/
def stateDict (m : Module) : StateDict :=
  m.entries

/- The values the module's tensors hold in storage `s`. -/
def values
    (m : Module)
    (s : Storage τ) : List (String × τ) :=
  m.entries.map (fun e => (e.1, s e.2))

/-
  `load_state_dict(sd)`: each parameter and buffer copies,
  in place and in order, the tensor `sd` holds under its
  key.
-/
def loadStateDict
    (m : Module)
    (sd : StateDict)
    (s : Storage τ) : Storage τ :=
  m.entries.foldl
    (fun s e =>
      match sd.lookup e.1 with
      | some loc => s.write e.2 (s loc)
      | none => s)
    s

/- A key of a module is found at its own storage location. -/
theorem lookup_stateDict
    (m : Module)
    {e : String × Nat}
    (he : e ∈ m.entries) :
    m.stateDict.lookup e.1 = some e.2 := by
  obtain ⟨entries, hNodup⟩ := m
  simp only [stateDict] at he ⊢
  induction entries with
  | nil => simp at he
  | cons d entries ih =>
      simp only [List.map_cons, List.nodup_cons, List.mem_map] at hNodup
      rcases List.mem_cons.1 he with rfl | hMem
      · exact List.lookup_cons_self
      · have hNe : e.1 ≠ d.1 := by
          rintro hEq
          exact hNodup.1 ⟨e, hMem, hEq⟩
        have hBeq : (e.1 == d.1) = false := by simpa using hNe
        rw [List.lookup_cons, hBeq]
        exact ih hNodup.2 hMem

/-
  Loading a module's own state_dict, or a shallow copy of
  it, changes no tensor: every copy reads the storage it
  writes.
-/
theorem loadStateDict_stateDict_copy
    (m : Module)
    (s : Storage τ) :
    m.loadStateDict (StateDict.copy m.stateDict) s = s := by
  have hSteps : ∀ (es : List (String × Nat)) (s : Storage τ),
      (∀ e ∈ es, e ∈ m.entries) →
      es.foldl
        (fun s e =>
          match m.stateDict.lookup e.1 with
          | some loc => s.write e.2 (s loc)
          | none => s)
        s = s := by
    intro es
    induction es with
    | nil => intro s _; rfl
    | cons e es ih =>
        intro s hSub
        simp only [List.foldl_cons,
          lookup_stateDict m (hSub e (List.mem_cons_self e es)),
          Storage.write_self]
        exact ih s (fun e' he' => hSub e' (List.mem_cons_of_mem e he'))
  exact hSteps m.entries s (fun e he => he)

end Module

end Nestra
