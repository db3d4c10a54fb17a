import Mathlib.Data.List.Infix

/-
  Python's `str.replace(old, new)` on code points, the
  operation both side-car paths are computed with
  (`output_path.replace('.onnx', '_metadata.json')` in
  utils/trainer.py and utils/data_loader.py).

  With a non-empty `old` the string is scanned from the
  left; a match at the scan position is replaced and
  skipped, any other character is kept. So every
  non-overlapping occurrence is replaced, not only the last
  one. For a pattern that cannot overlap itself, such as
  `.onnx`, an occurrence at the end is always replaced on
  its own.

  Main declarations:
    * `replaceAux`, `pyReplace`
    * `replaceAux_of_not_infix`, `length_lt_replaceAux`
    * `replaceAux_append_self`
    * `pyReplace_append_onnx`, `pyReplace_onnx_eq_self_iff`
-/

------------------------------------------------------------
-- The Scan
------------------------------------------------------------

namespace Nestra

/-
  The scan of `str.replace` with a non-empty `old`; `fuel`
  bounds the characters left to scan.
-/
def replaceAux
    (old new : List Char) : Nat → List Char → List Char
  | 0, s => s
  | _ + 1, [] => []
  | fuel + 1, c :: cs =>
      if old.isPrefixOf (c :: cs) then
        new ++ replaceAux old new fuel ((c :: cs).drop old.length)
      else
        c :: replaceAux old new fuel cs

/-
  `s.replace(old, new)`. An empty `old` matches before every
  character and at the end.
-/
def pyReplace
    (s old new : String) : String :=
  if old.data = [] then ⟨new.data ++ s.data.flatMap fun c => c :: new.data⟩
  else ⟨replaceAux old.data new.data s.data.length s.data⟩

example : pyReplace "a.onnx/b.onnx" ".onnx" "_metadata.json" =
    "a_metadata.json/b_metadata.json" := by decide

end Nestra

------------------------------------------------------------
-- Lemmas on the Scan
------------------------------------------------------------

namespace Nestra

variable {old new : List Char}

@[simp] theorem replaceAux_nil
    (fuel : Nat) :
    replaceAux old new fuel [] = [] := by
  cases fuel <;> rfl

theorem replaceAux_succ_cons
    (fuel : Nat)
    (c : Char)
    (cs : List Char) :
    replaceAux old new (fuel + 1) (c :: cs) =
      if old.isPrefixOf (c :: cs) then
        new ++ replaceAux old new fuel ((c :: cs).drop old.length)
      else
        c :: replaceAux old new fuel cs :=
  rfl

/- A string without an occurrence is left as it is. -/
theorem replaceAux_of_not_infix
    {s : List Char}
    (hOut : ¬ old <:+: s)
    (fuel : Nat) :
    replaceAux old new fuel s = s := by
  induction fuel generalizing s with
  | zero => rfl
  | succ fuel ih =>
      cases s with
      | nil => rfl
      | cons c cs =>
          have hNotPre : ¬ old <+: c :: cs := fun h => hOut h.isInfix
          simp only [replaceAux, List.isPrefixOf_iff_prefix, hNotPre, if_false,
            ih fun h => hOut (List.infix_cons h)]

/- Replacing by something at least as long never shortens. -/
theorem length_le_replaceAux
    (hLe : old.length ≤ new.length)
    (fuel : Nat)
    (s : List Char) :
    s.length ≤ (replaceAux old new fuel s).length := by
  induction fuel generalizing s with
  | zero => exact le_rfl
  | succ fuel ih =>
      cases s with
      | nil => exact le_rfl
      | cons c cs =>
          by_cases hPre : old <+: c :: cs
          · have hRest := ih ((c :: cs).drop old.length)
            have hOld := hPre.length_le
            simp only [replaceAux, List.isPrefixOf_iff_prefix, hPre, if_true,
              List.length_append]
            rw [List.length_drop] at hRest
            omega
          · have hRest := ih cs
            simp only [replaceAux, List.isPrefixOf_iff_prefix, hPre, if_false,
              List.length_cons]
            omega

/-
  With a longer replacement, a string with an occurrence gets
  longer: the scan replaces at least one match.
-/
theorem length_lt_replaceAux
    (hLt : old.length < new.length)
    (hNe : old ≠ [])
    (fuel : Nat) :
    ∀ s : List Char, old <:+: s → s.length ≤ fuel →
      s.length < (replaceAux old new fuel s).length := by
  induction fuel with
  | zero =>
      intro s hIn hFuel
      rw [List.eq_nil_of_length_eq_zero (Nat.le_zero.1 hFuel)] at hIn
      exact absurd (List.eq_nil_of_infix_nil hIn) hNe
  | succ fuel ih =>
      rintro (_ | ⟨c, cs⟩) hIn hFuel
      · exact absurd (List.eq_nil_of_infix_nil hIn) hNe
      · by_cases hPre : old <+: c :: cs
        · have hRest := length_le_replaceAux hLt.le fuel ((c :: cs).drop old.length)
          have hOld := hPre.length_le
          simp only [replaceAux, List.isPrefixOf_iff_prefix, hPre, if_true,
            List.length_append]
          rw [List.length_drop] at hRest
          omega
        · have hRest := ih cs ((List.infix_cons_iff.1 hIn).resolve_left hPre)
            (by simp at hFuel; omega)
          simp only [replaceAux, List.isPrefixOf_iff_prefix, hPre, if_false,
            List.length_cons]
          omega

/- Enough fuel scans the whole string; more changes nothing. -/
theorem replaceAux_fuel
    (hNe : old ≠ []) :
    ∀ (f₁ f₂ : Nat) (s : List Char), s.length ≤ f₁ → s.length ≤ f₂ →
      replaceAux old new f₁ s = replaceAux old new f₂ s := by
  have hOld : 0 < old.length := List.length_pos.2 hNe
  intro f₁
  induction f₁ with
  | zero =>
      intro f₂ s h₁ _
      rw [List.eq_nil_of_length_eq_zero (Nat.le_zero.1 h₁), replaceAux_nil, replaceAux_nil]
  | succ f₁ ih =>
      rintro (_ | f₂) (_ | ⟨c, cs⟩) h₁ h₂
      · rfl
      · simp at h₂
      · rfl
      · simp only [List.length_cons] at h₁ h₂
        simp only [replaceAux]
        split
        · rw [ih f₂ _ (by simp; omega) (by simp; omega)]
        · rw [ih f₂ cs (by omega) (by omega)]

/-
  A pattern no proper suffix of which starts it cannot
  overlap itself, so an occurrence at the end of a string is
  replaced on its own.
-/
theorem replaceAux_append_self
    (hNe : old ≠ [])
    (hBorder : ∀ u : List Char, u ≠ [] → u.length < old.length → ¬ old <+: u ++ old)
    (fuel : Nat) :
    ∀ s : List Char, (s ++ old).length ≤ fuel →
      replaceAux old new fuel (s ++ old) = replaceAux old new fuel s ++ new := by
  have hOld : 0 < old.length := List.length_pos.2 hNe
  induction fuel with
  | zero =>
      intro s hFuel
      rw [List.length_append] at hFuel
      omega
  | succ fuel ih =>
      rintro (_ | ⟨c, s⟩) hFuel
      · obtain ⟨o, os, rfl⟩ := List.exists_cons_of_ne_nil hNe
        simp [replaceAux]
      · simp only [List.length_append, List.length_cons] at hFuel
        by_cases hPre : old <+: c :: s
        · have hPreAll : old <+: c :: (s ++ old) := hPre.trans (List.prefix_append _ _)
          have hDrop : (c :: (s ++ old)).drop old.length = (c :: s).drop old.length ++ old :=
            List.drop_append_of_le_length hPre.length_le
          have hRest := ih ((c :: s).drop old.length) (by simp; omega)
          rw [List.cons_append, replaceAux_succ_cons, replaceAux_succ_cons]
          simp only [List.isPrefixOf_iff_prefix, hPre, hPreAll, if_true, hDrop, hRest,
            List.append_assoc]
        · have hStraddle : ¬ old <+: c :: (s ++ old) := by
            intro h
            rcases Nat.lt_or_ge (c :: s).length old.length with hShort | hLong
            · exact hBorder (c :: s) (List.cons_ne_nil c s) hShort h
            · exact hPre (List.prefix_of_prefix_length_le h (List.prefix_append _ _) hLong)
          rw [List.cons_append, replaceAux_succ_cons, replaceAux_succ_cons]
          simp only [List.isPrefixOf_iff_prefix, hPre, hStraddle, if_false,
            ih s (by simp; omega), List.cons_append]

end Nestra

------------------------------------------------------------
-- The Side-Car Pattern
------------------------------------------------------------

namespace Nestra

/- `.onnx` cannot overlap itself. -/
theorem onnx_no_border :
    ∀ u : List Char, u ≠ [] → u.length < ".onnx".data.length →
      ¬ ".onnx".data <+: u ++ ".onnx".data := by
  intro u _ hLen hPre
  have hPos : 0 < u.length := List.length_pos.2 ‹_›
  have hDrop : ".onnx".data.drop u.length = ".onnx".data.take (".onnx".data.length - u.length) := by
    nth_rewrite 1 [List.prefix_iff_eq_take.1 hPre]
    rw [List.drop_take, List.drop_left]
  have hCheck : ∀ k, k < 5 → 0 < k →
      ".onnx".data.drop k ≠ ".onnx".data.take (5 - k) := by decide
  exact hCheck u.length hLen hPos hDrop

/-
  The side-car path of `q ++ '.onnx'`: the replacements in
  `q`, then the replaced extension.
-/
theorem pyReplace_append_onnx
    (q : String) :
    pyReplace (q ++ ".onnx") ".onnx" "_metadata.json" =
      pyReplace q ".onnx" "_metadata.json" ++ "_metadata.json" := by
  have hNe : ".onnx".data ≠ [] := by decide
  simp only [pyReplace, hNe, if_false, String.data_append]
  rw [replaceAux_append_self hNe onnx_no_border _ _ le_rfl,
    replaceAux_fuel hNe _ q.data.length q.data (by simp) le_rfl]
  rfl

/- Replacing `.onnx` changes a string exactly when it occurs in it. -/
theorem pyReplace_onnx_eq_self_iff
    (q : String) :
    pyReplace q ".onnx" "_metadata.json" = q ↔ ¬ ".onnx".data <:+: q.data := by
  have hNe : ".onnx".data ≠ [] := by decide
  simp only [pyReplace, hNe, if_false, String.ext_iff]
  constructor
  · intro hSame hIn
    have hLonger := @length_lt_replaceAux ".onnx".data "_metadata.json".data (by decide) hNe
      q.data.length q.data hIn le_rfl
    rw [hSame] at hLonger
    exact lt_irrefl _ hLonger
  · exact fun hOut => replaceAux_of_not_infix hOut _

end Nestra
