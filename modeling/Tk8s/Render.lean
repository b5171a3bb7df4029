import Tk8s.Lib.Template

/-!
`render.py`: the plain files under `templates/`, with their variables put in.

* `template`: the text of a template with the variables of its caller; a missing or an unused
  variable is an error.
* `template_write`: a template written from runs and names renders with values for just these names.
* `template_eq_ok`: **a template renders exactly when** its text is filled by the variables and by
  no fewer of them, and what it renders to is that filling.
-/

namespace Tk8s.Render

open Template

/-- The values as `substitute` looks them up. -/
def values (vars : List (String × String)) (name : List Char) : Option (List Char) :=
  (vars.lookup (String.ofList name)).map String.toList

/-- What `template` raises: a `ValueError` that names the variables the text does not ask for, or
what `substitute` raises. -/
inductive Fault where
  | unused (file : String) (names : List String)
  | unfilled (fault : Template.Fault)
deriving DecidableEq, Repr

/-- `set(vars) - wanted`, sorted. -/
def unused (text : String) (vars : List (String × String)) : List String :=
  ((vars.map Prod.fst).filter fun key => key.toList ∉ names text.toList).mergeSort fun a b => a ≤ b

/-- `template`, on the text of the file. -/
def template (file text : String) (vars : List (String × String)) : Except Fault String :=
  if unused text vars ≠ [] then .error (.unused file (unused text vars))
  else
    match substitute (values vars) text.toList with
    | .ok out => .ok (String.ofList out)
    | .error fault => .error (.unfilled fault)

/-! ### What a template renders to -/

section

variable {file text out : String} {vars : List (String × String)}

lemma unused_eq_nil : unused text vars = [] ↔ ∀ v ∈ vars, v.1.toList ∈ names text.toList := by
  rw [unused, ← List.length_eq_zero_iff, List.length_mergeSort, List.length_eq_zero_iff,
    List.filter_eq_nil_iff]
  simp

lemma template_eq_ok_iff : template file text vars = .ok out ↔
    (∀ v ∈ vars, v.1.toList ∈ names text.toList) ∧
      Fills (values vars) text.toList out.toList := by
  rw [template, ← unused_eq_nil]
  by_cases hunused : unused text vars = []
  · rw [if_neg (by simp [hunused])]
    cases hsub : substitute (values vars) text.toList with
    | error fault =>
        simp only [reduceCtorEq, false_iff, not_and]
        intro _ hfills
        rw [substitute_eq_ok.mpr hfills] at hsub
        cases hsub
    | ok filled =>
        have hfills := substitute_eq_ok.mp hsub
        constructor
        · intro h
          rw [← Except.ok.inj h, String.toList_ofList]
          exact ⟨hunused, hfills⟩
        · rintro ⟨-, h⟩
          rw [hfills.unique h]
          exact congrArg Except.ok String.ofList_toList
  · rw [if_pos hunused]
    simp [hunused]

/-- The values without those of one name. -/
lemma values_filter (key : String) : values (vars.filter fun v => v.1 ≠ key) =
    Function.update (values vars) key.toList none := by
  funext name
  by_cases hname : name = key.toList
  · rw [hname, Function.update_self, values, String.ofList_toList]
    have hno : (vars.filter fun v => v.1 ≠ key).lookup key = none := by
      rw [List.lookup_eq_none_iff]
      intro v hv
      have hne : v.1 ≠ key := by simpa using (List.mem_filter.mp hv).2
      exact bne_iff_ne.mpr hne.symm
    rw [hno]
    rfl
  · have hne : String.ofList name ≠ key := by
      intro h
      exact hname (by rw [← h, String.toList_ofList])
    rw [Function.update_of_ne hname, values, values]
    congr 1
    induction vars with
    | nil => rfl
    | cons v vars ih =>
        by_cases hv : v.1 = key
        · rw [List.filter_cons_of_neg (by simp [hv]), ih]
          obtain ⟨k, x⟩ := v
          have hk : (String.ofList name == k) = false := by
            rw [beq_eq_false_iff_ne, show k = key from hv]
            exact hne
          rw [List.lookup_cons, hk]
        · obtain ⟨k, x⟩ := v
          rw [List.filter_cons_of_pos (by simpa using hv), List.lookup_cons, List.lookup_cons, ih]

/-- **A template renders exactly when** its text is filled by the variables, and not without any one
of them; what it renders to is that filling. -/
theorem template_eq_ok : template file text vars = .ok out ↔
    Fills (values vars) text.toList out.toList ∧ ∀ v ∈ vars,
      ¬ ∃ other, Fills (values (vars.filter fun w => w.1 ≠ v.1)) text.toList other := by
  rw [template_eq_ok_iff, and_comm]
  refine and_congr_right fun hfills => forall₂_congr fun v _ => ?_
  rw [values_filter, mem_names hfills]

/-- **A template that was written with these names renders.** -/
theorem template_write {chunks : List Chunk} (h : WellWritten chunks)
    (hholes : ∀ name, .hole name ∈ chunks → (vars.lookup name).isSome = true)
    (hvars : ∀ v ∈ vars, .hole v.1 ∈ chunks) :
    template file (String.ofList (write chunks)) vars = .ok (String.ofList
      (chunks.flatMap (Chunk.filled fun name => ((vars.lookup name).getD "").toList))) := by
  rw [template_eq_ok_iff, String.toList_ofList, String.toList_ofList]
  refine ⟨fun v hv => mem_names_write h (hvars v hv), fills_write h fun name hmem => ?_⟩
  rw [values, String.ofList_toList]
  obtain ⟨v, hv⟩ := Option.isSome_iff_exists.mp (hholes name hmem)
  rw [hv]
  rfl

end

end Tk8s.Render
