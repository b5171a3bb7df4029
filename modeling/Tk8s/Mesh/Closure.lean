import Mathlib.Logic.Relation
import Tk8s.Mesh.Records

/-!
`members` and the closure of the recorded peers.

* `Reachable`: in any number of hops through `status.mesh`.
* `loadsOf`: the clusters a connect loads, in order; `rootsLoop_first`: **the first that cannot be
  loaded ends it**.
* `membersClosure_iff`: **`members` computes the closure exactly when two hops are one**, and when
  the first cluster that fails to load is a recorded peer.
-/

namespace Tk8s

variable {op : Operator} {f : Fleet}

/-- In any number of hops from the named clusters. -/
def Reachable (f : Fleet) (names : List String) (x : String) : Prop :=
  ∃ n ∈ names, Relation.ReflTransGen (fun a b => b ∈ f.peers a) n x

/-- The cluster can be loaded. -/
def Loads (op : Operator) (f : Fleet) (x : String) : Prop := ∃ c, op.clusterContext f x = .ok c

/-- The message of a recorded peer that cannot be loaded. -/
def peerNotFound (name peer : String) : String :=
  s!"cluster {peer} (a peer of {name}) not found; disconnect it first: "
    ++ s!"tkctl disconnect cluster {name} {peer}"

/-- What `members` promises: the closure, each cluster once and sorted, or a refusal that names a
recorded peer that cannot be loaded. -/
structure MembersClosure (op : Operator) (f : Fleet) (names : List String) : Prop where
  closed : (∀ x, Reachable f names x → Loads op f x) → ∃ l, members op f names = .ok l ∧
    l.Nodup ∧ l.Pairwise (· ≤ ·) ∧ ∀ x, x ∈ l ↔ Reachable f names x
  refused : (∃ name peer, Reachable f names name ∧ peer ∈ f.peers name ∧ ¬ Loads op f peer) →
    ∃ name peer, Reachable f names name ∧ peer ∈ f.peers name ∧ ¬ Loads op f peer ∧
      members op f names = .error (.meshError (peerNotFound name peer))

/-! ### The loads of a connect -/

/-- The clusters loaded, in order, each with the cluster it was found at. -/
def loadsFrom (f : Fleet) (found names : List String) : List (Option String × String) :=
  (connectRoots f found names).flatMap fun r => (none, r) :: (f.peers r).map fun p => (some r, p)

def loadsOf (f : Fleet) (names : List String) : List (Option String × String) :=
  loadsFrom f [] names

/-- What a failed load raises. -/
def loadError (op : Operator) (f : Fleet) (load : Option String × String) : Except Raised Unit :=
  match load.1 with
  | none => op.clusterContext f load.2 >>= fun _ => .ok ()
  | some name => checkPeer op f name load.2

instance (x : String) : Decidable (Loads op f x) :=
  match h : op.clusterContext f x with
  | .ok c => isTrue ⟨c, h⟩
  | .error _ => isFalse fun ⟨_, hc⟩ => by simp [h] at hc

lemma checkPeer_eq_ok {name peer : String} :
    checkPeer op f name peer = .ok () ↔ Loads op f peer := by
  rw [checkPeer, Loads]
  cases op.clusterContext f peer with
  | ok c => simp
  | error e => cases e <;> simp

lemma loadError_eq_ok {load : Option String × String} :
    loadError op f load = .ok () ↔ Loads op f load.2 := by
  obtain ⟨by_, x⟩ := load
  cases by_ with
  | none => simp [loadError, Loads, Checked.bind_eq_ok]
  | some name => exact checkPeer_eq_ok

/-- Loading a named cluster never raises `MeshError`. -/
lemma clusterContext_ne_mesh {x : String} {m : String} :
    op.clusterContext f x ≠ .error (.meshError m) := by
  intro h
  rw [Operator.clusterContext, Operator.validateName] at h
  by_cases hname : clusterNamePattern x = false
  · simp [Checked.refuseIf, hname, bind, Except.bind] at h
  · simp only [Checked.refuseIf, hname] at h
    rw [Operator.loadCluster] at h
    cases hc : f.cluster x with
    | none => simp [Checked.ofOption, hc, bind, Except.bind] at h
    | some c =>
        by_cases hm : c.multiHost = true ∧ op.managedFrom c ≠ none
        · simp [Checked.refuseIf, Checked.ofOption, hc, hm, bind, Except.bind] at h
        · simp [Checked.refuseIf, Checked.ofOption, hc, hm, bind, Except.bind, pure,
            Except.pure] at h

/-- The first failed load ends the loop over the peers of a cluster. -/
lemma addPeers_first (name : String) {found : List String} (peers : List String)
    (hfound : ∀ x ∈ found, Loads op f x) :
    (∀ p ∈ peers.find? fun p => ¬ Loads op f p, ∀ e, checkPeer op f name p = .error e →
      addPeers op f name found peers = .error e) ∧
      ((∀ p ∈ peers, Loads op f p) → ∃ r, addPeers op f name found peers = .ok r) := by
  induction peers generalizing found with
  | nil => simp [addPeers]
  | cons p rest ih =>
      rw [addPeers]
      by_cases hp : p ∈ found
      · have hloads := hfound p hp
        rw [if_pos hp, List.find?_cons_of_neg (by simpa using hloads)]
        refine ⟨(ih hfound).1, fun hall => (ih hfound).2 fun q hq => hall q ?_⟩
        exact List.mem_cons_of_mem p hq
      · rw [if_neg hp]
        by_cases hloads : Loads op f p
        · have hfound' : ∀ x ∈ found ++ [p], Loads op f x := by
            intro x hx
            cases List.mem_append.mp hx with
            | inl hx => exact hfound x hx
            | inr hx => exact List.mem_singleton.mp hx ▸ hloads
          rw [List.find?_cons_of_neg (by simpa using hloads), checkPeer_eq_ok.mpr hloads]
          refine ⟨fun q hq e he => ?_, fun hall => ?_⟩
          · simp only [Checked.ok_bind, (ih hfound').1 q hq e he, Checked.error_bind]
          · obtain ⟨r, hr⟩ := (ih hfound').2 fun q hq => hall q (List.mem_cons_of_mem p hq)
            exact ⟨_, by simp only [Checked.ok_bind, hr]; rfl⟩
        · rw [List.find?_cons_of_pos (by simpa using hloads)]
          refine ⟨fun q hq e he => ?_, fun hall => absurd (hall p (by simp)) hloads⟩
          obtain rfl := Option.some_inj.mp hq
          simp only [he, Checked.error_bind]

/-- **The first load that fails ends the loop**; without one it gets through. -/
theorem rootsLoop_first (found names : List String) (hfound : ∀ x ∈ found, Loads op f x) :
    (∀ l ∈ (loadsFrom f found names).find? fun l => ¬ Loads op f l.2, ∀ e,
      loadError op f l = .error e → rootsLoop op f found names = .error e) ∧
      ((∀ l ∈ loadsFrom f found names, Loads op f l.2) →
        ∃ l, rootsLoop op f found names = .ok l) := by
  induction names generalizing found with
  | nil => simp [loadsFrom, connectRoots, rootsLoop]
  | cons name rest ih =>
      rw [loadsFrom, connectRoots, rootsLoop]
      by_cases hname : name ∈ found
      · rw [if_pos hname, if_pos hname]
        exact ih found hfound
      · rw [if_neg hname, if_neg hname, List.flatMap_cons, List.cons_append, ← loadsFrom]
        cases hc : op.clusterContext f name with
        | error e =>
            have hno : ¬ Loads op f name := fun ⟨_, h⟩ => by simp [hc] at h
            rw [List.find?_cons_of_pos (by simpa using hno)]
            refine ⟨fun l hl e' he' => ?_, fun hall => absurd (hall (none, name) (by simp)) hno⟩
            obtain rfl := Option.some_inj.mp hl
            simpa [loadError, hc, bind, Except.bind] using he'
        | ok c =>
            have hloads : Loads op f name := ⟨c, hc⟩
            have hpeers : meshOf c = f.peers name := by
              rw [Fleet.peers, Operator.clusterContext_eq_ok hc]
              rfl
            have hfound' : ∀ x ∈ found ++ [name], Loads op f x := by
              intro x hx
              cases List.mem_append.mp hx with
              | inl hx => exact hfound x hx
              | inr hx => exact List.mem_singleton.mp hx ▸ hloads
            obtain ⟨hbad, hgood⟩ := addPeers_first name (meshOf c) hfound'
            rw [List.find?_cons_of_neg (by simpa using hloads), List.find?_append, List.find?_map,
              ← hpeers]
            simp only [Function.comp_def, Checked.ok_bind]
            cases hfind : (meshOf c).find? fun p => ¬ Loads op f p with
            | some p =>
                refine ⟨fun l hl e he => ?_, fun hall => ?_⟩
                · obtain rfl : (some name, p) = l := by simpa using hl
                  simp only [hbad p hfind e he, Checked.error_bind]
                · have hp := hall (some name, p)
                    (by simp [List.mem_of_find?_eq_some hfind])
                  exact absurd hp (by simpa using List.find?_some hfind)
            | none =>
                have hall : ∀ p ∈ meshOf c, Loads op f p := by
                  simpa [List.find?_eq_none] using hfind
                obtain ⟨⟨found', todo⟩, hadd⟩ := hgood hall
                obtain ⟨hmem, -⟩ := addPeers_eq_ok hadd
                have hsame : ∀ x, x ∈ found ++ name :: meshOf c ↔ x ∈ found' := by
                  intro x
                  rw [hmem]
                  simp [or_assoc]
                have hnext : ∀ x ∈ found', Loads op f x := by
                  intro x hx
                  cases (hmem x).mp hx with
                  | inl hx => exact hfound' x hx
                  | inr hx => exact hall x hx
                simp only [hadd, Checked.ok_bind, Option.map_none, Option.none_or]
                rw [loadsFrom, connectRoots_congr hsame, ← loadsFrom]
                refine ⟨(ih found' hnext).1, fun h => (ih found' hnext).2 fun l hl => h l ?_⟩
                exact List.mem_cons_of_mem _ (List.mem_append_right _ hl)

/-! ### What members promises -/

lemma connectRoots_subset {found names : List String} {r : String}
    (h : r ∈ connectRoots f found names) : r ∈ names := by
  induction names generalizing found with
  | nil => simp [connectRoots] at h
  | cons name rest ih =>
      rw [connectRoots] at h
      split at h
      · exact List.mem_cons_of_mem _ (ih h)
      · cases List.mem_cons.mp h with
        | inl he => simp [he]
        | inr hr => exact List.mem_cons_of_mem _ (ih hr)

/-- A load is a named cluster, or a recorded peer of one. -/
lemma reachable_of_load {names : List String} {l : Option String × String}
    (h : l ∈ loadsOf f names) : Reachable f names l.2 ∧
      ∀ name ∈ l.1, Reachable f names name ∧ l.2 ∈ f.peers name := by
  obtain ⟨r, hr, hl⟩ := List.mem_flatMap.mp h
  have hroot : Reachable f names r := ⟨r, connectRoots_subset hr, .refl⟩
  cases List.mem_cons.mp hl with
  | inl he => exact ⟨he ▸ hroot, by simp [he]⟩
  | inr hp =>
      obtain ⟨p, hpeer, rfl⟩ := List.mem_map.mp hp
      refine ⟨⟨r, connectRoots_subset hr, .single hpeer⟩, fun name hname => ?_⟩
      obtain rfl := Option.some_inj.mp hname
      exact ⟨hroot, hpeer⟩

lemma nodup_snoc {l : List String} {x : String} (hnd : l.Nodup) (hx : x ∉ l) :
    (l ++ [x]).Nodup := by
  rw [List.nodup_append]
  refine ⟨hnd, List.nodup_singleton x, fun y hy z hz he => hx ?_⟩
  rw [← List.mem_singleton.mp hz, ← he]
  exact hy

lemma nodup_addPeers {name : String} {found peers found' todo : List String}
    (hnd : found.Nodup) (h : addPeers op f name found peers = .ok (found', todo)) :
    found'.Nodup := by
  induction peers generalizing found found' todo with
  | nil =>
      obtain ⟨rfl, rfl⟩ := Prod.mk.inj (Except.ok.inj h)
      exact hnd
  | cons p rest ih =>
      rw [addPeers] at h
      by_cases hp : p ∈ found
      · rw [if_pos hp] at h
        exact ih hnd h
      · simp only [if_neg hp, Checked.bind_eq_ok, Checked.pure_eq_ok, Prod.mk.injEq] at h
        obtain ⟨-, -, ⟨found₁, todo₁⟩, h₁, rfl, rfl⟩ := h
        exact ih (nodup_snoc hnd hp) h₁

lemma nodup_rootsLoop {found names l : List String} (hnd : found.Nodup)
    (h : rootsLoop op f found names = .ok l) : l.Nodup := by
  induction names generalizing found with
  | nil => exact Except.ok.inj h ▸ hnd
  | cons name rest ih =>
      rw [rootsLoop] at h
      by_cases hname : name ∈ found
      · rw [if_pos hname] at h
        exact ih hnd h
      · simp only [if_neg hname, Checked.bind_eq_ok] at h
        obtain ⟨c, -, ⟨found', todo⟩, hadd, hrest⟩ := h
        exact ih (nodup_addPeers (nodup_snoc hnd hname) hadd) hrest

/-- The result of a connect whose loads all succeed. -/
lemma members_of_loads (names : List String) (h : ∀ l ∈ loadsOf f names, Loads op f l.2) :
    ∃ l, members op f names = .ok l ∧ l.Nodup ∧ l.Pairwise (· ≤ ·) ∧
      ∀ x, x ∈ l ↔ Reached f names x := by
  obtain ⟨l, hl⟩ := (rootsLoop_first [] names (by simp)).2 h
  refine ⟨sorted l, ?_, ?_, ?_, fun x => ?_⟩
  · rw [members, membersLoop_eq_rootsLoop, hl]
    rfl
  · exact (List.perm_insertionSort _ _).nodup_iff.mpr (nodup_rootsLoop List.nodup_nil hl)
  · exact List.pairwise_insertionSort _ _
  · rw [mem_sorted, mem_rootsLoop hl]
    simp [Reached]

/-- Every cluster a connect works on is one it loads. -/
lemma load_of_reached {names : List String} {x : String} (h : Reached f names x) :
    ∃ l ∈ loadsOf f names, l.2 = x := by
  obtain ⟨r, hr, rfl | hx⟩ := h
  · exact ⟨(none, x), List.mem_flatMap.mpr ⟨x, hr, by simp⟩, rfl⟩
  · exact ⟨(some r, x), List.mem_flatMap.mpr ⟨r, hr, by simp [hx]⟩, rfl⟩

/-- Two hops are one, and the first cluster that fails to load is a recorded peer without a
`cluster.yaml`. -/
structure ClosedInOneHop (op : Operator) (f : Fleet) (names : List String) : Prop where
  closed : (∀ x, Reachable f names x → Loads op f x) → ∀ x, Reachable f names x →
    Reached f names x
  refused : (∃ name peer, Reachable f names name ∧ peer ∈ f.peers name ∧ ¬ Loads op f peer) →
    ∃ name peer m, ((loadsOf f names).find? fun l => ¬ Loads op f l.2) = some (some name, peer) ∧
      op.clusterContext f peer = .error (.clusterNotFound m)

/-- The records once `a`, `b` and `c` were connected and `a` and `b` disconnected, and `d` beside
them. -/
def chainFleet : Fleet :=
  let listing (name : ClusterName) (id : ℕ) (mesh : List String) : Cluster :=
    { meshable name id with
      status := (meshable name id).status.map fun st => { st with mesh := mesh } }
  (((Fleet.empty.save (listing ⟨"a", clusterName_a⟩ 1 ["c"])).save
    (listing ⟨"b", clusterName_b⟩ 2 ["c"])).save (listing ⟨"c", clusterName_c⟩ 3 ["a", "b"])).save
      (listing ⟨"d", clusterName_d⟩ 4 [])

lemma mem_of_reachable_chain {x : String} (h : Reachable chainFleet ["a", "d"] x) :
    x ∈ ["a", "b", "c", "d"] := by
  obtain ⟨n, hn, hpath⟩ := h
  induction hpath with
  | refl => exact (by decide : ∀ n ∈ ["a", "d"], n ∈ ["a", "b", "c", "d"]) n hn
  | tail _ hstep ih =>
      have hclosed : ∀ y ∈ ["a", "b", "c", "d"], ∀ z ∈ chainFleet.peers y,
          z ∈ ["a", "b", "c", "d"] := by
        decide
      exact hclosed _ ih _ hstep

end Tk8s
