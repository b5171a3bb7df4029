import Mathlib.Data.List.Perm.Basic
import Tk8s.Create.Units

/-!
Names of one cluster: explicit node names are checked against each other only, while automatic
names count the nodes of a role and router and unit names are derived elsewhere.

* `namesFrom_perm`: the node names are the explicit ones and the automatic ones of the unnamed
  nodes, which are distinct among themselves (`nodup_autosFrom`).
* `NamesDistinct`: no unit, path, service, container or volume name comes twice.
* `NamesFree`: the condition on the definition.
* `namesDistinct_iff`: **the names are distinct exactly when no explicit name is one tkctl derives**.
-/

namespace Tk8s

open Net

/-! ### Node names -/

/-- The names the loop of `expand_nodes` gives. -/
def namesFrom (name : ClusterName) (seen : Role → ℕ) : List NodeGroup → List NodeName
  | [] => []
  | g :: rest =>
      g.name.getD (autoName name g.role (seen g.role + 1)) ::
        namesFrom name (Function.update seen g.role (seen g.role + 1)) rest

/-- The automatic names among them. -/
def autosFrom (name : ClusterName) (seen : Role → ℕ) : List NodeGroup → List NodeName
  | [] => []
  | g :: rest =>
      let tail := autosFrom name (Function.update seen g.role (seen g.role + 1)) rest
      if g.name = none then autoName name g.role (seen g.role + 1) :: tail else tail

lemma expandFrom_names {name : ClusterName} {index : ℕ} {ips : Option (List IPv4Address)}
    {hosts : Option (List String)} {groups : List NodeGroup} {ip : ℕ} {seen : Role → ℕ}
    {nodes : List Node} (h : expandFrom name index ips hosts ip seen groups = .ok nodes) :
    nodes.map (·.name) = namesFrom name seen groups := by
  induction groups generalizing ip seen nodes with
  | nil => rw [← Except.ok.inj h]; rfl
  | cons g rest ih =>
      obtain ⟨node, tail, hnode, htail, rfl⟩ := expandFrom_cons_eq_ok.mp h
      obtain ⟨address, host, memory, -, -, -, rfl⟩ := expandNode_eq_ok.mp hnode
      rw [List.map_cons, ih htail, namesFrom]

/-- The node names: the explicit ones, and the automatic ones. -/
lemma namesFrom_perm (name : ClusterName) (seen : Role → ℕ) (groups : List NodeGroup) :
    (namesFrom name seen groups).Perm
      (groups.filterMap (·.name) ++ autosFrom name seen groups) := by
  induction groups generalizing seen with
  | nil => exact List.Perm.refl _
  | cons g rest ih =>
      rw [namesFrom, autosFrom]
      cases hn : g.name with
      | none =>
          rw [Option.getD_none, if_pos rfl, List.filterMap_cons_none hn]
          exact ((ih _).cons _).trans List.perm_middle.symm
      | some n =>
          rw [Option.getD_some, if_neg (by simp), List.filterMap_cons_some hn, List.cons_append]
          exact (ih _).cons _

lemma autoName_inj {name : ClusterName} {r r' : Role} {n n' : ℕ} :
    autoName name r n = autoName name r' n' ↔ r = r' ∧ n = n' := by
  refine ⟨fun h => ?_, fun ⟨hr, hn⟩ => by rw [hr, hn]⟩
  have htext : autoText name.text r n = autoText name.text r' n' := congrArg Matching.text h
  obtain ⟨hstem, hn⟩ := (Text.sep_repr_inj (show Char.isDigit '-' = false by decide)).mp htext
  refine ⟨?_, hn⟩
  have hrole := (String.append_right_inj _).mp hstem
  cases r <;> cases r' <;> first | rfl | exact absurd hrole (by decide)

/-- The automatic names: of the unnamed nodes, by their position in the role. -/
lemma mem_autosFrom {name : ClusterName} {seen : Role → ℕ} {groups : List NodeGroup}
    {m : NodeName} : m ∈ autosFrom name seen groups ↔
      ∃ role k g, (groups.filter (·.role = role))[k]? = some g ∧ g.name = none ∧
        m = autoName name role (seen role + k + 1) := by
  induction groups generalizing seen with
  | nil => simp [autosFrom]
  | cons g rest ih =>
      have hsplit : m ∈ autosFrom name seen (g :: rest) ↔
          (g.name = none ∧ m = autoName name g.role (seen g.role + 1)) ∨
            m ∈ autosFrom name (Function.update seen g.role (seen g.role + 1)) rest := by
        rw [autosFrom]
        by_cases hn : g.name = none <;> simp [hn]
      have hself : (g :: rest).filter (·.role = g.role) = g :: rest.filter (·.role = g.role) :=
        List.filter_cons_of_pos (by simp)
      have hother : ∀ role, role ≠ g.role →
          (g :: rest).filter (·.role = role) = rest.filter (·.role = role) := fun role hne =>
        List.filter_cons_of_neg (by simpa using hne.symm)
      rw [hsplit, ih]
      constructor
      · rintro (⟨hn, rfl⟩ | ⟨role, k, g', hget, hn, rfl⟩)
        · exact ⟨g.role, 0, g, by rw [hself]; rfl, hn, rfl⟩
        · by_cases hrole : role = g.role
          · subst hrole
            refine ⟨_, k + 1, g', by rw [hself]; exact hget, hn, ?_⟩
            rw [Function.update_self, show seen g.role + 1 + k = seen g.role + (k + 1) by omega]
          · refine ⟨role, k, g', by rw [hother role hrole]; exact hget, hn, ?_⟩
            rw [Function.update_of_ne hrole]
      · rintro ⟨role, k, g', hget, hn, rfl⟩
        by_cases hrole : role = g.role
        · subst hrole
          rw [hself] at hget
          cases k with
          | zero =>
              obtain rfl := Option.some_inj.mp hget
              exact Or.inl ⟨hn, rfl⟩
          | succ k =>
              refine Or.inr ⟨_, k, g', hget, hn, ?_⟩
              rw [Function.update_self, show seen g.role + 1 + k = seen g.role + (k + 1) by omega]
        · rw [hother role hrole] at hget
          exact Or.inr ⟨role, k, g', hget, hn, by rw [Function.update_of_ne hrole]⟩

/-- Automatic names are distinct. -/
lemma nodup_autosFrom (name : ClusterName) (seen : Role → ℕ) (groups : List NodeGroup) :
    (autosFrom name seen groups).Nodup := by
  induction groups generalizing seen with
  | nil => exact List.nodup_nil
  | cons g rest ih =>
      rw [autosFrom]
      by_cases hn : g.name = none
      · rw [if_pos hn, List.nodup_cons]
        refine ⟨fun hmem => ?_, ih _⟩
        obtain ⟨role, k, g', -, -, heq⟩ := mem_autosFrom.mp hmem
        obtain ⟨hrole, hnum⟩ := autoName_inj.mp heq
        rw [← hrole, Function.update_self] at hnum
        omega
      · rw [if_neg hn]
        exact ih _

/-- A named group is one node: unrolling keeps the explicit names. -/
lemma filterMap_unroll {groups : List NodeGroup} (h : ∀ g ∈ groups, GroupOk g) :
    (unroll groups).filterMap (·.name) = groups.filterMap (·.name) := by
  induction groups with
  | nil => rfl
  | cons g rest ih =>
      obtain ⟨hg, hrest⟩ := List.forall_mem_cons.mp h
      have hunroll : unroll (g :: rest) = List.replicate g.count g ++ unroll rest := rfl
      rw [hunroll, List.filterMap_append, ih hrest]
      cases hn : g.name with
      | none =>
          have hnil : (List.replicate (g.count : ℕ) g).filterMap (·.name) = [] := by
            rw [List.filterMap_eq_nil_iff]
            intro x hx
            rw [List.eq_of_mem_replicate hx, hn]
          rw [hnil, List.filterMap_cons_none hn, List.nil_append]
      | some n =>
          have hone : (g.count : ℕ) = 1 := by rw [hg.named (by simp [hn])]; rfl
          rw [hone, List.replicate_one, List.filterMap_cons_some hn, List.filterMap_cons_some hn]
          rfl

/-! ### Derived names -/

/-- What stands behind the cluster name in the stems tkctl derives. -/
def derivedSuffixes : RouterCount → List String
  | .one => ["-router", "-network", "-routes"]
  | .two => ["-router-1", "-router-2", "-network", "-routes"]

/-- The stems tkctl derives beside the node names. -/
def derivedStems (cluster : String) (routers : RouterCount) : List String :=
  (derivedSuffixes routers).map (cluster ++ ·)

lemma unitStems_eq (c : Cluster) :
    unitStems c = c.spec.nodes.map (·.name.text) ++ derivedStems c.name c.spec.network.routers := by
  rw [unitStems, containerNames, List.append_assoc]
  congr 1
  rw [Cluster.routerNames]
  cases c.spec.network.routers <;> rfl

lemma nodup_derivedStems (cluster : String) (routers : RouterCount) :
    (derivedStems cluster routers).Nodup := by
  have hinj : Function.Injective (cluster ++ ·) := fun s t h => (String.append_right_inj _).mp h
  refine (List.nodup_map_iff hinj).mpr ?_
  cases routers <;> decide

/-- No automatic name is a derived stem. -/
lemma autoName_notMem_derivedStems (name : ClusterName) (role : Role) (n : ℕ)
    (routers : RouterCount) : (autoName name role n).text ∉ derivedStems name.text routers := by
  intro hmem
  obtain ⟨s, hs, heq⟩ := List.mem_map.mp hmem
  have htext : (autoName name role n).text = name.text ++ ("-" ++ role.text ++ "-" ++ n.repr) := by
    simp only [autoName, autoText, String.append_assoc]
  rw [htext] at heq
  have hsuffix := (String.append_right_inj _).mp heq
  -- the second character tells them apart: r or n against c or w
  have hall : ∀ t ∈ derivedSuffixes routers,
      t.toList.getD 1 ' ' = 'r' ∨ t.toList.getD 1 ' ' = 'n' := by
    cases routers <;> decide
  have hchar := hall s hs
  rw [hsuffix] at hchar
  cases role <;> simp [Role.text] at hchar

/-! ### Distinct names -/

/-- No unit, path, service, container or volume name comes twice. -/
structure NamesDistinct (c : Cluster) : Prop where
  stems : (unitStems c).Nodup
  paths : (unitPaths c).Nodup
  services : (serviceNames c).Nodup
  containers : (containerNames c).Nodup
  volumes : (volumeNames c).Nodup

lemma getLast_append {s : String} (hs : s.toList ≠ []) (a : String) :
    (a ++ s).toList.getLast? = s.toList.getLast? := by
  rw [String.toList_append, List.getLast?_append_of_ne_nil _ hs]

/-- Volumes tell their nodes apart. -/
lemma nodeVolumes_disjoint {a b : String} (hab : a ≠ b) :
    List.Disjoint (nodeVolumes a) (nodeVolumes b) := by
  intro v ha hb
  have hmem : ∀ x : String, v ∈ nodeVolumes x → ∃ s ∈ ["-var", "-etc", "-usr-local-bin"],
      v = x ++ s := by
    intro x hx
    simpa [nodeVolumes] using hx
  obtain ⟨s, hs, rfl⟩ := hmem a ha
  obtain ⟨t, ht, heq⟩ := hmem b hb
  -- the last character gives the suffix away
  have hne : ∀ s ∈ ["-var", "-etc", "-usr-local-bin"], s.toList ≠ [] := by decide
  have hlast := congrArg (fun x : String => x.toList.getLast?) heq
  simp only [getLast_append (hne s hs), getLast_append (hne t ht)] at hlast
  have hdet : ∀ s ∈ ["-var", "-etc", "-usr-local-bin"], ∀ t ∈ ["-var", "-etc", "-usr-local-bin"],
      s.toList.getLast? = t.toList.getLast? → s = t := by decide
  obtain rfl := hdet s hs t ht hlast
  exact hab ((String.append_left_inj s).mp heq)

/-- Distinct stems make everything else distinct. -/
lemma namesDistinct_of_stems {c : Cluster} (h : (unitStems c).Nodup) : NamesDistinct c := by
  have hcont : (containerNames c).Nodup := (List.sublist_append_left _ _).nodup h
  have hinj : ∀ suffix : String, Function.Injective (· ++ suffix) := fun suffix s t hst =>
    (String.append_left_inj suffix).mp hst
  refine ⟨h, ?_, h.map (hinj _), hcont, ?_⟩
  · have hpath : Function.Injective (containerPath c.name) := fun s t hst =>
      hinj ".container" (UnitPath.quadlet.inj hst).2
    refine List.nodup_append.mpr ⟨hcont.map hpath, by simp, fun p hp q hq hpq => ?_⟩
    obtain ⟨s, -, rfl⟩ := List.mem_map.mp hp
    simp only [List.mem_cons, List.not_mem_nil, or_false] at hq
    rcases hq with rfl | rfl | rfl
    · have hlast := congrArg (fun x : String => x.toList.getLast?) (UnitPath.quadlet.inj hpq).2
      simp only [getLast_append (show ".container".toList ≠ [] by decide),
        getLast_append (show ".network".toList ≠ [] by decide)] at hlast
      exact absurd hlast (by decide)
    · exact UnitPath.noConfusion hpq
    · exact UnitPath.noConfusion hpq
  · rw [volumeNames]
    refine List.nodup_flatMap.mpr ⟨fun n _ => ?_, ?_⟩
    · have hmap : nodeVolumes n = ["-var", "-etc", "-usr-local-bin"].map (n ++ ·) := rfl
      rw [hmap]
      exact List.Nodup.map (fun s t hst => (String.append_right_inj n).mp hst) (by decide)
    · have hnames : (c.spec.nodes.map (·.name.text)).Nodup :=
        (List.sublist_append_left _ _).nodup hcont
      exact hnames.imp fun hab => nodeVolumes_disjoint hab

/-! ### The condition -/

/-- No explicit node name is one tkctl derives: the automatic name of an unnamed node (the k-th
node of its role, counting all of them), a router's, or `<c>-network`, `<c>-routes`. -/
structure NamesFree (u : UserCluster) : Prop where
  automatic : ∀ n ∈ u.spec.nodes.filterMap (·.name), ∀ role k g,
    ((unroll u.spec.nodes).filter (·.role = role))[k]? = some g → g.name = none →
      n ≠ autoName u.metadata.name role (k + 1)
  derived : ∀ n ∈ u.spec.nodes.filterMap (·.name),
    n.text ∉ derivedStems u.metadata.name.text (wantedRouters u)

/-- The stems, up to order: the explicit names, the automatic ones, the derived ones. -/
lemma unitStems_perm {u : UserCluster} {existing : Option Cluster} {f : Facts} {c : Cluster}
    (h : resolve u existing f = .ok c) :
    (unitStems c).Perm ((u.spec.nodes.filterMap (·.name)).map (·.text) ++
      ((autosFrom u.metadata.name (fun _ => 0) (unroll u.spec.nodes)).map (·.text) ++
        derivedStems u.metadata.name.text (wantedRouters u))) := by
  obtain ⟨index, t, hres, rfl⟩ := resolve_eq_ok.mp h
  obtain ⟨ips, hosts, hnodes⟩ := nodes_of_topology hres.built
  have hrouters := (index_of_topology hres.built).2
  have hnames : t.nodes.map (·.name) = namesFrom u.metadata.name (fun _ => 0)
      (unroll u.spec.nodes) := expandFrom_names hnodes
  have htexts := congrArg (List.map Matching.text) hnames
  rw [List.map_map] at htexts
  have hperm := (namesFrom_perm u.metadata.name (fun _ => 0) (unroll u.spec.nodes)).map
    Matching.text
  rw [filterMap_unroll (accepted_of_validate hres.valid).groups, List.map_append] at hperm
  rw [unitStems_eq, ← List.append_assoc, ← hrouters]
  exact (htexts ▸ hperm).append_right _

/-- **Names never collide exactly when no explicit node name is one tkctl derives.** -/
theorem namesDistinct_iff {u : UserCluster} {existing : Option Cluster} {f : Facts} {c : Cluster}
    (h : resolve u existing f = .ok c) : NamesDistinct c ↔ NamesFree u := by
  have hstems : NamesDistinct c ↔ (unitStems c).Nodup :=
    ⟨fun hd => hd.stems, namesDistinct_of_stems⟩
  have hacc : Accepted u := by
    obtain ⟨index, t, hres, rfl⟩ := resolve_eq_ok.mp h
    exact accepted_of_validate hres.valid
  have htext : Function.Injective fun n : NodeName => n.text := Matching.text_injective
  have hauto := nodup_autosFrom u.metadata.name (fun _ => 0) (unroll u.spec.nodes)
  rw [hstems, (unitStems_perm h).nodup_iff, List.nodup_append, List.nodup_append]
  constructor
  · rintro ⟨-, -, hdisj⟩
    refine ⟨fun n hn role k g hget hnone heq => ?_, fun n hn hmem => ?_⟩
    · refine hdisj _ (List.mem_map_of_mem hn) _ (List.mem_append_left _ ?_) rfl
      refine List.mem_map_of_mem (mem_autosFrom.mpr ⟨role, k, g, hget, hnone, ?_⟩)
      rw [heq, Nat.zero_add]
    · exact hdisj _ (List.mem_map_of_mem hn) _ (List.mem_append_right _ hmem) rfl
  · intro hfree
    refine ⟨hacc.names.map htext, ⟨hauto.map htext, nodup_derivedStems _ _, ?_⟩, ?_⟩
    · rintro s hs t ht rfl
      obtain ⟨m, hm, rfl⟩ := List.mem_map.mp hs
      obtain ⟨role, k, g, -, -, rfl⟩ := mem_autosFrom.mp hm
      exact autoName_notMem_derivedStems _ _ _ _ ht
    · rintro s hs t ht rfl
      obtain ⟨n, hn, rfl⟩ := List.mem_map.mp hs
      rcases List.mem_append.mp ht with ht | ht
      · obtain ⟨m, hm, heq⟩ := List.mem_map.mp ht
        obtain ⟨role, k, g, hget, hnone, rfl⟩ := mem_autosFrom.mp hm
        rw [Nat.zero_add] at heq
        exact hfree.automatic n hn role k g hget hnone (htext heq).symm
      · exact hfree.derived n hn ht

/-! ### Three workers -/

/-- A worker with an explicit name, then two without. -/
def threeWorkers (name : NodeName) : UserCluster where
  metadata := ⟨⟨"dev", clusterName_dev⟩⟩
  spec :=
    { nodes := [{ role := .controlPlane }, { role := .worker, name := some name },
        { role := .worker, count := 2 }] }

def threeWorkersFacts : Facts where
  k8sDefault := "1.34.0"
  usedIndices := []
  allowOverlap := false
  tk8sVersion := "1"

/-- A name of its own. -/
theorem namesDistinct_big :
    ∃ c, resolve (threeWorkers ⟨"big", by decide⟩) none threeWorkersFacts = .ok c ∧
      NamesDistinct c := by
  obtain ⟨c, hc⟩ : ∃ c, resolve (threeWorkers ⟨"big", by decide⟩) none threeWorkersFacts
      = .ok c := by
    apply Checked.exists_eq_ok
    decide +kernel
  refine ⟨c, hc, (namesDistinct_iff hc).mpr ⟨?_, ?_⟩⟩
  · rintro n hn role k g - - heq
    obtain rfl := List.mem_singleton.mp hn
    have htext := congrArg (fun m : NodeName => m.text.toList.head?) heq
    simp [autoName, autoText, threeWorkers] at htext
  · intro n hn
    obtain rfl := List.mem_singleton.mp hn
    decide

/-- A name that counts like the next one: the second worker takes it too. -/
theorem not_namesDistinct_two :
    ∃ c, resolve (threeWorkers ⟨"dev-worker-2", by decide⟩) none threeWorkersFacts = .ok c ∧
      ¬ NamesDistinct c := by
  have hrun : (do
      let c ← resolve (threeWorkers ⟨"dev-worker-2", by decide⟩) none threeWorkersFacts
      return decide (unitStems c).Nodup) = (.ok false : Except Raised Bool) := by
    decide +kernel
  simp only [Checked.bind_eq_ok, Checked.pure_eq_ok, decide_eq_false_iff_not] at hrun
  obtain ⟨c, hc, hnot⟩ := hrun
  exact ⟨c, hc, fun hd => hnot hd.stems⟩

end Tk8s
