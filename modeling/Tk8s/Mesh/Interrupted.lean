import Tk8s.Mesh.Closure
import Tk8s.Mesh.Preflight
import Tk8s.Mesh.Records

/-!
`connect` and `disconnect`, stopped between two records and run again.

* `Partly`: the fleets a connect can leave behind when it is stopped.
* `reached_partly`: **a connect that is run again finds the same clusters**, whatever the first run
  recorded already.
* `connect_resumes`: **any interrupted runs, and then one that is not, leave what one run would
  have**.
* `disconnect_interrupted`: a disconnect that was stopped can only be ended from the other side.
-/

namespace Tk8s

variable {op : Operator} {f f' g g' : Fleet} {l names : List String} {n : String}

/-! ### What an interrupted connect leaves behind -/

/-- A cluster of `l` that lists all the others. -/
def recorded (l : List String) (n : String) (c : Cluster) : Cluster :=
  { c with status := c.status.map fun st => { st with mesh := sorted (l.filter (· ≠ n)) } }

/-- Some of the clusters of `l` list all the others, all else is as before. -/
def Partly (l : List String) (f g : Fleet) : Prop := ∀ n, g.cluster n = f.cluster n ∨
  n ∈ l ∧ g.cluster n = (f.cluster n).map (recorded l n)

/-- The fleets a connect can be stopped in: before it records anything, and behind each record. -/
def Interrupted (op : Operator) (names : List String) (f g : Fleet) : Prop :=
  g = f ∨ ∃ l cs part, members op f names = .ok l ∧ l.mapM (op.clusterContext f) = .ok cs ∧
    preflight op cs = .ok () ∧ part <+: l ∧ recordMesh op l f part = .ok g

lemma Partly.refl : Partly l f f := fun _ => Or.inl rfl

lemma recorded_recorded (c : Cluster) : recorded l n (recorded l n c) = recorded l n c := by
  rw [recorded, recorded, Option.map_map]
  rfl

lemma Partly.peers (h : Partly l f g) (n : String) : g.peers n = f.peers n ∨
    n ∈ l ∧ ∀ x, x ∈ g.peers n ↔ x ∈ l ∧ x ≠ n := by
  rcases h n with hsame | ⟨hn, hg⟩
  · exact Or.inl (by rw [Fleet.peers, hsame, ← Fleet.peers])
  · rw [Fleet.peers, Fleet.peers, hg]
    cases hc : f.cluster n with
    | none => simp
    | some c =>
        cases hst : c.status with
        | none => simp [meshOf, recorded, hst]
        | some st => simp [meshOf, recorded, hst, hn]

/-- Its record does not decide whether a cluster can be loaded. -/
lemma load_of_same {c c' : Cluster} (hload : op.loadCluster f n = .ok c)
    (hg : g.cluster n = some c')
    (hmulti : c'.multiHost = c.multiHost) (hmanaged : op.managedFrom c' = op.managedFrom c) :
    op.loadCluster g n = .ok c' := by
  simp only [Operator.loadCluster, Operator.loadCluster_eq_ok hload, hg, Checked.bind_eq_ok,
    Checked.refuseIf_eq_ok, Checked.ofOption_eq_ok, Checked.pure_eq_ok, Option.some_inj] at hload ⊢
  obtain ⟨d, rfl, u, hrefused, -⟩ := hload
  refine ⟨_, rfl, u, ?_, rfl⟩
  rwa [hmulti, hmanaged]

lemma Partly.load (h : Partly l f g) {c : Cluster} (hload : op.loadCluster f n = .ok c) :
    ∃ c', op.loadCluster g n = .ok c' ∧ (c' = c ∨ c' = recorded l n c) := by
  have hcluster := Operator.loadCluster_eq_ok hload
  rcases h n with hsame | ⟨-, hg⟩
  · refine ⟨c, ?_, Or.inl rfl⟩
    rwa [Operator.loadCluster, hsame, ← Operator.loadCluster]
  · refine ⟨recorded l n c, load_of_same hload (by rw [hg, hcluster, Option.map_some]) rfl ?_,
      Or.inr rfl⟩
    rw [Operator.managedFrom, Operator.managedFrom, recorded]
    cases c.status <;> rfl

lemma Partly.context (h : Partly l f g) {c : Cluster} (hc : op.clusterContext f n = .ok c) :
    ∃ c', op.clusterContext g n = .ok c' ∧ (c' = c ∨ c' = recorded l n c) := by
  rw [Operator.clusterContext, Checked.check_bind_eq_ok] at hc
  obtain ⟨c', hc', hor⟩ := h.load hc.2
  exact ⟨c', by rw [Operator.clusterContext, hc.1, Checked.ok_bind, hc'], hor⟩

lemma Partly.loads (h : Partly l f g) (hn : Loads op f n) : Loads op g n := by
  obtain ⟨c, hc⟩ := hn
  obtain ⟨c', hc', -⟩ := h.context hc
  exact ⟨c', hc'⟩

/-! ### The clusters of a connect -/

lemma connectRoots_eq_nil {found : List String} (h : ∀ x ∈ names, x ∈ found) :
    connectRoots g found names = [] := by
  induction names with
  | nil => rfl
  | cons name rest ih =>
      rw [connectRoots, if_pos (h name (by simp))]
      exact ih fun x hx => h x (List.mem_cons_of_mem name hx)

/-- Every name is found, or a root. -/
lemma covered {found : List String} {x : String} (hx : x ∈ names) :
    x ∈ found ∨ ∃ r ∈ connectRoots f found names, x = r ∨ x ∈ f.peers r := by
  induction names generalizing found with
  | nil => simp at hx
  | cons name rest ih =>
      rw [connectRoots]
      split_ifs with hname
      · cases List.mem_cons.mp hx with
        | inl he => exact Or.inl (he ▸ hname)
        | inr hx => exact ih hx
      · cases List.mem_cons.mp hx with
        | inl he => exact Or.inr ⟨name, by simp, Or.inl he⟩
        | inr hx =>
            rcases @ih (found ++ name :: f.peers name) hx with hfound | ⟨r, hr, h⟩
            · rcases List.mem_append.mp hfound with hfound | hnew
              · exact Or.inl hfound
              · exact Or.inr ⟨name, by simp, List.mem_cons.mp hnew⟩
            · exact Or.inr ⟨r, List.mem_cons_of_mem name hr, h⟩

/-- What a recorded cluster adds is what would have been found anyway. -/
lemma reachedFrom_partly (h : Partly l f g) {found : List String}
    (hl : ∀ x, x ∈ l ↔ x ∈ found ∨ ∃ r ∈ connectRoots f found names, x = r ∨ x ∈ f.peers r)
    (x : String) :
    x ∈ l ↔ x ∈ found ∨ ∃ r ∈ connectRoots g found names, x = r ∨ x ∈ g.peers r := by
  induction names generalizing found with
  | nil => simpa [connectRoots] using hl x
  | cons name rest ih =>
      have hcovered : ∀ y ∈ name :: rest, y ∈ l := fun y hy => (hl y).mpr (covered hy)
      rw [connectRoots] at hl ⊢
      split_ifs at hl ⊢ with hname
      · exact ih hl
      · have hstep : ∀ (k : Fleet) (y : String),
            (y ∈ found ∨ ∃ r ∈ name :: connectRoots k (found ++ name :: k.peers name) rest,
              y = r ∨ y ∈ k.peers r) ↔
            y ∈ found ++ name :: k.peers name ∨
              ∃ r ∈ connectRoots k (found ++ name :: k.peers name) rest, y = r ∨ y ∈ k.peers r := by
          intro k y
          rw [List.mem_append, List.mem_cons, List.exists_mem_cons_iff]
          simp only [or_assoc]
        have hfound : ∀ y ∈ found, y ∈ l := fun y hy => (hl y).mpr (Or.inl hy)
        rw [hstep]
        rcases h.peers name with hsame | ⟨-, hpeers⟩
        · rw [hsame]
          exact ih fun y => (hl y).trans (hstep f y)
        -- the peers of a recorded root are all of `l`, and no root is left behind it
        · have hmem : ∀ y, y ∈ found ++ name :: g.peers name ↔ y ∈ l := by
            intro y
            rw [List.mem_append, List.mem_cons, hpeers]
            constructor
            · rintro (hy | rfl | hy)
              · exact hfound y hy
              · exact hcovered y (by simp)
              · exact hy.1
            · intro hy
              by_cases he : y = name
              · exact Or.inr (Or.inl he)
              · exact Or.inr (Or.inr ⟨hy, he⟩)
          rw [connectRoots_eq_nil fun y hy =>
            (hmem y).mpr (hcovered y (List.mem_cons_of_mem name hy)),
            hmem]
          simp

/-- **A connect that is run again finds the same clusters.** -/
theorem reached_partly (h : Partly l f g) (hl : ∀ x, x ∈ l ↔ Reached f names x) (x : String) :
    x ∈ l ↔ Reached g names x := by
  have hfrom := @reachedFrom_partly _ _ _ names h [] (fun y => by
    rw [hl, Reached]
    simp) x
  rw [hfrom, Reached]
  simp

/-- Nor does it matter in which order it found them. -/
lemma members_partly (h : Partly l f g) (hl : members op f names = .ok l)
    (hloads : ∀ x ∈ l, Loads op f x) : members op g names = .ok l := by
  have hreached := reached_partly h (mem_members hl)
  have hall : ∀ load ∈ loadsOf g names, Loads op g load.2 := by
    intro load hload
    have hx : Reached g names load.2 := by
      obtain ⟨r, hr, hload⟩ := List.mem_flatMap.mp hload
      rcases List.mem_cons.mp hload with rfl | hpeer
      · exact ⟨r, hr, Or.inl rfl⟩
      · obtain ⟨p, hp, rfl⟩ := List.mem_map.mp hpeer
        exact ⟨r, hr, Or.inr hp⟩
    exact h.loads (hloads _ ((hreached _).mpr hx))
  obtain ⟨l', hl', hnodup', hsorted', hmem'⟩ := members_of_loads names hall
  rw [members, membersLoop_eq_rootsLoop, Checked.map_eq_ok] at hl
  obtain ⟨found, hfound, rfl⟩ := hl
  have hperm : found.Perm (sorted found) := (List.perm_insertionSort _ _).symm
  have hnodup : (sorted found).Nodup :=
    hperm.nodup_iff.mp (nodup_rootsLoop List.nodup_nil hfound)
  have hsame : l'.Perm (sorted found) :=
    (List.perm_ext_iff_of_nodup hnodup' hnodup).mpr fun x => (hmem' x).trans (hreached x).symm
  have hsorted : (sorted found).Pairwise (· ≤ ·) := List.pairwise_insertionSort _ _
  rw [hl',
    hsame.eq_of_pairwise (fun a b _ _ hab hba => String.le_antisymm hab hba) hsorted' hsorted]

/-! ### Preflight does not read the records -/

/-- A cluster without its record. -/
def unrecorded (c : Cluster) : Cluster :=
  { c with status := c.status.map fun st => { st with mesh := [] } }

lemma unrecorded_recorded (c : Cluster) : unrecorded (recorded l n c) = unrecorded c := by
  rw [unrecorded, unrecorded, recorded, Option.map_map]
  rfl

lemma stateOf_unrecorded (c : Cluster) : op.stateOf (unrecorded c) = op.stateOf c :=
  stateOf_congr rfl rfl (by simp [unrecorded, Function.comp_def])

lemma canFederate_unrecorded (c : Cluster) : canFederate (unrecorded c) = canFederate c := by
  rw [canFederate, canFederate, unrecorded]
  cases c.status <;> rfl

lemma preflightOne_unrecorded (a b : Cluster) :
    preflightOne op (unrecorded a) (unrecorded b) = preflightOne op a b := by
  have hstatus : (unrecorded b).status = none ↔ b.status = none := by simp [unrecorded]
  have hmulti : ∀ c, (unrecorded c).multiHost = c.multiHost := fun _ => rfl
  have hname : ∀ c, (unrecorded c).name = c.name := fun _ => rfl
  simp only [preflightOne, stateOf_unrecorded, canFederate_unrecorded, hstatus, hmulti, hname]
  split_ifs <;> rfl

lemma preflightPair_unrecorded (a b : Cluster) :
    preflightPair (unrecorded a) (unrecorded b) = preflightPair a b := by
  have hname : ∀ c, (unrecorded c).name = c.name := fun _ => rfl
  have hspec : ∀ c, (unrecorded c).spec = c.spec := fun _ => rfl
  rw [preflightPair, preflightPair]
  cases ha : a.status with
  | none => simp [unrecorded, ha, Checked.ofOption]
  | some sa =>
      cases hb : b.status with
      | none => simp [unrecorded, ha, hb, Checked.ofOption]
      | some sb => simp [unrecorded, ha, hb, Checked.ofOption, Cluster.name]

lemma forM_unrecorded {k k' : Cluster → Except Raised Unit} (h : ∀ c, k (unrecorded c) = k' c)
    (cs : List Cluster) : (cs.map unrecorded).forM k = cs.forM k' := by
  change forM (cs.map unrecorded) k = forM cs k'
  rw [List.forM_map]
  simp only [h]

lemma preflightPairs_unrecorded (cs : List Cluster) :
    preflightPairs (cs.map unrecorded) = preflightPairs cs := by
  induction cs with
  | nil => rfl
  | cons a rest ih =>
      rw [List.map_cons, preflightPairs, preflightPairs, ih,
        forM_unrecorded (preflightPair_unrecorded a)]

lemma preflight_unrecorded (cs : List Cluster) :
    preflight op (cs.map unrecorded) = preflight op cs := by
  cases cs with
  | nil => rfl
  | cons a rest =>
      rw [List.map_cons, preflight, preflight, List.head?_cons, List.head?_cons, Checked.ofOption,
        Checked.ofOption, Checked.ok_bind, Checked.ok_bind, ← List.map_cons,
        preflightPairs_unrecorded, forM_unrecorded (preflightOne_unrecorded a)]

/-! ### The recording -/

/-- One record. -/
lemma recordPeers_eq {c : Cluster} (hload : op.loadCluster g n = .ok c) (hst : c.status ≠ none) :
    recordPeers op g n (l.filter (· ≠ n)) = .ok (g.save (recorded l n c)) := by
  obtain ⟨st, hst⟩ := Option.ne_none_iff_exists'.mp hst
  rw [recordPeers, hload, Checked.ok_bind, hst]
  simp [Checked.ofOption, recorded, hst, Cluster.withStatus, pure, Except.pure]

lemma save_recorded {c : Cluster} (hc : g.cluster n = some c) (m : String) :
    (g.save (recorded l n c)).cluster m =
      if m = n then (g.cluster m).map (recorded l m) else g.cluster m := by
  have hname : (recorded l n c).name = n := (g.named hc : c.name = n)
  change Function.update g.cluster (recorded l n c).name (some (recorded l n c)) m = _
  rw [hname]
  split_ifs with hm
  · rw [hm, Function.update_self, hc, Option.map_some]
  · rw [Function.update_of_ne hm]

/-- The loop, on clusters that load and have a status. -/
lemma recordMesh_eq {part : List String} (hpart : ∀ n ∈ part, n ∈ l)
    (hload : ∀ n ∈ part, ∃ c, op.loadCluster g n = .ok c ∧ c.status ≠ none) :
    ∃ k, recordMesh op l g part = .ok k ∧ ∀ m, k.cluster m =
      if m ∈ part then (g.cluster m).map (recorded l m) else g.cluster m := by
  induction part generalizing g with
  | nil => exact ⟨g, rfl, by simp⟩
  | cons n rest ih =>
      obtain ⟨c, hc, hst⟩ := hload n (by simp)
      have hsave := save_recorded (l := l) (Operator.loadCluster_eq_ok hc)
      have hpartly : Partly l g (g.save (recorded l n c)) := by
        intro m
        rw [hsave]
        split_ifs with hm
        · exact Or.inr ⟨hm ▸ hpart n (by simp), rfl⟩
        · exact Or.inl rfl
      obtain ⟨k, hk, hcluster⟩ := ih (fun m hm => hpart m (List.mem_cons_of_mem n hm))
        (g := g.save (recorded l n c)) fun m hm => by
          obtain ⟨d, hd, hdst⟩ := hload m (List.mem_cons_of_mem n hm)
          obtain ⟨d', hd', rfl | rfl⟩ := hpartly.load hd
          · exact ⟨_, hd', hdst⟩
          · exact ⟨_, hd', by simpa [recorded] using hdst⟩
      refine ⟨k, ?_, fun m => ?_⟩
      · rw [recordMesh, List.foldlM_cons, recordPeers_eq hc hst, Checked.ok_bind]
        exact hk
      · rw [hcluster, hsave]
        by_cases hm : m = n
        · subst hm
          simp [Option.map_map, Function.comp_def, recorded_recorded]
        · simp [hm]

/-! ### Connect, run again -/

lemma contexts_partly (h : Partly l f g) {part : List String} {cs : List Cluster}
    (hcs : part.mapM (op.clusterContext f) = .ok cs) :
    ∃ cs', part.mapM (op.clusterContext g) = .ok cs' ∧ cs'.map unrecorded = cs.map unrecorded := by
  rw [Checked.mapM_eq_ok] at hcs
  induction hcs with
  | nil => exact ⟨[], rfl, rfl⟩
  | @cons n c part cs hc _ ih =>
      obtain ⟨c', hc', hor⟩ := h.context hc
      obtain ⟨cs', hcs', hsame⟩ := ih
      refine ⟨c' :: cs', ?_, ?_⟩
      · rw [Checked.mapM_eq_ok] at hcs' ⊢
        exact List.Forall₂.cons hc' hcs'
      · rw [List.map_cons, List.map_cons, hsame]
        rcases hor with rfl | rfl
        · rfl
        · rw [unrecorded_recorded]

/-- What a connect needs of its clusters. -/
structure Connectable (op : Operator) (f : Fleet) (names l : List String) : Prop where
  found : members op f names = .ok l
  ready : ∃ cs, l.mapM (op.clusterContext f) = .ok cs ∧ preflight op cs = .ok ()

namespace Connectable

lemma loads (h : Connectable op f names l) : ∀ n ∈ l, Loads op f n := by
  obtain ⟨cs, hcs, -⟩ := h.ready
  exact fun n hn => Checked.exists_of_mapM hcs hn

lemma status (h : Connectable op f names l) :
    ∀ n ∈ l, ∃ c, op.loadCluster f n = .ok c ∧ c.status ≠ none := by
  intro n hn
  obtain ⟨cs, hcs, hpre⟩ := h.ready
  rw [Checked.mapM_eq_ok] at hcs
  obtain ⟨c, hc, hcontext⟩ := Checked.exists_of_forall₂ hcs.flip n hn
  rw [Operator.clusterContext, Checked.check_bind_eq_ok] at hcontext
  refine ⟨c, hcontext.2, fun hnone => ?_⟩
  rw [preflight, Checked.bind_eq_ok] at hpre
  obtain ⟨first, -, hpre⟩ := hpre
  rw [Checked.check_bind_eq_ok] at hpre
  have hone : forM cs (preflightOne op first) = .ok () := hpre.1
  have hable := (preflightOne_eq_ok.mp (Checked.forM_eq_ok.mp hone c hc)).2.1
  simp [canFederate, hnone] at hable

/-- It is the same after an interrupted one. -/
lemma partly (h : Connectable op f names l) (hpart : Partly l f g) : Connectable op g names l := by
  refine ⟨members_partly hpart h.found h.loads, ?_⟩
  obtain ⟨cs, hcs, hpre⟩ := h.ready
  obtain ⟨cs', hcs', hsame⟩ := contexts_partly hpart hcs
  refine ⟨cs', hcs', ?_⟩
  rw [← preflight_unrecorded, hsame, preflight_unrecorded, hpre]

end Connectable

lemma cmdConnect_eq_ok : cmdConnect op f names = .ok f' ↔
    (2 ≤ names.length ∧ ∀ n ∈ names, Operator.validateName n = .ok () ∧ names.count n ≤ 1) ∧
      ∃ l, Connectable op f names l ∧ recordMesh op l f l = .ok f' := by
  have hforM : ∀ k : String → Except Raised Unit,
      names.forM k = .ok () ↔ ∀ n ∈ names, k n = .ok () := fun _ => Checked.forM_eq_ok
  simp only [cmdConnect, connect, Checked.bind_eq_ok, Checked.refuseIf_eq_ok, hforM,
    Checked.exists_unit, not_lt]
  constructor
  · rintro ⟨hlen, hnames, l, hl, cs, hcs, hpre, hrec⟩
    exact ⟨⟨hlen, hnames⟩, l, ⟨hl, cs, hcs, hpre⟩, hrec⟩
  · rintro ⟨⟨hlen, hnames⟩, l, ⟨hl, cs, hcs, hpre⟩, hrec⟩
    exact ⟨hlen, hnames, l, hl, cs, hcs, hpre, hrec⟩

/-- An interrupted connect leaves part of its records behind. -/
lemma Partly.interrupted (h : Connectable op f names l) (hpart : Partly l f g)
    (hg : Interrupted op names g g') : Partly l f g' := by
  rcases hg with rfl | ⟨l', cs, part, hl', -, -, hsub, hrec⟩
  · exact hpart
  · have hagain := h.partly hpart
    obtain rfl := Except.ok.inj (hl'.symm.trans hagain.found)
    obtain ⟨k, hk, hcluster⟩ := @recordMesh_eq op g _ _ (fun n hn => hsub.subset hn)
      fun n hn => hagain.status n (hsub.subset hn)
    obtain rfl := Except.ok.inj (hrec.symm.trans hk)
    intro m
    rw [hcluster]
    split_ifs with hm
    · refine Or.inr ⟨hsub.subset hm, ?_⟩
      rcases hpart m with hsame | ⟨-, hsome⟩
      · rw [hsame]
      · simp [hsome, Option.map_map, Function.comp_def, recorded_recorded]
    · exact hpart m

/-- **Interrupted between its records any number of times and run again, a connect leaves exactly
what it would have left at once.** -/
theorem connect_resumes (h : cmdConnect op f names = .ok f')
    (runs : Relation.ReflTransGen (Interrupted op names) f g) : cmdConnect op g names = .ok f' := by
  obtain ⟨hnames, l, hl, hrec⟩ := cmdConnect_eq_ok.mp h
  have hpart : Partly l f g := by
    induction runs with
    | refl => exact Partly.refl
    | tail _ last ih => exact ih.interrupted hl last
  have hagain := hl.partly hpart
  obtain ⟨k, hk, hcluster⟩ := recordMesh_eq (g := f) (fun _ hn => hn) hl.status
  obtain ⟨k', hk', hcluster'⟩ := recordMesh_eq (g := g) (fun _ hn => hn) hagain.status
  obtain rfl := Except.ok.inj (hrec.symm.trans hk)
  refine cmdConnect_eq_ok.mpr ⟨hnames, l, hagain, ?_⟩
  rw [hk', Except.ok.injEq]
  ext1
  funext m
  rw [hcluster, hcluster']
  rcases hpart m with hsame | ⟨hm, hsome⟩
  · rw [hsame]
  · simp [hm, hsome, Option.map_map, Function.comp_def, recorded_recorded]

/-! ### Disconnect -/

lemma sorted_filter_sorted {p : String → Bool} : sorted ((sorted (l.filter p)).filter p) =
    sorted (l.filter p) := by
  have hall : (sorted (l.filter p)).filter p = sorted (l.filter p) := by
    rw [List.filter_eq_self]
    intro x hx
    exact (List.mem_filter.mp (mem_sorted.mp hx)).2
  have hsorted : (sorted (l.filter p)).Pairwise (· ≤ ·) := List.pairwise_insertionSort _ _
  rw [hall]
  exact hsorted.insertionSort_eq

lemma save_self {c : Cluster} (h : f.cluster c.name = some c) : f.save c = f := by
  ext1
  exact Function.update_eq_self_iff.mpr h.symm

/-- What a record changes for the loads. -/
lemma recordPeers_load {peers : List String} (h : recordPeers op f n peers = .ok g) :
    ∃ c c' st, op.loadCluster f n = .ok c ∧ c.status = some st ∧
      c' = c.withStatus { st with mesh := sorted peers } ∧ g = f.save c' ∧
      op.loadCluster g n = .ok c' ∧ ∀ m ≠ n, op.loadCluster g m = op.loadCluster f m := by
  simp only [recordPeers, Checked.bind_eq_ok, Checked.ofOption_eq_ok, Checked.pure_eq_ok] at h
  obtain ⟨c, hload, st, hst, rfl⟩ := h
  have hname : c.name = n := f.named (Operator.loadCluster_eq_ok hload)
  refine ⟨c, c.withStatus { st with mesh := sorted peers }, st, hload, hst, rfl, rfl, ?_,
    fun m hm => ?_⟩
  · have hself : (f.save (c.withStatus { st with mesh := sorted peers })).cluster n =
        some (c.withStatus { st with mesh := sorted peers }) := by
      rw [← hname]
      exact Function.update_self ..
    refine load_of_same hload hself rfl ?_
    rw [Operator.managedFrom, Operator.managedFrom, hst]
    rfl
  · have hother :
        (f.save (c.withStatus { st with mesh := sorted peers })).cluster m = f.cluster m := by
      rw [← hname] at hm
      exact Function.update_of_ne hm ..
    rw [Operator.loadCluster, hother, ← Operator.loadCluster]

lemma cmdDisconnect_eq {a b : String} {c pc : Cluster} (ha : Operator.validateName a = .ok ())
    (hb : Operator.validateName b = .ok ()) (hne : a ≠ b) (hc : op.loadCluster f a = .ok c)
    (hpc : op.loadCluster f b = .ok pc) :
    cmdDisconnect op f a b = if b ∈ meshOf c then disconnect op f a (some pc) b else
      .error (.usageError s!"clusters {a} and {b} are not connected (tkctl get clusters)") := by
  simp only [cmdDisconnect, Operator.clusterContext, ha, hb, hc, hpc, peerOf, Checked.ok_bind,
    Checked.refuseIf, if_neg hne]
  by_cases hmem : b ∈ meshOf c
  · rw [if_neg (not_not.mpr hmem), if_pos hmem, Checked.ok_bind]
  · rw [if_pos hmem, if_neg hmem, Checked.error_bind]

/-- A record that is there already changes nothing. -/
lemma recordPeers_again {peers : List String} {c : Cluster} {st : Status}
    (hload : op.loadCluster f n = .ok c) (hst : c.status = some st)
    (hmesh : st.mesh = sorted peers) :
    recordPeers op f n peers = .ok f := by
  have hcluster := Operator.loadCluster_eq_ok hload
  have hsame : c.withStatus { st with mesh := sorted peers } = c := by
    rw [← hmesh, Cluster.withStatus, ← hst]
  rw [recordPeers, hload, Checked.ok_bind, hst]
  simp only [Checked.ofOption, Checked.ok_bind, hsame, pure, Except.pure]
  rw [save_self (by rw [f.named hcluster, hcluster])]

/-- **A disconnect that was stopped between its two records** is refused when it is run again, as
often as one likes; from the other side it is ended, and leaves what it would have left at once. -/
theorem disconnect_interrupted {a b : String} (h : cmdDisconnect op f a b = .ok f') (hb : f.Has b)
    (hg : forgetPeer op f a b = .ok g) :
    cmdDisconnect op g a b =
      .error (.usageError s!"clusters {a} and {b} are not connected (tkctl get clusters)") ∧
    cmdDisconnect op g b a = if a ∈ f.peers b then .ok f' else
      .error (.usageError s!"clusters {b} and {a} are not connected (tkctl get clusters)") := by
  simp only [cmdDisconnect, Checked.bind_eq_ok, Checked.refuseIf_eq_ok] at h
  obtain ⟨⟨⟩, ha', ⟨⟩, hb', -, hne, c, hc, peer, hpeer, -, -, h⟩ := h
  rw [Operator.clusterContext, ha', Checked.ok_bind] at hc
  rw [Operator.clusterContext, hb', Checked.ok_bind] at hpeer
  cases peer with
  | none => exact absurd hb (peerOf_loadCluster_none hpeer)
  | some pc =>
      have hpc : op.loadCluster f b = .ok pc := by
        cases hload : op.loadCluster f b with
        | error e => rw [hload] at hpeer; cases e <;> simp [peerOf] at hpeer
        | ok pc' => rw [hload] at hpeer; simpa [peerOf] using hpeer
      have hpeers : f.peers b = meshOf pc := Fleet.peers_of_cluster (Operator.loadCluster_eq_ok hpc)
      rw [disconnect, hg, Checked.ok_bind] at h
      rw [forgetPeer, hc, Checked.ok_bind] at hg
      obtain ⟨d, c', st, hd, hst, hc', -, hga, hother⟩ := recordPeers_load hg
      have hgb : op.loadCluster g b = .ok pc := (hother b (Ne.symm hne)).trans hpc
      have hmesh : meshOf c' = sorted ((meshOf c).filter (· ≠ b)) := by rw [hc']; rfl
      obtain ⟨-, -, -, -, -, -, -, -, hother'⟩ := recordPeers_load h
      have hfa : op.loadCluster f' a = .ok c' := (hother' a hne).trans hga
      rw [cmdDisconnect_eq ha' hb' hne hga hgb, cmdDisconnect_eq hb' ha' (Ne.symm hne) hgb hga,
        hpeers]
      refine ⟨if_neg (by simp [hmesh]), if_congr Iff.rfl ?_ rfl⟩
      -- the second record finds what the first run wrote
      rw [disconnect, forgetPeer, hgb, Checked.ok_bind, h, Checked.ok_bind, hmesh]
      refine recordPeers_again hfa (by rw [hc']; rfl) ?_
      exact sorted_filter_sorted.symm

/-! ### Three clusters -/

lemma members_triangle :
    members busyOperator fourClusters ["a", "b", "c"] = .ok ["a", "b", "c"] := by
  have h : (members busyOperator fourClusters ["a", "b", "c"]).toOption = some ["a", "b", "c"] := by
    rw [members, membersLoop_eq_rootsLoop]
    decide
  cases hl : members busyOperator fourClusters ["a", "b", "c"] with
  | error e => simp [hl, Except.toOption] at h
  | ok l => simpa [hl, Except.toOption] using h

/-- A connect that was stopped behind its first record. -/
theorem connect_resumes_triangle : ∃ f' g, Interrupted busyOperator ["a", "b", "c"] fourClusters g ∧
    "b" ∈ g.peers "a" ∧ "a" ∉ g.peers "b" ∧
    cmdConnect busyOperator fourClusters ["a", "b", "c"] = .ok f' ∧
    cmdConnect busyOperator g ["a", "b", "c"] = .ok f' := by
  have h := chainRun_peers
  simp only [chainRun, Checked.bind_eq_ok, Checked.pure_eq_ok] at h
  obtain ⟨-, ⟨f', h₁, -⟩, -⟩ := h
  obtain ⟨-, l, hl, -⟩ := cmdConnect_eq_ok.mp h₁
  obtain rfl := Except.ok.inj (hl.found.symm.trans members_triangle)
  obtain ⟨cs, hcs, hpre⟩ := hl.ready
  obtain ⟨g, hg, -⟩ := @recordMesh_eq _ fourClusters ["a", "b", "c"] ["a"] (by simp) fun n hn =>
      hl.status n (by simp at hn; simp [hn])
  have hstop : Interrupted busyOperator ["a", "b", "c"] fourClusters g :=
    Or.inr ⟨_, cs, ["a"], hl.found, hcs, hpre, by simp, hg⟩
  have hpeers := (recordMesh_peers hg).2
  refine ⟨f', g, hstop, (hpeers _ _).mpr (by simp), fun hno => ?_, h₁,
    connect_resumes h₁ (Relation.ReflTransGen.single hstop)⟩
  have hnone := (hpeers _ _).mp hno
  simp [peers_fourClusters] at hnone

/-- A disconnect that was stopped behind its first record. -/
theorem disconnect_interrupted_triangle : ∃ f f' g,
    cmdConnect busyOperator fourClusters ["a", "b", "c"] = .ok f ∧
    cmdDisconnect busyOperator f "a" "b" = .ok f' ∧ forgetPeer busyOperator f "a" "b" = .ok g ∧
    cmdDisconnect busyOperator g "a" "b" =
      .error (.usageError "clusters a and b are not connected (tkctl get clusters)") ∧
    cmdDisconnect busyOperator g "b" "a" = .ok f' := by
  have h := chainRun_peers
  simp only [chainRun, Checked.bind_eq_ok, Checked.pure_eq_ok] at h
  obtain ⟨-, ⟨f, h₁, f', h₂, -⟩, -⟩ := h
  have hmem := mem_members members_triangle
  have hb : f.Has "b" := ((cmdConnect_peers h₁).1 "b").mpr
    ((cmdConnect_peers h₁).2.1 "b" ((hmem _).mp (by simp)))
  have hpeer : "a" ∈ f.peers "b" :=
    (((cmdConnect_peers h₁).2.2 "b" "a").1 ((hmem _).mp (by simp))).mpr
      ⟨(hmem _).mp (by simp), by decide⟩
  have hforget : ∃ g, forgetPeer busyOperator f "a" "b" = .ok g := by
    have hdis := h₂
    simp only [cmdDisconnect, Checked.bind_eq_ok] at hdis
    obtain ⟨-, -, -, -, -, -, c, -, peer, -, -, -, hdis⟩ := hdis
    cases peer with
    | none => exact ⟨f', hdis⟩
    | some pc =>
        rw [disconnect, Checked.bind_eq_ok] at hdis
        obtain ⟨g, hg, -⟩ := hdis
        exact ⟨g, hg⟩
  obtain ⟨g, hg⟩ := hforget
  obtain ⟨hrefused, hended⟩ := disconnect_interrupted h₂ hb hg
  rw [if_pos hpeer] at hended
  exact ⟨f, f', g, h₁, h₂, hg, hrefused, hended⟩

end Tk8s
