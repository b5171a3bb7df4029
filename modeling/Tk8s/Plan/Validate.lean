import Mathlib.Data.List.Nodup
import Tk8s.Plan.Range

/-!
`create/plan.py`: the rules a `-f` file and the flags share.

* `validate`: the datapath, every node group, the control-plane count, then `validateHosts`.
* `validateGroups_eq_ok`: what the loop over the groups checks.
* `validate_ok`: **what an accepted definition satisfies**, as `Accepted`.
-/

namespace Tk8s

open Net

/-! ### Node sizes -/

/-- `[0-9]+[GgMm]`, the whole text. -/
def sizePattern (s : String) : Bool :=
  match s.toList.reverse with
  | c :: cs => "GgMm".toList.contains c && !cs.isEmpty && cs.all Char.isDigit
  | [] => false

/-- podman's size: `<n>g` is n GiB, `<n>m` is n MiB. -/
def memoryBytes (memory : String) : ℕ :=
  let n := Text.number (String.ofList memory.toList.dropLast)
  n * if memory.toList.getLast?.map Char.toLower = some 'g' then 2 ^ 30 else 2 ^ 20

def checkMemoryMinimum (memory : String) : Except Raised Unit :=
  Checked.refuseIf (memoryBytes memory < 2 * 2 ^ 30)
    (.planError s!"node memory \"{memory}\" is below the minimum 2G (kubelet reserves 512Mi and evicts below 500Mi)")

/-- A checked size, lower-cased, is a `memory` of `cluster.yaml`. -/
lemma memoryPattern_toLower {s : String} (h : sizePattern s = true) :
    memoryPattern s.toLower = true := by
  have hlist : s.toLower.toList = s.toList.map Char.toLower := by
    rw [show s.toLower = s.map Char.toLower from rfl, String.toList_map]
  unfold sizePattern at h
  rw [memoryPattern, hlist, ← List.map_reverse]
  split at h
  · rename_i c cs hrev
    simp only [Bool.and_eq_true, List.contains_iff_mem] at h
    obtain ⟨⟨hc, hne⟩, hall⟩ := h
    rw [hrev, List.map_cons]
    have hunit : (c.toLower = 'g' || c.toLower = 'm') = true := by
      have hmem : c ∈ ['G', 'g', 'M', 'm'] := hc
      simp only [List.mem_cons, List.not_mem_nil, or_false] at hmem
      rcases hmem with rfl | rfl | rfl | rfl <;> decide
    have hdigit : (cs.map Char.toLower).all Char.isDigit = true := by
      rw [List.all_map]
      refine List.all_eq_true.mpr fun d hd => ?_
      have hdd := List.all_eq_true.mp hall d hd
      have hlow : d.toLower = d := by
        simp only [Char.isDigit, Bool.and_eq_true, decide_eq_true_eq, UInt32.le_iff_toNat_le] at hdd
        refine dif_neg fun hup => ?_
        simp only [ge_iff_le, UInt32.le_iff_toNat_le] at hup
        exact absurd (hup.1.trans hdd.2) (by decide)
      rw [Function.comp_apply, hlow, hdd]
    simp only [hunit, hdigit, List.isEmpty_map, Bool.and_true, Bool.true_and]
    exact hne
  · simp at h

/-! ### Groups -/

/-- The rules of one group; `names` are the explicit names seen before. -/
def validateGroup (names : List NodeName) (g : NodeGroup) : Except Raised Unit := do
  Checked.refuseIf (sizePattern g.memory = false)
    (.planError s!"node memory \"{g.memory}\" must be a number followed by G or M, e.g. 4G or 4096M (podman does not accept 4Gi)")
  checkMemoryMinimum g.memory
  match g.name with
  | none => return
  | some n =>
      Checked.refuseIf (g.count ≠ 1)
        (.planError s!"node name \"{n.text}\" cannot be combined with count {(g.count : ℕ)}; a named entry is one node")
      Checked.refuseIf (n ∈ names) (.planError s!"node name \"{n.text}\" is used twice")

/-- The loop over the groups. -/
def validateGroups (names : List NodeName) : List NodeGroup → Except Raised Unit
  | [] => .ok ()
  | g :: rest => do
      validateGroup names g
      validateGroups (g.name.toList ++ names) rest

/-- What the loop asks of a group by itself. -/
structure GroupOk (g : NodeGroup) : Prop where
  size : sizePattern g.memory = true
  minimum : 2 * 2 ^ 30 ≤ memoryBytes g.memory
  named : g.name.isSome = true → g.count = 1

lemma validateGroup_eq_ok {names : List NodeName} {g : NodeGroup} :
    validateGroup names g = .ok () ↔ GroupOk g ∧ ∀ n ∈ g.name, n ∉ names := by
  rw [validateGroup, checkMemoryMinimum]
  cases hn : g.name with
  | none =>
      simp only [Checked.check_bind_eq_ok, Checked.refuseIf_eq_ok, Bool.not_eq_false, Nat.not_lt,
        Checked.pure_eq_ok]
      constructor
      · rintro ⟨h1, h2, -⟩
        exact ⟨⟨h1, h2, by simp [hn]⟩, by simp⟩
      · rintro ⟨⟨h1, h2, -⟩, -⟩
        exact ⟨h1, h2, trivial⟩
  | some n =>
      simp only [Checked.check_bind_eq_ok, Checked.refuseIf_eq_ok, Bool.not_eq_false, Nat.not_lt,
        ne_eq, not_not]
      constructor
      · rintro ⟨h1, h2, h3, h4⟩
        exact ⟨⟨h1, h2, fun _ => h3⟩, by simpa using h4⟩
      · rintro ⟨⟨h1, h2, h3⟩, h4⟩
        exact ⟨h1, h2, h3 (by simp [hn]), by simpa using h4⟩

/-- **The loop over the groups**: each is well formed, and no explicit name comes twice. -/
lemma validateGroups_eq_ok {names : List NodeName} {gs : List NodeGroup} :
    validateGroups names gs = .ok () ↔
      (∀ g ∈ gs, GroupOk g) ∧ (gs.filterMap (·.name)).Nodup ∧
        ∀ n ∈ gs.filterMap (·.name), n ∉ names := by
  induction gs generalizing names with
  | nil => simp [validateGroups]
  | cons g rest ih =>
      simp only [validateGroups, Checked.check_bind_eq_ok, validateGroup_eq_ok, ih,
        List.forall_mem_cons]
      cases hn : g.name with
      | none =>
          rw [List.filterMap_cons_none hn]
          simp [and_assoc]
      | some n =>
          rw [List.filterMap_cons_some hn, List.nodup_cons, List.forall_mem_cons]
          simp only [Option.toList_some, List.singleton_append, List.mem_cons, not_or,
            Option.mem_def, Option.some.injEq, forall_eq']
          constructor
          · rintro ⟨⟨hg, hnn⟩, hgs, hnd, hall⟩
            exact ⟨⟨hg, hgs⟩, ⟨fun hmem => (hall n hmem).1 rfl, hnd⟩, hnn,
              fun m hm => (hall m hm).2⟩
          · rintro ⟨⟨hg, hgs⟩, ⟨hnot, hnd⟩, hnn, hall⟩
            exact ⟨⟨hg, hnn⟩, hgs, hnd, fun m hm => ⟨fun h => hnot (h ▸ hm), hall m hm⟩⟩

/-! ### The definition as a whole -/

/-- The number of nodes of a role. -/
def groupCount (role : Role) (gs : List NodeGroup) : ℕ :=
  ((gs.filter (·.role = role)).map fun g => (g.count : ℕ)).sum

/-- A placement a group asks for: neither omitted nor `auto`. -/
def NodeGroup.pinned (g : NodeGroup) : Option String :=
  g.host.filter (· ≠ "auto")

/-- What a multi-host definition may and may not say. -/
def validateHosts (u : UserCluster) : Except Raised Unit := do
  let s := u.spec
  let rng := s.network.bind (·.range)
  Checked.refuseIf ((s.hosts = none) ≠ (rng = none))
    (.planError "spec.hosts needs spec.network.range (and the other way round)")
  match s.hosts with
  | none =>
      Checked.refuseIf ((∃ g ∈ s.nodes, g.pinned ≠ none)
          ∨ (s.network.bind (·.routerHosts)).getD [] ≠ [])
        (.planError "host placement (host:, router_hosts) needs spec.hosts")
  | some hosts =>
      let net := s.network.getD {}
      Checked.refuseIf (s.gvisor = true)
        (.planError "gvisor is not supported on a multi-host cluster yet")
      Checked.refuseIf (net.nodes ≠ none ∨ net.router ≠ none)
        (.planError "spec.network.nodes and router are allocated from spec.network.range on a multi-host cluster")
      let names := hosts.map (·.name.text)
      refuseTwice names fun n => .planError s!"host name {n} is used twice"
      Checked.refuseIf (1 < hosts.countP (·.ssh.isNone))
        (.planError "at most one host without ssh (the one tkctl runs on)")
      s.nodes.forM fun g =>
        match g.pinned with
        | none => pure ()
        | some h => Checked.refuseIf (h ∉ names) (.planError s!"node host {h} is not in spec.hosts")
      (net.routerHosts.getD []).forM fun r =>
        Checked.refuseIf (r ∉ names) (.planError s!"router host {r} is not in spec.hosts")
      let want := (net.routers.getD .one).toNat
      Checked.refuseIf (∃ l ∈ net.routerHosts, l.length ≠ want)
        (.planError s!"router_hosts must name {want} hosts")
      let _ ← parseRange ((rng.map (·.text)).getD "")

/-- The rules a `-f` file and the flags share. -/
def validate (u : UserCluster) : Except Raised Unit := do
  let s := u.spec
  Checked.refuseIf (s.gvisor = true ∧ s.datapath = some .netkit)
    (.planError "gvisor requires the veth datapath; gVisor sandboxes have no network under netkit")
  Checked.refuseIf (s.nodes = [])
    (.planError "spec.nodes must list at least one control-plane node")
  validateGroups [] s.nodes
  Checked.refuseIf (s.nodes.head?.map (·.role) ≠ some .controlPlane)
    (.planError "the first entry in spec.nodes must be a control-plane (it runs kubeadm init)")
  let cps := groupCount .controlPlane s.nodes
  Checked.refuseIf (cps % 2 = 0)
    (.planError s!"control-plane count {cps} must be odd (1, 3, 5) for etcd quorum")
  Checked.refuseIf (5 < cps)
    (.planError s!"control-plane count {cps} exceeds the limit: at most 5 (the apiserver LB has five backend slots)")
  validateHosts u

/-- What the rules leave, whatever the shape. -/
structure Accepted (u : UserCluster) : Prop where
  groups : ∀ g ∈ u.spec.nodes, GroupOk g
  names : (u.spec.nodes.filterMap (·.name)).Nodup
  first : u.spec.nodes.head?.map (·.role) = some .controlPlane
  odd : groupCount .controlPlane u.spec.nodes % 2 = 1
  atMost : groupCount .controlPlane u.spec.nodes ≤ 5
  together : u.spec.hosts = none ↔ u.spec.network.bind (·.range) = none

/-- What the rules leave of a multi-host definition. -/
structure AcceptedHosts (u : UserCluster) (net : UserNetwork) (hosts : List UserHost) : Prop where
  network : u.spec.network = some net
  gvisor : u.spec.gvisor = false
  nodes : net.nodes = none
  router : net.router = none
  nodup : (hosts.map (·.name.text)).Nodup
  operator : hosts.countP (·.ssh.isNone) ≤ 1
  pinned : ∀ g ∈ u.spec.nodes, ∀ h ∈ g.pinned, h ∈ hosts.map (·.name.text)
  routerHosts : ∀ l ∈ net.routerHosts, (∀ r ∈ l, r ∈ hosts.map (·.name.text)) ∧
    l.length = (net.routers.getD .one).toNat
  range : ∃ rng pool, net.range = some rng ∧ parseRange rng.text = .ok pool

/-- **An accepted definition satisfies the rules.** -/
theorem accepted_of_validate {u : UserCluster} (h : validate u = .ok ()) : Accepted u := by
  simp only [validate, Checked.check_bind_eq_ok, Checked.refuseIf_eq_ok, validateGroups_eq_ok, ne_eq,
    not_not] at h
  obtain ⟨-, -, ⟨hgroups, hnames, -⟩, hfirst, hodd, hmost, hhosts⟩ := h
  refine ⟨hgroups, hnames, hfirst, by omega, by omega, ?_⟩
  simp only [validateHosts, Checked.check_bind_eq_ok, Checked.refuseIf_eq_ok, ne_eq,
    not_not] at hhosts
  exact iff_of_eq hhosts.1

/-- **An accepted multi-host definition satisfies the rules about hosts.** -/
theorem acceptedHosts_of_validate {u : UserCluster} (h : validate u = .ok ())
    {hosts : List UserHost} (hu : u.spec.hosts = some hosts) :
    ∃ net, AcceptedHosts u net hosts := by
  have htog := (accepted_of_validate h).together
  simp only [validate, Checked.check_bind_eq_ok] at h
  obtain ⟨-, -, -, -, -, -, hhosts⟩ := h
  simp only [validateHosts, hu, Checked.check_bind_eq_ok, Checked.refuseIf_eq_ok,
    refuseTwice_eq_ok, List.forM_eq_forM, Checked.forM_eq_ok, not_or, not_not, ne_eq] at hhosts
  obtain ⟨-, hgv, ⟨hnodes, hrouter⟩, hnd, hop, hpin, hrh, hlen, hrange⟩ := hhosts
  obtain ⟨pool, hpool, -⟩ := Checked.bind_eq_ok.mp hrange
  cases hnet : u.spec.network with
  | none => simp [hu, hnet] at htog
  | some net =>
      cases hrng : net.range with
      | none => simp [hu, hnet, hrng] at htog
      | some rng =>
          rw [hnet, Option.getD_some] at hnodes hrouter hrh hlen
          refine ⟨net, hnet, by simpa using hgv, hnodes, hrouter, hnd, by omega, ?_, ?_,
            rng, pool, hrng, ?_⟩
          · intro g hg h hgh
            have := hpin g hg
            rw [Option.mem_def.mp hgh] at this
            simpa using this
          · intro l hl
            refine ⟨fun r hr => ?_, by_contra fun hne => hlen ⟨l, hl, hne⟩⟩
            exact hrh r (by rw [Option.mem_def.mp hl]; exact hr)
          · simpa [hnet, hrng] using hpool

end Tk8s
