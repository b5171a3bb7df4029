import Tk8s.ClusterFile
import Tk8s.Create.Record
import Tk8s.Mesh.Ops
import Tk8s.Node.Edits
import Tk8s.Resume

/-!
`cluster.yaml` over the life of a cluster.

* `Update`: what tkctl changes in a cluster, through `model_copy`, which checks nothing;
  `Saved`: a planned cluster after any of them.
* `valid_of_resolve`: **what plan accepts passes the validators**, though `network_multi` puts its
  fields in unchecked; `valid_of_apply`: **an update keeps it so**.
* `roundTrip`: **every reachable cluster reads back from its text**, and is written as the same text
  again.
-/

namespace Tk8s

open Net

/-! ### Updates -/

/-- `record_peers`. -/
def Cluster.withPeers (c : Cluster) (peers : List String) : Except Raised Cluster := do
  let st ← Checked.ofOption .assertionError c.status
  return c.withStatus { st with mesh := sorted peers }

/-- What tkctl changes in a cluster. -/
inductive Update where
  /-- `record_cni`, `with_pod_cidrs`, or an entry of `status.completed`. -/
  | recording (r : Recording)
  /-- The end of `cmd_create_cluster`. -/
  | ready
  | peers (l : List String)
  /-- `with_node`, `marked_joined` or `without_node`. -/
  | node (e : Edit)

def Update.apply (c : Cluster) : Update → Except Raised Cluster
  | recording r => r.apply c
  | ready => .ok { c with status := c.status.map fun st => { st with phase := .ready } }
  | peers l => c.withPeers l
  | node e => e.apply c

/-- A cluster that plan made, resuming or not, after any updates. `status.completed` of the
`cluster.yaml` it resumed from is a dict. -/
inductive Saved : Cluster → Prop
  | resolved {u : UserCluster} {existing : Option Cluster} {f : Facts} {c : Cluster}
      (dict : ∀ c₀ ∈ existing, ∀ st ∈ c₀.status, (st.completed.map Prod.fst).Nodup)
      (planned : resolve u existing f = .ok c) : Saved c
  | updated {c c' : Cluster} {upd : Update} (before : Saved c) (last : upd.apply c = .ok c') :
      Saved c'

/-! ### The validators, read as a statement -/

/-- Where a node of this spec may run. -/
def Spec.Allows (s : Spec) (host : Option String) : Prop :=
  (s.hosts = none → host = none) ∧
    ∀ hosts ∈ s.hosts, ∃ h ∈ host, h ∈ hosts.map (·.name.text)

lemma Spec.allows_of_check {s : Spec} (h : s.check = .ok ()) :
    ∀ n ∈ s.nodes, s.Allows n.host := by
  intro n hn
  simp only [Spec.check, Checked.check_bind_eq_ok] at h
  obtain ⟨-, -, h⟩ := h
  cases hh : s.hosts with
  | none =>
      simp only [hh, Checked.check_bind_eq_ok, Checked.refuseIf_eq_ok, not_exists, not_and, ne_eq,
        not_not] at h
      refine ⟨fun _ => h.1 n hn, fun hosts hhosts => ?_⟩
      rw [hh] at hhosts
      simp at hhosts
  | some hosts =>
      rw [hh] at h
      refine ⟨fun hnone => by simp [hh] at hnone, fun hosts' hhosts => ?_⟩
      obtain rfl : hosts = hosts' := Option.some.inj (hh.symm.trans hhosts)
      exact (Spec.checkHosts_eq_ok.mp h).placed n hn

/-- A valid spec stays valid with other nodes, where each of them may run. -/
lemma Spec.check_withNodes {s : Spec} {nodes : List Node} (h : s.check = .ok ()) (hne : nodes ≠ [])
    (hall : ∀ n ∈ nodes, s.Allows n.host) : ({ s with nodes := nodes } : Spec).check = .ok () := by
  simp only [Spec.check, Checked.check_bind_eq_ok, Checked.refuseIf_eq_ok] at h ⊢
  obtain ⟨-, htog, h⟩ := h
  refine ⟨hne, htog, ?_⟩
  cases hh : s.hosts with
  | none =>
      simp only [hh, Checked.check_bind_eq_ok, Checked.refuseIf_eq_ok, not_exists, not_and, ne_eq,
        not_not] at h ⊢
      exact ⟨fun n hn => (hall n hn).1 hh, h.2⟩
  | some hosts =>
      simp only [hh] at h ⊢
      have hok := Spec.checkHosts_eq_ok.mp h
      exact Spec.checkHosts_eq_ok.mpr
        { nodup := hok.nodup, operator := hok.operator, routerHosts := hok.routerHosts
          placed := fun n hn => (hall n hn).2 hosts hh }

/-! ### Plan -/

lemma check_of_network {index : ℕ} {wantRouter : Option IPv4Address} {ha : Option Ha}
    {wantVip : Option IPv4Address} {routers : Option RouterCount} {net : Network}
    (h : network index wantRouter ha wantVip routers = .ok net) : net.check = .ok () := by
  simp only [network, Checked.bind_eq_ok, Checked.exists_unit, Checked.pure_eq_ok] at h
  obtain ⟨-, vipNet, -, -, vip, -, nodes, -, gateway, -, default, -, mesh, -, pods, -, services, -,
    hcheck, rfl⟩ := h
  exact hcheck

/-- A run is a segment of the pattern. -/
lemma rangeSegment_runText {run : List IPv4Address} (hne : run ≠ []) :
    rangeSegment (runText run) = true := by
  have hdigits : ∀ a : IPv4Address,
      (!a.text.isEmpty && a.text.toList.all fun c => c.isDigit || c = '.') = true := by
    intro a
    have hempty : a.text ≠ "" := by
      intro h
      have hparse := IPv4Address.parse_text a
      have hnone : IPv4Address.parse "" = none := by decide
      rw [h, hnone] at hparse
      simp at hparse
    have hall : ∀ c ∈ a.text.toList, (c.isDigit || decide (c = '.')) = true := by
      intro c hc
      simpa [IPv4Address.CharIn] using IPv4Address.charIn_of_mem_text hc
    simp [hempty, List.all_eq_true.mpr hall]
  cases run with
  | nil => exact absurd rfl hne
  | cons a l =>
      cases l with
      | nil =>
          simp [rangeSegment, runText, Text.partition_of_notMem (dash_notMem_text a), hdigits a,
            dash_notMem_text a]
      | cons b rest =>
          have hpart := Text.partition_append (dash_notMem_text a)
            ((a :: b :: rest).getLast (List.cons_ne_nil _ _)).text
          have htext : runText (a :: b :: rest) = a.text ++ String.singleton '-' ++
              ((a :: b :: rest).getLast (List.cons_ne_nil _ _)).text := rfl
          simp only [rangeSegment, htext, hpart, hdigits, Bool.true_or, Bool.and_self]

/-- **The text of a pool matches `RANGE`.** -/
theorem rangePattern_rangesText {pool : List IPv4Address} (hne : pool ≠ []) :
    rangePattern (rangesText pool) = true := by
  obtain ⟨runs, hsplit, hflat, hall⟩ := splitOn_rangesText hne
  have hspace : ∀ run : List IPv4Address,
      String.ofList ((runText run).toList.dropWhile (· = ' ')) = runText run := by
    intro run
    cases hl : (runText run).toList with
    | nil => rw [List.dropWhile_nil, ← hl, String.ofList_toList]
    | cons c cs =>
        have hmem : c ∈ (runText run).toList := by simp [hl]
        have hc : c ≠ ' ' := by
          intro hc
          rw [hc] at hmem
          rcases charIn_of_mem_runText hmem with (h | h) | h
          all_goals exact absurd h (by decide)
        rw [List.dropWhile_cons_of_neg (by simpa using hc), ← hl, String.ofList_toList]
  rw [rangePattern, hsplit]
  cases runs with
  | nil => exact absurd hflat.symm hne
  | cons r rest =>
      have hfirst := rangeSegment_runText (hall r List.mem_cons_self).ne_nil
      rw [List.map_cons]
      simp only [hfirst, Bool.true_and, List.all_eq_true]
      intro p hp
      obtain ⟨r', hr', rfl⟩ := List.mem_map.mp hp
      rw [hspace]
      exact rangeSegment_runText (hall r' (List.mem_cons_of_mem _ hr')).ne_nil

/-- The network of either shape passes its validators, though `network_multi` replaces most of it. -/
lemma checks_of_topology {u : UserCluster} {existing : Option Cluster} {f : Facts} {index : ℕ}
    {t : Topology} (h : topology u existing f index = .ok t) :
    t.net.check = .ok () ∧ ∀ r ∈ t.net.range, rangePattern r = true := by
  rw [topology] at h
  cases hu : u.spec.hosts with
  | none =>
      rw [hu] at h
      have hsingle := (resolveSingle_eq_ok.mp h).net
      exact ⟨check_of_network hsingle, by simp [(network_fields hsingle).2.2.1]⟩
  | some userHosts =>
      rw [hu] at h
      obtain ⟨p, hp⟩ := resolveMulti_eq_ok.mp h
      obtain ⟨byIndex, hby, hnet⟩ := networkMulti_eq_ok.mp hp.net
      have hcheck : byIndex.check = .ok () := check_of_network hby
      rw [hnet]
      refine ⟨hcheck, fun r hrange => ?_⟩
      obtain rfl := Option.some.inj hrange
      exact rangePattern_rangesText (ne_nil_of_parseRange hp.parsed)

/-- **What plan accepts passes the validators.** -/
theorem valid_of_resolve {u : UserCluster} {existing : Option Cluster} {f : Facts} {c : Cluster}
    (dict : ∀ c₀ ∈ existing, ∀ st ∈ c₀.status, (st.completed.map Prod.fst).Nodup)
    (h : resolve u existing f = .ok c) : Valid c := by
  obtain ⟨index, t, hr, rfl⟩ := resolve_eq_ok.mp h
  obtain ⟨hnet, hrange⟩ := checks_of_topology hr.built
  refine ⟨hr.spec, hnet, hrange, fun st hst => ?_⟩
  cases existing with
  | none =>
      obtain rfl := Option.some.inj hst
      exact List.nodup_nil
  | some c₀ => exact dict c₀ rfl st hst

/-! ### Updates keep the validators -/

lemma mem_keys_setCompleted {phase p : String} {time : ℕ} {l : List (String × ℕ)}
    (h : p ∈ (setCompleted phase time l).map Prod.fst) : p = phase ∨ p ∈ l.map Prod.fst := by
  induction l with
  | nil => exact Or.inl (by simpa [setCompleted] using h)
  | cons e rest ih =>
      rw [setCompleted] at h
      by_cases he : e.1 = phase
      · rw [if_pos he, List.map_cons, List.mem_cons] at h
        exact h.imp (fun hp => hp) fun hp => List.mem_cons_of_mem _ hp
      · rw [if_neg he, List.map_cons, List.mem_cons] at h
        rcases h with h | h
        · exact Or.inr (by simp [h])
        · exact (ih h).imp (fun hp => hp) fun hp => List.mem_cons_of_mem _ hp

/-- Assigning to a key of a dict leaves it a dict. -/
lemma nodup_setCompleted {phase : String} {time : ℕ} {l : List (String × ℕ)}
    (h : (l.map Prod.fst).Nodup) : ((setCompleted phase time l).map Prod.fst).Nodup := by
  induction l with
  | nil => simp [setCompleted]
  | cons e rest ih =>
      obtain ⟨hnot, hrest⟩ := List.nodup_cons.mp (List.map_cons ▸ h)
      rw [setCompleted]
      by_cases he : e.1 = phase
      · rw [if_pos he, List.map_cons]
        exact List.nodup_cons.mpr ⟨he ▸ hnot, hrest⟩
      · rw [if_neg he, List.map_cons]
        refine List.nodup_cons.mpr ⟨fun hmem => ?_, ih hrest⟩
        exact (mem_keys_setCompleted hmem).elim he hnot

/-- Nodes that run where these ran. -/
lemma Valid.withNodes {c : Cluster} {nodes : List Node} (h : Valid c) (hne : nodes ≠ [])
    (hall : ∀ n ∈ nodes, c.spec.Allows n.host) : Valid (c.withNodes nodes) where
  spec := Spec.check_withNodes h.spec hne hall
  network := h.network
  range := h.range
  completed := h.completed

/-- A status with the same completed phases. -/
lemma Valid.withStatus {c : Cluster} {st : Option Status} (h : Valid c)
    (hst : ∀ s ∈ st, (s.completed.map Prod.fst).Nodup) : Valid { c with status := st } where
  spec := h.spec
  network := h.network
  range := h.range
  completed := hst

lemma valid_of_recording {c c' : Cluster} {r : Recording} (h : Valid c) (hr : r.apply c = .ok c') :
    Valid c' := by
  have hmap : ∀ g : Status → Status, (∀ st, (st.completed.map Prod.fst).Nodup →
      ((g st).completed.map Prod.fst).Nodup) →
      ∀ s ∈ c.status.map g, (s.completed.map Prod.fst).Nodup := by
    intro g hg s hs
    obtain ⟨st, hst, rfl⟩ := Option.map_eq_some_iff.mp hs
    exact hg st (h.completed st hst)
  cases r with
  | cni datapath cilium =>
      obtain rfl := Except.ok.inj hr
      exact ⟨h.spec, h.network, h.range, hmap _ fun st hst => hst⟩
  | completed phase time =>
      obtain rfl := Except.ok.inj hr
      exact h.withStatus (hmap _ fun st hst => nodup_setCompleted hst)
  | podCidrs cidrs =>
      obtain ⟨nodes, hnodes, rfl⟩ := withPodCidrs_eq_ok.mp hr
      have hallows := Spec.allows_of_check h.spec
      have hne : c.spec.nodes ≠ [] := by
        intro hnone
        have hspec := h.spec
        simp [Spec.check, hnone, Checked.refuseIf] at hspec
      refine h.withNodes (fun hnone => ?_) fun n' hn' => ?_
      · rw [hnone, List.forall₂_nil_right_iff] at hnodes
        exact hne hnodes
      · obtain ⟨n, hn, hassigned⟩ := Checked.exists_of_forall₂ hnodes n' hn'
        have hkept := congrArg Node.host (assignCidr_unrecorded hassigned)
        have hhost : n'.host = n.host := hkept
        rw [hhost]
        exact hallows n hn

lemma valid_of_edit {c c' : Cluster} {e : Edit} (h : Valid c) (he : e.apply c = .ok c') :
    Valid c' := by
  have hallows := Spec.allows_of_check h.spec
  cases e with
  | add req =>
      obtain ⟨n, hn, rfl⟩ := Checked.map_eq_ok.mp he
      obtain ⟨-, -, -, -, hhost⟩ := planAdd_eq_ok hn
      have hlisted := hostForRequest_eq_ok hhost
      refine h.withNodes (by simp) fun m hm => ?_
      rcases List.mem_append.mp hm with hm | hm
      · exact hallows m hm
      · obtain rfl := List.mem_singleton.mp hm
        refine ⟨hlisted.1, fun hosts hhosts => ?_⟩
        obtain ⟨name, hname, hmem⟩ := hlisted.2 fun hnone => by simp [hnone] at hhosts
        refine ⟨name, hname, ?_⟩
        rwa [Cluster.hostNames, Option.mem_def.mp hhosts] at hmem
  | joined name =>
      obtain rfl := Except.ok.inj he
      refine h.withNodes (fun hnone => ?_) fun m hm => ?_
      · have hspec := h.spec
        simp [Spec.check, List.map_eq_nil_iff.mp hnone, Checked.refuseIf] at hspec
      · obtain ⟨n, hn, rfl⟩ := List.mem_map.mp hm
        rcases n.joinedIf_eq name with hj | hj
        all_goals
          rw [hj]
          exact hallows n hn
  | remove name =>
      obtain ⟨rfl, hkeep⟩ := withoutNode_eq_ok he
      refine h.withNodes (fun hnone => ?_) fun m hm => hallows m (List.mem_of_mem_filter hm)
      cases hnodes : c.spec.nodes with
      | nil =>
          have hspec := h.spec
          simp [Spec.check, hnodes, Checked.refuseIf] at hspec
      | cons first rest =>
          have hfirst := hkeep first (by simp [hnodes])
          rw [hnodes, List.filter_cons_of_pos (by simpa using hfirst)] at hnone
          simp at hnone

/-- **An update keeps the validators satisfied**, though it runs none of them. -/
theorem valid_of_apply {c c' : Cluster} {upd : Update} (h : Valid c) (hupd : upd.apply c = .ok c') :
    Valid c' := by
  cases upd with
  | recording r => exact valid_of_recording h hupd
  | node e => exact valid_of_edit h hupd
  | ready =>
      obtain rfl := Except.ok.inj hupd
      refine h.withStatus fun s hs => ?_
      obtain ⟨st, hst, rfl⟩ := Option.map_eq_some_iff.mp hs
      exact h.completed st hst
  | peers l =>
      simp only [Update.apply, Cluster.withPeers, Checked.bind_eq_ok, Checked.ofOption_eq_ok,
        Checked.pure_eq_ok] at hupd
      obtain ⟨st, hst, rfl⟩ := hupd
      refine h.withStatus fun s hs => ?_
      obtain rfl := Option.some.inj hs
      exact h.completed st hst

lemma Saved.valid {c : Cluster} (h : Saved c) : Valid c := by
  induction h with
  | resolved dict planned => exact valid_of_resolve dict planned
  | updated _ last ih => exact valid_of_apply ih last

/-- **Every reachable cluster reads back from its text**, and is written as the same text again. -/
theorem roundTrip {lib : Libraries} {c : Cluster} (h : Saved c) (hlib : lib.Reads)
    (hyaml : (c.tree lib).Distinct → lib.load (dumps lib c) = .ok (c.tree lib)) (name : String) :
    loadText lib (dumps lib c) name = .ok c ∧
      dumps lib <$> loadText lib (dumps lib c) name = .ok (dumps lib c) := by
  have hload := loadText_dumps hlib h.valid hyaml name
  exact ⟨hload, by rw [hload]; rfl⟩

/-! ### A file -/

/-- A Unix time. -/
def savedTime : ℕ := 1751328000

/-- Pydantic on values of the shapes that a dump holds; one time in ISO form, the others by number. -/
def plainValues : Libraries where
  dump _ _ := ""
  load _ := .error "not a document"
  repr _ := ""
  str | .str s => .ok s | t => Yaml.mismatch "Input should be a valid string" t
  int | .int n => .ok n | t => Yaml.mismatch "Input should be a valid integer" t
  bool | .bool b => .ok b | t => Yaml.mismatch "Input should be a valid boolean" t
  address
    | .str s => (IPv4Address.parse s).elim (Yaml.mismatch "Input is not a valid IPv4 address" (.str s)) .ok
    | t => Yaml.mismatch "Input is not a valid IPv4 address" t
  network
    | .str s => (IPv4Network.parse s).elim (Yaml.mismatch "Input is not a valid IPv4 network" (.str s)) .ok
    | t => Yaml.mismatch "Input is not a valid IPv4 network" t
  datetime
    | .str s =>
        if s = "2025-07-01T00:00:00Z" then .ok savedTime
        else if Text.isDigits s then .ok (Text.number s)
        else Yaml.mismatch "Input should be a valid datetime" (.str s)
    | t => Yaml.mismatch "Input should be a valid datetime" t
  isoformat t := if t = savedTime then "2025-07-01T00:00:00Z" else t.repr

def savedText : String :=
"apiVersion: taroko.io/v1alpha1
kind: Cluster
metadata:
  name: dev
spec:
  kubernetes: \"1.34.0\"
  cni: cilium
  datapath: auto
  gvisor: false
  network:
    index: 0
    nodes: 172.22.0.0/24
    gateway: 172.22.0.254
    router: 172.22.0.253
    ha: proxy
    routers: 1
    lb_range: 172.22.0.201-172.22.0.219
    pods: 10.244.0.0/21
    services: 10.98.0.0/24
    mesh: 172.22.0.200
  nodes:
    - role: control-plane
      name: dev-control-plane-1
      ip: 172.22.0.1
      cpu: 2
      memory: 4g
      join: true
status:
  phase: Ready
  completed:
    plan: '2025-07-01T00:00:00Z'
  tk8s: v1
  node_capacity: true
"

def savedCluster : Cluster where
  metadata := loneCluster.metadata
  spec := { loneCluster.spec with
    network := { loneCluster.spec.network with mesh := some ⟨0xAC1600C8, by decide⟩ } }
  status := some { phase := .ready, completed := [("plan", savedTime)], tk8s := "v1",
                   nodeCapacity := true }

/-- PyYAML on this text. -/
def savedValues : Libraries where
  __ := plainValues
  dump _ _ := savedText
  load text :=
    if text = savedText then .ok (savedCluster.tree plainValues) else .error "not a document"

lemma reads_savedValues : savedValues.Reads where
  str _ := rfl
  int _ := rfl
  bool _ := rfl
  address a := by simp [savedValues, plainValues, IPv4Address.parse_text]
  network n := by simp [savedValues, plainValues, IPv4Network.parse_text]
  datetime t := by
    by_cases ht : t = savedTime
    · rw [ht]
      rfl
    · have hother : t.repr ≠ "2025-07-01T00:00:00Z" := by
        intro h
        have hdigits := Text.isDigits_repr t
        rw [h] at hdigits
        exact absurd hdigits (by decide)
      simp [savedValues, plainValues, ht, hother]

lemma load_savedText : savedValues.load savedText = .ok (savedCluster.tree plainValues) := by
  simp only [savedValues, ↓reduceIte]

lemma saved_savedCluster : Saved savedCluster := by
  have hplanned : resolve oneNode none { oneNodeFacts with tk8sVersion := "v1" } = .ok
      { savedCluster with
        status := some { phase := .creating, tk8s := "v1", nodeCapacity := true } } := by
    decide +kernel
  have hplan : (Update.recording (.completed "plan" savedTime)).apply
      { savedCluster with
        status := some { phase := .creating, tk8s := "v1", nodeCapacity := true } }
      = .ok { savedCluster with
        status := some { phase := .creating, completed := [("plan", savedTime)], tk8s := "v1",
                         nodeCapacity := true } } := rfl
  have hready : Update.ready.apply
      { savedCluster with
        status := some { phase := .creating, completed := [("plan", savedTime)], tk8s := "v1",
                         nodeCapacity := true } } = .ok savedCluster := rfl
  exact ((Saved.resolved (by simp) hplanned).updated hplan).updated hready

/-- A new cluster, once it is ready. -/
theorem roundTrip_savedCluster :
    loadText savedValues (dumps savedValues savedCluster) "cluster.yaml" = .ok savedCluster ∧
      dumps savedValues <$> loadText savedValues (dumps savedValues savedCluster) "cluster.yaml"
        = .ok (dumps savedValues savedCluster) :=
  roundTrip saved_savedCluster reads_savedValues (fun _ => load_savedText) "cluster.yaml"

end Tk8s
