import Tk8s.Addresses
import Tk8s.Lib.Sha1
import Tk8s.Lib.Template
import Tk8s.Site

/-!
`create/units.py`: what `render` gives one host beside its container units, and `per_host`.

* `shimName`, `rangePrefixes`, `nodeRoutes`: the parts of the routes unit.
* `routesUnit`, `routesMacvlan`: the two routes units, without their comment lines.
* `HostRender`, `perHostRender`: container units, target and routes unit of every host.
* `stem_mem_hostFiles`: **a host gets the containers placed on it, by name**.
* `RenderedOnce`: every container on one host, every target wanting what is there, one routes unit.
* `renderedOnce_iff`: **a multi-host cluster is rendered once exactly when** no ssh host is taken for
  the operator and no name is placed on two hosts.
-/

namespace Tk8s

open Net

/-! ### The routes unit -/

/-- The host's macvlan shim interface, within the kernel's 15 characters. -/
def shimName (cluster : String) : String :=
  let chars := cluster.toList
  if chars.length ≤ 10 then "tk8s-" ++ cluster
  else
    let digest := Sha1.hexdigest (chars.map fun c => UInt8.ofNat c.toNat)
    "tk8s-" ++ String.ofList (chars.take 7) ++ "-" ++ String.ofList (digest.toList.take 2)

/-- The number of zero bits on the right, at most 32. -/
def trailingZeros (n : ℕ) : ℕ :=
  if n = 0 then 32 else ((List.range 32).find? fun k => n.testBit k).getD 32

/-- `summarize_address_range` from an address on: its prefixes as first address and length. -/
def summarizeFrom (first last : ℕ) : ℕ → List (ℕ × ℕ)
  | 0 => []
  | fuel + 1 =>
      if last < first then []
      else
        let bits := min (trailingZeros first) (Nat.log2 (last + 1 - first))
        (first, 32 - bits) :: summarizeFrom (first + 2 ^ bits) last fuel

/-- The prefixes of one segment of the pool. -/
def segmentPrefixes (seg : String) : Except Raised (List IPv4Network) := do
  let (aText, bText) := Text.partition '-' seg
  let a ← Checked.ofOption (.addressError aText) (IPv4Address.parse aText)
  let bText := if bText = "" then aText else bText
  let b ← Checked.ofOption (.addressError bText) (IPv4Address.parse bText)
  Checked.refuseIf (¬ a ≤ b) (.valueError "last IP address must be greater than first")
  (summarizeFrom a.toNat b.toNat (b.toNat + 1 - a.toNat)).mapM fun p => do
    let ip ← Checked.ofOption (.addressError (toString p.1)) (IPv4Address.ofNat? p.1)
    Checked.ofOption (.addressError s!"{ip.text}/{p.2}")
      (if h : p.2 ≤ 32 then IPv4Network.strict ip p.2 h else none)

/-- The pool's segments as prefixes, for the shim's routes. -/
def rangePrefixes (rng : String) : Except Raised (List IPv4Network) :=
  List.flatten <$> (Text.splitOn ',' rng).mapM segmentPrefixes

/-- One route per node that has its pod prefix and is not the first control plane. -/
def nodeRoutes (c : Cluster) (first : Node) (verb dev : String) : String :=
  String.join <| c.spec.nodes.map fun n =>
    match n.podCidr with
    | some cidr =>
        if n.name ≠ first.name then s!"\n{verb} {cidr.text} via {n.ip.text}{dev}" else ""
    | none => ""

/-- The route to the anycast apiserver address, in bgp mode. -/
def vipRoute (net : Network) (verb dev : String) : String :=
  match net.vip with
  | some vip => s!"\n{verb} {vip.text}/32 via {net.router.text}{dev}"
  | none => ""

/-- The values the two routes templates are filled in with. -/
structure RoutesValues where
  cluster : String
  cpName : String
  cpIp : String
  pods : String
  services : String
  nodeRoutes : String
  nodeRoutesStop : String
  vipStart : String
  vipStop : String

/-- `routes.service`. -/
@[irreducible] def RoutesValues.fill (v : RoutesValues) : String :=
  let ⟨cluster, cpName, cpIp, pods, services, nodeRoutes, nodeRoutesStop, vipStart, vipStop⟩ := v
  s!"[Unit]\nDescription=tk8s cluster {cluster} host routes\nPartOf={cluster}.target\n" ++
  s!"Wants={cpName}.service\nAfter={cpName}.service\n\n" ++
  "[Service]\nType=oneshot\nRemainAfterExit=yes\n" ++
  s!"ExecStart=ip route replace {pods} via {cpIp}{nodeRoutes}\n" ++
  s!"ExecStart=ip route replace {services} via {cpIp}{vipStart}\n" ++
  s!"ExecStop=-ip route del {pods} via {cpIp}{nodeRoutesStop}\n" ++
  s!"ExecStop=-ip route del {services} via {cpIp}{vipStop}\n"

/-- What the macvlan template is filled in with beside. -/
structure ShimValues where
  shim : String
  iface : String
  shimIp : String
  rangeRoutes : String
  rangeRoutesStop : String

/-- `routes-macvlan.service`. -/
@[irreducible] def RoutesValues.fillMacvlan (v : RoutesValues) (w : ShimValues) : String :=
  let ⟨cluster, _, cpIp, pods, services, nodeRoutes, nodeRoutesStop, vipStart, vipStop⟩ := v
  let ⟨shim, iface, shimIp, rangeRoutes, rangeRoutesStop⟩ := w
  s!"[Unit]\nDescription=tk8s cluster {cluster} host routes (shim {shim} on {iface})\n" ++
  s!"PartOf={cluster}.target\nWants=network-online.target\nAfter=network-online.target\n\n" ++
  "[Service]\nType=oneshot\nRemainAfterExit=yes\n" ++
  s!"ExecStart=-ip link add {shim} link {iface} type macvlan mode bridge\n" ++
  s!"ExecStart=ip link set {shim} up\n" ++
  s!"ExecStart=ip addr replace {shimIp}/32 dev {shim}{rangeRoutes}\n" ++
  s!"ExecStart=ip route replace {pods} via {cpIp} dev {shim}{nodeRoutes}\n" ++
  s!"ExecStart=ip route replace {services} via {cpIp} dev {shim}{vipStart}\n" ++
  s!"ExecStop=-ip route del {pods} via {cpIp} dev {shim}{nodeRoutesStop}\n" ++
  s!"ExecStop=-ip route del {services} via {cpIp} dev {shim}{vipStop}{rangeRoutesStop}\n" ++
  s!"ExecStop=-ip link del {shim}\n"

/-- The values of a cluster; on a node host the routes leave by the shim (`dev`). -/
def routesValues (c : Cluster) (first : Node) (dev : String) : RoutesValues where
  cluster := c.name
  cpName := first.name.text
  cpIp := first.ip.text
  pods := c.spec.network.pods.text
  services := c.spec.network.services.text
  nodeRoutes := nodeRoutes c first "ExecStart=ip route replace" dev
  nodeRoutesStop := nodeRoutes c first "ExecStop=-ip route del" dev
  vipStart := vipRoute c.spec.network "ExecStart=ip route replace" dev
  vipStop := vipRoute c.spec.network "ExecStop=-ip route del" dev

/-- The routes unit of a single host, and of an operator that runs no node. -/
def routesUnit (c : Cluster) : Except Raised String := do
  let first ← Checked.ofOption .indexError c.firstControlPlane
  return (routesValues c first "").fill

/-- The routes unit of a node host: the shim, the routes to the cluster's range through it, then
the others out of the shim. -/
def routesMacvlan (c : Cluster) (me : Host) : Except Raised String := do
  let first ← Checked.ofOption .indexError c.firstControlPlane
  let rng ← Checked.ofOption .assertionError c.spec.network.range
  let shimIp ← Checked.ofOption .assertionError c.spec.network.shim
  let prefixes ← rangePrefixes rng
  let shim := shimName c.name
  let start := prefixes.map fun p =>
    s!"\nExecStart=ip route replace {p.text} dev {shim} src {shimIp.text}"
  let stop := prefixes.map fun p => s!"\nExecStop=-ip route del {p.text} dev {shim}"
  return (routesValues c first s!" dev {shim}").fillMacvlan
    { shim := shim, iface := me.iface, shimIp := shimIp.text, rangeRoutes := String.join start
      rangeRoutesStop := String.join stop }

/-! ### No carriage return -/

lemma notMem_name {s : String} (h : nodeNamePattern s = true) : '\r' ∉ s.toList :=
  fun hr => absurd (nameChar_of_mem h _ hr) (by decide)

lemma notMem_clusterName (c : Cluster) : '\r' ∉ c.name.toList := by
  have hok := c.metadata.name.ok
  rw [clusterNamePattern, Bool.and_eq_true] at hok
  exact notMem_name hok.1

lemma notMem_ip (a : IPv4Address) : '\r' ∉ a.text.toList := a.notMem_text (by decide) (by decide)

lemma notMem_network (n : IPv4Network) : '\r' ∉ n.text.toList := by
  simp only [IPv4Network.text, String.toList_append, List.mem_append, not_or]
  exact ⟨⟨notMem_ip _, by decide⟩, Text.notMem_repr (by decide)⟩

lemma notMem_nodeRoutes {c : Cluster} {first : Node} {verb dev : String}
    (hverb : '\r' ∉ verb.toList) (hdev : '\r' ∉ dev.toList) :
    '\r' ∉ (nodeRoutes c first verb dev).toList := by
  rw [nodeRoutes, String.toList_join, List.mem_flatMap]
  rintro ⟨route, hmem, hr⟩
  obtain ⟨n, -, rfl⟩ := List.mem_map.mp hmem
  cases hcidr : n.podCidr with
  | none => simp [hcidr] at hr
  | some cidr =>
      by_cases hn : n.name = first.name
      · simp [hcidr, hn] at hr
      · simp [hcidr, hn, toString, notMem_ip, notMem_network, hverb, hdev] at hr

lemma notMem_vipRoute {net : Network} {verb dev : String} (hverb : '\r' ∉ verb.toList)
    (hdev : '\r' ∉ dev.toList) : '\r' ∉ (vipRoute net verb dev).toList := by
  rw [vipRoute]
  cases net.vip with
  | none => simp
  | some vip => simp [toString, notMem_ip, hverb, hdev]

lemma notMem_fill {v : RoutesValues} (hcluster : '\r' ∉ v.cluster.toList)
    (hname : '\r' ∉ v.cpName.toList) (hip : '\r' ∉ v.cpIp.toList) (hpods : '\r' ∉ v.pods.toList)
    (hservices : '\r' ∉ v.services.toList) (hroutes : '\r' ∉ v.nodeRoutes.toList)
    (hroutesStop : '\r' ∉ v.nodeRoutesStop.toList) (hvip : '\r' ∉ v.vipStart.toList)
    (hvipStop : '\r' ∉ v.vipStop.toList) : '\r' ∉ v.fill.toList := by
  unfold RoutesValues.fill
  simp only [toString, String.toList_append, List.mem_append, not_or]
  and_intros
  all_goals first
    | assumption
    | exact Template.notMem_ofList (by decide)

/-- **The routes unit of a single host has no carriage return.** -/
theorem notMem_routesUnit {c : Cluster} {text : String} (h : routesUnit c = .ok text) :
    '\r' ∉ text.toList := by
  rw [routesUnit, Checked.bind_eq_ok] at h
  obtain ⟨first, -, h⟩ := h
  obtain rfl := Except.ok.inj h
  have hreplace : '\r' ∉ "ExecStart=ip route replace".toList := Template.notMem_ofList (by decide)
  have hdel : '\r' ∉ "ExecStop=-ip route del".toList := Template.notMem_ofList (by decide)
  have hnone : '\r' ∉ "".toList := by simp
  exact notMem_fill (notMem_clusterName c) (notMem_name first.name.ok) (notMem_ip _)
    (notMem_network _) (notMem_network _) (notMem_nodeRoutes hreplace hnone)
    (notMem_nodeRoutes hdel hnone) (notMem_vipRoute hreplace hnone) (notMem_vipRoute hdel hnone)

/-! ### What one host gets -/

/-- The host of a multi-host cluster with this name. -/
def Cluster.hostNamed (c : Cluster) (hostName : Option String) : Option Host :=
  (c.spec.hosts.getD []).find? fun h => some h.name.text = hostName

/-- The machine that talks to the cluster from its host network: no ssh host. -/
def operatorHere (c : Cluster) (hostName : Option String) : Bool :=
  (c.hostNamed hostName).all (·.ssh.isNone)

/-- The services a host's target wants. -/
def targetWants (c : Cluster) (hostName : Option String) : Except Raised (List String) := do
  let routers ← mineRouters c hostName
  return routers.map (·.name ++ ".service")
    ++ (mineNodes c hostName).map (·.1.name.text ++ ".service")
    ++ if operatorHere c hostName then [c.name ++ "-routes.service"] else []

/-- The routes unit, where a host gets one. -/
def hostRoutes (c : Cluster) (hostName : Option String) : Except Raised (Option String) :=
  match c.hostNamed hostName with
  | none => some <$> routesUnit c
  | some me => if me.ssh = none then some <$> routesMacvlan c me else .ok none

/-- `HostFiles`: the container units, the target and the routes unit of one host. -/
structure HostRender where
  name : Option String
  machine : MachineId
  units : List (String × String)
  wants : List String
  routes : Option String

/-- The host gets a container unit of this stem. -/
def HostRender.holds (hf : HostRender) (stem : String) : Bool := stem ∈ hf.units.map (·.1)

/-- `render` for one host. -/
def renderHost (e : Env) (c : Cluster) (h : Option String × MachineId) :
    Except Raised HostRender := do
  let units ← hostFiles e c h.1
  let wants ← targetWants c h.1
  let routes ← hostRoutes c h.1
  return ⟨h.1, h.2, units, wants, routes⟩

/-- `per_host`. -/
def perHostRender (e : Env) (c : Cluster) : Except Raised (List HostRender) :=
  (perHost c).mapM (renderHost e c)

/-! ### Which containers a host gets -/

/-- The containers a cluster lists, with the host each is placed on. -/
def Cluster.containers (c : Cluster) : Except Raised (List (String × Option String)) := do
  let routers ← c.routers
  return routers.map (fun r => (r.name, r.host)) ++ c.spec.nodes.map fun n => (n.name.text, n.host)

variable {e : Env} {c : Cluster} {host : Option String} {l : List HostRender}

lemma mem_putFile {stem text s : String} {files : List (String × String)} :
    s ∈ (putFile stem text files).map (·.1) ↔ s = stem ∨ s ∈ files.map (·.1) := by
  induction files with
  | nil => simp [putFile]
  | cons f rest ih =>
      by_cases hf : f.1 = stem
      · simp [putFile, hf]
      · rw [putFile, if_neg hf, List.map_cons, List.mem_cons, ih, List.map_cons, List.mem_cons]
        exact or_left_comm

/-- Writing files one by one: the paths written, and those that were there. -/
lemma mem_foldl_putFile {s : String} {units files : List (String × String)} :
    s ∈ (units.foldl (fun files u => putFile u.1 u.2 files) files).map (·.1) ↔
      s ∈ units.map (·.1) ∨ s ∈ files.map (·.1) := by
  induction units generalizing files with
  | nil => simp
  | cons u units ih =>
      rw [List.foldl_cons, ih, mem_putFile, List.map_cons, List.mem_cons]
      exact or_left_comm.trans or_assoc.symm

/-- The nodes placed on a host. -/
lemma mem_mineNodes (hm : c.multiHost = true) {n : Node} :
    n ∈ (mineNodes c host).map (·.1) ↔ n ∈ c.spec.nodes ∧ n.host = host := by
  rw [map_fst_mineNodes, List.mem_filter]
  simp [hm]

/-- The names of the routers and nodes of a host. -/
lemma mem_mine (hm : c.multiHost = true) {routers : List Router} {s : String} :
    (s ∈ (routers.filter fun r => !c.multiHost || r.host = host).map (·.name) ∨
        s ∈ (mineNodes c host).map (·.1.name.text)) ↔
      (s, host) ∈ routers.map (fun r => (r.name, r.host)) ++
        c.spec.nodes.map fun n => (n.name.text, n.host) := by
  have hnodes : (mineNodes c host).map (·.1.name.text) =
      ((mineNodes c host).map (·.1)).map (·.name.text) := by
    rw [List.map_map]
    rfl
  rw [hnodes, List.mem_append]
  refine or_congr ?_ ?_
  · simp only [List.mem_map, List.mem_filter, hm, Bool.not_true, Bool.false_or, decide_eq_true_eq,
      Prod.mk.injEq]
    exact ⟨fun ⟨r, ⟨hmem, hh⟩, hn⟩ => ⟨r, hmem, hn, hh⟩,
      fun ⟨r, hmem, hn, hh⟩ => ⟨r, ⟨hmem, hh⟩, hn⟩⟩
  · simp only [List.mem_map (f := fun n : Node => n.name.text), mem_mineNodes hm, List.mem_map,
      Prod.mk.injEq]
    exact ⟨fun ⟨n, ⟨hn, hh⟩, hs⟩ => ⟨n, hn, hs, hh⟩, fun ⟨n, hn, hs, hh⟩ => ⟨n, ⟨hn, hh⟩, hs⟩⟩

/-- **A host gets the containers placed on it, by name.** -/
theorem stem_mem_hostFiles (hm : c.multiHost = true) {units : List (String × String)}
    (h : hostFiles e c host = .ok units) : ∃ cs, c.containers = .ok cs ∧
      ∀ s, s ∈ units.map (·.1) ↔ (s, host) ∈ cs := by
  simp only [hostFiles, containerUnits, mineRouters, Checked.bind_eq_ok, Checked.pure_eq_ok] at h
  obtain ⟨_, ⟨-, -, first, -, _, ⟨routers, hr, rfl⟩, rfl⟩, rfl⟩ := h
  refine ⟨_, by rw [Cluster.containers, hr]; rfl, fun s => ?_⟩
  rw [mem_foldl_putFile, List.map_append, List.mem_append, List.map_map, List.map_map,
    List.map_nil, or_iff_left List.not_mem_nil]
  exact mem_mine hm

/-- The services a target wants: those of the containers placed on its host, and the routes. -/
lemma mem_targetWants (hm : c.multiHost = true) {wants : List String}
    (h : targetWants c host = .ok wants) : ∃ cs, c.containers = .ok cs ∧
      ∀ s, s ∈ wants ↔ (∃ stem, (stem, host) ∈ cs ∧ s = stem ++ ".service") ∨
        operatorHere c host = true ∧ s = c.name ++ "-routes.service" := by
  simp only [targetWants, mineRouters, Checked.bind_eq_ok, Checked.pure_eq_ok] at h
  obtain ⟨_, ⟨routers, hr, rfl⟩, rfl⟩ := h
  refine ⟨_, by rw [Cluster.containers, hr]; rfl, fun s => ?_⟩
  rw [List.mem_append, List.mem_append]
  refine or_congr ?_ ?_
  · simp only [← mem_mine hm, List.mem_map, or_and_right, exists_or]
    refine or_congr ?_ ?_
    · constructor
      · rintro ⟨r, hr, hs⟩
        exact ⟨r.name, ⟨r, hr, rfl⟩, hs.symm⟩
      · rintro ⟨stem, ⟨r, hr, hn⟩, hs⟩
        exact ⟨r, hr, by rw [hn, hs]⟩
    · constructor
      · rintro ⟨n, hn, hs⟩
        exact ⟨n.1.name.text, ⟨n, hn, rfl⟩, hs.symm⟩
      · rintro ⟨stem, ⟨n, hn, hn'⟩, hs⟩
        exact ⟨n, hn, by rw [hn', hs]⟩
  · by_cases ho : operatorHere c host = true <;> simp [ho]

/-- A host gets a routes unit exactly when it is no ssh host. -/
lemma isSome_hostRoutes {routes : Option String} (h : hostRoutes c host = .ok routes) :
    routes.isSome = operatorHere c host := by
  rw [hostRoutes] at h
  rw [operatorHere]
  cases hme : c.hostNamed host with
  | none =>
      simp only [hme, Checked.map_eq_ok] at h
      obtain ⟨text, -, rfl⟩ := h
      rfl
  | some me =>
      simp only [hme] at h
      by_cases hssh : me.ssh = none
      · simp only [hssh, if_true, Checked.map_eq_ok] at h
        obtain ⟨text, -, rfl⟩ := h
        simp [hssh]
      · rw [if_neg hssh] at h
        rw [← Except.ok.inj h]
        simpa using Option.ne_none_iff_isSome.mp hssh

/-! ### Rendered once -/

/-- In what `per_host` returns, every container is in one entry, that of its host; a target wants the
services of the containers there, and of the routes unit where there is one; the operator alone has a
routes unit. -/
structure RenderedOnce (c : Cluster) (l : List HostRender) : Prop where
  containers : ∀ cs, c.containers = .ok cs → ∀ p ∈ cs,
    (l.filter (·.holds p.1)).map (fun hf => (hf.name, some hf.machine)) = [(p.2, machineOf c p.2)]
  wants : ∀ hf ∈ l, ∀ s, s ∈ hf.wants ↔ (∃ stem, hf.holds stem = true ∧ s = stem ++ ".service") ∨
    hf.routes.isSome = true ∧ s = c.name ++ "-routes.service"
  routes : (l.filter (·.routes.isSome)).map (·.machine) = [none]

/-- An operator that is no host of the cluster has no namesake among the hosts. -/
def OperatorApart (c : Cluster) : Prop :=
  (∀ h ∈ c.spec.hosts.getD [], h.ssh.isSome = true) → "operator" ∉ c.hostNames

/-- No name is placed on two hosts. -/
def PlacedOnce (c : Cluster) : Prop :=
  ∀ cs, c.containers = .ok cs → ∀ p ∈ cs, ∀ q ∈ cs, p.1 = q.1 → p.2 = q.2

/-- What an entry of `per_host` holds. -/
structure Entry (e : Env) (c : Cluster) (cs : List (String × Option String)) (hf : HostRender) :
    Prop where
  holds : ∀ s, hf.holds s = true ↔ (s, hf.name) ∈ cs
  wants : ∀ s, s ∈ hf.wants ↔ (∃ stem, (stem, hf.name) ∈ cs ∧ s = stem ++ ".service") ∨
    operatorHere c hf.name = true ∧ s = c.name ++ "-routes.service"
  routes : hf.routes.isSome = operatorHere c hf.name

/-- The entries of `per_host`, one for each host that gets files. -/
lemma entries_of_perHostRender (hm : c.multiHost = true) (h : perHostRender e c = .ok l) :
    l.map (fun hf => (hf.name, hf.machine)) = perHost c ∧
      ∀ hf ∈ l, ∀ cs, c.containers = .ok cs → Entry e c cs hf := by
  rw [perHostRender, Checked.mapM_eq_ok] at h
  generalize perHost c = hosts at h
  induction h with
  | nil => exact ⟨rfl, by simp⟩
  | cons hab _ ih =>
      rename_i a b as bs _
      simp only [renderHost, Checked.bind_eq_ok, Checked.pure_eq_ok] at hab
      obtain ⟨units, hunits, wants, hwants, routes, hroutes, rfl⟩ := hab
      refine ⟨by rw [List.map_cons, ih.1], List.forall_mem_cons.mpr ⟨fun cs hcs => ?_, ih.2⟩⟩
      obtain ⟨cs', hcs', hstems⟩ := stem_mem_hostFiles hm hunits
      obtain ⟨cs'', hcs'', hservices⟩ := mem_targetWants hm hwants
      obtain rfl := Except.ok.inj (hcs.symm.trans hcs')
      obtain rfl := Except.ok.inj (hcs.symm.trans hcs'')
      refine ⟨fun s => ?_, hservices, isSome_hostRoutes hroutes⟩
      rw [HostRender.holds, decide_eq_true_eq]
      exact hstems s

/-- The one entry with a value that all entries have apart. -/
lemma filter_eq_singleton {α β : Type} [DecidableEq β] {f : α → β} {l : List α} {a : α}
    (hnd : (l.map f).Nodup) (ha : a ∈ l) : l.filter (fun x => f x = f a) = [a] := by
  induction l with
  | nil => simp at ha
  | cons x l ih =>
      rw [List.map_cons, List.nodup_cons] at hnd
      by_cases hx : f x = f a
      · have hnone : ∀ y ∈ l, ¬ f y = f a := fun y hy hfy =>
          hnd.1 (hx ▸ hfy ▸ List.mem_map_of_mem hy)
        have hxa : x = a := by
          cases List.mem_cons.mp ha with
          | inl heq => exact heq.symm
          | inr hmem => exact absurd rfl (hnone a hmem)
        rw [List.filter_cons_of_pos (by simpa using hx), hxa, List.filter_eq_nil_iff.mpr]
        exact fun y hy => by simpa using hnone y hy
      · have hmem : a ∈ l := (List.mem_cons.mp ha).resolve_left fun heq => hx (by rw [heq])
        rw [List.filter_cons_of_neg (by simpa using hx), ih hnd.2 hmem]

/-! ### The hosts that get files -/

variable {hosts : List Host}

lemma perHost_multi (hh : c.spec.hosts = some hosts) : perHost c =
    hosts.map (fun h => (some h.name.text, h.ssh)) ++
      if hosts.all (·.ssh.isSome) then [(some "operator", none)] else [] := by
  rw [perHost, hh]

/-- A host is found by its name. -/
lemma hostNamed_of_mem (hh : c.spec.hosts = some hosts) (hnd : (hosts.map (·.name.text)).Nodup)
    {h : Host} (hmem : h ∈ hosts) : c.hostNamed (some h.name.text) = some h := by
  rw [Cluster.hostNamed, hh, Option.getD_some, ← List.head?_filter]
  have hone := filter_eq_singleton (f := fun h : Host => h.name.text) hnd hmem
  simp only [Option.some_inj]
  rw [hone]
  rfl

lemma hostNamed_eq_none (hh : c.spec.hosts = some hosts) {name : String}
    (hnot : name ∉ hosts.map (·.name.text)) : c.hostNamed (some name) = none := by
  rw [Cluster.hostNamed, hh, Option.getD_some, List.find?_eq_none]
  intro h hmem heq
  simp only [Option.some_inj, decide_eq_true_eq] at heq
  exact hnot (heq ▸ List.mem_map_of_mem hmem)

/-- The names of the hosts that get files are distinct, when the operator is apart. -/
lemma nodup_perHost (hh : c.spec.hosts = some hosts) (hnd : (hosts.map (·.name.text)).Nodup)
    (hapart : OperatorApart c) : ((perHost c).map (·.1)).Nodup := by
  have hsome : ((hosts.map fun h => (some h.name.text, h.ssh)).map (·.1)).Nodup := by
    have hcomp : (hosts.map fun h => (some h.name.text, h.ssh)).map (·.1) =
        (hosts.map (·.name.text)).map some := by
      rw [List.map_map, List.map_map]
      rfl
    rw [hcomp]
    exact hnd.map (Option.some_injective _)
  rw [perHost_multi hh]
  by_cases hall : hosts.all (·.ssh.isSome) = true
  · rw [if_pos hall, List.map_append]
    refine List.nodup_append.mpr ⟨hsome, List.nodup_singleton _, fun a ha b hb hab => ?_⟩
    have hb' : b = some "operator" := by simpa using hb
    rw [List.map_map, List.mem_map] at ha
    obtain ⟨h, hmem, rfl⟩ := ha
    have hname : h.name.text = "operator" := Option.some_inj.mp (hab.trans hb')
    refine hapart (fun h hh' => ?_) ?_
    · rw [hh, Option.getD_some] at hh'
      exact List.all_eq_true.mp hall h hh'
    · rw [Cluster.hostNames, hh, Option.getD_some]
      exact hname ▸ List.mem_map_of_mem hmem
  · rw [if_neg hall, List.append_nil]
    exact hsome

/-- The machines that get a routes unit. -/
def routesMachines (c : Cluster) : List MachineId :=
  ((perHost c).filter fun h => operatorHere c h.1).map (·.2)

/-- Among the hosts, the one without ssh gets the routes unit. -/
lemma filter_operatorHere (hh : c.spec.hosts = some hosts) (hnd : (hosts.map (·.name.text)).Nodup) :
    ((hosts.map fun h => ((some h.name.text, h.ssh) : Option String × MachineId)).filter
      fun h => operatorHere c h.1).map (·.2) = (hosts.filter (·.ssh.isNone)).map (·.ssh) := by
  rw [List.filter_map, List.map_map]
  congr 1
  refine List.filter_congr fun h hmem => ?_
  rw [Function.comp_apply, operatorHere, hostNamed_of_mem hh hnd hmem]
  rfl

/-- **The operator alone gets a routes unit exactly when it is apart.** -/
lemma routesMachines_eq_iff (hh : c.spec.hosts = some hosts)
    (hok : HostsOk c.spec.network c.spec.nodes hosts) :
    routesMachines c = [none] ↔ OperatorApart c := by
  rw [routesMachines, perHost_multi hh, List.filter_append, List.map_append,
    filter_operatorHere hh hok.nodup]
  by_cases hall : hosts.all (·.ssh.isSome) = true
  · have hnone : hosts.filter (·.ssh.isNone) = [] := by
      rw [List.filter_eq_nil_iff]
      intro h hmem
      have hsome := List.all_eq_true.mp hall h hmem
      cases hssh : h.ssh <;> simp_all
    have hssh : ∀ h ∈ c.spec.hosts.getD [], h.ssh.isSome = true := by
      rw [hh, Option.getD_some]
      exact List.all_eq_true.mp hall
    have hnames : c.hostNames = hosts.map (·.name.text) := by
      rw [Cluster.hostNames, hh, Option.getD_some]
    rw [hnone, if_pos hall, List.map_nil, List.nil_append, OperatorApart, hnames]
    by_cases hmem : "operator" ∈ hosts.map (·.name.text)
    · obtain ⟨h, hh', hname⟩ := List.mem_map.mp hmem
      have hnamed := hostNamed_of_mem hh hok.nodup hh'
      rw [hname] at hnamed
      have hsome := List.all_eq_true.mp hall h hh'
      have hfalse : operatorHere c (some "operator") = false := by
        rw [operatorHere, hnamed]
        cases hs : h.ssh <;> simp_all
      exact iff_of_false (by simp [hfalse]) fun hapart => hapart hssh hmem
    · have htrue : operatorHere c (some "operator") = true := by
        rw [operatorHere, hostNamed_eq_none hh hmem]
        rfl
      simp [htrue, hmem]
  · -- some host has no ssh, and at most one does
    have hone : (hosts.filter (·.ssh.isNone)).length = 1 := by
      have hle := hok.operator
      rw [List.countP_eq_length_filter] at hle
      have hpos : 0 < (hosts.filter (·.ssh.isNone)).length := by
        rw [List.length_pos_iff]
        intro hnil
        rw [List.filter_eq_nil_iff] at hnil
        refine hall (List.all_eq_true.mpr fun h hmem => ?_)
        have hno := hnil h hmem
        cases hssh : h.ssh <;> simp_all
      omega
    obtain ⟨h, hlist⟩ := List.length_eq_one_iff.mp hone
    have hssh : h.ssh = none := by
      have hmem : h ∈ hosts.filter (·.ssh.isNone) := by simp [hlist]
      simpa using (List.mem_filter.mp hmem).2
    have hhost : h ∈ hosts := by
      have hmem : h ∈ hosts.filter (·.ssh.isNone) := by simp [hlist]
      exact (List.mem_filter.mp hmem).1
    rw [if_neg hall, hlist]
    refine iff_of_true (by simp [hssh]) fun hsome => ?_
    have := hsome h (by rw [hh, Option.getD_some]; exact hhost)
    simp [hssh] at this

/-! ### The exact condition -/

lemma machineOf_multi (hh : c.spec.hosts = some hosts) {name : String} :
    machineOf c (some name) = (c.hostNamed (some name)).map (·.ssh) := by
  simp only [machineOf, hh, Cluster.hostNamed, Option.getD_some, Option.some_inj]

/-- Every container is placed on a listed host. -/
lemma host_mem_of_containers (hok : HostsOk c.spec.network c.spec.nodes hosts)
    {cs : List (String × Option String)} (hcs : c.containers = .ok cs) :
    ∀ p ∈ cs, ∃ h ∈ hosts, p.2 = some h.name.text := by
  simp only [Cluster.containers, Checked.bind_eq_ok, Checked.pure_eq_ok] at hcs
  obtain ⟨routers, hr, rfl⟩ := hcs
  obtain ⟨names, hnames, hlen, hlisted⟩ := hok.routerHosts
  have hpick : ∀ {i : ℕ} {h : Option String}, (names.map some)[i]? = some h →
      ∃ host ∈ hosts, h = some host.name.text := by
    intro i h hget
    obtain ⟨name, hname, rfl⟩ := List.mem_map.mp (List.mem_of_getElem? hget)
    obtain ⟨host, hhost, rfl⟩ := List.mem_map.mp (hlisted name hname)
    exact ⟨host, hhost, rfl⟩
  intro p hp
  rcases List.mem_append.mp hp with hp | hp
  · obtain ⟨r, hmem, rfl⟩ := List.mem_map.mp hp
    simp only [Cluster.routers, hnames, Option.map_some, Option.getD_some] at hr
    cases hn : c.spec.network.routers with
    | one =>
        simp only [hn, Checked.bind_eq_ok, Checked.ofOption_eq_ok, Checked.pure_eq_ok] at hr
        obtain ⟨h, hget, rfl⟩ := hr
        obtain rfl := List.mem_singleton.mp hmem
        exact hpick hget
    | two =>
        simp only [hn, Checked.bind_eq_ok, Checked.ofOption_eq_ok, Checked.pure_eq_ok] at hr
        obtain ⟨pair, -, h1, hget1, h2, hget2, rfl⟩ := hr
        simp only [List.mem_cons, List.not_mem_nil, or_false] at hmem
        rcases hmem with rfl | rfl
        · exact hpick hget1
        · exact hpick hget2
  · obtain ⟨n, hmem, rfl⟩ := List.mem_map.mp hp
    obtain ⟨name, hname, hlisted'⟩ := hok.placed n hmem
    obtain ⟨host, hhost, rfl⟩ := List.mem_map.mp hlisted'
    exact ⟨host, hhost, hname⟩

/-- **Every container is rendered on exactly one host exactly when** the operator is apart and no
name is placed on two hosts. -/
theorem renderedOnce_iff (hm : c.multiHost = true) (hcheck : c.spec.check = .ok ())
    (h : perHostRender e c = .ok l) : RenderedOnce c l ↔ OperatorApart c ∧ PlacedOnce c := by
  obtain ⟨hosts, hh⟩ := Option.isSome_iff_exists.mp hm
  have hok : HostsOk c.spec.network c.spec.nodes hosts := by
    simp only [Spec.check, Checked.check_bind_eq_ok, hh] at hcheck
    exact Spec.checkHosts_eq_ok.mp hcheck.2.2
  obtain ⟨hmap, hentry⟩ := entries_of_perHostRender hm h
  have hroutes : ∀ cs, c.containers = .ok cs →
      (l.filter (·.routes.isSome)).map (·.machine) = routesMachines c := by
    intro cs hcs
    rw [routesMachines, ← hmap, List.filter_map, List.map_map]
    congr 1
    exact List.filter_congr fun hf hmem => (hentry hf hmem cs hcs).routes
  have hcontainers : ∃ cs, c.containers = .ok cs := by
    -- at least one host gets files, and they are rendered from the containers
    obtain ⟨n, hn⟩ : ∃ n, n ∈ c.spec.nodes := by
      simp only [Spec.check, Checked.check_bind_eq_ok, Checked.refuseIf_eq_ok] at hcheck
      exact List.exists_mem_of_ne_nil _ hcheck.1
    obtain ⟨name, -, hlisted⟩ := hok.placed n hn
    obtain ⟨host, hhost, -⟩ := List.mem_map.mp hlisted
    have hmem : (some host.name.text, host.ssh) ∈ perHost c := by
      rw [perHost_multi hh]
      exact List.mem_append_left _ (List.mem_map_of_mem hhost)
    obtain ⟨hf, hrender⟩ := Checked.exists_of_mapM h hmem
    simp only [renderHost, Checked.bind_eq_ok] at hrender
    obtain ⟨units, hunits, -⟩ := hrender
    obtain ⟨cs, hcs, -⟩ := stem_mem_hostFiles hm hunits
    exact ⟨cs, hcs⟩
  obtain ⟨cs, hcs⟩ := hcontainers
  constructor
  · intro honce
    refine ⟨(routesMachines_eq_iff hh hok).mp ((hroutes cs hcs).symm.trans honce.routes), ?_⟩
    intro cs' hcs' p hp q hq heq
    have hone := (honce.containers cs' hcs' p hp).symm.trans
      (heq ▸ honce.containers cs' hcs' q hq)
    simp only [List.cons.injEq, Prod.mk.injEq, and_true] at hone
    exact hone.1
  · rintro ⟨hapart, hplaced⟩
    refine ⟨fun cs' hcs' p hp => ?_, fun hf hmem s => ?_,
      (hroutes cs hcs).trans ((routesMachines_eq_iff hh hok).mpr hapart)⟩
    · obtain ⟨host, hhost, hp2⟩ := host_mem_of_containers hok hcs' p hp
      have hhere : l.filter (·.holds p.1) = l.filter (fun hf => hf.name = p.2) := by
        refine List.filter_congr fun hf hmem => ?_
        rw [Bool.eq_iff_iff, (hentry hf hmem cs' hcs').holds, decide_eq_true_eq]
        constructor
        · intro hin
          exact hplaced cs' hcs' _ hin p hp rfl
        · intro hname
          rw [hname]
          exact hp
      have hnd : (l.map (·.name)).Nodup := by
        have hfst : (l.map fun hf => (hf.name, hf.machine)).map (·.1) = l.map (·.name) := by
          rw [List.map_map]
          rfl
        rw [← hfst, hmap]
        exact nodup_perHost hh hok.nodup hapart
      have hin : (p.2, host.ssh) ∈ l.map fun hf => (hf.name, hf.machine) := by
        rw [hmap, perHost_multi hh, hp2]
        exact List.mem_append_left _ (List.mem_map.mpr ⟨host, hhost, rfl⟩)
      obtain ⟨hf, hmem, hpair⟩ := List.mem_map.mp hin
      rw [Prod.mk.injEq] at hpair
      rw [hhere, ← hpair.1, filter_eq_singleton hnd hmem, hpair.1, hp2, machineOf_multi hh,
        hostNamed_of_mem hh hok.nodup hhost]
      simp [hpair, hp2]
    · have hfe := hentry hf hmem cs hcs
      rw [hfe.wants, hfe.routes]
      simp only [hfe.holds]

/-! ### Two hosts -/

/-- The cluster resolve makes of two hosts, the first under a name and an ssh target of its own. -/
def onTwoHosts (name : HostName) (ssh : Option String) : Except Raised Cluster :=
  resolve
    { metadata := ⟨⟨"dev", clusterName_dev⟩⟩
      spec :=
        { network := some { range := some ⟨"192.168.1.64-79", range_lan⟩ }
          nodes := [{ role := .controlPlane }, { role := .worker }]
          hosts := some [⟨name, ssh⟩, ⟨⟨"b", hostName_b⟩, some "b"⟩] } } none
    { twoHostsFacts with
      lans := some fun host => if host = name.text then twoHostsLan "a" else twoHostsLan host }

/-- The operator runs a node, a second host the others. -/
theorem renderedOnce_twoHosts : ∃ c l, c.spec.check = .ok () ∧
    perHostRender someEnv c = .ok l ∧ RenderedOnce c l := by
  have hrun : (do
      let c ← onTwoHosts ⟨"a", by decide⟩ none
      c.spec.check
      let cs ← c.containers
      let l ← perHostRender someEnv c
      return c.multiHost && !l.isEmpty && (c.spec.hosts.getD []).any (·.ssh.isNone) &&
        cs.all fun p => cs.all fun q => p.1 ≠ q.1 ∨ p.2 = q.2) =
      (.ok true : Except Raised Bool) := by
    decide +kernel
  simp only [Checked.bind_eq_ok, Checked.exists_unit, Checked.pure_eq_ok] at hrun
  obtain ⟨c, -, hcheck, cs, hcs, l, hl, hall⟩ := hrun
  simp only [Bool.and_eq_true, List.any_eq_true, List.all_eq_true, decide_eq_true_eq] at hall
  obtain ⟨⟨⟨hm, -⟩, h, hmem, hssh⟩, honce⟩ := hall
  refine ⟨c, l, hcheck, hl, (renderedOnce_iff hm hcheck hl).mpr ⟨fun hsome => ?_, ?_⟩⟩
  · have := hsome h hmem
    rw [Option.isNone_iff_eq_none] at hssh
    simp [hssh] at this
  · intro cs' hcs' p hp q hq heq
    obtain rfl := Except.ok.inj (hcs.symm.trans hcs')
    exact (honce p hp q hq).resolve_left (not_not_intro heq)

/-- An ssh host called operator: its files go to the operator as well, and nobody gets the routes
unit. -/
theorem not_renderedOnce_namesake : ∃ c l, c.multiHost = true ∧ c.spec.check = .ok () ∧
    perHostRender someEnv c = .ok l ∧ ¬ RenderedOnce c l := by
  have hrun : (do
      let c ← onTwoHosts ⟨"operator", by decide⟩ (some "op")
      c.spec.check
      let l ← perHostRender someEnv c
      return c.multiHost && decide ((l.filter (·.routes.isSome)).map (·.machine) = [])) =
      (.ok true : Except Raised Bool) := by
    decide +kernel
  simp only [Checked.bind_eq_ok, Checked.exists_unit, Checked.pure_eq_ok] at hrun
  obtain ⟨c, -, hcheck, l, hl, hnone⟩ := hrun
  rw [Bool.and_eq_true, decide_eq_true_eq] at hnone
  refine ⟨c, l, hnone.1, hcheck, hl, fun honce => ?_⟩
  have hroutes := honce.routes
  rw [hnone.2] at hroutes
  simp at hroutes

end Tk8s
