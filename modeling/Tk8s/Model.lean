import Mathlib.Data.PNat.Basic
import Tk8s.Lib.Checked
import Tk8s.Lib.IPv4

/-!
`model.py`: what the user asks for, what the platform keeps in `cluster.yaml`, and what is
derived from it.

* `ClusterName`, `NodeName`, `HostName`, `MemoryText`, `RangeText`: the texts pydantic checks
  against a pattern, carrying the match (`Matching`).
* `UserCluster` and its parts: a `-f` file, or the flags turned into the same shape.
* `Cluster` and its parts: the typed `cluster.yaml`. `Network.check` and `Spec.check` are the two
  model validators.
* `Cluster.rangeStart`, `Cluster.routers`: the router containers, derived and never stored.

The fields of `cluster.yaml` with a single legal value (`apiVersion`, `kind`, `cni`) are left out.
-/

namespace Tk8s

open Net

/-! ### Errors -/

/-- What the modelled functions raise, with the message. -/
inductive Raised where
  | planError (message : String)
  | clusterError (message : String)
  | valueError (message : String)
  | validationError (message : String)
  /-- What `ipaddress` raises, with the text it was given. -/
  | addressError (text : String)
  | clusterNotFound (message : String)
  | meshError (message : String)
  | usageError (message : String)
  /-- `ClusterFileError`: a `cluster.yaml` that cannot be read. -/
  | clusterFileError (message : String)
  /-- `PhaseFailed`. -/
  | phaseFailed (message : String)
  | preflightError (message : String)
  | assertionError
  | indexError
  | keyError (key : String)
  | zeroDivisionError
  /-- `yaml.YAMLError`, which is no `ValueError`. -/
  | yamlError (message : String)
  | attributeError
  | typeError
  /-- `HostError`: a command that had to succeed, or ssh itself, failed. -/
  | hostError (message : String)
deriving DecidableEq, Repr

/-! ### Checked texts -/

/-- A text that matches a pattern: `Field(pattern=...)`. -/
@[ext] structure Matching (pattern : String → Bool) where
  text : String
  ok : pattern text = true
deriving DecidableEq

namespace Matching

variable {pattern : String → Bool}

/-- The checked text, when it matches. -/
def ofText? (text : String) : Option (Matching pattern) :=
  if h : pattern text = true then some ⟨text, h⟩ else none

lemma text_injective : Function.Injective fun m : Matching pattern => m.text :=
  fun _ _ h => Matching.ext h

lemma ofText?_eq_some {text : String} {m : Matching pattern} :
    ofText? text = some m ↔ m.text = text := by
  unfold ofText?
  split
  · rw [Option.some_inj, Matching.ext_iff, eq_comm]
  · rename_i h
    exact ⟨fun hm => by simp at hm, fun hm => absurd (hm ▸ m.ok) h⟩

end Matching

/-- A character of a name after the first one: `[a-z0-9-]`. -/
def nameChar (c : Char) : Bool := c.isLower || c.isDigit || c = '-'

/-- `^[a-z][a-z0-9-]*$`. -/
def nodeNamePattern (s : String) : Bool :=
  match s.toList with
  | c :: cs => c.isLower && cs.all nameChar
  | [] => false

/-- `^[a-z][a-z0-9-]{0,15}$`. -/
def clusterNamePattern (s : String) : Bool := nodeNamePattern s && s.toList.length ≤ 16

/-- `^[a-z][a-z0-9-]{0,31}$`. -/
def hostNamePattern (s : String) : Bool := nodeNamePattern s && s.toList.length ≤ 32

/-- `^[0-9]+[gm]$`. -/
def memoryPattern (s : String) : Bool :=
  match s.toList.reverse with
  | c :: cs => (c = 'g' || c = 'm') && !cs.isEmpty && cs.all Char.isDigit
  | [] => false

/-- `[0-9.]+(-[0-9.]+)?`. -/
def rangeSegment (s : String) : Bool :=
  let (a, b) := Text.partition '-' s
  let digits (t : String) : Bool := !t.isEmpty && t.toList.all fun c => c.isDigit || c = '.'
  digits a && (digits b || !s.toList.contains '-')

/-- `^[0-9.]+(-[0-9.]+)?(, *[0-9.]+(-[0-9.]+)?)*$`. -/
def rangePattern (s : String) : Bool :=
  match Text.splitOn ',' s with
  | first :: rest =>
      rangeSegment first
        && rest.all fun t => rangeSegment (String.ofList (t.toList.dropWhile (· = ' ')))
  | [] => false

abbrev ClusterName := Matching clusterNamePattern
abbrev NodeName := Matching nodeNamePattern
abbrev HostName := Matching hostNamePattern
abbrev MemoryText := Matching memoryPattern
abbrev RangeText := Matching rangePattern

/-! ### Some that match -/

lemma clusterName_dev : clusterNamePattern "dev" = true := by decide

lemma clusterName_a : clusterNamePattern "a" = true := by decide

lemma clusterName_b : clusterNamePattern "b" = true := by decide

lemma clusterName_c : clusterNamePattern "c" = true := by decide

lemma clusterName_d : clusterNamePattern "d" = true := by decide

lemma hostName_a : hostNamePattern "a" = true := by decide

lemma hostName_b : hostNamePattern "b" = true := by decide

lemma memory_4g : memoryPattern "4g" = true := by decide

lemma range_lan : rangePattern "192.168.1.64-79" = true := by decide

lemma prefixlen_24 : 24 ≤ 32 := by decide

lemma prefixlen_21 : 21 ≤ 32 := by decide

/-- One cpu, or one node of a group. -/
instance neZero_one : NeZero (1 : ℕ) := ⟨by decide⟩

/-- Two cpus. -/
instance neZero_two : NeZero (2 : ℕ) := ⟨by decide⟩

/-! ### What the user writes -/

inductive Role where
  | controlPlane
  | worker
deriving DecidableEq, Repr

/-- The role as `cluster.yaml` spells it. -/
def Role.text : Role → String
  | controlPlane => "control-plane"
  | worker => "worker"

inductive Ha where
  | proxy
  | bgp
deriving DecidableEq, Repr

inductive Datapath where
  | auto
  | netkit
  | veth
deriving DecidableEq, Repr

/-- What `cni` resolved the datapath to. -/
inductive ResolvedDatapath where
  | netkit
  | veth
deriving DecidableEq, Repr

/-- `Literal[1, 2]`. -/
inductive RouterCount where
  | one
  | two
deriving DecidableEq, Repr

def RouterCount.toNat : RouterCount → ℕ
  | one => 1
  | two => 2

/-- A host of a multi-host definition; no `ssh` means the host tkctl runs on. -/
structure UserHost where
  name : HostName
  ssh : Option String
deriving DecidableEq

/-- `UserHost` with its validator: `local` is read as no ssh. -/
def UserHost.ofFields (name : HostName) (ssh : Option String) : UserHost :=
  ⟨name, if ssh = some "local" then none else ssh⟩

structure NodeGroup where
  role : Role
  count : ℕ+ := 1
  name : Option NodeName := none
  cpu : ℕ+ := 2
  memory : String := "4G"
  join : Bool := true
  host : Option String := none
deriving DecidableEq

structure UserNetwork where
  nodes : Option IPv4Network := none
  router : Option IPv4Address := none
  ha : Option Ha := none
  routers : Option RouterCount := none
  vip : Option IPv4Address := none
  range : Option RangeText := none
  routerHosts : Option (List String) := none
deriving DecidableEq

structure UserSpec where
  kubernetes : Option String := none
  datapath : Option Datapath := none
  gvisor : Bool := false
  network : Option UserNetwork := none
  nodes : List NodeGroup
  hosts : Option (List UserHost) := none
deriving DecidableEq

structure Metadata where
  name : ClusterName
deriving DecidableEq

structure UserCluster where
  metadata : Metadata
  spec : UserSpec
deriving DecidableEq

/-- `add node`: what was asked for. -/
structure NodeRequest where
  role : Role
  cpu : Option ℕ+ := none
  memory : Option MemoryText := none
  host : Option String := none
deriving DecidableEq

/-! ### What the platform keeps -/

/-- A host as plan recorded it, with its LAN interface. -/
structure Host where
  name : HostName
  ssh : Option String
  iface : String
deriving DecidableEq

structure Node where
  role : Role
  name : NodeName
  ip : IPv4Address
  cpu : ℕ+
  memory : MemoryText
  join : Bool := true
  host : Option String := none
  podCidr : Option IPv4Network := none
deriving DecidableEq

structure Network where
  index : ℕ
  nodes : IPv4Network
  gateway : IPv4Address
  router : IPv4Address
  ha : Ha := .proxy
  routers : RouterCount := .one
  vip : Option IPv4Address := none
  lbRange : String
  pods : IPv4Network
  services : IPv4Network
  range : Option String := none
  routerHosts : Option (List String) := none
  shim : Option IPv4Address := none
  mesh : Option IPv4Address := none
deriving DecidableEq

/-- One router container, derived from `Network`. -/
structure Router where
  name : String
  dir : String
  ip : IPv4Address
  priority : Option ℕ
  host : Option String := none
deriving DecidableEq

structure Spec where
  kubernetes : String
  datapath : Datapath
  datapathResolved : Option ResolvedDatapath := none
  gvisor : Bool
  network : Network
  nodes : List Node
  hosts : Option (List Host) := none
deriving DecidableEq

inductive ClusterPhase where
  | creating
  | ready
deriving DecidableEq, Repr

structure Status where
  phase : ClusterPhase
  completed : List (String × ℕ) := []
  tk8s : String
  nodeCapacity : Bool := false
  operator : Option String := none
  clusterId : Option ℕ := none
  cilium : Option String := none
  mesh : List String := []
deriving DecidableEq

structure Cluster where
  metadata : Metadata
  spec : Spec
  status : Option Status := none
deriving DecidableEq

/-! ### Model validators -/

/-- `Network`'s field bound and `_vip_follows_ha`. -/
def Network.check (net : Network) : Except Raised Unit := do
  Checked.refuseIf (255 < net.index)
    (.validationError "Input should be less than or equal to 255")
  Checked.refuseIf ((net.ha = .bgp) ≠ (net.vip.isSome = true))
    (.validationError
      "spec.network.vip is required with ha: bgp and not allowed with ha: proxy")

/-- The loop that collects names and stops at the first one seen before. -/
def usedTwice {α : Type} [DecidableEq α] (seen : List α) : List α → Option α
  | [] => none
  | n :: rest => if n ∈ seen then some n else usedTwice (n :: seen) rest

lemma usedTwice_eq_none {α : Type} [DecidableEq α] {seen l : List α} :
    usedTwice seen l = none ↔ l.Nodup ∧ ∀ n ∈ l, n ∉ seen := by
  induction l generalizing seen with
  | nil => simp [usedTwice]
  | cons n rest ih =>
      by_cases hn : n ∈ seen
      · simp [usedTwice, hn]
      · rw [usedTwice, if_neg hn, ih, List.nodup_cons, List.forall_mem_cons]
        constructor
        · rintro ⟨hnd, hall⟩
          refine ⟨⟨fun hmem => hall n hmem (by simp), hnd⟩, hn, fun m hm hs => ?_⟩
          exact hall m hm (List.mem_cons_of_mem n hs)
        · rintro ⟨⟨hnot, hnd⟩, -, hall⟩
          refine ⟨hnd, fun m hm hs => ?_⟩
          rcases List.mem_cons.1 hs with rfl | hs
          · exact hnot hm
          · exact hall m hm hs

/-- Refuse a list in which a name stands twice. -/
def refuseTwice {α : Type} [DecidableEq α] (l : List α) (error : α → Raised) :
    Except Raised Unit :=
  match usedTwice [] l with
  | some n => .error (error n)
  | none => .ok ()

@[simp] lemma refuseTwice_eq_ok {α : Type} [DecidableEq α] {l : List α} {error : α → Raised}
    {u : Unit} : refuseTwice l error = .ok u ↔ l.Nodup := by
  have h : usedTwice [] l = none ↔ l.Nodup := by
    rw [usedTwice_eq_none]
    simp
  rw [← h, refuseTwice]
  cases usedTwice [] l <;> simp

/-- `Spec._hosts_consistent` on a multi-host spec. -/
def Spec.checkHosts (net : Network) (nodes : List Node) (hosts : List Host) :
    Except Raised Unit := do
  let names := hosts.map (·.name.text)
  refuseTwice names fun n => .validationError s!"host name {n} is used twice"
  Checked.refuseIf (1 < hosts.countP (·.ssh.isNone))
    (.validationError "at most one host without ssh (the one tkctl runs on)")
  nodes.forM fun n =>
    let placed := n.host.getD "None"
    Checked.refuseIf (¬ ∃ h ∈ n.host, h ∈ names)
      (.validationError s!"node host {placed} is not in spec.hosts")
  let routerHosts := net.routerHosts.getD []
  Checked.refuseIf (net.routerHosts = none ∨ routerHosts.length ≠ net.routers.toNat)
    (.validationError s!"router_hosts must name {net.routers.toNat} hosts")
  routerHosts.forM fun r =>
    Checked.refuseIf (r ∉ names) (.validationError s!"router host {r} is not in spec.hosts")

/-- `Spec`'s validation: at least one node, then `_hosts_consistent`. -/
def Spec.check (s : Spec) : Except Raised Unit := do
  Checked.refuseIf (s.nodes = [])
    (.validationError "List should have at least 1 item after validation, not 0")
  Checked.refuseIf ((s.hosts = none) ≠ (s.network.range = none))
    (.validationError "spec.hosts and spec.network.range go together")
  match s.hosts with
  | none =>
      Checked.refuseIf (∃ n ∈ s.nodes, n.host ≠ none)
        (.validationError "a node has a host on a single-host cluster (no spec.hosts)")
      Checked.refuseIf (s.network.routerHosts ≠ none)
        (.validationError "spec.network.router_hosts needs spec.hosts")
  | some hosts => Spec.checkHosts s.network s.nodes hosts

/-- What `_hosts_consistent` asks of a multi-host spec. -/
structure HostsOk (net : Network) (nodes : List Node) (hosts : List Host) : Prop where
  nodup : (hosts.map (·.name.text)).Nodup
  operator : hosts.countP (·.ssh.isNone) ≤ 1
  placed : ∀ n ∈ nodes, ∃ h ∈ n.host, h ∈ hosts.map (·.name.text)
  routerHosts : ∃ l, net.routerHosts = some l ∧ l.length = net.routers.toNat ∧
    ∀ r ∈ l, r ∈ hosts.map (·.name.text)

lemma Spec.checkHosts_eq_ok {net : Network} {nodes : List Node} {hosts : List Host} :
    Spec.checkHosts net nodes hosts = .ok () ↔ HostsOk net nodes hosts := by
  simp only [Spec.checkHosts, Checked.check_bind_eq_ok, Checked.refuseIf_eq_ok, refuseTwice_eq_ok,
    List.forM_eq_forM, Checked.forM_eq_ok, not_not, Nat.not_lt, not_or, ne_eq]
  constructor
  · rintro ⟨hnd, hop, hpl, ⟨hsome, hlen⟩, hrh⟩
    obtain ⟨l, hl⟩ := Option.ne_none_iff_exists'.mp hsome
    rw [hl, Option.getD_some] at hlen hrh
    exact ⟨hnd, hop, hpl, l, hl, hlen, hrh⟩
  · rintro ⟨hnd, hop, hpl, l, hl, hlen, hrh⟩
    exact ⟨hnd, hop, hpl, ⟨by simp [hl], by simpa [hl] using hlen⟩, by simpa [hl] using hrh⟩

/-! ### Properties of a cluster -/

namespace Cluster

def name (c : Cluster) : String := c.metadata.name.text

def multiHost (c : Cluster) : Bool := c.spec.hosts.isSome

def hostNames (c : Cluster) : List String := (c.spec.hosts.getD []).map (·.name.text)

/-- What `api.<cluster>.k8s` resolves to. -/
def endpointIp (c : Cluster) : IPv4Address := c.spec.network.vip.getD c.spec.network.router

def floatingIp (c : Cluster) : IPv4Address := c.spec.network.router

/-- The first address of the reserved LAN range, read off its text. -/
def rangeStart (c : Cluster) : Except Raised IPv4Address :=
  match c.spec.network.range with
  | none => .error (.valueError s!"cluster {c.name} has no spec.network.range (single host)")
  | some rng =>
      let head := (Text.splitOn '-' rng).headD ""
      Checked.ofOption (.addressError head) (IPv4Address.parse head)

/-- `IPv4Address + n`. -/
def shift (a : IPv4Address) (n : ℕ) : Except Raised IPv4Address :=
  Checked.ofOption (.valueError s!"{a.toNat + n} (>= 2**32) is not permitted as an IPv4 address")
    (IPv4Address.ofNat? (a.toNat + n))

/-- The addresses of the two routers: `.251` and `.252` of the node subnet on a single host; on
several hosts the two addresses after the floating one in the range. -/
def routerPair (c : Cluster) : Except Raised (IPv4Address × IPv4Address) :=
  match c.spec.network.range with
  | none => do
      let first ← shift c.spec.network.nodes.network 251
      let second ← shift c.spec.network.nodes.network 252
      return (first, second)
  | some _ => do
      let start ← c.rangeStart
      let first ← shift start 1
      let second ← shift start 2
      return (first, second)

/-- The router containers. -/
def routers (c : Cluster) : Except Raised (List Router) :=
  let net := c.spec.network
  let hosts : List (Option String) := (net.routerHosts.map (·.map some)).getD [none, none]
  let n := c.name
  match net.routers with
  | .one => do
      let h ← Checked.ofOption .indexError hosts[0]?
      return [{ name := s!"{n}-router", dir := "router", ip := net.router, priority := none,
                host := h }]
  | .two => do
      let (first, second) ← c.routerPair
      let h1 ← Checked.ofOption .indexError hosts[0]?
      let h2 ← Checked.ofOption .indexError hosts[1]?
      return [{ name := s!"{n}-router-1", dir := "router-1", ip := first, priority := some 200,
                host := h1 },
              { name := s!"{n}-router-2", dir := "router-2", ip := second, priority := some 100,
                host := h2 }]

def controlPlanes (c : Cluster) : List Node := c.spec.nodes.filter (·.role = .controlPlane)

def workers (c : Cluster) : List Node := c.spec.nodes.filter (·.role = .worker)

/-- `spec.nodes[0]`. -/
def firstControlPlane (c : Cluster) : Option Node := c.spec.nodes.head?

/-- `model_copy(update={"spec": spec})` and `{"status": status}`. -/
def withSpec (c : Cluster) (s : Spec) : Cluster := { c with spec := s }

def withStatus (c : Cluster) (st : Status) : Cluster := { c with status := some st }

lemma shift_eq_ok {a b : IPv4Address} {n : ℕ} : shift a n = .ok b ↔ b.toNat = a.toNat + n := by
  rw [shift, Checked.ofOption_eq_ok, IPv4Address.ofNat?_eq_some]

@[simp] lemma withSpec_spec (c : Cluster) (s : Spec) : (c.withSpec s).spec = s := rfl

@[simp] lemma withSpec_status (c : Cluster) (s : Spec) : (c.withSpec s).status = c.status := rfl

@[simp] lemma withStatus_spec (c : Cluster) (st : Status) : (c.withStatus st).spec = c.spec := rfl

@[simp] lemma withStatus_status (c : Cluster) (st : Status) :
    (c.withStatus st).status = some st := rfl

end Cluster

end Tk8s
