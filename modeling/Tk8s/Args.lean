import Tk8s.Create.UnitPaths
import Tk8s.Plan.Limits
import Tk8s.Resume

/-!
`args.py`: the create flags, and the cluster they become.

* `parseHostsFlag`, `applyMode`, `userClusterFromFlags`: the code.
* `hostsFlag_stable`: **`--hosts`, written out, is read back as it was**.
* `cluster_of_flags`: **what the flags say is what plan makes of them**: the nodes, in order, with
  their names, sizes and join flags, the routers and the hosts.
-/

namespace Tk8s.Args

/-! ### The flags -/

/-- `MODES`. -/
inductive Mode where
  | lab
  | ha
deriving DecidableEq, Repr

def Mode.text : Mode → String
  | lab => "lab"
  | ha => "ha"

/-- What argparse leaves of the create flags. -/
structure Flags where
  name : Option String := none
  controlPlanes : ℤ := 1
  workers : ℤ := 2
  cpu : ℤ := 2
  memory : String := "4G"
  k8s : Option String := none
  gvisor : Bool := false
  datapath : Option Datapath := none
  ha : Option Ha := none
  routers : RouterCount := .one
  hosts : Option String := none
  ipRange : Option String := none
  mode : Option Mode := none
  deferJoin : Bool := false

/-- The truth of a text that may be missing. -/
def truthy (text : Option String) : Bool := text.any (· ≠ "")

/-- `MODE_FLAGS`. -/
def modeFlags : List String :=
  ["--control-planes", "--workers", "--ha", "--routers", "--defer-join", "-f"]

/-- The topology of a mode, set over the flags. -/
def Mode.set (m : Mode) (a : Flags) : Flags :=
  match m with
  | lab => { a with controlPlanes := 1, workers := 2, ha := some .proxy, routers := .one }
  | ha => { a with controlPlanes := 3, workers := 3, ha := some .bgp, routers := .two }

/-- `mode_line`. -/
def modeLine : Mode → String
  | .lab => "mode lab: --control-planes 1 --workers 2 --ha proxy --routers 1"
  | .ha => "mode ha: --control-planes 3 --workers 3 --ha bgp --routers 2"

/-- `x == flag or x.startswith(flag + "=") or (glued and x.startswith("-f"))`. -/
def spells (flag x : String) : Bool :=
  x = flag || (Text.removePrefix? (flag ++ "=") x).isSome ||
    (flag = "-f" && (Text.removePrefix? "-f" x).isSome)

/-- `apply_mode`: the flags as the mode sets them, and its line. -/
def applyMode (a : Flags) (raw : List String) : Except Raised (Flags × Option String) := do
  match a.mode with
  | none => return (a, none)
  | some m =>
      modeFlags.forM fun flag => Checked.refuseIf (∃ x ∈ raw, spells flag x = true)
        (.usageError (s!"--mode {m.text} cannot be combined with {flag}; "
          ++ "use the expanded flags instead"))
      return (m.set a, some (modeLine m))

/-! ### The hosts -/

/-- One item of `--hosts`: none when it is blank. -/
def hostOf (item : String) : Except Raised (Option UserHost) := do
  let item := HostFs.strip item
  if item = "" then return none
  let (name, ssh) := Text.partition '=' item
  let (name, ssh) := if ssh = "" then (item, item) else (name, ssh)
  let name ← Checked.ofOption
    (.usageError (s!"invalid host name '{name}': use lowercase letters, digits and '-', start "
      ++ "with a letter (write name=user@host to name a host)"))
    (Matching.ofText? name)
  return some (UserHost.ofFields name (some ssh))

/-- `parse_hosts_flag`. -/
def parseHostsFlag (text : String) : Except Raised (List UserHost) := do
  let hosts ← (Text.splitOn ',' text).mapM hostOf
  let out := hosts.filterMap id
  Checked.refuseIf (out = []) (.usageError "--hosts needs at least one host")
  Checked.refuseIf (1 < out.countP (·.ssh.isNone))
    (.usageError "only one host can be local (the one tkctl runs on)")
  return out

/-! ### The rest -/

/-- `NAME_RE.match`, which a newline at the end does not disturb, and `Metadata`, which it does. -/
def validateName (name : String) : Except Raised ClusterName := do
  let shown := if name.toList.getLast? = some '\n' then String.ofList name.toList.dropLast else name
  Checked.refuseIf (clusterNamePattern shown = false)
    (.usageError (s!"invalid cluster name '{name}': use lowercase letters, digits and '-', "
      ++ "start with a letter, max 16 characters"))
  Checked.ofOption (.validationError "String should match pattern '^[a-z][a-z0-9-]\x7b0,15\x7d$'")
    (Matching.ofText? name)

/-- `normalize_memory`. -/
def normalizeMemory (m : String) : Except Raised String := do
  Checked.refuseIf (sizePattern m = false)
    (.usageError s!"invalid --memory '{m}': use a number followed by G or M, e.g. 4G or 4096M")
  return m.toLower

/-- The first control plane. -/
def firstGroup (a : Flags) (memory : String) : NodeGroup where
  role := .controlPlane
  cpu := a.cpu.toNat.toPNat'
  memory := memory

/-- The control planes behind the first. -/
def otherGroup (a : Flags) (memory : String) : NodeGroup where
  role := .controlPlane
  count := (a.controlPlanes - 1).toNat.toPNat'
  cpu := a.cpu.toNat.toPNat'
  memory := memory
  join := !a.deferJoin

def workerGroup (a : Flags) (memory : String) : NodeGroup where
  role := .worker
  count := a.workers.toNat.toPNat'
  cpu := a.cpu.toNat.toPNat'
  memory := memory

/-- The `nodes` of the definition. -/
def groups (a : Flags) (memory : String) : List NodeGroup :=
  firstGroup a memory :: ((if 1 < a.controlPlanes then [otherGroup a memory] else []) ++
    if a.workers ≠ 0 then [workerGroup a memory] else [])

/-- The `hosts` of the definition. -/
def hostsOf (a : Flags) : Except Raised (Option (List UserHost)) :=
  if truthy a.hosts then some <$> parseHostsFlag (a.hosts.getD "") else .ok none

def Flags.rangeText (a : Flags) : String := a.ipRange.getD ""

/-- The `network` of the definition, none when no flag asks for one. -/
def networkOf (a : Flags) : Except Raised (Option UserNetwork) := do
  if a.ha = none ∧ a.routers = .one ∧ truthy a.ipRange = false then return none
  match a.ipRange with
  | none => return some { ha := a.ha, routers := some a.routers }
  | some text => do
      let range ← Checked.ofOption
        (.validationError
          "String should match pattern '^[0-9.]+(-[0-9.]+)?(, *[0-9.]+(-[0-9.]+)?)*$'")
        (Matching.ofText? text)
      return some { ha := a.ha, routers := some a.routers, range := some range }

/-- `user_cluster_from_flags`. -/
def userClusterFromFlags (a : Flags) : Except Raised UserCluster := do
  Checked.refuseIf (a.controlPlanes < 1) (.usageError "--control-planes must be a positive integer")
  Checked.refuseIf (a.deferJoin = true ∧ a.controlPlanes = 1)
    (.usageError "--defer-join needs --control-planes 3 or more")
  Checked.refuseIf (a.workers < 0) (.usageError "--workers must be an integer")
  Checked.refuseIf (a.cpu < 1) (.usageError "--cpu must be a positive integer")
  let memory ← normalizeMemory a.memory
  Checked.refuseIf (truthy a.ipRange = true ∧ truthy a.hosts = false)
    (.usageError "--ip-range needs --hosts")
  Checked.refuseIf (truthy a.hosts = true ∧ truthy a.ipRange = false)
    (.usageError "--hosts needs --ip-range A-B (addresses reserved on the hosts' LAN)")
  let hosts ← hostsOf a
  Checked.refuseIf (truthy a.ipRange = true ∧ rangePattern a.rangeText = false)
    (.usageError (s!"invalid --ip-range '{a.rangeText}': comma-separated A-B segments (or "
      ++ "single addresses), e.g. 192.168.1.64-79,192.168.1.208-223"))
  let network ← networkOf a
  let name ← validateName (if truthy a.name then a.name.getD "" else "tk8s")
  return { metadata := ⟨name⟩,
           spec := { kubernetes := a.k8s, gvisor := a.gvisor, datapath := a.datapath,
                     network := network, nodes := groups a memory, hosts := hosts } }

/-! ### Hosts, written out -/

section Hosts

variable {text item : String} {h : UserHost} {hs : List UserHost}

/-- A host, as an item of `--hosts`. -/
def writeHost (h : UserHost) : String := h.name.text ++ String.singleton '=' ++ h.ssh.getD "local"

def writeHosts (hs : List UserHost) : String := Text.join ',' (hs.map writeHost)

/-- What can stand behind the name of a host. -/
structure Clean (ssh : String) : Prop where
  ne : ssh ≠ ""
  comma : ',' ∉ ssh.toList
  last : ∀ ch, ssh.toList.getLast? = some ch → HostFs.isBlank ch = false

/-- What is printed in ASCII is no blank. -/
lemma isBlank_of_visible {c : Char} (hlow : 0x21 ≤ c.toNat) (hhigh : c.toNat ≤ 0x7e) :
    HostFs.isBlank c = false := by
  have hne : ∀ d : Char, d.toNat < 0x21 ∨ 0x7e < d.toNat → c ≠ d := by
    rintro d hd rfl
    omega
  have hctrl : ¬ c ≤ '\x1f' := fun hle => by
    have := UInt32.le_iff_toNat_le.mp (Char.le_def.mp hle)
    exact absurd (hlow.trans this) (by decide)
  have hwide : ¬ '\u2000' ≤ c := fun hle => by
    have := UInt32.le_iff_toNat_le.mp (Char.le_def.mp hle)
    exact absurd (this.trans hhigh) (by decide)
  simp [HostFs.isBlank, Text.isSpace, hctrl, hwide, hne, Char.toNat]

lemma isBlank_of_nameChar {c : Char} (h : nameChar c = true) : HostFs.isBlank c = false := by
  simp only [nameChar, Bool.or_eq_true, decide_eq_true_eq] at h
  rcases h with (hlower | hdigit) | rfl
  · simp only [Char.isLower, Bool.and_eq_true, decide_eq_true_eq, ge_iff_le,
      UInt32.le_iff_toNat_le] at hlower
    exact isBlank_of_visible (le_trans (by decide) hlower.1) (hlower.2.trans (by decide))
  · exact HostFs.isBlank_of_isDigit hdigit
  · decide

lemma nameChar_host (name : HostName) : ∀ ch ∈ name.text.toList, nameChar ch = true := by
  have hok := name.ok
  rw [hostNamePattern, Bool.and_eq_true] at hok
  exact nameChar_of_mem hok.1

lemma ne_nil_host (name : HostName) : name.text.toList ≠ [] := by
  intro hnil
  have hok := name.ok
  simp [hostNamePattern, nodeNamePattern, hnil] at hok

/-- A text whose ends are no blanks is stripped already. -/
lemma strip_eq_self {s : String}
    (hfirst : ∀ ch, s.toList.head? = some ch → HostFs.isBlank ch = false)
    (hlast : ∀ ch, s.toList.getLast? = some ch → HostFs.isBlank ch = false) :
    HostFs.strip s = s := by
  have hdrop : ∀ l : List Char, (∀ ch, l.head? = some ch → HostFs.isBlank ch = false) →
      l.dropWhile HostFs.isBlank = l := by
    intro l hl
    cases l with
    | nil => rfl
    | cons ch rest => exact List.dropWhile_cons_of_neg (by simp [hl ch rfl])
  rw [HostFs.strip, hdrop _ hfirst,
    hdrop _ fun ch hch => hlast ch (by rwa [List.head?_reverse] at hch),
    List.reverse_reverse, String.ofList_toList]

lemma last_strip {s : String} {ch : Char} (h : (HostFs.strip s).toList.getLast? = some ch) :
    HostFs.isBlank ch = false := by
  rw [HostFs.strip, String.toList_ofList, List.getLast?_reverse] at h
  have hnot := List.head?_dropWhile_not HostFs.isBlank (s.toList.dropWhile HostFs.isBlank).reverse
  rw [h] at hnot
  simpa using hnot

lemma mem_strip {s : String} {ch : Char} (h : ch ∈ (HostFs.strip s).toList) : ch ∈ s.toList := by
  rw [HostFs.strip, String.toList_ofList, List.mem_reverse] at h
  have hback := (List.dropWhile_sublist _).mem h
  exact (List.dropWhile_sublist _).mem (List.mem_reverse.mp hback)

/-- What stands behind the separator ends a text. -/
lemma eq_of_partition {sep : Char} {s : String} (h : (Text.partition sep s).2 ≠ "") :
    s = (Text.partition sep s).1 ++ String.singleton sep ++ (Text.partition sep s).2 := by
  have hmem : sep ∈ s.toList := by
    by_contra hno
    exact h (by rw [Text.partition_of_notMem hno])
  obtain ⟨pre, post, hs, hpre⟩ := List.eq_append_cons_of_mem hmem
  have hsplit : s = String.ofList pre ++ String.singleton sep ++ String.ofList post := by
    rw [← String.toList_inj]
    simp [hs]
  rw [hsplit, Text.partition_append (by simpa using hpre)]

lemma ssh_ofFields (name : HostName) (ssh : String) :
    (UserHost.ofFields name (some ssh)).ssh.getD "local" = ssh ∧
      (UserHost.ofFields name (some ssh)).ssh ≠ some "local" := by
  by_cases hlocal : ssh = "local" <;> simp [UserHost.ofFields, hlocal]

/-- What an item that is read gives. -/
lemma clean_of_hostOf (hcomma : ',' ∉ item.toList) (hread : hostOf item = .ok (some h)) :
    Clean (h.ssh.getD "local") ∧ h.ssh ≠ some "local" := by
  have hstrip : ',' ∉ (HostFs.strip item).toList := fun hmem => hcomma (mem_strip hmem)
  rw [hostOf] at hread
  split_ifs at hread with hempty
  · cases hread
  by_cases hssh : (Text.partition '=' (HostFs.strip item)).2 = ""
  · simp only [hssh, if_true, Checked.bind_eq_ok, Checked.ofOption_eq_ok, Checked.pure_eq_ok,
      Option.some_inj] at hread
    obtain ⟨name, -, rfl⟩ := hread
    obtain ⟨hget, hlocal⟩ := ssh_ofFields name (HostFs.strip item)
    rw [hget]
    exact ⟨⟨hempty, hstrip, fun ch => last_strip⟩, hlocal⟩
  · have heq := eq_of_partition hssh
    simp only [hssh, if_false, Checked.bind_eq_ok, Checked.ofOption_eq_ok, Checked.pure_eq_ok,
      Option.some_inj] at hread
    obtain ⟨name, -, rfl⟩ := hread
    obtain ⟨hget, hlocal⟩ := ssh_ofFields name (Text.partition '=' (HostFs.strip item)).2
    rw [hget]
    refine ⟨⟨hssh, fun hmem => hstrip ?_, fun ch hch => last_strip (s := item) ?_⟩, hlocal⟩
    · rw [heq, String.toList_append]
      exact List.mem_append_right _ hmem
    · rw [heq, String.toList_append, List.getLast?_append, hch, Option.some_or]

lemma hostOf_write (hclean : Clean (h.ssh.getD "local")) (hlocal : h.ssh ≠ some "local") :
    hostOf (writeHost h) = .ok (some h) := by
  have hname : '=' ∉ h.name.text.toList := fun hmem =>
      absurd (nameChar_host h.name _ hmem) (by decide)
  have hstrip : HostFs.strip (writeHost h) = writeHost h := by
    refine strip_eq_self (fun ch hch => ?_) fun ch hch => hclean.last ch ?_
    · obtain ⟨d, ds, hd⟩ := List.exists_cons_of_ne_nil (ne_nil_host h.name)
      have hd' : d = ch := by simpa [writeHost, hd] using hch
      exact isBlank_of_nameChar (nameChar_host h.name ch (by simp [hd, hd']))
    · have hne : (h.ssh.getD "local").toList ≠ [] := by simpa using hclean.ne
      rwa [writeHost, String.toList_append, List.getLast?_append_of_ne_nil _ hne] at hch
  have hne : writeHost h ≠ "" := by
    intro hnil
    simpa [writeHost] using congrArg String.toList hnil
  have hpart : Text.partition '=' (writeHost h) = (h.name.text, h.ssh.getD "local") :=
    Text.partition_append hname _
  have hback : UserHost.ofFields h.name (some (h.ssh.getD "local")) = h := by
    cases h with
    | mk name ssh => cases ssh with
      | none => rfl
      | some ssh => simpa [UserHost.ofFields] using hlocal
  simp only [hostOf, hstrip, if_neg hne, hpart, if_neg hclean.ne, Matching.ofText?_eq_some.mpr rfl]
  rw [show (Checked.ofOption _ (some h.name) : Except Raised HostName) = .ok h.name from rfl,
    Checked.ok_bind, hback]
  rfl

lemma exists_item {items : List String} {read : List (Option UserHost)}
    (hitems : List.Forall₂ (fun item r => hostOf item = .ok r) items read) (hh : some h ∈ read) :
    ∃ item ∈ items, hostOf item = .ok (some h) := by
  induction hitems with
  | nil => cases hh
  | @cons item r items read hr _ ih =>
      cases List.mem_cons.mp hh with
      | inl he => exact ⟨item, by simp, he ▸ hr⟩
      | inr hmem =>
          obtain ⟨other, hother, hread⟩ := ih hmem
          exact ⟨other, List.mem_cons_of_mem _ hother, hread⟩

lemma comma_writeHost (hclean : Clean (h.ssh.getD "local")) : ',' ∉ (writeHost h).toList := by
  intro hmem
  simp only [writeHost, String.toList_append, String.toList_singleton, List.mem_append,
    List.mem_singleton] at hmem
  rcases hmem with (hname | heq) | hssh
  · exact absurd (nameChar_host h.name _ hname) (by decide)
  · exact absurd heq (by decide)
  · exact hclean.comma hssh

/-- **What `--hosts` says, written out, is read back as it was**, whatever was said. -/
theorem hostsFlag_stable (hread : parseHostsFlag text = .ok hs) :
    parseHostsFlag (writeHosts hs) = .ok hs := by
  simp only [parseHostsFlag, Checked.bind_eq_ok, Checked.refuseIf_eq_ok,
    Checked.pure_eq_ok] at hread
  obtain ⟨read, hitems, -, hne, -, hlocal, hread⟩ := hread
  rw [hread] at hne hlocal
  have hclean : ∀ h ∈ hs, Clean (h.ssh.getD "local") ∧ h.ssh ≠ some "local" := by
    intro h hh
    have hmem : some h ∈ read := by simpa using (hread ▸ hh : h ∈ read.filterMap id)
    obtain ⟨item, hitem, hof⟩ := exists_item (Checked.mapM_eq_ok.mp hitems) hmem
    exact clean_of_hostOf (Text.notMem_splitOn hitem) hof
  have hsplit : Text.splitOn ',' (writeHosts hs) = hs.map writeHost := by
    refine Text.splitOn_join (by simpa using hne) fun p hp => ?_
    obtain ⟨h, hh, rfl⟩ := List.mem_map.mp hp
    exact comma_writeHost (hclean h hh).1
  have hback : (hs.map writeHost).mapM hostOf = .ok (hs.map some) := by
    rw [Checked.mapM_eq_ok, List.forall₂_map_left_iff, List.forall₂_map_right_iff,
      List.forall₂_same]
    exact fun h hh => hostOf_write (hclean h hh).1 (hclean h hh).2
  have hall : (hs.map some).filterMap id = hs := by
    rw [List.filterMap_map, Function.id_comp, List.filterMap_some]
  simp only [parseHostsFlag, Checked.bind_eq_ok, Checked.refuseIf_eq_ok, Checked.pure_eq_ok, hsplit]
  exact ⟨_, hback, (), by rwa [hall], (), by rwa [hall], hall⟩

example : (writeHost <$> ·) <$> hostOf " b=tux@h:2222 " = .ok (some "b=tux@h:2222") := by
  decide +kernel

/-- A name without `=` is a host that is called by it. -/
theorem hostsFlag_stable_three : ∃ hs, parseHostsFlag "a=local, b=tux@h:2222,,c" = .ok hs ∧
    writeHosts hs = "a=local,b=tux@h:2222,c=c" ∧ parseHostsFlag (writeHosts hs) = .ok hs := by
  have hread : parseHostsFlag "a=local, b=tux@h:2222,,c" = .ok
      [⟨⟨"a", hostName_a⟩, none⟩, ⟨⟨"b", hostName_b⟩, some "tux@h:2222"⟩,
        ⟨⟨"c", by decide⟩, some "c"⟩] := by decide
  exact ⟨_, hread, by decide, hostsFlag_stable hread⟩

end Hosts

/-! ### From the flags to the nodes -/

section Nodes

variable {a : Flags} {u : UserCluster} {existing : Option Cluster} {f : Facts} {c : Cluster}

/-- What a definition says of a node. -/
structure Asked where
  role : Role
  name : String
  cpu : ℕ
  memory : String
  join : Bool
deriving DecidableEq

def asked (n : Node) : Asked := ⟨n.role, n.name.text, n.cpu, n.memory.text, n.join⟩

/-- The name the flags give. -/
def Flags.named (a : Flags) : String := if truthy a.name then a.name.getD "" else "tk8s"

/-- Node `i + 1` of a role. -/
def Flags.node (a : Flags) (role : Role) (join : Bool) (i : ℕ) : Asked :=
  ⟨role, autoText a.named role (i + 1), a.cpu.toNat, a.memory.toLower, join⟩

/-- The nodes the flags ask for: the first control plane joins, the others unless they wait. -/
def Flags.nodes (a : Flags) : List Asked :=
  (List.range a.controlPlanes.toNat).map (fun i =>
      a.node .controlPlane (i = 0 || !a.deferJoin) i) ++
    (List.range a.workers.toNat).map (a.node .worker true)

/-- A text in lower case stays. -/
lemma toLower_toLower (s : String) : s.toLower.toLower = s.toLower := by
  have hlist : ∀ s : String, s.toLower.toList = s.toList.map Char.toLower := fun s => by
    rw [show s.toLower = s.map Char.toLower from rfl, String.toList_map]
  rw [← String.toList_inj, hlist, hlist, List.map_map]
  exact List.map_congr_left fun ch _ => ch.toLower_toLower_eq_toLower

/-- **A group without names** is as many nodes as it says, numbered on from those of its role. -/
lemma asked_replicate {name : ClusterName} {index k ip : ℕ} {ips : Option (List Net.IPv4Address)}
    {hosts : Option (List String)} {seen : Role → ℕ} {g : NodeGroup} {rest : List NodeGroup}
    {nodes : List Node} (hname : g.name = none)
    (h : expandFrom name index ips hosts ip seen (List.replicate k g ++ rest) = .ok nodes) :
    ∃ tail, expandFrom name index ips hosts (ip + k)
        (Function.update seen g.role (seen g.role + k)) rest = .ok tail ∧
      nodes.map asked = (List.range k).map (fun i => (⟨g.role,
        autoText name.text g.role (seen g.role + i + 1), g.cpu, g.memory.toLower, g.join⟩ :
          Asked)) ++
          tail.map asked := by
  induction k generalizing ip seen nodes with
  | zero => exact ⟨nodes, by simpa using h, by simp⟩
  | succ k ih =>
      rw [List.replicate_succ, List.cons_append] at h
      obtain ⟨node, others, hnode, hothers, rfl⟩ := expandFrom_cons_eq_ok.mp h
      obtain ⟨address, host, memory, -, -, hmemory, rfl⟩ := expandNode_eq_ok.mp hnode
      obtain ⟨tail, htail, hasked⟩ := ih hothers
      refine ⟨tail, ?_, ?_⟩
      · rw [Function.update_self, Function.update_idem] at htail
        rw [← htail]
        congr 1
        · omega
        · congr 1
          omega
      · rw [List.map_cons, hasked, List.range_succ_eq_map, List.map_cons, List.map_map,
          Function.update_self, List.cons_append]
        congr 1
        · simp [asked, hname, autoName, Matching.ofText?_eq_some.mp hmemory]
        · congr 1
          refine List.map_congr_left fun i _ => ?_
          simp only [Function.comp_apply]
          rw [show seen g.role + 1 + i + 1 = seen g.role + (i + 1) + 1 by omega]

/-- The facts behind flags that are accepted. -/
structure Accepted (a : Flags) (u : UserCluster) : Prop where
  controlPlanes : 1 ≤ a.controlPlanes
  workers : 0 ≤ a.workers
  cpu : 1 ≤ a.cpu
  name : u.metadata.name.text = a.named
  nodes : u.spec.nodes = groups a a.memory.toLower
  gvisor : u.spec.gvisor = a.gvisor
  routers : wantedRouters u = a.routers
  hosts : hostsOf a = .ok u.spec.hosts

lemma accepted_of_flags (h : userClusterFromFlags a = .ok u) : Accepted a u := by
  simp only [userClusterFromFlags, normalizeMemory, validateName, Checked.bind_eq_ok,
    Checked.exists_unit, Checked.refuseIf_eq_ok, Checked.ofOption_eq_ok, Checked.pure_eq_ok] at h
  obtain ⟨hcps, -, hworkers, hcpu, memory, ⟨-, rfl⟩, -, -, hosts, hhosts, -, network, hnetwork,
    name, ⟨-, hname⟩, rfl⟩ := h
  refine ⟨by omega, by omega, by omega, Matching.ofText?_eq_some.mp hname, rfl, rfl, ?_, hhosts⟩
  rw [networkOf] at hnetwork
  split_ifs at hnetwork with hnone
  · cases hnetwork
    exact hnone.2.1.symm
  · cases hrange : a.ipRange with
    | none =>
        rw [hrange] at hnetwork
        cases hnetwork
        rfl
    | some text =>
        simp only [hrange, Checked.bind_eq_ok, Checked.ofOption_eq_ok,
          Checked.pure_eq_ok] at hnetwork
        obtain ⟨range, -, rfl⟩ := hnetwork
        rfl

/-- What the flags say of a cluster. -/
structure AsAsked (a : Flags) (c : Cluster) : Prop where
  nodes : c.spec.nodes.map asked = a.nodes
  routers : c.spec.network.routers = a.routers
  gvisor : c.spec.gvisor = a.gvisor
  hosts : if truthy a.hosts then ∃ hs, parseHostsFlag (a.hosts.getD "") = .ok hs ∧
      (c.spec.hosts.getD []).map (fun h => (h.name, h.ssh)) = hs.map (fun h => (h.name, h.ssh))
    else c.spec.hosts = none

/-- Without others, or without workers, there is no group for them: none of their nodes either. -/
lemma unroll_groups (hu : Accepted a u) (memory : String) :
    unroll (groups a memory) = List.replicate 1 (firstGroup a memory) ++
      (List.replicate (a.controlPlanes - 1).toNat (otherGroup a memory) ++
        (List.replicate a.workers.toNat (workerGroup a memory) ++ [])) := by
  have hcount : ∀ {z : ℤ}, 0 < z → (z.toNat.toPNat' : ℕ) = z.toNat := fun hz =>
    PNat.toPNat'_coe (by omega)
  have hworkers := hu.workers
  have hcps := hu.controlPlanes
  rw [unroll, groups, List.flatMap_cons, List.flatMap_append, List.append_nil]
  congr 1
  congr 1
  · split_ifs with hmore
    · rw [List.flatMap_singleton, otherGroup, hcount (by omega)]
    · rw [show (a.controlPlanes - 1).toNat = 0 by omega]
      rfl
  · split_ifs with hsome
    · rw [List.flatMap_singleton, workerGroup, hcount (by omega)]
    · rw [show a.workers.toNat = 0 by omega]
      rfl

lemma asked_groups {index : ℕ} {ips : Option (List Net.IPv4Address)} {hosts : Option (List String)}
    {nodes : List Node} (hu : Accepted a u)
    (h : expandNodes u.metadata.name u.spec.nodes index ips hosts = .ok nodes) :
    nodes.map asked = a.nodes := by
  rw [expandNodes, hu.nodes, unroll_groups hu] at h
  obtain ⟨tail₁, h₁, hfirst⟩ := asked_replicate rfl h
  obtain ⟨tail₂, h₂, hothers⟩ := asked_replicate rfl h₁
  obtain ⟨tail₃, h₃, hworkers⟩ := asked_replicate rfl h₂
  have hcpu : (a.cpu.toNat.toPNat' : ℕ) = a.cpu.toNat := PNat.toPNat'_coe (by have := hu.cpu; omega)
  have hcps : a.controlPlanes.toNat = (a.controlPlanes - 1).toNat + 1 := by
    have := hu.controlPlanes
    omega
  rw [hfirst, hothers, hworkers, ← Except.ok.inj h₃, Flags.nodes, hcps, List.map_nil,
    List.append_nil, ← List.append_assoc]
  congr 1
  · rw [List.range_one, List.map_singleton, List.singleton_append, List.range_succ_eq_map,
      List.map_cons, List.map_map]
    simp [Flags.node, firstGroup, otherGroup, hcpu, hu.name, toLower_toLower, Nat.add_comm 1]
  · refine List.map_congr_left fun i _ => ?_
    simp [Flags.node, firstGroup, otherGroup, workerGroup, hcpu, hu.name, toLower_toLower]

/-- **A cluster is what its flags say**: the control planes, then the workers, each numbered from 1,
with the size asked for; the first control plane joins, whatever the others do; and the hosts are
those of `--hosts`. -/
theorem cluster_of_flags (hflags : userClusterFromFlags a = .ok u)
    (hres : resolve u existing f = .ok c) : AsAsked a c := by
  have hu := accepted_of_flags hflags
  obtain ⟨index, t, hr, rfl⟩ := resolve_eq_ok.mp hres
  obtain ⟨ips, placed, hnodes⟩ := nodes_of_topology hr.built
  refine ⟨asked_groups hu hnodes, (index_of_topology hr.built).2.trans hu.routers, hu.gvisor, ?_⟩
  have hhosts := hu.hosts
  have hbuilt := hr.built
  rw [hostsOf] at hhosts
  rw [topology] at hbuilt
  split_ifs at hhosts ⊢ with hsaid
  · obtain ⟨hs, hread, hspec⟩ := Checked.map_eq_ok.mp hhosts
    rw [← hspec] at hbuilt
    obtain ⟨p, hp⟩ := resolveMulti_eq_ok.mp hbuilt
    exact ⟨hs, hread, by simpa [specOf, hp.hosts] using map_recordHost hp.recorded⟩
  · rw [← Except.ok.inj hhosts] at hbuilt
    exact (resolveSingle_eq_ok.mp hbuilt).hosts

/-- The flags of `--mode ha`. -/
def haFlags : Flags := Mode.ha.set {}

example : haFlags.nodes.map (fun n => (n.name, n.join)) =
    [("tk8s-control-plane-1", true), ("tk8s-control-plane-2", true), ("tk8s-control-plane-3", true),
      ("tk8s-worker-1", true), ("tk8s-worker-2", true), ("tk8s-worker-3", true)] := by
  decide +kernel

theorem cluster_of_haFlags : ∃ u c, userClusterFromFlags haFlags = .ok u ∧
    resolve u none oneNodeFacts = .ok c ∧ AsAsked haFlags c := by
  obtain ⟨c, hrun⟩ : ∃ c, (userClusterFromFlags haFlags >>= fun u => resolve u none oneNodeFacts) =
      .ok c := by
    apply Checked.exists_eq_ok
    decide +kernel
  obtain ⟨u, hu, hc⟩ := Checked.bind_eq_ok.mp hrun
  exact ⟨u, c, hu, hc, cluster_of_flags hu hc⟩

end Nodes

end Tk8s.Args
