import Tk8s.Create.UnitFiles

/-!
The paths of the units phase.

* `FilePath`, `LinkPath`: where a file is, and where a link. `filePath_render`, `linkPath_links`:
  **what a host gets is there**.
* `OwnPath.apart`: **no path of the phase is above another**.
* `file_in_node0`: the `node0` of a node of a sized cluster has a file in it.
* `shaped`: **what a machine gets stands apart**, whatever the hosts on it are.
-/

namespace Tk8s.UnitFiles

open Net FileTree

/-! ### Dicts -/

section Dict

variable {β : Type} {items out : List (Path × β)} {x : Path × β} {p q : Path} {v : β}

lemma mem_of_setItem (h : x ∈ setItem p v out) : x = (p, v) ∨ x ∈ out := by
  induction out with
  | nil => simpa [setItem] using h
  | cons y out ih =>
      rw [setItem] at h
      split_ifs at h
      · exact (List.mem_cons.mp h).imp_right (List.mem_cons_of_mem y)
      · rcases List.mem_cons.mp h with rfl | hmem
        · exact Or.inr List.mem_cons_self
        · exact (ih hmem).imp_right (List.mem_cons_of_mem y)

lemma keys_setItem : q ∈ (setItem p v out).map (·.1) ↔ q = p ∨ q ∈ out.map (·.1) := by
  induction out with
  | nil => simp [setItem]
  | cons y out ih =>
      rw [setItem]
      split_ifs with hy
      · simp [hy]
      · rw [List.map_cons, List.mem_cons, ih, List.map_cons, List.mem_cons]
        tauto

lemma nodup_setItem (h : (out.map (·.1)).Nodup) : ((setItem p v out).map (·.1)).Nodup := by
  induction out with
  | nil => simp [setItem]
  | cons y out ih =>
      rw [List.map_cons, List.nodup_cons] at h
      rw [setItem]
      split_ifs with hy
      · rw [List.map_cons, List.nodup_cons, ← hy]
        exact h
      · rw [List.map_cons, List.nodup_cons, keys_setItem, not_or]
        exact ⟨⟨hy, h.1⟩, ih h.2⟩

/-- A dict holds items it was made of. -/
lemma mem_of_dictOf (h : x ∈ dictOf items) : x ∈ items := by
  have hfold : ∀ out : List (Path × β), x ∈ items.foldl (fun out x => setItem x.1 x.2 out) out →
      x ∈ out ∨ x ∈ items := by
    clear h
    induction items with
    | nil => exact fun out h => Or.inl h
    | cons y items ih =>
        intro out h
        rcases ih _ h with hmem | hmem
        · rcases mem_of_setItem hmem with rfl | hout
          · exact Or.inr List.mem_cons_self
          · exact Or.inl hout
        · exact Or.inr (List.mem_cons_of_mem y hmem)
  simpa using hfold [] h

/-- And every path of theirs. -/
lemma keys_dictOf : q ∈ (dictOf items).map (·.1) ↔ q ∈ items.map (·.1) := by
  have hfold : ∀ out : List (Path × β),
      q ∈ (items.foldl (fun out x => setItem x.1 x.2 out) out).map (·.1) ↔
        q ∈ out.map (·.1) ∨ q ∈ items.map (·.1) := by
    induction items with
    | nil => simp
    | cons y items ih =>
        intro out
        rw [List.foldl_cons, ih, keys_setItem, List.map_cons, List.mem_cons]
        tauto
  rw [dictOf, hfold]
  simp

lemma exists_dictOf (hx : (p, v) ∈ items) : ∃ w, (p, w) ∈ dictOf items := by
  obtain ⟨y, hy, rfl⟩ := List.mem_map.mp (keys_dictOf.mpr (List.mem_map_of_mem hx))
  exact ⟨y.2, hy⟩

/-- Each path once. -/
lemma nodup_dictOf (items : List (Path × β)) : ((dictOf items).map (·.1)).Nodup := by
  have hfold : ∀ out : List (Path × β), (out.map (·.1)).Nodup →
      ((items.foldl (fun out x => setItem x.1 x.2 out) out).map (·.1)).Nodup := by
    induction items with
    | nil => exact fun out h => h
    | cons y items ih => exact fun out h => ih _ (nodup_setItem h)
  exact hfold [] List.nodup_nil

end Dict

/-! ### Where the files and the links are -/

/-- A node's files, below its directory. -/
def nodeTails : List Path :=
  [["meminfo"], ["kubelet-reserved.conf"], ["kubelet-config-dir.conf"],
    ["sys-node", "node0", "cpulist"], ["sys-node", "node0", "cpumap"],
    ["sys-node", "node0", "distance"], ["sys-node", "node0", "meminfo"],
    ["sys-node", "node0", "hugepages", "hugepages-2048kB", "nr_hugepages"],
    ["sys-node", "node0", "hugepages", "hugepages-1048576kB", "nr_hugepages"]]

/-- A node's files and its links, below its directory. -/
def NodeTail (tail : Path) : Prop :=
  tail ∈ nodeTails ∨ ∃ i, tail = ["sys-node", "node0", NodeFs.cpuName i]

/-- The paths of the phase; in the directory of a node those with one of the tails. -/
inductive OwnPath (e : Env) (c : Cluster) (tails : Path → Prop) : Path → Prop
  | quadlet {f : String} (h : f ≠ "clusters") : OwnPath e c tails (unitDir c ++ [f])
  | systemd {f : String} (h : f ≠ "clusters") : OwnPath e c tails (systemdDir ++ [f])
  | boot {dir : String} (h : dir ∈ ["router", "router-1", "router-2"]) :
      OwnPath e c tails (stateDir e c ++ [dir, "tkctl.boot"])
  | script {dir f : String} (h : dir ∈ ["router", "router-1", "router-2"]) :
      OwnPath e c tails (stateDir e c ++ [dir, "scripts", f])
  | policy : OwnPath e c tails (stateDir e c ++ ["logs", "apiserver", "audit-policy.yaml"])
  | node {name : String} {tail : Path} (h : tails tail) :
      OwnPath e c tails (NodeFs.nodeDir (stateDir e c) name ++ tail)

variable {e : Env} {c : Cluster} {p q : Path} {host : Option String}

lemma OwnPath.mono {tails tails' : Path → Prop} (h : OwnPath e c tails p)
    (hsub : ∀ t, tails t → tails' t) : OwnPath e c tails' p := by
  cases h with
  | quadlet h => exact .quadlet h
  | systemd h => exact .systemd h
  | boot h => exact .boot h
  | script h => exact .script h
  | policy => exact .policy
  | node h => exact .node (hsub _ h)

/-- The entries of `node0` that are no links. -/
def plainNames : List String := ["cpulist", "cpumap", "distance", "meminfo", "hugepages"]

lemma mem_plainNames {tail : Path} (h : tail ∈ nodeTails) {s : String}
    (hs : ["sys-node", "node0", s] <+: tail) : s ∈ plainNames := by
  simp only [nodeTails, List.mem_cons, List.not_mem_nil, or_false] at h
  rcases h with rfl | rfl | rfl | rfl | rfl | rfl | rfl | rfl | rfl <;>
    simp_all [List.cons_prefix_cons, plainNames]

lemma cpuName_notMem_plainNames (i : ℕ) : NodeFs.cpuName i ∉ plainNames := by
  intro h
  have hnone : plainNames.all (fun s => NodeFs.cpuNumber? s = none) = true := by decide
  simpa using List.all_eq_true.mp hnone _ h

lemma nodeTail_unique {a b : Path} (ha : NodeTail a) (hb : NodeTail b) (h : a <+: b) :
    a = b := by
  rcases ha with ha | ⟨i, rfl⟩
  · rcases hb with hb | ⟨j, rfl⟩
    · have hall : nodeTails.all (fun a => nodeTails.all fun b => a <+: b → a = b) = true := by
        decide
      have hab := List.all_eq_true.mp (List.all_eq_true.mp hall a ha) b hb
      exact of_decide_eq_true hab h
    · have hnone : nodeTails.all (fun a => !decide (a <+: ["sys-node", "node0"])) = true := by
        decide
      have hcut : a <+: ["sys-node", "node0"] ++ [NodeFs.cpuName j] := h
      rcases List.prefix_concat_iff.mp hcut with heq | habove
      · exact heq
      · simpa [habove] using List.all_eq_true.mp hnone a ha
  · rcases hb with hb | ⟨j, rfl⟩
    · exact absurd (mem_plainNames hb h) (cpuName_notMem_plainNames i)
    · exact h.eq_of_length rfl

/-- **The paths stand apart.** -/
theorem OwnPath.apart (hp : OwnPath e c NodeTail p) (hq : OwnPath e c NodeTail q) (h : p <+: q) :
    p = q := by
  cases hp <;> cases hq <;>
    simp_all [unitDir, systemdDir, stateDir, NodeFs.nodeDir, List.cons_prefix_cons]
  case node.script hdir => simp [← h.1] at hdir
  case node.node ha _ _ hb => exact nodeTail_unique ha hb h.2

lemma OwnPath.two_le_length {tails : Path → Prop} (h : OwnPath e c tails p) : 2 ≤ p.length := by
  cases h <;> simp [unitDir, systemdDir, stateDir, NodeFs.nodeDir]

/-- Where a file of the phase is. -/
def FilePath (e : Env) (c : Cluster) : Path → Prop := OwnPath e c (· ∈ nodeTails)

/-- Where a link is: in the `node0` of a node. -/
def LinkPath (e : Env) (c : Cluster) (p : Path) : Prop :=
  ∃ name i, p = NodeFs.node0 (NodeFs.nodeDir (stateDir e c) name) ++ [NodeFs.cpuName i]

lemma FilePath.own (h : FilePath e c p) : OwnPath e c NodeTail p := h.mono fun _ ht => Or.inl ht

lemma LinkPath.own (h : LinkPath e c p) : OwnPath e c NodeTail p := by
  obtain ⟨name, i, rfl⟩ := h
  rw [NodeFs.node0, List.append_assoc]
  exact .node (Or.inr ⟨i, rfl⟩)

/-- An entry of the `node0` of a node, on the way to a file. -/
lemma FilePath.plain (h : FilePath e c p) {name s : String}
    (hs : NodeFs.node0 (NodeFs.nodeDir (stateDir e c) name) ++ [s] <+: p) : s ∈ plainNames := by
  cases h <;>
    simp_all [NodeFs.node0, unitDir, systemdDir, stateDir, NodeFs.nodeDir, List.cons_prefix_cons]
  case node ht => exact mem_plainNames ht hs.2

lemma LinkPath.not_file (hl : LinkPath e c p) : ¬ FilePath e c p := by
  obtain ⟨name, i, rfl⟩ := hl
  exact fun hf => cpuName_notMem_plainNames i (hf.plain List.prefix_rfl)

lemma FilePath.not_above (h : FilePath e c p) (name : String) :
    ¬ p <+: NodeFs.node0 (NodeFs.nodeDir (stateDir e c) name) := by
  intro habove
  have hlink : LinkPath e c (NodeFs.node0 (NodeFs.nodeDir (stateDir e c) name) ++
    [NodeFs.cpuName 0]) := ⟨name, 0, rfl⟩
  have heq := h.own.apart hlink.own (habove.trans (List.prefix_append _ _))
  exact hlink.not_file (heq ▸ h)

lemma LinkPath.not_above (h : LinkPath e c p) (name : String) :
    ¬ p <+: NodeFs.node0 (NodeFs.nodeDir (stateDir e c) name) := by
  obtain ⟨name', i, rfl⟩ := h
  intro habove
  have hlen := habove.length_le
  simp [NodeFs.node0, NodeFs.nodeDir] at hlen

/-! ### What a host gets -/

lemma ne_clusters {name suffix : String} (h : '.' ∈ suffix.toList) :
    name ++ suffix ≠ "clusters" := by
  intro heq
  have hmem : '.' ∈ (name ++ suffix).toList := by simp [h]
  rw [heq] at hmem
  exact absurd hmem (by decide)

lemma dir_of_routers {routers : List Router} (h : c.routers = .ok routers) :
    ∀ r ∈ routers, r.dir ∈ ["router", "router-1", "router-2"] := by
  rw [Cluster.routers] at h
  cases hn : c.spec.network.routers with
  | one =>
      simp only [hn, Checked.bind_eq_ok, Checked.pure_eq_ok] at h
      obtain ⟨-, -, rfl⟩ := h
      simp
  | two =>
      simp only [hn, Checked.bind_eq_ok, Checked.pure_eq_ok] at h
      obtain ⟨-, -, -, -, -, -, rfl⟩ := h
      simp

lemma filePath_routerFiles {r : Router} (h : r.dir ∈ ["router", "router-1", "router-2"]) :
    ∀ x ∈ routerFiles e c r, FilePath e c x.1 := by
  have hdot : '.' ∈ ".container".toList := by decide
  simp only [routerFiles, List.append_assoc, List.cons_append, List.nil_append]
  simp only [List.forall_mem_cons, List.not_mem_nil, false_implies, implies_true, and_true]
  exact ⟨.boot h, .script h, .script h, .quadlet (ne_clusters hdot)⟩

lemma paths_nodeFs (dir : Path) (n : Node) :
    (NodeFs.files dir n).map (·.1) = nodeTails.map (dir ++ ·) := by
  simp [NodeFs.files, NodeFs.node0, nodeTails]

lemma filePath_nodeFiles {after : String} {n : Node} :
    ∀ x ∈ nodeFiles e c after n, FilePath e c x.1 := by
  intro x hx
  rcases List.mem_append.mp hx with hx | hx
  · split_ifs at hx with hsized
    · have hpath := List.mem_map_of_mem (f := Prod.fst) hx
      rw [paths_nodeFs, List.mem_map] at hpath
      obtain ⟨tail, htail, heq⟩ := hpath
      rw [← heq]
      exact .node htail
    · simp at hx
  · rw [List.mem_singleton.mp hx]
    exact .quadlet (ne_clusters (by decide))

/-- **Every file of a host is where the files are.** -/
theorem filePath_render {files : List (Path × String)} (h : render e c host = .ok files) :
    ∀ x ∈ files, FilePath e c x.1 := by
  simp only [render, Checked.bind_eq_ok, Checked.pure_eq_ok, Checked.exists_unit] at h
  obtain ⟨-, first, -, routers, hrouters, wants, -, routes, -, rfl⟩ := h
  have hdirs : ∀ r ∈ routers, r.dir ∈ ["router", "router-1", "router-2"] := by
    simp only [mineRouters, Checked.bind_eq_ok, Checked.pure_eq_ok] at hrouters
    obtain ⟨all, hall, rfl⟩ := hrouters
    exact fun r hr => dir_of_routers hall r (List.mem_filter.mp hr).1
  intro x hx
  have hmem := mem_of_dictOf hx
  simp only [List.mem_append, or_assoc] at hmem
  rcases hmem with hnet | hrouter | hpolicy | hnode | htarget | hroutes
  · have hnetwork : x.1 = unitDir c ++ [c.name ++ ".network"] := by
      cases hme : c.hostNamed host <;> cases hmulti : c.multiHost <;> simp_all
    rw [hnetwork]
    exact .quadlet (ne_clusters (by decide))
  · obtain ⟨r, hr, hx⟩ := List.mem_flatMap.mp hrouter
    exact filePath_routerFiles (hdirs r hr) x hx
  · split_ifs at hpolicy
    · rw [List.mem_singleton.mp hpolicy]
      exact .policy
    · simp at hpolicy
  · obtain ⟨n, -, hx⟩ := List.mem_flatMap.mp hnode
    exact filePath_nodeFiles x hx
  · rw [List.mem_singleton.mp htarget]
    exact .systemd (ne_clusters (by decide))
  · obtain ⟨text, -, rfl⟩ := List.mem_map.mp hroutes
    exact .systemd (ne_clusters (by decide))

/-- The directories whose entries are looked at have files in them. -/
lemma file_in_node0 {files : List (Path × String)} (h : render e c host = .ok files)
    (hsized : sized c = true) {n0 : Path} (hn : n0 ∈ node0s e c host) :
    ∃ text, (n0 ++ ["cpulist"], text) ∈ files := by
  obtain ⟨n, hnode, rfl⟩ := List.mem_map.mp hn
  simp only [render, Checked.bind_eq_ok, Checked.pure_eq_ok, Checked.exists_unit,
    Checked.refuseIf_eq_ok, not_and] at h
  obtain ⟨hhost, first, -, routers, -, wants, -, routes, -, rfl⟩ := h
  have hmine : ∃ p ∈ mineNodes c host, p.1 = n := by
    obtain ⟨hmem, hat⟩ := List.mem_filter.mp hnode
    obtain ⟨i, hi⟩ := List.mem_iff_getElem?.mp hmem
    refine ⟨(n, decide (i = 0)), List.mem_filter.mpr ⟨List.mem_map.mpr ⟨(n, i), ?_, rfl⟩, ?_⟩, rfl⟩
    · exact List.mem_zipIdx_iff_getElem?.mpr hi
    · cases hmulti : c.multiHost with
      | false => rfl
      | true =>
          simp only [Bool.or_eq_true, decide_eq_true_eq] at hat
          simpa using hat.resolve_left (hhost hmulti)
  obtain ⟨p, hp, rfl⟩ := hmine
  refine exists_dictOf (v := NodeFs.cpulist p.1.cpu ++ "\n") ?_
  simp only [List.mem_append, or_assoc]
  refine Or.inr (Or.inr (Or.inr (Or.inl (List.mem_flatMap.mpr ⟨p, hp, ?_⟩))))
  rw [nodeFiles, if_pos hsized]
  exact List.mem_append_left _ (by simp [NodeFs.files])

/-! ### The links -/

lemma isCpu_cpuName (i : ℕ) : HostFs.isCpu (NodeFs.cpuName i) = true := by
  rw [HostFs.isCpu, NodeFs.cpuName, Text.removePrefix?_append, Option.any_some, Text.isDigits_repr]

lemma not_isCpu_plainNames : plainNames.all (fun s => !HostFs.isCpu s) = true := by decide

lemma words_plainNames : plainNames.all (fun s => HostFs.words s = [s]) = true := by decide

/-- A real cpu. -/
def realCpu (i : ℕ) : Path := NodeFs.sysfsCpu ++ [NodeFs.cpuName i]

lemma strip_of_forall {text : String} (h : ∀ ch ∈ text.toList, HostFs.isBlank ch = false) :
    HostFs.strip text = text := by
  have hdrop : ∀ l : List Char, (∀ ch ∈ l, HostFs.isBlank ch = false) →
      l.dropWhile HostFs.isBlank = l := by
    intro l hl
    rw [List.dropWhile_eq_self_iff]
    intro hpos
    simpa using hl _ (List.getElem_mem hpos)
  rw [HostFs.strip, hdrop _ h, hdrop _ fun ch hch => h ch (List.mem_reverse.mp hch),
    List.reverse_reverse, String.ofList_toList]

lemma shown_realCpu (i : ℕ) : HostFs.Shown (realCpu i) := by
  have htext : (realCpu i).text = "/sys/devices/system/cpu/cpu" ++ i.repr := by
    rw [show (realCpu i).text = "/sys/devices/system/cpu" ++ "/" ++ ("cpu" ++ i.repr) from rfl,
      ← String.append_assoc]
    rfl
  refine ⟨?_, strip_of_forall fun ch hch => ?_⟩
  · rw [htext]
    intro h
    simpa using congrArg String.toList h
  · rw [htext, String.toList_append, List.mem_append] at hch
    cases hch with
    | inl hmem =>
        have hall : "/sys/devices/system/cpu/cpu".toList.all (fun c => !HostFs.isBlank c) =
            true := by
          decide
        simpa using List.all_eq_true.mp hall ch hmem
    | inr hmem =>
        have hdigits := Text.isDigits_repr i
        rw [Text.isDigits, Bool.and_eq_true, List.all_eq_true] at hdigits
        exact HostFs.isBlank_of_isDigit (hdigits.2 ch hmem)

/-- **Every link of a host is below the directory of a node**, and leads to the cpu of its name. -/
theorem linkPath_links : ∀ l ∈ links e c host, ∃ name i,
    l = (NodeFs.node0 (NodeFs.nodeDir (stateDir e c) name) ++ [NodeFs.cpuName i], realCpu i) := by
  intro l hl
  rw [links] at hl
  split_ifs at hl
  · obtain ⟨n, -, hl⟩ := List.mem_flatMap.mp (mem_of_dictOf hl)
    obtain ⟨i, -, rfl⟩ := List.mem_map.mp hl
    exact ⟨_, i, rfl⟩
  · simp at hl

/-! ### The shape -/

/-- A share made of what a host gets. -/
structure Made (e : Env) (c : Cluster) (routers : List Router) (x : HostFs.Share) : Prop where
  files : ∀ f ∈ x.files, FilePath e c f.path ∧ f.asRoot = needsSudo e c routers f.path
  links : ∀ l ∈ x.links, ∃ name i,
    l = (NodeFs.node0 (NodeFs.nodeDir (stateDir e c) name) ++ [NodeFs.cpuName i], realCpu i)
  dirs : ∀ n0 ∈ x.dirs, ∃ name, n0 = NodeFs.node0 (NodeFs.nodeDir (stateDir e c) name)

/-- **The paths stand apart**, whatever a machine gets. -/
theorem shaped {routers : List Router} {xs : List HostFs.Share} (h : ∀ x ∈ xs, Made e c routers x) :
    HostFs.Shaped xs := by
  have hfile : ∀ f ∈ HostFs.allFiles xs,
      FilePath e c f.path ∧ f.asRoot = needsSudo e c routers f.path := by
    intro f hf
    obtain ⟨x, hx, hf⟩ := List.mem_flatMap.mp hf
    exact (h x hx).files f hf
  have hlink : ∀ l ∈ HostFs.allLinks xs, ∃ name i,
      l = (NodeFs.node0 (NodeFs.nodeDir (stateDir e c) name) ++ [NodeFs.cpuName i], realCpu i) := by
    intro l hl
    obtain ⟨x, hx, hl⟩ := List.mem_flatMap.mp hl
    exact (h x hx).links l hl
  have hdir : ∀ n0 ∈ HostFs.allDirs xs,
      ∃ name, n0 = NodeFs.node0 (NodeFs.nodeDir (stateDir e c) name) := by
    intro n0 hn
    obtain ⟨x, hx, hn⟩ := List.mem_flatMap.mp hn
    exact (h x hx).dirs n0 hn
  have hpath : ∀ l ∈ HostFs.allLinks xs, LinkPath e c l.1 := by
    intro l hl
    obtain ⟨name, i, rfl⟩ := hlink l hl
    exact ⟨name, i, rfl⟩
  have hown : ∀ a ∈ HostFs.allSteps xs, OwnPath e c NodeTail a.path := by
    intro a ha
    cases a with
    | file f => exact (hfile f (HostFs.file_mem_steps.mp ha)).1.own
    | link l => exact (hpath l (HostFs.link_mem_steps.mp ha)).own
  refine ⟨fun a ha hne => ?_, fun a ha b hb => (hown a ha).apart (hown b hb),
    fun a ha b hb heq => ?_, fun l hl => ?_, fun n0 hn => ⟨?_, fun a ha => ?_⟩, fun n0 hn n1 hn1 hpre => ?_,
    fun n0 hn a ha s hs => ?_⟩
  · simpa [hne] using (hown a ha).two_le_length
  · cases a with
    | file f =>
        have hf := hfile f (HostFs.file_mem_steps.mp ha)
        cases b with
        | file g =>
            have hpaths : f.path = g.path := heq
            rw [HostFs.Step.Alike, hf.2, (hfile g (HostFs.file_mem_steps.mp hb)).2, hpaths]
        | link m =>
            have hpaths : f.path = m.1 := heq
            exact absurd (hpaths ▸ hf.1) (hpath m (HostFs.link_mem_steps.mp hb)).not_file
    | link l =>
        cases b with
        | file g =>
            have hpaths : l.1 = g.path := heq
            have hg := (hfile g (HostFs.file_mem_steps.mp hb)).1
            exact absurd (hpaths ▸ hg) (hpath l (HostFs.link_mem_steps.mp ha)).not_file
        | link m =>
            obtain ⟨name, i, rfl⟩ := hlink l (HostFs.link_mem_steps.mp ha)
            obtain ⟨name', j, rfl⟩ := hlink m (HostFs.link_mem_steps.mp hb)
            have hpaths : NodeFs.node0 (NodeFs.nodeDir (stateDir e c) name) ++ [NodeFs.cpuName i] =
              NodeFs.node0 (NodeFs.nodeDir (stateDir e c) name') ++ [NodeFs.cpuName j] := heq
            have hij : NodeFs.cpuName i = NodeFs.cpuName j :=
              (List.append_singleton_inj.mp hpaths).2
            show realCpu i = realCpu j
            rw [NodeFs.cpuName_inj.mp hij]
  · obtain ⟨name, i, rfl⟩ := hlink l hl
    exact shown_realCpu i
  · obtain ⟨name, rfl⟩ := hdir n0 hn
    simp [NodeFs.node0]
  · obtain ⟨name, rfl⟩ := hdir n0 hn
    cases a with
    | file f => exact (hfile f (HostFs.file_mem_steps.mp ha)).1.not_above name
    | link l => exact (hpath l (HostFs.link_mem_steps.mp ha)).not_above name
  · obtain ⟨name, rfl⟩ := hdir n0 hn
    obtain ⟨name', rfl⟩ := hdir n1 hn1
    exact hpre.eq_of_length (by simp [NodeFs.node0, NodeFs.nodeDir])
  · obtain ⟨name, rfl⟩ := hdir n0 hn
    cases a with
    | file f =>
        have hplain := (hfile f (HostFs.file_mem_steps.mp ha)).1.plain hs
        refine ⟨by simpa using List.all_eq_true.mp words_plainNames s hplain, fun hcpu => ?_⟩
        simpa [hcpu] using List.all_eq_true.mp not_isCpu_plainNames s hplain
    | link l =>
        obtain ⟨name', i, rfl⟩ := hlink l (HostFs.link_mem_steps.mp ha)
        have heq := hs.eq_of_length (by simp [HostFs.Step.path, NodeFs.node0, NodeFs.nodeDir])
        have hname : s = NodeFs.cpuName i := (List.append_singleton_inj.mp heq).2
        exact ⟨hname ▸ HostFs.words_of_isCpu (isCpu_cpuName i), fun _ => ⟨_, rfl, heq.symm⟩⟩

end Tk8s.UnitFiles
