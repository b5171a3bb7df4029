import Mathlib.Data.Nat.Bitwise
import Tk8s.Lib.CpuSet
import Tk8s.Lib.FileTree
import Tk8s.Plan.Validate

/-!
`create/nodefs.py`: the files that make a node's kubelet see the cpu and memory of `cluster.yaml`.

* `files`, `links`: what is rendered into a node's directory.
* `cpumapLoop`, `cpumap`, `cpulist`: the two texts the kernel gives for a set of cpus.
* `wordsValue_masks`, `length_masks`: what the loop of `_cpumap` makes of a mask.
* `numaNode_consistent`: **the fake NUMA node is consistent**: list, mask and links denote the cpus
  `0..n-1`.
-/

namespace Tk8s.NodeFs

open FileTree CpuSet

/-! ### What is rendered -/

def kubeReservedCpuMilli : ℕ := 500

def kubeReservedMemory : ℕ := 512 * 2 ^ 20

def sysfsCpu : Path := ["/sys/devices/system/cpu"]

/-- The kubelet's drop-in with the reservation. -/
def dropIn : String :=
  "apiVersion: kubelet.config.k8s.io/v1beta1\nkind: KubeletConfiguration\nkubeReserved:\n" ++
  s!"  cpu: {kubeReservedCpuMilli}m\n  memory: {kubeReservedMemory / 2 ^ 20}Mi\n"

/-- The systemd drop-in with the kubelet's `--config-dir`. -/
def configDirDropIn : String :=
  "# tkctl: the kubelet also reads /etc/kubernetes/kubelet.conf.d (kubeReserved)\n[Service]\n" ++
  "Environment=\"KUBELET_CONFIG_ARGS=--config=/var/lib/kubelet/config.yaml " ++
  "--config-dir=/etc/kubernetes/kubelet.conf.d\"\n"

def nodeDir (state : Path) (name : String) : Path := state ++ ["nodes", name]

/-- The fake NUMA node in a node's directory. -/
def node0 (dir : Path) : Path := dir ++ ["sys-node", "node0"]

/-- The loop of `_cpumap`, the lowest word first. -/
def cpumapLoop (mask : ℕ) (words : List String) : List String :=
  let words := words ++ [hex (mask &&& 0xFFFFFFFF)]
  if mask >>> 32 = 0 then words else cpumapLoop (mask >>> 32) words
termination_by mask
decreasing_by
  rename_i h
  rw [Nat.shiftRight_eq_div_pow] at h ⊢
  omega

/-- The kernel's cpumask text: 32-bit words from the top, hex, comma-separated. -/
def cpumap (cpus : ℕ) : String := Text.join ',' (cpumapLoop ((1 <<< cpus) - 1) []).reverse

def cpulist (cpus : ℕ) : String := if cpus = 1 then "0" else "0-" ++ (cpus - 1).repr

/-- Every regular file under the node's directory, in write order. -/
def files (dir : Path) (node : Node) : List (Path × String) :=
  let kb := memoryBytes node.memory.text / 1024
  let n0 := node0 dir
  [(dir ++ ["meminfo"], s!"MemTotal: {kb} kB\nSwapTotal: 0 kB\n"),
    (dir ++ ["kubelet-reserved.conf"], dropIn),
    (dir ++ ["kubelet-config-dir.conf"], configDirDropIn),
    (n0 ++ ["cpulist"], cpulist node.cpu ++ "\n"),
    (n0 ++ ["cpumap"], cpumap node.cpu ++ "\n"),
    (n0 ++ ["distance"], "10\n"),
    (n0 ++ ["meminfo"],
      s!"Node 0 MemTotal: {kb} kB\nNode 0 MemFree: {kb} kB\nNode 0 MemUsed: 0 kB\n"),
    (n0 ++ ["hugepages", "hugepages-2048kB", "nr_hugepages"], "0\n"),
    (n0 ++ ["hugepages", "hugepages-1048576kB", "nr_hugepages"], "0\n")]

def cpuName (i : ℕ) : String := "cpu" ++ i.repr

/-- `node0/cpuN` and the real `cpuN`, one for each cpu of the node. -/
def links (dir : Path) (node : Node) : List (Path × Path) :=
  (List.range node.cpu).map fun i => (node0 dir ++ [cpuName i], sysfsCpu ++ [cpuName i])

/-! ### The mask -/

/-- The words of a mask, the lowest first. -/
def masks (mask : ℕ) : List ℕ :=
  (mask % 2 ^ 32) :: if mask / 2 ^ 32 = 0 then [] else masks (mask / 2 ^ 32)
termination_by mask

lemma cpumapLoop_eq (mask : ℕ) (words : List String) :
    cpumapLoop mask words = words ++ (masks mask).map hex := by
  induction mask using Nat.strong_induction_on generalizing words with
  | _ mask ih =>
      have hlow : mask &&& 0xFFFFFFFF = mask % 2 ^ 32 := Nat.and_two_pow_sub_one_eq_mod mask 32
      rw [cpumapLoop, masks, hlow, Nat.shiftRight_eq_div_pow]
      split_ifs with h
      · simp
      · rw [ih (mask / 2 ^ 32) (by omega)]
        simp

lemma masks_lt (mask : ℕ) : ∀ w ∈ masks mask, w < 2 ^ 32 := by
  induction mask using Nat.strong_induction_on with
  | _ mask ih =>
      intro w hw
      rw [masks, List.mem_cons] at hw
      rcases hw with rfl | hw
      · exact Nat.mod_lt _ (by decide)
      · split_ifs at hw with h
        · simp at hw
        · exact ih (mask / 2 ^ 32) (by omega) w hw

/-- **No word is lost**: the words of a mask are its digits. -/
theorem wordsValue_masks (mask : ℕ) : wordsValue (masks mask).reverse = mask := by
  induction mask using Nat.strong_induction_on with
  | _ mask ih =>
      rw [masks, List.reverse_cons, wordsValue_concat]
      split_ifs with h
      · simp only [List.reverse_nil, wordsValue, List.foldl_nil]
        omega
      · rw [ih (mask / 2 ^ 32) (by omega)]
        omega

/-- **No word is added**: the loop goes round once for each word that is begun. -/
theorem length_masks {n : ℕ} (hn : 0 < n) : (masks (2 ^ n - 1)).length = (n + 31) / 32 := by
  induction n using Nat.strong_induction_on with
  | _ n ih =>
      by_cases hle : n ≤ 32
      · have hzero : (2 ^ n - 1) / 2 ^ 32 = 0 := by
          have hpow : 2 ^ n ≤ 2 ^ 32 := Nat.pow_le_pow_right (by decide) hle
          exact Nat.div_eq_of_lt (by omega)
        rw [masks, if_pos hzero, List.length_singleton]
        omega
      · obtain ⟨m, rfl⟩ : ∃ m, n = m + 32 := ⟨n - 32, by omega⟩
        have hrest : (2 ^ (m + 32) - 1) / 2 ^ 32 = 2 ^ m - 1 := by
          rw [Nat.pow_add]
          have := Nat.one_le_two_pow (n := m)
          omega
        have hne : 2 ^ m - 1 ≠ 0 := by
          have := Nat.one_lt_two_pow (n := m) (by omega)
          omega
        rw [masks, hrest, if_neg hne, List.length_cons, ih m (by omega) (by omega)]
        omega

/-- What is read of the mask of a number of cpus. -/
lemma readWords_cpumap (cpus : ℕ) :
    readWords (cpumap cpus ++ "\n") = some (masks (2 ^ cpus - 1)).reverse := by
  have hne : masks (2 ^ cpus - 1) ≠ [] := by
    rw [masks]
    exact List.cons_ne_nil _ _
  rw [cpumap, cpumapLoop_eq, List.nil_append, Nat.one_shiftLeft, ← List.map_reverse]
  refine readWords_join (by simpa using hne) fun w hw => ?_
  exact masks_lt _ w (List.mem_reverse.mp hw)

/-! ### The list -/

/-- What is read of the list of a number of cpus. -/
lemma readList_cpulist {cpus : ℕ} (h : 0 < cpus) :
    readList (cpulist cpus ++ "\n") = some (List.range cpus) := by
  have hzero : (0 : ℕ).repr = "0" := rfl
  rw [cpulist]
  split_ifs with hone
  · rw [hone]
    exact readList_of_range (by decide) (by decide) (readRange_repr 0)
  · have hrange : readRange ("0-" ++ (cpus - 1).repr) = some (List.range cpus) := by
      have hread := readRange_range (Nat.zero_le (cpus - 1))
      rw [hzero, Nat.sub_zero, Nat.sub_add_cancel h, ← List.range_eq_range'] at hread
      exact hread
    refine readList_of_range ?_ ?_ hrange
    · intro hempty
      simpa using congrArg String.toList hempty
    · have hcomma : ',' ∉ (cpus - 1).repr.toList := Text.notMem_repr (by decide)
      simpa using hcomma

/-! ### The links -/

/-- The number of a cpu entry: `cpu[0-9]+`. -/
def cpuNumber? (name : String) : Option ℕ :=
  (Text.removePrefix? "cpu" name).bind fun digits =>
    if Text.isDigits digits then some (Text.number digits) else none

/-- The cpus that have an entry in the fake NUMA node. -/
def linkedCpus (dir : Path) (l : List (Path × Path)) : List ℕ :=
  (l.filter fun e => e.1.dropLast = node0 dir).filterMap fun e => e.1.getLast?.bind cpuNumber?

@[simp] lemma cpuNumber?_cpuName (i : ℕ) : cpuNumber? (cpuName i) = some i := by
  rw [cpuNumber?, cpuName, Text.removePrefix?_append, Option.bind_some,
    if_pos (Text.isDigits_repr i), Text.number_repr]

lemma linkedCpus_links (dir : Path) (n : Node) :
    linkedCpus dir (links dir n) = List.range n.cpu := by
  have hall : (links dir n).filter (fun e => e.1.dropLast = node0 dir) = links dir n := by
    rw [List.filter_eq_self]
    intro e he
    obtain ⟨i, -, rfl⟩ := List.mem_map.mp he
    simp
  rw [linkedCpus, hall, links, List.filterMap_map]
  have hread : ((fun e : Path × Path => e.1.getLast?.bind cpuNumber?) ∘ fun i =>
      (node0 dir ++ [cpuName i], sysfsCpu ++ [cpuName i])) = some := by
    funext i
    simp
  rw [hread, List.filterMap_some]

lemma cpuName_inj {i j : ℕ} : cpuName i = cpuName j ↔ i = j := Text.append_repr_inj "cpu"

/-- A link leads to the real cpu of its own number. -/
lemma lookup_links (dir : Path) (n : Node) (i : ℕ) :
    (links dir n).lookup (node0 dir ++ [cpuName i]) =
      if i < n.cpu then some (sysfsCpu ++ [cpuName i]) else none := by
  have hmem : i ∈ List.range n.cpu ↔ i < n.cpu := List.mem_range
  rw [links]
  simp only [← hmem]
  generalize List.range (n.cpu : ℕ) = cpus
  induction cpus with
  | nil => rfl
  | cons j cpus ih =>
      rw [List.map_cons, List.lookup_cons, append_beq]
      by_cases hij : i = j
      · simp [hij]
      · have hne : ([cpuName i] == [cpuName j]) = false := by simpa [cpuName_inj] using hij
        rw [hne]
        simpa [hij] using ih

/-- **The fake NUMA node is consistent**: the cpu list, the mask and the links of a node denote the
cpus `0..n-1`; the mask has a word for each 32 cpus begun, and every link leads to the cpu of its own
number. -/
theorem numaNode_consistent (dir : Path) (n : Node) :
    (∃ text cpus, (files dir n).lookup (node0 dir ++ ["cpulist"]) = some text ∧
      readList text = some cpus ∧ ∀ i, i ∈ cpus ↔ i < n.cpu) ∧
    (∃ text words, (files dir n).lookup (node0 dir ++ ["cpumap"]) = some text ∧
      readWords text = some words ∧ words.length = (n.cpu + 31) / 32 ∧
      wordsValue words = 2 ^ (n.cpu : ℕ) - 1 ∧
      ∀ i, (wordsValue words).testBit i = true ↔ i < n.cpu) ∧
    linkedCpus dir (links dir n) = List.range n.cpu ∧
    ∀ i, (links dir n).lookup (node0 dir ++ [cpuName i]) =
      if i < n.cpu then some (sysfsCpu ++ [cpuName i]) else none := by
  have hlist : (files dir n).lookup (node0 dir ++ ["cpulist"]) = some (cpulist n.cpu ++ "\n") := by
    simp [files, node0, List.lookup_cons]
  have hmap : (files dir n).lookup (node0 dir ++ ["cpumap"]) = some (cpumap n.cpu ++ "\n") := by
    simp [files, node0, List.lookup_cons]
  refine ⟨⟨_, _, hlist, readList_cpulist n.cpu.pos, fun i => List.mem_range⟩,
    ⟨_, _, hmap, readWords_cpumap n.cpu, ?_, wordsValue_masks _, fun i => ?_⟩,
    linkedCpus_links dir n, lookup_links dir n⟩
  · rw [List.length_reverse, length_masks n.cpu.pos]
  · rw [wordsValue_masks, Nat.testBit_two_pow_sub_one, decide_eq_true_eq]

end Tk8s.NodeFs
