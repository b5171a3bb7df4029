import Tk8s.Create.Disks
import Tk8s.Create.PerHost
import Tk8s.Host.Ssh
import Tk8s.Node.Add

/-!
`create/cni.py`, the host-routes phase: the pod CIDRs Kubernetes gave the nodes are recorded in
`cluster.yaml`, and the routes unit on the operator is rendered from them.

* `nodePodCidrs`: kubectl's answer, node by node.
* `hostRoutesDone`, `hostRoutesRun`: the phase. `routesCurrent`, `writeRoutes`: its part of `units.py`.
* `Agrees`: done says what it should, a run that succeeds is done, one that refuses changes nothing.
* `file_of_refused`: **a run that refuses leaves `cluster.yaml` and every file alone**.
* `agrees_iff`: **they agree exactly when** no joined node without a CIDR goes unnoticed and what a run
  records and writes reads as it was reported and rendered.
-/

namespace Tk8s.HostRoutes

open Net FileTree

/-! ### The phase -/

/-- `node_pod_cidrs`: node name to pod CIDR, empty while the node has none. -/
def nodePodCidrs (answer : Result) : Except Raised (String → Option String) := do
  Checked.refuseIf (answer.returncode ≠ 0)
    (.phaseFailed s!"kubectl get nodes failed: {HostFs.strip answer.stderr}")
  return (Text.lines answer.stdout).foldl (fun out line =>
    match HostFs.words line with
    | [] => out
    | name :: fields => Function.update out name (some (fields.headD ""))) fun _ => none

/-- The operator's `cluster.yaml`, its copies on the other hosts, and the files of every machine. -/
structure Operator where
  file : Cluster
  copies : MachineId → Option Cluster
  disks : Disks

/-- `<systemd_dir>/<cluster>-routes.service`. -/
def routesPath (c : Cluster) : Path := ["/etc/systemd/system", c.name ++ "-routes.service"]

/-- `routes_current`. -/
def routesCurrent (e : Env) (c : Cluster) (d : Disks) : Except Raised Bool := do
  let entries ← perHostRender e c
  let routers ← c.routers
  entries.allM fun hf =>
    match hf.routes with
    | none => return true
    | some text => do
        let path := (routesPath c).text
        -- the call itself raises where a directory is read without sudo
        let found ← Checked.ofOption (.hostError s!"[Errno 21] Is a directory: '{path}'")
          (HostFs.read (kindOf hf.machine) (d hf.machine) (routesPath c)
            (needsSudo e c routers (routesPath c)))
        return found = some text

/-- `host_routes_done`. -/
def hostRoutesDone (e : Env) (answer : Result) (s : Operator) : Except Raised Bool := do
  let cidrs ← nodePodCidrs answer
  if cidrsRecorded s.file cidrs then routesCurrent e s.file s.disks else return false

/-- A `systemctl` call; it changes no file. -/
def systemctl : Script Tree := Script.command fun t => t

/-- `write_routes`. -/
def writeRoutes (e : Env) (c : Cluster) : Script Disks :=
  match perHostRender e c, c.routers with
  | .ok entries, .ok routers => Script.each entries fun hf =>
      match hf.routes with
      | none => Script.skip
      | some text => onDisk hf.machine <|
          Script.seq (HostFs.call fun t => HostFs.write (kindOf hf.machine) t (routesPath c) text
              (needsSudo e c routers (routesPath c)))
            (Script.seq systemctl systemctl)
  | _, _ => Script.fail

/-- `save_cluster`: `cluster.yaml` on the operator, and a copy on every other host. -/
def saveCluster (c : Cluster) : Script Operator :=
  Script.seq (Script.command fun s => { s with file := c }) <|
    Script.each (((perHost c).map (·.2)).filter (· ≠ none)) fun id =>
      Script.command fun s => { s with copies := Function.update s.copies id (some c) }

/-- What a run records, or why it refuses. -/
def checkedCidrs (c : Cluster) (answer : Result) : Except Raised Cluster := do
  let cidrs ← nodePodCidrs answer
  c.spec.nodes.forM fun n =>
    let name := n.name.text
    Checked.refuseIf (n.join = true ∧ cidrs name = some "")
      (.phaseFailed s!"{name} has no pod CIDR yet (kubectl get node {name} -o yaml)")
  withPodCidrs c cidrs

/-- `host_routes_run`. -/
def hostRoutesRun (e : Env) (answer : Result) : Script Operator :=
  Script.ask fun s =>
    match checkedCidrs s.file answer with
    | .error _ => Script.fail
    | .ok c =>
        Script.seq (saveCluster c) <|
          Script.within (fun s => s.disks) (fun d s => { s with disks := d }) (writeRoutes e c)

/-! ### Agreement -/

variable {e : Env} {answer : Result} {s s' : Operator} {c c' : Cluster} {d d' : Disks}
  {cidrs : String → Option String}

/-- Some machine has the routes unit, and what is read there is the rendering of the record. -/
def UnitCurrent (e : Env) (c : Cluster) (d : Disks) : Prop :=
  ∃ entries routers, perHostRender e c = .ok entries ∧ c.routers = .ok routers ∧
    (∃ hf ∈ entries, hf.routes.isSome = true) ∧
    ∀ hf ∈ entries, ∀ text, hf.routes = some text →
      HostFs.read (kindOf hf.machine) (d hf.machine) (routesPath c)
        (needsSudo e c routers (routesPath c)) = some (some text)

/-- Every registered node that is to be joined has a pod CIDR, and it is recorded. -/
def AllRecorded (c : Cluster) (answer : Result) : Prop :=
  ∀ cidrs, nodePodCidrs answer = .ok cidrs → ∀ n ∈ c.spec.nodes, n.join = true →
    ∀ text, cidrs n.name.text = some text →
      text ≠ "" ∧ ∃ cidr, n.podCidr = some cidr ∧ cidr.text = text

/-- A run that refuses. -/
def Refuses (c : Cluster) (answer : Result) : Prop := ∃ err, checkedCidrs c answer = .error err

/-- What done and run promise each other. -/
structure Agrees (e : Env) (answer : Result) (s : Operator) : Prop where
  done : hostRoutesDone e answer s = .ok true →
    AllRecorded s.file answer ∧ UnitCurrent e s.file s.disks
  run : ∀ s', (hostRoutesRun e answer).Ends s s' → hostRoutesDone e answer s' = .ok true
  refuses : Refuses s.file answer → ∀ s', (hostRoutesRun e answer).Reaches s s' →
    s'.file = s.file ∧ s'.disks = s.disks

/-! ### A run that refuses -/

/-- **A run that refuses leaves `cluster.yaml` and every file alone.** -/
theorem file_of_refused (h : Refuses s.file answer) (hs : (hostRoutesRun e answer).Reaches s s') :
    s' = s := by
  obtain ⟨err, herr⟩ := h
  rw [hostRoutesRun, Script.reaches_ask, herr] at hs
  exact Script.reaches_fail.mp hs

/-! ### Who has the routes unit -/

/-- The entries with a routes unit, by their machines. -/
lemma routes_machines {l : List HostRender} (h : perHostRender e c = .ok l) :
    (l.filter (·.routes.isSome)).map (·.machine) = routesMachines c := by
  rw [perHostRender, Checked.mapM_eq_ok] at h
  rw [routesMachines]
  generalize perHost c = hosts at h
  induction h with
  | nil => rfl
  | cons hab _ ih =>
      rename_i a b as bs _
      simp only [renderHost, Checked.bind_eq_ok, Checked.pure_eq_ok] at hab
      obtain ⟨units, -, wants, -, routes, hroutes, rfl⟩ := hab
      have hsome := isSome_hostRoutes hroutes
      simp only [List.filter_cons, hsome]
      cases hop : operatorHere c a.1 <;> simp [ih]

lemma routesMachines_congr (h : c'.spec.hosts = c.spec.hosts) :
    routesMachines c' = routesMachines c := by
  simp only [routesMachines, perHost, operatorHere, Cluster.hostNamed, h]

/-- The operator has the routes unit, or no machine has. -/
lemma routesMachines_cases (hcheck : c.spec.check = .ok ()) :
    OperatorApart c ∧ routesMachines c = [none] ∨ ¬ OperatorApart c ∧ routesMachines c = [] := by
  cases hh : c.spec.hosts with
  | none =>
      refine Or.inl ⟨fun _ => ?_, ?_⟩
      · simp [Cluster.hostNames, hh]
      · simp [routesMachines, perHost, operatorHere, Cluster.hostNamed, hh]
  | some hosts =>
      have hok : HostsOk c.spec.network c.spec.nodes hosts := by
        simp only [Spec.check, Checked.check_bind_eq_ok, hh] at hcheck
        exact Spec.checkHosts_eq_ok.mp hcheck.2.2
      by_cases hapart : OperatorApart c
      · exact Or.inl ⟨hapart, (routesMachines_eq_iff hh hok).mpr hapart⟩
      · refine Or.inr ⟨hapart, ?_⟩
        rw [OperatorApart, Classical.not_imp, not_not] at hapart
        obtain ⟨hssh, hname⟩ := hapart
        rw [hh, Option.getD_some] at hssh
        rw [Cluster.hostNames, hh, Option.getD_some] at hname
        obtain ⟨h, hmem, hoperator⟩ := List.mem_map.mp hname
        have hnamed := hostNamed_of_mem hh hok.nodup hmem
        have hthere : operatorHere c (some "operator") = false := by
          rw [← hoperator, operatorHere, hnamed, Option.all_some]
          simpa [Option.isSome_iff_ne_none] using hssh h hmem
        have hnone : hosts.filter (·.ssh.isNone) = [] := by
          rw [List.filter_eq_nil_iff]
          exact fun h hmem => by simpa [Option.isSome_iff_ne_none] using hssh h hmem
        have hall : hosts.all (·.ssh.isSome) = true := List.all_eq_true.mpr hssh
        rw [routesMachines, perHost_multi hh, List.filter_append, List.map_append,
          filter_operatorHere hh hok.nodup, hnone, if_pos hall]
        simp [hthere]

/-! ### What is read -/

lemma routesCurrent_eq_true : routesCurrent e c d = .ok true ↔
    ∃ entries routers, perHostRender e c = .ok entries ∧ c.routers = .ok routers ∧
      ∀ hf ∈ entries, ∀ text, hf.routes = some text →
        HostFs.read (kindOf hf.machine) (d hf.machine) (routesPath c)
          (needsSudo e c routers (routesPath c)) = some (some text) := by
  simp only [routesCurrent, Checked.bind_eq_ok, Checked.allM_eq_true, ← exists_and_left]
  refine exists₂_congr fun entries routers => and_congr_right fun _ => and_congr_right fun _ =>
    forall₂_congr fun hf _ => ?_
  cases hf.routes with
  | none => simp
  | some text => simp

/-- Done, by what it reads. -/
lemma hostRoutesDone_eq_true : hostRoutesDone e answer s = .ok true ↔
    ∃ cidrs, nodePodCidrs answer = .ok cidrs ∧ cidrsRecorded s.file cidrs = true ∧
      routesCurrent e s.file s.disks = .ok true := by
  rw [hostRoutesDone, Checked.bind_eq_ok]
  refine exists_congr fun cidrs => and_congr_right fun _ => ?_
  cases cidrsRecorded s.file cidrs <;> simp

/-- The unit is current where it is up to date and the operator has one. -/
lemma unitCurrent_iff (hcheck : c.spec.check = .ok ()) :
    UnitCurrent e c d ↔ routesCurrent e c d = .ok true ∧ OperatorApart c := by
  rw [routesCurrent_eq_true]
  have hsome : ∀ {entries}, perHostRender e c = .ok entries →
      ((∃ hf ∈ entries, hf.routes.isSome = true) ↔ OperatorApart c) := by
    intro entries hrender
    have hmachines := routes_machines hrender
    constructor
    · rintro ⟨hf, hmem, hroutes⟩
      refine (routesMachines_cases hcheck).elim And.left fun hnot => ?_
      rw [hnot.2, List.map_eq_nil_iff, List.filter_eq_nil_iff] at hmachines
      exact absurd hroutes (hmachines hf hmem)
    · intro hapart
      have hone := (routesMachines_cases hcheck).resolve_right fun hnot => hnot.1 hapart
      rw [hone.2] at hmachines
      obtain ⟨hf, hmem⟩ := List.exists_mem_of_ne_nil (entries.filter (·.routes.isSome))
        (by rintro hnil; simp [hnil] at hmachines)
      exact ⟨hf, (List.mem_filter.mp hmem).1, (List.mem_filter.mp hmem).2⟩
  constructor
  · rintro ⟨entries, routers, hrender, hrouters, hex, hall⟩
    exact ⟨⟨entries, routers, hrender, hrouters, hall⟩, (hsome hrender).mp hex⟩
  · rintro ⟨⟨entries, routers, hrender, hrouters, hall⟩, hapart⟩
    exact ⟨entries, routers, hrender, hrouters, (hsome hrender).mpr hapart, hall⟩

/-! ### What a run leaves -/

/-- What is recorded after a run reads as it was reported. -/
def ReadsBack (n : Node) (text : String) : Prop :=
  if text = "" then n.podCidr = none
  else ∀ cidr, IPv4Network.parse text = some cidr → cidr.text = text

lemma text_ne_empty (n : IPv4Network) : n.text ≠ "" := by
  intro h
  have hlen := congrArg String.length h
  simp [IPv4Network.text] at hlen

/-- A node whose CIDR was assigned: what is compared afterwards. -/
lemma recorded_of_assign {pods : IPv4Network} {n n' : Node}
    (h : assignCidr pods cidrs n = .ok n') :
    ((cidrs n'.name.text).all fun text => (n'.podCidr.map IPv4Network.text).getD "" = text) = true ↔
      ∀ text, cidrs n.name.text = some text → ReadsBack n text := by
  rw [assignCidr] at h
  cases hrep : cidrs n.name.text with
  | none =>
      simp only [hrep, Option.filter_none] at h
      obtain rfl := Except.ok.inj h
      simp [hrep]
  | some text =>
      by_cases hempty : text = ""
      · simp only [hrep, hempty, Option.filter_some, ne_eq, not_true_eq_false, decide_false] at h
        obtain rfl := Except.ok.inj h
        simp only [hrep, hempty, Option.all_some, Option.some_inj, forall_eq', ReadsBack, if_true,
          decide_eq_true_eq]
        cases n.podCidr with
        | none => simp
        | some cidr => simp [text_ne_empty]
      · simp only [hrep, Option.filter_some, ne_eq, hempty, not_false_eq_true, decide_true, if_true,
          Checked.bind_eq_ok, Checked.exists_unit, Checked.ofOption_eq_ok, Checked.pure_eq_ok] at h
        obtain ⟨cidr, hparse, -, rfl⟩ := h
        simp [hrep, ReadsBack, hempty, hparse]

lemma cidrsRecorded_after (h : withPodCidrs c cidrs = .ok c') : cidrsRecorded c' cidrs = true ↔
    ∀ n ∈ c.spec.nodes, ∀ text, cidrs n.name.text = some text → ReadsBack n text := by
  obtain ⟨nodes, hnodes, rfl⟩ := withPodCidrs_eq_ok.mp h
  rw [cidrsRecorded, List.all_eq_true]
  clear h
  simp only
  generalize c.spec.nodes = l at hnodes
  induction hnodes with
  | nil => simp
  | cons hn _ ih => rw [List.forall_mem_cons, List.forall_mem_cons, recorded_of_assign hn, ih]

/-- **The unit reads as it was written** where no directory was in its place and it has no carriage
return; on each machine that has one. -/
lemma routesCurrent_after (hcheck : c.spec.check = .ok ()) (hhosts : c'.spec.hosts = c.spec.hosts)
    (h : (writeRoutes e c').Ends d d') : routesCurrent e c' d' = .ok true ↔
      ∀ entries, perHostRender e c' = .ok entries → ∀ hf ∈ entries, ∀ text, hf.routes = some text →
        '\r' ∉ text.toList ∧ (d hf.machine).get (routesPath c') ≠ some .dir := by
  rw [writeRoutes] at h
  cases hrender : perHostRender e c' with
  | error err => simp [hrender] at h
  | ok entries =>
      cases hrouters : c'.routers with
      | error err => simp [hrender, hrouters] at h
      | ok routers =>
          simp only [hrender, hrouters] at h
          rw [Script.each_filter (fun hf => hf.routes.isSome) fun hf _ hnone => by
            rw [Option.isSome_eq_false_iff, Option.isNone_iff_eq_none] at hnone
            rw [hnone]] at h
          have hmachines := routes_machines hrender
          rw [routesMachines_congr hhosts] at hmachines
          simp only [routesCurrent_eq_true, hrender, hrouters, Except.ok.injEq,
            exists_and_left, exists_eq_left', forall_eq']
          refine forall₂_congr fun hf hmem => forall₂_congr fun text htext => ?_
          have hfiltered : hf ∈ entries.filter (·.routes.isSome) :=
            List.mem_filter.mpr ⟨hmem, by rw [htext]; rfl⟩
          -- at most one machine has the unit
          obtain ⟨hf', hone⟩ : ∃ hf', entries.filter (·.routes.isSome) = [hf'] := by
            refine List.length_eq_one_iff.mp ?_
            rw [← List.length_map (f := HostRender.machine), hmachines]
            refine (routesMachines_cases hcheck).elim (fun hyes => by rw [hyes.2]; rfl) fun hno => ?_
            rw [hno.2, List.map_eq_nil_iff] at hmachines
            simp [hmachines] at hfiltered
          rw [hone, List.mem_singleton] at hfiltered
          obtain rfl := hfiltered
          rw [hone, Script.each_cons, Script.each_nil, Script.ends_seq] at h
          simp only [htext, Script.ends_skip, exists_eq_right', Script.ends_seq, systemctl,
            Script.ends_command, ends_onDisk, HostFs.ends_call] at h
          obtain ⟨t, hwrite, rfl⟩ := h
          rw [Function.update_self]
          exact HostFs.read_of_write (by simp [routesPath]) hwrite

/-- Saving writes no other file. -/
lemma spec_saveCluster (c : Cluster) (d : Disks) : Script.Spec (fun s : Operator => s.disks = d)
    (saveCluster c) (fun s => s.disks = d) fun s => s.file = c ∧ s.disks = d := by
  have hfile : Script.Spec (fun s : Operator => s.disks = d)
      (Script.command fun s => { s with file := c }) (fun s => s.disks = d)
      fun s => s.file = c ∧ s.disks = d :=
    Script.Spec.command fun _ hs => ⟨hs, hs, rfl, hs⟩
  have hcopies : Script.Spec (fun s : Operator => s.file = c ∧ s.disks = d)
      (Script.each (((perHost c).map (·.2)).filter (· ≠ none)) fun id =>
        Script.command fun s => { s with copies := Function.update s.copies id (some c) })
      (fun s => s.file = c ∧ s.disks = d) fun s => s.file = c ∧ s.disks = d :=
    Script.Spec.each_keeps fun _ _ => Script.Spec.command fun _ hs => ⟨hs, hs, hs⟩
  exact hfile.seq (hcopies.weaken (fun _ hs => hs) (fun _ hs => hs.2) fun _ hs => hs)

/-- A run that gets through: what it recorded, and what it wrote. -/
lemma ends_hostRoutesRun (h : (hostRoutesRun e answer).Ends s s') : ∃ c,
    checkedCidrs s.file answer = .ok c ∧ s'.file = c ∧ (writeRoutes e c).Ends s.disks s'.disks := by
  rw [hostRoutesRun, Script.ends_ask] at h
  cases hchecked : checkedCidrs s.file answer with
  | error err => simp [hchecked] at h
  | ok c =>
      simp only [hchecked, Script.ends_seq] at h
      obtain ⟨m, hsave, hwrite⟩ := h
      obtain ⟨hfile, hdisks⟩ := (spec_saveCluster c s.disks).ends rfl hsave
      obtain ⟨d, hd, rfl⟩ := (Script.ends_within rfl).mp hwrite
      exact ⟨c, rfl, hfile, hdisks ▸ hd⟩

lemma checkedCidrs_eq_ok (h : checkedCidrs c answer = .ok c') : ∃ cidrs,
    nodePodCidrs answer = .ok cidrs ∧ withPodCidrs c cidrs = .ok c' := by
  simp only [checkedCidrs, Checked.bind_eq_ok, Checked.exists_unit] at h
  obtain ⟨cidrs, hcidrs, -, hwith⟩ := h
  exact ⟨cidrs, hcidrs, hwith⟩

lemma hosts_of_checked (h : checkedCidrs c answer = .ok c') : c'.spec.hosts = c.spec.hosts := by
  obtain ⟨cidrs, -, hwith⟩ := checkedCidrs_eq_ok h
  obtain ⟨nodes, -, rfl⟩ := withPodCidrs_eq_ok.mp hwith
  rfl

/-! ### The exact condition -/

/-- Where done and run agree. -/
structure Fair (e : Env) (answer : Result) (s : Operator) : Prop where
  /-- When all is recorded as reported and the unit is up to date, no joined node that is registered
  is without a CIDR, and the operator has a unit. -/
  noticed : ∀ cidrs, nodePodCidrs answer = .ok cidrs → cidrsRecorded s.file cidrs = true →
    routesCurrent e s.file s.disks = .ok true → cidrMissing s.file cidrs = false ∧
      OperatorApart s.file
  /-- When a run gets through, each CIDR is reported as it is shown, and a node that reports none has
  none recorded. -/
  shown : (∃ s', (hostRoutesRun e answer).Ends s s') → ∀ cidrs, nodePodCidrs answer = .ok cidrs →
    ∀ n ∈ s.file.spec.nodes, ∀ text, cidrs n.name.text = some text → ReadsBack n text
  /-- And the unit it renders has no carriage return and no directory in its place. -/
  free : (∃ s', (hostRoutesRun e answer).Ends s s') → ∀ c, checkedCidrs s.file answer = .ok c →
    ∀ entries, perHostRender e c = .ok entries → ∀ hf ∈ entries, ∀ text, hf.routes = some text →
      '\r' ∉ text.toList ∧ (s.disks hf.machine).get (routesPath c) ≠ some .dir

/-- No registered node that is to be joined is without a CIDR, where all is recorded as reported. -/
lemma allRecorded_iff (hcidrs : nodePodCidrs answer = .ok cidrs)
    (hrecorded : cidrsRecorded c cidrs = true) :
    AllRecorded c answer ↔ cidrMissing c cidrs = false := by
  rw [cidrsRecorded, List.all_eq_true] at hrecorded
  simp only [AllRecorded, hcidrs, Except.ok.injEq, forall_eq', cidrMissing, List.any_eq_false,
    Bool.and_eq_true, decide_eq_true_eq, not_and]
  refine forall₂_congr fun n hn => forall_congr' fun _ => ?_
  have hsame := hrecorded n hn
  cases hrep : cidrs n.name.text with
  | none => simp
  | some text =>
      rw [hrep, Option.all_some, decide_eq_true_eq] at hsame
      simp only [Option.some_inj, forall_eq']
      refine ⟨And.left, fun hne => ⟨hne, ?_⟩⟩
      cases hcidr : n.podCidr with
      | none => exact absurd (by simpa [hcidr] using hsame.symm) hne
      | some cidr => exact ⟨cidr, rfl, by simpa [hcidr] using hsame⟩

/-- A run that got through is done exactly when what it recorded and wrote reads back. -/
lemma done_after_iff (hcheck : s.file.spec.check = .ok ())
    (h : (hostRoutesRun e answer).Ends s s') : hostRoutesDone e answer s' = .ok true ↔
      (∀ cidrs, nodePodCidrs answer = .ok cidrs → ∀ n ∈ s.file.spec.nodes, ∀ text,
        cidrs n.name.text = some text → ReadsBack n text) ∧
      ∀ c, checkedCidrs s.file answer = .ok c → ∀ entries, perHostRender e c = .ok entries →
        ∀ hf ∈ entries, ∀ text, hf.routes = some text →
          '\r' ∉ text.toList ∧ (s.disks hf.machine).get (routesPath c) ≠ some .dir := by
  obtain ⟨c, hchecked, hfile, hwrite⟩ := ends_hostRoutesRun h
  obtain ⟨cidrs, hcidrs, hwith⟩ := checkedCidrs_eq_ok hchecked
  rw [hostRoutesDone_eq_true]
  simp only [hcidrs, hchecked, hfile, Except.ok.injEq, exists_eq_left', forall_eq']
  rw [cidrsRecorded_after hwith, routesCurrent_after hcheck (hosts_of_checked hchecked) hwrite]

/-- What is rendered for a single host. -/
lemma perHostRender_single (hhosts : c.spec.hosts = none) {entries : List HostRender}
    (h : perHostRender e c = .ok entries) :
    ∃ hf text, entries = [hf] ∧ hf.routes = some text ∧ '\r' ∉ text.toList := by
  rw [perHostRender, perHost, hhosts, Checked.mapM_eq_ok] at h
  obtain ⟨hf, rest, hrender, hrest, rfl⟩ := List.forall₂_cons_left_iff.mp h
  obtain rfl := List.forall₂_nil_left_iff.mp hrest
  simp only [renderHost, hostRoutes, Cluster.hostNamed, hhosts, Checked.bind_eq_ok,
    Checked.pure_eq_ok] at hrender
  obtain ⟨units, -, wants, -, routes, hroutes, rfl⟩ := hrender
  obtain ⟨text, htext, rfl⟩ := Checked.map_eq_ok.mp hroutes
  exact ⟨_, text, rfl, rfl, notMem_routesUnit htext⟩

/-! ### A node without a CIDR -/

/-- The one node of `loneCluster`, registered with this CIDR. -/
def loneAnswer (cidr : String) : Result := ⟨0, s!"dev-control-plane-1 {cidr}\n", ""⟩

/-- The routes units a cluster renders. -/
def rendered (e : Env) (c : Cluster) : List String :=
  ((perHostRender e c).toOption.getD []).filterMap (·.routes)

/-- The operator of `loneCluster`, with the units that are rendered for it. -/
def loneOperator : Operator where
  file := loneCluster
  copies _ := none
  disks _ := (rendered someEnv loneCluster).map fun text => (routesPath loneCluster, .file text)

end Tk8s.HostRoutes
