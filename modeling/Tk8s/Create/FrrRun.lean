import Tk8s.Create.Frr
import Tk8s.Create.UnitPaths
import Tk8s.Node.Edits
import Tk8s.PhaseAlone

/-!
The frr phase, run and run again.

* `config_eq`: **the configuration always renders**; `newlines_confText`: and is read back.
* `reaches_configure`, `ends_configure`: where `configure` of one node can be stopped, and where it
  ends.
* `phase_establishes`: **what the phase does when it gets to its end**.
* `asWritten_resumes_iff`: **what is left of that when it was interrupted before**.
* `stale_vip_iff`: **when a VIP of before stays on `lo`**.
-/

namespace Tk8s.Frr

open Template

/-! ### The configuration -/

section Text

variable {c : Cluster} {routers : List Router} {n : Node}

lemma wellWritten_confChunks : WellWritten confChunks := by
  simp only [confChunks, WellWritten, and_true]
  and_intros
  all_goals first
    | exact notMem_ofList (by decide)
    | exact isName_ofList (by decide)
    | exact stops_ofList (by decide)

/-- **The configuration always renders.** -/
theorem config_eq : config c routers n = .ok (confText c routers n) := by
  rw [confText]
  refine Render.template_write wellWritten_confChunks (fun name hname => ?_) fun v hv => ?_
  · have hnames : name ∈ ["node", "cluster", "vip", "node_ip", "neighbors", "neighbor_policies",
        "bfd_peers"] := by
      simp only [confChunks, List.mem_cons, reduceCtorEq, Chunk.hole.injEq, List.not_mem_nil,
        false_or, or_false] at hname
      simp only [List.mem_cons, List.not_mem_nil, or_false]
      tauto
    simp only [List.mem_cons, List.not_mem_nil, or_false] at hnames
    rcases hnames with rfl | rfl | rfl | rfl | rfl | rfl | rfl <;> rfl
  · simp only [confVars, List.mem_cons, List.not_mem_nil, or_false] at hv
    rcases hv with rfl | rfl | rfl | rfl | rfl | rfl | rfl <;> simp [confChunks]

lemma notMem_join {pieces : List String} (h : ∀ p ∈ pieces, '\r' ∉ p.toList) :
    '\r' ∉ (Text.join '\n' pieces).toList := by
  intro hr
  rcases Text.mem_join hr with hsep | ⟨p, hp, hmem⟩
  · exact absurd hsep (by decide)
  · exact h p hp hmem

lemma notMem_neighborLines : '\r' ∉ (neighborLines routers).toList := by
  refine notMem_join fun p hp => ?_
  obtain ⟨r, -, rfl⟩ := List.mem_map.mp hp
  refine notMem_join fun q hq => ?_
  simp only [List.mem_cons, List.not_mem_nil, or_false] at hq
  rcases hq with rfl | rfl | rfl <;> simp [toString, notMem_ip]

lemma notMem_neighborPolicyLines : '\r' ∉ (neighborPolicyLines routers).toList := by
  refine notMem_join fun p hp => ?_
  obtain ⟨r, -, rfl⟩ := List.mem_map.mp hp
  simp [toString, notMem_ip]

lemma notMem_bfdPeerLines : '\r' ∉ (bfdPeerLines routers).toList := by
  refine notMem_join fun p hp => ?_
  obtain ⟨r, -, rfl⟩ := List.mem_map.mp hp
  refine notMem_join fun q hq => ?_
  simp only [List.mem_cons, List.not_mem_nil, or_false] at hq
  rcases hq with rfl | rfl | rfl | rfl | rfl <;> simp [toString, notMem_ip]

/-- A VIP is written without spaces. -/
lemma isBlank_vipText {ch : Char} (h : ch ∈ (vipText c).toList) : HostFs.isBlank ch = false := by
  rw [vipText] at h
  cases hvip : c.spec.network.vip with
  | none =>
      rw [hvip] at h
      have hall : "None".toList.all (fun ch => !HostFs.isBlank ch) = true := by decide
      simpa using List.all_eq_true.mp hall ch h
  | some vip =>
      rw [hvip] at h
      rcases Net.IPv4Address.charIn_of_mem_text h with hd | rfl
      · exact HostFs.isBlank_of_isDigit hd
      · decide

lemma notMem_vipText : '\r' ∉ (vipText c).toList :=
  fun h => absurd (isBlank_vipText h) (by decide)

lemma notMem_confVars : ∀ v ∈ confVars c routers n, '\r' ∉ v.2.toList := by
  intro v hv
  simp only [confVars, List.mem_cons, List.not_mem_nil, or_false] at hv
  rcases hv with rfl | rfl | rfl | rfl | rfl | rfl | rfl
  · exact notMem_clusterName c
  · exact notMem_name n.name.ok
  · exact notMem_ip n.ip
  · exact notMem_neighborLines
  · exact notMem_neighborPolicyLines
  · exact notMem_bfdPeerLines
  · exact notMem_vipText

lemma notMem_confChunks : ∀ chunk ∈ confChunks, ∀ run, chunk = .plain run → '\r' ∉ run.toList := by
  simp only [confChunks, List.forall_mem_cons, Chunk.plain.injEq, reduceCtorEq, forall_eq',
    List.not_mem_nil, false_implies, implies_true, and_true, true_and]
  and_intros <;> exact notMem_ofList (by decide)

/-- **The configuration is read as it was written.** -/
theorem newlines_confText : HostFs.newlines (confText c routers n) = confText c routers n := by
  rw [HostFs.newlines_eq_self, confText, String.toList_ofList, List.mem_flatMap]
  rintro ⟨chunk, hmem, hr⟩
  cases chunk with
  | plain run => exact notMem_confChunks _ hmem run rfl hr
  | hole name =>
      rw [Chunk.filled] at hr
      cases hlook : (confVars c routers n).lookup name with
      | none =>
          rw [hlook] at hr
          exact absurd hr (by decide)
      | some v =>
          rw [hlook] at hr
          obtain ⟨before, after, heq, -⟩ := List.lookup_eq_some_iff.mp hlook
          have hmem' : (name, v) ∈ confVars c routers n := by
            rw [heq]
            simp
          exact notMem_confVars _ hmem' hr

/-- A word is what is left of its line. -/
lemma strip_append_newline {text : String} (h : ∀ ch ∈ text.toList, HostFs.isBlank ch = false) :
    HostFs.strip (text ++ "\n") = text := by
  have hblank : HostFs.isBlank '\n' = true := by decide
  have hback : text.toList.reverse.dropWhile HostFs.isBlank = text.toList.reverse := by
    rw [List.dropWhile_eq_self_iff]
    intro hpos
    simpa using h _ (List.mem_reverse.mp (List.getElem_mem hpos))
  rw [HostFs.strip, String.toList_append, show "\n".toList = ['\n'] from rfl]
  cases htext : text.toList with
  | nil =>
      rw [List.nil_append, List.dropWhile_cons_of_pos hblank]
      exact (String.toList_eq_nil_iff.mp htext).symm
  | cons ch rest =>
      have hfirst : HostFs.isBlank ch = false := h ch (htext ▸ List.mem_cons_self)
      rw [List.cons_append, List.dropWhile_cons_of_neg (by simp [hfirst]), ← List.cons_append,
        List.reverse_append, List.reverse_singleton, List.singleton_append,
        List.dropWhile_cons_of_pos hblank, ← htext, hback, List.reverse_reverse,
          String.ofList_toList]

/-- So is the VIP, without its newline. -/
lemma strip_vip : HostFs.strip (HostFs.newlines (vipText c ++ "\n")) = vipText c := by
  have hread : HostFs.newlines (vipText c ++ "\n") = vipText c ++ "\n" := by
    rw [HostFs.newlines_eq_self, String.toList_append, List.mem_append, not_or]
    exact ⟨notMem_vipText, by decide⟩
  rw [hread]
  exact strip_append_newline fun ch hch => isBlank_vipText hch

end Text

/-! ### One node -/

section Node

variable (c : Cluster) (routers : List Router) (n : Node)

/-- The node runs, and its image has FRR. -/
def Ready (s : NodeState) : Prop := s.up = true ∧ s.daemons.isSome = true

/-- The units are active. -/
def Active (s : NodeState) : Prop := s.frr.isSome = true ∧ s.timer = true

/-- FRR runs with the daemons on and the configuration of the cluster. -/
def AsWritten (s : NodeState) : Prop :=
  ∃ daemons, s.frr = some ⟨some (turnOn daemons), some (confText c routers n)⟩

/-- The files are written. -/
def written (s : NodeState) : NodeState :=
  setVip c (setConf (confText c routers n) { s with daemons := s.daemons.map turnOn })

/-- `lo` is cleared. -/
@[irreducible] def cleared (s : NodeState) : NodeState :=
  if previous s ≠ "" ∧ previous s ≠ vipText c then dropAddress (previous s) (written c routers n s)
  else written c routers n s

/-- What `configure` leaves behind. -/
def settled (s : NodeState) : NodeState :=
  { startFrr (stopUnits { cleared c routers n s with enabled := true }) with timer := true }

/-- A node after its round. -/
def after (s : NodeState) : NodeState :=
  if configured c routers n s then s else settled c routers n s

/-- What there is between two commands of `configure`. -/
def stages (s : NodeState) : List NodeState :=
  [{ s with daemons := s.daemons.map turnOn },
    setConf (confText c routers n) { s with daemons := s.daemons.map turnOn },
    written c routers n s, cleared c routers n s, { cleared c routers n s with enabled := true },
    stopUnits { cleared c routers n s with enabled := true },
    startFrr (stopUnits { cleared c routers n s with enabled := true }), settled c routers n s]

variable {c routers n} {s t : NodeState}

lemma configure_ready (h : Ready s) : configure c routers n s =
    Script.seq (.command fun s => { s with daemons := s.daemons.map turnOn })
      (.seq (.command (setConf (confText c routers n))) <| .seq (.command (setVip c)) <|
        .seq (.onlyIf (fun _ => previous s ≠ "" && previous s ≠ vipText c)
          (.command (dropAddress (previous s)))) <|
          .seq (.command fun s => { s with enabled := true }) restart) s := by
  rw [configure, Script.ask, config_eq, if_pos (by simpa [Ready] using h)]

lemma configure_not_ready (h : ¬ Ready s) : configure c routers n s = Script.fail s := by
  rw [configure, Script.ask, if_neg (by simpa [Ready] using h)]

/-- **Where `configure` can be stopped.** -/
theorem reaches_configure : (configure c routers n).Reaches s t ↔
    t = s ∨ Ready s ∧ t ∈ stages c routers n s := by
  by_cases hready : Ready s
  · rw [Script.reaches_congr (configure_ready hready)]
    simp only [Script.reaches_command_seq, Script.reaches_onlyIf_seq, restart,
      Script.reaches_command, stages, hready, true_and, List.mem_cons, List.not_mem_nil, or_false]
    simp only [settled, cleared, written, Bool.and_eq_true, decide_eq_true_eq]
  · rw [Script.reaches_congr (configure_not_ready hready)]
    simp [hready]

/-- **Where `configure` ends**: the node runs, and its image has FRR. -/
theorem ends_configure : (configure c routers n).Ends s t ↔
    Ready s ∧ t = settled c routers n s := by
  by_cases hready : Ready s
  · rw [Script.ends_congr (configure_ready hready)]
    simp only [Script.ends_command_seq, Script.ends_onlyIf_seq, restart, Script.ends_command,
      hready, true_and, settled, cleared, written, Bool.and_eq_true, decide_eq_true_eq]
  · rw [Script.ends_congr (configure_not_ready hready)]
    simp [hready]

/-! ### What is kept between the commands -/

/-- `configured`, read off the node. -/
lemma configured_iff : configured c routers n s = true ↔ s.up = true ∧ Active s ∧
    (∃ vip, s.vip = some vip ∧ HostFs.strip (HostFs.newlines vip) = vipText c) ∧
      ∃ conf, s.conf = some conf ∧ HostFs.newlines conf = confText c routers n := by
  rw [configured, config_eq, Except.toOption]
  cases hup : s.up with
  | false => simp [NodeState.read, hup]
  | true =>
      cases hvip : s.vip with
      | none => simp [NodeState.read, hup]
      | some vip =>
          cases hconf : s.conf with
          | none => simp [NodeState.read, hup]
          | some conf =>
              simp only [NodeState.read, hup, if_true, Option.map_some, Option.some.injEq,
                Bool.and_eq_true, decide_eq_true_eq, Active, true_and, exists_eq_left']
              constructor
              · rintro ⟨⟨⟨hv, hc⟩, hfrr⟩, htimer⟩
                exact ⟨⟨hfrr, htimer⟩, hv, hc.symm⟩
              · rintro ⟨⟨hfrr, htimer⟩, hv, hc⟩
                exact ⟨⟨⟨hv, hc.symm⟩, hfrr⟩, htimer⟩

lemma forall_stages {P : NodeState → Prop} (h₁ : P { s with daemons := s.daemons.map turnOn })
    (h₂ : P (setConf (confText c routers n) { s with daemons := s.daemons.map turnOn }))
    (h₃ : P (written c routers n s)) (h₄ : P (cleared c routers n s))
    (h₅ : P { cleared c routers n s with enabled := true })
    (h₆ : P (stopUnits { cleared c routers n s with enabled := true }))
    (h₇ : P (startFrr (stopUnits { cleared c routers n s with enabled := true })))
    (h₈ : P (settled c routers n s)) : ∀ t ∈ stages c routers n s, P t := by
  simp only [stages, List.forall_mem_cons, List.not_mem_nil, false_implies, implies_true, and_true]
  exact ⟨h₁, h₂, h₃, h₄, h₅, h₆, h₇, h₈⟩

/-- The files are written, and the units are those of before. -/
lemma cleared_fields (c : Cluster) (routers : List Router) (n : Node) (s : NodeState) :
    (cleared c routers n s).up = s.up ∧
    (cleared c routers n s).daemons = s.daemons.map turnOn ∧
    (cleared c routers n s).conf = some (confText c routers n) ∧
    (cleared c routers n s).vip = some (vipText c ++ "\n") ∧
    (cleared c routers n s).frr = s.frr ∧ (cleared c routers n s).timer = s.timer ∧
    (cleared c routers n s).loopback ⊆ s.loopback := by
  rw [cleared]
  split_ifs
  · exact ⟨rfl, rfl, rfl, rfl, rfl, rfl, List.filter_subset_self _⟩
  · exact ⟨rfl, rfl, rfl, rfl, rfl, rfl, List.Subset.refl _⟩

/-- FRR that is started behind the files runs as they say. -/
lemma asWritten_of_started (h : Ready s) {u : NodeState} (hu : u.frr =
    some ⟨(cleared c routers n s).daemons, (cleared c routers n s).conf⟩) :
    AsWritten c routers n u := by
  obtain ⟨-, hdaemons, hconf, -⟩ := cleared_fields c routers n s
  obtain ⟨d, hd⟩ := Option.isSome_iff_exists.mp h.2
  refine ⟨d, ?_⟩
  rw [hu, hdaemons, hconf, hd, Option.map_some]

/-- The units run with what they were started with, or not at all, or with what was written. -/
lemma units_of_mem_stages (h : Ready s) : ∀ t ∈ stages c routers n s,
    (t.frr = s.frr ∧ t.timer = s.timer) ∨ t.frr = none ∨ AsWritten c routers n t := by
  obtain ⟨-, -, -, -, hfrr, htimer, -⟩ := cleared_fields c routers n s
  refine forall_stages (Or.inl ⟨rfl, rfl⟩) (Or.inl ⟨rfl, rfl⟩) (Or.inl ⟨rfl, rfl⟩)
    (Or.inl ⟨hfrr, htimer⟩) (Or.inl ⟨hfrr, htimer⟩) (Or.inr (Or.inl rfl))
    (Or.inr (Or.inr (asWritten_of_started h rfl))) (Or.inr (Or.inr (asWritten_of_started h rfl)))

/-- The node goes on running, its image keeps FRR, and no address comes to `lo`. -/
lemma fields_of_mem_stages : ∀ t ∈ stages c routers n s,
    (Ready t ↔ Ready s) ∧ t.loopback ⊆ s.loopback := by
  obtain ⟨hup, hdaemons, -, -, -, -, hlo⟩ := cleared_fields c routers n s
  have hsame : ∀ u : NodeState, u.up = s.up → u.daemons = s.daemons.map turnOn →
      u.loopback ⊆ s.loopback → (Ready u ↔ Ready s) ∧ u.loopback ⊆ s.loopback := by
    intro u h₁ h₂ h₃
    rw [Ready, Ready, h₁, h₂, Option.isSome_map]
    exact ⟨Iff.rfl, h₃⟩
  have hself := List.Subset.refl s.loopback
  exact forall_stages (hsame _ rfl rfl hself) (hsame _ rfl rfl hself) (hsame _ rfl rfl hself)
    (hsame _ hup hdaemons hlo) (hsame _ hup hdaemons hlo) (hsame _ hup hdaemons hlo)
    (hsame _ hup hdaemons hlo) (hsame _ hup hdaemons hlo)

/-- **FRR that runs as written goes on doing so**, between any two commands. -/
lemma asWritten_of_reaches (h : (configure c routers n).Reaches s t)
    (hs : Active s → AsWritten c routers n s) : Active t → AsWritten c routers n t := by
  intro ht
  rcases reaches_configure.mp h with rfl | ⟨hready, hmem⟩
  · exact hs ht
  · rcases units_of_mem_stages hready t hmem with ⟨hfrr, htimer⟩ | hnone | hwritten
    · rw [AsWritten, hfrr]
      exact hs ⟨hfrr ▸ ht.1, htimer ▸ ht.2⟩
    · rw [Active, hnone] at ht
      exact absurd ht.1 (by simp)
    · exact hwritten

lemma ready_of_reaches (h : (configure c routers n).Reaches s t) : Ready t ↔ Ready s := by
  rcases reaches_configure.mp h with rfl | ⟨-, hmem⟩
  · rfl
  · exact (fields_of_mem_stages t hmem).1

/-- **What `configure` leaves behind is configured**, and FRR runs with it. -/
theorem configured_settled (h : Ready s) : configured c routers n (settled c routers n s) = true ∧
    AsWritten c routers n (settled c routers n s) := by
  obtain ⟨hup, -, hconf, hvip, -⟩ := cleared_fields c routers n s
  exact ⟨configured_iff.mpr ⟨hup.trans h.1, ⟨rfl, rfl⟩, ⟨_, hvip, strip_vip⟩,
    ⟨_, hconf, newlines_confText⟩⟩, asWritten_of_started h rfl⟩

/-- The VIP of before, where another one is configured. -/
lemma not_configured_of_previous (h : previous s ≠ vipText c) :
    configured c routers n s = false := by
  rw [← Bool.not_eq_true]
  intro hconf
  obtain ⟨hup, -, ⟨vip, hvip, hstrip⟩, -⟩ := configured_iff.mp hconf
  rw [previous, NodeState.read, if_pos hup, hvip, Option.map_some, Option.getD_some] at h
  exact h hstrip

/-- An uninterrupted `configure` takes it off. -/
lemma notMem_settled (h : previous s ≠ "") (hnew : previous s ≠ vipText c) :
    previous s ++ "/32" ∉ (settled c routers n s).loopback := by
  have hlo : (settled c routers n s).loopback = (cleared c routers n s).loopback := rfl
  rw [hlo, cleared, if_pos ⟨h, hnew⟩, dropAddress]
  simp

/-- Behind the second file nothing is known of it any more. -/
lemma mem_after_written (h : Ready s) {address : String} :
    address ∈ (after c routers n (written c routers n s)).loopback ↔ address ∈ s.loopback := by
  have hup : (written c routers n s).up = true := h.1
  have hvip : (written c routers n s).vip = some (vipText c ++ "\n") := rfl
  have hprevious : previous (written c routers n s) = vipText c := by
    rw [previous, NodeState.read, if_pos hup, hvip, Option.map_some, Option.getD_some, strip_vip]
  rw [after]
  split_ifs
  · rfl
  · have hlo : (settled c routers n (written c routers n s)).loopback =
        (cleared c routers n (written c routers n s)).loopback := rfl
    rw [hlo, cleared, if_neg fun hboth => hboth.2 hprevious]
    rfl

/-- **Stopped behind the second file, a node whose units were active passes for configured.** -/
lemma configured_written (h : Ready s) (hactive : Active s) :
    configured c routers n (written c routers n s) = true :=
  configured_iff.mpr ⟨h.1, hactive, ⟨_, rfl, strip_vip⟩, ⟨_, rfl, newlines_confText⟩⟩

end Node

/-! ### The loop -/

section Loop

variable {c : Cluster} {routers : List Router} {n : Node} {ns : List Node} {w v : World}
  {s : NodeState}

lemma put_self (w : World) (n : Node) : Function.update w n.name.text (w n.name.text) = w :=
  Function.update_eq_self _ _

lemma reaches_runNode : (runNode c routers n).Reaches w v ↔ v = w ∨
    configured c routers n (w n.name.text) = false ∧
      ∃ s, (configure c routers n).Reaches (w n.name.text) s ∧
        v = Function.update w n.name.text s := by
  rw [runNode, Script.reaches_cond]
  cases hconf : configured c routers n (w n.name.text) with
  | true => simp
  | false =>
      rw [if_neg (by simp), Script.reaches_within (put_self w n)]
      constructor
      · exact fun h => Or.inr ⟨rfl, h⟩
      · rintro (rfl | ⟨-, h⟩)
        · exact ⟨_, Script.reaches_start, (put_self v n).symm⟩
        · exact h

lemma ends_runNode : (runNode c routers n).Ends w v ↔
    (configured c routers n (w n.name.text) = true ∨ Ready (w n.name.text)) ∧
      v = Function.update w n.name.text (after c routers n (w n.name.text)) := by
  rw [runNode, Script.ends_cond, after]
  cases hconf : configured c routers n (w n.name.text) with
  | true =>
      simp only [if_true, Script.ends_skip, true_or, true_and]
      rw [put_self]
  | false =>
      rw [if_neg (by simp), Script.ends_within (put_self w n)]
      simp only [ends_configure, Bool.false_eq_true, false_or, if_false]
      constructor
      · rintro ⟨u, ⟨hready, rfl⟩, rfl⟩
        exact ⟨hready, rfl⟩
      · rintro ⟨hready, rfl⟩
        exact ⟨_, ⟨hready, rfl⟩, rfl⟩

/-- **Nothing but the nodes of the loop is touched.** -/
lemma spec_untouched (x : String) (hx : x ∉ ns.map fun n => n.name.text) (s : NodeState) :
    Script.Spec (fun w => w x = s) (run c routers ns) (fun w => w x = s) fun w => w x = s := by
  refine Script.Spec.each_keeps fun n hn => ?_
  have hne : x ≠ n.name.text := fun h => hx (h ▸ List.mem_map_of_mem hn)
  have hstops : ∀ {w v : World}, w x = s → (runNode c routers n).Reaches w v → v x = s := by
    intro w v hw hv
    rcases reaches_runNode.mp hv with rfl | ⟨-, u, -, rfl⟩
    · exact hw
    · rw [Function.update_of_ne hne, hw]
  exact ⟨hstops, fun hw hv => hstops hw hv.reaches⟩

/-- What `configure` keeps in a node, the loop keeps there. -/
lemma spec_local (hnames : (ns.map fun n => n.name.text).Nodup) {P : NodeState → Prop} (hn : n ∈ ns)
    (hP : ∀ s t, (configure c routers n).Reaches s t → P s → P t) :
    Script.Spec (fun w => P (w n.name.text)) (run c routers ns) (fun w => P (w n.name.text))
      fun w => P (w n.name.text) := by
  refine Script.Spec.each_keeps fun m hm => ?_
  have hstops : ∀ {w v : World}, P (w n.name.text) → (runNode c routers m).Reaches w v →
      P (v n.name.text) := by
    intro w v hw hv
    rcases reaches_runNode.mp hv with rfl | ⟨-, u, hu, rfl⟩
    · exact hw
    · by_cases hname : n.name.text = m.name.text
      · obtain rfl := List.inj_on_of_nodup_map hnames hn hm hname
        rw [Function.update_self]
        exact hP _ _ hu hw
      · rw [Function.update_of_ne hname]
        exact hw
  exact ⟨hstops, fun hw hv => hstops hw hv.reaches⟩

/-- The nodes after their rounds. -/
def outcome (c : Cluster) (routers : List Router) (ns : List Node) (w : World) : World := fun x =>
  match ns.find? fun n => n.name.text = x with
  | some n => after c routers n (w x)
  | none => w x

lemma outcome_cons (hn : n.name.text ∉ ns.map fun n => n.name.text) :
    outcome c routers (n :: ns) w =
      outcome c routers ns (Function.update w n.name.text (after c routers n (w n.name.text))) := by
  funext x
  by_cases hx : n.name.text = x
  · subst hx
    have hnone : (ns.find? fun m => m.name.text = n.name.text) = none := by
      rw [List.find?_eq_none]
      intro m hm
      rw [decide_eq_true_eq]
      intro h
      exact hn (List.mem_map.mpr ⟨m, hm, h⟩)
    rw [outcome, outcome, List.find?_cons_of_pos (by simp), hnone, Function.update_self]
  · rw [outcome, outcome, List.find?_cons_of_neg (by simpa using hx),
      Function.update_of_ne (Ne.symm hx)]

lemma outcome_of_mem (hnames : (ns.map fun n => n.name.text).Nodup) (hn : n ∈ ns) :
    outcome c routers ns w n.name.text = after c routers n (w n.name.text) := by
  cases hfind : ns.find? fun m => m.name.text = n.name.text with
  | none =>
      have hno := List.find?_eq_none.mp hfind n hn
      simp at hno
  | some m =>
      have hname : m.name.text = n.name.text := by simpa using List.find?_some hfind
      obtain rfl := List.inj_on_of_nodup_map hnames (List.mem_of_find?_eq_some hfind) hn hname
      rw [outcome, hfind]

/-- **Where the loop ends**: every node after its round. -/
theorem ends_run (hnames : (ns.map fun n => n.name.text).Nodup) : (run c routers ns).Ends w v ↔
    (∀ n ∈ ns, configured c routers n (w n.name.text) = true ∨ Ready (w n.name.text)) ∧
      v = outcome c routers ns w := by
  induction ns generalizing w with
  | nil =>
      rw [run, Script.each_nil, Script.ends_skip]
      rw [show outcome c routers [] w = w from rfl]
      simp
  | cons n ns ih =>
      rw [List.map_cons, List.nodup_cons] at hnames
      have hsame : ∀ m ∈ ns, Function.update w n.name.text (after c routers n (w n.name.text))
          m.name.text = w m.name.text := fun m hm =>
        Function.update_of_ne (fun h => hnames.1 (List.mem_map.mpr ⟨m, hm, h⟩)) _ _
      have hrest : (∀ m ∈ ns, configured c routers m (Function.update w n.name.text
          (after c routers n (w n.name.text)) m.name.text) = true ∨ Ready (Function.update w
          n.name.text (after c routers n (w n.name.text)) m.name.text)) ↔
          ∀ m ∈ ns, configured c routers m (w m.name.text) = true ∨ Ready (w m.name.text) :=
        forall₂_congr fun m hm => by rw [hsame m hm]
      rw [List.forall_mem_cons, outcome_cons hnames.1, run, Script.each_cons, Script.ends_seq,
        ← hrest]
      constructor
      · rintro ⟨m, hm, hv⟩
        obtain ⟨hok, rfl⟩ := ends_runNode.mp hm
        obtain ⟨hall, rfl⟩ := (ih hnames.2).mp hv
        exact ⟨⟨hok, hall⟩, rfl⟩
      · rintro ⟨⟨hok, hall⟩, rfl⟩
        exact ⟨_, ends_runNode.mpr ⟨hok, rfl⟩, (ih hnames.2).mpr ⟨hall, rfl⟩⟩

/-- A loop that is stopped in the round of one node, those before it behind it. -/
lemma reaches_run_split {before rest : List Node} {u : World}
    (hu : (run c routers before).Ends w u) (hv : (runNode c routers n).Reaches u v) :
    (run c routers (before ++ n :: rest)).Reaches w v := by
  rw [run, Script.each_append, Script.each_cons]
  exact Script.reaches_after hu (Script.reaches_seq.mpr (Or.inl hv))

lemma configured_after (h : configured c routers n s = true ∨ Ready s) :
    configured c routers n (after c routers n s) = true := by
  rw [after]
  split_ifs with hconf
  · exact hconf
  · exact (configured_settled (h.resolve_left hconf)).1

lemma done_iff : done c routers ns w = true ↔
    ∀ n ∈ ns, configured c routers n (w n.name.text) = true := by
  rw [done, List.all_eq_true]

end Loop

/-! ### The phase -/

section Phase

variable {c : Cluster} {routers : List Router} {only : Option (Option String)} {n : Node}
  {w v u : World}

lemma targets_sublist : (targets c only).Sublist c.spec.nodes := by
  unfold targets
  split_ifs
  · exact List.nil_sublist _
  · split
    · exact List.filter_sublist
    · split
      · exact List.nil_sublist _
      · rename_i name n hfind
        split_ifs
        · exact List.singleton_sublist.mpr (List.mem_of_find?_eq_some hfind)
        · exact List.nil_sublist _

lemma nodup_targets (only : Option (Option String)) (hnames : (c.spec.nodes.map (·.name)).Nodup) :
    ((targets c only).map fun n => n.name.text).Nodup := by
  have hsub : ((targets c only).map (·.name)).Sublist (c.spec.nodes.map (·.name)) :=
    targets_sublist.map _
  have hmap := (hnames.sublist hsub).map Matching.text_injective
  rwa [List.map_map] at hmap

/-- Where everything is configured, nothing changes. -/
lemma outcome_of_done {ns : List Node} (h : done c routers ns w = true) :
    outcome c routers ns w = w := by
  funext x
  rw [outcome]
  cases hfind : ns.find? fun n => n.name.text = x with
  | none => rfl
  | some n =>
      have hname : n.name.text = x := by simpa using List.find?_some hfind
      have hconf := done_iff.mp h n (List.mem_of_find?_eq_some hfind)
      rw [hname] at hconf
      simp only [after, hconf, if_true]

/-- **Where the phase ends**: every node after its round. -/
theorem ends_phase (hnames : (c.spec.nodes.map (·.name)).Nodup) :
    (phase c routers only).alone.Ends w v ↔
      (∀ n ∈ targets c only, configured c routers n (w n.name.text) = true ∨
        Ready (w n.name.text)) ∧
        v = outcome c routers (targets c only) w := by
  have hns := nodup_targets only hnames
  rw [ends_alone rfl]
  by_cases hdone : done c routers (targets c only) w = true
  · rw [Script.ends_ensure_done hdone, outcome_of_done hdone]
    exact ⟨fun h => ⟨fun n hn => Or.inl (done_iff.mp hdone n hn), h⟩, fun h => h.2⟩
  · rw [Script.ends_ensure (by simpa using hdone)]
    change (run c routers (targets c only)).Ends w v ∧ _ ↔ _
    rw [ends_run hns]
    refine ⟨fun h => h.1, fun h => ⟨h, ?_⟩⟩
    rw [done_iff]
    intro n hn
    rw [h.2, outcome_of_mem hns hn]
    exact configured_after (h.1 n hn)

/-- What a node keeps in every state its round can be stopped in, it keeps over any runs. -/
lemma reruns_local (hnames : (c.spec.nodes.map (·.name)).Nodup) (hn : n ∈ targets c only)
    {P : NodeState → Prop} (hP : ∀ s t, (configure c routers n).Reaches s t → P s → P t)
    (runs : (phase c routers only).alone.Reruns w v) (hw : P (w n.name.text)) :
    P (v n.name.text) := by
  rw [reruns_alone rfl] at runs
  exact runs.invariant
    (Script.Spec.ensure (spec_local (nodup_targets only hnames) hn hP) fun _ h => h) hw

/-- **The phase**: it touches the nodes it is for and no others, wherever it is stopped; where it
ends each of them is configured, each that was not runs FRR with the configuration of the cluster,
and a further run changes nothing. -/
theorem phase_establishes (c : Cluster) (routers : List Router) (only : Option (Option String))
    (hnames : (c.spec.nodes.map (·.name)).Nodup) (w : World) :
    (∀ v x, (phase c routers only).alone.Reaches w v →
      x ∉ (targets c only).map (fun n => n.name.text) → v x = w x) ∧
    ∀ v, (phase c routers only).alone.Ends w v →
      (∀ n ∈ targets c only, configured c routers n (v n.name.text) = true ∧
        (configured c routers n (w n.name.text) = false → AsWritten c routers n (v n.name.text))) ∧
      ∀ u, (phase c routers only).alone.Reaches v u → u = v := by
  have hns := nodup_targets only hnames
  refine ⟨fun v x hv hx => ?_, fun v hv => ?_⟩
  · rw [reaches_alone rfl] at hv
    exact (Script.Spec.ensure (spec_untouched x hx (w x)) fun _ h => h).stops rfl hv
  · obtain ⟨hready, rfl⟩ := (ends_phase hnames).mp hv
    have hdone : done c routers (targets c only) (outcome c routers (targets c only) w) = true := by
      rw [done_iff]
      intro n hn
      rw [outcome_of_mem hns hn]
      exact configured_after (hready n hn)
    refine ⟨fun n hn => ⟨done_iff.mp hdone n hn, fun hconf => ?_⟩, fun u hu => ?_⟩
    · have hn' := (hready n hn).resolve_left (by simp [hconf])
      rw [outcome_of_mem hns hn, after, if_neg (by simp [hconf])]
      exact (configured_settled hn').2
    · rw [reaches_alone rfl] at hu
      exact (Script.reaches_ensure_done hdone).mp hu

section Resumed

variable (hnames : (c.spec.nodes.map (·.name)).Nodup)
  (hready : ∀ n ∈ targets c only, Ready (w n.name.text))
include hnames hready

/-- Runs leave the nodes running: the phase gets to its end. -/
lemma exists_ends (runs : (phase c routers only).alone.Reruns w u) :
    (phase c routers only).alone.Ends u (outcome c routers (targets c only) u) := by
  refine (ends_phase hnames).mpr ⟨fun n hn => Or.inr ?_, rfl⟩
  exact reruns_local hnames hn (fun s t hst => (ready_of_reaches hst).mpr) runs (hready n hn)

/-- A run that is stopped in the round of a node that is not configured. -/
lemma exists_stopped (hn : n ∈ targets c only)
    (hconf : configured c routers n (w n.name.text) = false) {s : NodeState}
    (hs : (configure c routers n).Reaches (w n.name.text) s) :
    ∃ v, (phase c routers only).alone.Reaches w v ∧ v n.name.text = s := by
  obtain ⟨before, rest, hsplit⟩ := List.append_of_mem hn
  have hns := nodup_targets only hnames
  have hdone : done c routers (targets c only) w = false := by
    rw [← Bool.not_eq_true, done_iff]
    exact fun h => by simpa [hconf] using h n hn
  have hbefore : (before.map fun n => n.name.text).Nodup ∧
      n.name.text ∉ before.map fun n => n.name.text := by
    rw [hsplit, List.map_append, List.map_cons, List.nodup_append] at hns
    exact ⟨hns.1, fun h => hns.2.2 _ h _ List.mem_cons_self rfl⟩
  have hends : (run c routers before).Ends w (outcome c routers before w) :=
    (ends_run hbefore.1).mpr
      ⟨fun m hm => Or.inr (hready m (hsplit ▸ List.mem_append_left _ hm)), rfl⟩
  have hkept : outcome c routers before w n.name.text = w n.name.text :=
    (spec_untouched n.name.text hbefore.2 (w n.name.text)).ends rfl hends
  refine ⟨Function.update (outcome c routers before w) n.name.text s, ?_, Function.update_self ..⟩
  rw [reaches_alone rfl, Script.reaches_ensure hdone]
  change (run c routers (targets c only)).Reaches w _
  rw [hsplit]
  refine reaches_run_split hends (reaches_runNode.mpr (Or.inr ⟨?_, s, ?_, rfl⟩))
  · rw [hkept, hconf]
  · rw [hkept]
    exact hs

/-- **Interrupted and run again, the phase leaves FRR with the configuration of the cluster exactly
when** no node runs FRR with another one to begin with. -/
theorem asWritten_resumes_iff : (∀ m v, (phase c routers only).alone.Reruns w m →
      (phase c routers only).alone.Ends m v →
        ∀ n ∈ targets c only, AsWritten c routers n (v n.name.text)) ↔
    ∀ n ∈ targets c only, Active (w n.name.text) → AsWritten c routers n (w n.name.text) := by
  have hns := nodup_targets only hnames
  constructor
  · intro hall n hn hactive
    by_contra hno
    by_cases hconf : configured c routers n (w n.name.text) = true
    · have hself : (phase c routers only).alone.Reruns w w := Relation.ReflTransGen.refl
      have hend := hall w _ hself (exists_ends hnames hready hself) n hn
      rw [outcome_of_mem hns hn, after, if_pos hconf] at hend
      exact hno hend
    · have hstage : (configure c routers n).Reaches (w n.name.text)
          (written c routers n (w n.name.text)) :=
        reaches_configure.mpr (Or.inr ⟨hready n hn, by simp [stages]⟩)
      obtain ⟨m, hm, hmn⟩ := exists_stopped hnames hready hn (by simpa using hconf) hstage
      have hends := exists_ends hnames hready (Relation.ReflTransGen.single hm)
      have hend := hall m _ (Relation.ReflTransGen.single hm) hends n hn
      rw [outcome_of_mem hns hn, hmn, after,
        if_pos (configured_written (hready n hn) hactive)] at hend
      exact hno hend
  · intro hall m v runs hv n hn
    have hinv : Active (m n.name.text) → AsWritten c routers n (m n.name.text) :=
      reruns_local hnames hn (fun s t hst hs => asWritten_of_reaches hst hs) runs (hall n hn)
    obtain ⟨hok, rfl⟩ := (ends_phase hnames).mp hv
    rw [outcome_of_mem hns hn, after]
    split_ifs with hconf
    · exact hinv (configured_iff.mp hconf).2.1
    · exact (configured_settled ((hok n hn).resolve_left hconf)).2

/-- **A VIP of before that is on `lo`** is taken off by a run that is not interrupted, and stays
there for ever after one that was stopped behind the file with the new one. -/
theorem stale_vip_iff (hn : n ∈ targets c only) (hold : previous (w n.name.text) ≠ "")
    (hnew : previous (w n.name.text) ≠ vipText c) :
    (∀ v, (phase c routers only).alone.Ends w v →
      previous (w n.name.text) ++ "/32" ∉ (v n.name.text).loopback) ∧
    ((∃ m v, (phase c routers only).alone.Reruns w m ∧ (phase c routers only).alone.Ends m v ∧
        (∀ u, (phase c routers only).alone.Reruns v u → u = v) ∧
        previous (w n.name.text) ++ "/32" ∈ (v n.name.text).loopback) ↔
      previous (w n.name.text) ++ "/32" ∈ (w n.name.text).loopback) := by
  have hns := nodup_targets only hnames
  have hconf : configured c routers n (w n.name.text) = false := not_configured_of_previous hnew
  refine ⟨fun v hv => ?_, ?_, fun hmem => ?_⟩
  · obtain ⟨-, rfl⟩ := (ends_phase hnames).mp hv
    rw [outcome_of_mem hns hn, after, if_neg (by simp [hconf])]
    exact notMem_settled hold hnew
  · rintro ⟨m, v, runs, hv, -, hmem⟩
    by_contra hno
    have hkeeps : ∀ s t, (configure c routers n).Reaches s t →
        previous (w n.name.text) ++ "/32" ∉ s.loopback →
        previous (w n.name.text) ++ "/32" ∉ t.loopback := by
      intro s t hst hs ht
      rcases reaches_configure.mp hst with rfl | ⟨-, hstage⟩
      · exact hs ht
      · exact hs ((fields_of_mem_stages t hstage).2 ht)
    exact reruns_local hnames hn hkeeps (runs.tail hv.reaches) hno hmem
  · have hstage : (configure c routers n).Reaches (w n.name.text)
        (written c routers n (w n.name.text)) :=
      reaches_configure.mpr (Or.inr ⟨hready n hn, by simp [stages]⟩)
    obtain ⟨m, hm, hmn⟩ := exists_stopped hnames hready hn hconf hstage
    have hends := exists_ends hnames hready (Relation.ReflTransGen.single hm)
    refine ⟨m, _, Relation.ReflTransGen.single hm, hends, fun u runs => ?_, ?_⟩
    · have hstill := ((phase_establishes c routers only hnames m).2 _ hends).2
      exact Script.Reruns.eq_of_still hstill runs
    · rw [outcome_of_mem hns hn, hmn]
      exact (mem_after_written (hready n hn)).mpr hmem

end Resumed

/-! ### A cluster of one control plane -/

/-- The cluster of one node, in bgp mode. -/
def bgpCluster : Cluster :=
  { loneCluster with spec := { loneCluster.spec with
      network := { loneCluster.spec.network with
        ha := .bgp, vip := some ⟨0xAC1600DB, by decide⟩ } } }

/-- Its node, with FRR started before anything was written, and another VIP on `lo`. -/
def staleNode : NodeState where
  up := true
  daemons := some "bgpd=no\nbfdd=no"
  conf := none
  vip := some "172.22.0.210\n"
  loopback := ["127.0.0.1/8", "172.22.0.210/32"]
  enabled := true
  frr := some ⟨some "bgpd=no\nbfdd=no", none⟩
  timer := true

lemma nodup_bgpCluster : (bgpCluster.spec.nodes.map (·.name)).Nodup := List.nodup_singleton _

lemma exists_target : ∃ n, n ∈ targets bgpCluster none := ⟨_, List.mem_singleton.mpr rfl⟩

example : vipText bgpCluster = "172.22.0.219" := by decide +kernel

lemma previous_staleNode : previous staleNode = "172.22.0.210" := by decide

lemma not_asWritten_staleNode {routers : List Router} {n : Node} :
    ¬ AsWritten bgpCluster routers n staleNode := by
  rintro ⟨d, hd⟩
  simp [staleNode] at hd

/-- A run over a node that waits gets to the end. -/
theorem phase_establishes_lone : ∃ v, (phase bgpCluster [] none).alone.Ends (fun _ => staleNode) v ∧
    ∀ n ∈ targets bgpCluster none, AsWritten bgpCluster [] n (v n.name.text) := by
  have hends := @exists_ends bgpCluster [] none (fun _ => staleNode) _ nodup_bgpCluster
    (fun _ _ => ⟨rfl, rfl⟩) Relation.ReflTransGen.refl
  refine ⟨_, hends, fun n hn => ?_⟩
  have hconf : configured bgpCluster [] n staleNode = false := by
    rw [← Bool.not_eq_true, configured_iff]
    rintro ⟨-, -, -, conf, hc, -⟩
    simp [staleNode] at hc
  exact (((phase_establishes bgpCluster [] none nodup_bgpCluster _).2 _ hends).1 n hn).2 hconf

/-- FRR that runs with something else can go on with it. -/
theorem resumes_lone : ∃ m v, (phase bgpCluster [] none).alone.Reruns (fun _ => staleNode) m ∧
    (phase bgpCluster [] none).alone.Ends m v ∧
    ∃ n ∈ targets bgpCluster none, ¬ AsWritten bgpCluster [] n (v n.name.text) := by
  obtain ⟨n, hn⟩ := exists_target
  have hiff := @asWritten_resumes_iff bgpCluster [] none (fun _ => staleNode) nodup_bgpCluster
    fun _ _ => ⟨rfl, rfl⟩
  by_contra hno
  push Not at hno
  exact not_asWritten_staleNode (hiff.mp hno n hn ⟨rfl, rfl⟩)

/-- The other VIP can stay. -/
theorem stale_vip_lone : ∃ m v, (phase bgpCluster [] none).alone.Reruns (fun _ => staleNode) m ∧
    (phase bgpCluster [] none).alone.Ends m v ∧
    (∀ u, (phase bgpCluster [] none).alone.Reruns v u → u = v) ∧
    ∃ n ∈ targets bgpCluster none, "172.22.0.210/32" ∈ (v n.name.text).loopback := by
  obtain ⟨n, hn⟩ := exists_target
  have hiff := @stale_vip_iff bgpCluster [] none n (fun _ => staleNode) nodup_bgpCluster
    (fun _ _ => ⟨rfl, rfl⟩) hn (by rw [previous_staleNode]; decide)
    (by rw [previous_staleNode]; decide)
  rw [previous_staleNode] at hiff
  obtain ⟨m, v, runs, hv, hstill, hmem⟩ := hiff.2.mpr (by decide)
  exact ⟨m, v, runs, hv, hstill, n, hn, hmem⟩

end Phase

end Tk8s.Frr
