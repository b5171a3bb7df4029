import Tk8s.Create.Started
import Tk8s.Mesh.Ops
import Tk8s.Node.Common

/-!
When a cluster becomes Ready, over every sequence of verbs.

* `Write`: what the other verbs write into `cluster.yaml`; `Write.apply_phase`: none of it is
  `status.phase`.
* `VerbStep`: one verb, stopped anywhere or finished.
* `ready_complete`: **`status.phase` becomes Ready only at the end of a create that went through
  every phase; a dry run changes nothing, and a Ready cluster is changed by no create**.
-/

namespace Tk8s

variable {W : Type} {e : Env}

/-! ### What other verbs write -/

/-- What the other verbs write into `cluster.yaml`: the edits of the node verbs, the pod CIDRs
`add node` records, and the peers of a mesh. -/
inductive Write where
  | edit (e : Edit)
  | podCidrs (cidrs : String → Option String)
  | peers (names : List String)

def Write.apply (c : Cluster) : Write → Except Raised Cluster
  | edit e => e.apply c
  | podCidrs cidrs => withPodCidrs c cidrs
  | peers names => do
      let st ← Checked.ofOption .assertionError c.status
      return c.withStatus { st with mesh := sorted names }

/-- What a verb has written when it is stopped or done. -/
def writeAll (c : Cluster) (ws : List Write) : Except Raised Cluster := ws.foldlM Write.apply c

lemma Edit.apply_status {c c' : Cluster} {e : Edit} (h : e.apply c = .ok c') :
    c'.status = c.status := by
  cases e with
  | add req =>
      rw [Edit.apply, Checked.map_eq_ok] at h
      obtain ⟨n, -, rfl⟩ := h
      rfl
  | joined name => exact Except.ok.inj h ▸ rfl
  | remove name => exact (withoutNode_eq_ok h).1 ▸ rfl

/-- **No write of another verb is `status.phase`.** -/
theorem Write.apply_phase {c c' : Cluster} {w : Write} (h : w.apply c = .ok c') :
    c'.status.map (·.phase) = c.status.map (·.phase) := by
  cases w with
  | edit e => rw [Edit.apply_status h]
  | podCidrs cidrs => exact (Recording.apply_onlyRecorded (r := .podCidrs cidrs) h).phase
  | peers names =>
      simp only [Write.apply, Checked.bind_eq_ok, Checked.ofOption_eq_ok, Checked.pure_eq_ok] at h
      obtain ⟨st, hst, rfl⟩ := h
      rw [hst]
      rfl

lemma writeAll_phase {c c' : Cluster} {ws : List Write} (h : writeAll c ws = .ok c') :
    c'.status.map (·.phase) = c.status.map (·.phase) := by
  induction ws generalizing c with
  | nil => exact Except.ok.inj h ▸ rfl
  | cons w ws ih =>
      rw [writeAll, List.foldlM_cons, Checked.bind_eq_ok] at h
      obtain ⟨m, hm, hrest⟩ := h
      exact (ih hrest).trans (Write.apply_phase hm)

/-! ### The verbs -/

/-- A tkctl command line on the clusters of one name. -/
inductive Verb (W : Type) where
  | create (i : Invocation W)
  /-- Any other verb: what it writes into `cluster.yaml`, and whether it removes the file then. -/
  | other (writes : List Write) (removed : Bool)

/-- The `cluster.yaml` another verb leaves behind. -/
def FileAfter (writes : List Write) (removed : Bool) (file file' : Option Cluster) : Prop :=
  if removed then file' = none
  else file = none ∧ file' = none ∨
    ∃ c c', file = some c ∧ writeAll c writes = .ok c' ∧ file' = some c'

/-- One verb: a create is refused, or it is stopped at any command or finished; another verb may do
anything to the hosts beside `cluster.yaml`. -/
def VerbStep (e : Env) (t : Trace.Transition (Site W) (Verb W)) : Prop :=
  match t.label with
  | .create i =>
      (∃ err, i.start t.source = .error err) ∧ t.target = t.source ∨
        ∃ j₀ j, i.start t.source = .ok j₀ ∧ (i.script e).Reaches j₀ j ∧ t.target = j.site
  | .other writes removed => FileAfter writes removed t.source.file t.target.file

/-- The operator's `cluster.yaml` says Ready. -/
def Site.Ready (s : Site W) : Prop := ∃ c ∈ s.file, c.Ready

/-- Ready means complete: a verb that makes the cluster Ready is a create that ended and went
through every phase, a dry run changes nothing, and neither does a create of a Ready cluster. -/
structure ReadyComplete (e : Env) (t : Trace.Transition (Site W) (Verb W)) : Prop where
  complete : t.target.Ready → ¬ t.source.Ready → ∃ i j₀ m j, t.label = .create i ∧
    i.start t.source = .ok j₀ ∧
    (i.runner e).Through (leavesOf "" (createPhases e i.rest)) j₀ m ∧
    i.finish.Ends m j ∧ t.target = j.site
  dryRun : ∀ i, t.label = .create i → i.dryRun = true → t.target = t.source
  kept : ∀ i, t.label = .create i → t.source.Ready → t.target = t.source

/-! ### One verb -/

variable {i : Invocation W} {s : Site W} {j₀ j m : Job W}

/-- What a dry run prints leaves the hosts alone. -/
lemma site_of_dryRun (hdry : i.dryRun = true) (h : (i.script e).Reaches j₀ j) : j.site = j₀.site := by
  have hspec : Script.Spec (fun j : Job W => j.site = j₀.site) (i.runner e).run
      (fun j => j.site = j₀.site) (fun j => j.site = j₀.site) := by
    have hleaf : ∀ l ∈ leavesOf "" (i.runner e).phases, l.2 = printed := by
      simp [Invocation.runner, hdry, dryRunPhases, leavesOf, Phase.leaves]
    rw [Runner.run]
    cases hsel : (i.runner e).selected with
    | error err => exact Script.Spec.fail fun _ h => h
    | ok ls =>
        refine Script.Spec.each_keeps fun l hl => ?_
        have hprinted := hleaf l (Runner.mem_of_selected hsel l hl)
        have hrun : Script.Spec (fun j : Job W => j.site = j₀.site) l.2.run
            (fun j => j.site = j₀.site) (fun j => j.site = j₀.site) := by
          rw [hprinted]
          exact Script.Spec.skip fun _ h => ⟨h, h⟩
        rw [Runner.visit]
        by_cases hs : (i.runner e).skipped l.1 = true
        · rw [if_pos hs]
          exact Script.Spec.skip fun _ h => ⟨h, h⟩
        rw [if_neg hs]
        refine Script.Spec.onlyIf ?_ fun _ h _ => ⟨h, h⟩
        refine Script.Spec.seq (Script.Spec.command fun j hj => ⟨hj.1, hj.1, hj.1⟩) (hrun.seq ?_)
        -- nothing is confirmed or recorded
        rw [if_pos (show (i.runner e).dryRun = true from hdry)]
        exact Script.Spec.skip fun _ h => ⟨h, h⟩
  rcases Script.reaches_seq.mp h with hrun | ⟨m, hm, hfin⟩
  · exact hspec.stops rfl hrun
  · rcases reaches_finish hfin with rfl | ⟨hplain, -⟩
    · exact hspec.ends rfl hm
    · rw [hplain.dryRun] at hdry
      exact absurd hdry (by simp)

/-- A create that makes the cluster Ready went through every phase. -/
lemma through_of_ready (h : i.start s = .ok j₀) (hj : (i.script e).Reaches j₀ j)
    (hready : j.site.Ready) : ∃ m,
      (i.runner e).Through (leavesOf "" (createPhases e i.rest)) j₀ m ∧ i.finish.Ends m j := by
  obtain ⟨hplain, m, st, hm, hst, rfl⟩ := ready_cases h hj hready
  have hphases : (i.runner e).selected = .ok (leavesOf "" (createPhases e i.rest)) := by
    rw [Runner.selected]
    simp [Invocation.runner, hplain.only, hplain.dryRun]
  have hm' := hm
  rw [Runner.run, hphases] at hm
  refine ⟨m, Runner.through_of_ends hplain.skip hplain.dryRun hm, ?_⟩
  have hnot : st.phase ≠ .ready := by
    obtain ⟨-, hc, hf⟩ := not_ready_of_start h
    exact fun hph => (spec_run_unfinished.ends ⟨hc, hf⟩ hm').1 ⟨st, hst, hph⟩
  have hflags : ¬ (i.dryRun = true ∨ i.only ≠ none ∨ i.skip ≠ []) := by
    simp [hplain.dryRun, hplain.only, hplain.skip]
  rw [Invocation.finish, if_neg hflags, Script.ends_ask, hst]
  simp only [if_pos hnot, Script.ends_command]

lemma readyComplete_of_step {t : Trace.Transition (Site W) (Verb W)} (ht : VerbStep e t) :
    ReadyComplete e t := by
  obtain ⟨s, v, s'⟩ := t
  cases v with
  | create i =>
      rcases ht with ⟨⟨err, herr⟩, hs⟩ | ⟨j₀, j, hstart, hreach, hs⟩
      · -- a refused create
        obtain rfl : s' = s := hs
        exact ⟨fun hready hnot => absurd hready hnot, fun _ _ _ => rfl, fun _ _ _ => rfl⟩
      · obtain rfl : s' = j.site := hs
        have hsite := (not_ready_of_start hstart).1
        refine ⟨fun hready _ => ?_, fun i' hi hdry => ?_, fun i' hi hready => ?_⟩
        · obtain ⟨m, hm, hfin⟩ := through_of_ready hstart hreach hready
          exact ⟨i, j₀, m, j, rfl, hstart, hm, hfin, rfl⟩
        · obtain rfl := Verb.create.inj hi
          exact (site_of_dryRun hdry hreach).trans hsite
        · obtain ⟨c, hc, hr⟩ := hready
          exact absurd hr ((not_ready_of_start hstart).2.2 c (hsite ▸ hc))
  | other writes removed =>
      refine ⟨fun hready hnot => absurd ?_ hnot, fun i hi => ?_, fun i hi => ?_⟩
      · obtain ⟨c', hc', hr'⟩ := hready
        have hfile : FileAfter writes removed s.file s'.file := ht
        rw [FileAfter] at hfile
        cases removed with
        | true => simp [show s'.file = none from hfile] at hc'
        | false =>
            rcases hfile with ⟨-, hnone⟩ | ⟨c, c'', hc, hwrites, hc''⟩
            · simp [show s'.file = none from hnone] at hc'
            · obtain rfl : c' = c'' := Option.some_inj.mp (hc'.symm.trans hc'')
              refine ⟨c, hc, ?_⟩
              rwa [ready_iff, ← writeAll_phase hwrites, ← ready_iff]
      · simp at hi
      · simp at hi

/-- **Ready means complete**, in every run of verbs. -/
theorem ready_complete {ts : List (Trace.Transition (Site W) (Verb W))} {s₀ : Site W}
    (run : Trace.Run (VerbStep e) s₀ ts s) : ∀ t ∈ ts, ReadyComplete e t :=
  fun t ht => readyComplete_of_step (run.steps t ht)

/-- The create of a new cluster that gets to its end: its cluster is Ready. -/
theorem ready_complete_fresh : ∃ (ts : List (Trace.Transition (Site Unit) (Verb Unit)))
    (s : Site Unit), Trace.Run (VerbStep someEnv) bareSite ts s ∧ s.Ready ∧
      ∀ t ∈ ts, ReadyComplete someEnv t := by
  obtain ⟨passed, j, hpassed, hlast, hready⟩ := freshCpu_ready
  obtain ⟨j₀, j', hstart, hreach, hs⟩ := createdCpu_step hpassed (List.mem_of_getLast? hlast)
  have hstep : VerbStep someEnv ⟨bareSite, .create (createCpu 2), j.site⟩ :=
    Or.inr ⟨j₀, j', hstart, hreach, hs⟩
  have run := Trace.Run.nil.snoc hstep
  exact ⟨_, _, run, hready, ready_complete run⟩

end Tk8s
