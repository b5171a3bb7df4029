import Tk8s.Create.Routers
import Tk8s.Create.Units
import Tk8s.Lib.Run
import Tk8s.Node.Edits
import Tk8s.Phases

/-!
`node/delete.py`: what the drain phase asks before the Node object goes, command by command.

* `NodeParts`: the parts of one node, whether a `kubeadm reset` on it succeeded, and the commands issued.
* `drainRun`, `deleteParts`: the drain and the phases after it that take parts away, under `--phase`.
* `resetsFirst_of_run`: **in a run of deletes no part goes without a successful reset**, as long as no
  failed reset is stepped over.
* `waits_iff`: **`kubectl delete node` comes after a poll in which every running router let go** exactly
  when the poll that ends the wait was answered by all of them.
-/

namespace Tk8s.Drain

/-! ### The parts of a node -/

/-- A command of the drain phase, with what was seen. -/
inductive Issued where
  | drain
  | reset (res : Result)
  | poll (p : Poll)
  | ready
  | deleteNode

/-- The parts of one node. -/
structure NodeParts where
  /-- The Node object of the apiserver. -/
  object : Bool
  active : Bool
  container : Bool
  volumes : List String
  /-- Some `kubeadm reset` on the node exited 0. -/
  wasReset : Bool
  /-- The commands of this invocation so far. -/
  issued : List Issued

def NodeParts.issue (i : Issued) (s : NodeParts) : NodeParts := { s with issued := s.issued ++ [i] }

/-- How the commands of one invocation come back. -/
structure Replies where
  /-- `podman exec <node> kubeadm reset -f`, or ssh's own failure. -/
  reset : Except Raised Result
  polls : ℕ → Poll
  /-- The answers of the endpoint's `readyz`. -/
  readyz : ℕ → Result
  /-- `kubectl delete node`. -/
  delete : Result
  /-- `systemctl stop` takes the container away too. -/
  stopRemoves : Bool
  /-- `podman rm` and `podman volume rm` of these succeed. -/
  removes : String → Bool

/-- One `delete node`, with its `--phase`. -/
structure Invocation where
  only : Option String
  replies : Replies

/-! ### The drain -/

section Drain

variable (js : Json) (c : Cluster) (name : String) (a : Replies)

/-- The polls of `wait_for` from number `i` on, and whether the last one named no router. -/
def pollFrom (n : Node) (polls : ℕ → Poll) : ℕ → ℕ → List Poll × Bool
  | 0, _ => ([], false)
  | rounds + 1, i =>
      match anyRoutesTo js c n (polls i) with
      | .error _ => ([polls i], false)
      | .ok [] => ([polls i], true)
      | .ok (_ :: _) =>
          let rest := pollFrom n polls rounds (i + 1)
          (polls i :: rest.1, rest.2)

/-- `_wait_router_forgot`, for a control plane. -/
def waited : List Poll × Bool :=
  match findNode c name with
  | some n => if n.role = .controlPlane then pollFrom js c n a.polls 16 0 else ([], true)
  | none => ([], true)

/-- `wait_router_ready`. -/
def becomesReady : Bool := (List.range 30).any fun i => Text.strip (a.readyz i).stdout = "ok"

/-- A step that has to come out well. -/
def require (b : Bool) : Script NodeParts := if b then Script.skip else Script.fail

/-- `podman.exec_`: the exit code is not looked at. -/
def resetNode : Script NodeParts :=
  match a.reset with
  | .error _ => Script.fail
  | .ok res => Script.command fun s =>
      { s.issue (.reset res) with wasReset := s.wasReset || decide (res.returncode = 0) }

def deleteObject : Script NodeParts :=
  Script.seq
    (Script.command fun s =>
      { s.issue .deleteNode with object := s.object && decide (a.delete.returncode ≠ 0) })
    (require (decide (a.delete.returncode = 0)))

/-- `drain_run`. -/
def drainRun : Script NodeParts :=
  Script.seq (Script.command (NodeParts.issue .drain)) <|
    Script.seq (resetNode a) <|
    Script.seq (Script.each (waited js c name a).1 fun p => Script.command (NodeParts.issue (.poll p))) <|
    Script.seq (require (waited js c name a).2) <|
    Script.seq (Script.command (NodeParts.issue .ready)) <|
    Script.seq (require (becomesReady a)) (deleteObject a)

/-! ### The phases -/

def drainLeaf : Leaf NodeParts where
  done := some fun s => !s.object
  run := drainRun js c name a

/-- `STOP`. -/
def stopLeaf : Leaf NodeParts where
  done := some fun s => !s.active
  run := Script.command fun s =>
    { s with active := false, container := s.container && !a.stopRemoves }

/-- `CONTAINER`. -/
def containerLeaf : Leaf NodeParts where
  done := some fun s => !s.container
  run := Script.onlyIf (·.container) <|
    if a.removes name then Script.command fun s => { s with container := false } else Script.fail

/-- `VOLUMES`. -/
def volumesLeaf : Leaf NodeParts where
  done := some fun s => (nodeVolumes name).all (· ∉ s.volumes)
  run := Script.each (nodeVolumes name) fun v => Script.onlyIf (fun s => v ∈ s.volumes) <|
    if a.removes v then Script.command fun s => { s with volumes := s.volumes.filter (· ≠ v) }
    else Script.fail

/-- `UNITS` and `ENTRY`, which touch none of the parts. -/
def otherLeaf : Leaf NodeParts where
  done := none
  run := Script.skip

/-- The phases after the drain. -/
def laterLeaves : List (String × Leaf NodeParts) :=
  [("delete/stop", stopLeaf a), ("delete/container", containerLeaf name a),
   ("delete/volumes", volumesLeaf name a), ("delete/units", otherLeaf), ("delete/entry", otherLeaf)]

def partPhases : List (Phase NodeParts) :=
  [.group "delete"
    [.leaf "drain" (drainLeaf js c name a), .leaf "stop" (stopLeaf a),
     .leaf "container" (containerLeaf name a), .leaf "volumes" (volumesLeaf name a),
     .leaf "units" otherLeaf, .leaf "entry" otherLeaf]]

end Drain

/-- `Runner([node_delete.PHASE], only=..., record=False)`. -/
def runner (js : Json) (c : Cluster) (name : String) (inv : Invocation) : Runner NodeParts where
  phases := partPhases js c name inv.replies
  only := inv.only

/-- `delete node`, on the parts of the node. -/
def deleteParts (js : Json) (c : Cluster) (name : String) (inv : Invocation) : Script NodeParts :=
  (runner js c name inv).run

/-! ### Which phases an invocation selects -/

/-- The phase of this full name is asked for. -/
def Invocation.Picks (inv : Invocation) (full : String) : Bool :=
  inv.only.all fun only => Runner.picks only full

/-- What an invocation selects. -/
def selectedLeaves (js : Json) (c : Cluster) (name : String) (inv : Invocation) :
    List (String × Leaf NodeParts) :=
  (("delete/drain", drainLeaf js c name inv.replies) :: laterLeaves name inv.replies).filter
    fun l => inv.Picks l.1

/-- What is asked for runs; nothing does when there is no such phase. -/
lemma deleteParts_eq (js : Json) (c : Cluster) (name : String) (inv : Invocation) :
    deleteParts js c name inv = if (selectedLeaves js c name inv).isEmpty then Script.fail
      else (runner js c name inv).visits (selectedLeaves js c name inv) := by
  have hleaves : leavesOf "" (runner js c name inv).phases
      = ("delete/drain", drainLeaf js c name inv.replies) :: laterLeaves name inv.replies := rfl
  have honlyEq : (runner js c name inv).only = inv.only := rfl
  rw [deleteParts, Runner.run, Runner.selected, hleaves, honlyEq]
  cases honly : inv.only with
  | none =>
      have hall : (fun l : String × Leaf NodeParts => inv.Picks l.1) = fun _ => true := by
        funext l
        simp [Invocation.Picks, honly]
      rw [selectedLeaves, hall, List.filter_true]
      rfl
  | some only =>
      have hpicks : (fun l : String × Leaf NodeParts => inv.Picks l.1)
          = fun l => Runner.picks only l.1 := by
        funext l
        simp [Invocation.Picks, honly]
      rw [selectedLeaves, hpicks]
      simp only [Checked.refuseIf]
      by_cases hempty : ((("delete/drain", drainLeaf js c name inv.replies)
          :: laterLeaves name inv.replies).filter fun l => Runner.picks only l.1).isEmpty = true
      · simp [hempty]
      · simp only [hempty]
        rfl

/-- What every selected phase keeps, the verb keeps. -/
lemma spec_deleteParts {js : Json} {c : Cluster} {name : String} {inv : Invocation}
    {keeps : NodeParts → Prop}
    (h : ∀ l ∈ selectedLeaves js c name inv, Script.Spec keeps l.2.run keeps keeps) :
    Script.Spec keeps (deleteParts js c name inv) keeps keeps := by
  rw [deleteParts_eq]
  split
  · exact Script.Spec.fail fun _ hs => hs
  · exact Runner.spec_visits (fun _ _ hs => hs) h fun _ => Script.Spec.skip fun _ hs => ⟨hs, hs⟩

/-- The drain comes first, when it is asked for. -/
lemma deleteParts_of_picks {js : Json} {c : Cluster} {name : String} {inv : Invocation}
    (h : inv.Picks "delete/drain" = true) : deleteParts js c name inv = Script.seq
      ((runner js c name inv).visit ("delete/drain", drainLeaf js c name inv.replies))
      ((runner js c name inv).visits
        ((laterLeaves name inv.replies).filter fun l => inv.Picks l.1)) := by
  have hselected : selectedLeaves js c name inv
      = ("delete/drain", drainLeaf js c name inv.replies)
        :: (laterLeaves name inv.replies).filter fun l => inv.Picks l.1 :=
    List.filter_cons_of_pos (by simpa using h)
  rw [deleteParts_eq, hselected]
  rfl

/-! ### No part goes without a reset -/

/-- Some part that was there is gone. -/
def Removed (s₀ s : NodeParts) : Prop :=
  s₀.object = true ∧ s.object = false ∨ s₀.container = true ∧ s.container = false ∨
    ∃ v ∈ s₀.volumes, v ∉ s.volumes

/-- Every part is there, or the node was reset. -/
def Kept (s₀ s : NodeParts) : Prop :=
  s.wasReset = true ∨
    s.object = s₀.object ∧ s.container = s₀.container ∧ s.volumes = s₀.volumes

/-- The reset fails and everything after it in the drain succeeds. -/
def SteppedOver (js : Json) (c : Cluster) (name : String) (a : Replies) : Prop :=
  (∃ res, a.reset = .ok res ∧ res.returncode ≠ 0) ∧ (waited js c name a).2 = true ∧
    becomesReady a = true ∧ a.delete.returncode = 0

/-- The phases that take a part away. -/
def takingPhases : List String :=
  ["delete/drain", "delete/stop", "delete/container", "delete/volumes"]

/-- One `delete node`, stopped at any command or finished. -/
def DeleteStep (js : Json) (c : Cluster) (name : String)
    (t : Trace.Transition NodeParts Invocation) : Prop :=
  (deleteParts js c name t.label).Reaches { t.source with issued := [] } t.target

/-- The invocation takes no part away, the node was reset before, or it drains the node, whose object
is there, and steps over no failed reset. -/
def Careful (js : Json) (c : Cluster) (name : String)
    (t : Trace.Transition NodeParts Invocation) : Prop :=
  (∀ full ∈ takingPhases, t.label.Picks full = false) ∨ t.source.wasReset = true ∨
    t.label.Picks "delete/drain" = true ∧ t.source.object = true ∧
      ¬ SteppedOver js c name t.label.replies

section Reset

variable {js : Json} {c : Cluster} {name : String} {a : Replies} {s₀ s : NodeParts} {i : Issued}

lemma kept_of_wasReset (h : s.wasReset = true) : Kept s₀ s := Or.inl h

lemma Kept.wasReset_of_removed (h : Kept s₀ s) (hr : Removed s₀ s) : s.wasReset = true := by
  rcases h with h | ⟨hobject, hcontainer, hvolumes⟩
  · exact h
  · rcases hr with ⟨h₀, h⟩ | ⟨h₀, h⟩ | ⟨v, h₀, h⟩
    · simp [hobject, h₀] at h
    · simp [hcontainer, h₀] at h
    · exact absurd h₀ (hvolumes ▸ h)

@[simp] lemma kept_issue : Kept s₀ (s.issue i) ↔ Kept s₀ s := Iff.rfl

lemma spec_require {b : Bool} {pre stop : NodeParts → Prop} (h : ∀ s, pre s → stop s) :
    Script.Spec pre (require b) stop fun s => pre s ∧ b = true := by
  cases b with
  | true => exact Script.Spec.skip fun s hs => ⟨h s hs, hs, rfl⟩
  | false => exact Script.Spec.fail h

/-- After the reset it succeeded, or its failure is stepped over. -/
lemma spec_resetNode : Script.Spec (Kept s₀) (resetNode a) (Kept s₀) fun s => Kept s₀ s ∧
    (s.wasReset = true ∨ ∃ res, a.reset = .ok res ∧ res.returncode ≠ 0) := by
  rw [resetNode]
  cases hreset : a.reset with
  | error e => exact Script.Spec.fail fun _ hs => hs
  | ok res =>
      refine Script.Spec.command fun s hs => ?_
      have hkept : Kept s₀ { s.issue (.reset res) with
          wasReset := s.wasReset || decide (res.returncode = 0) } := by
        rcases hs with hs | hs
        · exact Or.inl (by simp [hs])
        · exact Or.inr hs
      refine ⟨hs, hkept, hkept, ?_⟩
      by_cases hcode : res.returncode = 0
      · left
        simp [hcode]
      · exact Or.inr ⟨res, rfl, hcode⟩

/-- **The drain** takes the Node object away after a successful reset, unless it steps over a failed
one. -/
lemma spec_drainRun (hgood : ¬ SteppedOver js c name a) :
    Script.Spec (Kept s₀) (drainRun js c name a) (Kept s₀) fun s => s.wasReset = true := by
  set mid : NodeParts → Prop := fun s => Kept s₀ s ∧
    (s.wasReset = true ∨ ∃ res, a.reset = .ok res ∧ res.returncode ≠ 0) with hmid
  have hissue : ∀ i, Script.Spec mid (Script.command (NodeParts.issue i)) (Kept s₀) mid :=
    fun i => Script.Spec.command fun s hs => ⟨hs.1, hs.1, hs⟩
  have hpolls : Script.Spec mid (Script.each (waited js c name a).1 fun p =>
      Script.command (NodeParts.issue (.poll p))) (Kept s₀) mid :=
    Script.Spec.each_mem (fun p _ => hissue _) fun s hs => hs.1
  have hcommand : Script.Spec (fun s => (mid s ∧ (waited js c name a).2 = true) ∧
      becomesReady a = true) (Script.command fun s => { s.issue .deleteNode with
        object := s.object && decide (a.delete.returncode ≠ 0) }) (Kept s₀)
      fun s => Kept s₀ s ∧ (a.delete.returncode = 0 → s.wasReset = true) := by
    refine Script.Spec.command fun s hs => ?_
    obtain ⟨⟨⟨hkept, hreset⟩, hwaited⟩, hready⟩ := hs
    by_cases hcode : a.delete.returncode = 0
    · have hwas : s.wasReset = true :=
        hreset.resolve_right fun h => hgood ⟨h, hwaited, hready, hcode⟩
      exact ⟨hkept, Or.inl hwas, Or.inl hwas, fun _ => hwas⟩
    · have hsame : Kept s₀ { s.issue .deleteNode with
          object := s.object && decide (a.delete.returncode ≠ 0) } := by
        simpa [Kept, NodeParts.issue, hcode] using hkept
      exact ⟨hkept, hsame, hsame, fun h => absurd h hcode⟩
  have hdelete : Script.Spec (fun s => (mid s ∧ (waited js c name a).2 = true) ∧
      becomesReady a = true) (deleteObject a) (Kept s₀) fun s => s.wasReset = true :=
    (hcommand.seq (spec_require fun s hs => hs.1)).weaken (fun _ h => h) (fun _ h => h)
      fun s hs => hs.1.2 (by simpa using hs.2)
  have hready : Script.Spec (fun s => mid s ∧ (waited js c name a).2 = true)
      (Script.seq (Script.command (NodeParts.issue .ready)) <|
        Script.seq (require (becomesReady a)) (deleteObject a)) (Kept s₀)
      fun s => s.wasReset = true :=
    Script.Spec.seq (Script.Spec.command fun s hs => ⟨hs.1.1, hs.1.1, hs⟩) <|
      Script.Spec.seq (spec_require fun s hs => hs.1.1) hdelete
  have hdrain : Script.Spec (Kept s₀) (Script.command (NodeParts.issue .drain)) (Kept s₀)
      (Kept s₀) := Script.Spec.command fun s hs => ⟨hs, hs, hs⟩
  exact hdrain.seq <| spec_resetNode.seq <| hpolls.seq <|
    Script.Spec.seq (spec_require fun s hs => hs.1) hready

lemma wasReset_drainRun :
    Script.Spec (fun s => s.wasReset = true) (drainRun js c name a) (fun s => s.wasReset = true)
      fun s => s.wasReset = true := by
  have hissue : ∀ i, Script.Spec (fun s => s.wasReset = true) (Script.command (NodeParts.issue i))
      (fun s => s.wasReset = true) fun s => s.wasReset = true :=
    fun i => Script.Spec.command fun s hs => ⟨hs, hs, hs⟩
  have hrequire : ∀ b, Script.Spec (fun s : NodeParts => s.wasReset = true) (require b)
      (fun s => s.wasReset = true) fun s => s.wasReset = true :=
    fun b => (spec_require fun _ hs => hs).weaken (fun _ h => h) (fun _ h => h) fun _ hs => hs.1
  have hreset : Script.Spec (fun s => s.wasReset = true) (resetNode a)
      (fun s => s.wasReset = true) fun s => s.wasReset = true := by
    rw [resetNode]
    cases a.reset with
    | error e => exact Script.Spec.fail fun _ hs => hs
    | ok res => exact Script.Spec.command fun s hs => by simp [hs]
  have hdelete : Script.Spec (fun s => s.wasReset = true) (deleteObject a)
      (fun s => s.wasReset = true) fun s => s.wasReset = true :=
    Script.Spec.seq (Script.Spec.command fun s hs => ⟨hs, hs, hs⟩) (hrequire _)
  exact (hissue _).seq <| hreset.seq <|
    (Script.Spec.each_mem (fun _ _ => hissue _) fun _ hs => hs).seq <|
      (hrequire _).seq <| (hissue _).seq <| (hrequire _).seq hdelete

/-- What the phases after the drain keep. -/
lemma spec_later {inv : NodeParts → Prop}
    (hinv : ∀ s s', s'.wasReset = s.wasReset → s'.issued = s.issued → inv s → inv s') :
    ∀ l ∈ laterLeaves name a, Script.Spec inv l.2.run inv inv := by
  simp only [laterLeaves, List.forall_mem_cons, List.not_mem_nil, false_implies, implies_true,
    and_true]
  refine ⟨?_, ?_, ?_, Script.Spec.skip fun _ hs => ⟨hs, hs⟩, Script.Spec.skip fun _ hs => ⟨hs, hs⟩⟩
  · exact Script.Spec.command fun s hs => ⟨hs, hinv s _ rfl rfl hs, hinv s _ rfl rfl hs⟩
  · refine Script.Spec.onlyIf ?_ fun s hs _ => ⟨hs, hs⟩
    split
    · exact Script.Spec.command fun s hs => ⟨hs.1, hinv s _ rfl rfl hs.1, hinv s _ rfl rfl hs.1⟩
    · exact Script.Spec.fail fun s hs => hs.1
  · refine Script.Spec.each_mem (fun v _ => ?_) fun _ hs => hs
    refine Script.Spec.onlyIf ?_ fun s hs _ => ⟨hs, hs⟩
    split
    · exact Script.Spec.command fun s hs => ⟨hs.1, hinv s _ rfl rfl hs.1, hinv s _ rfl rfl hs.1⟩
    · exact Script.Spec.fail fun s hs => hs.1

/-- An invocation that asks for none of the taking phases. -/
lemma spec_idle {inv : Invocation} (hnone : ∀ full ∈ takingPhases, inv.Picks full = false) :
    Script.Spec (Kept s₀) (deleteParts js c name inv) (Kept s₀) (Kept s₀) := by
  simp only [takingPhases, List.forall_mem_cons, List.not_mem_nil, false_implies,
    implies_true, and_true] at hnone
  obtain ⟨hdrain, hstop, hcontainer, hvolumes⟩ := hnone
  refine spec_deleteParts fun l hl => ?_
  have hother : l.2 = otherLeaf := by
    simp only [selectedLeaves, laterLeaves, List.mem_filter, List.mem_cons, List.not_mem_nil,
      or_false] at hl
    obtain ⟨rfl | rfl | rfl | rfl | rfl | rfl, hl⟩ := hl
    · simp [hdrain] at hl
    · simp [hstop] at hl
    · simp [hcontainer] at hl
    · simp [hvolumes] at hl
    · rfl
    · rfl
  rw [hother]
  exact Script.Spec.skip fun _ hs => ⟨hs, hs⟩

/-- A node that was reset stays one that was. -/
lemma spec_wasReset (inv : Invocation) :
    Script.Spec (fun s => s.wasReset = true) (deleteParts js c name inv)
      (fun s => s.wasReset = true) fun s => s.wasReset = true := by
  refine spec_deleteParts fun l hl => ?_
  rcases List.mem_cons.mp (List.mem_of_mem_filter hl) with rfl | hl
  · exact wasReset_drainRun
  · exact spec_later (fun _ _ he _ hs => he.trans hs) l hl

/-- What the later phases keep, under this invocation. -/
lemma spec_laterVisits {inv : Invocation} {keeps : NodeParts → Prop}
    (hkeeps : ∀ s s', s'.wasReset = s.wasReset → s'.issued = s.issued → keeps s → keeps s') :
    Script.Spec keeps ((runner js c name inv).visits
      ((laterLeaves name inv.replies).filter fun l => inv.Picks l.1)) keeps keeps :=
  Runner.spec_visits (fun _ _ hs => hs)
    (fun l hl => spec_later hkeeps l (List.mem_of_mem_filter hl))
    fun _ => Script.Spec.skip fun _ hs => ⟨hs, hs⟩

/-- An invocation that drains the node, whose object is there. -/
lemma spec_drains {inv : Invocation} (hpicks : inv.Picks "delete/drain" = true)
    (hgood : ¬ SteppedOver js c name inv.replies) :
    Script.Spec (fun s => Kept s₀ s ∧ s.object = true) (deleteParts js c name inv) (Kept s₀)
      (Kept s₀) := by
  rw [deleteParts_of_picks hpicks]
  have hdrain : Script.Spec (fun s => Kept s₀ s ∧ s.object = true)
      ((runner js c name inv).visit ("delete/drain", drainLeaf js c name inv.replies)) (Kept s₀)
      fun s => s.wasReset = true := by
    refine Runner.spec_visit_pending rfl (fun s hs => ?_) (fun s hs => ⟨hs.1, hs.1, hs.1⟩)
      (spec_drainRun hgood) (fun s hs => Or.inl hs)
      (Script.Spec.skip fun s hs => ⟨Or.inl hs, hs⟩)
    simp [Leaf.isDone, drainLeaf, hs.2]
  have hlater : Script.Spec (fun s => s.wasReset = true) ((runner js c name inv).visits
      ((laterLeaves name inv.replies).filter fun l => inv.Picks l.1))
      (fun s => s.wasReset = true) fun s => s.wasReset = true :=
    spec_laterVisits fun _ _ he _ hs => he.trans hs
  exact hdrain.seq (hlater.weaken (fun _ h => h) (fun _ h => Or.inl h) fun _ h => Or.inl h)

/-- **A careful delete** keeps every part until the node was reset. -/
lemma kept_of_step {t : Trace.Transition NodeParts Invocation} (hstep : DeleteStep js c name t)
    (hcareful : Careful js c name t) (hkept : Kept s₀ t.source) : Kept s₀ t.target := by
  have hstart : Kept s₀ { t.source with issued := [] } := hkept
  rcases hcareful with hnone | hwas | ⟨hpicks, hobject, hgood⟩
  · exact (spec_idle hnone).stops hstart hstep
  · have hsource : ({ t.source with issued := [] } : NodeParts).wasReset = true := hwas
    exact Or.inl ((spec_wasReset t.label).stops hsource hstep)
  · exact (spec_drains hpicks hgood).stops ⟨hstart, hobject⟩ hstep

/-- **A control plane is reset before any part of it goes**, in every state of every run of careful
deletes. -/
theorem resetsFirst_of_run {ts : List (Trace.Transition NodeParts Invocation)}
    (run : Trace.Run (DeleteStep js c name) s₀ ts s) (hcareful : ∀ t ∈ ts, Careful js c name t) :
    (Removed s₀ s → s.wasReset = true) ∧
      ∀ t ∈ ts, Removed s₀ t.target → t.target.wasReset = true := by
  have hinv := run.invariant (Or.inr ⟨rfl, rfl, rfl⟩ : Kept s₀ s₀)
    (fun t hstep hsafe hkept => kept_of_step hstep hsafe hkept) hcareful
  exact ⟨hinv.1.wasReset_of_removed, fun t ht => (hinv.2 t ht).2.wasReset_of_removed⟩

end Reset

/-! ### A reset that fails -/

/-- Two control planes behind one router. -/
def twoPlanes : Cluster :=
  loneCluster.withNodes (loneCluster.spec.nodes ++
    [{ role := .controlPlane, name := ⟨"dev-control-plane-2", by decide⟩
       ip := ⟨0xAC160002, by decide⟩, cpu := 2, memory := ⟨"4g", memory_4g⟩ }])

/-- The second control plane, running. -/
def intact : NodeParts where
  object := true
  active := true
  container := true
  volumes := nodeVolumes "dev-control-plane-2"
  wasReset := false
  issued := []

/-- FRR is not asked on a cluster in proxy mode. -/
def noJson : Json where
  loads _ := none
  str _ := ""

/-- The router runs, and its query comes back like this. -/
def pollWith (res : Result) : Poll where
  up _ := true
  inspect _ := .ok ⟨0, "true\n", ""⟩
  query _ := .ok res
  honest := by
    rintro r _ h -
    cases h
    decide

/-- Every command of a delete goes well, but for the reset and the router's query. -/
def repliesWith (reset query : Result) : Replies where
  reset := .ok reset
  polls _ := pollWith query
  readyz _ := ⟨0, "ok", ""⟩
  delete := ⟨0, "", ""⟩
  stopRemoves := true
  removes _ := true

/-- haproxy says that the second control plane is down. -/
def downRow : Result := ⟨0, "api dev-control-plane-2 DOWN 0\n", ""⟩

/-- The invocation without `--phase`. -/
def deleteWith (reset query : Result) : Invocation := ⟨none, repliesWith reset query⟩

/-- The parts that are left when it ends. -/
def leftBy (reset query : Result) : NodeParts :=
  (deleteParts noJson twoPlanes "dev-control-plane-2" (deleteWith reset query) intact).last intact

lemma run_deleteWith (reset query : Result) :
    Trace.Run (DeleteStep noJson twoPlanes "dev-control-plane-2") intact
      [⟨intact, deleteWith reset query, leftBy reset query⟩] (leftBy reset query) := by
  have hstep : DeleteStep noJson twoPlanes "dev-control-plane-2"
      ⟨intact, deleteWith reset query, leftBy reset query⟩ := Script.last_mem
  exact Trace.Run.snoc Trace.Run.nil hstep

/-- A delete whose reset goes well takes every part away. -/
theorem resetsFirst_twoPlanes :
    Removed intact (leftBy ⟨0, "", ""⟩ downRow) ∧ (leftBy ⟨0, "", ""⟩ downRow).wasReset = true := by
  have hremoved : Removed intact (leftBy ⟨0, "", ""⟩ downRow) := Or.inl ⟨rfl, by decide⟩
  refine ⟨hremoved, (resetsFirst_of_run (run_deleteWith _ _) ?_).1 hremoved⟩
  intro t ht
  obtain rfl := List.mem_singleton.mp ht
  refine Or.inr (Or.inr ⟨by decide, rfl, ?_⟩)
  rintro ⟨⟨res, hres, hcode⟩, -⟩
  cases hres
  exact hcode rfl

/-- A reset that fails while the router has let go already is stepped over: the node goes, and etcd
keeps its member. -/
theorem not_resetsFirst_failing :
    ¬ ∀ ts s, Trace.Run (DeleteStep noJson twoPlanes "dev-control-plane-2") intact ts s →
      Removed intact s → s.wasReset = true := by
  intro hall
  have hremoved : Removed intact (leftBy ⟨1, "", "etcdserver: request timed out"⟩ downRow) :=
    Or.inl ⟨rfl, by decide⟩
  have hwas := hall _ _ (run_deleteWith _ _) hremoved
  have hnot : (leftBy ⟨1, "", "etcdserver: request timed out"⟩ downRow).wasReset = false := by
    decide
  rw [hnot] at hwas
  exact absurd hwas (by decide)

/-! ### The wait for the routers -/

/-- `kubectl delete node` was issued only after a poll in which every running router let go. -/
def DeletesAfterLetGo (js : Json) (c : Cluster) (n : Node) (issued : List Issued) : Prop :=
  ∀ pre post, issued = pre ++ Issued.deleteNode :: post → ∃ p, Issued.poll p ∈ pre ∧ LetGo js c n p

/-- The wait ends with poll number `i`, the first that names no router. -/
def EndsAt (js : Json) (c : Cluster) (n : Node) (a : Replies) (i : ℕ) : Prop :=
  i < 16 ∧ anyRoutesTo js c n (a.polls i) = .ok [] ∧
    ∀ j < i, ∃ l ≠ [], anyRoutesTo js c n (a.polls j) = .ok l

/-- The drain gets past everything but the wait. -/
def Drains (inv : Invocation) (s : NodeParts) : Prop :=
  inv.Picks "delete/drain" = true ∧ s.object = true ∧ (∃ res, inv.replies.reset = .ok res) ∧
    becomesReady inv.replies = true

/-- A running router was not heard in the poll that ends the wait. -/
def Deaf (js : Json) (c : Cluster) (n : Node) (a : Replies) : Prop :=
  ∃ i, EndsAt js c n a i ∧ ¬ Heard js c (a.polls i)

section Wait

variable {js : Json} {c : Cluster} {n : Node} {name : String} {a : Replies} {inv : Invocation}
  {s₀ s : NodeParts} {polls : ℕ → Poll} {rounds i d : ℕ}

/-- A wait that ends well ends with the first poll that names no router. -/
lemma pollFrom_eq_true (h : (pollFrom js c n polls rounds i).2 = true) :
    ∃ d < rounds, anyRoutesTo js c n (polls (i + d)) = .ok [] ∧
      (∀ e < d, ∃ l ≠ [], anyRoutesTo js c n (polls (i + e)) = .ok l) ∧
      (pollFrom js c n polls rounds i).1 = (List.range (d + 1)).map fun e => polls (i + e) := by
  induction rounds generalizing i with
  | zero => simp [pollFrom] at h
  | succ rounds ih =>
      rw [pollFrom] at h ⊢
      cases hpoll : anyRoutesTo js c n (polls i) with
      | error e => simp [hpoll] at h
      | ok l =>
          cases l with
          | nil => exact ⟨0, by omega, hpoll, by simp, by simp⟩
          | cons r l =>
              simp only [hpoll] at h ⊢
              obtain ⟨d, hd, hlast, hbefore, hpolls⟩ := ih h
              refine ⟨d + 1, by omega, ?_, fun e he => ?_, ?_⟩
              · rw [← hlast]
                congr 2
                omega
              · cases e with
                | zero => exact ⟨r :: l, by simp, hpoll⟩
                | succ e =>
                    obtain ⟨l', hl', he'⟩ := hbefore e (by omega)
                    refine ⟨l', hl', ?_⟩
                    rw [← he']
                    congr 2
                    omega
              · rw [hpolls, List.range_succ_eq_map (n := d + 1), List.map_cons, List.map_map]
                congr 1
                refine List.map_congr_left fun e _ => ?_
                rw [Function.comp_apply]
                congr 1
                omega

/-- The first poll that names no router ends the wait. -/
lemma pollFrom_of_last (hd : d < rounds) (hlast : anyRoutesTo js c n (polls (i + d)) = .ok [])
    (hbefore : ∀ e < d, ∃ l ≠ [], anyRoutesTo js c n (polls (i + e)) = .ok l) :
    (pollFrom js c n polls rounds i).2 = true := by
  induction d generalizing i rounds with
  | zero =>
      obtain ⟨rounds, rfl⟩ := Nat.exists_eq_succ_of_ne_zero (by omega : rounds ≠ 0)
      rw [Nat.add_zero] at hlast
      simp [pollFrom, hlast]
  | succ d ih =>
      obtain ⟨rounds, rfl⟩ := Nat.exists_eq_succ_of_ne_zero (by omega : rounds ≠ 0)
      obtain ⟨l, hl, hfirst⟩ := hbefore 0 (by omega)
      rw [Nat.add_zero] at hfirst
      obtain ⟨r, l, rfl⟩ := List.exists_cons_of_ne_nil hl
      simp only [pollFrom, hfirst]
      refine ih (by omega) ?_ fun e he => ?_
      · rw [← hlast]
        congr 2
        omega
      · obtain ⟨l', hl', he'⟩ := hbefore (e + 1) (by omega)
        refine ⟨l', hl', ?_⟩
        rw [← he']
        congr 2
        omega

lemma waited_eq (hnode : findNode c name = some n) (hrole : n.role = .controlPlane) :
    waited js c name a = pollFrom js c n a.polls 16 0 := by
  rw [waited, hnode]
  simp [hrole]

/-- The polls of a wait that ended well. -/
lemma exists_endsAt (hnode : findNode c name = some n) (hrole : n.role = .controlPlane)
    (h : (waited js c name a).2 = true) : ∃ i, EndsAt js c n a i ∧
      (waited js c name a).1 = (List.range (i + 1)).map a.polls := by
  rw [waited_eq hnode hrole] at h ⊢
  obtain ⟨d, hd, hlast, hbefore, hpolls⟩ := pollFrom_eq_true h
  simp only [Nat.zero_add] at hlast hbefore hpolls
  exact ⟨d, ⟨hd, hlast, hbefore⟩, hpolls⟩

lemma waited_of_endsAt (hnode : findNode c name = some n) (hrole : n.role = .controlPlane)
    (h : EndsAt js c n a i) : (waited js c name a).2 = true := by
  rw [waited_eq hnode hrole]
  exact pollFrom_of_last h.1 (by simpa using h.2.1) (by simpa using h.2.2)

lemma deletesAfterLetGo_of_notMem {issued : List Issued} (h : Issued.deleteNode ∉ issued) :
    DeletesAfterLetGo js c n issued := by
  rintro pre post rfl
  simp at h

/-- The command at the end of the drain. -/
lemma deletesAfterLetGo_append {issued : List Issued} (h : Issued.deleteNode ∉ issued) :
    DeletesAfterLetGo js c n (issued ++ [.deleteNode]) ↔
      ∃ p, Issued.poll p ∈ issued ∧ LetGo js c n p := by
  constructor
  · exact fun hafter => hafter issued [] rfl
  · rintro hlet pre post heq
    have hpre : pre = issued := by
      rcases List.append_eq_append_iff.mp heq with ⟨l, hl, htail⟩ | ⟨l, hl, htail⟩
      · cases l with
        | nil => simpa using hl
        | cons x l => simp at htail
      · cases l with
        | nil => simpa using hl.symm
        | cons x l =>
            have hx : x = .deleteNode := (List.cons.inj htail).1.symm
            exact absurd (by simp [hl, hx]) h
    exact hpre ▸ hlet

/-- **A drain with the wait heard** deletes the node after a poll in which the routers let go. -/
lemma spec_drainRun_wait (hnode : findNode c name = some n) (hrole : n.role = .controlPlane)
    (hheard : becomesReady a = true → (∃ res, a.reset = .ok res) → ¬ Deaf js c n a) :
    Script.Spec (fun s => s.issued = []) (drainRun js c name a)
      (fun s => DeletesAfterLetGo js c n s.issued) fun s => DeletesAfterLetGo js c n s.issued := by
  set none : NodeParts → Prop := fun s => Issued.deleteNode ∉ s.issued ∧ ∃ res, a.reset = .ok res
    with hnonedef
  set fine : NodeParts → Prop := fun s => DeletesAfterLetGo js c n s.issued with hfine
  have hstop : ∀ s, none s → fine s := fun s hs => deletesAfterLetGo_of_notMem hs.1
  have hdrain : Script.Spec (fun s => s.issued = []) (Script.command (NodeParts.issue .drain)) fine
      fun s => Issued.deleteNode ∉ s.issued := by
    refine Script.Spec.command fun s hs => ?_
    have hnot : Issued.deleteNode ∉ (s.issue .drain).issued := by simp [NodeParts.issue, hs]
    exact ⟨deletesAfterLetGo_of_notMem (by simp [hs]), deletesAfterLetGo_of_notMem hnot, hnot⟩
  have hreset : Script.Spec (fun s => Issued.deleteNode ∉ s.issued) (resetNode a) fine none := by
    rw [resetNode]
    cases hr : a.reset with
    | error e => exact Script.Spec.fail fun s hs => deletesAfterLetGo_of_notMem hs
    | ok res =>
        refine Script.Spec.command fun s hs => ?_
        have hnot : Issued.deleteNode ∉ (s.issue (.reset res)).issued := by
          simpa [NodeParts.issue] using hs
        exact ⟨deletesAfterLetGo_of_notMem hs, deletesAfterLetGo_of_notMem hnot, hnot, res, hr⟩
  set seen : List Poll → NodeParts → Prop := fun rest s =>
    none s ∧ ∀ p ∈ (waited js c name a).1, p ∈ rest ∨ Issued.poll p ∈ s.issued with hseen
  have hpolls : Script.Spec (seen (waited js c name a).1) (Script.each (waited js c name a).1
      fun p => Script.command (NodeParts.issue (.poll p))) fine (seen []) := by
    refine Script.Spec.each (fun p rest => Script.Spec.command fun s hs => ?_)
      fun s hs => hstop s hs.1
    obtain ⟨⟨hnot, hres⟩, hmem⟩ := hs
    have hnot' : Issued.deleteNode ∉ (s.issue (.poll p)).issued := by
      simpa [NodeParts.issue] using hnot
    refine ⟨hstop s ⟨hnot, hres⟩, deletesAfterLetGo_of_notMem hnot', ⟨hnot', hres⟩, fun q hq => ?_⟩
    rcases hmem q hq with h | h
    · rcases List.mem_cons.mp h with rfl | h
      · exact Or.inr (by simp [NodeParts.issue])
      · exact Or.inl h
    · exact Or.inr (by simp [NodeParts.issue, h])
  have hdelete : Script.Spec (fun s => (seen [] s ∧ (waited js c name a).2 = true) ∧
      becomesReady a = true) (deleteObject a) fine fine := by
    refine Script.Spec.seq (Script.Spec.command fun s hs => ?_)
      ((spec_require fun s hs => hs).weaken (fun _ h => h) (fun _ h => h) fun s hs => hs.1)
    obtain ⟨⟨⟨⟨hnot, hres⟩, hmem⟩, hwaited⟩, hready⟩ := hs
    obtain ⟨i, hi, hall⟩ := exists_endsAt hnode hrole hwaited
    have hlet : LetGo js c n (a.polls i) := by
      refine (letGo_iff_heard hi.2.1).mpr ?_
      by_contra hdeaf
      exact hheard hready hres ⟨i, hi, hdeaf⟩
    have hin : a.polls i ∈ (waited js c name a).1 := by
      rw [hall]
      exact List.mem_map.mpr ⟨i, by simp, rfl⟩
    have hafter : DeletesAfterLetGo js c n (s.issued ++ [.deleteNode]) :=
      (deletesAfterLetGo_append hnot).mpr
        ⟨a.polls i, (hmem _ hin).resolve_left (by simp), hlet⟩
    exact ⟨hstop s ⟨hnot, hres⟩, hafter, hafter⟩
  have hready : Script.Spec (fun s => seen [] s ∧ (waited js c name a).2 = true)
      (Script.seq (Script.command (NodeParts.issue .ready)) <|
        Script.seq (require (becomesReady a)) (deleteObject a)) fine fine := by
    refine Script.Spec.seq (Script.Spec.command fun s hs => ?_)
      (Script.Spec.seq (spec_require fun s hs => hstop s hs.1.1) hdelete)
    obtain ⟨⟨⟨hnot, hres⟩, hmem⟩, hwaited⟩ := hs
    have hnot' : Issued.deleteNode ∉ (s.issue .ready).issued := by
      simpa [NodeParts.issue] using hnot
    refine ⟨hstop s ⟨hnot, hres⟩, deletesAfterLetGo_of_notMem hnot', ⟨⟨hnot', hres⟩, ?_⟩, hwaited⟩
    intro p hp
    have hin := (hmem p hp).resolve_left (by simp)
    exact Or.inr (by simp [NodeParts.issue, hin])
  have hstart : Script.Spec none (Script.each (waited js c name a).1
      fun p => Script.command (NodeParts.issue (.poll p))) fine (seen []) :=
    hpolls.weaken (fun s hs => ⟨hs, fun p hp => Or.inl hp⟩) (fun _ h => h) fun _ h => h
  exact hdrain.seq <| hreset.seq <| hstart.seq <|
    Script.Spec.seq (spec_require fun s hs => hstop s hs.1) hready

/-- Commands that are issued one after the other. -/
lemma ends_issueAll (f : Poll → Issued) (l : List Poll) (s : NodeParts) :
    (Script.each l fun p => Script.command (NodeParts.issue (f p))).Ends s
      { s with issued := s.issued ++ l.map f } := by
  induction l generalizing s with
  | nil => simp
  | cons p l ih =>
      rw [Script.each_cons, Script.ends_seq]
      refine ⟨s.issue (f p), Script.ends_command.mpr rfl, ?_⟩
      have hrest := ih (s.issue (f p))
      simpa [NodeParts.issue] using hrest

lemma ends_require {b : Bool} (h : b = true) (s : NodeParts) : (require b).Ends s s := by
  rw [h]
  exact Script.ends_skip.mpr rfl

/-- A drain that gets past everything issues `kubectl delete node`. -/
lemma reaches_deleteNode {res : Result} (hreset : a.reset = .ok res)
    (hwaited : (waited js c name a).2 = true) (hready : becomesReady a = true) (s : NodeParts) :
    ∃ t, (drainRun js c name a).Reaches s t ∧ t.issued = s.issued ++ [.drain, .reset res] ++
      (waited js c name a).1.map Issued.poll ++ [.ready] ++ [.deleteNode] := by
  set s₁ : NodeParts := { (s.issue .drain).issue (.reset res) with
    wasReset := s.wasReset || decide (res.returncode = 0) } with hs₁
  set s₂ : NodeParts :=
    { s₁ with issued := s₁.issued ++ (waited js c name a).1.map Issued.poll } with hs₂
  have hfirst : (Script.command (NodeParts.issue .drain)).Ends s (s.issue .drain) :=
    Script.ends_command.mpr rfl
  have hsecond : (resetNode a).Ends (s.issue .drain) s₁ := by
    rw [resetNode, hreset]
    exact Script.ends_command.mpr rfl
  have hthird : (Script.each (waited js c name a).1 fun p =>
      Script.command (NodeParts.issue (.poll p))).Ends s₁ s₂ := ends_issueAll Issued.poll _ _
  have hfourth : (Script.command (NodeParts.issue .ready)).Ends s₂ (s₂.issue .ready) :=
    Script.ends_command.mpr rfl
  refine ⟨{ (s₂.issue .ready).issue .deleteNode with
      object := s₂.object && decide (a.delete.returncode ≠ 0) },
    Script.reaches_after hfirst <| Script.reaches_after hsecond <| Script.reaches_after hthird <|
      Script.reaches_after (ends_require hwaited _) <| Script.reaches_after hfourth <|
        Script.reaches_after (ends_require hready _) <|
          Script.reaches_seq.mpr <| Or.inl <| Script.reaches_command.mpr <| Or.inr rfl, ?_⟩
  simp [NodeParts.issue, hs₁, hs₂]

/-- The polls of a wait that ended without being heard. -/
lemma not_letGo_of_deaf (hends : EndsAt js c n a i) (hdeaf : ¬ Heard js c (a.polls i)) {p : Poll}
    (hp : p ∈ (List.range (i + 1)).map a.polls) : ¬ LetGo js c n p := by
  obtain ⟨j, hj, rfl⟩ := List.mem_map.mp hp
  rcases Nat.lt_succ_iff_lt_or_eq.mp (List.mem_range.mp hj) with hlt | rfl
  · obtain ⟨l, hl, hnamed⟩ := hends.2.2 j hlt
    exact not_letGo_of_named hnamed hl
  · exact fun hlet => hdeaf ((letGo_iff_heard hends.2.1).mp hlet)

/-- Where the drain can be stopped, the verb can be. -/
lemma reaches_of_drain {t : NodeParts} (hpicks : inv.Picks "delete/drain" = true)
    (hobject : s₀.object = true) (h : (drainRun js c name inv.replies).Reaches s₀ t) :
    (deleteParts js c name inv).Reaches s₀ t := by
  have hpending : (drainLeaf js c name inv.replies).isDone s₀ = false := by
    simp [Leaf.isDone, drainLeaf, hobject]
  rw [deleteParts_of_picks hpicks]
  refine Script.reaches_seq.mpr (Or.inl ?_)
  refine (Runner.reaches_visit_pending (by rfl) hpending).mpr (Or.inr ?_)
  exact Script.reaches_seq.mpr (Or.inl h)

lemma endsAt_unique {i' : ℕ} (h : EndsAt js c n a i) (h' : EndsAt js c n a i') : i = i' := by
  by_contra hne
  rcases Nat.lt_or_gt_of_ne hne with hlt | hlt
  · obtain ⟨l, hl, hnamed⟩ := h'.2.2 i hlt
    exact hl (Except.ok.inj (hnamed.symm.trans h.2.1))
  · obtain ⟨l, hl, hnamed⟩ := h.2.2 i' hlt
    exact hl (Except.ok.inj (hnamed.symm.trans h'.2.1))

/-- **`kubectl delete node` comes after a poll in which every running router let go**, exactly when
the drain does not get past everything with a wait that ends unheard. -/
theorem waits_iff (hnode : findNode c name = some n) (hrole : n.role = .controlPlane)
    (hissued : s₀.issued = []) :
    (∀ s, (deleteParts js c name inv).Reaches s₀ s → DeletesAfterLetGo js c n s.issued) ↔
      ¬ (Drains inv s₀ ∧ Deaf js c n inv.replies) := by
  constructor
  · rintro hall ⟨⟨hpicks, hobject, ⟨res, hreset⟩, hready⟩, i, hends, hdeaf⟩
    have hwaited := waited_of_endsAt hnode hrole hends
    obtain ⟨t, ht, hissues⟩ := reaches_deleteNode hreset hwaited hready s₀
    have hafter := hall t (reaches_of_drain hpicks hobject ht)
    rw [hissues, hissued, List.nil_append] at hafter
    obtain ⟨p, hp, hlet⟩ := (deletesAfterLetGo_append (by simp)).mp hafter
    obtain ⟨i', hends', hpolls⟩ := exists_endsAt hnode hrole hwaited
    obtain rfl := endsAt_unique hends hends'
    have hin : p ∈ (waited js c name inv.replies).1 := by simpa using hp
    exact not_letGo_of_deaf hends hdeaf (hpolls ▸ hin) hlet
  · intro hnot s hreach
    have hkeeps : ∀ s s' : NodeParts, s'.wasReset = s.wasReset → s'.issued = s.issued →
        DeletesAfterLetGo js c n s.issued → DeletesAfterLetGo js c n s'.issued :=
      fun _ _ _ he h => he ▸ h
    by_cases hpicks : inv.Picks "delete/drain" = true
    · rw [deleteParts_of_picks hpicks] at hreach
      have hvisit : Script.Spec (fun s => s = s₀)
          ((runner js c name inv).visit ("delete/drain", drainLeaf js c name inv.replies))
          (fun s => DeletesAfterLetGo js c n s.issued)
          fun s => DeletesAfterLetGo js c n s.issued := by
        have hfirst : DeletesAfterLetGo js c n s₀.issued :=
          deletesAfterLetGo_of_notMem (by simp [hissued])
        by_cases hobject : s₀.object = true
        · refine Runner.spec_visit_pending rfl ?_ ?_ (spec_drainRun_wait hnode hrole
            fun hready hreset hdeaf => hnot ⟨⟨hpicks, hobject, hreset, hready⟩, hdeaf⟩)
            (fun _ h => h) (Script.Spec.skip fun s hs => ⟨hs, hs⟩)
          · rintro _ rfl
            simp [Leaf.isDone, drainLeaf, hobject]
          · rintro _ rfl
            exact ⟨hfirst, hfirst, hissued⟩
        · have hidle : (drainLeaf js c name inv.replies).isDone s₀ = true := by
            simpa [Leaf.isDone, drainLeaf] using hobject
          refine ⟨?_, ?_⟩
          · rintro _ t rfl ht
            rw [(Runner.reaches_visit_idle (Or.inr hidle)).mp ht]
            exact hfirst
          · rintro _ t rfl ht
            rw [(Runner.ends_visit_idle (Or.inr hidle)).mp ht]
            exact hfirst
      have hlater : Script.Spec (fun s => DeletesAfterLetGo js c n s.issued)
          ((runner js c name inv).visits
            ((laterLeaves name inv.replies).filter fun l => inv.Picks l.1))
          (fun s => DeletesAfterLetGo js c n s.issued)
          fun s => DeletesAfterLetGo js c n s.issued := spec_laterVisits hkeeps
      exact (hvisit.seq hlater).stops rfl hreach
    · have hspec : Script.Spec (fun s => DeletesAfterLetGo js c n s.issued)
          (deleteParts js c name inv) (fun s => DeletesAfterLetGo js c n s.issued)
          fun s => DeletesAfterLetGo js c n s.issued := by
        refine spec_deleteParts fun l hl => ?_
        have hlater : l ∈ laterLeaves name inv.replies := by
          obtain ⟨hmem, hpicked⟩ := List.mem_filter.mp hl
          refine (List.mem_cons.mp hmem).resolve_left fun he => hpicks ?_
          rw [he] at hpicked
          simpa using hpicked
        exact spec_later hkeeps l hlater
      exact hspec.stops (deletesAfterLetGo_of_notMem (by simp [hissued])) hreach

end Wait

/-- A router that answers that the control plane is down has let go, and the node is deleted. -/
theorem waits_twoPlanes :
    (∃ s, (deleteParts noJson twoPlanes "dev-control-plane-2"
      (deleteWith ⟨0, "", ""⟩ downRow)).Reaches intact s ∧ Issued.deleteNode ∈ s.issued) ∧
    ∀ s, (deleteParts noJson twoPlanes "dev-control-plane-2"
      (deleteWith ⟨0, "", ""⟩ downRow)).Reaches intact s →
        DeletesAfterLetGo noJson twoPlanes (twoPlanes.spec.nodes.getLast (by decide)) s.issued := by
  have hwaited : (waited noJson twoPlanes "dev-control-plane-2"
      (repliesWith ⟨0, "", ""⟩ downRow)).2 = true := by
    decide
  have hready : becomesReady (repliesWith ⟨0, "", ""⟩ downRow) = true := by
    decide
  constructor
  · obtain ⟨t, ht, hissued⟩ := reaches_deleteNode (s := intact) rfl hwaited hready
    exact ⟨t, reaches_of_drain rfl rfl ht, by rw [hissued]; simp⟩
  · refine (waits_iff rfl rfl rfl).mpr ?_
    rintro ⟨-, i, -, hdeaf⟩
    exact hdeaf fun routers _ r _ _ => ⟨rfl, downRow, rfl, rfl⟩

/-- A router whose query fails counts as one that has let go. -/
theorem not_waits_failing :
    ¬ ∀ s, (deleteParts noJson twoPlanes "dev-control-plane-2"
      (deleteWith ⟨0, "", ""⟩ ⟨1, "", "cannot attach"⟩)).Reaches intact s →
        DeletesAfterLetGo noJson twoPlanes (twoPlanes.spec.nodes.getLast (by decide)) s.issued := by
  intro hall
  have hwaited : (waited noJson twoPlanes "dev-control-plane-2"
      (repliesWith ⟨0, "", ""⟩ ⟨1, "", "cannot attach"⟩)) = ([pollWith ⟨1, "", "cannot attach"⟩], true) :=
    rfl
  have hready : becomesReady (repliesWith ⟨0, "", ""⟩ ⟨1, "", "cannot attach"⟩) = true := by
    decide
  obtain ⟨t, ht, hissued⟩ := reaches_deleteNode (s := intact) rfl (by rw [hwaited]) hready
  have hafter := hall t (reaches_of_drain rfl rfl ht)
  rw [hissued, hwaited] at hafter
  obtain ⟨p, hp, routers, hrouters, hlet⟩ := (deletesAfterLetGo_append (by simp [intact])).mp hafter
  have hp' : p = pollWith ⟨1, "", "cannot attach"⟩ := by simpa [intact] using hp
  subst hp'
  obtain ⟨r, hr⟩ : ∃ r, r ∈ routers := by
    cases hrouters
    exact ⟨_, List.mem_cons_self⟩
  obtain ⟨-, res, hres, hanswered, -⟩ := hlet r hr rfl
  cases hres
  have hcode : (1 : ℤ) = 0 := hanswered
  exact absurd hcode (by decide)

end Tk8s.Drain
