import Tk8s.Kubeconfig
import Tk8s.Lib.Inquiry
import Tk8s.Mesh.Ops
import Tk8s.Site

/-!
What `delete cluster` asks of the hosts, and what it removes.

* `Item`: what a host can hold of a cluster; `World`: every host's items, the operator's
  `cluster.yaml` files and `~/.kube/config`.
* `Replies`: which host answers at which time, and which command is refused.
* `asked`, `tell`: a question and a command, as `SshHost.run` sends them. An ssh host that does not
  answer raises, whatever the caller checks.
* `World.Fewer`: nothing came back; `has_remove`: **what a removal leaves**.
-/

namespace Tk8s.Delete

open Net

/-! ### What there is -/

/-- What a host can hold. -/
inductive Item where
  /-- A unit that is active. -/
  | active (unit : String)
  | container (name : String)
  | volume (name : String)
  | network (name : String)
  /-- The directory `/etc/containers/systemd/<cluster>`. -/
  | unitDir (cluster : String)
  | unitFile (cluster file : String)
  /-- A file of `/etc/systemd/system`. -/
  | systemd (file : String)
  | route (subnet : IPv4Network)
  | link (name : String)
  /-- The state directory of a cluster. -/
  | stateDir (cluster : String)
deriving DecidableEq

/-- The machines, and the operator's files. A unit file is in its directory; the operator's state
directory of a cluster is there when its `cluster.yaml` is, or when it is listed. -/
structure World where
  host : MachineId → List Item
  inDir : ∀ {id cluster file}, Item.unitFile cluster file ∈ host id → .unitDir cluster ∈ host id
  fleet : Fleet
  kube : KubeFile := .absent
  /-- `config.bak`. -/
  kubeBak : KubeFile := .absent
  clock : ℕ := 0

/-- The `cluster.yaml` files that are left once some state directories are gone. -/
def keepFleet (f : Fleet) (gone : String → Bool) : Fleet where
  cluster n := if gone n then none else f.cluster n
  named := by
    intro n c h
    by_cases hn : gone n = true
    · simp [hn] at h
    · rw [if_neg hn] at h
      exact f.named h

namespace World

/-- A host holds an item. -/
def has (w : World) (id : MachineId) (i : Item) : Bool :=
  match id, i with
  | none, .stateDir n => (w.fleet.cluster n).isSome || i ∈ w.host none
  | id, i => i ∈ w.host id

/-- What a removal takes: a directory goes with what is in it. -/
def takes (p : Item → Bool) : Item → Bool
  | .unitFile cluster file => p (.unitFile cluster file) || p (.unitDir cluster)
  | i => p i

/-- Every such item is removed from a host; `cluster.yaml` goes with its directory. -/
def remove (w : World) (id : MachineId) (p : Item → Bool) : World where
  host := Function.update w.host id ((w.host id).filter fun i => !takes p i)
  inDir := by
    intro id' cluster file h
    by_cases hid : id' = id
    · subst hid
      simp only [Function.update_self, List.mem_filter, takes, Bool.not_eq_true',
        Bool.or_eq_false_iff] at h ⊢
      exact ⟨w.inDir h.1, h.2.2⟩
    · rw [Function.update_of_ne hid] at h ⊢
      exact w.inDir h
  fleet := if id = none then keepFleet w.fleet fun n => p (.stateDir n) else w.fleet
  kube := w.kube
  kubeBak := w.kubeBak
  clock := w.clock

/-- A file is written to a state directory, which is made. -/
def putState (w : World) (id : MachineId) (cluster : String) : World where
  host := Function.update w.host id (.stateDir cluster :: w.host id)
  inDir := by
    intro id' cluster file h
    by_cases hid : id' = id
    · subst hid
      simp only [Function.update_self, List.mem_cons, reduceCtorEq, false_or] at h ⊢
      exact w.inDir h
    · rw [Function.update_of_ne hid] at h ⊢
      exact w.inDir h
  fleet := w.fleet
  kube := w.kube
  kubeBak := w.kubeBak
  clock := w.clock

/-- Time passes. -/
def tick (n : ℕ) (w : World) : World := { w with clock := w.clock + n }

/-- The entries of the operator's unit directory of a cluster. -/
def listdir (w : World) (cluster : String) : List String :=
  (w.host none).filterMap fun
    | .unitFile c file => if c = cluster then some file else none
    | _ => none

end World

/-! ### Who answers -/

/-- What an ssh call does at some moment: it gets through, it fails, or the connection is lost once
the command has run. -/
inductive Line where
  | up
  | down
  | cut
deriving DecidableEq

/-- How the hosts behave over time. -/
structure Replies where
  line : ℕ → String → Line
  /-- The command fails on its host, without effect. -/
  refuses : ℕ → MachineId → Bool

/-- The operator needs no ssh. -/
def Replies.lineTo (r : Replies) (n : ℕ) : MachineId → Line
  | none => .up
  | some target => r.line n target

/-- What stops a run. -/
inductive Fault where
  /-- `HostError` of an ssh call that failed. -/
  | hostError (id : MachineId)
  | raised (e : Raised)

/-- The hosts as a question finds them. -/
def audience (r : Replies) (w : World) : Audience MachineId Item Fault where
  silent n id := if r.lineTo (w.clock + n) id = .up then none else some (.hostError id)
  holds := w.has

/-- A computation that asks the hosts. -/
abbrev Asking (α : Type) := Inquiry MachineId Item Fault α

/-- What is done after a question was answered; an error ends the script. -/
def asked {α : Type} (q : World → Asking α) (k : α → Script World) : Script World :=
  Script.ask fun w =>
    match q w [] with
    | .error _ => Script.fail
    | .ok (a, notes) => Script.seq (Script.command (World.tick notes.length)) (k a)

/-- A command on a host; with `check`, one that is refused is an error. -/
def tell (r : Replies) (id : MachineId) (check : Bool) (f : World → World) : Script World :=
  Script.ask fun w =>
    match r.lineTo w.clock id with
    | .down => Script.fail
    | .cut => Script.seq (Script.command f) Script.fail
    | .up =>
        if r.refuses w.clock id then
          if check then Script.fail else Script.command (World.tick 1)
        else Script.command fun w => (f w).tick 1

/-- Everyone answers, and obeys. -/
def obedient : Replies where
  line _ _ := .up
  refuses _ _ := false

/-! ### What a removal leaves -/

namespace World

variable {w w' w'' : World} {id id' : MachineId} {i : Item} {p : Item → Bool}

@[simp] lemma has_tick {n : ℕ} : (w.tick n).has id i = w.has id i := by
  cases id <;> cases i <;> rfl

@[simp] lemma tick_fleet {n : ℕ} : (w.tick n).fleet = w.fleet := rfl

@[simp] lemma tick_kube {n : ℕ} : (w.tick n).kube = w.kube := rfl

lemma has_of_host (h : ∀ n, ¬ (id = none ∧ i = .stateDir n)) :
    w.has id i = decide (i ∈ w.host id) := by
  cases id with
  | some target => rfl
  | none =>
      cases i with
      | stateDir n => exact absurd ⟨rfl, rfl⟩ (h n)
      | _ => rfl

lemma mem_host_remove :
    i ∈ (w.remove id p).host id' ↔ i ∈ w.host id' ∧ ¬ (id' = id ∧ takes p i = true) := by
  by_cases hid : id' = id
  · subst hid
    simp [remove]
  · simp [remove, hid]

lemma remove_cluster {n : String} : (w.remove id p).fleet.cluster n =
    if id = none ∧ p (.stateDir n) = true then none else w.fleet.cluster n := by
  by_cases hid : id = none
  · simp [remove, hid, keepFleet]
  · simp [remove, hid]

/-- **What a removal leaves**: everything else. -/
theorem has_remove :
    (w.remove id p).has id' i = (w.has id' i && !(decide (id' = id) && takes p i)) := by
  by_cases hstate : ∃ n, id' = none ∧ i = .stateDir n
  · obtain ⟨n, rfl, rfl⟩ := hstate
    simp only [has, mem_host_remove, remove_cluster, takes]
    by_cases hgone : id = none ∧ p (.stateDir n) = true
    · obtain ⟨rfl, hp⟩ := hgone
      simp [hp]
    · rw [if_neg hgone]
      by_cases hid : id = none
      · have hp : p (.stateDir n) = false := by simpa [hid] using hgone
        simp [hid, hp]
      · have hne : ¬ (none = id) := fun h => hid h.symm
        simp [hne]
  · have hplain : ∀ n, ¬ (id' = none ∧ i = .stateDir n) := fun n hn => hstate ⟨n, hn⟩
    rw [has_of_host hplain, has_of_host hplain, Bool.eq_iff_iff]
    simp [mem_host_remove]

@[simp] lemma remove_kube : (w.remove id p).kube = w.kube := rfl

@[simp] lemma remove_clock : (w.remove id p).clock = w.clock := rfl

/-- Nothing came back, and no `cluster.yaml` changed but by going. -/
structure Fewer (w w' : World) : Prop where
  items : ∀ id i, w'.has id i = true → w.has id i = true
  files : ∀ n, w'.fleet.cluster n = w.fleet.cluster n ∨ w'.fleet.cluster n = none

lemma Fewer.refl (w : World) : w.Fewer w := ⟨fun _ _ => id, fun _ => Or.inl rfl⟩

lemma Fewer.trans (h : w.Fewer w') (h' : w'.Fewer w'') : w.Fewer w'' where
  items id i hi := h.items id i (h'.items id i hi)
  files n := by
    cases h'.files n with
    | inl he => exact he ▸ h.files n
    | inr he => exact Or.inr he

lemma fewer_tick (w : World) (n : ℕ) : w.Fewer (w.tick n) where
  items _ _ hi := by rwa [has_tick] at hi
  files _ := Or.inl rfl

lemma fewer_remove (w : World) (id : MachineId) (p : Item → Bool) : w.Fewer (w.remove id p) where
  items id' i hi := by
    rw [has_remove, Bool.and_eq_true] at hi
    exact hi.1
  files n := by
    rw [remove_cluster]
    split
    · exact Or.inr rfl
    · exact Or.inl rfl

/-- What is not there does not come back. -/
lemma Fewer.lacks (h : w.Fewer w') (hi : w.has id i = false) : w'.has id i = false := by
  cases hb : w'.has id i with
  | false => rfl
  | true => exact absurd (h.items id i hb) (by simp [hi])

end World

/-! ### What a question or a command keeps -/

variable {r : Replies} {w : World} {id : MachineId} {pre stop post : World → Prop}

/-- What goes on after a question, whatever was noted. -/
lemma spec_asked {α : Type} {q : World → Asking α} {k : α → Script World}
    (hstop : ∀ w, pre w → stop w)
    (h : ∀ w a notes, pre w → q w [] = .ok (a, notes) → stop (w.tick notes.length) ∧
      Script.Spec (fun w' => w' = w.tick notes.length) (k a) stop post) :
    Script.Spec pre (asked q k) stop post := by
  refine Script.Spec.ask fun w hw => ?_
  cases hq : q w [] with
  | error e => exact Script.Spec.fail fun w' hw' => hw' ▸ hstop w hw
  | ok p =>
      obtain ⟨hstop', hk⟩ := h w p.1 p.2 hw hq
      refine Script.Spec.seq (Script.Spec.command fun w' hw' => ?_) hk
      exact ⟨hw' ▸ hstop w hw, hw' ▸ hstop', congrArg _ hw'⟩

/-- A command: what holds whether it was obeyed or not, and what holds once it is over. -/
lemma spec_tell {check : Bool} {f : World → World} (hstop : ∀ w, pre w → stop w ∧ stop (f w))
    (hdone : ∀ w, pre w → stop ((f w).tick 1) ∧ post ((f w).tick 1))
    (hrefused : check = false → ∀ w, pre w → stop (w.tick 1) ∧ post (w.tick 1)) :
    Script.Spec pre (tell r id check f) stop post := by
  refine Script.Spec.ask fun w hw => ?_
  obtain ⟨hs, hf⟩ := hstop w hw
  cases r.lineTo w.clock id with
  | down => exact Script.Spec.fail fun w' hw' => hw' ▸ hs
  | cut =>
      have hcut : Script.Spec (fun w' => w' = w) (Script.command f) stop stop :=
        Script.Spec.command fun w' hw' => hw' ▸ ⟨hs, hf, hf⟩
      exact hcut.seq (Script.Spec.fail fun _ h => h)
  | up =>
      by_cases hr : r.refuses w.clock id = true
      · cases check with
        | true =>
            simp only [hr, if_true]
            exact Script.Spec.fail fun w' hw' => hw' ▸ hs
        | false =>
            simp only [hr, if_true, Bool.false_eq_true, if_false]
            exact Script.Spec.command fun w' hw' => hw' ▸ ⟨hs, hrefused rfl w hw⟩
      · simp only [hr, Bool.false_eq_true, if_false]
        exact Script.Spec.command fun w' hw' => hw' ▸ ⟨hs, hdone w hw⟩

end Tk8s.Delete
