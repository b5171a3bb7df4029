import Tk8s.Host.Files
import Tk8s.Site

/-!
The files of the machines, as the phases of create write them.

* `Disks`: the file tree of every machine. `onDisk`: a script on one of them.
* `needsSudo`: `units.needs_sudo`, which files are root's.
* `ends_each_onDisk`: **a loop over the machines, seen from one of them**.
* `exists_ends_each_onDisk`: **it gets to its end** when the scripts for each machine do.
-/

namespace Tk8s

open FileTree

/-- The file tree of every machine. -/
abbrev Disks := MachineId → Tree

/-- The operator is the machine tkctl runs on. -/
def kindOf (id : MachineId) : HostFs.Kind := if id = none then .here else .ssh

/-- A script on the files of one machine. -/
def onDisk (id : MachineId) (p : Script Tree) : Script Disks :=
  Script.within (fun d => d id) (fun t d => Function.update d id t) p

/-- `needs_sudo`: units live under `/etc`, and VyOS owns the router directories. -/
def needsSudo (e : Env) (c : Cluster) (routers : List Router) (p : Path) : Bool :=
  !HostFs.isRelativeTo p.text e.dataDir ||
    routers.any fun r => HostFs.isRelativeTo p.text (e.stateDir c.name ++ "/" ++ r.dir)

variable {id : MachineId} {p : Script Tree} {d d' : Disks}

lemma ends_onDisk :
    (onDisk id p).Ends d d' ↔ ∃ t, p.Ends (d id) t ∧ d' = Function.update d id t :=
  Script.ends_within (Function.update_eq_self id d)

lemma reaches_onDisk :
    (onDisk id p).Reaches d d' ↔ ∃ t, p.Reaches (d id) t ∧ d' = Function.update d id t :=
  Script.reaches_within (Function.update_eq_self id d)

/-- **A loop over the machines, seen from one of them**: the scripts for that machine, in order. -/
theorem ends_each_onDisk {α : Type} {l : List α} {machine : α → MachineId} {p : α → Script Tree}
    (h : (Script.each l fun a => onDisk (machine a) (p a)).Ends d d') (id : MachineId) :
    (Script.each (l.filter fun a => machine a = id) p).Ends (d id) (d' id) := by
  induction l generalizing d with
  | nil =>
      rw [Script.each_nil, Script.ends_skip] at h
      rw [h, List.filter_nil, Script.each_nil, Script.ends_skip]
  | cons a l ih =>
      obtain ⟨m, hfirst, hrest⟩ := Script.ends_seq.mp h
      obtain ⟨t, ht, rfl⟩ := ends_onDisk.mp hfirst
      have htail := ih hrest
      by_cases hid : machine a = id
      · rw [← hid] at htail ⊢
        rw [Function.update_self] at htail
        rw [List.filter_cons_of_pos (by simp), Script.each_cons, Script.ends_seq]
        exact ⟨t, ht, htail⟩
      · rw [Function.update_of_ne (Ne.symm hid)] at htail
        rwa [List.filter_cons_of_neg (by simpa using hid)]

/-- **A loop over the machines gets to its end** when the scripts for each machine do. -/
theorem exists_ends_each_onDisk {α : Type} {l : List α} {machine : α → MachineId}
    {p : α → Script Tree}
    (h : ∀ id, ∃ t, (Script.each (l.filter fun a => machine a = id) p).Ends (d id) t) :
    ∃ d', (Script.each l fun a => onDisk (machine a) (p a)).Ends d d' := by
  induction l generalizing d with
  | nil => exact ⟨d, Script.ends_skip.mpr rfl⟩
  | cons a l ih =>
      obtain ⟨u, hu⟩ := h (machine a)
      rw [List.filter_cons_of_pos (by simp), Script.each_cons] at hu
      obtain ⟨t, ht, hrest⟩ := Script.ends_seq.mp hu
      obtain ⟨d', hd'⟩ := ih (d := Function.update d (machine a) t) fun id => by
        by_cases hid : machine a = id
        · rw [← hid, Function.update_self]
          exact ⟨u, hrest⟩
        · obtain ⟨v, hv⟩ := h id
          rw [List.filter_cons_of_neg (by simpa using hid)] at hv
          rw [Function.update_of_ne (Ne.symm hid)]
          exact ⟨v, hv⟩
      exact ⟨d', Script.ends_seq.mpr ⟨_, ends_onDisk.mpr ⟨t, ht, rfl⟩, hd'⟩⟩

/-- A loop whose scripts change nothing. -/
lemma reaches_each_onDisk {α : Type} {l : List α} {machine : α → MachineId} {p : α → Script Tree}
    (hsame : ∀ a ∈ l, ∀ t, (p a).Reaches (d (machine a)) t → t = d (machine a))
    (h : (Script.each l fun a => onDisk (machine a) (p a)).Reaches d d') : d' = d := by
  have hkeep : Script.Spec (fun x : Disks => x = d)
      (Script.each l fun a => onDisk (machine a) (p a)) (fun x => x = d) fun x => x = d := by
    refine Script.Spec.each_keeps fun a ha => ⟨fun hs ht => ?_, fun hs ht => ?_⟩
    · subst hs
      obtain ⟨u, hu, rfl⟩ := reaches_onDisk.mp ht
      rw [hsame a ha u hu, Function.update_eq_self]
    · subst hs
      obtain ⟨u, hu, rfl⟩ := reaches_onDisk.mp ht.reaches
      rw [hsame a ha u hu, Function.update_eq_self]
  exact hkeep.stops rfl h

end Tk8s
