import Tk8s.KubeBroken
import Tk8s.Kubeconfig

/-!
A `~/.kube/config` as `delete cluster` sees it, where it is well formed.

* `viewDoc`, `view`: the document, and the file, as a `Kubeconfig` and a `KubeFile`.
* `serverOf_viewDoc`, `viewDoc_without`: the operations on the document are the ones on its view.
* `kubeconfigPhase_view`: **the phase of `delete cluster` drops the cluster from the view**.
-/

namespace Tk8s

namespace KubeDoc

open Yaml

/-- The name of an entry. -/
def nameOf : Yaml → String
  | .map fields =>
      match lookup "name" fields with
      | some (.str s) => s
      | _ => ""
  | _ => ""

variable (y : Pyyaml)

/-- Where a cluster points. -/
def serverText (e : Yaml) : String :=
  match serverIn y e with
  | .ok t => t
  | .error _ => ""

def viewCluster (e : Yaml) : KubeCluster where
  name := nameOf e
  server := serverText y e
  body := y.dump e

def viewEntry (e : Yaml) : KubeEntry where
  name := nameOf e
  body := y.dump e

def viewDoc (doc : Doc) : Kubeconfig where
  clusters := (entries .clusters doc).map (viewCluster y)
  users := (entries .users doc).map (viewEntry y)
  contexts := (entries .contexts doc).map (viewEntry y)
  current := currentOf doc

/-- The file as the verbs see it. -/
def view : Option String → KubeFile
  | none => .absent
  | some text =>
      match load y text with
      | .ok doc => .config (viewDoc y doc)
      | .error _ => .other

variable {y} {doc : Doc} {name server : String} {e : Yaml}

lemma named_eq (h : TextName e) (want : String) : named want e = decide (nameOf e = want) := by
  obtain ⟨fields, s, rfl, hname⟩ := h
  simp [named, nameOf, hname]

lemma WellFormed.textName (h : WellFormed doc) (s : Section) : ∀ e ∈ entries s doc, TextName e := by
  intro e he
  obtain ⟨fields, name, rfl, hname⟩ := h.names s e he
  exact ⟨fields, name, rfl, hname⟩

/-- What stays of a section stays of its view. -/
lemma map_filter_named {α : Type} {f : Yaml → α} {p : α → Bool} {l : List Yaml} {want : String}
    (hl : ∀ e ∈ l, TextName e) (hp : ∀ e, p (f e) = decide (nameOf e ≠ want)) :
    (l.filter (!named want ·)).map f = (l.map f).filter p := by
  rw [List.filter_map]
  congr 1
  refine List.filter_congr fun e he => ?_
  rw [Function.comp_apply, hp, named_eq (hl e he)]
  simp

/-- `server_of` on the view. -/
lemma serverOf_viewDoc (h : WellFormed doc) :
    serverOf y doc name = .ok ((viewDoc y doc).serverOf name) := by
  have hfind : (entries .clusters doc).find? (named name)
      = (entries .clusters doc).find? fun e => decide (nameOf e = name) := by
    rw [← List.head?_filter, ← List.head?_filter]
    exact congrArg _ (List.filter_congr fun e he => named_eq (h.textName .clusters e he) name)
  rw [serverOf_eq (h.isMap .clusters), hfind, Kubeconfig.serverOf, viewDoc, List.find?_map]
  have hcomp : ((fun e : KubeCluster => decide (e.name = name)) ∘ viewCluster y)
      = fun e => decide (nameOf e = name) := rfl
  rw [hcomp]
  cases hcase : (entries .clusters doc).find? fun e => decide (nameOf e = name) with
  | none => rfl
  | some e =>
      obtain ⟨t, ht⟩ := h.exists_serverIn (y := y) (List.mem_of_find?_eq_some hcase)
      simp only [ht, Option.map_some, viewCluster, serverText]
      rfl

/-- `_without` on the view. -/
lemma viewDoc_without {rest : Doc} (h : WellFormed doc)
    (hentries : ∀ s, entries s rest = (entries s doc).filter (!named (Section.want s name) ·))
    (hcurrent : currentOf rest = if currentOf doc = name then "" else currentOf doc) :
    viewDoc y rest = (viewDoc y doc).without name := by
  have hclusters := map_filter_named (f := viewCluster y) (p := fun e => decide (e.name ≠ name))
    (h.textName .clusters) fun _ => rfl
  have husers := map_filter_named (f := viewEntry y)
    (p := fun e => decide (e.name ≠ name ++ "-admin")) (h.textName .users) fun _ => rfl
  have hcontexts := map_filter_named (f := viewEntry y) (p := fun e => decide (e.name ≠ name))
    (h.textName .contexts) fun _ => rfl
  simp only [viewDoc, Kubeconfig.without, hcurrent, hentries, Section.want, hclusters, husers,
    hcontexts]
  rfl

lemma isEmpty_viewDoc :
    (viewDoc y doc).isEmpty = sections.all fun s => (entries s doc).isEmpty := by
  simp [Kubeconfig.isEmpty, viewDoc, sections, Bool.and_assoc]

section Phase

variable {bak : Option String} {text : String}

lemma view_some (h : load y text = .ok doc) : view y (some text) = .config (viewDoc y doc) := by
  rw [view, h]

lemma has_view (h : load y text = .ok doc) (hwf : WellFormed doc) :
    has y text name server = .ok ((view y (some text)).has name server) := by
  rw [has_eq h, serverOf_viewDoc hwf, view_some h]
  rfl

/-- **The phase of `delete cluster` drops the cluster from the file as the verb sees it.** -/
theorem kubeconfigPhase_view (hload : load y text = .ok doc) (hwf : WellFormed doc)
    (hyaml : ∀ rest, without name doc = .ok rest → y.load (y.dump (.map rest)) = .ok (.map rest)) :
    ∃ left, kubeconfigRun y name (some server) ⟨some text, bak⟩ = .ok left ∧
      kubeconfigDone y name (some server) ⟨some text, bak⟩
        = .ok !(view y (some text)).has name server ∧
      view y left.config = (view y (some text)).drop name server := by
  have hdone : kubeconfigDone y name (some server) ⟨some text, bak⟩
      = .ok !(view y (some text)).has name server := by
    simp only [kubeconfigDone, has_view hload hwf]
  cases hhas : (view y (some text)).has name server with
  | false =>
      have hremove : remove y text name server = .ok (some text) := by
        rw [remove, has_view hload hwf, hhas, Checked.ok_bind]
        rfl
      refine ⟨⟨some text, bak⟩, by simp [kubeconfigRun, hremove], by rw [hdone, hhas], ?_⟩
      rw [view_some hload] at hhas ⊢
      have hnot : (viewDoc y doc).has name server = false := hhas
      simp [KubeFile.drop, Kubeconfig.remove, hnot]
  | true =>
      have hours : (viewDoc y doc).has name server = true := by
        rw [view_some hload] at hhas
        exact hhas
      have hserver : serverOf y doc name = .ok (some server) := by
        rw [serverOf_viewDoc hwf]
        rw [Kubeconfig.has, decide_eq_true_eq] at hours
        rw [hours]
      obtain ⟨rest, hrest, hloaded, hentries, hcurrent⟩ :=
        exists_without name hwf.isMap (loaded_of_load hload)
      have hview : viewDoc y rest = (viewDoc y doc).without name :=
        viewDoc_without hwf hentries hcurrent
      set left := if sections.all fun s => (entries s rest).isEmpty then none
        else some (dump y rest) with hleft
      have hdrop : view y left = (view y (some text)).drop name server := by
        rw [view_some hload]
        simp only [KubeFile.drop, Kubeconfig.remove, hours, if_true, ← hview, isEmpty_viewDoc, hleft]
        by_cases hempty : (sections.all fun s => (entries s rest).isEmpty) = true
        · simp only [hempty, if_true]
          rfl
        · simp only [hempty, if_false, Bool.false_eq_true]
          exact view_some (load_dump hloaded (hyaml rest hrest))
      have hremove : remove y text name server = .ok left := remove_eq hload hserver hrest
      refine ⟨if left = some text then ⟨some text, bak⟩ else ⟨left, some text⟩,
        by simp only [kubeconfigRun, hremove], by rw [hdone, hhas], ?_⟩
      rw [← hdrop]
      split
      next heq => rw [heq]
      next => rfl

end Phase

end KubeDoc

end Tk8s
