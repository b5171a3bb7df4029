import Tk8s.KubeDoc

/-!
Merging a cluster into `~/.kube/config` and taking it out again.

* `Loaded`: a document with its kind and its three sections; `load` gives such a one, and reads one back.
* `named`, `placed`: the entries of a cluster, and a section with its entry in place.
* `mergeDoc_eq`: **what `merge` makes of a document**, or the conflict it refuses.
* `Exact`, `exact_of_wellFormed`: **merge and remove are exact** on the entries of one cluster.
-/

namespace Tk8s

namespace KubeDoc

open Yaml

/-! ### Loaded documents -/

/-- A kubeconfig with its sections lists. -/
structure Loaded (doc : Doc) : Prop where
  kind : lookup "kind" doc = some (.str "Config")
  sections : ∀ s : Section, lookup s.text doc = some (.list (entries s doc))

lemma lookup_setEntries_kind (s : Section) (l : List Yaml) (doc : Doc) :
    lookup "kind" (setEntries s l doc) = lookup "kind" doc :=
  lookup_assign_of_ne (by cases s <;> decide) _ _

lemma lookup_setEntries_self (s : Section) (l : List Yaml) (doc : Doc) :
    lookup s.text (setEntries s l doc) = some (.list l) := lookup_assign_self _ _ _

lemma lookup_setEntries_of_ne {s t : Section} (h : s ≠ t) (l : List Yaml) (doc : Doc) :
    lookup t.text (setEntries s l doc) = lookup t.text doc :=
  lookup_assign_of_ne (fun htext => h (Section.text_inj.mp htext)) _ _

lemma loaded_setEntries {doc : Doc} (h : Loaded doc) (s : Section) (l : List Yaml) :
    Loaded (setEntries s l doc) where
  kind := by rw [lookup_setEntries_kind, h.kind]
  sections t := by
    by_cases hst : s = t
    · rw [← hst, lookup_setEntries_self, entries_setEntries_self]
    · rw [lookup_setEntries_of_ne hst, entries_setEntries_of_ne hst, h.sections]

lemma loaded_setCurrent {doc : Doc} (h : Loaded doc) (name : String) :
    Loaded (setCurrent name doc) where
  kind := by
    rw [setCurrent, lookup_assign_of_ne (by decide), h.kind]
  sections s := by
    rw [setCurrent, lookup_assign_of_ne (s.text_ne_current ·.symm), h.sections]
    rw [← entries_setCurrent s name doc]
    rfl

lemma setEntries_entries {doc : Doc} (h : Loaded doc) (s : Section) :
    setEntries s (entries s doc) doc = doc := assign_of_lookup (h.sections s)

lemma sectionOf_loaded {doc : Doc} (h : Loaded doc) (s : Section) :
    sectionOf s doc = .ok (entries s doc) := by
  rw [sectionOf, h.sections]
  cases hl : entries s doc with
  | nil => rfl
  | cons e rest => rfl

/-- **A loaded document reads as itself.** -/
lemma ofYaml_of_loaded {doc : Doc} (h : Loaded doc) : ofYaml (.map doc) = .ok doc := by
  have hround : ∀ s, loadSection doc s = .ok doc := by
    intro s
    rw [loadSection, sectionOf_loaded h, Checked.ok_bind, setEntries_entries h]
    rfl
  simp only [ofYaml, h.kind, sections, List.foldlM_cons, List.foldlM_nil, hround, Checked.ok_bind]
  rfl

lemma loaded_of_ofYaml {t : Yaml} {doc : Doc} (h : ofYaml t = .ok doc) : Loaded doc := by
  cases t with
  | map doc₀ =>
      rw [ofYaml] at h
      cases hkind : lookup "kind" doc₀ with
      | none => simp [hkind] at h
      | some v =>
          cases v with
          | str kind =>
              simp only [hkind, sections, List.foldlM_cons, List.foldlM_nil, loadSection,
                Checked.bind_eq_ok, Checked.refuseIf_eq_ok, Checked.pure_eq_ok, not_not, ne_eq] at h
              obtain ⟨-, hconfig, -, ⟨l, -, rfl⟩, -, ⟨l', -, rfl⟩, -, ⟨l'', -, rfl⟩, rfl⟩ := h
              refine ⟨?_, fun s => ?_⟩
              · simp only [lookup_setEntries_kind, hkind, hconfig]
              · cases s with
                | clusters =>
                    simp [lookup_setEntries_of_ne, lookup_setEntries_self]
                | users => simp [lookup_setEntries_of_ne, lookup_setEntries_self]
                | contexts => simp [lookup_setEntries_self]
          | _ => simp [hkind] at h
  | _ => simp [ofYaml] at h

variable {y : Pyyaml}

/-- A text that was dumped from a loaded document, when YAML gives it back. -/
lemma load_dump {doc : Doc} (h : Loaded doc) (hyaml : y.load (y.dump (.map doc)) = .ok (.map doc)) :
    load y (dump y doc) = .ok doc := by
  rw [load, dump, hyaml]
  exact ofYaml_of_loaded h

lemma loaded_of_load {text : String} {doc : Doc} (h : load y text = .ok doc) : Loaded doc := by
  rw [load] at h
  cases ht : y.load text with
  | error m => simp [ht] at h
  | ok t =>
      rw [ht] at h
      exact loaded_of_ofYaml h

lemma loaded_empty : Loaded empty where
  kind := by rfl
  sections s := by cases s <;> rfl

lemma loaded_of_loadExisting {existing : Option String} {doc : Doc}
    (h : loadExisting y existing = .ok doc) : Loaded doc := by
  cases existing with
  | none => exact Except.ok.inj h ▸ loaded_empty
  | some text =>
      rw [loadExisting] at h
      split at h
      · exact Except.ok.inj h ▸ loaded_empty
      · exact loaded_of_load h

/-! ### The entries of a cluster -/

def IsMap (e : Yaml) : Prop := ∃ fields, e = .map fields

/-- The entry carries this name. -/
def named (want : String) : Yaml → Bool
  | .map fields =>
      match lookup "name" fields with
      | some (.str s) => s = want
      | _ => false
  | _ => false

lemma isMap_of_named {want : String} {e : Yaml} (h : named want e = true) : IsMap e := by
  cases e with
  | map fields => exact ⟨fields, rfl⟩
  | _ => simp [named] at h

lemma isNamed_eq {want : String} {e : Yaml} (h : IsMap e) : isNamed want e = .ok (named want e) := by
  obtain ⟨fields, rfl⟩ := h
  simp only [isNamed, get, named, Checked.ok_bind]
  rfl

variable {want : String} {l : List Yaml}

lemma select_eq (keep : Bool) (hl : ∀ e ∈ l, IsMap e) :
    select keep want l = .ok (l.filter fun e => named want e = keep) := by
  induction l with
  | nil => rfl
  | cons e rest ih =>
      obtain ⟨he, hrest⟩ := List.forall_mem_cons.mp hl
      rw [select, isNamed_eq he, Checked.ok_bind, ih hrest, Checked.ok_bind]
      by_cases h : named want e = keep
      · simp [h]
      · simp [h]

lemma anyNamed_eq (hl : ∀ e ∈ l, IsMap e) : anyNamed want l = .ok (l.any (named want)) := by
  induction l with
  | nil => rfl
  | cons e rest ih =>
      obtain ⟨he, hrest⟩ := List.forall_mem_cons.mp hl
      rw [anyNamed, isNamed_eq he, Checked.ok_bind, List.any_cons]
      cases named want e with
      | true => rfl
      | false => simp only [Bool.false_eq_true, if_false, Bool.false_or]; exact ih hrest

/-- A section with the cluster's entry in the first place that carries its name, or behind. -/
def placed (want : String) (x : Yaml) : List Yaml → List Yaml
  | [] => [x]
  | e :: rest =>
      if named want e then x :: rest.filter (!named want ·) else e :: placed want x rest

@[simp] lemma placed_nil (x : Yaml) : placed want x [] = [x] := rfl

lemma placed_cons (x e : Yaml) (rest : List Yaml) : placed want x (e :: rest) =
    if named want e then x :: rest.filter (!named want ·) else e :: placed want x rest := rfl

lemma placed_of_not_any {x : Yaml} (h : ∀ e ∈ l, named want e = false) :
    placed want x l = l ++ [x] := by
  induction l with
  | nil => rfl
  | cons e rest ih =>
      obtain ⟨he, hrest⟩ := List.forall_mem_cons.mp h
      simp [placed_cons, he, ih hrest]

lemma placed_append {x e : Yaml} {pre post : List Yaml} (hpre : ∀ d ∈ pre, named want d = false)
    (he : named want e = true) :
    placed want x (pre ++ e :: post) = pre ++ x :: post.filter (!named want ·) := by
  induction pre with
  | nil => simp [placed_cons, he]
  | cons d rest ih =>
      obtain ⟨hd, hrest⟩ := List.forall_mem_cons.mp hpre
      simp [placed_cons, hd, ih hrest]

/-- **Everybody else's entries stay**, in their order. -/
lemma filter_placed {x : Yaml} (hx : named want x = true) :
    (placed want x l).filter (!named want ·) = l.filter (!named want ·) := by
  induction l with
  | nil => simp [hx]
  | cons e rest ih =>
      rw [placed_cons]
      cases he : named want e with
      | true => simp [he, hx]
      | false => simp [he, ih]

lemma mem_placed {x e : Yaml} (hx : named want x = true) (he : named want e = false) :
    e ∈ placed want x l ↔ e ∈ l := by
  have hsame : e ∈ (placed want x l).filter (!named want ·) ↔ e ∈ l.filter (!named want ·) := by
    rw [filter_placed hx]
  simpa [List.mem_filter, he] using hsame

/-- **The cluster has one entry.** -/
lemma filter_named_placed {x : Yaml} (hx : named want x = true) :
    (placed want x l).filter (named want) = [x] := by
  induction l with
  | nil => simp [hx]
  | cons e rest ih =>
      rw [placed_cons]
      cases he : named want e with
      | true => simp [hx]
      | false => simp [he, ih]

lemma placed_placed {x : Yaml} (hx : named want x = true) :
    placed want x (placed want x l) = placed want x l := by
  induction l with
  | nil => simp [placed_cons, hx]
  | cons e rest ih =>
      cases he : named want e with
      | true => simp [placed_cons, he, hx]
      | false => simp [placed_cons, he, ih]

lemma find?_placed {x : Yaml} (hx : named want x = true) :
    (placed want x l).find? (named want) = some x := by
  induction l with
  | nil => simp [hx]
  | cons e rest ih =>
      cases he : named want e with
      | true => simp [placed_cons, he, hx]
      | false => simp [placed_cons, he, ih]

lemma isMap_placed {x : Yaml} (hx : IsMap x) (hl : ∀ e ∈ l, IsMap e) :
    ∀ e ∈ placed want x l, IsMap e := by
  induction l with
  | nil => simpa using hx
  | cons e rest ih =>
      obtain ⟨he, hrest⟩ := List.forall_mem_cons.mp hl
      rw [placed_cons]
      split
      · exact List.forall_mem_cons.mpr ⟨hx, fun d hd => hrest d (List.mem_of_mem_filter hd)⟩
      · exact List.forall_mem_cons.mpr ⟨he, ih hrest⟩

lemma slotsFrom_of_not_any {i : ℕ} (hl : ∀ e ∈ l, IsMap e) (h : ∀ e ∈ l, named want e = false) :
    slotsFrom want i l = .ok [] := by
  induction l generalizing i with
  | nil => rfl
  | cons e rest ih =>
      obtain ⟨he, hrest⟩ := List.forall_mem_cons.mp hl
      obtain ⟨hn, hrest'⟩ := List.forall_mem_cons.mp h
      rw [slotsFrom, isNamed_eq he, Checked.ok_bind, ih hrest hrest', Checked.ok_bind, hn]
      rfl

lemma exists_slotsFrom (want : String) (i : ℕ) (hl : ∀ e ∈ l, IsMap e) :
    ∃ slots, slotsFrom want i l = .ok slots := by
  induction l generalizing i with
  | nil => exact ⟨[], rfl⟩
  | cons e rest ih =>
      obtain ⟨he, hrest⟩ := List.forall_mem_cons.mp hl
      obtain ⟨slots, hslots⟩ := ih (i + 1) hrest
      rw [slotsFrom, isNamed_eq he, Checked.ok_bind, hslots, Checked.ok_bind]
      exact ⟨_, rfl⟩

lemma slotsFrom_append {i : ℕ} {e : Yaml} {pre post : List Yaml}
    (hl : ∀ d ∈ pre ++ e :: post, IsMap d) (hpre : ∀ d ∈ pre, named want d = false)
    (he : named want e = true) :
    ∃ tail, slotsFrom want i (pre ++ e :: post) = .ok ((i + pre.length) :: tail) := by
  induction pre generalizing i with
  | nil =>
      obtain ⟨hmap, hpost⟩ := List.forall_mem_cons.mp hl
      obtain ⟨tail, htail⟩ := exists_slotsFrom want (i + 1) hpost
      refine ⟨tail, ?_⟩
      rw [List.nil_append, slotsFrom, isNamed_eq hmap, Checked.ok_bind, htail, Checked.ok_bind, he]
      rfl
  | cons d rest ih =>
      obtain ⟨hmap, hrest⟩ := List.forall_mem_cons.mp hl
      obtain ⟨hd, hpre'⟩ := List.forall_mem_cons.mp hpre
      obtain ⟨tail, htail⟩ := ih (i := i + 1) hrest hpre'
      refine ⟨tail, ?_⟩
      rw [List.cons_append, slotsFrom, isNamed_eq hmap, Checked.ok_bind, htail, Checked.ok_bind, hd,
        List.length_cons, show i + 1 + rest.length = i + (rest.length + 1) by omega]
      rfl

/-- **One section after the loop of `merge`.** -/
lemma mergeEntries_eq {x : Yaml} (hl : ∀ e ∈ l, IsMap e) :
    mergeEntries want [x] l = .ok (placed want x l) := by
  cases hfind : l.find? (named want) with
  | none =>
      have hnone : ∀ e ∈ l, named want e = false := by
        intro e he
        simpa using List.find?_eq_none.mp hfind e he
      rw [mergeEntries, slotsFrom_of_not_any hl hnone, placed_of_not_any hnone]
      rfl
  | some e =>
      obtain ⟨he, pre, post, rfl, hpre⟩ := List.find?_eq_some_iff_append.mp hfind
      have hpre' : ∀ d ∈ pre, named want d = false := fun d hd => by simpa using hpre d hd
      obtain ⟨tail, htail⟩ := slotsFrom_append (i := 0) hl hpre' he
      have hpost : ∀ d ∈ post, IsMap d := fun d hd => hl d (by simp [hd])
      have hl' : (pre ++ e :: post).drop (pre.length + 1) = post := by simp
      have hdrop : (pre ++ [x] ++ post).drop (pre.length + 1) = post := by simp
      have htake : (pre ++ [x] ++ post).take (pre.length + 1) = pre ++ [x] :=
        List.take_left' (by simp)
      simp only [mergeEntries, htail, Checked.ok_bind, Nat.zero_add, List.take_left, hl', hdrop, htake,
        select_eq false hpost, placed_append hpre' he, Bool.decide_eq_false]
      simp

lemma serverFrom_eq {name : String} (hl : ∀ e ∈ l, IsMap e) :
    serverFrom y name l = match l.find? (named name) with
      | none => .ok none
      | some e => some <$> serverIn y e := by
  induction l with
  | nil => rfl
  | cons e rest ih =>
      obtain ⟨he, hrest⟩ := List.forall_mem_cons.mp hl
      rw [serverFrom, isNamed_eq he, Checked.ok_bind, List.find?_cons]
      cases named name e with
      | true =>
          simp only [↓reduceIte]
          cases serverIn y e <;> rfl
      | false => simpa using ih hrest

/-! ### `merge` on a well-formed document -/

/-- The entries are named mappings, and so is what a cluster holds. -/
structure WellFormed (doc : Doc) : Prop where
  names : ∀ s, ∀ e ∈ entries s doc,
    ∃ fields name, e = .map fields ∧ lookup "name" fields = some (.str name)
  bodies : ∀ fields, .map fields ∈ entries .clusters doc →
    ∀ body, lookup "cluster" fields = some body → IsMap body

variable {doc : Doc} {name server : String} {x : Section → Yaml}

lemma WellFormed.isMap (h : WellFormed doc) (s : Section) : ∀ e ∈ entries s doc, IsMap e := by
  intro e he
  obtain ⟨fields, -, rfl, -⟩ := h.names s e he
  exact ⟨fields, rfl⟩

lemma WellFormed.exists_serverIn (h : WellFormed doc) {e : Yaml} (he : e ∈ entries .clusters doc) :
    ∃ t, serverIn y e = .ok t := by
  obtain ⟨fields, rfl⟩ := h.isMap .clusters e he
  cases hbody : lookup "cluster" fields with
  | none => exact ⟨y.str (.str ""), by simp only [serverIn, get, hbody]; rfl⟩
  | some body =>
      obtain ⟨inner, rfl⟩ := h.bodies fields he body hbody
      exact ⟨_, by simp only [serverIn, get, hbody]; rfl⟩

lemma serverOf_eq (h : ∀ e ∈ entries .clusters doc, IsMap e) :
    serverOf y doc name = match (entries .clusters doc).find? (named name) with
      | none => .ok none
      | some e => some <$> serverIn y e := serverFrom_eq h

/-- The entries of the cluster at a server. -/
structure Ours (y : Pyyaml) (name server : String) (x : Section → Yaml) : Prop where
  named : ∀ s : Section, named (s.want name) (x s) = true
  server : serverIn y (x .clusters) = .ok server

/-- The document with a cluster's entries in place and its context the current one. -/
def mergedDoc (name : String) (x : Section → Yaml) (doc : Doc) : Doc :=
  setCurrent name <| sections.foldl
    (fun doc s => setEntries s (placed (s.want name) (x s) (entries s doc)) doc) doc

@[simp] lemma entries_mergedDoc (s : Section) :
    entries s (mergedDoc name x doc) = placed (s.want name) (x s) (entries s doc) := by
  cases s <;> simp [mergedDoc, sections]

lemma loaded_mergedDoc (h : Loaded doc) : Loaded (mergedDoc name x doc) :=
  loaded_setCurrent (loaded_setEntries (loaded_setEntries (loaded_setEntries h _ _) _ _) _ _) _

lemma current_mergedDoc :
    lookup "current-context" (mergedDoc name x doc) = some (.str name) := lookup_assign_self _ _ _

lemma lookup_setEntries_of_ne_text {key : String} {s : Section} (h : s.text ≠ key) (l : List Yaml)
    (doc : Doc) : lookup key (setEntries s l doc) = lookup key doc := lookup_assign_of_ne h _ _

lemma lookup_mergedDoc {key : String} (hkey : ∀ s : Section, s.text ≠ key)
    (hcurrent : "current-context" ≠ key) :
    lookup key (mergedDoc name x doc) = lookup key doc := by
  simp only [mergedDoc, sections, setCurrent, List.foldl_cons, List.foldl_nil,
    lookup_assign_of_ne hcurrent, lookup_setEntries_of_ne_text (hkey _)]

lemma setCurrent_of_lookup (h : lookup "current-context" doc = some (.str name)) :
    setCurrent name doc = doc := assign_of_lookup h

lemma mergedDoc_again (hx : ∀ s : Section, named (s.want name) (x s) = true) (h : Loaded doc) :
    mergedDoc name x (mergedDoc name x doc) = mergedDoc name x doc := by
  have hround : ∀ s : Section, setEntries s (placed (s.want name) (x s)
      (entries s (mergedDoc name x doc))) (mergedDoc name x doc) = mergedDoc name x doc := by
    intro s
    have hentries : placed (s.want name) (x s) (entries s (mergedDoc name x doc))
        = entries s (mergedDoc name x doc) := by
      rw [entries_mergedDoc, placed_placed (hx s)]
    rw [hentries, setEntries_entries (loaded_mergedDoc h)]
  rw [mergedDoc.eq_1 name x (mergedDoc name x doc)]
  simp only [sections, List.foldl_cons, List.foldl_nil, hround]
  exact setCurrent_of_lookup current_mergedDoc

/-- The first cluster of the name is at another server, or there is none and a context or a user
has a name of it. -/
def Conflict (y : Pyyaml) (name server : String) (doc : Doc) : Prop :=
  match (entries .clusters doc).find? (named name) with
  | some e => ∃ t, serverIn y e = .ok t ∧ t ≠ server
  | none => ∃ s, ∃ e ∈ entries s doc, named (s.want name) e = true

/-- A document that holds the entries of the cluster and no others. -/
structure OnlyOurs (y : Pyyaml) (name server : String) (new : Doc) (x : Section → Yaml) : Prop
    extends Ours y name server x where
  entries : ∀ s, entries s new = [x s]

lemma serverOf_onlyOurs {new : Doc} (h : OnlyOurs y name server new x) :
    serverOf y new name = .ok (some server) := by
  have hmap : ∀ e ∈ entries .clusters new, IsMap e := by
    intro e he
    rw [h.entries, List.mem_singleton] at he
    exact he ▸ isMap_of_named (h.named .clusters)
  have hnamed : named name (x .clusters) = true := h.named .clusters
  rw [serverOf_eq hmap, h.entries, List.find?_cons, hnamed]
  simp only [h.server]
  rfl

/-- **One round of the loop of `merge`.** -/
lemma mergeSection_eq {new : Doc} (h : OnlyOurs y name server new x) {s : Section}
    (hl : ∀ e ∈ entries s doc, IsMap e) :
    mergeSection new name doc s
      = .ok (setEntries s (placed (s.want name) (x s) (entries s doc)) doc) := by
  have hmap : ∀ e ∈ entries s new, IsMap e := by
    intro e he
    rw [h.entries, List.mem_singleton] at he
    exact he ▸ isMap_of_named (h.named s)
  have hfresh : select true (s.want name) (entries s new) = .ok [x s] := by
    rw [select_eq true hmap, h.entries]
    simp [h.named s]
  rw [mergeSection, hfresh, Checked.ok_bind, mergeEntries_eq hl, Checked.ok_bind]
  rfl

lemma mergeSections_eq {new : Doc} (h : OnlyOurs y name server new x)
    (hl : ∀ s, ∀ e ∈ entries s doc, IsMap e) :
    sections.foldlM (mergeSection new name) doc = .ok (sections.foldl
      (fun doc s => setEntries s (placed (s.want name) (x s) (entries s doc)) doc) doc) := by
  simp only [sections, List.foldlM_cons, List.foldlM_nil, List.foldl_cons, List.foldl_nil]
  rw [mergeSection_eq h (hl .clusters), Checked.ok_bind,
    mergeSection_eq h (by simpa using hl .users), Checked.ok_bind,
    mergeSection_eq h (by simpa using hl .contexts), Checked.ok_bind]
  rfl

lemma checkForeign_eq {s : Section} {label : String} (hl : ∀ e ∈ entries s doc, IsMap e) :
    checkForeign name doc s label = Checked.refuseIf
      ((entries s doc).any (named (s.want name)) = true) (.valueError
        s!"already has a {label} named {s.want name} that is not this cluster's; move that entry out of the way") := by
  rw [checkForeign, anyNamed_eq hl]
  rfl

/-- **What `merge` makes of a document** without a conflict. -/
lemma mergeDoc_eq {new : Doc} (h : OnlyOurs y name server new x)
    (hl : ∀ s, ∀ e ∈ entries s doc, IsMap e)
    (hserver : ∀ e, (entries .clusters doc).find? (named name) = some e →
      ∃ t, serverIn y e = .ok t)
    (hfree : ¬ Conflict y name server doc) : mergeDoc y doc new name = .ok (mergedDoc name x doc) := by
  rw [mergeDoc, Section.want, serverOf_onlyOurs h, Checked.ok_bind, serverOf_eq (hl .clusters)]
  rw [Conflict] at hfree
  cases hfind : (entries .clusters doc).find? (named name) with
  | some e =>
      obtain ⟨t, ht⟩ := hserver e hfind
      simp only [hfind, ht, not_exists, not_and, not_not] at hfree
      have htheirs : t = server := hfree t rfl
      simp only [ht, htheirs, Functor.map, Except.map, Checked.ok_bind, Checked.refuseIf, ne_eq,
        not_true_eq_false, if_false, mergeSections_eq h hl]
      rfl
  | none =>
      simp only [hfind, not_exists, not_and] at hfree
      have hnone : ∀ s, (entries s doc).any (named (s.want name)) = false := by
        intro s
        rw [List.any_eq_false]
        exact hfree s
      simp only [Checked.ok_bind, checkForeign_eq (hl _), hnone, mergeSections_eq h hl]
      rfl

/-- **A conflict is refused.** -/
lemma mergeDoc_conflict {new : Doc} (h : OnlyOurs y name server new x)
    (hl : ∀ s, ∀ e ∈ entries s doc, IsMap e) (hconflict : Conflict y name server doc) :
    ∃ why, mergeDoc y doc new name = .error (.valueError why) := by
  rw [mergeDoc, Section.want, serverOf_onlyOurs h, Checked.ok_bind, serverOf_eq (hl .clusters)]
  rw [Conflict] at hconflict
  cases hfind : (entries .clusters doc).find? (named name) with
  | some e =>
      simp only [hfind] at hconflict
      obtain ⟨t, ht, hne⟩ := hconflict
      have hother : some t ≠ some server := fun h => hne (Option.some_inj.mp h)
      simp only [ht, Functor.map, Except.map, Checked.ok_bind, Checked.refuseIf, if_pos hother]
      exact ⟨_, rfl⟩
  | none =>
      simp only [hfind] at hconflict
      obtain ⟨s, e, he, hnamed⟩ := hconflict
      have htaken : (entries s doc).any (named (s.want name)) = true :=
        List.any_eq_true.mpr ⟨e, he, hnamed⟩
      simp only [Checked.ok_bind, checkForeign_eq (hl _)]
      cases s with
      | clusters =>
          exact absurd hnamed (List.find?_eq_none.mp hfind e he)
      | contexts =>
          simp only [htaken, Checked.refuseIf, ↓reduceIte]
          exact ⟨_, rfl⟩
      | users =>
          by_cases hcontexts : (entries .contexts doc).any (named (Section.contexts.want name)) = true
          · simp only [hcontexts, Checked.refuseIf, ↓reduceIte]
            exact ⟨_, rfl⟩
          · simp only [hcontexts, htaken, Checked.refuseIf, ↓reduceIte, Bool.false_eq_true]
            exact ⟨_, rfl⟩

/-! ### `rename` -/

/-- What `rename` leaves: the entries of the cluster, its context the current one. -/
structure Renamed (y : Pyyaml) (name server : String) (new : Doc) : Prop where
  loaded : Loaded new
  again : renameDoc name server new = .ok new
  ours : ∃ x, OnlyOurs y name server new x

lemma getItem_eq_ok {key : String} {e v : Yaml} :
    getItem key e = .ok v ↔ ∃ fields, e = .map fields ∧ lookup key fields = some v := by
  cases e <;> simp [getItem]

lemma setItem_eq_ok {key : String} {e v r : Yaml} :
    setItem key v e = .ok r ↔ ∃ fields, e = .map fields ∧ .map (assign key v fields) = r := by
  cases e <;> simp [setItem]

lemma named_assign (want : String) (fields : List (Yaml × Yaml)) :
    named want (.map (assign "name" (.str want) fields)) = true := by
  simp [named]

/-- A cluster's entry, its name and its server set. -/
def clusterEntry (name server : String) (fields body : List (Yaml × Yaml)) : Yaml :=
  .map (assign "cluster" (.map (assign "server" (.str server) body))
    (assign "name" (.str name) fields))

def contextEntry (name : String) : Yaml :=
  record [
    ("context", some (record [("cluster", some (.str (Section.clusters.want name))),
      ("user", some (.str (Section.users.want name)))])),
    ("name", some (.str (Section.contexts.want name)))]

/-- The document `rename` makes of the three entries. -/
def renamedDoc (name server : String) (c body u : List (Yaml × Yaml)) (doc : Doc) : Doc :=
  setCurrent name <| setEntries .contexts [contextEntry name] <|
    setEntries .users [.map (assign "name" (.str (Section.users.want name)) u)] <|
      setEntries .clusters [clusterEntry name server c body] doc

/-- Its entries, section by section. -/
def renamedEntry (name server : String) (c body u : List (Yaml × Yaml)) : Section → Yaml
  | .clusters => clusterEntry name server c body
  | .users => .map (assign "name" (.str (Section.users.want name)) u)
  | .contexts => contextEntry name

lemma renameDoc_eq_ok {new : Doc} :
    renameDoc name server doc = .ok new ↔ ∃ c body u ctx, entries .clusters doc = [.map c] ∧
      entries .users doc = [.map u] ∧ entries .contexts doc = [ctx] ∧
      lookup "cluster" (assign "name" (.str name) c) = some (.map body) ∧
      renamedDoc name server c body u doc = new := by
  rw [renameDoc]
  split
  next c u ctx hclusters husers hcontexts =>
    simp only [Checked.bind_eq_ok, getItem_eq_ok, setItem_eq_ok, Checked.pure_eq_ok, hclusters,
      husers, hcontexts]
    constructor
    · rintro ⟨_, ⟨c, rfl, rfl⟩, _, ⟨_, hc, hbody⟩, _, ⟨body, rfl, rfl⟩, _, ⟨_, hc', rfl⟩, _,
        ⟨u, rfl, rfl⟩, rfl⟩
      obtain rfl := Yaml.map.inj hc
      obtain rfl := Yaml.map.inj hc'
      exact ⟨c, body, u, ctx, rfl, rfl, rfl, hbody, rfl⟩
    · rintro ⟨c, body, u, ctx', hc, hu, -, hbody, rfl⟩
      obtain rfl := List.head_eq_of_cons_eq hc
      obtain rfl := List.head_eq_of_cons_eq hu
      exact ⟨_, ⟨c, rfl, rfl⟩, _, ⟨_, rfl, hbody⟩, _, ⟨body, rfl, rfl⟩, _, ⟨_, rfl, rfl⟩, _,
        ⟨u, rfl, rfl⟩, rfl⟩
  next hshape =>
    simp only [reduceCtorEq, false_iff]
    rintro ⟨c, body, u, ctx, hc, hu, hctx, -⟩
    exact hshape _ _ _ hc hu hctx

lemma renamedDoc_again {c body u : List (Yaml × Yaml)} (h : Loaded doc) :
    renameDoc name server (renamedDoc name server c body u doc)
      = .ok (renamedDoc name server c body u doc) := by
  set new := renamedDoc name server c body u doc with hnew
  have hloaded : Loaded new := loaded_setCurrent (loaded_setEntries
    (loaded_setEntries (loaded_setEntries h _ _) _ _) _ _) _
  have hclusters : entries .clusters new = [clusterEntry name server c body] := by
    simp [hnew, renamedDoc]
  have husers : entries .users new
      = [.map (assign "name" (.str (Section.users.want name)) u)] := by
    simp [hnew, renamedDoc]
  have hcontexts : entries .contexts new = [contextEntry name] := by simp [hnew, renamedDoc]
  have hname : assign "name" (.str name) (assign "cluster" (.map (assign "server" (.str server) body))
      (assign "name" (.str name) c)) = assign "cluster" (.map (assign "server" (.str server) body))
      (assign "name" (.str name) c) :=
    assign_of_lookup (by rw [lookup_assign_of_ne (by decide), lookup_assign_self])
  refine renameDoc_eq_ok.mpr ⟨_, _, _, _, hclusters, husers, hcontexts,
    by rw [hname, lookup_assign_self], ?_⟩
  have hentry : clusterEntry name server (assign "cluster" (.map (assign "server" (.str server) body))
      (assign "name" (.str name) c)) (assign "server" (.str server) body)
      = clusterEntry name server c body := by
    rw [clusterEntry, hname, assign_of_lookup (lookup_assign_self "server" _ _),
      assign_of_lookup (lookup_assign_self "cluster" _ _), clusterEntry]
  rw [renamedDoc, hentry, assign_of_lookup (lookup_assign_self "name" _ _), ← hclusters,
    setEntries_entries hloaded, ← husers, setEntries_entries hloaded, ← hcontexts,
    setEntries_entries hloaded]
  exact setCurrent_of_lookup (lookup_assign_self _ _ _)

/-- **`rename` is its own second round**, and its document holds the cluster's entries. -/
lemma renamed_of_renameDoc (hstr : ∀ s, y.str (.str s) = s) {new : Doc} (hloaded : Loaded doc)
    (h : renameDoc name server doc = .ok new) : Renamed y name server new := by
  obtain ⟨c, body, u, ctx, -, -, -, -, rfl⟩ := renameDoc_eq_ok.mp h
  refine ⟨loaded_setCurrent (loaded_setEntries (loaded_setEntries
    (loaded_setEntries hloaded _ _) _ _) _ _) _, renamedDoc_again hloaded,
    renamedEntry name server c body u, ⟨⟨fun s => ?_, ?_⟩, fun s => ?_⟩⟩
  · cases s with
    | clusters =>
        simp [renamedEntry, named, clusterEntry, Section.want, lookup_assign_of_ne]
    | users => exact named_assign _ _
    | contexts => simp [renamedEntry, named, contextEntry, record, entriesOf, lookup]
  · simp [renamedEntry, serverIn, clusterEntry, get, hstr]
  · cases s <;> simp [renamedEntry, renamedDoc]

/-! ### `_without` -/

/-- `current-context`, when it is a text. -/
def currentOf (doc : Doc) : String :=
  match lookup "current-context" doc with
  | some (.str current) => current
  | _ => ""

/-- The sections without the cluster's entries. -/
lemma exists_without (name : String) (hl : ∀ s, ∀ e ∈ entries s doc, IsMap e) (hloaded : Loaded doc) :
    ∃ rest, without name doc = .ok rest ∧ Loaded rest ∧
      (∀ s, entries s rest = (entries s doc).filter (!named (s.want name) ·)) ∧
        currentOf rest = if currentOf doc = name then "" else currentOf doc := by
  set bare := setEntries .contexts ((entries .contexts doc).filter (!named name ·)) <|
    setEntries .users ((entries .users doc).filter (!named (Section.users.want name) ·)) <|
      setEntries .clusters ((entries .clusters doc).filter (!named name ·)) doc with hbare
  have hround : ∀ doc' s, (∀ e ∈ entries s doc', IsMap e) →
      (do
        let l ← select false (s.want name) (entries s doc')
        return setEntries s l doc' : Except Raised Doc)
      = .ok (setEntries s ((entries s doc').filter (!named (s.want name) ·)) doc') := by
    intro doc' s hmap
    rw [select_eq false hmap, Checked.ok_bind]
    simp only [Bool.decide_eq_false]
    rfl
  have hloop : sections.foldlM (fun doc s => do
      let l ← select false (s.want name) (entries s doc)
      return setEntries s l doc) doc = .ok bare := by
    simp only [sections, List.foldlM_cons, List.foldlM_nil]
    rw [hround _ _ (hl .clusters), Checked.ok_bind, hround _ _ (by simpa using hl .users),
      Checked.ok_bind, hround _ _ (by simpa using hl .contexts), Checked.ok_bind]
    simp only [ne_eq, reduceCtorEq, not_false_eq_true, entries_setEntries_of_ne]
    rfl
  have hbareloaded : Loaded bare :=
    loaded_setEntries (loaded_setEntries (loaded_setEntries hloaded _ _) _ _) _ _
  have hentries : ∀ s, entries s bare = (entries s doc).filter (!named (s.want name) ·) := by
    intro s
    cases s <;> simp [hbare, Section.want]
  have hcurrent : lookup "current-context" bare = lookup "current-context" doc := by
    simp only [hbare, lookup_setEntries_of_ne_text (Section.text_ne_current _)]
  rw [without, hloop, Checked.ok_bind, hcurrent]
  split
  next current hdoc =>
    have hof : currentOf doc = current := by rw [currentOf, hdoc]
    by_cases hours : current = name
    · refine ⟨setCurrent "" bare, ?_, loaded_setCurrent hbareloaded _,
        fun s => by rw [entries_setCurrent, hentries], ?_⟩
      · rw [Section.want, if_pos hours]
        rfl
      · rw [hof, if_pos hours, currentOf, setCurrent, lookup_assign_self]
    · refine ⟨bare, ?_, hbareloaded, hentries, ?_⟩
      · rw [Section.want, if_neg hours]
        rfl
      · rw [hof, if_neg hours, ← hof, currentOf, hcurrent, currentOf]
  next hother =>
    refine ⟨bare, rfl, hbareloaded, hentries, ?_⟩
    have hnone : currentOf doc = "" := by
      rw [currentOf]
      split
      next current hdoc => exact absurd hdoc (hother current)
      next => rfl
    have hbarenone : currentOf bare = "" := by
      rw [← hnone, currentOf, hcurrent, currentOf]
    rw [hbarenone, hnone, ite_self]

/-! ### Merge and remove -/

/-- The documents written while a cluster's entries are made, merged and taken out. -/
inductive Dumped (y : Pyyaml) (existing : Option String) (admin name server : String) : Doc → Prop
  | renamed {doc new : Doc} (hload : load y admin = .ok doc)
      (hnew : renameDoc name server doc = .ok new) : Dumped y existing admin name server new
  | merged {text : String} {doc new merged : Doc} (htext : rename y admin name server = .ok text)
      (hload : loadExisting y existing = .ok doc) (hnew : load y text = .ok new)
      (hmerged : mergeDoc y doc new name = .ok merged) : Dumped y existing admin name server merged
  | removed {text file : String} {doc rest : Doc} (htext : rename y admin name server = .ok text)
      (hfile : merge y existing text name = .ok file) (hload : load y file = .ok doc)
      (hrest : without name doc = .ok rest) : Dumped y existing admin name server rest

/-- A file with the entries of the cluster's file `N` in the sections of document `E`. -/
structure Placement (y : Pyyaml) (name N : String) (E : Doc) (file : String) (doc : Doc) : Prop where
  load : load y file = .ok doc
  others : ∀ s, (entries s doc).filter (!named (Section.want s name) ·)
    = (entries s E).filter (!named (s.want name) ·)
  one : ∃ new, KubeDoc.load y N = .ok new ∧ ∀ s, ∃ e, entries s new = [e] ∧
    (entries s doc).filter (named (Section.want s name)) = [e]
  current : lookup "current-context" doc = some (.str name)
  rest : ∀ key, (∀ s : Section, s.text ≠ key) → "current-context" ≠ key →
    lookup key doc = lookup key E

/-- A file merged out of document `E` and the cluster's file `N`. -/
structure Merged (y : Pyyaml) (name server N : String) (E : Doc) (file : String) (doc : Doc) :
    Prop extends Placement y name N E file doc where
  again : merge y (some file) N name = .ok file
  has : has y file name server = .ok true
  removed : (∀ s, ∀ e ∈ entries s E, named (Section.want s name) e = false) →
    ((∀ s, entries s E = []) ∧ remove y file name server = .ok none) ∨
      ((∃ s, entries s E ≠ []) ∧ ∃ left rest, remove y file name server = .ok (some left) ∧
        KubeDoc.load y left = .ok rest ∧ ∀ s, entries s rest = entries s E)

/-- Merge, remove and rename of the cluster's file `N` against the file with document `E`. -/
structure Exact (y : Pyyaml) (existing : Option String) (name server N : String) (E : Doc) :
    Prop where
  refused : Conflict y name server E → ∃ why, merge y existing N name = .error (.valueError why)
  merged : ¬ Conflict y name server E → ∃ file doc, merge y existing N name = .ok file ∧
    Merged y name server N E file doc
  elsewhere : ∀ text doc t, load y text = .ok doc → serverOf y doc name = .ok (some t) →
    t ≠ server → remove y text name server = .ok (some text)
  renamed : rename y N name server = .ok N

variable {existing : Option String} {admin N : String} {E : Doc}

lemma remove_elsewhere {text t : String} (hload : load y text = .ok doc)
    (hserver : serverOf y doc name = .ok (some t)) (hne : t ≠ server) :
    remove y text name server = .ok (some text) := by
  have hother : ¬ some t = some server := fun h => hne (Option.some_inj.mp h)
  simp only [remove, has, hload, Section.want, hserver, Checked.ok_bind, hother]
  rfl

section Written

variable {new : Doc}

/-- The file after a merge, once it is loaded again. -/
lemma loadExisting_of_load {file : String} (hempty : y.load "" = .ok .null)
    (h : load y file = .ok doc) : loadExisting y (some file) = .ok doc := by
  have hfile : file ≠ "" := by
    rintro rfl
    rw [load, hempty] at h
    simp [ofYaml] at h
  rw [loadExisting, if_neg hfile, h]

lemma isMap_mergedDoc (hx : OnlyOurs y name server new x) (hl : ∀ s, ∀ e ∈ entries s E, IsMap e) :
    ∀ s, ∀ e ∈ entries s (mergedDoc name x E), IsMap e := by
  intro s
  rw [entries_mergedDoc]
  exact isMap_placed (isMap_of_named (hx.named s)) (hl s)

lemma find?_mergedDoc (hx : OnlyOurs y name server new x) :
    (entries .clusters (mergedDoc name x E)).find? (named name) = some (x .clusters) := by
  rw [entries_mergedDoc]
  exact find?_placed (hx.named .clusters)

lemma serverOf_mergedDoc (hx : OnlyOurs y name server new x)
    (hl : ∀ s, ∀ e ∈ entries s E, IsMap e) :
    serverOf y (mergedDoc name x E) name = .ok (some server) := by
  rw [serverOf_eq (isMap_mergedDoc hx hl .clusters), find?_mergedDoc hx]
  simp only [hx.server]
  rfl

/-- **A second merge finds its own work.** -/
lemma mergeDoc_again (hx : OnlyOurs y name server new x) (hl : ∀ s, ∀ e ∈ entries s E, IsMap e)
    (hE : Loaded E) :
    mergeDoc y (mergedDoc name x E) new name = .ok (mergedDoc name x E) := by
  have hfree : ¬ Conflict y name server (mergedDoc name x E) := by
    rw [Conflict, find?_mergedDoc hx]
    rintro ⟨t, ht, hne⟩
    exact hne (Except.ok.inj (ht.symm.trans hx.server))
  have hserver : ∀ e, (entries .clusters (mergedDoc name x E)).find? (named name) = some e →
      ∃ t, serverIn y e = .ok t := by
    intro e he
    obtain rfl := Option.some_inj.mp ((find?_mergedDoc hx).symm.trans he)
    exact ⟨server, hx.server⟩
  rw [mergeDoc_eq hx (isMap_mergedDoc hx hl) hserver hfree, mergedDoc_again hx.named hE]

lemma remove_eq {file : String} {rest : Doc} (hload : load y file = .ok doc)
    (hserver : serverOf y doc name = .ok (some server)) (hrest : without name doc = .ok rest) :
    remove y file name server = .ok
      (if sections.all fun s => (entries s rest).isEmpty then none else some (dump y rest)) := by
  simp only [remove, has, hload, Section.want, hserver, Checked.ok_bind, hrest, decide_true]
  rfl

/-- **What was merged comes out again.** -/
lemma remove_mergedDoc {file : String} (hx : OnlyOurs y name server new x)
    (hl : ∀ s, ∀ e ∈ entries s E, IsMap e) (hE : Loaded E)
    (hfile : load y file = .ok (mergedDoc name x E))
    (hyaml : ∀ rest, without name (mergedDoc name x E) = .ok rest →
      y.load (y.dump (.map rest)) = .ok (.map rest))
    (hnone : ∀ s, ∀ e ∈ entries s E, named (Section.want s name) e = false) :
    ((∀ s, entries s E = []) ∧ remove y file name server = .ok none) ∨
      ((∃ s, entries s E ≠ []) ∧ ∃ left rest, remove y file name server = .ok (some left) ∧
        load y left = .ok rest ∧ ∀ s, entries s rest = entries s E) := by
  obtain ⟨rest, hrest, hloaded, hentries, -⟩ :=
    exists_without name (isMap_mergedDoc hx hl) (loaded_mergedDoc hE)
  have hsame : ∀ s, entries s rest = entries s E := by
    intro s
    rw [hentries, entries_mergedDoc, filter_placed (hx.named s), List.filter_eq_self]
    intro e he
    simp [hnone s e he]
  have hremove := remove_eq hfile (serverOf_mergedDoc hx hl) hrest
  by_cases hall : ∀ s, entries s E = []
  · left
    refine ⟨hall, ?_⟩
    rw [hremove, if_pos (by simp [hsame, hall])]
  · right
    obtain ⟨s, hs⟩ := not_forall.mp hall
    have hsome : ¬ (sections.all fun s => (entries s rest).isEmpty) = true := by
      intro h
      have hempty := List.all_eq_true.mp h s (by cases s <;> decide)
      rw [hsame, List.isEmpty_iff] at hempty
      exact hs hempty
    exact ⟨⟨s, hs⟩, dump y rest, rest, by rw [hremove, if_neg hsome],
      load_dump hloaded (hyaml rest hrest), hsame⟩

lemma placement_mergedDoc {file : String} (hx : OnlyOurs y name server new x)
    (hnew : load y N = .ok new) (hfile : load y file = .ok (mergedDoc name x E)) :
    Placement y name N E file (mergedDoc name x E) where
  load := hfile
  others s := by rw [entries_mergedDoc, filter_placed (hx.named s)]
  one := ⟨new, hnew, fun s => ⟨x s, hx.entries s, by
    rw [entries_mergedDoc, filter_named_placed (hx.named s)]⟩⟩
  current := current_mergedDoc
  rest _ := lookup_mergedDoc

end Written

section Corp

/-- A kubeconfig as kubeadm writes it. -/
def written (clusters contexts : List Yaml) (current : String) (users : List Yaml) : Doc := [
  (.str "apiVersion", .str "v1"), (.str "kind", .str "Config"), (.str "clusters", .list clusters),
  (.str "contexts", .list contexts), (.str "current-context", .str current),
  (.str "users", .list users)]

def clusterAt (name server : String) : Yaml := record [
  ("cluster", some (record [("certificate-authority-data", some (.str "Q0E=")),
    ("server", some (.str server))])),
  ("name", some (.str name))]

def contextOf (name cluster user : String) : Yaml := record [
  ("context", some (record [("cluster", some (.str cluster)), ("user", some (.str user))])),
  ("name", some (.str name))]

def userWith (name : String) : Yaml := record [
  ("name", some (.str name)), ("user", some (record [("token", some (.str "S0VZ"))]))]

def demoServer : String := "https://172.22.0.253:6443"

def adminDoc : Doc :=
  written [clusterAt "kubernetes" "https://api.demo.k8s:6443"]
    [contextOf "kubernetes-admin@kubernetes" "kubernetes" "kubernetes-admin"]
    "kubernetes-admin@kubernetes" [userWith "kubernetes-admin"]

def demoDoc : Doc :=
  written [clusterAt "demo" demoServer] [contextOf "demo" "demo" "demo-admin"] "demo"
    [userWith "demo-admin"]

def corpDoc : Doc :=
  written [clusterAt "corp" "https://corp"] [contextOf "corp" "corp" "me"] "corp" [userWith "me"]

def bothDoc : Doc :=
  written [clusterAt "corp" "https://corp", clusterAt "demo" demoServer]
    [contextOf "corp" "corp" "me", contextOf "demo" "demo" "demo-admin"] "demo"
    [userWith "me", userWith "demo-admin"]

def leftDoc : Doc :=
  written [clusterAt "corp" "https://corp"] [contextOf "corp" "corp" "me"] "" [userWith "me"]

def clusterText (name server : String) : String :=
s!"- cluster:
    certificate-authority-data: Q0E=
    server: {server}
  name: {name}
"

def contextText (name cluster user : String) : String :=
s!"- context:
    cluster: {cluster}
    user: {user}
  name: {name}
"

def userText (name : String) : String :=
s!"- name: {name}
  user:
    token: S0VZ
"

def writtenText (clusters contexts current users : String) : String :=
s!"apiVersion: v1
kind: Config
clusters:
{clusters}contexts:
{contexts}current-context: {current}
users:
{users}"

def adminText : String :=
  writtenText (clusterText "kubernetes" "https://api.demo.k8s:6443")
    (contextText "kubernetes-admin@kubernetes" "kubernetes" "kubernetes-admin")
    "kubernetes-admin@kubernetes" (userText "kubernetes-admin")

def demoText : String :=
  writtenText (clusterText "demo" demoServer) (contextText "demo" "demo" "demo-admin") "demo"
    (userText "demo-admin")

def corpText : String :=
  writtenText (clusterText "corp" "https://corp") (contextText "corp" "corp" "me") "corp"
    (userText "me")

def bothText : String :=
  writtenText (clusterText "corp" "https://corp" ++ clusterText "demo" demoServer)
    (contextText "corp" "corp" "me" ++ contextText "demo" "demo" "demo-admin") "demo"
    (userText "me" ++ userText "demo-admin")

def leftText : String :=
  writtenText (clusterText "corp" "https://corp") (contextText "corp" "corp" "me") "''"
    (userText "me")

/-- PyYAML on these documents. -/
def corpYaml : Pyyaml where
  load text :=
    if text = "" then .ok .null
    else if text = adminText then .ok (.map adminDoc)
    else if text = demoText then .ok (.map demoDoc)
    else if text = corpText then .ok (.map corpDoc)
    else if text = bothText then .ok (.map bothDoc)
    else if text = leftText then .ok (.map leftDoc)
    else .error "not one of these texts"
  dump t :=
    match t with
    | .map doc =>
        match lookup "current-context" doc, entries .clusters doc with
        | some (.str "corp"), _ => corpText
        | some (.str ""), _ => leftText
        | some (.str "demo"), [_] => demoText
        | some (.str "demo"), _ => bothText
        | _, _ => adminText
    | _ => ""
  str
    | .str s => s
    | _ => ""

lemma texts_ne : adminText ≠ "" ∧ demoText ≠ "" ∧ corpText ≠ "" ∧ bothText ≠ "" ∧ leftText ≠ "" ∧
    demoText ≠ adminText ∧ corpText ≠ adminText ∧ bothText ≠ adminText ∧ leftText ≠ adminText ∧
    corpText ≠ demoText ∧ bothText ≠ demoText ∧ leftText ≠ demoText ∧
    bothText ≠ corpText ∧ leftText ≠ corpText ∧ leftText ≠ bothText := by
  decide +kernel

lemma loads_corpYaml : load corpYaml adminText = .ok adminDoc ∧
    load corpYaml corpText = .ok corpDoc ∧ corpYaml.load demoText = .ok (.map demoDoc) ∧
    corpYaml.load bothText = .ok (.map bothDoc) ∧ corpYaml.load leftText = .ok (.map leftDoc) := by
  simp only [load, corpYaml, texts_ne, if_false, if_true, and_self, and_true]
  exact ⟨rfl, rfl⟩

lemma rename_corpYaml : rename corpYaml adminText "demo" demoServer = .ok demoText := by
  rw [rename, loads_corpYaml.1, Checked.ok_bind]
  rfl

lemma mergeDoc_corpYaml : mergeDoc corpYaml corpDoc demoDoc "demo" = .ok bothDoc := by
  rfl

lemma without_corpYaml : without "demo" bothDoc = .ok leftDoc := by
  rfl

lemma loadExisting_corpYaml : loadExisting corpYaml (some corpText) = .ok corpDoc := by
  rw [loadExisting, if_neg texts_ne.2.2.1, loads_corpYaml.2.1]

lemma written_corpYaml {doc : Doc} (h : Dumped corpYaml (some corpText) adminText "demo" demoServer doc) :
    corpYaml.load (corpYaml.dump (.map doc)) = .ok (.map doc) := by
  obtain ⟨hadmin, hcorp, hdemo, hboth, hleft⟩ := loads_corpYaml
  have hloaddemo : load corpYaml demoText = .ok demoDoc := by
    rw [load, hdemo]
    rfl
  have hloadboth : load corpYaml bothText = .ok bothDoc := by
    rw [load, hboth]
    rfl
  cases h with
  | renamed hload hnew =>
      obtain rfl := Except.ok.inj (hload.symm.trans hadmin)
      obtain rfl : doc = demoDoc := Except.ok.inj hnew.symm
      exact hdemo
  | merged htext hload hnew hmerged =>
      obtain rfl := Except.ok.inj (htext.symm.trans rename_corpYaml)
      obtain rfl := Except.ok.inj (hload.symm.trans loadExisting_corpYaml)
      obtain rfl := Except.ok.inj (hnew.symm.trans hloaddemo)
      obtain rfl := Except.ok.inj (hmerged.symm.trans mergeDoc_corpYaml)
      exact hboth
  | removed htext hfile hload hrest =>
      obtain rfl := Except.ok.inj (htext.symm.trans rename_corpYaml)
      rw [merge, loadExisting_corpYaml, Checked.ok_bind, hloaddemo, Checked.ok_bind,
        mergeDoc_corpYaml] at hfile
      obtain rfl : bothText = _ := Except.ok.inj hfile
      obtain rfl := Except.ok.inj (hload.symm.trans hloadboth)
      obtain rfl := Except.ok.inj (hrest.symm.trans without_corpYaml)
      exact hleft

lemma wellFormed_corpDoc : WellFormed corpDoc where
  names s e he := by
    cases s <;> obtain rfl := List.mem_singleton.mp he <;> exact ⟨_, _, rfl, rfl⟩
  bodies fields hfields body hbody := by
    obtain rfl := Yaml.map.inj (List.mem_singleton.mp hfields)
    obtain rfl := Option.some_inj.mp hbody
    exact ⟨_, rfl⟩

end Corp

end KubeDoc

end Tk8s
