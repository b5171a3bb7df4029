import Tk8s.KubeExact

/-!
`~/.kube/config` with whatever is in it, under `use cluster` and `delete cluster`.

* `use`, `kubeconfigPhase`: the two callers, which catch a `ValueError` and nothing else.
* `Walks`, `MergeFits`, `RemoveFits`: what the loops of `merge` and `remove` can get through.
* `mergeDoc_cases`, `without_cases`: **every outcome on any document**.
* `unharmed_iff`: **which files both verbs bring through**.
-/

namespace Tk8s

namespace KubeDoc

open Yaml

variable (y : Pyyaml)

/-! ### The callers -/

/-- `~/.kube/config` and `config.bak` beside it. -/
structure KubeFiles where
  config : Option String
  bak : Option String

/-- The file `use` writes. -/
def merging (previous : Option String) (text name server : String) : Except Raised String := do
  let text ← rename y text name server
  merge y previous text name

/-- An item of `str.join`. -/
def joined : Yaml → Except Raised String
  | .str s => .ok s
  | _ => .error .typeError

/-- What `use` says at the end. -/
def contextsLine (name file : String) : Except Raised String := do
  let doc ← load y file
  let names ← (entries .contexts doc).mapM (getItem "name")
  let names ← names.mapM joined
  let listed := ", ".intercalate names
  return s!"~/.kube/config: current context {name} (contexts: {listed})"

/-- `use`, with the cluster's own file. -/
def use (home : String) (state : Option String) (name server : String) (k : KubeFiles) :
    Except Raised String × KubeFiles :=
  match state with
  | none =>
      (.error (.clusterError
        s!"cluster {name} has no kubeconfig yet (tkctl describe cluster {name})"), k)
  | some text =>
      match merging y k.config text name server with
      | .error (.valueError why) => (.error (.clusterError s!"{home}/.kube/config: {why}"), k)
      | .error e => (.error e, k)
      | .ok merged => (contextsLine y name merged, ⟨some merged, k.config.or k.bak⟩)

/-- `kubeconfig_done`; without a `cluster.yaml` there is no server. -/
def kubeconfigDone (name : String) (server : Option String) (k : KubeFiles) :
    Except Raised Bool :=
  match k.config, server with
  | some text, some server =>
      match has y text name server with
      | .error (.valueError _) => .ok true
      | .error e => .error e
      | .ok found => .ok !found
  | _, _ => .ok true

/-- `kubeconfig_run`. -/
def kubeconfigRun (name : String) (server : Option String) (k : KubeFiles) :
    Except Raised KubeFiles :=
  match k.config, server with
  | some text, some server =>
      match remove y text name server with
      | .error (.valueError _) => .ok k
      | .error e => .error e
      | .ok rest => .ok (if rest = some text then k else ⟨rest, some text⟩)
  | _, _ => .ok k

/-- The phase `kubeconfig` of `delete cluster`, as the runner goes through it. -/
def kubeconfigPhase (name : String) (server : Option String) (k : KubeFiles) :
    Except Raised Unit × KubeFiles :=
  match kubeconfigDone y name server k with
  | .error e => (.error e, k)
  | .ok true => (.ok (), k)
  | .ok false =>
      match kubeconfigRun y name server k with
      | .error e => (.error e, k)
      | .ok k' =>
          match kubeconfigDone y name server k' with
          | .error e => (.error e, k')
          | .ok true => (.ok (), k')
          | .ok false => (.error (.phaseFailed "[delete/kubeconfig] ran but is not done"), k')

/-! ### Walks over a section -/

/-- The loop that stops at the first entry of the name gets there, or to the end. -/
def Walks (want : String) : List Yaml → Prop
  | [] => True
  | e :: rest => IsMap e ∧ (named want e = false → Walks want rest)

/-- An entry that is no mapping, or a cluster in it that is none. -/
def HasBody (e : Yaml) : Prop :=
  ∀ fields, e = .map fields → ∀ body, lookup "cluster" fields = some body → IsMap body

variable {y} {want : String} {l : List Yaml} {e : Yaml}

lemma isNamed_of_not_isMap (h : ¬ IsMap e) : isNamed want e = .error .attributeError := by
  cases e with
  | map fields => exact absurd ⟨fields, rfl⟩ h
  | _ => rfl

lemma walks_of_isMap (hl : ∀ e ∈ l, IsMap e) : Walks want l := by
  induction l with
  | nil => trivial
  | cons e rest ih =>
      obtain ⟨he, hrest⟩ := List.forall_mem_cons.mp hl
      exact ⟨he, fun _ => ih hrest⟩

/-- A walk that finds nothing saw every entry. -/
lemma isMap_of_walks (h : Walks want l) (hnone : ∀ e ∈ l, named want e = false) :
    ∀ e ∈ l, IsMap e := by
  induction l with
  | nil => simp
  | cons e rest ih =>
      obtain ⟨hn, hnrest⟩ := List.forall_mem_cons.mp hnone
      exact List.forall_mem_cons.mpr ⟨h.1, ih (h.2 hn) hnrest⟩

lemma anyNamed_of_walks (h : Walks want l) : anyNamed want l = .ok (l.any (named want)) := by
  induction l with
  | nil => rfl
  | cons e rest ih =>
      obtain ⟨he, hrest⟩ := h
      rw [anyNamed, isNamed_eq he, Checked.ok_bind, List.any_cons]
      cases hn : named want e with
      | true => rfl
      | false =>
          simp only [Bool.false_eq_true, if_false, Bool.false_or]
          exact ih (hrest hn)

lemma anyNamed_of_not_walks (h : ¬ Walks want l) : anyNamed want l = .error .attributeError := by
  induction l with
  | nil => exact absurd trivial h
  | cons e rest ih =>
      by_cases he : IsMap e
      · have hn : named want e = false := by
          by_contra hn
          exact h ⟨he, fun hf => absurd hf hn⟩
        have hrest : ¬ Walks want rest := fun hrest => h ⟨he, fun _ => hrest⟩
        rw [anyNamed, isNamed_eq he, Checked.ok_bind, hn]
        exact ih hrest
      · rw [anyNamed, isNamed_of_not_isMap he]
        rfl

lemma serverFrom_of_walks {name : String} (h : Walks name l) :
    serverFrom y name l = match l.find? (named name) with
      | none => .ok none
      | some e => some <$> serverIn y e := by
  induction l with
  | nil => rfl
  | cons e rest ih =>
      obtain ⟨he, hrest⟩ := h
      rw [serverFrom, isNamed_eq he, Checked.ok_bind, List.find?_cons]
      cases hn : named name e with
      | true =>
          simp only [↓reduceIte]
          cases serverIn y e <;> rfl
      | false => simpa using ih (hrest hn)

lemma serverFrom_of_not_walks {name : String} (h : ¬ Walks name l) :
    serverFrom y name l = .error .attributeError := by
  induction l with
  | nil => exact absurd trivial h
  | cons e rest ih =>
      by_cases he : IsMap e
      · have hn : named name e = false := by
          by_contra hn
          exact h ⟨he, fun hf => absurd hf hn⟩
        have hrest : ¬ Walks name rest := fun hrest => h ⟨he, fun _ => hrest⟩
        rw [serverFrom, isNamed_eq he, Checked.ok_bind, hn]
        exact ih hrest
      · rw [serverFrom, isNamed_of_not_isMap he]
        rfl

lemma exists_serverIn (he : IsMap e) (h : HasBody e) : ∃ t, serverIn y e = .ok t := by
  obtain ⟨fields, rfl⟩ := he
  cases hbody : lookup "cluster" fields with
  | none => exact ⟨y.str (.str ""), by simp only [serverIn, get, hbody]; rfl⟩
  | some body =>
      obtain ⟨inner, rfl⟩ := h fields rfl body hbody
      exact ⟨_, by simp only [serverIn, get, hbody]; rfl⟩

lemma serverIn_of_not_hasBody (h : ¬ HasBody e) : serverIn y e = .error .attributeError := by
  simp only [HasBody, not_forall] at h
  obtain ⟨fields, rfl, body, hbody, hmap⟩ := h
  cases body with
  | map inner => exact absurd ⟨inner, rfl⟩ hmap
  | _ =>
      simp only [serverIn, get, hbody]
      rfl

/-! ### Loops over a whole section -/

lemma select_of_not_isMap {keep : Bool} (h : ¬ ∀ e ∈ l, IsMap e) :
    select keep want l = .error .attributeError := by
  induction l with
  | nil => exact absurd (by simp) h
  | cons e rest ih =>
      by_cases he : IsMap e
      · have hrest : ¬ ∀ e ∈ rest, IsMap e := fun hrest => h (List.forall_mem_cons.mpr ⟨he, hrest⟩)
        rw [select, isNamed_eq he, Checked.ok_bind, ih hrest]
        rfl
      · rw [select, isNamed_of_not_isMap he]
        rfl

lemma slotsFrom_of_not_isMap {i : ℕ} (h : ¬ ∀ e ∈ l, IsMap e) :
    slotsFrom want i l = .error .attributeError := by
  induction l generalizing i with
  | nil => exact absurd (by simp) h
  | cons e rest ih =>
      by_cases he : IsMap e
      · have hrest : ¬ ∀ e ∈ rest, IsMap e := fun hrest => h (List.forall_mem_cons.mpr ⟨he, hrest⟩)
        rw [slotsFrom, isNamed_eq he, Checked.ok_bind, ih hrest]
        rfl
      · rw [slotsFrom, isNamed_of_not_isMap he]
        rfl

/-- Every entry of the sections is a mapping. -/
def AllMaps (doc : Doc) : Prop := ∀ s, ∀ e ∈ entries s doc, IsMap e

variable {doc new : Doc} {name server : String} {x : Section → Yaml}

lemma mergeSection_of_not_isMap (h : OnlyOurs y name server new x) {s : Section}
    (hl : ¬ ∀ e ∈ entries s doc, IsMap e) :
    mergeSection new name doc s = .error .attributeError := by
  have hmap : ∀ e ∈ entries s new, IsMap e := by
    intro e he
    rw [h.entries, List.mem_singleton] at he
    exact he ▸ isMap_of_named (h.named s)
  rw [mergeSection, select_eq true hmap, Checked.ok_bind, mergeEntries, slotsFrom_of_not_isMap hl]
  rfl

/-- A loop over the sections stops at an entry that is no mapping, when each round does. -/
lemma sections_of_not_allMaps {round : Doc → Section → Except Raised Doc}
    (hgoes : ∀ doc s, (∀ e ∈ entries s doc, IsMap e) → ∃ l, round doc s = .ok (setEntries s l doc))
    (hstops : ∀ doc s, (¬ ∀ e ∈ entries s doc, IsMap e) → round doc s = .error .attributeError)
    (hl : ¬ AllMaps doc) : sections.foldlM round doc = .error .attributeError := by
  simp only [sections, List.foldlM_cons, List.foldlM_nil]
  by_cases hclusters : ∀ e ∈ entries .clusters doc, IsMap e
  · obtain ⟨l, hround⟩ := hgoes doc .clusters hclusters
    rw [hround, Checked.ok_bind]
    by_cases husers : ∀ e ∈ entries .users doc, IsMap e
    · obtain ⟨l', hround'⟩ := hgoes (setEntries .clusters l doc) .users (by simpa using husers)
      rw [hround', Checked.ok_bind]
      have hcontexts : ¬ ∀ e ∈ entries .contexts doc, IsMap e := fun hcontexts =>
        hl fun s => by cases s <;> assumption
      rw [hstops _ _ (by simpa using hcontexts)]
      rfl
    · rw [hstops _ _ (by simpa using husers)]
      rfl
  · rw [hstops _ _ hclusters]
    rfl

lemma mergeSections_of_not_allMaps (h : OnlyOurs y name server new x) (hl : ¬ AllMaps doc) :
    sections.foldlM (mergeSection new name) doc = .error .attributeError :=
  sections_of_not_allMaps (fun _ _ hmap => ⟨_, mergeSection_eq h hmap⟩)
    (fun _ _ => mergeSection_of_not_isMap h) hl

/-! ### What `merge` and `_without` do on any document -/

/-- What `merge` gets through, to a refusal or to its end. -/
def MergeFits (y : Pyyaml) (name server : String) (doc : Doc) : Prop :=
  Walks name (entries .clusters doc) ∧
    match (entries .clusters doc).find? (named name) with
    | some e => HasBody e ∧ (serverIn y e = .ok server → AllMaps doc)
    | none => Walks name (entries .contexts doc) ∧
        ((∀ e ∈ entries .contexts doc, named name e = false) →
          Walks (Section.users.want name) (entries .users doc))

lemma checkForeign_taken {s : Section} {label : String} (h : Walks (s.want name) (entries s doc))
    (he : e ∈ entries s doc) (hnamed : named (s.want name) e = true) :
    ∃ why, checkForeign name doc s label = .error (.valueError why) := by
  rw [checkForeign, anyNamed_of_walks h, List.any_eq_true.mpr ⟨e, he, hnamed⟩]
  exact ⟨_, rfl⟩

lemma checkForeign_free {s : Section} {label : String} (h : Walks (s.want name) (entries s doc))
    (hfree : ∀ e ∈ entries s doc, named (s.want name) e = false) :
    checkForeign name doc s label = .ok () := by
  have hany : (entries s doc).any (named (s.want name)) = false := by
    simpa only [List.any_eq_false, Bool.not_eq_true] using hfree
  rw [checkForeign, anyNamed_of_walks h, hany]
  rfl

lemma checkForeign_of_not_walks {s : Section} {label : String}
    (h : ¬ Walks (s.want name) (entries s doc)) :
    checkForeign name doc s label = .error .attributeError := by
  rw [checkForeign, anyNamed_of_not_walks h]
  rfl

/-- How `merge` ends on a document: with a refusal, with the merged document, or at an entry that is
no mapping. -/
inductive MergeEnds (y : Pyyaml) (name server : String) (new : Doc) (x : Section → Yaml) (doc : Doc) :
    Prop
  | refused (fits : MergeFits y name server doc) (conflict : Conflict y name server doc)
      (ends : ∃ why, mergeDoc y doc new name = .error (.valueError why))
  | merged (fits : MergeFits y name server doc) (free : ¬ Conflict y name server doc)
      (maps : AllMaps doc) (ends : mergeDoc y doc new name = .ok (mergedDoc name x doc))
  | broken (unfit : ¬ MergeFits y name server doc)
      (ends : mergeDoc y doc new name = .error .attributeError)

/-- `merge` on a document that has a cluster of the name. -/
lemma mergeEnds_found (h : OnlyOurs y name server new x) (hw : Walks name (entries .clusters doc))
    (hfind : (entries .clusters doc).find? (named name) = some e) :
    MergeEnds y name server new x doc := by
  have hstart : ∀ {t}, serverIn y e = .ok t → mergeDoc y doc new name = do
      Checked.refuseIf (some t ≠ some server) (.valueError
        (s!"already has a cluster named {name} at {t} "
          ++ "(not this cluster); move that entry out of the way"))
      let doc ← sections.foldlM (mergeSection new name) doc
      return setCurrent name doc := by
    intro t ht
    rw [mergeDoc, Section.want, serverOf_onlyOurs h, Checked.ok_bind, serverOf,
      serverFrom_of_walks hw, hfind]
    simp only [ht]
    rfl
  have hfails : ∀ {err}, serverIn y e = .error err → mergeDoc y doc new name = .error err := by
    intro err herr
    rw [mergeDoc, Section.want, serverOf_onlyOurs h, Checked.ok_bind, serverOf,
      serverFrom_of_walks hw, hfind]
    simp only [herr]
    rfl
  have hfits : MergeFits y name server doc ↔
      HasBody e ∧ (serverIn y e = .ok server → AllMaps doc) := by
    simp only [MergeFits, hfind, hw, true_and]
  have hconflict : Conflict y name server doc ↔ ∃ t, serverIn y e = .ok t ∧ t ≠ server := by
    rw [Conflict, hfind]
  by_cases hbody : HasBody e
  · have hmap : IsMap e := isMap_of_named (List.find?_some hfind)
    obtain ⟨t, ht⟩ := exists_serverIn (y := y) hmap hbody
    by_cases hserver : t = server
    · have hfree : ¬ Conflict y name server doc := by
        rw [hconflict]
        rintro ⟨t', ht', hne⟩
        exact hne (Except.ok.inj (ht'.symm.trans (ht.trans (congrArg _ hserver))))
      by_cases hall : AllMaps doc
      · refine .merged (hfits.mpr ⟨hbody, fun _ => hall⟩) hfree hall
          (mergeDoc_eq h hall (fun e' he' => ?_) hfree)
        obtain rfl := Option.some_inj.mp (hfind.symm.trans he')
        exact ⟨t, ht⟩
      · refine .broken (fun h' => hall ((hfits.mp h').2 (ht.trans (congrArg _ hserver)))) ?_
        simp only [hstart ht, hserver, Checked.refuseIf, ne_eq, not_true_eq_false, if_false,
          Checked.ok_bind, mergeSections_of_not_allMaps h hall]
        rfl
    · have hother : some t ≠ some server := fun heq => hserver (Option.some_inj.mp heq)
      refine .refused (hfits.mpr ⟨hbody, fun ht' => ?_⟩) (hconflict.mpr ⟨t, ht, hserver⟩) ?_
      · exact absurd (Except.ok.inj (ht.symm.trans ht')) hserver
      · simp only [hstart ht, Checked.refuseIf, if_pos hother]
        exact ⟨_, rfl⟩
  · refine .broken (fun h' => hbody (hfits.mp h').1) ?_
    exact hfails (serverIn_of_not_hasBody hbody)

/-- `merge` on a document that has none. -/
lemma mergeEnds_none (h : OnlyOurs y name server new x) (hw : Walks name (entries .clusters doc))
    (hfind : (entries .clusters doc).find? (named name) = none) :
    MergeEnds y name server new x doc := by
  have hstart : mergeDoc y doc new name = (do
      checkForeign name doc .contexts "context"
      checkForeign name doc .users "user"
      let doc ← sections.foldlM (mergeSection new name) doc
      return setCurrent name doc) := by
    rw [mergeDoc, Section.want, serverOf_onlyOurs h, Checked.ok_bind, serverOf,
      serverFrom_of_walks hw, hfind]
    rfl
  have hclusters : ∀ e ∈ entries .clusters doc, named name e = false := by
    simpa using List.find?_eq_none.mp hfind
  have hfits : MergeFits y name server doc ↔ Walks name (entries .contexts doc) ∧
      ((∀ e ∈ entries .contexts doc, named name e = false) →
        Walks (Section.users.want name) (entries .users doc)) := by
    simp only [MergeFits, hfind, hw, true_and]
  have hconflict : Conflict y name server doc ↔
      ∃ s, ∃ e ∈ entries s doc, named (s.want name) e = true := by
    rw [Conflict, hfind]
  by_cases hcontexts : Walks name (entries .contexts doc)
  · by_cases hcontext : ∃ e ∈ entries .contexts doc, named name e = true
    · obtain ⟨e, he, hnamed⟩ := hcontext
      obtain ⟨why, hwhy⟩ := checkForeign_taken (s := .contexts) hcontexts he hnamed
      refine .refused (hfits.mpr ⟨hcontexts, fun hnone => ?_⟩)
        (hconflict.mpr ⟨.contexts, e, he, hnamed⟩) ⟨why, by rw [hstart, hwhy]; rfl⟩
      exact absurd hnamed (by simp [hnone e he])
    · have hnocontext : ∀ e ∈ entries .contexts doc, named name e = false := by
        simpa using hcontext
      have hfree : checkForeign name doc .contexts "context" = .ok () :=
        checkForeign_free hcontexts hnocontext
      by_cases husers : Walks (Section.users.want name) (entries .users doc)
      · have hpassed : MergeFits y name server doc := hfits.mpr ⟨hcontexts, fun _ => husers⟩
        by_cases huser : ∃ e ∈ entries .users doc, named (Section.users.want name) e = true
        · obtain ⟨e, he, hnamed⟩ := huser
          obtain ⟨why, hwhy⟩ := checkForeign_taken husers he hnamed
          exact .refused hpassed (hconflict.mpr ⟨.users, e, he, hnamed⟩)
            ⟨why, by rw [hstart, hfree, Checked.ok_bind, hwhy]; rfl⟩
        · have hnouser : ∀ e ∈ entries .users doc, named (Section.users.want name) e = false := by
            simpa using huser
          have hnone : ∀ s, ∀ e ∈ entries s doc, named (Section.want s name) e = false := by
            intro s
            cases s with
            | clusters => exact hclusters
            | users => exact hnouser
            | contexts => exact hnocontext
          have hall : AllMaps doc := by
            intro s
            cases s with
            | clusters => exact isMap_of_walks hw hclusters
            | users => exact isMap_of_walks husers hnouser
            | contexts => exact isMap_of_walks hcontexts hnocontext
          have hno : ¬ Conflict y name server doc := by
            rw [hconflict]
            rintro ⟨s, e, he, hnamed⟩
            exact absurd hnamed (by simp [hnone s e he])
          exact .merged hpassed hno hall (mergeDoc_eq h hall (fun e he => by simp [hfind] at he) hno)
      · refine .broken (fun h' => husers ((hfits.mp h').2 hnocontext)) ?_
        rw [hstart, hfree, Checked.ok_bind, checkForeign_of_not_walks husers]
        rfl
  · refine .broken (fun h' => hcontexts (hfits.mp h').1) ?_
    rw [hstart, checkForeign_of_not_walks (s := .contexts) hcontexts]
    rfl

/-- **How `merge` ends on any document.** -/
lemma mergeEnds (h : OnlyOurs y name server new x) (doc : Doc) : MergeEnds y name server new x doc := by
  by_cases hw : Walks name (entries .clusters doc)
  · cases hfind : (entries .clusters doc).find? (named name) with
    | some e => exact mergeEnds_found h hw hfind
    | none => exact mergeEnds_none h hw hfind
  · refine .broken (fun hfits => hw hfits.1) ?_
    rw [mergeDoc, Section.want, serverOf_onlyOurs h, Checked.ok_bind, serverOf,
      serverFrom_of_not_walks hw]
    rfl

lemma without_of_not_allMaps (h : ¬ AllMaps doc) : without name doc = .error .attributeError := by
  rw [without, sections_of_not_allMaps (fun doc s hmap => ?_) (fun doc s hmap => ?_) h]
  · rfl
  · rw [select_eq false hmap]
    exact ⟨_, rfl⟩
  · rw [select_of_not_isMap hmap]
    rfl

/-! ### `use` on any file -/

/-- The name of an entry is a text. -/
def TextName (e : Yaml) : Prop := ∃ fields s, e = .map fields ∧ lookup "name" fields = some (.str s)

/-- Every other context can be listed. -/
def Printable (name : String) (doc : Doc) : Prop :=
  ∀ e ∈ entries .contexts doc, named name e = false → TextName e

lemma textName_of_named (h : named want e = true) : TextName e := by
  obtain ⟨fields, rfl⟩ := isMap_of_named h
  rw [named] at h
  split at h
  next s hs => exact ⟨fields, s, rfl, hs⟩
  next => simp at h

lemma getItem_joined : (∃ v s, getItem "name" e = .ok v ∧ joined v = .ok s) ↔ TextName e := by
  constructor
  · rintro ⟨v, s, hv, hs⟩
    obtain ⟨fields, rfl, hname⟩ := getItem_eq_ok.mp hv
    cases v with
    | str s' => exact ⟨fields, s', rfl, hname⟩
    | _ => simp [joined] at hs
  · rintro ⟨fields, s, rfl, hname⟩
    exact ⟨.str s, s, getItem_eq_ok.mpr ⟨fields, rfl, hname⟩, rfl⟩

/-- The names of a list can be joined when each of them is a text. -/
lemma exists_names : (∃ vs ss, l.mapM (getItem "name") = .ok vs ∧ vs.mapM joined = .ok ss) ↔
    ∀ e ∈ l, TextName e := by
  induction l with
  | nil => exact ⟨fun _ => by simp, fun _ => ⟨[], [], rfl, rfl⟩⟩
  | cons e rest ih =>
      rw [List.forall_mem_cons, ← ih, ← getItem_joined]
      simp only [List.mapM_cons, Checked.bind_eq_ok, Checked.pure_eq_ok]
      constructor
      · rintro ⟨_, _, ⟨v, hv, vs, hvs, rfl⟩, hss⟩
        simp only [List.mapM_cons, Checked.bind_eq_ok, Checked.pure_eq_ok] at hss
        obtain ⟨s, hs, ss, hss, -⟩ := hss
        exact ⟨⟨v, s, hv, hs⟩, vs, ss, hvs, hss⟩
      · rintro ⟨⟨v, s, hv, hs⟩, vs, ss, hvs, hss⟩
        exact ⟨v :: vs, s :: ss, ⟨v, hv, vs, hvs, rfl⟩, by rw [List.mapM_cons, hs, Checked.ok_bind, hss]; rfl⟩

/-- **The last line of `use`** can be said when every other context has a name. -/
lemma exists_contextsLine {file : String} {E : Doc} (hx : OnlyOurs y name server new x)
    (hload : load y file = .ok (mergedDoc name x E)) :
    (∃ line, contextsLine y name file = .ok line) ↔ Printable name E := by
  have hmem : ∀ e, named name e = false →
      (e ∈ entries .contexts (mergedDoc name x E) ↔ e ∈ entries .contexts E) := by
    intro e he
    rw [entries_mergedDoc]
    exact mem_placed (hx.named .contexts) he
  have hplaced : (∀ e ∈ entries .contexts (mergedDoc name x E), TextName e) ↔ Printable name E := by
    constructor
    · exact fun h e he hother => h e ((hmem e hother).mpr he)
    · intro h e he
      cases hn : named name e with
      | true => exact textName_of_named hn
      | false => exact h e ((hmem e hn).mp he) hn
  rw [← hplaced, ← exists_names]
  simp only [contextsLine, hload, Checked.ok_bind, Checked.bind_eq_ok, Checked.pure_eq_ok]
  constructor
  · rintro ⟨_, vs, hvs, ss, hss, -⟩
    exact ⟨vs, ss, hvs, hss⟩
  · rintro ⟨vs, ss, hvs, hss⟩
    exact ⟨_, vs, hvs, ss, hss, rfl⟩

lemma failsOnly_ofYaml (t : Yaml) :
    Checked.FailsOnly (fun e => ∃ why, e = .valueError why) (ofYaml t) := by
  have hsection : ∀ doc s, Checked.FailsOnly (fun e => ∃ why, e = .valueError why)
      (loadSection doc s) := by
    intro doc s
    refine Checked.failsOnly_bind ?_ fun _ _ => Checked.failsOnly_of_ok rfl
    rw [sectionOf]
    split
    · exact Checked.failsOnly_of_ok rfl
    · split
      · split
        · exact Checked.failsOnly_of_ok rfl
        · exact Checked.failsOnly_error ⟨_, rfl⟩
      · exact Checked.failsOnly_of_ok rfl
  cases t with
  | map doc =>
      rw [ofYaml]
      split
      · refine Checked.failsOnly_bind (Checked.failsOnly_refuseIf ⟨_, rfl⟩) fun _ _ => ?_
        simp only [sections, List.foldlM_cons, List.foldlM_nil]
        exact Checked.failsOnly_bind (hsection _ _) fun _ _ =>
          Checked.failsOnly_bind (hsection _ _) fun _ _ =>
            Checked.failsOnly_bind (hsection _ _) fun _ _ => Checked.failsOnly_of_ok rfl
      · exact Checked.failsOnly_error ⟨_, rfl⟩
  | _ => exact Checked.failsOnly_error ⟨_, rfl⟩

/-- How the text of a file loads: as a document, refused, or not at all. -/
inductive Loads (y : Pyyaml) (text : String) : Prop
  | loaded {t : Yaml} {doc : Doc} (parsed : y.load text = .ok t) (shape : ofYaml t = .ok doc)
      (ends : load y text = .ok doc)
  | refused {t : Yaml} {why : String} (parsed : y.load text = .ok t)
      (shape : ∀ doc, ofYaml t ≠ .ok doc) (ends : load y text = .error (.valueError why))
  | malformed {why : String} (unparsed : y.load text = .error why)
      (ends : load y text = .error (.yamlError why))

lemma loads (y : Pyyaml) (text : String) : Loads y text := by
  cases ht : y.load text with
  | error why => exact .malformed ht (by rw [load, ht])
  | ok t =>
      cases hdoc : ofYaml t with
      | error e =>
          obtain ⟨why, rfl⟩ := failsOnly_ofYaml t e hdoc
          exact .refused ht (by simp [hdoc]) (by rw [load, ht]; exact hdoc)
      | ok doc => exact .loaded ht hdoc (by rw [load, ht]; exact hdoc)

/-- The files `use` brings through: none, one that cannot be a kubeconfig, or one whose entries its
loops get over. -/
def UseFits (y : Pyyaml) (name server : String) (previous : Option String) : Prop :=
  ∀ text, previous = some text → text ≠ "" → ∃ t, y.load text = .ok t ∧
    ∀ doc, ofYaml t = .ok doc →
      MergeFits y name server doc ∧ (¬ Conflict y name server doc → Printable name doc)

/-- `use` wrote a merge of the file, or failed with a `ClusterError` and changed nothing. -/
def UseUnharmed (y : Pyyaml) (home state name server N : String) (k : KubeFiles) : Prop :=
  (∃ line E file doc, loadExisting y k.config = .ok E ∧ Placement y name N E file doc ∧
    use y home (some state) name server k = (.ok line, ⟨some file, k.config.or k.bak⟩)) ∨
  ∃ why, use y home (some state) name server k = (.error (.clusterError why), k)

section Use

variable {home state N : String} {k : KubeFiles} {E : Doc}

lemma use_of_merging (home : String) {r : Except Raised String} :
    merging y k.config state name server = r →
    use y home (some state) name server k = match r with
      | .error (.valueError why) => (.error (.clusterError s!"{home}/.kube/config: {why}"), k)
      | .error e => (.error e, k)
      | .ok merged => (contextsLine y name merged, ⟨some merged, k.config.or k.bak⟩) := by
  rintro rfl
  rfl

lemma merging_eq (hN : rename y state name server = .ok N) (hnew : load y N = .ok new) :
    merging y k.config state name server = (do
      let doc ← loadExisting y k.config
      dump y <$> mergeDoc y doc new name) := by
  rw [merging, hN, Checked.ok_bind, merge]
  cases loadExisting y k.config with
  | error e => rfl
  | ok doc => rw [Checked.ok_bind, hnew]; rfl

/-- Whatever stops the last line is no `ClusterError`. -/
lemma contextsLine_error {file : String} {doc : Doc} (hload : load y file = .ok doc) :
    Checked.FailsOnly (fun e => ∀ why, e ≠ .clusterError why) (contextsLine y name file) := by
  rw [contextsLine, hload, Checked.ok_bind]
  refine Checked.failsOnly_bind (Checked.failsOnly_mapM fun e => ?_) fun _ _ =>
    Checked.failsOnly_bind (Checked.failsOnly_mapM fun v => ?_) fun _ _ =>
      Checked.failsOnly_of_ok rfl
  · cases e with
    | map fields => exact Checked.failsOnly_ofOption (by simp)
    | _ => exact Checked.failsOnly_error (by simp)
  · cases v with
    | str s => exact Checked.failsOnly_of_ok rfl
    | _ => exact Checked.failsOnly_error (by simp)

/-- **`use` on a file that loads.** -/
lemma useUnharmed_of_loaded (hE : loadExisting y k.config = .ok E)
    (hN : rename y state name server = .ok N) (hnew : load y N = .ok new)
    (hx : OnlyOurs y name server new x)
    (hyaml : ∀ doc, mergeDoc y E new name = .ok doc → y.load (y.dump (.map doc)) = .ok (.map doc)) :
    UseUnharmed y home state name server N k ↔
      MergeFits y name server E ∧ (¬ Conflict y name server E → Printable name E) := by
  have hmerging : merging y k.config state name server = dump y <$> mergeDoc y E new name := by
    rw [merging_eq hN hnew, hE, Checked.ok_bind]
  cases mergeEnds hx E with
  | refused fits conflict ends =>
      obtain ⟨why, hwhy⟩ := ends
      rw [hwhy] at hmerging
      exact ⟨fun _ => ⟨fits, fun h => absurd conflict h⟩,
        fun _ => .inr ⟨_, use_of_merging home hmerging⟩⟩
  | merged fits free maps ends =>
      rw [ends] at hmerging
      have huse := use_of_merging home hmerging
      have hload : load y (dump y (mergedDoc name x E)) = .ok (mergedDoc name x E) :=
        load_dump (loaded_mergedDoc (loaded_of_loadExisting hE)) (hyaml _ ends)
      simp only [fits, free, not_false_eq_true, forall_const, true_and]
      rw [← exists_contextsLine hx hload]
      constructor
      · rintro (⟨line, E', file, doc, -, -, hends⟩ | ⟨why, hends⟩)
        · rw [huse] at hends
          exact ⟨line, (Prod.mk.inj hends).1⟩
        · rw [huse] at hends
          exact absurd rfl (contextsLine_error hload _ (Prod.mk.inj hends).1 why)
      · rintro ⟨line, hline⟩
        refine .inl ⟨line, E, dump y (mergedDoc name x E), mergedDoc name x E, hE,
          placement_mergedDoc hx hnew hload, ?_⟩
        rw [huse, ← hline]
        rfl
  | broken unfit ends =>
      rw [ends] at hmerging
      have huse := use_of_merging home hmerging
      refine iff_of_false ?_ fun h => unfit h.1
      rintro (⟨line, E', file, doc, -, -, hends⟩ | ⟨why, hends⟩) <;>
        simp [huse] at hends

lemma mergeFits_empty : MergeFits y name server empty := ⟨trivial, trivial, fun _ => trivial⟩

lemma printable_empty : Printable name empty := fun e he => by simp [empty] at he

/-- **Which files `use` brings through.** -/
lemma useUnharmed_iff (hN : rename y state name server = .ok N) (hnew : load y N = .ok new)
    (hx : OnlyOurs y name server new x)
    (hyaml : ∀ E doc, loadExisting y k.config = .ok E → mergeDoc y E new name = .ok doc →
      y.load (y.dump (.map doc)) = .ok (.map doc)) :
    UseUnharmed y home state name server N k ↔ UseFits y name server k.config := by
  have hnone : loadExisting y k.config = .ok empty → UseUnharmed y home state name server N k :=
    fun hE => (useUnharmed_of_loaded hE hN hnew hx (hyaml _ · hE)).mpr
      ⟨mergeFits_empty, fun _ => printable_empty⟩
  cases hconfig : k.config with
  | none =>
      exact iff_of_true (hnone (by rw [hconfig]; rfl)) (by simp [UseFits])
  | some text =>
      by_cases hempty : text = ""
      · exact iff_of_true (hnone (by rw [hconfig, loadExisting, if_pos hempty]))
          (by simp [UseFits, hempty])
      · have hloads : loadExisting y k.config = load y text := by
          rw [hconfig, loadExisting, if_neg hempty]
        have hfits : UseFits y name server (some text) ↔ ∃ t, y.load text = .ok t ∧
            ∀ doc, ofYaml t = .ok doc → MergeFits y name server doc ∧
              (¬ Conflict y name server doc → Printable name doc) := by
          simp [UseFits, hempty]
        rw [hfits]
        cases loads y text with
        | loaded parsed shape ends =>
            rw [useUnharmed_of_loaded (hloads.trans ends) hN hnew hx
              (hyaml _ · (hloads.trans ends))]
            simp [parsed, shape]
        | refused parsed shape ends =>
            have hmerging := merging_eq (k := k) hN hnew
            rw [hloads, ends] at hmerging
            exact iff_of_true (.inr ⟨_, use_of_merging home hmerging⟩)
              ⟨_, parsed, fun doc hdoc => absurd hdoc (shape doc)⟩
        | malformed unparsed ends =>
            have hmerging := merging_eq (k := k) hN hnew
            rw [hloads, ends] at hmerging
            have huse := use_of_merging home hmerging
            refine iff_of_false ?_ (by simp [unparsed])
            rintro (⟨line, E', file, doc, -, -, hends⟩ | ⟨why, hends⟩) <;> simp [huse] at hends

end Use

/-! ### The phase of `delete cluster` on any file -/

/-- What `remove` gets over. -/
def RemoveFits (y : Pyyaml) (name server : String) (doc : Doc) : Prop :=
  Walks name (entries .clusters doc) ∧
    ∀ e, (entries .clusters doc).find? (named name) = some e →
      HasBody e ∧ (serverIn y e = .ok server → AllMaps doc)

/-- The files the phase brings through. -/
def DeleteFits (y : Pyyaml) (name server : String) (previous : Option String) : Prop :=
  ∀ text, previous = some text → ∃ t, y.load text = .ok t ∧
    ∀ doc, ofYaml t = .ok doc → RemoveFits y name server doc

/-- A file with the sections of document `E`, the cluster's entries taken out; none when nothing is
left in them. -/
def Removal (y : Pyyaml) (name : String) (E : Doc) : Option String → Prop
  | none => ∀ s, (entries s E).filter (!named (Section.want s name) ·) = []
  | some text => ∃ rest, load y text = .ok rest ∧
      ∀ s, entries s rest = (entries s E).filter (!named (Section.want s name) ·)

/-- The phase ends, with the cluster's entries taken out or nothing changed. -/
def DeleteUnharmed (y : Pyyaml) (name server : String) (k : KubeFiles) : Prop :=
  ∃ k', kubeconfigPhase y name (some server) k = (.ok (), k') ∧
    (k' = k ∨ ∃ text E, k.config = some text ∧ load y text = .ok E ∧
      Removal y name E k'.config ∧ k'.bak = some text)

/-- How the loop of `server_of` ends. -/
inductive ServerEnds (y : Pyyaml) (name : String) (doc : Doc) : Prop
  | found {e : Yaml} {t : String} (walks : Walks name (entries .clusters doc))
      (find : (entries .clusters doc).find? (named name) = some e) (body : HasBody e)
      (points : serverIn y e = .ok t) (ends : serverOf y doc name = .ok (some t))
  | none (walks : Walks name (entries .clusters doc))
      (find : (entries .clusters doc).find? (named name) = none)
      (ends : serverOf y doc name = .ok none)
  | broken (unfit : ∀ server, ¬ RemoveFits y name server doc)
      (ends : serverOf y doc name = .error .attributeError)

lemma serverEnds (y : Pyyaml) (name : String) (doc : Doc) : ServerEnds y name doc := by
  by_cases hw : Walks name (entries .clusters doc)
  · have hstart := serverFrom_of_walks (y := y) hw
    cases hfind : (entries .clusters doc).find? (named name) with
    | some e =>
        simp only [hfind] at hstart
        by_cases hbody : HasBody e
        · obtain ⟨t, ht⟩ := exists_serverIn (y := y) (isMap_of_named (List.find?_some hfind)) hbody
          exact .found hw hfind hbody ht (by rw [serverOf, hstart, ht]; rfl)
        · refine .broken (fun server hfits => hbody (hfits.2 e hfind).1) ?_
          rw [serverOf, hstart, serverIn_of_not_hasBody hbody]
          rfl
    | none =>
        rw [hfind] at hstart
        exact .none hw hfind hstart
  · exact .broken (fun server hfits => hw hfits.1) (serverFrom_of_not_walks hw)

section Delete

variable {k : KubeFiles} {E : Doc} {text : String}

lemma has_eq (h : load y text = .ok doc) :
    has y text name server = (fun found => decide (found = some server)) <$> serverOf y doc name := by
  rw [has, h, Checked.ok_bind, Section.want]
  cases serverOf y doc name <;> rfl

/-- A phase that is found done. -/
lemma phase_of_done (h : kubeconfigDone y name (some server) k = .ok true) :
    DeleteUnharmed y name server k :=
  ⟨k, by rw [kubeconfigPhase, h], .inl rfl⟩

lemma not_deleteUnharmed_of_done {e : Raised}
    (h : kubeconfigDone y name (some server) k = .error e) : ¬ DeleteUnharmed y name server k := by
  rintro ⟨k', hends, -⟩
  simp [kubeconfigPhase, h] at hends

/-- The cluster is not in what was left of the file. -/
lemma done_of_left {rest : Doc} {left : Option String} {bak : Option String}
    (hleft : ∀ text, left = some text → load y text = .ok rest)
    (hmaps : ∀ s, ∀ e ∈ entries s rest, IsMap e)
    (hnone : (entries .clusters rest).find? (named name) = none) :
    kubeconfigDone y name (some server) ⟨left, bak⟩ = .ok true := by
  cases left with
  | none => rfl
  | some text =>
      have hserver : serverOf y rest name = .ok none := by
        rw [serverOf_eq (hmaps .clusters), hnone]
      simp only [kubeconfigDone, has_eq (hleft text rfl), hserver]
      rfl

/-- **The phase on a file with this cluster**, when it can get over its entries. -/
lemma deleteUnharmed_of_allMaps (hconfig : k.config = some text) (hE : load y text = .ok E)
    (hserver : serverOf y E name = .ok (some server)) (hall : AllMaps E)
    (hyaml : ∀ rest, without name E = .ok rest → y.load (y.dump (.map rest)) = .ok (.map rest)) :
    DeleteUnharmed y name server k := by
  obtain ⟨rest, hrest, hloaded, hentries, -⟩ := exists_without name hall (loaded_of_load hE)
  have hmaps : ∀ s, ∀ e ∈ entries s rest, IsMap e := by
    intro s e he
    rw [hentries] at he
    exact hall s e (List.mem_of_mem_filter he)
  have hnone : (entries .clusters rest).find? (named name) = none := by
    rw [hentries, List.find?_eq_none]
    intro e he
    have hother := List.of_mem_filter he
    rw [Bool.not_eq_true', Section.want] at hother
    simp [hother]
  have hdump : load y (dump y rest) = .ok rest := load_dump hloaded (hyaml rest hrest)
  set left := if sections.all fun s => (entries s rest).isEmpty then none else some (dump y rest)
    with hleft
  have hloads : ∀ text, left = some text → load y text = .ok rest := by
    intro text htext
    rw [hleft] at htext
    split at htext
    · simp at htext
    · exact Option.some_inj.mp htext ▸ hdump
  have hnotdone : kubeconfigDone y name (some server) k = .ok false := by
    simp only [kubeconfigDone, hconfig, has_eq hE, hserver]
    simp [Functor.map, Except.map]
  have hchanged : left ≠ some text := by
    intro heq
    obtain rfl := Except.ok.inj ((hloads text heq).symm.trans hE)
    rw [serverOf_eq (hmaps .clusters), hnone] at hserver
    simp at hserver
  have hrun : kubeconfigRun y name (some server) k = .ok ⟨left, some text⟩ := by
    simp only [kubeconfigRun, hconfig, remove_eq hE hserver hrest, ← hleft, if_neg hchanged]
  refine ⟨⟨left, some text⟩, ?_, .inr ⟨text, E, hconfig, hE, ?_, rfl⟩⟩
  · simp only [kubeconfigPhase, hnotdone, hrun, done_of_left hloads hmaps hnone]
  · cases hl : left with
    | some text' => exact ⟨rest, hloads text' hl, hentries⟩
    | none =>
        intro s
        have hempty : (sections.all fun s => (entries s rest).isEmpty) = true := by
          by_contra hne
          rw [hleft, if_neg hne] at hl
          simp at hl
        have hs := List.all_eq_true.mp hempty s (by cases s <;> decide)
        rw [← hentries]
        exact List.isEmpty_iff.mp hs

/-- **The phase on a file that loads.** -/
lemma deleteUnharmed_of_loaded (hconfig : k.config = some text) (hE : load y text = .ok E)
    (hyaml : ∀ rest, without name E = .ok rest → y.load (y.dump (.map rest)) = .ok (.map rest)) :
    DeleteUnharmed y name server k ↔ RemoveFits y name server E := by
  have hdone : kubeconfigDone y name (some server) k = match
      (fun found => decide (found = some server)) <$> serverOf y E name with
      | .error (.valueError _) => .ok true
      | .error e => .error e
      | .ok found => .ok !found := by
    simp only [kubeconfigDone, hconfig, has_eq hE]
  cases serverEnds y name E with
  | @found e t walks find body points ends =>
      have hfits : RemoveFits y name server E ↔ (t = server → AllMaps E) := by
        simp only [RemoveFits, walks, find, true_and, Option.some_inj, forall_eq', body, points,
          Except.ok.injEq]
      rw [hfits]
      by_cases hserver : t = server
      · by_cases hall : AllMaps E
        · exact iff_of_true
            (deleteUnharmed_of_allMaps hconfig hE (hserver ▸ ends) hall hyaml) fun _ => hall
        · refine iff_of_false ?_ fun h => hall (h hserver)
          have hnotdone : kubeconfigDone y name (some server) k = .ok false := by
            rw [hdone, ends]
            simp [Functor.map, Except.map, hserver]
          have hrun : kubeconfigRun y name (some server) k = .error .attributeError := by
            have hhas : has y text name server = .ok true := by
              rw [has_eq hE, ends]
              simp [Functor.map, Except.map, hserver]
            simp only [kubeconfigRun, hconfig, remove, hhas, Checked.ok_bind, ↓reduceIte, hE,
              without_of_not_allMaps hall, Checked.error_bind]
          rintro ⟨k', hends, -⟩
          simp [kubeconfigPhase, hnotdone, hrun] at hends
      · have hisdone : kubeconfigDone y name (some server) k = .ok true := by
          rw [hdone, ends]
          simp [Functor.map, Except.map, hserver]
        exact iff_of_true (phase_of_done hisdone) fun h => absurd h hserver
  | none walks find ends =>
      rw [ends] at hdone
      exact iff_of_true (phase_of_done hdone) ⟨walks, fun e he => by simp [find] at he⟩
  | broken unfit ends =>
      rw [ends] at hdone
      exact iff_of_false (not_deleteUnharmed_of_done hdone) (unfit server)

/-- **Which files the phase brings through.** -/
lemma deleteUnharmed_iff
    (hyaml : ∀ text E rest, k.config = some text → load y text = .ok E → without name E = .ok rest →
      y.load (y.dump (.map rest)) = .ok (.map rest)) :
    DeleteUnharmed y name server k ↔ DeleteFits y name server k.config := by
  cases hconfig : k.config with
  | none =>
      exact iff_of_true (phase_of_done (by simp only [kubeconfigDone, hconfig])) (by simp [DeleteFits])
  | some text =>
      have hfits : DeleteFits y name server (some text) ↔ ∃ t, y.load text = .ok t ∧
          ∀ doc, ofYaml t = .ok doc → RemoveFits y name server doc := by
        simp [DeleteFits]
      rw [hfits]
      cases loads y text with
      | loaded parsed shape ends =>
          rw [deleteUnharmed_of_loaded hconfig ends (hyaml text _ · hconfig ends)]
          simp [parsed, shape]
      | refused parsed shape ends =>
          refine iff_of_true (phase_of_done ?_) ⟨_, parsed, fun doc hdoc => absurd hdoc (shape doc)⟩
          simp only [kubeconfigDone, hconfig, has, ends, Checked.error_bind]
      | @malformed why unparsed ends =>
          have hdone : kubeconfigDone y name (some server) k = .error (.yamlError why) := by
            simp only [kubeconfigDone, hconfig, has, ends, Checked.error_bind]
          exact iff_of_false (not_deleteUnharmed_of_done hdone) (by simp [unparsed])

end Delete

section Corp

lemma fits_corp : UseFits corpYaml "demo" demoServer (some corpText) ∧
    DeleteFits corpYaml "demo" demoServer (some corpText) := by
  have hparsed : corpYaml.load corpText = .ok (.map corpDoc) := by
    simp only [corpYaml, texts_ne, if_false, if_true]
  have hwalks : ∀ s, Walks (Section.want s "demo") (entries s corpDoc) := fun s =>
    walks_of_isMap (wellFormed_corpDoc.isMap s)
  have hfind : (entries .clusters corpDoc).find? (named "demo") = none := by decide
  constructor
  · rintro text htext -
    obtain rfl := Option.some_inj.mp htext
    refine ⟨_, hparsed, fun doc hdoc => ?_⟩
    obtain rfl : corpDoc = doc := Except.ok.inj hdoc
    refine ⟨⟨hwalks .clusters, ?_⟩, fun _ e he _ => ?_⟩
    · rw [hfind]
      exact ⟨hwalks .contexts, fun _ => hwalks .users⟩
    · exact wellFormed_corpDoc.names .contexts e he
  · rintro text htext
    obtain rfl := Option.some_inj.mp htext
    refine ⟨_, hparsed, fun doc hdoc => ?_⟩
    obtain rfl : corpDoc = doc := Except.ok.inj hdoc
    exact ⟨hwalks .clusters, fun e he => by simp [hfind] at he⟩

/-- A list that was never closed. -/
def brokenText : String := "clusters: ["

end Corp

end KubeDoc

end Tk8s
