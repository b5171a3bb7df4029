import Tk8s.Host.Files

/-!
What a machine is to hold, written by one loop and looked at by another: files, links, and directories
whose `cpuN` entries are those links alone.

* `Share`: what is wanted on the machine for one reason; a machine may have several.
* `establish`: all files and links are written, then the stale entries are removed. `Settled`: what is
  looked at afterwards.
* `Shaped`: the paths stand apart from each other.
* `settled_iff`: **after `establish` all is as wanted exactly when** nothing was in the way (`Settles`).
* `still_of_settles`: **and then establishing it again changes nothing**.
-/

namespace Tk8s.HostFs

open FileTree

/-! ### What is wanted -/

/-- A file, its text, and whether it is root's. -/
structure Wanted where
  path : Path
  text : String
  asRoot : Bool

/-- Files, links, and the directories that have no `cpuN` entry but these links. -/
structure Share where
  files : List Wanted
  links : List (Path × Path)
  dirs : List Path

/-- `cpu[0-9]+`. -/
def isCpu (name : String) : Bool := (Text.removePrefix? "cpu" name).any Text.isDigits

section Scripts

variable (k : Kind)

def writeFiles (files : List Wanted) : Script Tree :=
  Script.each files fun f => call fun t => write k t f.path f.text f.asRoot

def writeLinks (links : List (Path × Path)) : Script Tree :=
  Script.each links fun l => call fun t => symlink k t l.1 l.2

def writeShare (x : Share) : Script Tree := Script.seq (writeFiles k x.files) (writeLinks k x.links)

/-- The `cpuN` entries that are not wanted. -/
def stale (x : Share) (t : Tree) : List Path :=
  x.dirs.flatMap fun n0 =>
    ((listdir k t n0).filter fun s => isCpu s && n0 ++ [s] ∉ x.links.map (·.1)).map (n0 ++ [·])

def dropAll (ps : List Path) : Script Tree := Script.each ps fun p => call fun t => remove t p

def dropStale (x : Share) : Script Tree := Script.ask fun t => dropAll (stale k x t)

/-- All is written, then what is stale goes. -/
def establish (xs : List Share) : Script Tree :=
  Script.seq (Script.each xs (writeShare k)) (Script.each xs (dropStale k))

end Scripts

def allFiles (xs : List Share) : List Wanted := xs.flatMap (·.files)

def allLinks (xs : List Share) : List (Path × Path) := xs.flatMap (·.links)

def allDirs (xs : List Share) : List Path := xs.flatMap (·.dirs)

/-- What is looked at: every file, every link, and that nothing is stale where it counts. -/
structure Settled (k : Kind) (counts : Bool) (xs : List Share) (t : Tree) : Prop where
  files : ∀ f ∈ allFiles xs, read k t f.path f.asRoot = some (some f.text)
  links : ∀ l ∈ allLinks xs, leads k t l.1 l.2 = true
  stale : counts = true → ∀ x ∈ xs, stale k x t = []

/-- Establishing it again does nothing. -/
structure Still (k : Kind) (xs : List Share) (t : Tree) : Prop where
  files : ∀ f ∈ allFiles xs, write k t f.path f.text f.asRoot = some t
  links : ∀ l ∈ allLinks xs, symlink k t l.1 l.2 = some t
  stale : ∀ x ∈ xs, ∀ p ∈ HostFs.stale k x t, remove t p = some t

/-! ### Steps -/

/-- One file or one link. -/
inductive Step where
  | file (f : Wanted)
  | link (l : Path × Path)

namespace Step

def path : Step → Path
  | file f => f.path
  | link l => l.1

def run (k : Kind) (t : Tree) : Step → Option Tree
  | file f => write k t f.path f.text f.asRoot
  | link l => symlink k t l.1 l.2

/-- The step has nothing left to do. -/
def Done (k : Kind) (t : Tree) : Step → Prop
  | file f => Written t f.path f.text
  | link l => Linked k t l.1 l.2

/-- Two steps at one path: a file of one owner, or a link with one target. -/
def Alike : Step → Step → Prop
  | file f, file g => f.asRoot = g.asRoot
  | link l, link m => l.2 = m.2
  | _, _ => False

end Step

def Share.steps (x : Share) : List Step := x.files.map .file ++ x.links.map .link

def allSteps (xs : List Share) : List Step := xs.flatMap Share.steps

/-- The paths stand apart, the directories too, and nothing in them but a link is called `cpuN`. -/
structure Shaped (xs : List Share) : Prop where
  ne : ∀ a ∈ allSteps xs, a.path ≠ []
  apart : ∀ a ∈ allSteps xs, ∀ b ∈ allSteps xs, a.path <+: b.path → a.path = b.path
  alike : ∀ a ∈ allSteps xs, ∀ b ∈ allSteps xs, a.path = b.path → a.Alike b
  shown : ∀ l ∈ allLinks xs, Shown l.2
  above : ∀ n0 ∈ allDirs xs, n0 ≠ [] ∧ ∀ a ∈ allSteps xs, ¬ a.path <+: n0
  dirs : ∀ n0 ∈ allDirs xs, ∀ n1 ∈ allDirs xs, n0 <+: n1 → n0 = n1
  names : ∀ n0 ∈ allDirs xs, ∀ a ∈ allSteps xs, ∀ s, n0 ++ [s] <+: a.path → words s = [s] ∧
    (isCpu s = true → ∃ l, a = .link l ∧ l.1 = n0 ++ [s])

/-- What a machine may hold before: no directory in the place of a file that `install` writes, and over
ssh no entry of a node's directory with a stale name among its words. No text has a carriage return;
several shares agree on the files, and on the links in a directory. -/
structure Settles (k : Kind) (counts : Bool) (xs : List Share) (t : Tree) : Prop where
  free : ∀ f ∈ allFiles xs, installs k f.asRoot = true → t.get f.path ≠ some .dir
  plain : ∀ f ∈ allFiles xs, '\r' ∉ f.text.toList
  agreed : ∀ f ∈ allFiles xs, ∀ g ∈ allFiles xs, f.path = g.path → f.text = g.text
  shared : ∀ x ∈ xs, ∀ n0 ∈ x.dirs, ∀ l ∈ allLinks xs, ∀ s, l.1 = n0 ++ [s] → isCpu s = true →
    l.1 ∈ x.links.map (·.1)
  listed : counts = true → k = .ssh → ∀ x ∈ xs, ∀ n0 ∈ x.dirs, ∀ name ∈ t.names n0,
    ∀ s ∈ words name, isCpu s = true → n0 ++ [s] ∉ x.links.map (·.1) → s = name

variable {k : Kind} {counts : Bool} {xs : List Share} {x : Share} {t t' t₀ : Tree} {a b : Step}
  {f : Wanted} {l : Path × Path} {p q n0 : Path} {s : String}

/-! ### The names -/

lemma file_mem_steps : Step.file f ∈ allSteps xs ↔ f ∈ allFiles xs := by
  simp [allSteps, allFiles, Share.steps]

lemma link_mem_steps : Step.link l ∈ allSteps xs ↔ l ∈ allLinks xs := by
  simp [allSteps, allLinks, Share.steps]

lemma dir_mem (hx : x ∈ xs) (hn : n0 ∈ x.dirs) : n0 ∈ allDirs xs :=
  List.mem_flatMap.mpr ⟨x, hx, hn⟩

lemma isBlank_of_isDigit {c : Char} (h : c.isDigit = true) : isBlank c = false := by
  have hne : ∀ d ∈ [' ', '\t', '\n', '\r', '\x0b', '\x0c', '\u0085', '\u00a0', '\u1680', '\u2028',
      '\u2029', '\u202f', '\u205f', '\u3000'], c ≠ d := by
    rintro d hd rfl
    have hall : [' ', '\t', '\n', '\r', '\x0b', '\x0c', '\u0085', '\u00a0', '\u1680', '\u2028',
        '\u2029', '\u202f', '\u205f', '\u3000'].all (fun d => !d.isDigit) = true := by decide
    simpa [h] using List.all_eq_true.mp hall c hd
  simp only [Char.isDigit, Bool.and_eq_true, decide_eq_true_eq, ge_iff_le, UInt32.le_iff_toNat_le] at h
  have hctrl : ¬ c ≤ '\x1f' := by
    rw [Char.le_def, UInt32.le_iff_toNat_le]
    exact fun hle => absurd (h.1.trans hle) (by decide)
  have hwide : ¬ '\u2000' ≤ c := by
    rw [Char.le_def, UInt32.le_iff_toNat_le]
    exact fun hle => absurd (hle.trans h.2) (by decide)
  simp only [List.forall_mem_cons] at hne
  simp [isBlank, Text.isSpace, hne, hctrl, hwide]

lemma words_of_isCpu (h : isCpu s = true) : words s = [s] := by
  obtain ⟨d, hd, hdigits⟩ := (Option.any_eq_true _ _).mp h
  rw [Text.removePrefix?] at hd
  split_ifs at hd with hcpu
  obtain ⟨rest, hrest⟩ := hcpu
  rw [← Option.some.inj hd, Text.isDigits, Bool.and_eq_true, String.toList_ofList, ← hrest,
    List.drop_left, List.all_eq_true] at hdigits
  refine words_of_forall ?_ fun c hc => ?_
  · rintro rfl
    simp at hrest
  · rw [← hrest, List.mem_append] at hc
    cases hc with
    | inl hmem =>
        have hall : "cpu".toList.all (fun c => !isBlank c) = true := by decide
        simpa using List.all_eq_true.mp hall c hmem
    | inr hmem => exact isBlank_of_isDigit (hdigits.2 c hmem)

/-! ### One step -/

lemma frames_run (hne : a.path ≠ []) (hshown : ∀ l, a = .link l → Shown l.2)
    (h : a.run k t = some t') : t.Frames a.path t' := by
  cases a with
  | file f => exact frames_write hne h
  | link l => exact (linked_of_symlink hne (hshown l rfl) h).2

/-- **A step that succeeds is done**, where `install` finds no directory. -/
lemma done_run (hne : a.path ≠ []) (hshown : ∀ l, a = .link l → Shown l.2)
    (hfree : ∀ f, a = .file f → installs k f.asRoot = true → t.get f.path ≠ some .dir)
    (h : a.run k t = some t') : a.Done k t' := by
  cases a with
  | file f =>
      refine (written_of_write hne h ?_).1
      cases hinst : installs k f.asRoot with
      | true => exact hfree f rfl hinst
      | false => exact not_dir_of_write h hinst
  | link l => exact (linked_of_symlink hne (hshown l rfl) h).1

/-- What is done stays so while nothing changes on the way to it. -/
lemma done_congr (hsame : ∀ r, r <+: a.path → t'.get r = t.get r) (h : a.Done k t) : a.Done k t' := by
  have hground : t.Grounded a.path.dropLast → t'.Grounded a.path.dropLast := fun hg q hne hq => by
    rw [hsame q (hq.trans (List.dropLast_prefix _))]
    exact hg q hne hq
  cases a with
  | file f => exact ⟨(hsame _ List.prefix_rfl).trans h.get, hground h.grounded⟩
  | link l =>
      exact ⟨(keepsLink_congr (hsame _ List.prefix_rfl)).trans h.keeps, fun hk => hground (h.grounded hk)⟩

lemma done_of_aside (haside : Aside a.path p) (hf : t.Frames p t') (h : a.Done k t) : a.Done k t' := by
  cases a with
  | file f => exact written_of_frames haside h hf
  | link l => exact linked_of_frames haside h hf

lemma shown_of_mem (hs : Shaped xs) (ha : a ∈ allSteps xs) : ∀ l, a = .link l → Shown l.2 := by
  rintro l rfl
  exact hs.shown l (link_mem_steps.mp ha)

lemma aside_of_ne (hs : Shaped xs) (ha : a ∈ allSteps xs) (hb : b ∈ allSteps xs)
    (hne : a.path ≠ b.path) :
    Aside a.path b.path :=
  ⟨fun h => hne (hs.apart a ha b hb h), fun h => hne (hs.apart b hb a ha h).symm⟩

/-- A name with spaces in a directory stands aside from every path. -/
lemma aside_of_words (hs : Shaped xs) (hn : n0 ∈ allDirs xs) (ha : a ∈ allSteps xs)
    (hname : words s ≠ [s]) :
    Aside (n0 ++ [s]) a.path := by
  refine ⟨fun h => hname (hs.names n0 hn a ha s h).1, fun h => ?_⟩
  rcases List.prefix_concat_iff.mp h with heq | habove
  · exact hname (hs.names n0 hn a ha s (heq ▸ List.prefix_rfl)).1
  · exact (hs.above n0 hn).2 a ha habove

/-! ### The writes -/

lemma writeAll_eq : Script.each xs (writeShare k) =
    Script.each (allSteps xs) fun a => call fun t => a.run k t := by
  induction xs with
  | nil => rfl
  | cons x xs ih =>
      rw [allSteps, List.flatMap_cons, Script.each_append, Script.each_cons, ih, Share.steps,
        Script.each_append, Script.each_map, Script.each_map]
      rfl

/-- What the writes leave as it was: where a directory stands in the place of a file, and the names with
spaces in the directories. -/
structure Kept (k : Kind) (xs : List Share) (t₀ t : Tree) : Prop where
  dirs : ∀ f ∈ allFiles xs, installs k f.asRoot = true →
    (t.get f.path = some .dir ↔ t₀.get f.path = some .dir)
  names : ∀ n0 ∈ allDirs xs, ∀ s, words s ≠ [s] → t.get (n0 ++ [s]) = t₀.get (n0 ++ [s])

lemma kept_run (hs : Shaped xs) (ha : a ∈ allSteps xs) (h : a.run k t = some t') (hkept : Kept k xs t₀ t) :
    Kept k xs t₀ t' := by
  have hframes := frames_run (hs.ne a ha) (shown_of_mem hs ha) h
  refine ⟨fun f hf hinst => ?_, fun n0 hn s hname => ?_⟩
  · rw [← hkept.dirs f hf hinst]
    by_cases hpath : a.path = f.path
    · have halike := hs.alike a ha _ (file_mem_steps.mpr hf) hpath
      cases a with
      | link l => exact halike.elim
      | file g =>
          have hg : g.path = f.path := hpath
          rw [← hg]
          exact dir_write_iff (hs.ne _ ha) h
    · have haside := aside_of_ne hs (file_mem_steps.mpr hf) ha (Ne.symm hpath)
      rw [show t'.get f.path = t.get f.path from get_of_frames haside hframes]
  · rw [get_of_frames (aside_of_words hs hn ha hname) hframes, hkept.names n0 hn s hname]

/-- **What the writes keep.** -/
lemma kept_of_writes (hs : Shaped xs) (h : (Script.each xs (writeShare k)).Ends t t') : Kept k xs t t' := by
  rw [writeAll_eq] at h
  have hspec : Script.Spec (Kept k xs t) (Script.each (allSteps xs) fun a => call fun t => a.run k t)
      (fun _ => True) (Kept k xs t) := by
    refine Script.Spec.each_mem (fun a ha => ⟨fun _ _ => trivial, fun hkept hends => ?_⟩)
      fun _ _ => trivial
    exact kept_run hs ha (ends_call.mp hends) hkept
  exact hspec.ends ⟨fun _ _ _ => Iff.rfl, fun _ _ _ _ => rfl⟩ h

/-- A step leaves done what was. -/
lemma done_of_run (hs : Shaped xs)
    (hagreed : ∀ f ∈ allFiles xs, ∀ g ∈ allFiles xs, f.path = g.path → f.text = g.text)
    (ha : a ∈ allSteps xs) (hb : b ∈ allSteps xs) (h : a.run k t = some t') (hdone : a.Done k t')
    (hbefore : b.Done k t) : b.Done k t' := by
  by_cases hpath : a.path = b.path
  · have halike := hs.alike a ha b hb hpath
    cases a with
    | file f =>
        cases b with
        | link m => exact halike.elim
        | file g =>
            have hg : f.path = g.path := hpath
            have htext := hagreed f (file_mem_steps.mp ha) g (file_mem_steps.mp hb) hg
            have hwritten : Written t' f.path f.text := hdone
            rw [hg, htext] at hwritten
            exact hwritten
    | link l =>
        cases b with
        | file g => exact halike.elim
        | link m =>
            have hlinked : Linked k t' l.1 l.2 := hdone
            rw [show l.1 = m.1 from hpath, show l.2 = m.2 from halike] at hlinked
            exact hlinked
  · exact done_of_aside (aside_of_ne hs hb ha (Ne.symm hpath))
      (frames_run (hs.ne a ha) (shown_of_mem hs ha) h) hbefore

/-- While `rest` is to come, every step before it is done. -/
def DoneBefore (k : Kind) (xs : List Share) (t₀ : Tree) (rest : List Step) (t : Tree) : Prop :=
  Kept k xs t₀ t ∧ ∀ before, allSteps xs = before ++ rest → ∀ b ∈ before, b.Done k t

/-- **The writes get everything done**, where nothing is in the way of `install` and the shares agree. -/
lemma done_of_writes (hs : Shaped xs)
    (hagreed : ∀ f ∈ allFiles xs, ∀ g ∈ allFiles xs, f.path = g.path → f.text = g.text)
    (hfree : ∀ f ∈ allFiles xs, installs k f.asRoot = true → t.get f.path ≠ some .dir)
    (h : (Script.each xs (writeShare k)).Ends t t') : ∀ a ∈ allSteps xs, a.Done k t' := by
  rw [writeAll_eq] at h
  have hspec : Script.Spec (DoneBefore k xs t (allSteps xs))
      (Script.each (allSteps xs) fun a => call fun t => a.run k t) (fun _ => True)
      (DoneBefore k xs t []) := by
    refine Script.Spec.each_split (fun before a rest hsplit =>
      ⟨fun _ _ => trivial, fun {u u'} hinv hends => ?_⟩) fun _ _ => trivial
    have ha : a ∈ allSteps xs := by simp [hsplit]
    have hrun := ends_call.mp hends
    have hdone : a.Done k u' := by
      refine done_run (hs.ne a ha) (shown_of_mem hs ha) ?_ hrun
      rintro f rfl hinst hdir
      have hf := file_mem_steps.mp ha
      exact hfree f hf hinst ((hinv.1.dirs f hf hinst).mp hdir)
    refine ⟨kept_run hs ha hrun hinv.1, fun before' hsplit' b hb => ?_⟩
    have hbefore : before' = before ++ [a] := by
      have hlists : before' ++ rest = before ++ [a] ++ rest := by
        rw [← hsplit', hsplit]
        simp
      exact List.append_cancel_right hlists
    rw [hbefore, List.mem_append, List.mem_singleton] at hb
    rcases hb with hb | rfl
    · have hmem : b ∈ allSteps xs := by simp [hsplit, hb]
      exact done_of_run hs hagreed ha hmem hrun hdone (hinv.2 before hsplit b hb)
    · exact hdone
  have hstart : ∀ before, allSteps xs = before ++ allSteps xs → ∀ b ∈ before, b.Done k t := by
    intro before hbefore
    rw [List.self_eq_append_left.mp hbefore]
    simp
  exact (hspec.ends ⟨⟨fun _ _ _ => Iff.rfl, fun _ _ _ _ => rfl⟩, hstart⟩ h).2 (allSteps xs) (by simp)

/-! ### The stale entries -/

lemma mem_stale : p ∈ stale k x t ↔ ∃ n0 ∈ x.dirs, ∃ s ∈ listdir k t n0, isCpu s = true ∧
    n0 ++ [s] ∉ x.links.map (·.1) ∧ p = n0 ++ [s] := by
  simp only [stale, List.mem_flatMap, List.mem_map, List.mem_filter, Bool.and_eq_true,
    decide_eq_true_eq, and_assoc, eq_comm (a := p)]

/-- What is left after the entries of a list are removed. -/
lemma ends_dropAll {ps : List Path} (h : (dropAll ps).Ends t t') (q : Path) :
    t'.get q = if q ∈ ps then none else t.get q := by
  induction ps generalizing t with
  | nil =>
      rw [dropAll, Script.each_nil, Script.ends_skip] at h
      simp [h]
  | cons p ps ih =>
      obtain ⟨u, hfirst, hrest⟩ := Script.ends_seq.mp h
      obtain ⟨-, rfl⟩ := remove_eq_some.mp (ends_call.mp hfirst)
      rw [ih hrest, Tree.get_erase]
      by_cases hq : q = p <;> simp [hq]

/-- Nothing changed but that stale entries are gone. -/
def Dropped (xs : List Share) (t t' : Tree) : Prop :=
  ∀ q, t'.get q = t.get q ∨ t'.get q = none ∧
    ∃ x ∈ xs, ∃ n0 ∈ x.dirs, ∃ s, isCpu s = true ∧ q = n0 ++ [s] ∧ q ∉ x.links.map (·.1)

lemma Dropped.trans {u : Tree} (h : Dropped xs t t') (h' : Dropped xs t' u) : Dropped xs t u := by
  intro q
  rcases h' q with heq | hgone
  · rw [heq]
    exact h q
  · exact Or.inr hgone

lemma dropped_of_dropStale (hx : x ∈ xs) (h : (dropStale k x).Ends t t') : Dropped xs t t' := by
  rw [dropStale, Script.ends_ask] at h
  intro q
  rw [ends_dropAll h q]
  split_ifs with hq
  · obtain ⟨n0, hn, s, -, hcpu, hnot, rfl⟩ := mem_stale.mp hq
    exact Or.inr ⟨rfl, x, hx, n0, hn, s, hcpu, rfl, hnot⟩
  · exact Or.inl rfl

/-- The directories themselves stay. -/
lemma Dropped.dir (hs : Shaped xs) (h : Dropped xs t t') (hn : n0 ∈ allDirs xs) :
    t'.get n0 = t.get n0 := by
  refine (h n0).resolve_right ?_
  rintro ⟨-, x, hx, n1, hn1, s, -, hpath, -⟩
  have heq := hs.dirs n1 (dir_mem hx hn1) n0 hn (hpath ▸ List.prefix_append n1 [s])
  rw [heq] at hpath
  simp at hpath

lemma Dropped.word (h : Dropped xs t t') (hname : words s ≠ [s]) :
    t'.get (n0 ++ [s]) = t.get (n0 ++ [s]) := by
  refine (h (n0 ++ [s])).resolve_right ?_
  rintro ⟨-, x, -, n1, -, s', hcpu, hpath, -⟩
  rw [(List.append_singleton_inj.mp hpath).2] at hname
  exact hname (words_of_isCpu hcpu)

lemma Dropped.file (hs : Shaped xs) (h : Dropped xs t t') (hf : f ∈ allFiles xs) :
    t'.get f.path = t.get f.path := by
  refine (h f.path).resolve_right ?_
  rintro ⟨-, x, hx, n1, hn1, s, hcpu, hpath, -⟩
  obtain ⟨l, hl, -⟩ := (hs.names n1 (dir_mem hx hn1) _ (file_mem_steps.mpr hf) s
    (hpath ▸ List.prefix_rfl)).2 hcpu
  cases hl

/-- What is done stays done, where no share has a stale entry that another wants. -/
lemma Dropped.done (hs : Shaped xs) (h : Dropped xs t t')
    (hshared : ∀ x ∈ xs, ∀ n0 ∈ x.dirs, ∀ l ∈ allLinks xs, ∀ s, l.1 = n0 ++ [s] → isCpu s = true →
      l.1 ∈ x.links.map (·.1)) (ha : a ∈ allSteps xs) (hdone : a.Done k t) : a.Done k t' := by
  refine done_congr (fun r hr => (h r).resolve_right ?_) hdone
  rintro ⟨-, x, hx, n1, hn1, s, hcpu, rfl, hnot⟩
  obtain ⟨l, rfl, hpath⟩ := (hs.names n1 (dir_mem hx hn1) a ha s hr).2 hcpu
  exact hnot (hpath ▸ hshared x hx n1 hn1 l (link_mem_steps.mp ha) s hpath hcpu)

/-- Fewer entries are listed. -/
lemma listdir_subset (hdir : t'.get n0 = t.get n0) (hnames : ∀ s ∈ t'.names n0, s ∈ t.names n0)
    (hmem : s ∈ listdir k t' n0) : s ∈ listdir k t n0 := by
  unfold listdir at hmem ⊢
  rw [List.mem_mergeSort] at hmem ⊢
  rw [hdir] at hmem
  cases k with
  | here =>
      cases hget : t.get n0 with
      | none => simpa [hget] using hnames s (by simpa [hget] using hmem)
      | some e => cases e <;> simp_all
  | ssh =>
      have hflat : s ∈ (t'.names n0).flatMap words → s ∈ (t.names n0).flatMap words := by
        intro hs
        obtain ⟨name, hname, hword⟩ := List.mem_flatMap.mp hs
        exact List.mem_flatMap.mpr ⟨name, hnames name hname, hword⟩
      cases hget : t.get n0 with
      | none => simpa [hget] using hflat (by simpa [hget] using hmem)
      | some e =>
          cases e with
          | file text => simpa [hget] using hmem
          | link target behind => simpa [hget] using hflat (by simpa [hget] using hmem)
          | dir => simpa [hget] using hflat (by simpa [hget] using hmem)

/-- What is stale afterwards was stale before. -/
lemma Dropped.stale_subset (hs : Shaped xs) (h : Dropped xs t t') (hx : x ∈ xs)
    (hp : p ∈ stale k x t') : p ∈ stale k x t := by
  obtain ⟨n0, hn, s, hmem, hcpu, hnot, rfl⟩ := mem_stale.mp hp
  refine mem_stale.mpr ⟨n0, hn, s, listdir_subset (h.dir hs (dir_mem hx hn)) ?_ hmem, hcpu, hnot, rfl⟩
  intro name hname
  rw [Tree.mem_names] at hname ⊢
  rcases h (n0 ++ [name]) with heq | hgone
  · rwa [← heq]
  · simp [hgone.1] at hname

/-- While `rest` is to come, what a share before it would remove is not there. -/
def DroppedBefore (k : Kind) (xs : List Share) (t₀ : Tree) (rest : List Share) (t : Tree) : Prop :=
  Dropped xs t₀ t ∧ ∀ before, xs = before ++ rest → ∀ x ∈ before, ∀ p ∈ stale k x t, t.get p = none

/-- **The removals**: nothing but stale entries go, and what looks stale afterwards is not there. -/
lemma dropped_of_drops (hs : Shaped xs) (h : (Script.each xs (dropStale k)).Ends t t') :
    Dropped xs t t' ∧ ∀ x ∈ xs, ∀ p ∈ stale k x t', t'.get p = none := by
  have hspec : Script.Spec (DroppedBefore k xs t xs) (Script.each xs (dropStale k)) (fun _ => True)
      (DroppedBefore k xs t []) := by
    refine Script.Spec.each_split (fun before x rest hsplit =>
      ⟨fun _ _ => trivial, fun {u u'} hinv hends => ?_⟩) fun _ _ => trivial
    have hx : x ∈ xs := by simp [hsplit]
    have hdrop := dropped_of_dropStale hx hends
    refine ⟨hinv.1.trans hdrop, fun before' hsplit' y hy p hp => ?_⟩
    have hbefore : before' = before ++ [x] := by
      have hlists : before' ++ rest = before ++ [x] ++ rest := by
        rw [← hsplit', hsplit]
        simp
      exact List.append_cancel_right hlists
    rw [hbefore, List.mem_append, List.mem_singleton] at hy
    rcases hy with hy | rfl
    · have hstale := hdrop.stale_subset hs (by simp [hsplit, hy]) hp
      have hnone := hinv.2 before hsplit y hy p hstale
      rcases hdrop p with heq | hgone
      · rw [heq, hnone]
      · exact hgone.1
    · have hstale := hdrop.stale_subset hs hx hp
      rw [dropStale, Script.ends_ask] at hends
      rw [ends_dropAll hends p, if_pos hstale]
  have hstart : ∀ before, xs = before ++ xs → ∀ x ∈ before, ∀ p ∈ stale k x t, t.get p = none := by
    intro before hbefore
    rw [List.self_eq_append_left.mp hbefore]
    simp
  obtain ⟨hdropped, hgone⟩ := hspec.ends ⟨fun _ => Or.inl rfl, hstart⟩ h
  exact ⟨hdropped, fun x hx => hgone xs (by simp) x hx⟩

/-! ### All as wanted -/

/-- A text that is read has no carriage return. -/
lemma plain_of_read {asRoot : Bool} {text : String} (h : read k t p asRoot = some (some text)) :
    '\r' ∉ text.toList := by
  rw [read] at h
  cases hget : t.get p with
  | none => simp [hget] at h
  | some e =>
      cases e with
      | file written =>
          simp only [hget, Option.some_inj] at h
          exact h ▸ notMem_newlines written
      | link target behind =>
          simp only [hget, Option.some_inj] at h
          obtain ⟨written, -, hread⟩ := Option.map_eq_some_iff.mp h
          exact hread ▸ notMem_newlines written
      | dir => cases hinst : installs k asRoot <;> simp [hget, hinst] at h

/-- A directory is not read. -/
lemma not_dir_of_read {asRoot : Bool} {text : String} (h : read k t p asRoot = some (some text)) :
    t.get p ≠ some .dir := by
  intro hdir
  cases hinst : installs k asRoot <;> simp [read, hdir, hinst] at h

lemma exists_of_leads {target : Path} (h : leads k t p target = true) :
    (t.get p).isSome = true := by
  obtain ⟨text, htext, -⟩ := (Option.any_eq_true _ _).mp h
  rw [readlink] at htext
  cases hget : t.get p with
  | none => simp [hget] at htext
  | some e => rfl

/-- A directory with a file in it is no file. -/
lemma not_file_of_done (hs : Shaped xs)
    (hinside : ∀ n0 ∈ allDirs xs, ∃ f ∈ allFiles xs, n0 <+: f.path.dropLast)
    (hdone : ∀ a ∈ allSteps xs, a.Done k t) (hn : n0 ∈ allDirs xs) :
    ∀ text, t.get n0 ≠ some (.file text) := by
  intro text hget
  obtain ⟨f, hf, hbelow⟩ := hinside n0 hn
  have hwritten : Written t f.path f.text := hdone _ (file_mem_steps.mpr hf)
  have hpass := hwritten.grounded n0 (hs.above n0 hn).1 hbelow
  simp [hget, Entry.passable] at hpass

/-- An entry whose name has a stale word counts as stale. -/
lemma not_mem_listdir (hstale : stale k x t = []) (hn : n0 ∈ x.dirs) (hcpu : isCpu s = true)
    (hnot : n0 ++ [s] ∉ x.links.map (·.1)) : s ∉ listdir k t n0 := fun hmem =>
  List.eq_nil_iff_forall_not_mem.mp hstale _ (mem_stale.mpr ⟨n0, hn, s, hmem, hcpu, hnot, rfl⟩)

/-- **After `establish` all is as wanted exactly when** nothing was in the way, and the shares agree. -/
theorem settled_iff (hs : Shaped xs)
    (hinside : counts = true → ∀ n0 ∈ allDirs xs, ∃ f ∈ allFiles xs, n0 <+: f.path.dropLast)
    (hlinks : counts = false → allLinks xs = []) (h : (establish k xs).Ends t t') :
    Settled k counts xs t' ↔ Settles k counts xs t := by
  obtain ⟨u, hwrites, hdrops⟩ := Script.ends_seq.mp h
  have hkept := kept_of_writes hs hwrites
  obtain ⟨hdropped, hgone⟩ := dropped_of_drops hs hdrops
  constructor
  · intro hset
    have hagreed : ∀ f ∈ allFiles xs, ∀ g ∈ allFiles xs, f.path = g.path → f.text = g.text := by
      intro f hf g hg hpath
      have hroot : f.asRoot = g.asRoot :=
        hs.alike _ (file_mem_steps.mpr hf) _ (file_mem_steps.mpr hg) hpath
      have hread := hset.files f hf
      rw [hpath, hroot, hset.files g hg] at hread
      exact (Option.some.inj (Option.some.inj hread)).symm
    have hfree : ∀ f ∈ allFiles xs, installs k f.asRoot = true → t.get f.path ≠ some .dir := by
      intro f hf hinst hdir
      refine not_dir_of_read (hset.files f hf) ?_
      rw [hdropped.file hs hf]
      exact (hkept.dirs f hf hinst).mpr hdir
    have hdone := done_of_writes hs hagreed hfree hwrites
    have hlisted : counts = true → ∀ x ∈ xs, ∀ n0 ∈ x.dirs, ∀ text, t'.get n0 ≠ some (.file text) := by
      intro hc x hx n0 hn
      rw [hdropped.dir hs (dir_mem hx hn)]
      exact not_file_of_done hs (hinside hc) hdone (dir_mem hx hn)
    refine ⟨hfree, fun f hf => plain_of_read (hset.files f hf), hagreed, ?_, ?_⟩
    · intro x hx n0 hn l hl s hpath hcpu
      cases hc : counts with
      | false => simp [hlinks hc] at hl
      | true =>
          by_contra hnot
          refine not_mem_listdir (hset.stale hc x hx) hn hcpu (hpath ▸ hnot) ?_
          have hthere : s ∈ t'.names n0 := by
            rw [Tree.mem_names, ← hpath]
            exact exists_of_leads (hset.links l hl)
          refine (mem_listdir (hlisted hc x hx n0 hn)).mpr ⟨s, hthere, ?_⟩
          cases k with
          | here => rfl
          | ssh => simp [words_of_isCpu hcpu]
    · rintro hc rfl x hx n0 hn name hname s hword hcpu hnot
      by_contra hne
      have hwords : words name ≠ [name] := by
        intro hone
        rw [hone, List.mem_singleton] at hword
        exact hne hword
      refine not_mem_listdir (hset.stale hc x hx) hn hcpu hnot ?_
      refine (mem_listdir (hlisted hc x hx n0 hn)).mpr ⟨name, ?_, hword⟩
      rw [Tree.mem_names, hdropped.word hwords, hkept.names n0 (dir_mem hx hn) name hwords]
      exact Tree.mem_names.mp hname
  · intro hset
    have hdone : ∀ a ∈ allSteps xs, a.Done k t' := fun a ha =>
      hdropped.done hs hset.shared ha (done_of_writes hs hset.agreed hset.free hwrites a ha)
    refine ⟨fun f hf => ?_, fun l hl => ?_, fun hc x hx => ?_⟩
    · have hwritten : Written t' f.path f.text := hdone _ (file_mem_steps.mpr hf)
      rw [read_written hwritten, newlines_eq_self.mpr (hset.plain f hf)]
    · exact Linked.leads (hdone _ (link_mem_steps.mpr hl))
    · rw [List.eq_nil_iff_forall_not_mem]
      intro p hp
      have hnone := hgone x hx p hp
      obtain ⟨n0, hn, s, hmem, hcpu, hnot, rfl⟩ := mem_stale.mp hp
      have hfile := not_file_of_done hs (hinside hc) hdone (dir_mem hx hn)
      obtain ⟨name, hname, hword⟩ := (mem_listdir hfile).mp hmem
      have hthere := Tree.mem_names.mp hname
      -- the name of an entry that is there still is not one that was removed
      have hne : s ≠ name := by
        rintro rfl
        simp [hnone] at hthere
      cases k with
      | here => exact hne hword
      | ssh =>
          have hwords : words name ≠ [name] := by
            intro hone
            have hin : s ∈ words name := hword
            rw [hone, List.mem_singleton] at hin
            exact hne hin
          rw [hdropped.word hwords, hkept.names n0 (dir_mem hx hn) name hwords] at hthere
          exact hne (hset.listed hc rfl x hx n0 hn name (Tree.mem_names.mpr hthere) s hword hcpu hnot)

/-- **Where nothing was in the way, establishing it again does nothing.** -/
theorem still_of_settles (hs : Shaped xs) (h : (establish k xs).Ends t t')
    (hset : Settles k counts xs t) : Still k xs t' := by
  obtain ⟨u, hwrites, hdrops⟩ := Script.ends_seq.mp h
  obtain ⟨hdropped, hgone⟩ := dropped_of_drops hs hdrops
  have hdone : ∀ a ∈ allSteps xs, a.Done k t' := fun a ha =>
    hdropped.done hs hset.shared ha (done_of_writes hs hset.agreed hset.free hwrites a ha)
  exact ⟨fun f hf => write_same (hdone _ (file_mem_steps.mpr hf)),
    fun l hl => symlink_same (hdone _ (link_mem_steps.mpr hl)),
    fun x hx p hp => remove_same (hgone x hx p hp)⟩

/-! ### Once more -/

/-- A call that does nothing, in a loop. -/
lemma spec_call_same {f : Tree → Option Tree} (h : f t = some t) :
    Script.Spec (fun u => u = t) (call f) (fun u => u = t) fun u => u = t where
  stops hs ht := by
    subst hs
    exact (reaches_call_same h).mp ht
  ends hs ht := by
    subst hs
    exact (reaches_call_same h).mp ht.reaches

lemma reaches_writeShare (h : Still k xs t) (hx : x ∈ xs) (hreaches : (writeShare k x).Reaches t t') :
    t' = t := by
  have hfiles : Script.Spec (fun u => u = t) (writeFiles k x.files) (fun u => u = t) fun u => u = t :=
    Script.Spec.each_keeps fun f hf => spec_call_same (h.files f (List.mem_flatMap.mpr ⟨x, hx, hf⟩))
  have hlinks : Script.Spec (fun u => u = t) (writeLinks k x.links) (fun u => u = t) fun u => u = t :=
    Script.Spec.each_keeps fun l hl => spec_call_same (h.links l (List.mem_flatMap.mpr ⟨x, hx, hl⟩))
  exact (hfiles.seq hlinks).stops rfl hreaches

lemma reaches_dropStale (h : Still k xs t) (hx : x ∈ xs) (hreaches : (dropStale k x).Reaches t t') :
    t' = t := by
  have hdrops : Script.Spec (fun u => u = t) (dropAll (stale k x t)) (fun u => u = t) fun u => u = t :=
    Script.Spec.each_keeps fun p hp => spec_call_same (h.stale x hx p hp)
  exact hdrops.stops rfl hreaches

end Tk8s.HostFs
