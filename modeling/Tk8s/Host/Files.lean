import Tk8s.Lib.FileTree
import Tk8s.Lib.Script
import Tk8s.Lib.Text

/-!
`host.py`: the files of a machine, as `Host` and `SshHost` write, read, link, list and remove them.

* `write`, `read`, `symlink`, `readlink`, `listdir`, `remove`: the calls; `none` where one fails, or
  raises what its caller does not catch.
* `written_of_write`, `linked_of_symlink`: **what a call that succeeds leaves behind**.
* `write_same`, `symlink_same`: a call whose result is there already changes nothing.
* `dir_write_iff`: **`install` takes a directory in the place of the file for its target**.
* `read_of_write`: **what was written is read back** where nothing was in the way, and the text has no
  carriage return.

A link above the files stands for a directory of its own, one in the place of a file leads to a file
or to nothing.
-/

namespace Tk8s.HostFs

open FileTree

/-- The machine tkctl runs on (`Host`), or one reached with ssh (`SshHost`). -/
inductive Kind where
  | here
  | ssh
deriving DecidableEq, Repr

/-! ### Texts -/

/-- What `str.split()` and `str.strip()` take for a space. -/
def isBlank (c : Char) : Bool :=
  Text.isSpace c || c = '\u0085' || c = '\u00a0' || c = '\u1680' || ('\u2000' ≤ c && c ≤ '\u200a')
    || c = '\u2028' || c = '\u2029' || c = '\u202f' || c = '\u205f' || c = '\u3000'

/-- `text.split()`. -/
def words (text : String) : List String :=
  ((text.toList.splitOnP isBlank).map String.ofList).filter (· ≠ "")

/-- `text.strip()`. -/
def strip (text : String) : String :=
  String.ofList (((text.toList.dropWhile isBlank).reverse.dropWhile isBlank).reverse)

def newlinesFrom : List Char → List Char
  | [] => []
  | '\r' :: '\n' :: rest => '\n' :: newlinesFrom rest
  | c :: rest => (if c = '\r' then '\n' else c) :: newlinesFrom rest

/-- What Python reads of a text: every kind of line end is a newline. -/
def newlines (text : String) : String := String.ofList (newlinesFrom text.toList)

/-- `Path(text)`: the slashes it starts with, and its components. -/
def pure (text : String) : ℕ × List String :=
  let slashes := (text.toList.takeWhile (· = '/')).length
  (if 2 < slashes then 1 else slashes, (Text.splitOn '/' text).filter fun c => c ≠ "" && c ≠ ".")

/-- `a.is_relative_to(b)`. -/
def isRelativeTo (a b : String) : Bool := (pure a).1 = (pure b).1 && (pure b).2 <+: (pure a).2

/-! ### The calls -/

/-- `install -D -m MODE /dev/stdin PATH`: into a directory when there is one at the path. -/
def install (t : Tree) (p : Path) (text : String) : Option Tree :=
  if t.get p = some .dir then
    if t.get (p ++ ["stdin"]) = some .dir then none else some (t.put (p ++ ["stdin"]) (.file text))
  else (t.mkdirs [] p.dropLast).map fun t => t.put p (.file text)

/-- Whether a file is written with `install`: over ssh, and under sudo. -/
def installs (k : Kind) (asRoot : Bool) : Bool := k = .ssh || asRoot

/-- `write`: with `install`, or through a file that replaces the one there. -/
def write (k : Kind) (t : Tree) (p : Path) (text : String) (asRoot : Bool) : Option Tree :=
  if installs k asRoot then install t p text
  else (t.mkdirs [] p.dropLast).bind fun t =>
    if t.get p = some .dir then none else some (t.put p (.file text))

/-- `read`; a directory is no file, and an error without a `cat`. -/
def read (k : Kind) (t : Tree) (p : Path) (asRoot : Bool) : Option (Option String) :=
  match t.get p with
  | none => some none
  | some (.file text) => some (some (newlines text))
  | some (.link _ behind) => some (behind.map newlines)
  | some .dir => if installs k asRoot then some none else none

/-- `readlink`: the text of a link; over ssh without the spaces around it. -/
def readlink (k : Kind) (t : Tree) (p : Path) : Option String :=
  match t.get p with
  | some (.link text _) =>
      match k with
      | .here => some text
      | .ssh => if strip text = "" then none else some (strip text)
  | _ => none

/-- The link is there, as `readlink` shows it. -/
def leads (k : Kind) (t : Tree) (p target : Path) : Bool :=
  (readlink k t p).any fun text => pure text = pure target.text

/-- The link that `symlink` leaves as it is: by its text, over ssh by its path. -/
def keepsLink (k : Kind) (t : Tree) (p target : Path) : Bool :=
  match k with
  | .here => readlink .here t p = some target.text
  | .ssh => leads .ssh t p target

/-- `symlink`: whatever stands there goes. -/
def symlink (k : Kind) (t : Tree) (p target : Path) : Option Tree :=
  let replaced := fun t : Tree => (t.eraseAll p).put p (.link target.text none)
  match k with
  | .here => (t.mkdirs [] p.dropLast).map fun t =>
      if keepsLink .here t p target then t else replaced t
  | .ssh => if keepsLink .ssh t p target then some t else (t.mkdirs [] p.dropLast).map replaced

/-- `listdir`: the names, sorted; over ssh the words that `ls -1A` prints. -/
def listdir (k : Kind) (t : Tree) (dir : Path) : List String :=
  let listed :=
    match k, t.get dir with
    | .here, some (.file _) => []
    | .ssh, some (.file _) => words dir.text
    | .here, _ => t.names dir
    | .ssh, _ => (t.names dir).flatMap words
  listed.mergeSort fun a b => a ≤ b

/-- `remove`. -/
def remove (t : Tree) (p : Path) : Option Tree :=
  if t.get p = some .dir then none else some (t.erase p)

/-- A call in a script, which does not get past one that fails. -/
def call (f : Tree → Option Tree) : Script Tree :=
  Script.ask fun t =>
    match f t with
    | some t' => Script.command fun _ => t'
    | none => Script.fail

/-! ### Reading texts back -/

lemma notMem_newlinesFrom (cs : List Char) : '\r' ∉ newlinesFrom cs := by
  fun_induction newlinesFrom cs with
  | case1 => simp
  | case2 rest ih => simpa using ih
  | case3 c rest hne ih =>
      rw [List.mem_cons, not_or]
      refine ⟨?_, ih⟩
      split_ifs with hc
      · decide
      · exact fun h => hc h.symm

lemma newlinesFrom_eq_self {cs : List Char} (h : '\r' ∉ cs) : newlinesFrom cs = cs := by
  fun_induction newlinesFrom cs with
  | case1 => rfl
  | case2 rest ih => simp at h
  | case3 c rest hne ih =>
      rw [List.mem_cons, not_or] at h
      rw [if_neg (Ne.symm h.1), ih h.2]

/-- What is read holds no carriage return. -/
lemma notMem_newlines (text : String) : '\r' ∉ (newlines text).toList := by
  rw [newlines, String.toList_ofList]
  exact notMem_newlinesFrom _

/-- **A text is read as it was written exactly when** it has no carriage return. -/
theorem newlines_eq_self {text : String} : newlines text = text ↔ '\r' ∉ text.toList := by
  constructor
  · intro h
    rw [← h]
    exact notMem_newlines _
  · intro h
    rw [newlines, newlinesFrom_eq_self h, String.ofList_toList]

/-! ### Words -/

/-- A text without spaces is a word. -/
lemma words_of_forall {text : String} (hne : text ≠ "") (h : ∀ c ∈ text.toList, isBlank c = false) :
    words text = [text] := by
  have hsplit : text.toList.splitOnP isBlank = [text.toList] :=
    List.splitOnP_eq_singleton fun c hc => by simp [h c hc]
  rw [words, hsplit]
  simp [hne]

/-- A word has no spaces. -/
lemma not_isBlank_of_mem_words {text s : String} (h : s ∈ words text) :
    ∀ c ∈ s.toList, isBlank c = false := by
  rw [words, List.mem_filter, List.mem_map] at h
  obtain ⟨⟨piece, hpiece, rfl⟩, -⟩ := h
  rw [String.toList_ofList]
  exact Text.not_of_mem_splitOnP hpiece

/-- A word of a text is a word by itself. -/
lemma words_of_mem_words {text s : String} (h : s ∈ words text) : words s = [s] :=
  words_of_forall (by simpa using (List.mem_filter.mp h).2) (not_isBlank_of_mem_words h)

/-! ### Calls in a script -/

section Call

variable {f : Tree → Option Tree} {t t' : Tree}

lemma ends_call : (call f).Ends t t' ↔ f t = some t' := by
  rw [call, Script.ends_ask]
  cases hf : f t <;> simp [eq_comm]

/-- A call that changes nothing. -/
lemma reaches_call_same (h : f t = some t) : (call f).Reaches t t' ↔ t' = t := by
  rw [call, Script.reaches_ask, h]
  simp

end Call

/-! ### What a call leaves behind -/

variable {k : Kind} {t t' : Tree} {p q target : Path} {text : String} {asRoot : Bool}

/-- A file with this text, in a directory that is there. -/
structure Written (t : Tree) (p : Path) (text : String) : Prop where
  get : t.get p = some (.file text)
  grounded : t.Grounded p.dropLast

lemma dropLast_ne (hp : p ≠ []) : p.dropLast ≠ p := by
  intro h
  have hlen : p.dropLast.length = p.length := congrArg List.length h
  have hpos : 0 < p.length := List.length_pos_iff.mpr hp
  rw [List.length_dropLast] at hlen
  omega

lemma not_prefix_dropLast (hp : p ≠ []) (h : q <+: p.dropLast) : ¬ p <+: q := by
  intro hpq
  exact dropLast_ne hp ((hpq.trans h).eq_of_length_le (List.dropLast_prefix p).length_le).symm

/-- A step that leaves the directories above alone. -/
lemma grounded_of_frames (hp : p ≠ []) (h : t.Grounded p.dropLast) (hf : t.Frames p t') :
    t'.Grounded p.dropLast :=
  fun q hne hq => hf.passable q (not_prefix_dropLast hp hq) (h q hne hq)

lemma written_put (hp : p ≠ []) (h : t.mkdirs [] p.dropLast = some t') :
    Written (t'.put p (.file text)) p text ∧ t.Frames p (t'.put p (.file text)) := by
  have hput := Tree.frames_put t' p (.file text)
  exact ⟨⟨Tree.get_put_self _, grounded_of_frames hp (Tree.grounded_of_mkdirs h) hput⟩,
    (Tree.frames_mkdirs h).trans hput⟩

/-- **What a write that succeeds leaves behind**, where no directory is in its place. -/
theorem written_of_write (hp : p ≠ []) (h : write k t p text asRoot = some t')
    (hdir : t.get p ≠ some .dir) : Written t' p text ∧ t.Frames p t' := by
  rw [write] at h
  split_ifs at h with hinst
  · rw [install, if_neg hdir, Option.map_eq_some_iff] at h
    obtain ⟨t₁, hmk, rfl⟩ := h
    exact written_put hp hmk
  · obtain ⟨t₁, hmk, h⟩ := Option.bind_eq_some_iff.mp h
    split_ifs at h with hdir'
    rw [← Option.some.inj h]
    exact written_put hp hmk

/-- Without `install`, a directory in its place is an error. -/
lemma not_dir_of_write (h : write k t p text asRoot = some t') (hinst : installs k asRoot = false) :
    t.get p ≠ some .dir := by
  intro hdir
  rw [write, hinst] at h
  obtain ⟨t₁, hmk, h⟩ := Option.bind_eq_some_iff.mp h
  split_ifs at h with hdir'
  refine hdir' ?_
  cases Tree.mkdirs_get hmk p with
  | inl heq => rw [heq, hdir]
  | inr hnew => exact hnew.2.1

/-- `install` into a directory: a file called `stdin` in it. -/
lemma frames_install_dir (hdir : t.get p = some .dir) (h : write k t p text asRoot = some t') :
    t'.get p = some .dir ∧ t.Frames p t' := by
  have hinst : installs k asRoot = true := by
    by_contra hno
    exact not_dir_of_write h (by simpa using hno) hdir
  rw [write, if_pos hinst, install, if_pos hdir] at h
  split_ifs at h with hdir'
  rw [← Option.some.inj h]
  have hne : p ≠ p ++ ["stdin"] := by simp
  refine ⟨by rw [Tree.get_put_of_ne hne, hdir], Tree.frames_of_below fun q hq => ?_⟩
  refine Tree.get_put_of_ne ?_
  rintro rfl
  exact hq (List.prefix_append _ _)

lemma frames_write (hp : p ≠ []) (h : write k t p text asRoot = some t') : t.Frames p t' := by
  by_cases hdir : t.get p = some .dir
  · exact (frames_install_dir hdir h).2
  · exact (written_of_write hp h hdir).2

/-- **`install` takes a directory in the place of the file for its target**: it is there afterwards
exactly when it was there before. -/
theorem dir_write_iff (hp : p ≠ []) (h : write k t p text asRoot = some t') :
    t'.get p = some .dir ↔ t.get p = some .dir := by
  constructor
  · intro hdir'
    by_contra hdir
    rw [(written_of_write hp h hdir).1.get] at hdir'
    cases hdir'
  · exact fun hdir => (frames_install_dir hdir h).1

/-- **A file that is there is not changed.** -/
theorem write_same (h : Written t p text) : write k t p text asRoot = some t := by
  have hdir : t.get p ≠ some .dir := by rw [h.get]; simp
  have hmk : t.mkdirs [] p.dropLast = some t := Tree.mkdirs_of_grounded h.grounded
  simp [write, install, hdir, hmk, Tree.put_of_get h.get]

lemma read_written (h : Written t p text) : read k t p asRoot = some (some (newlines text)) := by
  rw [read, h.get]

/-- **What was written is read back exactly when** it has no carriage return and no directory is in
its place. -/
theorem read_of_write (hp : p ≠ []) (h : write k t p text asRoot = some t') :
    read k t' p asRoot = some (some text) ↔ '\r' ∉ text.toList ∧ t.get p ≠ some .dir := by
  by_cases hdir : t.get p = some .dir
  · refine iff_of_false ?_ fun hno => hno.2 hdir
    rw [read, (frames_install_dir hdir h).1]
    cases installs k asRoot <;> simp
  · rw [read_written (written_of_write hp h hdir).1, ← newlines_eq_self]
    simp [hdir]

/-- Two paths of which neither is above the other. -/
def Aside (p q : Path) : Prop := ¬ p <+: q ∧ ¬ q <+: p

lemma Aside.symm (h : Aside p q) : Aside q p := ⟨h.2, h.1⟩

lemma get_of_frames (hpq : Aside p q) (h : t.Frames q t') : t'.get p = t.get p :=
  h.apart p hpq.1 hpq.2

/-- A step elsewhere leaves the directories above alone. -/
lemma grounded_of_aside (hpq : Aside p q) (h : t.Grounded p.dropLast) (hf : t.Frames q t') :
    t'.Grounded p.dropLast :=
  fun a hne ha => hf.passable a (fun hqa => hpq.2 ((hqa.trans ha).trans (List.dropLast_prefix p)))
    (h a hne ha)

lemma written_of_frames (hpq : Aside p q) (h : Written t p text) (hf : t.Frames q t') :
    Written t' p text :=
  ⟨(get_of_frames hpq hf).trans h.get, grounded_of_aside hpq h.grounded hf⟩

/-- A link that `symlink` keeps; on this machine its directory is looked for. -/
structure Linked (k : Kind) (t : Tree) (p target : Path) : Prop where
  keeps : keepsLink k t p target = true
  grounded : k = .here → t.Grounded p.dropLast

/-- The text of a path that a link shows as it is. -/
def Shown (target : Path) : Prop := target.text ≠ "" ∧ strip target.text = target.text

lemma Linked.leads (h : Linked k t p target) : leads k t p target = true := by
  have hkeeps := h.keeps
  cases k with
  | here =>
      rw [keepsLink, decide_eq_true_eq] at hkeeps
      simp [HostFs.leads, hkeeps]
  | ssh => exact hkeeps

lemma readlink_congr (h : t'.get p = t.get p) : readlink k t' p = readlink k t p := by
  rw [readlink, readlink, h]

lemma keepsLink_congr (h : t'.get p = t.get p) :
    keepsLink k t' p target = keepsLink k t p target := by
  cases k <;> simp only [keepsLink, HostFs.leads, readlink_congr h]

lemma keepsLink_of_get (htarget : Shown target) (hget : t.get p = some (.link target.text none)) :
    keepsLink k t p target = true := by
  cases k with
  | here => simp [keepsLink, readlink, hget]
  | ssh => simp [keepsLink, HostFs.leads, readlink, hget, htarget.1, htarget.2]

lemma linked_of_frames (hpq : Aside p q) (h : Linked k t p target) (hf : t.Frames q t') :
    Linked k t' p target :=
  ⟨(keepsLink_congr (get_of_frames hpq hf)).trans h.keeps,
    fun hk => grounded_of_aside hpq (h.grounded hk) hf⟩

/-- A link in the place of what stood there. -/
lemma linked_replaced (hp : p ≠ []) (htarget : Shown target)
    (hmk : t.mkdirs [] p.dropLast = some t') :
    Linked k ((t'.eraseAll p).put p (.link target.text none)) p target ∧
      t.Frames p ((t'.eraseAll p).put p (.link target.text none)) := by
  have hframes := (Tree.frames_eraseAll t' p).trans
    (Tree.frames_put (t'.eraseAll p) p (.link target.text none))
  exact ⟨⟨keepsLink_of_get htarget (Tree.get_put_self _),
    fun _ => grounded_of_frames hp (Tree.grounded_of_mkdirs hmk) hframes⟩,
    (Tree.frames_mkdirs hmk).trans hframes⟩

/-- **What a `symlink` that succeeds leaves behind.** -/
theorem linked_of_symlink (hp : p ≠ []) (htarget : Shown target)
    (h : symlink k t p target = some t') : Linked k t' p target ∧ t.Frames p t' := by
  cases k with
  | here =>
      obtain ⟨t₁, hmk, hlinked⟩ := Option.map_eq_some_iff.mp h
      by_cases hkeeps : keepsLink .here t₁ p target = true
      · rw [if_pos hkeeps] at hlinked
        rw [← hlinked]
        exact ⟨⟨hkeeps, fun _ => Tree.grounded_of_mkdirs hmk⟩, Tree.frames_mkdirs hmk⟩
      · rw [if_neg hkeeps] at hlinked
        rw [← hlinked]
        exact linked_replaced hp htarget hmk
  | ssh =>
      rw [symlink] at h
      by_cases hkeeps : keepsLink .ssh t p target = true
      · rw [if_pos hkeeps] at h
        rw [← Option.some.inj h]
        exact ⟨⟨hkeeps, nofun⟩, Tree.Frames.refl t p⟩
      · rw [if_neg hkeeps] at h
        obtain ⟨t₁, hmk, hlinked⟩ := Option.map_eq_some_iff.mp h
        rw [← hlinked]
        exact linked_replaced hp htarget hmk

/-- **A link that is there is not changed.** -/
theorem symlink_same (h : Linked k t p target) : symlink k t p target = some t := by
  cases k with
  | here => simp [symlink, Tree.mkdirs_of_grounded (h.grounded rfl), h.keeps]
  | ssh => simp [symlink, h.keeps]

lemma remove_eq_some : remove t p = some t' ↔ t.get p ≠ some .dir ∧ t' = t.erase p := by
  rw [remove]
  split_ifs with hdir
  · simp [hdir]
  · simp [hdir, eq_comm]

/-- Removing what is not there changes nothing. -/
lemma remove_same (h : t.get p = none) : remove t p = some t :=
  remove_eq_some.mpr ⟨by simp [h], (Tree.erase_of_get h).symm⟩

/-! ### What is listed -/

/-- On this machine the names in a directory are listed, over ssh the words of each. -/
lemma mem_listdir {dir : Path} {s : String} (hdir : ∀ text, t.get dir ≠ some (.file text)) :
    s ∈ listdir k t dir ↔ ∃ name ∈ t.names dir,
      match k with
      | .here => s = name
      | .ssh => s ∈ words name := by
  unfold listdir
  rw [List.mem_mergeSort]
  cases k <;> cases hget : t.get dir with
  | none => simp
  | some e => cases e <;> simp_all

end Tk8s.HostFs
