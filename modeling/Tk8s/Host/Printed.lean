import Tk8s.Host.Ssh
import Tk8s.Lib.Shell
import Tk8s.Model

/-!
`host.py` and `hosts.py`: the `$` line a host prints, and what it runs.

* `parseSsh`, `SshTarget.label`, `buildHost`: the targets of `cluster.yaml` and the hosts made of
  them, for a run and for a dry run.
* `showLine`: the line; `Shell.split` reads it back. `split_shellJoin`: **a joined command line
  splits into its words**.
* `printed_iff`: **the line says what runs, and the dry run prints it too, exactly for the hosts
  without an ssh target and for the targets without a port that the shell reads as they stand**.
-/

namespace Tk8s

open Shell

/-! ### Targets and hosts -/

/-- `\s` of a pattern over text. -/
def isPatternSpace (c : Char) : Bool :=
  Text.isSpace c || c = '\u0085' || c = '\u00a0' || c = '\u1680'
    || ('\u2000' ≤ c && c ≤ '\u200a') || c = '\u2028' || c = '\u2029' || c = '\u202f'
    || c = '\u205f' || c = '\u3000'

/-- `[^@\s:]+`. -/
def isTargetPart (text : String) : Bool :=
  text ≠ "" && text.toList.all fun c => c ≠ '@' && !isPatternSpace c && c ≠ ':'

/-- `parse_ssh`: `[user@]host[:port]`, or nothing where it raises. -/
def parseSsh (text : String) : Option SshTarget :=
  let (user, rest) : Option String × String :=
    if '@' ∈ text.toList then
      (some (Text.partition '@' text).1, (Text.partition '@' text).2)
    else (none, text)
  let (host, port) : String × Option String :=
    if ':' ∈ rest.toList then
      ((Text.partition ':' rest).1, some (Text.partition ':' rest).2)
    else (rest, none)
  if user.all isTargetPart && isTargetPart host && port.all Text.isDigits then
    some ⟨user, host, port.map Text.number⟩
  else none

/-- The port option; port 0 is none. -/
def SshTarget.portArgs (t : SshTarget) : List String :=
  match t.port with
  | some p => if p = 0 then [] else ["-p", toString p]
  | none => []

/-- What the `$ ssh` line shows of the target. -/
def SshTarget.label (t : SshTarget) : String :=
  match t.port with
  | some p => if p = 0 then t.text else s!"-p {p} {t.text}"
  | none => t.text

/-- `hosts.HostsError` of a target that cannot be read. -/
structure BadTarget where
  host : HostName
  ssh : String
deriving DecidableEq

/-- What `build` makes of a host: the operator itself, a host over ssh, or one that only prints. -/
inductive BuiltHost where
  | operator
  | overSsh (host : SshHost)
  | printing (label : String)

/-- One round of `hosts.build`. -/
def buildHost (controlDir : String) (dryRun : Bool) (h : UserHost) : Except BadTarget BuiltHost :=
  match h.ssh with
  | none => .ok .operator
  | some ssh =>
      match parseSsh ssh with
      | none => .error ⟨h.name, ssh⟩
      | some target =>
          .ok (if dryRun then .printing target.text
            else .overSsh { target := target, controlDir := controlDir })

/-! ### The line -/

def BuiltHost.label : BuiltHost → Option String
  | operator => none
  | overSsh h => some h.target.label
  | printing label => some label

/-- `Host._show`. -/
def showLine (label : Option String) (argv : List String) (asRoot : Bool)
    (env : List (String × String)) : String :=
  let full := fullArgv argv asRoot env
  match label with
  | none => "  $ " ++ shellJoin full
  | some label => s!"  $ ssh {label} {shellQuote (shellJoin full)}"

def BuiltHost.line (h : BuiltHost) (argv : List String) (asRoot : Bool)
    (env : List (String × String)) : String := showLine h.label argv asRoot env

/-- Behind the prompt, the line splits into these words. -/
def LineReads (line : String) (words : List String) : Prop :=
  ∃ text, line = "  $ " ++ text ∧ split text = some words

/-- The options before the port. -/
def SshHost.options (h : SshHost) : List String :=
  ["-o", "BatchMode=yes", "-o", "ControlMaster=auto", "-o", "ControlPersist=60", "-o",
    s!"ControlPath={h.controlDir}/ssh-%C"]

/-- The line says what runs: the command itself on the operator; over ssh the port, the destination
and one word of the command line that runs, and that word is the command. -/
def BuiltHost.Says (argv : List String) (asRoot : Bool) (env : List (String × String))
    (line : String) : BuiltHost → Prop
  | operator => LineReads line (fullArgv argv asRoot env)
  | overSsh h => ∃ word,
      h.remoteArgv argv asRoot env =
        h.ssh :: (h.options ++ h.target.portArgs ++ [h.target.text, word]) ∧
      LineReads line ("ssh" :: (h.target.portArgs ++ [h.target.text, word])) ∧
      split word = some (fullArgv argv asRoot env)
  | printing _ => False

/-- **The printed line is the executed command**, and the line of the dry run. -/
def UserHost.Printed (controlDir : String) (h : UserHost) : Prop :=
  ∀ argv asRoot env, ∃ real dry, buildHost controlDir false h = .ok real ∧
    buildHost controlDir true h = .ok dry ∧ real.Says argv asRoot env (real.line argv asRoot env) ∧
    dry.line argv asRoot env = real.line argv asRoot env

/-! ### Quoting undone -/

lemma isOrdinary_of_safe {c : Char}
    (h : (c.isAlphanum || "@%+=:,./-_".toList.contains c) = true) :
    isOrdinary c = true ∧ isLeading c = false := by
  have hout : ("'\"\\ \t\n|&;<>()$`*?[#~".toList.any fun d =>
      d.isAlphanum || "@%+=:,./-_".toList.contains d) = false := by decide
  have hne : ∀ d ∈ "'\"\\ \t\n|&;<>()$`*?[#~".toList, c ≠ d := by
    rintro d hd rfl
    exact List.any_eq_false.mp hout c hd h
  simp only [String.reduceToList, List.forall_mem_cons] at hne
  simp [isOrdinary, isQuoting, isBlank, isSpecial, isLeading, hne]

/-- Inside the quotes of `shlex.quote`, a quote of the text is closed, quoted and opened again. -/
lemma read_escaped {words : List String} {word text : List Char} :
    read ⟨words, some word, .single⟩
        (text.flatMap fun c => if c = '\'' then "'\"'\"'".toList else [c]) =
      some ⟨words, some (word ++ text), .single⟩ := by
  induction text generalizing word with
  | nil => simp
  | cons c text ih =>
      rw [List.flatMap_cons, read_append]
      have hc : read ⟨words, some word, .single⟩
          (if c = '\'' then "'\"'\"'".toList else [c]) =
          some ⟨words, some (word ++ [c]), .single⟩ := by
        by_cases h : c = '\''
        · subst h
          simp [step, Reader.quote, Reader.push, Reader.current]
        · simp [h, step, Reader.push, Reader.current]
      rw [hc, Option.bind_some, ih, List.append_assoc]
      rfl

/-- `shlex.quote` reads as the word it quotes. -/
lemma reads_shellQuote (s : String) : Reads (shellQuote s) s := by
  rw [shellQuote]
  split_ifs with hempty hsafe
  · intro words
    simp [hempty, step, Reader.after, Reader.quote, Reader.current]
  · have hall := List.all_eq_true.mp hsafe
    refine Plain.reads ⟨fun c hc => (isOrdinary_of_safe (hall c hc)).1, ?_⟩
    obtain ⟨c, text, htext⟩ := List.exists_cons_of_ne_nil
      (fun hnil => hempty (String.toList_eq_nil_iff.mp hnil))
    refine ⟨c, by rw [htext]; rfl, (isOrdinary_of_safe (hall c ?_)).2⟩
    rw [htext]
    exact List.mem_cons_self
  · intro words
    simp only [String.toList_append, String.toList_ofList]
    have hopen : read (.after words) "'".toList = some ⟨words, some [], .single⟩ := rfl
    rw [List.append_assoc, read_append, hopen, Option.bind_some, read_append, read_escaped,
      Option.bind_some]
    simp [step, Reader.quote, Reader.current]

/-- **A joined command line splits into its words**. -/
theorem split_shellJoin (argv : List String) : split (shellJoin argv) = some argv := by
  refine split_intercalate ?_
  induction argv with
  | nil => exact .nil
  | cons word argv ih => exact .cons (reads_shellQuote word) ih

/-! ### What a target can hold -/

lemma of_isTargetPart {text : String} (h : isTargetPart text = true) :
    text ≠ "" ∧ ∀ c ∈ text.toList, isBlank c = false ∧ c ≠ '\n' := by
  simp only [isTargetPart, Bool.and_eq_true, decide_eq_true_eq, List.all_eq_true] at h
  refine ⟨h.1, fun c hc => ?_⟩
  obtain ⟨⟨-, hspace⟩, -⟩ := h.2 c hc
  have hne : ∀ d ∈ [' ', '\t', '\n'], c ≠ d := by
    rintro d hd rfl
    have hall : [' ', '\t', '\n'].all isPatternSpace = true := by decide
    simp [List.all_eq_true.mp hall c hd] at hspace
  simp only [List.forall_mem_cons] at hne
  exact ⟨by simp [isBlank, hne], hne.2.2.1⟩

/-- The text of a target that was read is not empty and holds no blank. -/
lemma text_of_parseSsh {text : String} {t : SshTarget} (h : parseSsh text = some t) :
    t.text ≠ "" ∧ ∀ c ∈ t.text.toList, isBlank c = false ∧ c ≠ '\n' := by
  simp only [parseSsh] at h
  obtain ⟨hparts, ht⟩ := Option.ite_none_right_eq_some.mp h
  obtain rfl := Option.some.inj ht
  simp only [Bool.and_eq_true] at hparts
  obtain ⟨⟨huser, hhost⟩, -⟩ := hparts
  obtain ⟨hne, hchars⟩ := of_isTargetPart hhost
  simp only [SshTarget.text]
  split
  · rename_i user heq
    rw [heq] at huser
    have huserChars := (of_isTargetPart huser).2
    refine ⟨by simp, fun c hc => ?_⟩
    simp only [String.toList_append, List.mem_append] at hc
    obtain (hc | hc) | hc := hc
    · exact huserChars c hc
    · obtain rfl : c = '@' := by simpa using hc
      decide
    · exact hchars c hc
  · exact ⟨hne, hchars⟩

/-! ### The two lines -/

section Lines

variable {t : SshTarget} {argv : List String} {asRoot : Bool} {env : List (String × String)}

lemma plain_repr (n : ℕ) : Plain n.repr := by
  have hsafe : ∀ c ∈ n.repr.toList, isOrdinary c = true ∧ isLeading c = false := by
    intro c hc
    refine isOrdinary_of_safe ?_
    simp [Char.isAlphanum, Text.isDigit_of_mem_repr hc]
  have hne : n.repr.toList ≠ [] := by simp
  obtain ⟨c, text, htext⟩ := List.exists_cons_of_ne_nil hne
  refine ⟨fun c hc => (hsafe c hc).1, c, by rw [htext]; rfl, (hsafe c ?_).2⟩
  rw [htext]
  exact List.mem_cons_self

/-- The command line over ssh: options, port, destination, the command as one word. -/
lemma remoteArgv_eq (h : SshHost) : h.remoteArgv argv asRoot env =
    h.ssh :: (h.options ++ h.target.portArgs ++
      [h.target.text, shellJoin (fullArgv argv asRoot env)]) := rfl

lemma showLine_some (label : String) : showLine (some label) argv asRoot env =
    "  $ ssh " ++ label ++ " " ++ shellQuote (shellJoin (fullArgv argv asRoot env)) := rfl

lemma label_port {p : ℕ} (h : t.port = some p) (hp : p ≠ 0) :
    t.label = "-p " ++ p.repr ++ " " ++ t.text := by
  simp only [SshTarget.label, h, if_neg hp]
  rfl

/-- The line names the same port and destination, blanks between them. -/
lemma showLine_label : showLine (some t.label) argv asRoot env =
    "  $ " ++ " ".intercalate ("ssh" :: (t.portArgs ++
      [t.text, shellQuote (shellJoin (fullArgv argv asRoot env))])) := by
  rw [showLine_some]
  refine String.toList_injective ?_
  cases hport : t.port with
  | none => simp [SshTarget.label, SshTarget.portArgs, hport, String.intercalate_cons_cons]
  | some p =>
      by_cases hp : p = 0
      · simp [SshTarget.label, SshTarget.portArgs, hport, hp, String.intercalate_cons_cons]
      · have hshow : toString p = p.repr := rfl
        rw [label_port hport hp]
        simp [SshTarget.portArgs, hport, hp, hshow, String.intercalate_cons_cons]

/-- What a line with a label has to split into, over its words. -/
lemma says_of_plain (h : SshHost) (hplain : Plain h.target.text) :
    (BuiltHost.overSsh h).Says argv asRoot env
      ((BuiltHost.overSsh h).line argv asRoot env) := by
  refine ⟨_, remoteArgv_eq h, ⟨_, showLine_label, split_intercalate ?_⟩, split_shellJoin _⟩
  have hssh : Plain "ssh" := ⟨List.all_eq_true.mp (by decide), 's', rfl, rfl⟩
  have hport : List.Forall₂ Reads h.target.portArgs h.target.portArgs := by
    rw [SshTarget.portArgs]
    split
    · split_ifs
      · exact .nil
      · exact .cons (Plain.reads ⟨List.all_eq_true.mp (by decide), '-', rfl, rfl⟩) (.cons (plain_repr _).reads .nil)
    · exact .nil
  exact .cons hssh.reads (List.rel_append hport
    (.cons hplain.reads (.cons (reads_shellQuote _) .nil)))

/-- Behind `ssh` and no port, the line has to split the target off as itself. -/
lemma plain_of_lineReads {word : String}
    (ht : t.text ≠ "" ∧ ∀ c ∈ t.text.toList, isBlank c = false ∧ c ≠ '\n')
    (h : LineReads (showLine (some t.text) argv asRoot env) ["ssh", t.text, word]) :
    Plain t.text := by
  obtain ⟨text, hline, hsplit⟩ := h
  obtain ⟨r, hread, -, hclosed⟩ := split_eq_some.mp hsplit
  have htext : text.toList = "ssh ".toList ++
      (t.text.toList ++ ' ' :: (shellQuote (shellJoin (fullArgv argv asRoot env))).toList) := by
    have hchars := congrArg String.toList hline
    simp only [showLine_some, String.toList_append, String.reduceToList, List.append_assoc,
      List.cons_append, List.nil_append, List.cons.injEq, true_and] at hchars
    simp [← hchars]
  have hssh : read (.after []) "ssh ".toList = some (.after ["ssh"]) := by decide
  rw [htext, read_append, hssh, Option.bind_some] at hread
  exact plain_of_read ht.1 ht.2 hread (by rw [hclosed]; exact ⟨[word], rfl⟩)

/-- Two labels that print the same are the same. -/
lemma showLine_inj {a b : String} :
    showLine (some a) argv asRoot env = showLine (some b) argv asRoot env ↔ a = b := by
  refine ⟨fun h => ?_, fun h => h ▸ rfl⟩
  have hchars := congrArg String.toList h
  exact String.toList_injective (by simpa [showLine_some] using hchars)

/-- The dry run's label is the target's own exactly where there is no port. -/
lemma label_eq_text : t.text = t.label ↔ t.port = none ∨ t.port = some 0 := by
  cases hport : t.port with
  | none => simp [SshTarget.label, hport]
  | some p =>
      by_cases hp : p = 0
      · simp [SshTarget.label, hport, hp]
      · simp only [hp, reduceCtorEq, Option.some.injEq, or_self, iff_false]
        intro heq
        rw [label_port hport hp] at heq
        have hlen := congrArg (fun s => s.toList.length) heq
        simp at hlen
        omega

end Lines

/-! ### When the line is the executed command -/

/-- **For a host whose ssh target can be read, the `$` line is the executed command, and the dry
run's line, exactly when it has no ssh target, or one without a port that the shell reads as it
stands**. -/
theorem printed_iff (controlDir : String) (h : UserHost)
    (hread : ∀ ssh, h.ssh = some ssh → (parseSsh ssh).isSome = true) :
    h.Printed controlDir ↔ ∀ ssh t, h.ssh = some ssh → parseSsh ssh = some t →
      Plain t.text ∧ (t.port = none ∨ t.port = some 0) := by
  cases hssh : h.ssh with
  | none =>
      refine ⟨fun _ ssh t hnone => by simp at hnone, fun _ argv asRoot env => ?_⟩
      refine ⟨.operator, .operator, by simp [buildHost, hssh], by simp [buildHost, hssh], ?_, rfl⟩
      exact ⟨_, rfl, split_shellJoin _⟩
  | some ssh =>
      obtain ⟨t, ht⟩ := Option.isSome_iff_exists.mp (hread ssh hssh)
      have hreal : buildHost controlDir false h =
          .ok (.overSsh { target := t, controlDir := controlDir }) := by
        simp [buildHost, hssh, ht]
      have hdry : buildHost controlDir true h = .ok (.printing t.text) := by
        simp [buildHost, hssh, ht]
      constructor
      · intro hall ssh' t' hssh' ht'
        obtain rfl := Option.some.inj hssh'
        obtain rfl := Option.some.inj (ht.symm.trans ht')
        obtain ⟨real, dry, hreal', hdry', hsays, hsame⟩ := hall [] false []
        obtain rfl := Except.ok.inj (hreal.symm.trans hreal')
        obtain rfl := Except.ok.inj (hdry.symm.trans hdry')
        have hlabel : t.text = t.label := showLine_inj.mp hsame
        have hport := label_eq_text.mp hlabel
        refine ⟨?_, hport⟩
        obtain ⟨word, -, hline, -⟩ := hsays
        have hnoPort : t.portArgs = [] := by
          rcases hport with hport | hport <;> simp [SshTarget.portArgs, hport]
        rw [← hsame] at hline
        simp only [hnoPort, List.nil_append] at hline
        exact plain_of_lineReads (text_of_parseSsh ht) hline
      · intro hall argv asRoot env
        obtain ⟨hplain, hport⟩ := hall ssh t rfl ht
        refine ⟨_, _, hreal, hdry, says_of_plain _ hplain, ?_⟩
        exact showLine_inj.mpr (label_eq_text.mpr hport)

/-- `b=tux@192.168.1.231`. -/
def plainHost : UserHost := ⟨⟨"b", by decide⟩, some "tux@192.168.1.231"⟩

theorem printed_plainHost : plainHost.Printed "/run/user/1000/tk8s" := by
  have hread : parseSsh "tux@192.168.1.231" = some ⟨some "tux", "192.168.1.231", none⟩ := by
    decide
  refine (printed_iff _ _ ?_).mpr ?_
  · rintro ssh ⟨⟩
    rw [hread]
    rfl
  · rintro ssh t ⟨⟩ ht
    obtain rfl := Option.some.inj (hread.symm.trans ht)
    exact ⟨⟨List.all_eq_true.mp (by decide), 't', rfl, rfl⟩, Or.inl rfl⟩

/-- `b=tux@h:2222`. -/
def portHost : UserHost := ⟨⟨"b", by decide⟩, some "tux@h:2222"⟩

/-- The dry run prints `$ ssh tux@h true`, the run `$ ssh -p 2222 tux@h true`. -/
theorem not_printed_portHost : (∀ ssh, portHost.ssh = some ssh → (parseSsh ssh).isSome = true) ∧
    ¬ portHost.Printed "/run/user/1000/tk8s" := by
  have hread : parseSsh "tux@h:2222" = some ⟨some "tux", "h", some 2222⟩ := by decide
  refine ⟨?_, fun h => ?_⟩
  · rintro ssh ⟨⟩
    rw [hread]
    rfl
  · obtain ⟨real, dry, hreal, hdry, -, hsame⟩ := h ["true"] false []
    obtain rfl : BuiltHost.overSsh _ = real := Except.ok.inj (by
      rw [← hreal]; simp only [buildHost, portHost, hread]; rfl)
    obtain rfl : BuiltHost.printing _ = dry := Except.ok.inj (by
      rw [← hdry]; simp only [buildHost, portHost, hread]; rfl)
    exact absurd hsame (by decide)

end Tk8s
