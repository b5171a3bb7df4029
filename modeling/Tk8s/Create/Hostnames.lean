import Tk8s.Node.Edits

/-!
`create/preflight.py`: `check_hostnames`, and `phases.py`: the hosts it goes over.

* `Connection`, `HostContext`: the connections of a context, and the machines they reach.
* `checkHostnames`: the loop, with the first owner of every hostname.
* `checkHostnames_ok_iff`: **it accepts exactly when** no machine over ssh answers to the hostname of
  one listed before it.
* `hostnamesExact_iff`: **it refuses exactly the machines that answer alike**, unless the operator's own
  entry is the second of the two, or a machine is listed twice.
-/

namespace Tk8s

variable {M : Type}

/-! ### The loop -/

/-- A `Host` of a context: the operator's own, or one over ssh, with the machine it reaches. -/
inductive Connection (M : Type) where
  | own
  | ssh (machine : M)

def Connection.isOwn : Connection M → Bool
  | .own => true
  | .ssh _ => false

/-- A context with a cluster, its connections, and what `hostname` prints on each machine. -/
structure HostContext (M : Type) where
  cluster : Cluster
  operator : M
  hosts : List (String × Connection M)
  prints : M → String

namespace HostContext

variable (x : HostContext M)

def machine : Connection M → M
  | .own => x.operator
  | .ssh m => m

/-- `local_hostname`: a dry run has no host to ask. -/
def localHostname (m : M) : String :=
  let name := Text.strip (x.prints m)
  if name = "" then "dry-run" else name

/-- The hostname a connection answers with. -/
def answers (e : String × Connection M) : String := x.localHostname (x.machine e.2)

/-- `node_hosts`. -/
def nodeHosts : Except Raised (List (String × Connection M)) := do
  if x.cluster.multiHost then
    x.cluster.hostNames.forM fun n => Checked.refuseIf (x.hosts.lookup n).isNone
      (.phaseFailed s!"host {n} of cluster {x.cluster.name} has no connection")
    x.cluster.hostNames.mapM fun n => do
      let h ← Checked.ofOption (.keyError n) (x.hosts.lookup n)
      return (n, h)
  else return [("", .own)]

/-- The loop: `seen` holds the first owner of every hostname. -/
def checkFrom : List (String × Connection M) → List (String × String) → Except Raised Unit
  | [], _ => .ok ()
  | e :: rest, seen => do
      let hn := x.answers e
      match seen.lookup hn with
      | none => checkFrom rest (seen ++ [(hn, e.1)])
      | some first => do
          Checked.refuseIf
            (first ≠ e.1 ∧ ¬ (e.2.isOwn = true ∧ first ∈ x.hosts.map (·.1)))
            (.preflightError (s!"hosts {first} and {e.1} both answer to hostname {hn}; tkctl tells the "
              ++ "operator apart by hostname, so give each host its own"))
          checkFrom rest seen

/-- `check_hostnames`. -/
def checkHostnames : Except Raised Unit := do
  let hosts ← x.nodeHosts
  x.checkFrom (hosts ++ [("operator", .own)]) []

/-! ### What it looks for -/

/-- A context with a connection for every host of a cluster on several, whose names are distinct. -/
structure Connected (entries : List (String × Connection M)) : Prop where
  multi : x.cluster.multiHost = true
  names : x.cluster.hostNames.Nodup
  entries : x.nodeHosts = .ok entries

/-- One entry is listed before another. -/
def Before (entries : List (String × Connection M)) (e' e : String × Connection M) : Prop :=
  [e', e].Sublist entries

/-- `check_hostnames` refuses the hosts. -/
def Refuses : Prop := ∃ message, x.checkHostnames = .error (.preflightError message)

/-- Two machines among the node hosts and the operator have the same hostname. -/
def AnswerAlike (entries : List (String × Connection M)) : Prop :=
  ∃ m ∈ entries.map (fun e => x.machine e.2) ++ [x.operator],
    ∃ m' ∈ entries.map (fun e => x.machine e.2) ++ [x.operator],
      m ≠ m' ∧ x.localHostname m = x.localHostname m'

/-- Two listed machines have the same hostname, the later one reached over ssh. -/
def Clash (entries : List (String × Connection M)) : Prop :=
  ∃ e' e, Before entries e' e ∧ e.2.isOwn = false ∧ x.machine e'.2 ≠ x.machine e.2 ∧
    x.answers e' = x.answers e

/-- A machine is listed twice, the second time over ssh. -/
def ListedTwice (entries : List (String × Connection M)) : Prop :=
  ∃ e' e, Before entries e' e ∧ e.2.isOwn = false ∧ x.machine e'.2 = x.machine e.2

/-- A listed machine that is not the operator has the operator's hostname. -/
def LooksLikeOperator (entries : List (String × Connection M)) : Prop :=
  ∃ e ∈ entries, x.machine e.2 ≠ x.operator ∧ x.answers e = x.localHostname x.operator

/-- `check_hostnames` refuses exactly the hosts with two machines that answer alike. -/
def HostnamesExact (entries : List (String × Connection M)) : Prop :=
  x.Refuses ↔ x.AnswerAlike entries

/-! ### What the loop does -/

/-- The hostnames of what was visited, each with the name of one that has it. -/
def Owners (seen : List (String × String)) (visited : List (String × Connection M)) : Prop :=
  (∀ hn, seen.lookup hn = none ↔ ∀ e ∈ visited, x.answers e ≠ hn) ∧
    ∀ hn first, seen.lookup hn = some first → ∃ e ∈ visited, e.1 = first ∧ x.answers e = hn

/-- A later entry is no trouble beside an earlier one. -/
def Apart (e' e : String × Connection M) : Prop := e.2.isOwn = true ∨ x.answers e' ≠ x.answers e

variable {x} {entries visited rest : List (String × Connection M)} {seen : List (String × String)}
  {e e' : String × Connection M}

lemma owners_nil : x.Owners [] [] := by simp [Owners]

lemma lookup_snoc {hn first hn' : String} : (seen ++ [(hn, first)]).lookup hn' =
    (seen.lookup hn').or (if hn' = hn then some first else none) := by
  rw [List.lookup_append]
  congr 1
  by_cases h : hn' = hn
  · simp [h]
  · have hne : (hn' == hn) = false := by simpa using h
    simp [List.lookup_cons, h, hne]

/-- The first owner of a new hostname. -/
lemma Owners.snoc (h : x.Owners seen visited) (hnew : seen.lookup (x.answers e) = none) :
    x.Owners (seen ++ [(x.answers e, e.1)]) (visited ++ [e]) := by
  obtain ⟨hnone, hsome⟩ := h
  constructor
  · intro hn
    rw [lookup_snoc]
    by_cases he : hn = x.answers e
    · subst he
      constructor
      · simp [hnew]
      · exact fun hall => absurd rfl (hall e (by simp))
    · have hne : x.answers e ≠ hn := fun heq => he heq.symm
      simp only [he, if_false, Option.or_none, hnone, List.forall_mem_append, List.forall_mem_singleton]
      exact ⟨fun hall => ⟨hall, hne⟩, And.left⟩
  · intro hn first hfirst
    rw [lookup_snoc] at hfirst
    by_cases he : hn = x.answers e
    · subst he
      rw [hnew] at hfirst
      simp only [if_true, Option.none_or, Option.some.injEq] at hfirst
      exact ⟨e, by simp, hfirst, rfl⟩
    · simp only [he, if_false, Option.or_none] at hfirst
      obtain ⟨e', he', hname, hans⟩ := hsome hn first hfirst
      exact ⟨e', List.mem_append_left _ he', hname, hans⟩

/-- Another owner of a hostname that is known. -/
lemma Owners.again (h : x.Owners seen visited) {first : String}
    (hknown : seen.lookup (x.answers e) = some first) : x.Owners seen (visited ++ [e]) := by
  obtain ⟨hnone, hsome⟩ := h
  constructor
  · intro hn
    rw [hnone, List.forall_mem_append, List.forall_mem_singleton]
    refine ⟨fun hall => ⟨hall, fun heq => ?_⟩, And.left⟩
    have hmissing := (hnone hn).mpr hall
    rw [← heq, hknown] at hmissing
    exact absurd hmissing (by simp)
  · intro hn first' hfirst
    obtain ⟨e', he', hname, hans⟩ := hsome hn first' hfirst
    exact ⟨e', List.mem_append_left _ he', hname, hans⟩

/-- **The loop accepts** exactly when no entry over ssh answers to the hostname of an earlier one. -/
lemma checkFrom_ok_iff (hnames : ((visited ++ rest).map (·.1)).Nodup)
    (hkeys : ∀ e ∈ visited ++ rest, e.1 ∈ x.hosts.map (·.1)) (howners : x.Owners seen visited) :
    x.checkFrom (rest ++ [("operator", .own)]) seen = .ok () ↔
      rest.Pairwise x.Apart ∧ ∀ e' ∈ visited, ∀ e ∈ rest, x.Apart e' e := by
  induction rest generalizing visited seen with
  | nil =>
      simp only [List.nil_append, checkFrom, List.Pairwise.nil, List.not_mem_nil, false_implies,
        implies_true, and_self, iff_true]
      cases hlook : seen.lookup (x.answers ("operator", .own)) with
      | none => rfl
      | some first =>
          obtain ⟨e, he, rfl, -⟩ := howners.2 _ _ hlook
          have hkey : e.1 ∈ x.hosts.map (·.1) := hkeys e (by simpa using he)
          have hexempt : Connection.isOwn (M := M) .own = true := rfl
          rw [Checked.check_bind_eq_ok]
          exact ⟨Checked.refuseIf_eq_ok.mpr fun h => h.2 ⟨hexempt, hkey⟩, rfl⟩
  | cons e rest ih =>
      have hnames' : ((visited ++ [e] ++ rest).map (·.1)).Nodup := by simpa using hnames
      have hkeys' : ∀ e' ∈ visited ++ [e] ++ rest, e'.1 ∈ x.hosts.map (·.1) := by simpa using hkeys
      rw [List.cons_append, checkFrom, List.pairwise_cons]
      cases hlook : seen.lookup (x.answers e) with
      | none =>
          have hfresh : ∀ e' ∈ visited, x.Apart e' e := fun e' he' =>
            Or.inr ((howners.1 _).mp hlook e' he')
          simp only [ih hnames' hkeys' (howners.snoc hlook), List.forall_mem_append,
            List.forall_mem_singleton, List.forall_mem_cons]
          constructor
          · rintro ⟨hrest, hvisited, he⟩
            exact ⟨⟨he, hrest⟩, fun e' he' => ⟨hfresh e' he', hvisited e' he'⟩⟩
          · rintro ⟨⟨he, hrest⟩, hvisited⟩
            exact ⟨hrest, fun e' he' => (hvisited e' he').2, he⟩
      | some first =>
          obtain ⟨owner, howner, rfl, hans⟩ := howners.2 _ _ hlook
          have hne : owner.1 ≠ e.1 := by
            rw [List.map_append, List.nodup_append] at hnames
            exact hnames.2.2 _ (List.mem_map_of_mem howner) _ (by simp)
          have hkey : owner.1 ∈ x.hosts.map (·.1) := hkeys owner (by simp [howner])
          simp only [Checked.check_bind_eq_ok, Checked.refuseIf_eq_ok,
            ih hnames' hkeys' (howners.again hlook), List.forall_mem_append,
            List.forall_mem_singleton, List.forall_mem_cons]
          constructor
          · rintro ⟨hpass, hrest, hvisited, he⟩
            have hown : e.2.isOwn = true := by
              by_contra hnot
              exact hpass ⟨hne, fun h => hnot h.1⟩
            exact ⟨⟨he, hrest⟩, fun e' he' => ⟨Or.inl hown, hvisited e' he'⟩⟩
          · rintro ⟨⟨he, hrest⟩, hvisited⟩
            have hown : e.2.isOwn = true := (hvisited owner howner).1.resolve_right fun h => h hans
            exact ⟨fun h => h.2 ⟨hown, hkey⟩, hrest, fun e' he' => (hvisited e' he').2, he⟩

/-- It raises nothing but a refusal. -/
lemma checkFrom_error {err : Raised} (h : x.checkFrom rest seen = .error err) :
    ∃ message, err = .preflightError message := by
  induction rest generalizing seen with
  | nil => simp [checkFrom] at h
  | cons e rest ih =>
      rw [checkFrom] at h
      cases hlook : seen.lookup (x.answers e) with
      | none =>
          simp only [hlook] at h
          exact ih h
      | some first =>
          simp only [hlook] at h
          rw [Checked.refuseIf] at h
          split at h
          · exact ⟨_, (Except.error.inj h).symm⟩
          · exact ih h

/-- The connections of a context are those of the listed hosts. -/
lemma Connected.mem (h : x.Connected entries) :
    entries.map (·.1) = x.cluster.hostNames ∧ ∀ e ∈ entries, e.1 ∈ x.hosts.map (·.1) := by
  have hnodes := h.entries
  rw [nodeHosts, if_pos h.multi, Checked.check_bind_eq_ok, Checked.mapM_eq_ok] at hnodes
  obtain ⟨-, hpointwise⟩ := hnodes
  have hread : List.Forall₂ (fun n e => n = e.1 ∧ x.hosts.lookup n = some e.2) x.cluster.hostNames
      entries := by
    refine hpointwise.imp fun n e hne => ?_
    simp only [Checked.bind_eq_ok, Checked.ofOption_eq_ok, Checked.pure_eq_ok] at hne
    obtain ⟨c, hc, rfl⟩ := hne
    exact ⟨rfl, hc⟩
  refine ⟨?_, fun e he => ?_⟩
  · have hnames : List.Forall₂ (· = ·) x.cluster.hostNames (entries.map (·.1)) := by
      rw [List.forall₂_map_right_iff]
      exact hread.imp fun n e hne => hne.1
    rw [List.forall₂_eq_eq_eq] at hnames
    exact hnames.symm
  · obtain ⟨n, -, rfl, hlook⟩ := Checked.exists_of_forall₂ hread e he
    obtain ⟨pre, post, hsplit, -⟩ := List.lookup_eq_some_iff.mp hlook
    rw [hsplit]
    simp

/-- **`check_hostnames` accepts** exactly when no machine over ssh answers to the hostname of one listed
before it. -/
theorem checkHostnames_ok_iff (h : x.Connected entries) :
    x.checkHostnames = .ok () ↔ entries.Pairwise x.Apart := by
  obtain ⟨hnames, hkeys⟩ := h.mem
  rw [checkHostnames, h.entries, Checked.ok_bind]
  have hnodup : (entries.map (·.1)).Nodup := hnames ▸ h.names
  have hloop := checkFrom_ok_iff (by simpa using hnodup) (by simpa using hkeys) owners_nil
  simpa using hloop

lemma not_pairwise_apart : ¬ entries.Pairwise x.Apart ↔
    ∃ e' e, Before entries e' e ∧ e.2.isOwn = false ∧ x.answers e' = x.answers e := by
  rw [List.pairwise_iff_forall_sublist]
  simp only [Apart, Before, not_forall, not_or, Bool.not_eq_true, not_not, exists_prop]

lemma refuses_iff (h : x.Connected entries) : x.Refuses ↔ x.Clash entries ∨ x.ListedTwice entries := by
  have hnot : x.Refuses ↔ ¬ x.checkHostnames = .ok () := by
    constructor
    · rintro ⟨message, hmessage⟩ hok
      rw [hmessage] at hok
      exact absurd hok (by simp)
    · intro hfail
      cases hresult : x.checkHostnames with
      | ok u => exact absurd hresult hfail
      | error err =>
          have hloop := hresult
          rw [checkHostnames, h.entries, Checked.ok_bind] at hloop
          obtain ⟨message, rfl⟩ := checkFrom_error hloop
          exact ⟨message, hresult⟩
  rw [hnot, checkHostnames_ok_iff h, not_pairwise_apart]
  constructor
  · rintro ⟨e', e, hbefore, hssh, hans⟩
    by_cases hsame : x.machine e'.2 = x.machine e.2
    · exact Or.inr ⟨e', e, hbefore, hssh, hsame⟩
    · exact Or.inl ⟨e', e, hbefore, hssh, hsame, hans⟩
  · rintro (⟨e', e, hbefore, hssh, -, hans⟩ | ⟨e', e, hbefore, hssh, hsame⟩)
    · exact ⟨e', e, hbefore, hssh, hans⟩
    · exact ⟨e', e, hbefore, hssh, by rw [answers, answers, hsame]⟩

lemma Before.mem (h : Before entries e' e) : e' ∈ entries ∧ e ∈ entries :=
  ⟨h.subset (by simp), h.subset (by simp)⟩

/-- Two entries of a list, one before the other. -/
lemma before_or_before (he' : e' ∈ entries) (he : e ∈ entries) (hne : e' ≠ e) :
    Before entries e' e ∨ Before entries e e' := by
  induction entries with
  | nil => simp at he
  | cons a rest ih =>
      rcases List.mem_cons.mp he' with rfl | hin'
      · have hin : e ∈ rest := (List.mem_cons.mp he).resolve_left (Ne.symm hne)
        exact Or.inl ((List.singleton_sublist.mpr hin).cons_cons _)
      · rcases List.mem_cons.mp he with rfl | hin
        · exact Or.inr ((List.singleton_sublist.mpr hin').cons_cons _)
        · exact (ih hin' hin).imp (List.Sublist.cons a) (List.Sublist.cons a)

lemma answerAlike_iff : x.AnswerAlike entries ↔ x.Clash entries ∨ x.LooksLikeOperator entries := by
  have hown : ∀ e : String × Connection M, e.2.isOwn = true → x.machine e.2 = x.operator := by
    rintro ⟨n, c⟩ hc
    cases c with
    | own => rfl
    | ssh m => simp [Connection.isOwn] at hc
  constructor
  · -- the later of two entries is the operator's own, or one over ssh
    have hpair : ∀ e' e, Before entries e' e → x.machine e'.2 ≠ x.machine e.2 →
        x.answers e' = x.answers e → x.Clash entries ∨ x.LooksLikeOperator entries := by
      intro e' e hbefore hne hans
      by_cases hc : e.2.isOwn = true
      · refine Or.inr ⟨e', hbefore.mem.1, by rwa [← hown e hc], ?_⟩
        rw [hans, answers, hown e hc]
      · exact Or.inl ⟨e', e, hbefore, by simpa using hc, hne, hans⟩
    rintro ⟨m, hm, m', hm', hne, hans⟩
    simp only [List.mem_append, List.mem_map, List.mem_singleton] at hm hm'
    rcases hm with ⟨e, he, rfl⟩ | rfl
    · rcases hm' with ⟨e', he', rfl⟩ | rfl
      · have hdiff : e ≠ e' := fun heq => hne (by rw [heq])
        rcases before_or_before he he' hdiff with hbefore | hbefore
        · exact hpair e e' hbefore hne hans
        · exact hpair e' e hbefore (Ne.symm hne) hans.symm
      · exact Or.inr ⟨e, he, hne, hans⟩
    · rcases hm' with ⟨e', he', rfl⟩ | rfl
      · exact Or.inr ⟨e', he', Ne.symm hne, hans.symm⟩
      · exact absurd rfl hne
  · rintro (⟨e', e, hbefore, -, hne, hans⟩ | ⟨e, he, hne, hans⟩)
    · exact ⟨_, List.mem_append_left _ (List.mem_map_of_mem hbefore.mem.1), _,
        List.mem_append_left _ (List.mem_map_of_mem hbefore.mem.2), hne, hans⟩
    · exact ⟨_, List.mem_append_left _ (List.mem_map_of_mem he), x.operator, by simp, hne, hans⟩

/-- **`check_hostnames` refuses exactly the machines that answer alike**, when two of them clash with
the later one over ssh, or when one looks like the operator just where one is listed twice. -/
theorem hostnamesExact_iff (h : x.Connected entries) : x.HostnamesExact entries ↔
    x.Clash entries ∨ (x.ListedTwice entries ↔ x.LooksLikeOperator entries) := by
  rw [HostnamesExact, refuses_iff h, answerAlike_iff]
  tauto

/-! ### Clones -/

/-- A cluster on the hosts `a` and `b`. -/
def pairOfHosts : Cluster where
  metadata := loneCluster.metadata
  spec :=
    { loneCluster.spec with
      nodes := loneCluster.spec.nodes.map fun n => { n with host := some "a" }
      hosts := some [⟨⟨"a", hostName_a⟩, some "a", "eth0"⟩, ⟨⟨"b", hostName_b⟩, some "b", "eth0"⟩] }

/-- Both hosts over ssh, and an operator that runs no node. -/
def pairContext (prints : String → String) : HostContext String where
  cluster := pairOfHosts
  operator := "operator"
  hosts := [("a", .ssh "a"), ("b", .ssh "b")]
  prints := prints

lemma connected_pairContext (prints : String → String) :
    (pairContext prints).Connected [("a", .ssh "a"), ("b", .ssh "b")] := by
  have hnames : pairOfHosts.hostNames.Nodup := by decide
  exact ⟨rfl, hnames, rfl⟩

/-- Two clones among the hosts are refused. -/
theorem hostnamesExact_clones :
    (pairContext fun _ => "debian").HostnamesExact [("a", .ssh "a"), ("b", .ssh "b")] :=
  (hostnamesExact_iff (connected_pairContext _)).mpr <| Or.inl
    ⟨("a", .ssh "a"), ("b", .ssh "b"), List.Sublist.refl _, rfl, by decide, rfl⟩

/-- A clone of an operator that runs no node is not. -/
theorem not_hostnamesExact_operator :
    ¬ (pairContext fun m => if m = "b" then "b" else "debian").HostnamesExact
      [("a", .ssh "a"), ("b", .ssh "b")] := by
  intro hexact
  obtain ⟨message, hmessage⟩ := hexact.mpr ⟨"a", by decide, "operator", by decide, by decide, rfl⟩
  have hok : (pairContext fun m => if m = "b" then "b" else "debian").checkHostnames = .ok () := by
    decide
  rw [hok] at hmessage
  exact absurd hmessage (by simp)

end HostContext

end Tk8s
