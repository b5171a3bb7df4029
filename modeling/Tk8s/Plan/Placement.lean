import Tk8s.Lib.RoundRobin
import Tk8s.Plan.Limits

/-!
`create/plan.py`: `place`, loop by loop.

* `takeTurns`, `dealRole`, `mergeFrom`: the loop over the roles, the iterator that deals its hosts back
  to the roles, and the merge with a cursor for each role; `placeByRole` is the three together.
* `placeByRole_eq`: they compute `place`.
* `Placement`: what a placement is for; `placeByRole_places`: **`place` keeps order, pins and balance**.
-/

namespace Tk8s

open RoundRobin Net

/-! ### The loops -/

/-- The host of one node, and whose turn it is then. -/
def takeTurn (hosts : List String) (g : NodeGroup) (turn : ℕ) : Except Raised (String × ℕ) :=
  match g.pinned with
  | some h => .ok (h, turn)
  | none => do
      let h ← Checked.ofOption .zeroDivisionError hosts[turn % hosts.length]?
      return (h, turn + 1)

/-- The nodes of one role, with the hosts so far and the turn. -/
def takeTurns (hosts : List String) : List NodeGroup → List String × ℕ →
    Except Raised (List String × ℕ)
  | [], s => .ok s
  | g :: rest, (out, turn) => do
      let (h, turn) ← takeTurn hosts g turn
      takeTurns hosts rest (out ++ [h], turn)

/-- The nodes of the groups of one role. -/
def ofRole (role : Role) (groups : List NodeGroup) : List NodeGroup :=
  unroll (groups.filter (·.role = role))

/-- `out`: control planes first, then workers. -/
def turnsOut (groups : List NodeGroup) (hosts : List String) : Except Raised (List String × ℕ) :=
  [Role.controlPlane, Role.worker].foldlM (fun s role => takeTurns hosts (ofRole role groups) s) ([], 0)

/-- The hosts one role gets back from the iterator, group by group, and what is left of it. -/
def dealRole (role : Role) : List NodeGroup → List String → List String × List String
  | [], it => ([], it)
  | g :: rest, it =>
      if g.role = role then
        let dealt := dealRole role rest (it.drop g.count)
        (it.take g.count ++ dealt.1, dealt.2)
      else dealRole role rest it

/-- `by_role`. -/
def byRole (groups : List NodeGroup) (out : List String) : Role → List String
  | .controlPlane => (dealRole .controlPlane groups out).1
  | .worker => (dealRole .worker groups (dealRole .controlPlane groups out).2).1

/-- The merge: the next host of each entry's role, with a cursor for each role. -/
def mergeFrom (queues : Role → List String) : List Role → (Role → ℕ) → Except Raised (List String)
  | [], _ => .ok []
  | role :: rest, taken => do
      let h ← Checked.ofOption .indexError (queues role)[taken role]?
      let tail ← mergeFrom queues rest (Function.update taken role (taken role + 1))
      return h :: tail

/-- `place`, as the three loops. -/
def placeByRole (groups : List NodeGroup) (hosts : List String) : Except Raised (List String) := do
  let (out, _) ← turnsOut groups hosts
  mergeFrom (byRole groups out) ((unroll groups).map (·.role)) fun _ => 0

/-! ### The loops compute the placement -/

variable {groups gs : List NodeGroup} {hosts out placed : List String} {turn : ℕ} {role : Role}

lemma ofRole_eq : ofRole role groups = (unroll groups).filter (·.role = role) := by
  induction groups with
  | nil => rfl
  | cons g rest ih =>
      have hrest : unroll (g :: rest) = List.replicate g.count g ++ unroll rest := by
        simp [unroll]
      rw [hrest, List.filter_append, ← ih, ofRole, List.filter_cons]
      by_cases hrole : g.role = role
      · have hall : (List.replicate (g.count : ℕ) g).filter (·.role = role) =
            List.replicate (g.count : ℕ) g := by simp [hrole]
        rw [hall]
        simp [hrole, unroll, ofRole]
      · have hnone : (List.replicate (g.count : ℕ) g).filter (·.role = role) = [] := by simp [hrole]
        rw [hnone]
        simp [hrole, ofRole]

/-- The loop of one role, from its turn. -/
lemma takeTurns_eq : takeTurns hosts gs (out, turn) =
    (fun r => (out ++ r.1, r.2)) <$> placeRole hosts turn (gs.map (·.pinned)) := by
  induction gs generalizing out turn with
  | nil => simp [takeTurns, placeRole]
  | cons g rest ih =>
      rw [takeTurns, takeTurn, List.map_cons]
      cases hpin : g.pinned with
      | some h =>
          simp only [placeRole, Checked.ok_bind, ih]
          cases placeRole hosts turn (rest.map (·.pinned)) with
          | error e => rfl
          | ok r => simp
      | none =>
          simp only [placeRole]
          cases Checked.ofOption (ε := Raised) .zeroDivisionError hosts[turn % hosts.length]? with
          | error e => rfl
          | ok h =>
              simp only [Checked.ok_bind, pure_bind, ih]
              cases placeRole hosts (turn + 1) (rest.map (·.pinned)) with
              | error e => rfl
              | ok r => simp

lemma turnsOut_eq : turnsOut groups hosts = do
    let (cps, turn) ← placeRole hosts 0 ((ofRole .controlPlane groups).map (·.pinned))
    let (wks, turn) ← placeRole hosts turn ((ofRole .worker groups).map (·.pinned))
    return (cps ++ wks, turn) := by
  simp only [turnsOut, List.foldlM_cons, List.foldlM_nil, takeTurns_eq]
  cases placeRole hosts 0 ((ofRole .controlPlane groups).map (·.pinned)) with
  | error e => rfl
  | ok r =>
      simp only [Except.map_ok, Checked.ok_bind, takeTurns_eq]
      cases placeRole hosts r.2 ((ofRole .worker groups).map (·.pinned)) with
      | error e => rfl
      | ok r' => simp

/-- A role gets as many hosts back as it has nodes. -/
lemma dealRole_append {queue rest : List String} (h : queue.length = (ofRole role groups).length) :
    dealRole role groups (queue ++ rest) = (queue, rest) := by
  induction groups generalizing queue with
  | nil =>
      obtain rfl := List.length_eq_zero_iff.mp h
      rfl
  | cons g gs ih =>
      rw [dealRole]
      by_cases hrole : g.role = role
      · have hlen : (ofRole role (g :: gs)).length = g.count + (ofRole role gs).length := by
          simp [ofRole, hrole, unroll]
        have hdrop : (queue.drop g.count).length = (ofRole role gs).length := by
          rw [List.length_drop]
          omega
        have hle : (g.count : ℕ) ≤ queue.length := by omega
        rw [if_pos hrole, List.drop_append_of_le_length hle, ih hdrop,
          List.take_append_of_le_length hle]
        simp
      · have hsame : ofRole role (g :: gs) = ofRole role gs := by simp [ofRole, hrole]
        rw [if_neg hrole, ih (hsame ▸ h)]

lemma mergeFrom_eq {queues : Role → List String} {roles : List Role} {taken : Role → ℕ}
    (h : ∀ role, (queues role).length = taken role + roles.count role) :
    mergeFrom queues roles taken = .ok (weave roles
      ((queues .controlPlane).drop (taken .controlPlane)) ((queues .worker).drop (taken .worker))) := by
  induction roles generalizing taken with
  | nil => rfl
  | cons role rest ih =>
      have hlt : taken role < (queues role).length := by
        rw [h role, List.count_cons_self]
        omega
      have hrest : ∀ r, (queues r).length =
          Function.update taken role (taken role + 1) r + rest.count r := by
        intro r
        rw [h r]
        by_cases hr : r = role
        · subst hr
          rw [Function.update_self, List.count_cons_self]
          omega
        · rw [Function.update_of_ne hr, List.count_cons_of_ne (Ne.symm hr)]
      have hget : Checked.ofOption (ε := Raised) .indexError (queues role)[taken role]? =
          .ok (queues role)[taken role] := by
        rw [List.getElem?_eq_getElem hlt]
        rfl
      rw [mergeFrom, hget, Checked.ok_bind, ih hrest, Checked.ok_bind]
      cases role with
      | controlPlane =>
          rw [Function.update_self, Function.update_of_ne (by decide),
            List.drop_eq_getElem_cons hlt]
          rfl
      | worker =>
          rw [Function.update_self, Function.update_of_ne (by decide),
            List.drop_eq_getElem_cons hlt]
          cases (queues .controlPlane).drop (taken .controlPlane) <;> rfl

lemma length_placeRole {pins : List (Option String)} {turn' : ℕ}
    (h : placeRole hosts turn pins = .ok (out, turn')) : out.length = pins.length := by
  induction pins generalizing turn out with
  | nil =>
      cases h
      rfl
  | cons pin rest ih =>
      cases pin with
      | some host =>
          simp only [placeRole, Checked.bind_eq_ok, Checked.pure_eq_ok] at h
          obtain ⟨⟨tail, _⟩, htail, heq⟩ := h
          cases heq
          simp [ih htail]
      | none =>
          simp only [placeRole, Checked.bind_eq_ok, Checked.pure_eq_ok] at h
          obtain ⟨_, -, ⟨tail, _⟩, htail, heq⟩ := h
          cases heq
          simp [ih htail]

/-- **The loops compute the placement**, whatever they raise. -/
theorem placeByRole_eq : placeByRole groups hosts = place groups hosts := by
  rw [placeByRole, turnsOut_eq, place]
  simp only [← ofRole_eq]
  cases hcps : placeRole hosts 0 ((ofRole .controlPlane groups).map (·.pinned)) with
  | error e => rfl
  | ok r =>
      obtain ⟨cps, turn⟩ := r
      simp only [Checked.ok_bind]
      cases hwks : placeRole hosts turn ((ofRole .worker groups).map (·.pinned)) with
      | error e => rfl
      | ok r =>
          obtain ⟨wks, turn'⟩ := r
          have hcpsLen : cps.length = (ofRole .controlPlane groups).length := by
            rw [length_placeRole hcps, List.length_map]
          have hwksLen : wks.length = (ofRole .worker groups).length := by
            rw [length_placeRole hwks, List.length_map]
          have hfirst : byRole groups (cps ++ wks) .controlPlane = cps := by
            rw [byRole, dealRole_append hcpsLen]
          have hsecond : byRole groups (cps ++ wks) .worker = wks := by
            have hrest : dealRole .worker groups (wks ++ []) = (wks, []) := dealRole_append hwksLen
            rw [List.append_nil] at hrest
            rw [byRole, dealRole_append hcpsLen, hrest]
          have hcount : ∀ role : Role, ((unroll groups).map (·.role)).count role =
              (ofRole role groups).length := by
            intro role
            rw [ofRole_eq, List.count_eq_countP, List.countP_map, List.countP_eq_length_filter]
            rfl
          simp only [Checked.ok_bind, pure_bind]
          rw [mergeFrom_eq, hfirst, hsecond]
          · rfl
          · intro role
            rw [Nat.zero_add, hcount]
            cases role with
            | controlPlane => rw [hfirst, hcpsLen]
            | worker => rw [hsecond, hwksLen]

/-! ### Order, pins and balance -/

/-- The hosts of the unpinned nodes of one role, in file order. -/
def freeHosts (groups : List NodeGroup) (placed : List String) (role : Role) : List String :=
  (((unroll groups).zip placed).filter fun p => p.1.role = role ∧ p.1.pinned = none).map (·.2)

/-- The hosts of the unpinned nodes: control planes in file order first, then workers. -/
def allFreeHosts (groups : List NodeGroup) (placed : List String) : List String :=
  freeHosts groups placed .controlPlane ++ freeHosts groups placed .worker

/-- What a placement is for. -/
structure Placement (groups : List NodeGroup) (hosts placed : List String) : Prop where
  /-- One host for each node. -/
  length : placed.length = (unroll groups).length
  /-- The hosts are those of the expanded nodes, in their order. -/
  order : ∀ name index ips nodes, expandNodes name groups index ips (some placed) = .ok nodes →
    nodes.map (·.role) = (unroll groups).map (·.role) ∧ nodes.map (·.host) = placed.map some
  /-- A node of a group with a host is on that host. -/
  pins : ∀ p ∈ (unroll groups).zip placed, ∀ h ∈ p.1.pinned, p.2 = h
  /-- The k-th unpinned node is on `hosts[k % len(hosts)]`. -/
  turns : ∀ k < (allFreeHosts groups placed).length,
    (allFreeHosts groups placed)[k]? = hosts[k % hosts.length]?
  /-- The unpinned nodes of two hosts differ by at most one. -/
  balance : hosts.Nodup → ∀ a ∈ hosts, ∀ b ∈ hosts,
    (allFreeHosts groups placed).count a ≤ (allFreeHosts groups placed).count b + 1
  /-- With no more unpinned control planes than hosts, none gets two. -/
  spread : hosts.Nodup → (freeHosts groups placed .controlPlane).length ≤ hosts.length →
    (freeHosts groups placed .controlPlane).Nodup

/-- One role's nodes in turn: the pinned on their hosts, the others on the next ones. -/
lemma placeRole_spec {turn' : ℕ} (h : placeRole hosts turn (gs.map (·.pinned)) = .ok (out, turn')) :
    (∀ p ∈ gs.zip out, ∀ h ∈ p.1.pinned, p.2 = h) ∧
      InTurn hosts turn (((gs.zip out).filter fun p => p.1.pinned = none).map (·.2)) ∧
      turn' = turn + (((gs.zip out).filter fun p => p.1.pinned = none).map (·.2)).length := by
  induction gs generalizing turn out with
  | nil =>
      cases h
      simp
  | cons g rest ih =>
      rw [List.map_cons] at h
      cases hpin : g.pinned with
      | some host =>
          simp only [hpin, placeRole, Checked.bind_eq_ok, Checked.pure_eq_ok] at h
          obtain ⟨⟨tail, _⟩, htail, heq⟩ := h
          cases heq
          obtain ⟨hpins, hturn, hnext⟩ := ih htail
          refine ⟨List.forall_mem_cons.mpr ⟨by simp [hpin], hpins⟩, ?_, ?_⟩
          · simpa [hpin] using hturn
          · simpa [hpin] using hnext
      | none =>
          simp only [hpin, placeRole, Checked.bind_eq_ok, Checked.pure_eq_ok,
            Checked.ofOption_eq_ok] at h
          obtain ⟨host, hhost, ⟨tail, _⟩, htail, heq⟩ := h
          cases heq
          obtain ⟨hpins, hturn, hnext⟩ := ih htail
          have hfree : ((((g :: rest).zip (host :: tail)).filter fun p => p.1.pinned = none).map (·.2))
              = host :: (((rest.zip tail).filter fun p => p.1.pinned = none).map (·.2)) := by
            simp [hpin]
          rw [hfree]
          refine ⟨List.forall_mem_cons.mpr ⟨by simp [hpin], hpins⟩,
            inTurn_cons.mpr ⟨hhost, hturn⟩, ?_⟩
          rw [hnext, List.length_cons]
          omega

/-- The merge gives each role its hosts in order. -/
lemma zip_weave {cps wks : List String} (hcps : cps.length = (gs.map (·.role)).count .controlPlane)
    (hwks : wks.length = (gs.map (·.role)).count .worker) :
    ((gs.zip (weave (gs.map (·.role)) cps wks)).filter fun p => p.1.role = .controlPlane) =
        (gs.filter (·.role = .controlPlane)).zip cps ∧
      ((gs.zip (weave (gs.map (·.role)) cps wks)).filter fun p => p.1.role = .worker) =
        (gs.filter (·.role = .worker)).zip wks := by
  induction gs generalizing cps wks with
  | nil => simp
  | cons g rest ih =>
      cases hrole : g.role with
      | controlPlane =>
          rw [List.map_cons, hrole] at hcps hwks ⊢
          rw [List.count_cons_self] at hcps
          rw [List.count_cons_of_ne (by decide)] at hwks
          obtain ⟨h, cps, rfl⟩ := List.exists_cons_of_length_eq_add_one hcps
          obtain ⟨hfirst, hsecond⟩ := ih (Nat.succ.inj hcps) hwks
          simp [weave, hrole, hfirst, hsecond]
      | worker =>
          rw [List.map_cons, hrole] at hcps hwks ⊢
          rw [List.count_cons_self] at hwks
          rw [List.count_cons_of_ne (by decide)] at hcps
          obtain ⟨h, wks, rfl⟩ := List.exists_cons_of_length_eq_add_one hwks
          obtain ⟨hfirst, hsecond⟩ := ih hcps (Nat.succ.inj hwks)
          have hnext : weave (.worker :: rest.map (·.role)) cps (h :: wks) =
              h :: weave (rest.map (·.role)) cps wks := by cases cps <;> rfl
          rw [hnext]
          simp [hrole, hfirst, hsecond]

/-- Given hosts go to the nodes in order. -/
lemma expandFrom_hosts {name : ClusterName} {index ip : ℕ} {ips : Option (List IPv4Address)}
    {seen : Role → ℕ} {nodes : List Node}
    (h : expandFrom name index ips (some placed) ip seen gs = .ok nodes) :
    nodes.map (·.role) = gs.map (·.role) ∧
      nodes.map (·.host) = ((placed.drop ip).take gs.length).map some := by
  induction gs generalizing ip seen nodes with
  | nil =>
      rw [← Except.ok.inj h]
      simp
  | cons g rest ih =>
      obtain ⟨node, tail, hnode, htail, rfl⟩ := expandFrom_cons_eq_ok.mp h
      obtain ⟨address, host, memory, -, hhost, -, rfl⟩ := expandNode_eq_ok.mp hnode
      rw [nodeHost, Nat.add_sub_cancel, Checked.map_eq_ok] at hhost
      obtain ⟨host, hget, rfl⟩ := hhost
      obtain ⟨hlt, hget⟩ := List.getElem?_eq_some_iff.mp (Checked.ofOption_eq_ok.mp hget)
      obtain ⟨hroles, hhosts⟩ := ih htail
      refine ⟨by simp [hroles], ?_⟩
      rw [List.map_cons, hhosts, List.drop_eq_getElem_cons hlt, List.length_cons,
        List.take_succ_cons, List.map_cons, hget]

/-- The hosts of one role's unpinned nodes, in the queue of that role. -/
lemma freeHosts_eq {queue : List String}
    (h : (((unroll groups).zip placed).filter fun p => p.1.role = role) =
      ((unroll groups).filter (·.role = role)).zip queue) :
    freeHosts groups placed role =
      ((((unroll groups).filter (·.role = role)).zip queue).filter fun p => p.1.pinned = none).map
        (·.2) := by
  rw [freeHosts, ← h, List.filter_filter]
  congr 2
  funext p
  simp [Bool.and_comm]

/-- **`place` keeps order, pins and balance**, for every list of groups and every host list that is
not empty. -/
theorem placeByRole_places (hne : hosts ≠ []) :
    ∃ placed, placeByRole groups hosts = .ok placed ∧ Placement groups hosts placed := by
  set entries : Role → List NodeGroup := fun role => (unroll groups).filter (·.role = role)
    with hentries
  obtain ⟨cps, turn, hcps, hcpsLen, -⟩ :=
    exists_placeRole hne 0 ((entries .controlPlane).map (·.pinned))
  obtain ⟨wks, turn', hwks, hwksLen, -⟩ :=
    exists_placeRole hne turn ((entries .worker).map (·.pinned))
  have hcount : ∀ role : Role, ((unroll groups).map (·.role)).count role =
      ((entries role).map (·.pinned)).length := by
    intro role
    rw [List.length_map, List.count_eq_countP, List.countP_map, List.countP_eq_length_filter]
    rfl
  set placed := weave ((unroll groups).map (·.role)) cps wks with hplaced
  have hok : placeByRole groups hosts = .ok placed := by
    rw [placeByRole_eq, place]
    simp only [hentries] at hcps hwks
    simp only [hcps, hwks, Checked.ok_bind]
    rfl
  have hcps' := hcpsLen.trans (hcount .controlPlane).symm
  have hwks' := hwksLen.trans (hcount .worker).symm
  have hlen : placed.length = (unroll groups).length := by
    rw [hplaced, (weave_spec hcps' hwks').1, List.length_map]
  obtain ⟨hzipCps, hzipWks⟩ := zip_weave hcps' hwks'
  obtain ⟨hpinsCps, hturnCps, hnext⟩ := placeRole_spec hcps
  obtain ⟨hpinsWks, hturnWks, -⟩ := placeRole_spec hwks
  rw [← freeHosts_eq hzipCps] at hturnCps hnext
  rw [← freeHosts_eq hzipWks] at hturnWks
  rw [hnext] at hturnWks
  have hturns : InTurn hosts 0 (allFreeHosts groups placed) := hturnCps.append hturnWks
  refine ⟨placed, hok, hlen, ?_, ?_, ?_, ?_, ?_⟩
  · intro name index ips nodes hnodes
    obtain ⟨hroles, hhosts⟩ := expandFrom_hosts hnodes
    rw [List.drop_zero, ← hlen, List.take_length] at hhosts
    exact ⟨hroles, hhosts⟩
  · intro p hp h hh
    cases hrole : p.1.role with
    | controlPlane =>
        have hmem : p ∈ (entries .controlPlane).zip cps := by
          rw [← hzipCps]
          exact List.mem_filter.mpr ⟨hp, by simpa using hrole⟩
        exact hpinsCps p hmem h hh
    | worker =>
        have hmem : p ∈ (entries .worker).zip wks := by
          rw [← hzipWks]
          exact List.mem_filter.mpr ⟨hp, by simpa using hrole⟩
        exact hpinsWks p hmem h hh
  · intro k hk
    simpa using hturns k hk
  · exact fun hnodup a ha b hb => hturns.balanced hnodup ha hb
  · exact fun hnodup hle => hturnCps.nodup hnodup hle

/-- Three control planes, two workers on a host of their own, and two more. -/
def mixedGroups : List NodeGroup :=
  [{ role := .controlPlane, count := 3 }, { role := .worker, count := 2, host := some "c" },
   { role := .worker, count := 2 }]

/-- The workers carry on from where the control planes stopped. -/
example : placeByRole mixedGroups ["a", "b", "c"] = .ok ["a", "b", "c", "c", "c", "a", "b"] := by
  decide +kernel

theorem places_mixedGroups : ∃ placed, placeByRole mixedGroups ["a", "b", "c"] = .ok placed ∧
    Placement mixedGroups ["a", "b", "c"] placed :=
  placeByRole_places (by decide)

end Tk8s
