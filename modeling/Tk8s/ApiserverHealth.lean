import Mathlib.Tactic.IntervalCases
import Mathlib.Order.Lattice
import Tk8s.Lib.Text

/-!
`images/node/sbin/tk8s-apiserver-health`: the apiserver VIP on lo, with hysteresis.

* `tick`: one start of the script: the probe, the streak in its file, the `ip` commands.
* `signedRun`: the length of the run of like probes a history ends with, negative for bad ones.
* `stored_of_tick`: the streak that is stored is the run's, between -2 and 3, whatever `ip` answers.
* `TickLaw`: when the VIP is added and removed, and when it is there.
* `law_of_ticks`: **the law holds of every tick**, from any state with a fresh boot's streak on.
-/

namespace Tk8s.ApiserverHealth

/-! ### The script -/

/-- What `$(...)` keeps of an output: all but the newlines at its end. -/
def captured (out : String) : String :=
  String.ofList ((out.toList.reverse.dropWhile (· = '\n')).reverse)

/-- The number the tests of the script see in a text; of a text that is none they all fail. -/
def integer? (text : String) : Option ℤ :=
  match Text.removePrefix? "-" text with
  | some digits => if Text.isDigits digits then some (-(Text.number digits : ℤ)) else none
  | none => if Text.isDigits text then some (Text.number text : ℤ) else none

/-- How curl ends, and what it prints. -/
structure Probe where
  status : ℕ
  body : String

def Probe.good (p : Probe) : Bool := p.status = 0 && captured p.body = "ok"

/-- The node, as far as the script looks at it; `lo` are the IPv4 addresses there, with their
lengths. A file that is not there, or cannot be read, is `none`. -/
structure Node where
  vipFile : Option String
  streakFile : Option String
  lo : List String
deriving DecidableEq

/-- What a tick meets: the answer of the apiserver, whether `ip -4 addr show` works, whether `ip addr
add` and `ip addr del` do. -/
structure Answers where
  probe : Probe
  shows : Bool
  changes : Bool

inductive IpCommand where
  | show
  | add
  | del
deriving DecidableEq

/-- What a tick leaves behind: the node, the `ip` commands with whether each succeeded, the lines on
stderr, the exit status. -/
structure Outcome where
  node : Node
  issued : List (IpCommand × Bool)
  said : List String
  status : ℕ
deriving DecidableEq

/-- The VIP, when there is one to look after. -/
def vipOf (n : Node) : Option String :=
  (n.vipFile.map captured).filter (· ≠ "")

/-- `$(cat "$streak_file" 2>/dev/null) || streak=0`. -/
def streakText (n : Node) : String := (n.streakFile.map captured).getD "0"

/-- The streak after a probe, capped at the thresholds; a streak of the other sign, and a text that is
no number, start over. -/
def nextStreak (good : Bool) (text : String) : ℤ :=
  if good then
    let streak := ((integer? text).filter (0 < ·)).getD 0
    if 3 ≤ streak then streak else streak + 1
  else
    let streak := ((integer? text).filter (· < 0)).getD 0
    if streak ≤ -2 then streak else streak - 1

/-- `on_lo`. -/
def onLo (n : Node) (a : Answers) (vip : String) : Bool := a.shows && n.lo.contains (vip ++ "/32")

/-- The end of the script, from the stored streak on. -/
def settle (n : Node) (a : Answers) (vip : String) (streak : ℤ) (said : List String) : Outcome :=
  let looked := (IpCommand.show, a.shows)
  if 3 ≤ streak then
    if onLo n a vip then ⟨n, [looked], said, 0⟩
    else
      let said := said ++ [s!"announcing {vip}: three good probes in a row"]
      -- the kernel takes an address once
      if a.changes && !n.lo.contains (vip ++ "/32") then
        ⟨{ n with lo := n.lo ++ [vip ++ "/32"] }, [looked, (.add, true)], said, 0⟩
      else ⟨n, [looked, (.add, false)], said, 1⟩
  else if streak ≤ -2 then
    if onLo n a vip then
      let said := said ++ [s!"withdrawing {vip}: two failed probes in a row"]
      if a.changes then
        ⟨{ n with lo := n.lo.filter (· ≠ vip ++ "/32") }, [looked, (.del, true)], said, 0⟩
      else ⟨n, [looked, (.del, false)], said, 1⟩
    else ⟨n, [looked], said, 0⟩
  else ⟨n, [], said, 0⟩

/-- One start of the script. -/
def tick (n : Node) (a : Answers) : Outcome :=
  match vipOf n with
  | none => ⟨n, [], [], 0⟩
  | some vip =>
      let streak := nextStreak a.probe.good (streakText n)
      let said :=
        if a.probe.good = false ∧ streak = -1 then
          ["readyz probe failed once, the VIP stays until a second failure"]
        else []
      settle { n with streakFile := some (toString streak ++ "\n") } a vip streak said

/-- The timer. -/
def ticks (n : Node) (l : List Answers) : Node := l.foldl (fun n a => (tick n a).node) n

/-! ### The run of probes -/

/-- The length of the run a history ends with, the latest probe first; negative for bad probes. -/
def signedRun : List Bool → ℤ
  | [] => 0
  | true :: rest => (rest.takeWhile (· = true)).length + 1
  | false :: rest => -((rest.takeWhile (· = false)).length + 1)

/-- A streak as the script stores it. -/
def clamp (n : ℤ) : ℤ := max (-2) (min 3 n)

/-- The probes of some ticks, the latest first. -/
def history (l : List Answers) : List Bool := (l.map (·.probe.good)).reverse

lemma history_concat (l : List Answers) (a : Answers) :
    history (l ++ [a]) = a.probe.good :: history l := by
  simp [history]

lemma signedRun_good (h : List Bool) :
    signedRun (true :: h) = if 0 < signedRun h then signedRun h + 1 else 1 := by
  match h with
  | [] => rfl
  | true :: rest =>
      have hpos : 0 < signedRun (true :: rest) := by
        simp only [signedRun]
        omega
      rw [if_pos hpos]
      simp [signedRun]
  | false :: rest =>
      have hneg : ¬ 0 < signedRun (false :: rest) := by
        simp only [signedRun]
        omega
      rw [if_neg hneg]
      simp [signedRun]

lemma signedRun_bad (h : List Bool) :
    signedRun (false :: h) = if signedRun h < 0 then signedRun h - 1 else -1 := by
  match h with
  | [] => rfl
  | false :: rest =>
      have hneg : signedRun (false :: rest) < 0 := by
        simp only [signedRun]
        omega
      rw [if_pos hneg]
      simp only [signedRun, List.takeWhile_cons, decide_true, if_true, List.length_cons]
      push_cast
      omega
  | true :: rest =>
      have hpos : ¬ signedRun (true :: rest) < 0 := by
        simp only [signedRun]
        omega
      rw [if_neg hpos]
      simp [signedRun]

/-- A number that a test does not let through counts as 0, like a text that is none. -/
lemma getD_filter (o : Option ℤ) (p : ℤ → Bool) :
    (o.filter p).getD 0 = if p (o.getD 0) then o.getD 0 else 0 := by
  cases o with
  | none => simp
  | some k => by_cases hp : p k = true <;> simp [Option.filter, hp]

/-- **The streak becomes** what the run becomes. -/
lemma nextStreak_clamp {text : String} {h : List Bool}
    (hread : (integer? text).getD 0 = clamp (signedRun h)) (good : Bool) :
    nextStreak good text = clamp (signedRun (good :: h)) := by
  rw [nextStreak]
  simp only [getD_filter, hread, decide_eq_true_eq, clamp]
  cases good with
  | true =>
      rw [signedRun_good]
      simp only [if_true]
      split_ifs <;> omega
  | false =>
      rw [signedRun_bad]
      simp only [Bool.false_eq_true, if_false]
      split_ifs <;> omega

lemma clamp_bounds (n : ℤ) : -2 ≤ clamp n ∧ clamp n ≤ 3 := by
  unfold clamp
  omega

/-- A streak that is stored is read back. -/
lemma integer?_stored {n : ℤ} (h : -2 ≤ n ∧ n ≤ 3) :
    integer? (captured (toString n ++ "\n")) = some n := by
  obtain ⟨hlow, hhigh⟩ := h
  interval_cases n <;> decide

/-! ### One tick -/

variable {n : Node} {vip : String}

/-- The streak file of a fresh boot, or one that is empty or cannot be read. -/
def Fresh (file : Option String) : Prop := ∀ text, file = some text → captured text = ""

/-- The streak file says how the history ends. -/
def Follows (n : Node) (h : List Bool) : Prop :=
  (integer? (streakText n)).getD 0 = clamp (signedRun h)

lemma follows_of_fresh (h : Fresh n.streakFile) : Follows n [] := by
  rw [Follows, streakText]
  cases hfile : n.streakFile with
  | none => decide
  | some text =>
      rw [Option.map_some, Option.getD_some, h text hfile]
      decide

/-- The end of the script leaves the two files alone. -/
lemma settle_files (n : Node) (a : Answers) (vip : String) (streak : ℤ) (said : List String) :
    (settle n a vip streak said).node.streakFile = n.streakFile ∧
      (settle n a vip streak said).node.vipFile = n.vipFile := by
  unfold settle
  split_ifs <;> simp

/-- **What a tick stores**, whatever `ip` answers. -/
theorem stored_of_tick (hvip : vipOf n = some vip) {h : List Bool} (hf : Follows n h) (a : Answers) :
    (tick n a).node.streakFile =
      some (toString (clamp (signedRun (a.probe.good :: h))) ++ "\n") := by
  have hnext := nextStreak_clamp hf a.probe.good
  rw [tick, hvip]
  simp only [(settle_files _ _ _ _ _).1, hnext]

lemma vipOf_tick (n : Node) (a : Answers) : vipOf (tick n a).node = vipOf n := by
  cases hvip : vipOf n with
  | none => rw [tick, hvip]; exact hvip
  | some vip =>
      rw [tick, hvip, vipOf]
      simp only [(settle_files _ _ _ _ _).2]
      exact hvip

lemma follows_of_tick (hvip : vipOf n = some vip) {h : List Bool} (hf : Follows n h) (a : Answers) :
    Follows (tick n a).node (a.probe.good :: h) := by
  rw [Follows, streakText, stored_of_tick hvip hf, Option.map_some, Option.getD_some,
    integer?_stored (clamp_bounds _), Option.getD_some]

/-- The hysteresis of one tick, with the run of probes it ends. -/
structure TickLaw (vip : String) (run : ℤ) (before : Node) (o : Outcome) : Prop where
  /-- The VIP is added at the end of three good probes only. -/
  added : (∃ ok, (IpCommand.add, ok) ∈ o.issued) ∨
    vip ++ "/32" ∉ before.lo ∧ vip ++ "/32" ∈ o.node.lo → 3 ≤ run
  /-- It is removed at the end of two bad ones only. -/
  removed : (∃ ok, (IpCommand.del, ok) ∈ o.issued) ∨
    vip ++ "/32" ∈ before.lo ∧ vip ++ "/32" ∉ o.node.lo → run ≤ -2
  present : 3 ≤ run → (∀ c ∈ o.issued, c.2 = true) → vip ++ "/32" ∈ o.node.lo
  absent : run ≤ -2 → (∀ c ∈ o.issued, c.2 = true) → vip ++ "/32" ∉ o.node.lo
  stored : o.node.streakFile = some (toString (clamp run) ++ "\n")
  /-- The rest of lo stays. -/
  others : ∀ address, address ≠ vip ++ "/32" → (address ∈ o.node.lo ↔ address ∈ before.lo)
  /-- The exit status tells of an address that could not be changed. -/
  status : o.status = 1 ↔ (IpCommand.add, false) ∈ o.issued ∨ (IpCommand.del, false) ∈ o.issued

/-- The end of the script, by what the stored streak says. -/
lemma law_of_settle {before : Node} {streak run : ℤ} (hlo : n.lo = before.lo)
    (hstored : n.streakFile = some (toString (clamp run) ++ "\n")) (hgood : 3 ≤ streak ↔ 3 ≤ run)
    (hbad : streak ≤ -2 ↔ run ≤ -2) (a : Answers) (said : List String) :
    TickLaw vip run before (settle n a vip streak said) := by
  have hfile := (settle_files n a vip streak said).1.trans hstored
  have hon : onLo n a vip = true ↔ a.shows = true ∧ vip ++ "/32" ∈ before.lo := by
    simp [onLo, hlo]
  unfold settle at hfile ⊢
  by_cases h3 : 3 ≤ streak
  · have hrun : 3 ≤ run := hgood.mp h3
    have hnot : ¬ run ≤ -2 := by omega
    simp only [if_pos h3] at hfile ⊢
    by_cases hthere : onLo n a vip = true
    · simp only [if_pos hthere] at hfile ⊢
      exact ⟨by simp [hrun], by simp [hlo], by simp [hlo, (hon.mp hthere).2], by simp [hnot],
        hfile, by simp [hlo], by simp⟩
    · simp only [if_neg hthere] at hfile ⊢
      by_cases hok : (a.changes && !n.lo.contains (vip ++ "/32")) = true
      · simp only [if_pos hok] at hfile ⊢
        exact ⟨by simp [hrun], by simp [hlo], by simp, by simp [hnot], hfile,
          fun address hne => by simp [hlo, hne], by simp⟩
      · simp only [if_neg hok] at hfile ⊢
        exact ⟨by simp [hrun], by simp [hlo], by simp, by simp, hfile, by simp [hlo], by simp⟩
  · have hrun : ¬ 3 ≤ run := fun h => h3 (hgood.mpr h)
    simp only [if_neg h3] at hfile ⊢
    by_cases h2 : streak ≤ -2
    · have hlow : run ≤ -2 := hbad.mp h2
      simp only [if_pos h2] at hfile ⊢
      by_cases hthere : onLo n a vip = true
      · simp only [if_pos hthere] at hfile ⊢
        by_cases hok : a.changes = true
        · simp only [if_pos hok] at hfile ⊢
          exact ⟨by simp [hlo], by simp [hlow], by simp [hrun], by simp, hfile,
            fun address hne => by simp [hlo, hne], by simp⟩
        · simp only [if_neg hok] at hfile ⊢
          exact ⟨by simp [hlo], by simp [hlow], by simp [hrun], by simp, hfile, by simp [hlo],
            by simp⟩
      · simp only [if_neg hthere] at hfile ⊢
        refine ⟨by simp [hlo], by simp [hlo], by simp [hrun], fun _ hall hmem => ?_, hfile,
          by simp [hlo], by simp⟩
        have hshows : a.shows = true := hall (.show, a.shows) (by simp)
        exact hthere (hon.mpr ⟨hshows, hlo ▸ hmem⟩)
    · have hnot : ¬ run ≤ -2 := fun h => h2 (hbad.mpr h)
      simp only [if_neg h2] at hfile ⊢
      exact ⟨by simp [hlo], by simp [hlo], by simp [hrun], by simp [hnot], hfile, by simp [hlo],
        by simp⟩

/-- **One tick**. -/
theorem law_of_tick (hvip : vipOf n = some vip) {h : List Bool} (hf : Follows n h) (a : Answers) :
    TickLaw vip (signedRun (a.probe.good :: h)) n (tick n a) := by
  have hnext := nextStreak_clamp hf a.probe.good
  rw [tick, hvip]
  simp only [hnext]
  refine law_of_settle ?_ ?_ ?_ ?_ a _
  · rfl
  · rfl
  · unfold clamp
    omega
  · unfold clamp
    omega

/-! ### Every tick -/

/-- After some ticks the streak file says how the history ends. -/
lemma follows_of_ticks (hvip : vipOf n = some vip) (hfresh : Fresh n.streakFile)
    (l : List Answers) : vipOf (ticks n l) = some vip ∧ Follows (ticks n l) (history l) := by
  induction l using List.reverseRecOn with
  | nil => exact ⟨hvip, follows_of_fresh hfresh⟩
  | append_singleton l a ih =>
      have hlast : ticks n (l ++ [a]) = (tick (ticks n l) a).node := by simp [ticks]
      rw [hlast, history_concat]
      exact ⟨(vipOf_tick _ a).trans ih.1, follows_of_tick ih.1 ih.2 a⟩

/-- A streak file that is empty or cannot be read counts as none. -/
lemma tick_fresh (hvip : vipOf n = some vip) (hfresh : Fresh n.streakFile) (a : Answers) :
    tick n a = tick { n with streakFile := none } a := by
  have hgone : vipOf { n with streakFile := none } = some vip := hvip
  have hstart : Follows { n with streakFile := none } [] := follows_of_fresh (by simp [Fresh])
  rw [tick, tick, hvip, hgone]
  simp only [nextStreak_clamp (follows_of_fresh hfresh), nextStreak_clamp hstart]

/-- **Hysteresis**: from a fresh boot's streak on, every tick keeps the law of the run it ends, and a
streak file that is empty or cannot be read behaves like a fresh boot's. -/
theorem law_of_ticks (hvip : vipOf n = some vip) (hfresh : Fresh n.streakFile) (l : List Answers)
    (a : Answers) :
    TickLaw vip (signedRun (history (l ++ [a]))) (ticks n l) (tick (ticks n l) a) ∧
      tick n a = tick { n with streakFile := none } a := by
  obtain ⟨hthere, hfollows⟩ := follows_of_ticks hvip hfresh l
  rw [history_concat]
  exact ⟨law_of_tick hthere hfollows a, tick_fresh hvip hfresh a⟩

/-! ### A boot -/

/-- A node with a VIP, just booted. -/
def booted : Node := ⟨some "172.23.0.1\n", none, ["127.0.0.1/8"]⟩

def goodProbe (changes : Bool) : Answers := ⟨⟨0, "ok"⟩, true, changes⟩

/-- Three good probes, the last with an `ip addr add` that fails, and a fourth: the VIP is there. -/
theorem law_of_booted :
    TickLaw "172.23.0.1" 4 (ticks booted [goodProbe true, goodProbe true, goodProbe false])
      (tick (ticks booted [goodProbe true, goodProbe true, goodProbe false]) (goodProbe true)) ∧
    tick booted (goodProbe true) = tick { booted with streakFile := none } (goodProbe true) ∧
    (tick (ticks booted [goodProbe true, goodProbe true, goodProbe false]) (goodProbe true)).issued =
      [(.show, true), (.add, true)] := by
  have hvip : vipOf booted = some "172.23.0.1" := by decide
  have hfresh : Fresh booted.streakFile := fun text h => by simp [booted] at h
  have hlaw := law_of_ticks hvip hfresh [goodProbe true, goodProbe true, goodProbe false]
    (goodProbe true)
  exact ⟨hlaw.1, hlaw.2, by decide⟩

end Tk8s.ApiserverHealth
