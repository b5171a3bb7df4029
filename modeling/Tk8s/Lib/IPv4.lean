import Mathlib.Tactic.Ring
import Tk8s.Lib.Text

/-!
IPv4 addresses and networks as Python's `ipaddress` module has them.

* `IPv4Address`: a number below `2 ^ 32`; `ofNat?` is `IPv4Address(int)`, `parse` is
  `IPv4Address(str)`, `text` is `str(...)`. `parse_text` is the round trip, and
  `charIn_of_parse` says that nothing but digits and dots parses.
* `quad`: an address from four numbers, `parse_quad` the text it stands for; `upTo`: the addresses
  from one to another.
* `IPv4Network`: an aligned network address with its prefix length, `broadcast`, membership and
  `subnetOf`; `mem_iff` reads membership as an interval of numbers.
-/

namespace Net

/-! ### Addresses -/

/-- An IPv4 address: a number of 32 bits. -/
@[ext] structure IPv4Address where
  toNat : ℕ
  lt : toNat < 2 ^ 32
deriving DecidableEq

namespace IPv4Address

instance : LE IPv4Address := ⟨fun a b => a.toNat ≤ b.toNat⟩

instance (a b : IPv4Address) : Decidable (a ≤ b) := inferInstanceAs (Decidable (a.toNat ≤ b.toNat))

instance : Inhabited IPv4Address := ⟨⟨0, by decide⟩⟩

lemma le_def {a b : IPv4Address} : a ≤ b ↔ a.toNat ≤ b.toNat := Iff.rfl

lemma toNat_injective : Function.Injective toNat := fun _ _ h => IPv4Address.ext h

/-- `IPv4Address(n)` of an integer. -/
def ofNat? (n : ℕ) : Option IPv4Address :=
  if h : n < 2 ^ 32 then some ⟨n, h⟩ else none

lemma ofNat?_eq_some {n : ℕ} {a : IPv4Address} : ofNat? n = some a ↔ a.toNat = n := by
  unfold ofNat?
  split
  · rw [Option.some_inj, IPv4Address.ext_iff, eq_comm]
  · rename_i h
    exact ⟨fun hn => by simp at hn, fun hn => absurd (hn ▸ a.lt) h⟩

@[simp] lemma ofNat?_toNat (a : IPv4Address) : ofNat? a.toNat = some a := ofNat?_eq_some.mpr rfl

/-- `IPv4Address(n)` of an integer that may be negative. -/
def ofInt? (n : ℤ) : Option IPv4Address := if n < 0 then none else ofNat? n.toNat

lemma ofInt?_eq_some {n : ℤ} {a : IPv4Address} : ofInt? n = some a ↔ (a.toNat : ℤ) = n := by
  rw [ofInt?]
  by_cases hn : n < 0
  · rw [if_pos hn]
    exact ⟨fun h => by simp at h, fun h => by omega⟩
  · rw [if_neg hn, ofNat?_eq_some]
    omega

/-- The octet of weight `256 ^ i`. -/
def octet (a : IPv4Address) (i : ℕ) : ℕ := a.toNat / 256 ^ i % 256

lemma octet_lt (a : IPv4Address) (i : ℕ) : a.octet i < 256 := Nat.mod_lt _ (by decide)

/-- The four octets in writing order. -/
def octets (a : IPv4Address) : List ℕ := [a.octet 3, a.octet 2, a.octet 1, a.octet 0]

/-- The address with the given octets. -/
def ofOctets : List ℕ → Option IPv4Address
  | [a, b, c, d] => ofNat? (((a * 256 + b) * 256 + c) * 256 + d)
  | _ => none

lemma ofOctets_octets (a : IPv4Address) : ofOctets a.octets = some a := by
  have h := a.lt
  refine ofNat?_eq_some.mpr ?_
  simp only [octet, Nat.pow_succ, Nat.pow_zero, Nat.one_mul]
  omega

/-- `str(a)`: the octets in decimal between dots. -/
def text (a : IPv4Address) : String := Text.join '.' (a.octets.map Nat.repr)

/-- One octet of the text form: one to three digits, no leading zero, at most 255. -/
def parseOctet (s : String) : Option ℕ :=
  if Text.isDigits s ∧ s.toList.length ≤ 3 ∧ (s = "0" ∨ s.toList.head? ≠ some '0')
      ∧ Text.number s ≤ 255 then
    some (Text.number s)
  else none

/-- `IPv4Address(s)` of a string: four octets between dots. -/
def parse (s : String) : Option IPv4Address :=
  ((Text.splitOn '.' s).mapM parseOctet).bind ofOctets

lemma parseOctet_repr {n : ℕ} (h : n < 256) : parseOctet n.repr = some n := by
  have key : ∀ m : Fin 256, parseOctet (Nat.repr m) = some m.val := by decide +kernel
  exact key ⟨n, h⟩

lemma isDigits_of_parseOctet {s : String} {n : ℕ} (h : parseOctet s = some n) :
    Text.isDigits s = true := by
  unfold parseOctet at h
  split at h
  · rename_i hs; exact hs.1
  · simp at h

lemma isDigits_of_mapM {ps : List String} {ns : List ℕ} (h : ps.mapM parseOctet = some ns) :
    ∀ p ∈ ps, Text.isDigits p = true := by
  induction ps generalizing ns with
  | nil => simp
  | cons p ps ih =>
      simp only [List.mapM_cons, Option.bind_eq_bind, Option.bind_eq_some_iff] at h
      obtain ⟨n, hn, ms, hms, -⟩ := h
      intro q hq
      rcases List.mem_cons.mp hq with rfl | hq
      · exact isDigits_of_parseOctet hn
      · exact ih hms q hq

/-- `IPv4Address(str(a)) == a`. -/
theorem parse_text (a : IPv4Address) : parse a.text = some a := by
  have hdot : ∀ p ∈ a.octets.map Nat.repr, '.' ∉ p.toList := by
    intro p hp
    obtain ⟨n, -, rfl⟩ := List.mem_map.mp hp
    exact Text.notMem_repr (by decide)
  have hoct : (a.octets.map Nat.repr).mapM parseOctet = some a.octets := by
    simp [octets, parseOctet_repr, octet_lt]
  rw [parse, text, Text.splitOn_join (by simp [octets]) hdot, hoct, Option.bind_some,
    ofOctets_octets]

lemma text_injective : Function.Injective text := fun a b h => by
  have hab : some a = some b := by rw [← parse_text a, ← parse_text b, h]
  exact Option.some_injective _ hab

/-- The characters of an address: digits and dots. -/
def CharIn (c : Char) : Prop := c.isDigit = true ∨ c = '.'

/-- Nothing but digits and dots parses as an address. -/
lemma charIn_of_parse {s : String} {a : IPv4Address} (h : parse s = some a) :
    ∀ c ∈ s.toList, CharIn c := by
  obtain ⟨ns, hns, -⟩ := Option.bind_eq_some_iff.mp h
  intro c hc
  rw [← Text.join_splitOn '.' s] at hc
  rcases Text.mem_join hc with hdot | ⟨p, hp, hcp⟩
  · exact Or.inr hdot
  · have hdig := isDigits_of_mapM hns p hp
    simp only [Text.isDigits, Bool.and_eq_true, List.all_eq_true] at hdig
    exact Or.inl (hdig.2 c hcp)

lemma charIn_of_mem_text {a : IPv4Address} {c : Char} (h : c ∈ a.text.toList) : CharIn c :=
  charIn_of_parse (parse_text a) c h

/-- A character that no address holds. -/
lemma notMem_text (a : IPv4Address) {c : Char} (hd : c.isDigit = false) (hc : c ≠ '.') :
    c ∉ a.text.toList := fun h => by
  rcases charIn_of_mem_text h with hdig | hdot
  · simp [hdig] at hd
  · exact hc hdot

/-- `IPv4Address(f"{a}.{b}.{c}.{d}")` of four numbers. -/
def quad (a b c d : ℕ) : Option IPv4Address :=
  if a ≤ 255 ∧ b ≤ 255 ∧ c ≤ 255 ∧ d ≤ 255 then ofOctets [a, b, c, d] else none

lemma parseOctet_repr_eq (n : ℕ) : parseOctet n.repr = if n ≤ 255 then some n else none := by
  split
  · exact parseOctet_repr (by omega)
  · rename_i h
    rw [parseOctet, Text.number_repr, if_neg]
    exact fun hn => h hn.2.2.2

/-- `quad` reads the text it stands for. -/
lemma parse_quad (a b c d : ℕ) :
    parse (Text.join '.' ([a, b, c, d].map Nat.repr)) = quad a b c d := by
  have hdot : ∀ p ∈ [a, b, c, d].map Nat.repr, '.' ∉ p.toList := by
    intro p hp
    obtain ⟨n, -, rfl⟩ := List.mem_map.mp hp
    exact Text.notMem_repr (by decide)
  rw [parse, Text.splitOn_join (by simp) hdot, quad]
  simp only [List.map_cons, List.map_nil, List.mapM_cons, List.mapM_nil, parseOctet_repr_eq]
  split_ifs <;> simp_all

lemma quad_toNat {a b c d : ℕ} {x : IPv4Address} (h : quad a b c d = some x) :
    x.toNat = ((a * 256 + b) * 256 + c) * 256 + d ∧ a ≤ 255 ∧ b ≤ 255 ∧ c ≤ 255 ∧ d ≤ 255 := by
  unfold quad at h
  split at h
  · rename_i hle
    exact ⟨ofNat?_eq_some.mp h, hle⟩
  · simp at h

lemma text_quad {a b c d : ℕ} {x : IPv4Address} (h : quad a b c d = some x) :
    x.text = Text.join '.' ([a, b, c, d].map Nat.repr) := by
  obtain ⟨hval, ha, hb, hc, hd⟩ := quad_toNat h
  have hoctets : x.octets = [a, b, c, d] := by
    simp only [octets, octet, hval, Nat.reducePow, Nat.div_one, List.cons.injEq, and_true]
    omega
  rw [text, hoctets]

/-! ### Intervals -/

/-- `[IPv4Address(i) for i in range(int(a), int(b) + 1)]`. -/
def upTo (a b : IPv4Address) : List IPv4Address :=
  (List.range' a.toNat (b.toNat + 1 - a.toNat)).filterMap ofNat?

lemma map_toNat_filterMap {l : List ℕ} (h : ∀ n ∈ l, n < 2 ^ 32) :
    (l.filterMap ofNat?).map toNat = l := by
  induction l with
  | nil => rfl
  | cons n l ih =>
      have hn : ofNat? n = some ⟨n, h n (by simp)⟩ := ofNat?_eq_some.mpr rfl
      rw [List.filterMap_cons_some hn, List.map_cons, ih fun m hm => h m (List.mem_cons_of_mem n hm)]

lemma map_toNat_upTo (a b : IPv4Address) :
    (upTo a b).map toNat = List.range' a.toNat (b.toNat + 1 - a.toNat) := by
  refine map_toNat_filterMap fun n hn => ?_
  have hb := b.lt
  rw [List.mem_range'_1] at hn
  omega

/-- **Addresses that count up by one** are the interval from the first to the last. -/
lemma map_toNat_of_isChain {a : IPv4Address} {l : List IPv4Address}
    (h : (a :: l).IsChain fun x y => y.toNat = x.toNat + 1) :
    (a :: l).map toNat = List.range' a.toNat (l.length + 1) := by
  induction l generalizing a with
  | nil => rfl
  | cons b l ih =>
      obtain ⟨hab, hl⟩ := List.isChain_cons_cons.mp h
      rw [List.map_cons, ih hl, List.length_cons, List.range'_succ (s := a.toNat), hab]

lemma upTo_getLast {a : IPv4Address} {l : List IPv4Address}
    (h : (a :: l).IsChain fun x y => y.toNat = x.toNat + 1) :
    upTo a ((a :: l).getLast (List.cons_ne_nil a l)) = a :: l := by
  have hmap := map_toNat_of_isChain h
  have hlast : ((a :: l).getLast (List.cons_ne_nil a l)).toNat = a.toNat + l.length := by
    have hl := congrArg List.getLast? hmap
    rw [List.getLast?_map, List.getLast?_eq_getLast_of_ne_nil (List.cons_ne_nil a l),
      List.range'_concat, List.getLast?_concat] at hl
    simpa using hl
  refine toNat_injective.list_map ?_
  rw [map_toNat_upTo, hmap, hlast]
  congr 1
  omega

end IPv4Address

/-! ### Networks -/

/-- An IPv4 network: its first address, with the host bits zero, and its prefix length. -/
@[ext] structure IPv4Network where
  network : IPv4Address
  prefixlen : ℕ
  le : prefixlen ≤ 32
  aligned : 2 ^ (32 - prefixlen) ∣ network.toNat
deriving DecidableEq

namespace IPv4Network

/-- The number of addresses of the network. -/
def size (n : IPv4Network) : ℕ := 2 ^ (32 - n.prefixlen)

lemma size_pos (n : IPv4Network) : 0 < n.size := Nat.two_pow_pos _

lemma network_add_size_le (n : IPv4Network) : n.network.toNat + n.size ≤ 2 ^ 32 := by
  obtain ⟨k, hk⟩ := n.aligned
  have hpow : 2 ^ (32 - n.prefixlen) * 2 ^ n.prefixlen = 2 ^ 32 := by
    rw [← Nat.pow_add]
    congr 1
    have := n.le
    omega
  have hlt : 2 ^ (32 - n.prefixlen) * k < 2 ^ (32 - n.prefixlen) * 2 ^ n.prefixlen := by
    rw [hpow, ← hk]; exact n.network.lt
  have hk1 : k + 1 ≤ 2 ^ n.prefixlen := Nat.lt_of_mul_lt_mul_left hlt
  calc n.network.toNat + n.size = 2 ^ (32 - n.prefixlen) * (k + 1) := by
        rw [hk, size]; ring
    _ ≤ 2 ^ (32 - n.prefixlen) * 2 ^ n.prefixlen := Nat.mul_le_mul_left _ hk1
    _ = 2 ^ 32 := hpow

/-- The last address. -/
def broadcast (n : IPv4Network) : IPv4Address :=
  ⟨n.network.toNat + n.size - 1, by
    have h1 := n.network_add_size_le
    have h2 := n.size_pos
    omega⟩

instance : Membership IPv4Address IPv4Network :=
  ⟨fun n a => n.network ≤ a ∧ a ≤ n.broadcast⟩

instance (a : IPv4Address) (n : IPv4Network) : Decidable (a ∈ n) :=
  inferInstanceAs (Decidable (n.network ≤ a ∧ a ≤ n.broadcast))

lemma mem_iff {a : IPv4Address} {n : IPv4Network} :
    a ∈ n ↔ n.network.toNat ≤ a.toNat ∧ a.toNat < n.network.toNat + n.size := by
  have h2 := n.size_pos
  change n.network.toNat ≤ a.toNat ∧ a.toNat ≤ n.network.toNat + n.size - 1 ↔ _
  omega

/-- The addresses of the network, in order. -/
def addresses (n : IPv4Network) : List IPv4Address := IPv4Address.upTo n.network n.broadcast

lemma map_toNat_addresses (n : IPv4Network) :
    n.addresses.map IPv4Address.toNat = List.range' n.network.toNat n.size := by
  have hpos := n.size_pos
  rw [addresses, IPv4Address.map_toNat_upTo]
  congr 1
  change n.network.toNat + n.size - 1 + 1 - n.network.toNat = n.size
  omega

/-- `IPv4Network(f"{a}/{prefixlen}", strict=False)`: the host bits are cleared. -/
def ofHost (a : IPv4Address) (prefixlen : ℕ) (h : prefixlen ≤ 32) : IPv4Network where
  network := ⟨a.toNat - a.toNat % 2 ^ (32 - prefixlen),
    Nat.lt_of_le_of_lt (Nat.sub_le _ _) a.lt⟩
  prefixlen := prefixlen
  le := h
  aligned := Nat.dvd_sub_mod _

/-- `IPv4Network(f"{a}/{prefixlen}")`: refused when a host bit is set. -/
def strict (a : IPv4Address) (prefixlen : ℕ) (h : prefixlen ≤ 32) : Option IPv4Network :=
  if ha : 2 ^ (32 - prefixlen) ∣ a.toNat then some ⟨a, prefixlen, h, ha⟩ else none

/-- The prefix length of a netmask or a host mask. -/
def ofMask (mask : IPv4Address) : Option ℕ :=
  ((List.range 33).find? fun p => mask.toNat = 2 ^ 32 - 2 ^ (32 - p)).or
    ((List.range 33).find? fun p => mask.toNat = 2 ^ (32 - p) - 1)

/-- The prefix length behind the slash: a number up to 32, or a mask. -/
def parsePrefix (s : String) : Option ℕ :=
  if Text.isDigits s then (if Text.number s ≤ 32 then some (Text.number s) else none)
  else (IPv4Address.parse s).bind ofMask

/-- `IPv4Network(s)` of a string: an address, with a prefix length or on its own. -/
def parse (s : String) : Option IPv4Network :=
  let make (a : String) (prefixlen : Option ℕ) : Option IPv4Network := do
    let ip ← IPv4Address.parse a
    let p ← prefixlen
    if h : p ≤ 32 then strict ip p h else none
  match Text.splitOn '/' s with
  | [a] => make a (some 32)
  | [a, p] => make a (parsePrefix p)
  | _ => none

/-- `a.subnet_of(b)`. -/
def subnetOf (a b : IPv4Network) : Bool :=
  decide (b.network ≤ a.network ∧ a.broadcast ≤ b.broadcast)

/-- `str(n)`. -/
def text (n : IPv4Network) : String := n.network.text ++ "/" ++ n.prefixlen.repr

/-- **Reading the text of a network gives the network back.** -/
theorem parse_text (n : IPv4Network) : parse n.text = some n := by
  have hslash : ('/' : Char).isDigit = false := by decide
  have hsplit : Text.splitOn '/' n.text = [n.network.text, n.prefixlen.repr] := by
    have htext : n.text = Text.join '/' [n.network.text, n.prefixlen.repr] := rfl
    rw [htext]
    refine Text.splitOn_join (by simp) fun p hp => ?_
    rcases List.mem_cons.mp hp with rfl | hp
    · exact IPv4Address.notMem_text _ hslash (by decide)
    · rw [List.mem_singleton.mp hp]
      exact Text.notMem_repr hslash
  have hlen : parsePrefix n.prefixlen.repr = some n.prefixlen := by
    rw [parsePrefix, if_pos (Text.isDigits_repr _), Text.number_repr, if_pos n.le]
  simp only [parse, hsplit, hlen, IPv4Address.parse_text, Option.bind_eq_bind, Option.bind_some,
    dif_pos n.le, strict, dif_pos n.aligned]

end IPv4Network

end Net
