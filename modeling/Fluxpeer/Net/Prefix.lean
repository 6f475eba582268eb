import Fluxpeer.Lib.Bytes
import Fluxpeer.Lib.Text
import Mathlib.Data.BitVec

/-!
# Addresses and prefixes

An IP prefix keeps its network address with the host bits cleared, so that two texts of one
prefix give one value. How addresses are written is the library's business: `AddrText` has the
reader and the writer of addresses, with what the program relies on.
-/

namespace Fluxpeer.Net

open Lib

inductive IpAddr
  | v4 (octets : Block 4)
  | v6 (octets : Block 16)
deriving DecidableEq

/-! ## Octets as numbers -/

/-- The number with the given octets, most significant first. -/
def toBits {n : Nat} (octets : Block n) : BitVec (8 * n) := BitVec.ofNat _ (fromBe octets.toList)

def ofBits {n : Nat} (x : BitVec (8 * n)) : Block n := ⟨beBytes n x.toNat, length_beBytes n _⟩

lemma two_pow_eight_mul (n : Nat) : 2 ^ (8 * n) = 256 ^ n := by
  rw [Nat.pow_mul]

variable {n : Nat} {w length i : Nat} {value : String} {octets : Bytes}

@[simp] lemma toBits_ofBits (x : BitVec (8 * n)) : toBits (ofBits x) = x := by
  apply BitVec.eq_of_toNat_eq
  have hlt := x.isLt
  rw [two_pow_eight_mul] at hlt
  rw [toBits, BitVec.toNat_ofNat, two_pow_eight_mul]
  change fromBe (beBytes n x.toNat) % 256 ^ n = x.toNat
  rw [fromBe_beBytes, Nat.mod_mod, Nat.mod_eq_of_lt hlt]

@[simp] lemma ofBits_toBits (octets : Block n) : ofBits (toBits octets) = octets := by
  apply Subtype.ext
  obtain ⟨b, rfl⟩ := octets
  change beBytes b.length (BitVec.ofNat _ (fromBe b)).toNat = b
  have hlt : fromBe b < 256 ^ b.length := by
    rw [← List.length_reverse]
    exact fromLe_lt b.reverse
  have hbytes := leBytes_fromLe b.reverse
  rw [List.length_reverse] at hbytes
  rw [BitVec.toNat_ofNat, two_pow_eight_mul, Nat.mod_eq_of_lt hlt, beBytes, fromBe, hbytes,
    List.reverse_reverse]

lemma ofBits_eq_iff {x : BitVec (8 * n)} {octets : Block n} :
    ofBits x = octets ↔ x = toBits octets := by
  constructor
  · rintro rfl
    rw [toBits_ofBits]
  · rintro rfl
    rw [ofBits_toBits]

/-- The first `length` of `w` bits. -/
def mask (w length : Nat) : BitVec w :=
  if length = 0 then 0#w else BitVec.allOnes w <<< (w - length)

lemma getLsbD_mask (hlength : length ≤ w) :
    (mask w length).getLsbD i = (decide (w - length ≤ i) && decide (i < w)) := by
  unfold mask
  split
  · next h =>
    subst h
    simp
  · rw [BitVec.getLsbD_shiftLeft, BitVec.getLsbD_allOnes]
    grind

@[simp] lemma mask_zero (w : Nat) : mask w 0 = 0#w := if_pos rfl

/-! ## Addresses -/

namespace IpAddr

def isIpv4 : IpAddr → Bool
  | .v4 _ => true
  | .v6 _ => false

def width : IpAddr → Nat
  | .v4 _ => 32
  | .v6 _ => 128

/-- The bits of an address, the first one first. -/
def bit : IpAddr → Nat → Bool
  | .v4 octets, i => (toBits octets).getMsbD i
  | .v6 octets, i => (toBits octets).getMsbD i

/-- The address with all but its first `length` bits cleared. -/
def truncate (length : Nat) : IpAddr → IpAddr
  | .v4 ip => .v4 (ofBits (toBits ip &&& mask 32 length))
  | .v6 ip => .v6 (ofBits (toBits ip &&& mask 128 length))

@[simp] lemma width_truncate (length : Nat) (a : IpAddr) : (a.truncate length).width = a.width := by
  cases a <;> rfl

@[simp] lemma isIpv4_truncate (length : Nat) (a : IpAddr) :
    (a.truncate length).isIpv4 = a.isIpv4 := by
  cases a <;> rfl

@[simp] lemma truncate_truncate (length : Nat) (a : IpAddr) :
    (a.truncate length).truncate length = a.truncate length := by
  cases a <;> simp only [truncate, toBits_ofBits, BitVec.and_assoc, BitVec.and_self]

lemma truncate_zero_eq {a b : IpAddr} (h : a.isIpv4 = b.isIpv4) :
    a.truncate 0 = b.truncate 0 := by
  cases a <;> cases b <;> cases h <;>
    simp only [truncate, mask_zero, BitVec.and_zero]

/-- An address that differs in the last of `length'` bits only. -/
lemma exists_truncate_eq_ne (a : IpAddr) {length length' : Nat} (hlt : length < length')
    (hlength : length' ≤ a.width) :
    ∃ b : IpAddr, b.truncate length = a.truncate length ∧ b.truncate length' ≠ a.truncate length' := by
  have hbits : ∀ {n : Nat} (ip : Block n), length' ≤ 8 * n → ∃ other : Block n,
      ofBits (toBits other &&& mask (8 * n) length) = ofBits (toBits ip &&& mask (8 * n) length) ∧
      ofBits (toBits other &&& mask (8 * n) length') ≠
        ofBits (toBits ip &&& mask (8 * n) length') := by
    intro n ip hn
    refine ⟨ofBits (toBits ip ^^^ BitVec.twoPow (8 * n) (8 * n - length')), ?_, ?_⟩
    · rw [ofBits_eq_iff, toBits_ofBits, toBits_ofBits]
      apply BitVec.eq_of_getLsbD_eq
      intro i hi
      rw [BitVec.getLsbD_and, BitVec.getLsbD_and, BitVec.getLsbD_xor, BitVec.getLsbD_twoPow,
        getLsbD_mask (by omega)]
      grind
    · rw [Ne, ofBits_eq_iff, toBits_ofBits, toBits_ofBits]
      intro heq
      have hbit := congrArg (BitVec.getLsbD · (8 * n - length')) heq
      simp only [BitVec.getLsbD_and, BitVec.getLsbD_xor, BitVec.getLsbD_twoPow] at hbit
      rw [getLsbD_mask hn] at hbit
      grind
  cases a with
  | v4 ip =>
    obtain ⟨other, heq, hne⟩ := hbits (n := 4) ip hlength
    exact ⟨.v4 other, congrArg IpAddr.v4 heq, fun h => hne (IpAddr.v4.inj h)⟩
  | v6 ip =>
    obtain ⟨other, heq, hne⟩ := hbits (n := 16) ip hlength
    exact ⟨.v6 other, congrArg IpAddr.v6 heq, fun h => hne (IpAddr.v6.inj h)⟩

end IpAddr

/-- The text form of addresses, as the library reads and writes it. -/
structure AddrText where
  parse : String → Option IpAddr
  display : IpAddr → String
  parse_display : ∀ a, parse (display a) = some a
  /-- Only IPv6 addresses have colons in them. -/
  parse_colon : ∀ s a, parse s = some a → (':' ∈ s.toList ↔ a.isIpv4 = false)
  display_slash : ∀ a, '/' ∉ (display a).toList

/-! ## Prefixes -/

/-- A prefix in the form that it is compared in. -/
structure IpPrefix where
  network : IpAddr
  length : Nat
  length_le : length ≤ network.width
  masked : network.truncate length = network
deriving DecidableEq

/-- The text after an optional plus sign. -/
def stripPlus : List Char → List Char
  | '+' :: rest => rest
  | all => all

/-- `parse::<u8>`: decimal digits, with an optional plus sign. -/
def parseU8 (value : String) : Option Nat :=
  let digits := stripPlus value.toList
  if digits = [] ∨ ¬ digits.all Char.isDigit then none
  else
    let n := digits.foldl (fun n c => 10 * n + (c.toNat - '0'.toNat)) 0
    if n < 256 then some n else none

lemma parseU8_repr (h : n < 256) : parseU8 (Nat.repr n) = some n := by
  have hall : ∀ n : Fin 256, parseU8 (Nat.repr n) = some n.val := by decide +kernel
  exact hall ⟨n, h⟩

lemma mem_stripPlus {d : Char} {cs : List Char} (h : d ∈ cs) : d = '+' ∨ d ∈ stripPlus cs := by
  unfold stripPlus
  split <;> grind

lemma colon_notMem_of_parseU8 (h : parseU8 value = some n) : ':' ∉ value.toList := by
  intro hcolon
  rw [parseU8] at h
  split at h
  · cases h
  next hdigits =>
  obtain ⟨_, hall⟩ := not_or.mp hdigits
  rw [not_not, List.all_eq_true] at hall
  rcases mem_stripPlus hcolon with hplus | hmem
  · cases hplus
  · exact absurd (hall _ hmem) (by decide)

namespace IpPrefix

/-- The prefix of an address, if it has that many bits. -/
def ofAddr (address : IpAddr) (length : Nat) : Option IpPrefix :=
  if h : length ≤ address.width then
    some ⟨address.truncate length, length, by simpa using h, by simp⟩
  else none

def fromStr (text : AddrText) (value : String) : Option IpPrefix := do
  let (address, length) ← match splitOnce '/' value with
    | some (address, length) => (parseU8 length).map fun length => (address, some length)
    | none => some (value, none)
  let address ← text.parse address
  ofAddr address (length.getD (if address.isIpv4 then 32 else 128))

def contains (p : IpPrefix) (address : IpAddr) : Bool :=
  match p.network, address with
  | .v4 network, .v4 address => (toBits address &&& mask 32 p.length) == toBits network
  | .v6 network, .v6 address => (toBits address &&& mask 128 p.length) == toBits network
  | _, _ => false

/-- `is_default_prefix`: the text of a prefix of length zero. -/
def isDefaultText (text : AddrText) (value : String) : Bool :=
  (fromStr text value).any fun p => p.length = 0

variable {p q : IpPrefix} {a : IpAddr}

lemma ofAddr_network {length : Nat} (h : ofAddr a length = some p) :
    p.network = a.truncate length := by
  unfold ofAddr at h
  split at h
  · cases h
    rfl
  · cases h

/-- The text of a prefix is an address, with or without a length behind a slash. -/
lemma fromStr_eq_some {text : AddrText} (h : fromStr text value = some p) :
    ∃ address ip length, text.parse address = some ip ∧ ofAddr ip length = some p ∧
      (value = address ∨
        ∃ back n, splitOnce '/' value = some (address, back) ∧ parseU8 back = some n) := by
  unfold fromStr at h
  cases hsplit : splitOnce '/' value with
  | none =>
    simp only [hsplit, Option.bind_eq_bind, Option.bind_some, Option.bind_eq_some_iff] at h
    obtain ⟨ip, hparse, hof⟩ := h
    exact ⟨value, ip, _, hparse, hof, .inl rfl⟩
  | some parts =>
    obtain ⟨address, back⟩ := parts
    simp only [hsplit, Option.bind_eq_bind, Option.bind_eq_some_iff, Option.map_eq_some_iff] at h
    obtain ⟨_, ⟨n, hn, rfl⟩, ip, hparse, hof⟩ := h
    exact ⟨address, ip, _, hparse, hof, .inr ⟨back, n, rfl, hn⟩⟩

/-- An address is in a prefix when its first bits are those of the network. -/
lemma contains_iff : p.contains a = true ↔ a.truncate p.length = p.network := by
  unfold contains
  cases hn : p.network with
  | v4 network =>
    cases a with
    | v4 address =>
      rw [IpAddr.truncate, beq_iff_eq, IpAddr.v4.injEq, ofBits_eq_iff]
    | v6 address => simp [IpAddr.truncate]
  | v6 network =>
    cases a with
    | v4 address => simp [IpAddr.truncate]
    | v6 address =>
      rw [IpAddr.truncate, beq_iff_eq, IpAddr.v6.injEq, ofBits_eq_iff]

/-- Two prefixes of one length that share an address are the same. -/
lemma eq_of_contains (hlength : p.length = q.length) (hp : p.contains a = true)
    (hq : q.contains a = true) : p = q := by
  rw [contains_iff] at hp hq
  obtain ⟨network, length, _, _⟩ := p
  obtain ⟨network', length', _, _⟩ := q
  dsimp only at hlength hp hq
  subst hlength hp hq
  rfl

lemma contains_network (p : IpPrefix) : p.contains p.network = true := contains_iff.mpr p.masked

lemma length_le_of_contains (h : ∀ a, p.contains a = true → q.contains a = true) :
    q.length ≤ p.length := by
  by_contra hlt
  have hnetwork := contains_iff.mp (h _ p.contains_network)
  have hwidth : q.length ≤ p.network.width := by
    have := q.length_le
    rwa [← hnetwork, IpAddr.width_truncate] at this
  obtain ⟨b, heq, hne⟩ := p.network.exists_truncate_eq_ne (Nat.lt_of_not_le hlt) hwidth
  have hb := contains_iff.mp (h b (contains_iff.mpr (heq.trans p.masked)))
  exact hne (hb.trans hnetwork.symm)

/-- Two prefixes with the same addresses are the same. -/
lemma ext_contains (h : ∀ a, p.contains a = q.contains a) : p = q := by
  have hlength : p.length = q.length := by
    apply Nat.le_antisymm
    · exact length_le_of_contains fun a ha => (h a).trans ha
    · exact length_le_of_contains fun a ha => (h a).symm.trans ha
  exact eq_of_contains hlength p.contains_network ((h _).symm.trans p.contains_network)

/-- Every address of the family is in the prefix. -/
def Covers (p : IpPrefix) : Prop :=
  ∀ a : IpAddr, a.isIpv4 = p.network.isIpv4 → p.contains a = true

lemma covers_iff : p.Covers ↔ p.length = 0 := by
  constructor
  · intro h
    by_contra hne
    obtain ⟨b, heq, htruncate⟩ :=
      p.network.exists_truncate_eq_ne (Nat.pos_of_ne_zero hne) p.length_le
    have hfamily : b.isIpv4 = p.network.isIpv4 := by
      rw [← IpAddr.isIpv4_truncate 0 b, heq, IpAddr.isIpv4_truncate]
    exact htruncate ((contains_iff.mp (h b hfamily)).trans p.masked.symm)
  · intro h a hfamily
    have hmasked := p.masked
    rw [contains_iff]
    rw [h] at hmasked ⊢
    rw [← hmasked]
    exact IpAddr.truncate_zero_eq hfamily

end IpPrefix

/-! ## A text form

Octets in decimal, between dots for IPv4 and between colons for IPv6. It satisfies the laws of
`AddrText`, and runs of the model can be evaluated with it. -/

namespace AddrText

def digits (b : UInt8) : List Char := (Nat.repr b.toNat).toList

def displayOctets (sep : Char) (octets : Bytes) : String :=
  String.ofList (List.intercalate [sep] (octets.map digits))

def parseOctets (n : Nat) (sep : Char) (value : String) : Option (Block n) := do
  let octets ← (value.toList.splitOn sep).mapM fun part => parseU8 (String.ofList part)
  Block.ofBytes? n (octets.map UInt8.ofNat)

lemma parseU8_digits (b : UInt8) : parseU8 (String.ofList (digits b)) = some b.toNat := by
  rw [digits, String.ofList_toList]
  exact parseU8_repr b.toNat_lt

lemma isDigit_of_mem_digits {b : UInt8} {c : Char} (h : c ∈ digits b) : c.isDigit = true := by
  rw [digits, Nat.repr_eq_ofList_toDigits, String.toList_ofList] at h
  exact Nat.isDigit_of_mem_toDigits (by decide) (by decide) h

lemma mem_displayOctets {sep c : Char} (h : c ∈ (displayOctets sep octets).toList) :
    c = sep ∨ c.isDigit = true := by
  rw [displayOctets, String.toList_ofList] at h
  induction octets with
  | nil => cases h
  | cons a octets ih =>
    cases octets with
    | nil => exact .inr (isDigit_of_mem_digits (by simpa using h))
    | cons b octets =>
      simp only [List.map_cons, List.intercalate_cons_cons, List.mem_append,
        List.mem_singleton] at h ih
      rcases h with (hdigit | hsep) | hrest
      · exact .inr (isDigit_of_mem_digits hdigit)
      · exact .inl hsep
      · exact ih hrest

lemma sep_mem_displayOctets {sep : Char} (h : 2 ≤ octets.length) :
    sep ∈ (displayOctets sep octets).toList := by
  match octets, h with
  | a :: b :: octets, _ =>
    simp [displayOctets, List.intercalate_cons_cons]

lemma parseOctets_displayOctets {sep : Char} (hsep : sep.isDigit = false)
    (octets : Block (n + 1)) :
    parseOctets (n + 1) sep (displayOctets sep octets.toList) = some octets := by
  have hsplit : (displayOctets sep octets.toList).toList.splitOn sep =
      octets.toList.map digits := by
    rw [displayOctets, String.toList_ofList]
    apply List.splitOn_intercalate
    · simp only [List.mem_map, forall_exists_index, and_imp, forall_apply_eq_imp_iff₂]
      intro b _ hmem
      rw [isDigit_of_mem_digits hmem] at hsep
      cases hsep
    · intro hnil
      have hlength := octets.toList_length
      rw [List.map_eq_nil_iff.mp hnil] at hlength
      cases hlength
  have hall : (octets.toList.map digits).mapM (fun part => parseU8 (String.ofList part)) =
      some (octets.toList.map UInt8.toNat) := by
    rw [List.mapM_map]
    induction octets.toList with
    | nil => rfl
    | cons b octets ih =>
      rw [List.mapM_cons, ih, Function.comp_apply, parseU8_digits]
      rfl
  simp only [parseOctets, hsplit, hall, Option.bind_eq_bind, Option.bind_some, List.map_map]
  have hid : octets.toList.map (UInt8.ofNat ∘ UInt8.toNat) = octets.toList := by
    simp [Function.comp_def]
  rw [hid, Block.ofBytes?_toList]

def plain : AddrText where
  parse value :=
    if ':' ∈ value.toList then (parseOctets 16 ':' value).map .v6
    else (parseOctets 4 '.' value).map .v4
  display
    | .v4 octets => displayOctets '.' octets.toList
    | .v6 octets => displayOctets ':' octets.toList
  parse_display := by
    rintro (octets | octets)
    · have hcolon : ':' ∉ (displayOctets '.' octets.toList).toList := by
        intro hmem
        rcases mem_displayOctets hmem with heq | hdigit
        · cases heq
        · exact absurd hdigit (by decide)
      rw [if_neg hcolon, parseOctets_displayOctets (by decide), Option.map_some]
    · have hcolon : ':' ∈ (displayOctets ':' octets.toList).toList :=
        sep_mem_displayOctets (by simp)
      rw [if_pos hcolon, parseOctets_displayOctets (by decide), Option.map_some]
  parse_colon := by
    intro value a h
    split at h
    · next hcolon =>
      obtain ⟨octets, _, rfl⟩ := Option.map_eq_some_iff.mp h
      exact iff_of_true hcolon rfl
    · next hcolon =>
      obtain ⟨octets, _, rfl⟩ := Option.map_eq_some_iff.mp h
      exact iff_of_false hcolon (by simp [IpAddr.isIpv4])
  display_slash := by
    rintro (octets | octets) hmem
    all_goals
      rcases mem_displayOctets hmem with heq | hdigit
      · cases heq
      · exact absurd hdigit (by decide)

end AddrText

end Fluxpeer.Net
