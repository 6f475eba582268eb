import Fluxpeer.Net.PublicKey
import Fluxpeer.Node.RouteTable

/-!
# Exit selection

At most one peer carries the traffic that no other prefix takes. Which one is a local setting,
resolved against the peers of a configuration; the defaults of all others are removed before the
routes are built, and so is every IPv6 default.
-/

namespace Fluxpeer.Node

open Lib Crypto Net IpPrefix

/-- A peer as the control plane describes it. -/
structure PeerInfo where
  pubkey : Key
  candidates : List SocketAddr
  allowedIps : List String
  overlay : Option (Block 4)
  /-- An approved exit. -/
  exit : Bool
deriving DecidableEq

/-! ## The setting -/

/-- The first of the peers with the smallest key. -/
def minByPubkey (peers : List PeerInfo) : Option PeerInfo :=
  peers.foldl (fun best p => match best with
    | none => some p
    | some b => if keyLt p.pubkey b.pubkey then some p else some b) none

/-- A relay makes peers without endpoints eligible. -/
def eligible (relayAvailable : Bool) (p : PeerInfo) : Bool :=
  p.exit && (relayAvailable || !p.candidates.isEmpty)

def selectExit (peers : List PeerInfo) (useExit : Option String) (relayAvailable : Bool) :
    Option Key :=
  match useExit.map trim with
  | none | some "" | some "off" => none
  | some "auto" => (minByPubkey (peers.filter (eligible relayAvailable))).map (·.pubkey)
  | some hexPk =>
    match PublicKey.decode hexPk with
    | some pk => (peers.find? fun p => p.pubkey = pk ∧ p.exit).map (·.pubkey)
    | none => none

/-- The peer without the defaults that are not its to carry. -/
def stripDefaults (text : AddrText) (selected : Option Key) (p : PeerInfo) : PeerInfo :=
  { p with
    allowedIps := p.allowedIps.filter fun c =>
      !IpPrefix.isDefaultText text c ||
        (!c.toList.contains ':' && decide (some p.pubkey = selected)) }

def applyUseExit (text : AddrText) (peers : List PeerInfo) (useExit : Option String)
    (relayAvailable : Bool) : Option Key × List PeerInfo :=
  let selected := selectExit peers useExit relayAvailable
  (selected, peers.map (stripDefaults text selected))

/-! ## Defaults -/

variable {text : AddrText} {c : String} {p : PeerInfo}

/-- The text of a prefix with all the addresses of its family. -/
def CoversText (text : AddrText) (c : String) : Prop :=
  ∃ q, IpPrefix.fromStr text c = some q ∧ q.Covers

lemma isDefaultText_iff : isDefaultText text c = true ↔ CoversText text c := by
  simp [isDefaultText, CoversText, covers_iff, Option.any_eq_true]

instance : Decidable (CoversText text c) := decidable_of_iff _ isDefaultText_iff

/-- A prefix has a colon in its text exactly when it is an IPv6 one: none is in its length. -/
lemma colon_iff_of_fromStr {q : IpPrefix} (h : fromStr text c = some q) :
    ':' ∈ c.toList ↔ q.network.isIpv4 = false := by
  obtain ⟨address, ip, length, hparse, hof, hvalue⟩ := fromStr_eq_some h
  have hfamily : q.network.isIpv4 = ip.isIpv4 := by
    rw [ofAddr_network hof, IpAddr.isIpv4_truncate]
  have hcolon : ':' ∈ c.toList ↔ ':' ∈ address.toList := by
    rcases hvalue with rfl | ⟨back, n, hsplit, hn⟩
    · rfl
    · have hback := colon_notMem_of_parseU8 hn
      rw [splitOnce_eq_some hsplit]
      simp [hback]
  rw [hcolon, text.parse_colon address ip hparse, hfamily]

/-! ## The selection -/

lemma minByPubkey_append {peers : List PeerInfo} :
    minByPubkey (peers ++ [p]) = match minByPubkey peers with
      | none => some p
      | some b => if keyLt p.pubkey b.pubkey then some p else some b := by
  rw [minByPubkey, List.foldl_append]
  rfl

lemma minByPubkey_eq_none {peers : List PeerInfo} : minByPubkey peers = none ↔ peers = [] := by
  induction peers using List.reverseRecOn with
  | nil => simp [minByPubkey]
  | append_singleton peers p ih =>
    rw [minByPubkey_append]
    cases minByPubkey peers with
    | none => simp
    | some b =>
      dsimp only
      split <;> simp

lemma minByPubkey_spec {peers : List PeerInfo} (h : minByPubkey peers = some p) :
    p ∈ peers ∧ ∀ q ∈ peers, p.pubkey.toList ≤ q.pubkey.toList := by
  induction peers using List.reverseRecOn generalizing p with
  | nil => cases h
  | append_singleton peers q ih =>
    rw [minByPubkey_append] at h
    split at h
    · next hnone =>
      cases h
      rw [minByPubkey_eq_none.mp hnone]
      simp
    · next b hb =>
      obtain ⟨hmem, hmin⟩ := ih hb
      split at h
      · next hlt =>
        cases h
        have hle : q.pubkey.toList ≤ b.pubkey.toList := List.le_of_lt (of_decide_eq_true hlt)
        refine ⟨by simp, ?_⟩
        intro r hr
        rcases List.mem_append.mp hr with hr | hr
        · exact List.le_trans hle (hmin r hr)
        · rw [List.mem_singleton.mp hr]
          exact List.le_refl _
      · next hlt =>
        cases h
        have hle : p.pubkey.toList ≤ q.pubkey.toList := by
          rw [keyLt, decide_eq_true_eq] at hlt
          exact List.not_lt.mp hlt
        refine ⟨List.mem_append_left _ hmem, ?_⟩
        intro r hr
        rcases List.mem_append.mp hr with hr | hr
        · exact hmin r hr
        · rw [List.mem_singleton.mp hr]
          exact hle

/-- The smallest key among the exits that can be reached. -/
def LeastExit (peers : List PeerInfo) (relayAvailable : Bool) (pk : Key) : Prop :=
  (∃ p ∈ peers, eligible relayAvailable p = true ∧ p.pubkey = pk) ∧
    ∀ p ∈ peers, eligible relayAvailable p = true → pk.toList ≤ p.pubkey.toList

variable {peers : List PeerInfo} {useExit : Option String} {relayAvailable : Bool} {pk : Key}

lemma minByPubkey_filter :
    (minByPubkey (peers.filter (eligible relayAvailable))).map (·.pubkey) = some pk ↔
      LeastExit peers relayAvailable pk := by
  rw [Option.map_eq_some_iff]
  constructor
  · rintro ⟨p, hmin, rfl⟩
    obtain ⟨hmem, hle⟩ := minByPubkey_spec hmin
    obtain ⟨hpeer, heligible⟩ := List.mem_filter.mp hmem
    refine ⟨⟨p, hpeer, heligible, rfl⟩, ?_⟩
    intro q hq hqe
    exact hle q (List.mem_filter.mpr ⟨hq, hqe⟩)
  · rintro ⟨⟨p, hp, hpe, rfl⟩, hleast⟩
    have hmem := List.mem_filter.mpr ⟨hp, hpe⟩
    cases hmin : minByPubkey (peers.filter (eligible relayAvailable)) with
    | none =>
      rw [minByPubkey_eq_none.mp hmin] at hmem
      cases hmem
    | some q =>
      obtain ⟨hq, hle⟩ := minByPubkey_spec hmin
      obtain ⟨hqp, hqe⟩ := List.mem_filter.mp hq
      exact ⟨q, rfl, RouteEntry.key_eq_of_le (hle p hmem) (hleast q hqp hqe)⟩

lemma find_exit {key : Key} :
    (peers.find? fun p => p.pubkey = key ∧ p.exit).map (·.pubkey) = some pk ↔
      pk = key ∧ ∃ p ∈ peers, p.pubkey = key ∧ p.exit = true := by
  cases hfind : peers.find? fun p => p.pubkey = key ∧ p.exit with
  | none =>
    have hnone := List.find?_eq_none.mp hfind
    grind
  | some q =>
    have hmem := List.mem_of_find?_eq_some hfind
    have hq := List.find?_some hfind
    grind

/-- What the setting selects: the least exit, or the exit that it names. -/
def Selects (peers : List PeerInfo) (useExit : Option String) (relayAvailable : Bool) (pk : Key) :
    Prop :=
  ∃ value, useExit = some value ∧
    (trim value = "auto" ∧ LeastExit peers relayAvailable pk ∨
      PublicKey.decode (trim value) = some pk ∧ ∃ p ∈ peers, p.pubkey = pk ∧ p.exit = true)

lemma selectExit_eq_some :
    selectExit peers useExit relayAvailable = some pk ↔
      Selects peers useExit relayAvailable pk := by
  unfold selectExit Selects
  cases useExit with
  | none => simp
  | some value =>
    rw [Option.map_some]
    simp only [Option.some.injEq, exists_eq_left']
    split
    · next heq => cases heq
    -- The words of the setting are not the text of any key.
    · next heq =>
      rw [Option.some.inj heq]
      simp [show PublicKey.decode "" = none by decide]
    · next heq =>
      rw [Option.some.inj heq]
      simp [show PublicKey.decode "off" = none by decide]
    · next heq =>
      rw [Option.some.inj heq, minByPubkey_filter]
      simp [show PublicKey.decode "auto" = none by decide]
    · next hexPk hnone hempty' hoff' hauto' heq =>
      cases heq
      split
      · next key hkey =>
        rw [find_exit, or_iff_right fun h => hauto' h.1, hkey]
        constructor <;> rintro ⟨⟨⟩, hexit⟩ <;> exact ⟨rfl, hexit⟩
      · next hkey =>
        rw [or_iff_right fun h => hauto' h.1, hkey]
        simp

lemma selectExit_perm {peers' : List PeerInfo} (h : peers'.Perm peers) :
    selectExit peers' useExit relayAvailable = selectExit peers useExit relayAvailable := by
  apply Option.ext
  intro pk
  simp only [selectExit_eq_some, Selects, LeastExit, h.mem_iff]

/-- A peer with nothing but defaults taken away. -/
structure Stripped (text : AddrText) (p p' : PeerInfo) : Prop where
  pubkey : p'.pubkey = p.pubkey
  candidates : p'.candidates = p.candidates
  overlay : p'.overlay = p.overlay
  exit : p'.exit = p.exit
  sublist : p'.allowedIps.Sublist p.allowedIps
  others : p'.allowedIps.filter (¬ CoversText text ·) = p.allowedIps.filter (¬ CoversText text ·)

lemma stripped_stripDefaults (selected : Option Key) (p : PeerInfo) :
    Stripped text p (stripDefaults text selected p) where
  pubkey := rfl
  candidates := rfl
  overlay := rfl
  exit := rfl
  sublist := List.filter_sublist
  others := by
    rw [stripDefaults, List.filter_filter]
    apply List.filter_congr
    intro c _
    rw [Bool.eq_iff_iff]
    simp only [← isDefaultText_iff]
    grind

lemma mem_stripDefaults {selected : Option Key}
    (hmem : c ∈ (stripDefaults text selected p).allowedIps) (hcovers : CoversText text c) :
    (∃ q, fromStr text c = some q ∧ q.network.isIpv4 = true) ∧
      selected = some p.pubkey := by
  have hdefault := isDefaultText_iff.mpr hcovers
  obtain ⟨q, hq, _⟩ := hcovers
  have hkeep := (List.mem_filter.mp hmem).2
  rw [hdefault, Bool.not_true, Bool.false_or, Bool.and_eq_true, Bool.not_eq_true',
    decide_eq_true_eq] at hkeep
  have hcolon : ':' ∉ c.toList := by simpa using hkeep.1
  rw [colon_iff_of_fromStr hq, Bool.not_eq_false] at hcolon
  exact ⟨⟨q, hq, hcolon⟩, hkeep.2.symm⟩

/-- Only the selected exit carries a default, and only an IPv4 one. Nothing else changes, and the
selection is a function of the set of peers. -/
theorem applyUseExit_isolated (text : AddrText) (peers : List PeerInfo) (useExit : Option String)
    (relayAvailable : Bool) :
    (∀ p ∈ (applyUseExit text peers useExit relayAvailable).2, ∀ c ∈ p.allowedIps,
      CoversText text c →
        (∃ q, IpPrefix.fromStr text c = some q ∧ q.network.isIpv4 = true) ∧
          (applyUseExit text peers useExit relayAvailable).1 = some p.pubkey) ∧
    List.Forall₂ (Stripped text) peers (applyUseExit text peers useExit relayAvailable).2 ∧
    (∀ pk, (applyUseExit text peers useExit relayAvailable).1 = some pk ↔
      Selects peers useExit relayAvailable pk) ∧
    ∀ peers', peers'.Perm peers →
      (applyUseExit text peers' useExit relayAvailable).1 =
        (applyUseExit text peers useExit relayAvailable).1 := by
  refine ⟨?_, ?_, fun _ => selectExit_eq_some, fun _ => selectExit_perm⟩
  · intro p hp c hc hcovers
    obtain ⟨p, _, rfl⟩ := List.mem_map.mp hp
    obtain ⟨hipv4, hselected⟩ := mem_stripDefaults hc hcovers
    exact ⟨hipv4, hselected⟩
  · rw [applyUseExit, List.forall₂_map_right_iff, List.forall₂_same]
    exact fun p _ => stripped_stripDefaults _ p

end Fluxpeer.Node
