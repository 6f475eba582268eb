import Fluxpeer.Lib.Ranked
import Fluxpeer.Node.Peer

/-!
# The route table

Which peer a packet belongs to is decided by the prefixes that each peer may use. The table is a
list of claims, the longest prefix first and the smaller key first among equals, that is scanned
from the front. It is never changed in place: an update of a peer builds the next table.

What the scan computes is said without the list by `Owns`: a peer owns an address when it claims
a prefix around it such that no other claim around it is longer, and no claim of that length has
a smaller key.
-/

namespace Fluxpeer.Node

open Lib Crypto Net Tunnel.Noise

/-! ## The addresses of a packet -/

/-- The address at the offset that belongs to the version of the packet. -/
def addressAt (off4 off6 : Nat) (packet : Bytes) : Option IpAddr :=
  match packet with
  | [] => none
  | first :: _ =>
    if first >>> 4 = 4 ∧ packet.length ≥ ipv4MinHeaderSize then
      (Block.ofBytes? 4 (slice packet off4 (off4 + 4))).map .v4
    else if first >>> 4 = 6 ∧ packet.length ≥ ipv6MinHeaderSize then
      (Block.ofBytes? 16 (slice packet off6 (off6 + 16))).map .v6
    else none

def dstAddress : Bytes → Option IpAddr := addressAt 16 24

def srcAddress : Bytes → Option IpAddr := addressAt 12 8

/-! ## Routes -/

/-- The claim of a peer to a prefix, and the worker that serves the peer. -/
structure RouteEntry where
  ipPrefix : IpPrefix
  peer : Key
  worker : Nat
deriving DecidableEq

namespace RouteEntry

/-- The order of the table: by length, longest first, then by key. -/
def Before (a b : RouteEntry) : Prop :=
  b.ipPrefix.length < a.ipPrefix.length ∨
    a.ipPrefix.length = b.ipPrefix.length ∧ a.peer.toList ≤ b.peer.toList

instance : DecidableRel Before := fun _ _ => inferInstanceAs (Decidable (_ ∨ _))

instance : Std.Total Before where
  total a b := by
    have hkeys := List.le_total a.peer.toList b.peer.toList
    unfold Before
    grind

instance : IsTrans RouteEntry Before where
  trans a b c := by
    rintro (hab | ⟨hab, kab⟩) (hbc | ⟨hbc, kbc⟩)
    · exact .inl (hbc.trans hab)
    · exact .inl (hbc ▸ hab)
    · exact .inl (hab ▸ hbc)
    · exact .inr ⟨hab.trans hbc, List.le_trans kab kbc⟩

lemma before_refl (a : RouteEntry) : Before a a := .inr ⟨rfl, List.le_refl _⟩

lemma key_eq_of_le {a b : Key} (hab : a.toList ≤ b.toList) (hba : b.toList ≤ a.toList) : a = b :=
  Subtype.ext (List.le_antisymm hab hba)

lemma eq_of_before {a b : RouteEntry} (hab : Before a b) (hba : Before b a) :
    a.ipPrefix.length = b.ipPrefix.length ∧ a.peer = b.peer := by
  rcases hab with hab | ⟨hab, kab⟩ <;> rcases hba with hba | ⟨hba, kba⟩
  · omega
  · omega
  · omega
  · exact ⟨hab, key_eq_of_le kab kba⟩

end RouteEntry

/-! ## Conflicts

A prefix that two peers claim is reported once, when an update makes it so. -/

/-- What the scan for conflicts has collected. -/
structure Claims where
  owners : HashMap IpPrefix Key
  conflicts : Finset IpPrefix
  warned : List IpPrefix

/-- One entry of the scan; a conflict that is `known` from the table before is not reported. -/
def Claims.note (known : Finset IpPrefix) (c : Claims) (entry : RouteEntry) : Claims :=
  match c.owners.lookup entry.ipPrefix with
  | none => { c with owners := c.owners.insert entry.ipPrefix entry.peer }
  | some owner =>
    if owner ≠ entry.peer ∧ entry.ipPrefix ∉ c.conflicts then
      { c with
        conflicts := insert entry.ipPrefix c.conflicts
        warned := if entry.ipPrefix ∈ known then c.warned else c.warned ++ [entry.ipPrefix] }
    else c

def Claims.ofRoutes (known : Finset IpPrefix) (routes : List RouteEntry) : Claims :=
  routes.foldl (Claims.note known) ⟨∅, ∅, []⟩

/-- Two of the entries claim the prefix for different peers. -/
def Contested (routes : List RouteEntry) (p : IpPrefix) : Prop :=
  ∃ a ∈ routes, ∃ b ∈ routes, a.ipPrefix = p ∧ b.ipPrefix = p ∧ a.peer ≠ b.peer

/-- What the scan knows after the entries of `routes`. -/
structure Claims.Noted (known : Finset IpPrefix) (routes : List RouteEntry) (c : Claims) : Prop where
  owners : ∀ p, c.owners.lookup p = (routes.find? (·.ipPrefix = p)).map (·.peer)
  conflicts : ∀ p, p ∈ c.conflicts ↔ Contested routes p
  warned : ∀ p, p ∈ c.warned ↔ p ∈ c.conflicts ∧ p ∉ known

namespace Claims

variable {known : Finset IpPrefix} {routes : List RouteEntry} {c : Claims} {entry : RouteEntry}

/-- A new entry is in conflict when the first claim to its prefix is another peer's. -/
lemma contested_append {p : IpPrefix} :
    Contested (routes ++ [entry]) p ↔
      Contested routes p ∨ entry.ipPrefix = p ∧
        ∃ owner, (routes.find? (·.ipPrefix = p)).map (·.peer) = some owner ∧
          owner ≠ entry.peer := by
  simp only [Contested, List.mem_append, List.mem_singleton]
  cases hfirst : routes.find? (·.ipPrefix = p) with
  | none =>
    have hnone := List.find?_eq_none.mp hfirst
    grind
  | some first =>
    have hmem := List.mem_of_find?_eq_some hfirst
    have hfp : first.ipPrefix = p := by simpa using List.find?_some hfirst
    simp only [Option.map_some, Option.some.injEq, exists_eq_left']
    constructor
    · -- A claim of another peer is in conflict with the first one, unless that is another's too.
      grind
    · rintro (⟨a, ha, b, hb, h⟩ | ⟨hep, hne⟩)
      · exact ⟨a, .inl ha, b, .inl hb, h⟩
      · exact ⟨first, .inl hmem, entry, .inr rfl, hfp, hep, hne⟩

lemma Noted.note (h : Noted known routes c) :
    Noted known (routes ++ [entry]) (c.note known entry) := by
  obtain ⟨howners, hconflicts, hwarned⟩ := h
  have hcontested : ∀ p, Contested (routes ++ [entry]) p ↔
      p ∈ c.conflicts ∨ entry.ipPrefix = p ∧
        ∃ owner, c.owners.lookup p = some owner ∧ owner ≠ entry.peer := by
    intro p
    rw [contested_append, hconflicts, howners]
  have hfind : ∀ p, ((routes ++ [entry]).find? (·.ipPrefix = p)).map (·.peer) =
      (c.owners.lookup p).or (if entry.ipPrefix = p then some entry.peer else none) := by
    intro p
    rw [List.find?_append, howners]
    grind
  unfold Claims.note
  split
  · next hnone =>
    refine ⟨?_, ?_, hwarned⟩
    · intro p
      rw [HashMap.lookup_insert, hfind]
      grind
    · grind
  · next owner howner =>
    have hkeep : ∀ p, c.owners.lookup p =
        ((routes ++ [entry]).find? (·.ipPrefix = p)).map (·.peer) := by
      intro p
      rw [hfind]
      grind
    split
    · refine ⟨hkeep, ?_, ?_⟩
      · intro p
        rw [hcontested, Finset.mem_insert]
        grind
      · grind
    · refine ⟨hkeep, ?_, hwarned⟩
      grind

lemma noted_ofRoutes : Noted known routes (ofRoutes known routes) := by
  induction routes using List.reverseRecOn with
  | nil => exact ⟨fun p => rfl, by simp [ofRoutes, Contested], by simp [ofRoutes]⟩
  | append_singleton routes entry ih =>
    rw [ofRoutes, List.foldl_append]
    exact ih.note

end Claims

/-! ## The table -/

structure RouteTable where
  routes : List RouteEntry
  conflicts : Finset IpPrefix
  sorted : routes.Pairwise RouteEntry.Before

namespace RouteTable

def default : RouteTable := ⟨[], ∅, .nil⟩

def parsePrefixes (text : AddrText) (prefixes : List String) : List IpPrefix :=
  prefixes.filterMap (IpPrefix.fromStr text)

/-- The next table, in which a peer has other prefixes, and the conflicts to report. -/
def withPeerReport (text : AddrText) (t : RouteTable) (peer : Key) (worker : Nat)
    (prefixes : List String) : RouteTable × List IpPrefix :=
  let routes : List RouteEntry := t.routes.filter (·.peer ≠ peer) ++
    (parsePrefixes text prefixes).map fun p => ⟨p, peer, worker⟩
  let routes := routes.insertionSort RouteEntry.Before
  let claims := Claims.ofRoutes t.conflicts routes
  (⟨routes, claims.conflicts, List.pairwise_insertionSort _ _⟩, claims.warned)

def withPeer (text : AddrText) (t : RouteTable) (peer : Key) (worker : Nat)
    (prefixes : List String) : RouteTable :=
  (t.withPeerReport text peer worker prefixes).1

/-- The first entry around an address. -/
def find (t : RouteTable) (a : IpAddr) : Option RouteEntry :=
  t.routes.find? (·.ipPrefix.contains a)

def acceptsSource (t : RouteTable) (peer : Key) (packet : Bytes) : Bool :=
  (srcAddress packet).any fun source => (t.find source).any (·.peer = peer)

end RouteTable

def routeTun (pkt : Bytes) (allowed : RouteTable) : Option (Key × Nat) := do
  let dst ← dstAddress pkt
  (allowed.find dst).map fun r => (r.peer, r.worker)

/-! ## Owners -/

/-- The peer whose claim to an address goes first: the longest prefix, then the smallest key. -/
def Owns (claims : Key → IpPrefix → Prop) (a : IpAddr) (pk : Key) : Prop :=
  ∃ p, claims pk p ∧ p.contains a = true ∧
    ∀ pk' q, claims pk' q → q.contains a = true →
      q.length < p.length ∨ q.length = p.length ∧ pk.toList ≤ pk'.toList

lemma Owns.unique {claims : Key → IpPrefix → Prop} {a : IpAddr} {pk pk' : Key}
    (h : Owns claims a pk) (h' : Owns claims a pk') : pk = pk' := by
  obtain ⟨p, hp, hpa, hfirst⟩ := h
  obtain ⟨q, hq, hqa, hfirst'⟩ := h'
  have hpq := hfirst pk' q hq hqa
  have hqp := hfirst' pk p hp hpa
  have hkeys : pk.toList ≤ pk'.toList ∧ pk'.toList ≤ pk.toList := by grind
  exact RouteEntry.key_eq_of_le hkeys.1 hkeys.2

namespace RouteTable

variable {text : AddrText} {t : RouteTable} {a : IpAddr} {pk : Key} {worker : Nat}
  {prefixes : List String} {e : RouteEntry} {pkt : Bytes}

def Claimed (t : RouteTable) (pk : Key) (p : IpPrefix) : Prop :=
  ∃ e ∈ t.routes, e.peer = pk ∧ e.ipPrefix = p

lemma find_best (h : t.find a = some e) :
    Ranked.Best RouteEntry.Before (·.ipPrefix.contains a) t.routes e :=
  Ranked.best_of_find? t.sorted RouteEntry.before_refl h

lemma owns_of_find (h : t.find a = some e) : Owns t.Claimed a e.peer := by
  have hbest := find_best h
  refine ⟨e.ipPrefix, ⟨e, hbest.mem, rfl, rfl⟩, hbest.holds, ?_⟩
  rintro pk' q ⟨e', hmem, rfl, rfl⟩ hcontains
  rcases hbest.first e' hmem hcontains with hlonger | ⟨hlength, hkey⟩
  · exact .inl hlonger
  · exact .inr ⟨hlength.symm, hkey⟩

lemma find_eq_none : t.find a = none ↔ ∀ pk p, t.Claimed pk p → p.contains a = false := by
  rw [find, List.find?_eq_none]
  constructor
  · rintro h pk p ⟨e, hmem, rfl, rfl⟩
    simpa using h e hmem
  · intro h e hmem
    simp [h e.peer e.ipPrefix ⟨e, hmem, rfl, rfl⟩]

/-- The scan finds the owner. -/
lemma owns_iff : Owns t.Claimed a pk ↔ ∃ e, t.find a = some e ∧ e.peer = pk := by
  constructor
  · intro h
    cases hfind : t.find a with
    | none =>
      obtain ⟨p, hp, hpa, _⟩ := h
      rw [find_eq_none.mp hfind pk p hp] at hpa
      cases hpa
    | some e => exact ⟨e, rfl, (owns_of_find hfind).unique h⟩
  · rintro ⟨e, hfind, rfl⟩
    exact owns_of_find hfind

lemma acceptsSource_iff : t.acceptsSource pk pkt = true ↔
    ∃ a, srcAddress pkt = some a ∧ ∃ e, t.find a = some e ∧ e.peer = pk := by
  simp [acceptsSource, Option.any_eq_true]

lemma routeTun_eq_some {w : Nat} : routeTun pkt t = some (pk, w) ↔
    ∃ a, dstAddress pkt = some a ∧ ∃ e, t.find a = some e ∧ e.peer = pk ∧ e.worker = w := by
  simp [routeTun, Option.bind_eq_some_iff]

/-! ## Updates -/

lemma mem_withPeer : e ∈ (t.withPeer text pk worker prefixes).routes ↔
    e ∈ t.routes ∧ e.peer ≠ pk ∨
      e.ipPrefix ∈ parsePrefixes text prefixes ∧ e.peer = pk ∧ e.worker = worker := by
  rw [withPeer, withPeerReport, (List.perm_insertionSort _ _).mem_iff]
  obtain ⟨p, peer, w⟩ := e
  simp
  grind

end RouteTable

/-- One call of `with_peer`. -/
structure RouteUpdate where
  peer : Key
  worker : Nat
  prefixes : List String

namespace RouteTable

variable {text : AddrText} {us us' : List RouteUpdate} {a : IpAddr} {pk : Key} {e : RouteEntry}

def update (text : AddrText) (t : RouteTable) (u : RouteUpdate) : RouteTable :=
  t.withPeer text u.peer u.worker u.prefixes

def ofUpdates (text : AddrText) (us : List RouteUpdate) : RouteTable :=
  us.foldl (update text) default

def latest (us : List RouteUpdate) (pk : Key) : Option RouteUpdate :=
  us.reverse.find? (·.peer = pk)

def configured (text : AddrText) (us : List RouteUpdate) (pk : Key) : List IpPrefix :=
  parsePrefixes text (((latest us pk).map (·.prefixes)).getD [])

/-- The entries are those of the last updates. -/
lemma mem_ofUpdates : e ∈ (ofUpdates text us).routes ↔
    ∃ u, latest us e.peer = some u ∧ u.worker = e.worker ∧
      e.ipPrefix ∈ parsePrefixes text u.prefixes := by
  induction us using List.reverseRecOn with
  | nil => simp [ofUpdates, default, latest]
  | append_singleton us u ih =>
    rw [ofUpdates, List.foldl_append, List.foldl_cons, List.foldl_nil, ← ofUpdates, update,
      mem_withPeer, ih]
    simp only [latest, List.reverse_append, List.reverse_singleton, List.singleton_append,
      List.find?_cons]
    by_cases hpeer : u.peer = e.peer
    · simp [hpeer, and_comm, eq_comm]
    · simp [hpeer, Ne.symm hpeer]

lemma claimed_ofUpdates :
    (ofUpdates text us).Claimed = fun pk p => p ∈ configured text us pk := by
  funext pk p
  apply propext
  constructor
  · rintro ⟨e, hmem, rfl, rfl⟩
    obtain ⟨u, hlatest, _, hparse⟩ := mem_ofUpdates.mp hmem
    simpa [configured, hlatest] using hparse
  · intro h
    cases hlatest : latest us pk with
    | none => simp [configured, hlatest, parsePrefixes] at h
    | some u =>
      refine ⟨⟨p, pk, u.worker⟩, mem_ofUpdates.mpr ⟨u, hlatest, rfl, ?_⟩, rfl, rfl⟩
      simpa [configured, hlatest] using h

/-- After any updates the prefixes in conflict are those that two peers are configured with, and an
update reports the ones that come into conflict with it. -/
theorem conflicts_reported (text : AddrText) (us : List RouteUpdate) (u : RouteUpdate)
    (p : IpPrefix) :
    (p ∈ (ofUpdates text us).conflicts ↔ ∃ pk pk', pk ≠ pk' ∧ p ∈ configured text us pk ∧
      p ∈ configured text us pk') ∧
    (p ∈ ((ofUpdates text us).withPeerReport text u.peer u.worker u.prefixes).2 ↔
      p ∈ (ofUpdates text (us ++ [u])).conflicts ∧ p ∉ (ofUpdates text us).conflicts) := by
  have hcontested : p ∈ (ofUpdates text us).conflicts ↔ Contested (ofUpdates text us).routes p := by
    induction us using List.reverseRecOn with
    | nil => simp [ofUpdates, default, Contested]
    | append_singleton us u =>
      rw [ofUpdates, List.foldl_append]
      exact Claims.noted_ofRoutes.conflicts p
  constructor
  · rw [hcontested]
    have hclaimed := congrFun₂ (@claimed_ofUpdates text us)
    simp only [Contested, ← hclaimed, Claimed]
    grind
  · rw [ofUpdates, ofUpdates, List.foldl_append]
    exact Claims.noted_ofRoutes.warned p

/-- The worker of a route is the one of the peer's last update. -/
lemma latest_of_find (h : (ofUpdates text us).find a = some e) :
    ∃ u, latest us e.peer = some u ∧ u.worker = e.worker := by
  obtain ⟨u, hlatest, hworker, _⟩ := mem_ofUpdates.mp (find_best h).mem
  exact ⟨u, hlatest, hworker⟩

/-- The peer that the prefixes in force give an address to. -/
def Owner (text : AddrText) (us : List RouteUpdate) (a : IpAddr) (pk : Key) : Prop :=
  Owns (fun pk p => p ∈ configured text us pk) a pk

lemma owner_iff : Owner text us a pk ↔
    ∃ e, (ofUpdates text us).find a = some e ∧ e.peer = pk := by
  rw [Owner, ← claimed_ofUpdates, owns_iff]

lemma routeTun_ofUpdates {pkt : Bytes} {w : Nat} :
    routeTun pkt (ofUpdates text us) = some (pk, w) ↔
      ∃ a, dstAddress pkt = some a ∧ Owner text us a pk ∧
        ∃ u, latest us pk = some u ∧ u.worker = w := by
  rw [routeTun_eq_some]
  constructor
  · rintro ⟨a, hdst, e, hfind, rfl, rfl⟩
    exact ⟨a, hdst, owner_iff.mpr ⟨e, hfind, rfl⟩, latest_of_find hfind⟩
  · rintro ⟨a, hdst, howner, u, hlatest, rfl⟩
    obtain ⟨e, hfind, rfl⟩ := owner_iff.mp howner
    obtain ⟨u', hlatest', hworker⟩ := latest_of_find hfind
    rw [hlatest, Option.some.injEq] at hlatest'
    exact ⟨a, hdst, e, hfind, rfl, hlatest' ▸ hworker.symm⟩

lemma routeTun_eq_none {pkt : Bytes} :
    routeTun pkt (ofUpdates text us) = none ↔
      ∀ a, dstAddress pkt = some a →
        ∀ pk, ∀ p ∈ configured text us pk, p.contains a = false := by
  have hnone : ∀ a, (ofUpdates text us).find a = none ↔
      ∀ pk, ∀ p ∈ configured text us pk, p.contains a = false := by
    intro a
    rw [find_eq_none, claimed_ofUpdates]
  simp only [routeTun, Option.bind_eq_bind, Option.bind_eq_none_iff, Option.map_eq_none_iff, hnone]

lemma acceptsSource_ofUpdates {pkt : Bytes} :
    (ofUpdates text us).acceptsSource pk pkt = true ↔
      ∃ a, srcAddress pkt = some a ∧ Owner text us a pk := by
  simp only [acceptsSource_iff, owner_iff]

/-- Only the last prefixes of each peer matter. -/
lemma owner_congr (h : ∀ pk, configured text us pk = configured text us' pk) :
    Owner text us a pk ↔ Owner text us' a pk := by
  have hconfigured : configured text us = configured text us' := funext h
  rw [Owner, Owner, hconfigured]

lemma find_peer_congr (h : ∀ pk, configured text us pk = configured text us' pk) :
    ((ofUpdates text us).find a).map (·.peer) = ((ofUpdates text us').find a).map (·.peer) := by
  apply Option.ext
  intro pk
  simp only [Option.map_eq_some_iff, ← owner_iff]
  exact owner_congr h

lemma routeTun_peer_congr {pkt : Bytes}
    (h : ∀ pk, configured text us pk = configured text us' pk) :
    (routeTun pkt (ofUpdates text us)).map (·.1) = (routeTun pkt (ofUpdates text us')).map (·.1) := by
  cases hdst : dstAddress pkt with
  | none => simp [routeTun, hdst]
  | some a => simpa [routeTun, hdst, Function.comp_def] using find_peer_congr (a := a) h

/-- Lookups outside the prefixes that a peer had and gets find what they found. -/
lemma find_update {u : RouteUpdate} (hold : ∀ p ∈ configured text us u.peer, p.contains a = false)
    (hnew : ∀ p ∈ parsePrefixes text u.prefixes, p.contains a = false) :
    ((ofUpdates text us).update text u).find a = (ofUpdates text us).find a := by
  have hlist : (ofUpdates text us).update text u = ofUpdates text (us ++ [u]) := by
    rw [ofUpdates, ofUpdates, List.foldl_append, List.foldl_cons, List.foldl_nil]
  have hentry : ∀ e : RouteEntry, e.ipPrefix.contains a = true →
      (e ∈ (ofUpdates text us).routes ↔ e ∈ ((ofUpdates text us).update text u).routes) := by
    intro e hcontains
    rw [update, mem_withPeer]
    constructor
    · intro hmem
      refine .inl ⟨hmem, fun hpeer => ?_⟩
      have hclaimed : (ofUpdates text us).Claimed u.peer e.ipPrefix := ⟨e, hmem, hpeer, rfl⟩
      rw [claimed_ofUpdates] at hclaimed
      rw [hold _ hclaimed] at hcontains
      cases hcontains
    · rintro (⟨hmem, _⟩ | ⟨hparse, _⟩)
      · exact hmem
      · rw [hnew _ hparse] at hcontains
        cases hcontains
  rw [hlist] at hentry ⊢
  have hfind := Ranked.find?_eq (ofUpdates text us).sorted (ofUpdates text (us ++ [u])).sorted
    RouteEntry.before_refl hentry ?_
  · exact hfind.symm
  · -- Entries of one rank around one address are the same entry.
    intro e e' he he' hmem hmem' hbefore hbefore'
    obtain ⟨hlength, hpeer⟩ := RouteEntry.eq_of_before hbefore hbefore'
    obtain ⟨v, hlatest, hworker, _⟩ := mem_ofUpdates.mp hmem
    obtain ⟨v', hlatest', hworker', _⟩ := mem_ofUpdates.mp hmem'
    have hfront := IpPrefix.eq_of_contains hlength he he'
    rw [hpeer, hlatest', Option.some.injEq] at hlatest
    cases e
    cases e'
    grind

/-- No prefixes, no route. -/
lemma find_withPeer_nil {t : RouteTable} {worker : Nat}
    (h : (t.withPeer text pk worker []).find a = some e) : e.peer ≠ pk := by
  have hmem := (find_best h).mem
  rw [mem_withPeer] at hmem
  simp only [parsePrefixes, List.filterMap_nil, List.not_mem_nil, false_and, or_false] at hmem
  exact hmem.2

/-- Egress and ingress are decided by one lookup, which finds the owner of the address. -/
theorem symmetric_cryptokey_routing (text : AddrText) (us : List RouteUpdate) :
    (∀ pkt pk w, routeTun pkt (ofUpdates text us) = some (pk, w) ↔
      ∃ a, dstAddress pkt = some a ∧ Owner text us a pk ∧
        ∃ u, latest us pk = some u ∧ u.worker = w) ∧
    (∀ pkt, routeTun pkt (ofUpdates text us) = none ↔
      ∀ a, dstAddress pkt = some a →
        ∀ pk, ∀ p ∈ configured text us pk, p.contains a = false) ∧
    (∀ us', (∀ pk, configured text us pk = configured text us' pk) →
      ∀ pkt, (routeTun pkt (ofUpdates text us)).map (·.1) =
        (routeTun pkt (ofUpdates text us')).map (·.1)) ∧
    (∀ pk pkt, (ofUpdates text us).acceptsSource pk pkt = true ↔
      ∃ a, srcAddress pkt = some a ∧ ((ofUpdates text us).find a).map (·.peer) = some pk ∧
        Owner text us a pk) ∧
    (∀ pk worker, let t := (ofUpdates text us).withPeer text pk worker []
      (∀ pkt w, routeTun pkt t ≠ some (pk, w)) ∧ ∀ pkt, t.acceptsSource pk pkt = false) ∧
    (∀ u a, (∀ p ∈ configured text us u.peer, p.contains a = false) →
      (∀ p ∈ parsePrefixes text u.prefixes, p.contains a = false) →
      ((ofUpdates text us).update text u).find a = (ofUpdates text us).find a) := by
  refine ⟨fun _ _ _ => routeTun_ofUpdates, fun _ => routeTun_eq_none,
    fun _ h _ => routeTun_peer_congr h, ?_, ?_, fun _ _ => find_update⟩
  · intro pk pkt
    simp only [acceptsSource_ofUpdates, Option.map_eq_some_iff, ← owner_iff, and_self]
  · intro pk worker t
    constructor
    · intro pkt w h
      obtain ⟨a, _, e, hfind, hpeer, _⟩ := routeTun_eq_some.mp h
      exact find_withPeer_nil hfind hpeer
    · intro pkt
      rw [← Bool.not_eq_true, acceptsSource_iff]
      rintro ⟨a, _, e, hfind, hpeer⟩
      exact find_withPeer_nil hfind hpeer

end RouteTable

end Fluxpeer.Node
