import Fluxpeer.Node.Exit
import Fluxpeer.Node.Worker

/-!
# The reconciler

The reconciler compares the peers it knows with those of a snapshot, and turns the difference into
changes: each tells a worker what to do and updates the maps by which packets find their worker.
A change concerns one key, so what is known of a key afterwards is decided by its own changes.
-/

namespace Fluxpeer.Node

open Lib Crypto Net

/-- The worker, the endpoints and the prefixes of each known peer. -/
abbrev KnownPeers := HashMap Key (Nat × List SocketAddr × List String)

inductive PeerChange
  | remove (pk : Key)
  | add (peer : PeerInfo)
  | endpoints (peer : PeerInfo)
  | routes (peer : PeerInfo)

/-- Equal lengths, and every endpoint of the second list in the first. -/
def sameEndpoints (a b : List SocketAddr) : Bool := a.length = b.length && b.all fun x => x ∈ a

/-- The changes for a peer of a snapshot. -/
def changesFor (known : KnownPeers) (peer : PeerInfo) : List PeerChange :=
  match known.lookup peer.pubkey with
  | some (_, candidates, prefixes) =>
    (if sameEndpoints candidates peer.candidates then [] else [.endpoints peer]) ++
      if prefixes ≠ peer.allowedIps then [.routes peer] else []
  | none => [.add peer]

def peerChanges (known : KnownPeers) (desired : List PeerInfo) : List PeerChange :=
  (known.keys.filter fun pk => !desired.any (·.pubkey = pk)).map .remove ++
    desired.flatMap (changesFor known)

structure Reconciler where
  ownPub : Key
  /-- The number of workers. -/
  n : Nat
  known : KnownPeers
  ordinal : Nat
  peerToWid : HashMap Key Nat
  candToWid : HashMap SocketAddr Nat
  allowed : RouteTable

/-- Messages and the workers that they are sent to. -/
abbrev Sent := List (Nat × WorkerMsg)

namespace Reconciler

variable (text : AddrText)

def replaceAllowed (r : Reconciler) (peer : Key) (worker : Nat) (prefixes : List String) :
    Reconciler :=
  { r with allowed := r.allowed.withPeer text peer worker prefixes }

def updateRoutes (r : Reconciler) (pi : PeerInfo) : Reconciler :=
  match r.known.lookup pi.pubkey with
  | none => r
  | some (wid, cands, _) =>
    let r := r.replaceAllowed text pi.pubkey wid pi.allowedIps
    { r with known := r.known.insert pi.pubkey (wid, cands, pi.allowedIps) }

def routeRemove (r : Reconciler) (pk : Key) : Reconciler :=
  match r.known.lookup pk with
  | none => r
  | some (wid, cands, _) =>
    let r := { r with
      known := r.known.erase pk
      peerToWid := r.peerToWid.erase pk
      candToWid := cands.foldl (fun cw c => cw.erase c) r.candToWid }
    r.replaceAllowed text pk wid []

def routeAdd (r : Reconciler) (pi : PeerInfo) : Reconciler :=
  let wid := r.ordinal % r.n
  let r := { r with
    ordinal := r.ordinal + 1
    peerToWid := r.peerToWid.insert pi.pubkey wid
    candToWid := pi.candidates.foldl (fun cw c => cw.insert c wid) r.candToWid }
  r.replaceAllowed text pi.pubkey wid pi.allowedIps

def removePeer (r : Reconciler) (pk : Key) : Reconciler × Sent :=
  match r.known.lookup pk with
  | none => (r, [])
  | some (wid, _, _) =>
    let r := r.replaceAllowed text pk wid []
    (r.routeRemove text pk, [(wid, .removePeer pk)])

def addPeer (r : Reconciler) (pi : PeerInfo) : Reconciler × Sent :=
  let wid := r.ordinal % r.n
  let r' := r.routeAdd text pi
  ({ r' with known := r'.known.insert pi.pubkey (wid, pi.candidates, pi.allowedIps) },
    [(wid, .addPeer pi.pubkey pi.candidates (keyLt r.ownPub pi.pubkey))])

def updateCandidates (r : Reconciler) (pi : PeerInfo) : Reconciler × Sent :=
  match r.known.lookup pi.pubkey with
  | none => (r, [])
  | some (wid, oldCands, aips) =>
    let cw := oldCands.foldl (fun cw c => cw.erase c) r.candToWid
    ({ r with
        candToWid := pi.candidates.foldl (fun cw c => cw.insert c wid) cw
        known := r.known.insert pi.pubkey (wid, pi.candidates, aips) },
      [(wid, .updateCandidates pi.pubkey pi.candidates)])

def apply (r : Reconciler) : PeerChange → Reconciler × Sent
  | .remove pk => r.removePeer text pk
  | .add peer => r.addPeer text peer
  | .endpoints peer => r.updateCandidates peer
  | .routes peer => (r.updateRoutes text peer, [])

def applyAll (r : Reconciler) (changes : List PeerChange) : Reconciler :=
  changes.foldl (fun r change => (r.apply text change).1) r

end Reconciler

/-! ## What is known of a key -/

namespace PeerChange

def key : PeerChange → Key
  | .remove pk => pk
  | .add peer | .endpoints peer | .routes peer => peer.pubkey

/-- What a change does to the endpoints and prefixes known of its key. -/
def effect : PeerChange → Option (List SocketAddr × List String) →
    Option (List SocketAddr × List String)
  | .remove _, _ => none
  | .add peer, _ => some (peer.candidates, peer.allowedIps)
  | .endpoints peer, v => v.map fun (_, prefixes) => (peer.candidates, prefixes)
  | .routes peer, v => v.map fun (cands, _) => (cands, peer.allowedIps)

end PeerChange

/-- The endpoints and prefixes known of a key. -/
def KnownPeers.view (known : KnownPeers) (pk : Key) : Option (List SocketAddr × List String) :=
  (known.lookup pk).map (·.2)

namespace Reconciler

variable {text : AddrText} {r : Reconciler} {pk : Key}

/-- What is known after the change, key by key. -/
lemma view_apply (change : PeerChange) (pk : Key) :
    (r.apply text change).1.known.view pk =
      if pk = change.key then change.effect (r.known.view pk) else r.known.view pk := by
  cases change with
  | remove pk' =>
    simp only [apply, removePeer, PeerChange.key, PeerChange.effect, KnownPeers.view]
    cases hknown : r.known.lookup pk' with
    | none =>
      by_cases hpk : pk = pk'
      · subst hpk
        simp [hknown]
      · simp [hpk]
    | some entry =>
      obtain ⟨wid, cands, prefixes⟩ := entry
      simp only [routeRemove, replaceAllowed, hknown, HashMap.lookup_erase]
      by_cases hpk : pk = pk' <;> simp [hpk]
  | add peer =>
    simp only [apply, addPeer, routeAdd, replaceAllowed, PeerChange.key, PeerChange.effect,
      KnownPeers.view, HashMap.lookup_insert]
    by_cases hpk : pk = peer.pubkey <;> simp [hpk]
  | endpoints peer =>
    simp only [apply, updateCandidates, PeerChange.key, PeerChange.effect, KnownPeers.view]
    cases hknown : r.known.lookup peer.pubkey with
    | none =>
      by_cases hpk : pk = peer.pubkey
      · subst hpk
        simp [hknown]
      · simp [hpk]
    | some entry =>
      by_cases hpk : pk = peer.pubkey
      · subst hpk
        simp [hknown]
      · simp [hpk]
  | routes peer =>
    simp only [apply, updateRoutes, PeerChange.key, PeerChange.effect, KnownPeers.view]
    cases hknown : r.known.lookup peer.pubkey with
    | none =>
      by_cases hpk : pk = peer.pubkey
      · subst hpk
        simp [hknown]
      · simp [hpk]
    | some entry =>
      by_cases hpk : pk = peer.pubkey
      · subst hpk
        simp [replaceAllowed, hknown]
      · simp [replaceAllowed, hpk]

/-- What is known of a key is decided by the changes that concern it. -/
lemma view_applyAll (changes : List PeerChange) (pk : Key) :
    (r.applyAll text changes).known.view pk =
      (changes.filter (·.key = pk)).foldl (fun v change => change.effect v) (r.known.view pk) := by
  induction changes generalizing r with
  | nil => rfl
  | cons change changes ih =>
    rw [applyAll, List.foldl_cons, ← applyAll, ih, view_apply]
    by_cases hkey : pk = change.key
    · rw [if_pos hkey, List.filter_cons_of_pos (by simpa using hkey.symm), List.foldl_cons]
    · rw [if_neg hkey, List.filter_cons_of_neg (by simpa using fun h => hkey h.symm)]

end Reconciler

/-! ## The changes of a key -/

section Changes

variable {known : KnownPeers} {desired : List PeerInfo} {peer : PeerInfo} {pk : Key}

lemma key_of_mem_changesFor {change : PeerChange} (h : change ∈ changesFor known peer) :
    change.key = peer.pubkey := by
  unfold changesFor at h
  split at h
  · rcases List.mem_append.mp h with h | h
    · split at h
      · cases h
      · rw [List.mem_singleton.mp h]
        rfl
    · split at h
      · rw [List.mem_singleton.mp h]
        rfl
      · cases h
  · rw [List.mem_singleton.mp h]
    rfl

lemma filter_changesFor_of_notMem (h : ∀ p ∈ desired, p.pubkey ≠ pk) :
    (desired.flatMap (changesFor known)).filter (·.key = pk) = [] := by
  rw [List.filter_eq_nil_iff]
  intro change hmem
  obtain ⟨p, hp, hchange⟩ := List.mem_flatMap.mp hmem
  simpa [key_of_mem_changesFor hchange] using h p hp

/-- Among peers with distinct keys, the changes of a key are those for its peer. -/
lemma filter_changesFor (hdistinct : (desired.map (·.pubkey)).Nodup) (hpeer : peer ∈ desired) :
    (desired.flatMap (changesFor known)).filter (·.key = peer.pubkey) = changesFor known peer := by
  obtain ⟨front, back, rfl⟩ := List.append_of_mem hpeer
  have hown : (changesFor known peer).filter (·.key = peer.pubkey) = changesFor known peer :=
    List.filter_eq_self.mpr fun change hmem => by simpa using key_of_mem_changesFor hmem
  rw [List.map_append, List.map_cons, List.nodup_middle, List.nodup_cons, ← List.map_append]
    at hdistinct
  have hfront : ∀ p ∈ front ++ back, p.pubkey ≠ peer.pubkey := by
    intro p hp heq
    exact hdistinct.1 (List.mem_map.mpr ⟨p, hp, heq⟩)
  rw [List.flatMap_append, List.flatMap_cons, List.filter_append, List.filter_append, hown,
    filter_changesFor_of_notMem fun p hp => hfront p (List.mem_append_left _ hp),
    filter_changesFor_of_notMem fun p hp => hfront p (List.mem_append_right _ hp), List.nil_append,
    List.append_nil]

lemma filter_peerChanges (hdistinct : (desired.map (·.pubkey)).Nodup) (hpeer : peer ∈ desired) :
    (peerChanges known desired).filter (·.key = peer.pubkey) = changesFor known peer := by
  have hremoves : ((known.keys.filter fun pk => !desired.any (·.pubkey = pk)).map
      PeerChange.remove).filter (·.key = peer.pubkey) = [] := by
    rw [List.filter_eq_nil_iff]
    intro change hmem
    obtain ⟨pk, hpk, rfl⟩ := List.mem_map.mp hmem
    have hnot : ∀ p ∈ desired, p.pubkey ≠ pk := by simpa using (List.mem_filter.mp hpk).2
    exact fun hkey => hnot peer hpeer (of_decide_eq_true hkey).symm
  rw [peerChanges, List.filter_append, hremoves, List.nil_append, filter_changesFor hdistinct hpeer]

/-- A key that is not desired is removed if it is known. -/
lemma filter_peerChanges_of_notMem (h : ∀ p ∈ desired, p.pubkey ≠ pk) :
    ∃ k, (peerChanges known desired).filter (·.key = pk) = List.replicate k (.remove pk) ∧
      (known.contains pk = true → 0 < k) := by
  have hall : ∀ change ∈ (peerChanges known desired).filter (·.key = pk),
      change = .remove pk := by
    intro change hmem
    rw [peerChanges, List.filter_append, filter_changesFor_of_notMem h, List.append_nil] at hmem
    obtain ⟨hmem, hkey⟩ := List.mem_filter.mp hmem
    obtain ⟨pk', -, rfl⟩ := List.mem_map.mp hmem
    rw [show pk' = pk from of_decide_eq_true hkey]
  refine ⟨_, List.eq_replicate_of_mem hall, ?_⟩
  intro hknown
  have hkeys : pk ∈ known.keys := AList.lookup_isSome.mp hknown
  have hmem : PeerChange.remove pk ∈ (peerChanges known desired).filter (·.key = pk) := by
    refine List.mem_filter.mpr ⟨List.mem_append_left _ (List.mem_map_of_mem ?_), ?_⟩
    · refine List.mem_filter.mpr ⟨hkeys, ?_⟩
      simpa using h
    · simp [PeerChange.key]
  exact List.length_pos_of_mem hmem

end Changes

/-! ## Completeness -/

/-- The keys are those of the snapshot, with the same set of endpoints and the same prefixes. -/
structure KnownPeers.Agrees (known : KnownPeers) (desired : List PeerInfo) : Prop where
  keys : ∀ pk, known.contains pk = true ↔ ∃ p ∈ desired, p.pubkey = pk
  endpoints : ∀ p ∈ desired, ∀ cands prefixes, known.view p.pubkey = some (cands, prefixes) →
    ∀ a, a ∈ cands ↔ a ∈ p.candidates
  prefixes : ∀ p ∈ desired, ∀ cands prefixes, known.view p.pubkey = some (cands, prefixes) →
    prefixes = p.allowedIps

/-- Applying the changes makes what is known agree with the snapshot, and there are none if it
already does and the endpoint lists have the same lengths. -/
def Reconciler.Completes (text : AddrText) (r : Reconciler) (desired : List PeerInfo) : Prop :=
  (r.applyAll text (peerChanges r.known desired)).known.Agrees desired ∧
    (r.known.Agrees desired →
      (∀ p ∈ desired, ∀ cands prefixes, r.known.view p.pubkey = some (cands, prefixes) →
        cands.length = p.candidates.length) →
      peerChanges r.known desired = [])

/-- The endpoints of the snapshot are not a part of the known ones that repetitions make as long. -/
def Unrepeated (known : KnownPeers) (desired : List PeerInfo) : Prop :=
  ∀ p ∈ desired, ∀ cands prefixes, known.view p.pubkey = some (cands, prefixes) →
    cands.length = p.candidates.length → (∀ a ∈ p.candidates, a ∈ cands) →
    ∀ a ∈ cands, a ∈ p.candidates

section Completeness

variable {text : AddrText} {r : Reconciler} {desired : List PeerInfo} {peer : PeerInfo} {pk : Key}

lemma sameEndpoints_iff {a b : List SocketAddr} :
    sameEndpoints a b = true ↔ a.length = b.length ∧ ∀ x ∈ b, x ∈ a := by
  simp [sameEndpoints]

/-- What is known of a desired peer in the end. -/
lemma view_of_mem (hdistinct : (desired.map (·.pubkey)).Nodup) (hpeer : peer ∈ desired) :
    (r.applyAll text (peerChanges r.known desired)).known.view peer.pubkey =
      some (match r.known.view peer.pubkey with
        | some (cands, _) =>
          if sameEndpoints cands peer.candidates then cands else peer.candidates
        | none => peer.candidates, peer.allowedIps) := by
  rw [Reconciler.view_applyAll, filter_peerChanges hdistinct hpeer, changesFor, KnownPeers.view]
  cases hknown : r.known.lookup peer.pubkey with
  | none => rfl
  | some entry =>
    obtain ⟨wid, cands, prefixes⟩ := entry
    simp only [Option.map_some]
    by_cases hsame : sameEndpoints cands peer.candidates = true <;>
      by_cases hprefixes : prefixes = peer.allowedIps <;>
      simp [hsame, hprefixes, PeerChange.effect]

lemma view_of_notMem (h : ∀ p ∈ desired, p.pubkey ≠ pk) :
    (r.applyAll text (peerChanges r.known desired)).known.view pk = none := by
  obtain ⟨k, hfilter, hpos⟩ : ∃ k, (peerChanges r.known desired).filter (·.key = pk) =
      List.replicate k (.remove pk) ∧ (r.known.contains pk = true → 0 < k) :=
    filter_peerChanges_of_notMem h
  rw [Reconciler.view_applyAll, hfilter]
  cases k with
  | zero =>
    have hunknown : ¬ r.known.contains pk = true := fun hknown => absurd (hpos hknown) (by decide)
    rw [HashMap.contains, Bool.not_eq_true, Option.isSome_eq_false_iff, Option.isNone_iff_eq_none]
      at hunknown
    simp [KnownPeers.view, hunknown]
  | succ k =>
    have hremoved : ∀ k, (List.replicate k (PeerChange.remove pk)).foldl
        (fun v change => change.effect v) none = none := by
      intro k
      induction k with
      | zero => rfl
      | succ k ih => exact ih
    exact hremoved k

/-- The keys known in the end. -/
lemma isSome_view_iff (hdistinct : (desired.map (·.pubkey)).Nodup) (pk : Key) :
    ((r.applyAll text (peerChanges r.known desired)).known.view pk).isSome = true ↔
      ∃ p ∈ desired, p.pubkey = pk := by
  by_cases hmem : ∃ p ∈ desired, p.pubkey = pk
  · obtain ⟨p, hp, rfl⟩ := hmem
    rw [view_of_mem hdistinct hp]
    exact iff_of_true rfl ⟨p, hp, rfl⟩
  · rw [view_of_notMem fun p hp heq => hmem ⟨p, hp, heq⟩]
    exact iff_of_false (by decide) hmem

lemma contains_iff_view {known : KnownPeers} :
    known.contains pk = true ↔ (known.view pk).isSome = true := by
  rw [HashMap.contains, KnownPeers.view, Option.isSome_map]

/-- A peer that is known as desired needs no change. -/
lemma changesFor_eq_nil (hagrees : r.known.Agrees desired) (hpeer : peer ∈ desired)
    (hlength : ∀ cands prefixes, r.known.view peer.pubkey = some (cands, prefixes) →
      cands.length = peer.candidates.length) : changesFor r.known peer = [] := by
  have hknown := (hagrees.keys peer.pubkey).mpr ⟨peer, hpeer, rfl⟩
  obtain ⟨entry, hentry⟩ := Option.isSome_iff_exists.mp hknown
  obtain ⟨wid, cands, prefixes⟩ := entry
  have hview : r.known.view peer.pubkey = some (cands, prefixes) := by
    rw [KnownPeers.view, hentry]
    rfl
  have hsame : sameEndpoints cands peer.candidates = true :=
    sameEndpoints_iff.mpr ⟨hlength _ _ hview,
      fun a ha => (hagrees.endpoints peer hpeer _ _ hview a).mpr ha⟩
  have hprefixes := hagrees.prefixes peer hpeer _ _ hview
  simp [changesFor, hentry, hsame, hprefixes]

lemma peerChanges_eq_nil (hagrees : r.known.Agrees desired)
    (hlength : ∀ p ∈ desired, ∀ cands prefixes, r.known.view p.pubkey = some (cands, prefixes) →
      cands.length = p.candidates.length) : peerChanges r.known desired = [] := by
  have hremoves : (r.known.keys.filter fun pk => !desired.any (·.pubkey = pk)) = [] := by
    rw [List.filter_eq_nil_iff]
    intro pk hpk
    obtain ⟨p, hp, hkey⟩ := (hagrees.keys pk).mp (AList.lookup_isSome.mpr hpk)
    simpa using ⟨p, hp, hkey⟩
  have hchanges : desired.flatMap (changesFor r.known) = [] :=
    List.flatMap_eq_nil_iff.mpr fun p hp => changesFor_eq_nil hagrees hp (hlength p hp)
  rw [peerChanges, hremoves, hchanges]
  rfl

/-- The diff is complete exactly if the snapshot has no peer whose endpoints are a part of the known
ones and look as many by repetition. -/
theorem completes_iff (text : AddrText) (r : Reconciler) (desired : List PeerInfo)
    (hdistinct : (desired.map (·.pubkey)).Nodup) :
    r.Completes text desired ↔ Unrepeated r.known desired := by
  constructor
  · rintro ⟨hagrees, -⟩ p hp cands prefixes hview hlength hsub
    have hsame : sameEndpoints cands p.candidates = true := sameEndpoints_iff.mpr ⟨hlength, hsub⟩
    have hfinal : (r.applyAll text (peerChanges r.known desired)).known.view p.pubkey =
        some (cands, p.allowedIps) := by
      rw [view_of_mem hdistinct hp, hview]
      simp [hsame]
    intro a ha
    exact (hagrees.endpoints p hp _ _ hfinal a).mp ha
  · intro hunrepeated
    refine ⟨⟨?_, ?_, ?_⟩, peerChanges_eq_nil⟩
    · intro pk
      rw [contains_iff_view]
      exact isSome_view_iff hdistinct pk
    · intro p hp cands prefixes hview a
      rw [view_of_mem hdistinct hp] at hview
      cases hknown : r.known.view p.pubkey with
      | none =>
        rw [hknown] at hview
        cases hview
        rfl
      | some entry =>
        obtain ⟨old, oldPrefixes⟩ := entry
        rw [hknown] at hview
        by_cases hsame : sameEndpoints old p.candidates = true
        · simp only [hsame, if_true] at hview
          cases hview
          obtain ⟨hlength, hsub⟩ := sameEndpoints_iff.mp hsame
          exact ⟨hunrepeated p hp _ _ hknown hlength hsub a, hsub a⟩
        · simp only [hsame] at hview
          cases hview
          rfl
    · intro p hp cands prefixes hview
      rw [view_of_mem hdistinct hp] at hview
      cases hview
      rfl

end Completeness

/-! ## An endpoint that is repeated -/

namespace Reconciler

def samplePeerKey : Key := .replicate 32 1

def endpointA : SocketAddr := .v4 (192 ::ᵥ 0 ::ᵥ 2 ::ᵥ 1 ::ᵥ .nil) 1

def endpointB : SocketAddr := .v4 ⟨[192, 0, 2, 2], rfl⟩ 2

/-- A reconciler of one worker that knows a peer with two endpoints. -/
def twoEndpoints : Reconciler :=
  { ownPub := .replicate 32 0, n := 1
    known := (∅ : KnownPeers).insert samplePeerKey (0, [endpointA, endpointB], [])
    ordinal := 1, peerToWid := (∅ : HashMap Key Nat).insert samplePeerKey 0
    candToWid := ((∅ : HashMap SocketAddr Nat).insert endpointA 0).insert endpointB 0
    allowed := .default }

def sampleInfo (candidates : List SocketAddr) : PeerInfo :=
  { pubkey := samplePeerKey, candidates, allowedIps := [], overlay := none, exit := false }

/-- The snapshot repeats one endpoint, and the other one stays known. -/
theorem repeated_endpoint_not_complete :
    ([sampleInfo [endpointA, endpointA]].map (·.pubkey)).Nodup ∧
      peerChanges twoEndpoints.known [sampleInfo [endpointA, endpointA]] = [] ∧
      ¬ twoEndpoints.Completes .plain [sampleInfo [endpointA, endpointA]] := by
  have hdistinct : ([sampleInfo [endpointA, endpointA]].map (·.pubkey)).Nodup := by simp
  refine ⟨hdistinct, by decide, ?_⟩
  intro hcomplete
  have hview : (twoEndpoints.applyAll .plain
      (peerChanges twoEndpoints.known [sampleInfo [endpointA, endpointA]])).known.view
      samplePeerKey = some ([endpointA, endpointB], []) := by decide +kernel
  have hmem := (hcomplete.1.endpoints _ List.mem_cons_self _ _ hview endpointB).mp (by decide)
  revert hmem
  decide

/-- A snapshot with one endpoint of the two. -/
theorem completes_iff_sampleInfo :
    twoEndpoints.Completes .plain [sampleInfo [endpointB]] := by
  refine (completes_iff .plain twoEndpoints [sampleInfo [endpointB]] (by simp)).mpr ?_
  intro p hp cands prefixes hview hlength
  rw [List.mem_singleton.mp hp] at hview hlength
  have hknown : twoEndpoints.known.view samplePeerKey = some ([endpointA, endpointB], []) := by
    decide +kernel
  rw [show (sampleInfo [endpointB]).pubkey = samplePeerKey from rfl, hknown] at hview
  cases hview
  cases hlength

end Reconciler

end Fluxpeer.Node
