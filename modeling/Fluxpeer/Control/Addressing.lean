import Fluxpeer.Control.Accounting
import Fluxpeer.Lib.Ranked

/-!
# Addresses of the store in memory

The allocator of a network knows hosts by public key, while a device is revoked by its id. As long
as only ids are revoked whose key is not active under another id, each active device holds the host
of its key and no two of them have an address in common. Revoking an id twice frees the host of
another device with the same key.
-/

namespace Fluxpeer.Control

open Lib Net HashMap

/-! ## Allocators -/

namespace Ipam

variable {a a' : Ipam} {key k : String} {host h : UInt8} {v4 v6 : IpAddr}

/-- The hosts of keys are in use, each by one key. -/
structure Tight (a : Ipam) : Prop where
  used : ∀ key host, a.byKey.lookup key = some host → a.used host = true
  apart : ∀ key key' host, a.byKey.lookup key = some host → a.byKey.lookup key' = some host →
    key = key'

lemma tight_of_empty (h : a.byKey = ∅) : a.Tight := by
  constructor <;> simp [h]

lemma lookup_claim (a : Ipam) (key k : String) (host : UInt8) :
    (a.claim key host).byKey.lookup k = if k = key then some host else a.byKey.lookup k :=
  lookup_insert ..

lemma Tight.claim (ha : a.Tight) (hfree : a.used host = false) : (a.claim key host).Tight := by
  have hother : ∀ k, a.byKey.lookup k ≠ some host := by
    intro k hk
    rw [ha.used k host hk] at hfree
    cases hfree
  constructor
  · intro k h hk
    rw [lookup_claim] at hk
    rw [used_claim]
    split at hk
    · cases hk
      exact if_pos rfl
    · rw [ha.used k h hk, ite_self]
  · intro k k' h hk hk'
    rw [lookup_claim] at hk hk'
    split at hk <;> split at hk'
    · next h₁ h₂ => rw [h₁, h₂]
    · cases hk
      exact absurd hk' (hother k')
    · cases hk'
      exact absurd hk (hother k)
    · exact ha.apart k k' h hk hk'

/-- A key has the address that was allocated for it, and no other key loses its host. -/
structure Allocated (a : Ipam) (key : String) (a' : Ipam) (v4 v6 : IpAddr) : Prop where
  tight : a'.Tight
  own : ∃ host, a'.byKey.lookup key = some host ∧ a'.addresses host = (v4, v6)
  kept : ∀ k h, a.byKey.lookup k = some h → a'.byKey.lookup k = some h
  base : a'.addresses = a.addresses

lemma Tight.allocate (ha : a.Tight) (halloc : a.allocate key = some (a', v4, v6)) :
    a.Allocated key a' v4 v6 := by
  unfold Ipam.allocate at halloc
  split at halloc
  · next host hhost =>
    obtain ⟨rfl, heq⟩ := Prod.mk.inj (Option.some.inj halloc)
    exact ⟨ha, ⟨host, hhost, heq⟩, fun _ _ => id, rfl⟩
  next hnone =>
  obtain ⟨host, hfind, heq⟩ := Option.map_eq_some_iff.mp halloc
  have hpair := Prod.mk.inj heq
  obtain ⟨rfl, haddr⟩ := hpair
  have hfree : a.used host = false := by simpa using List.find?_some hfind
  refine ⟨ha.claim hfree, ⟨host, ?_, haddr⟩, ?_, rfl⟩
  · rw [lookup_claim, if_pos rfl]
  · intro k h hk
    have hne : k ≠ key := by
      rintro rfl
      rw [hnone] at hk
      cases hk
    rw [lookup_claim, if_neg hne, hk]

lemma lookup_recycle (a : Ipam) (key k : String) :
    (a.recycle key).byKey.lookup k = if k = key then none else a.byKey.lookup k := by
  unfold recycle
  split
  · exact lookup_erase ..
  next hnone =>
  split
  · next heq => rw [heq, hnone]
  · rfl

lemma used_recycle_iff (a : Ipam) (key : String) (h : UInt8) :
    (a.recycle key).used h = true ↔ a.used h = true ∧ a.byKey.lookup key ≠ some h := by
  unfold recycle
  split
  · simp only [Function.update_apply]
    grind
  · next hnone => simp [hnone]

lemma addresses_recycle (a : Ipam) (key : String) : (a.recycle key).addresses = a.addresses := by
  unfold recycle
  split <;> rfl

/-- The host that becomes free belonged to no other key. -/
lemma Tight.recycle (ha : a.Tight) (key : String) : (a.recycle key).Tight := by
  constructor
  · intro k h hk
    rw [lookup_recycle] at hk
    split at hk
    · cases hk
    next hne =>
    exact (used_recycle_iff a key h).mpr ⟨ha.used k h hk, fun hkey => hne (ha.apart k key h hk hkey)⟩
  · intro k k' h hk hk'
    rw [lookup_recycle] at hk hk'
    split at hk
    · cases hk
    · split at hk'
      · cases hk'
      · exact ha.apart k k' h hk hk'

/-! ### Runs -/

inductive Call
  | allocate (pubkey : String)
  | reserve (pubkey : String) (host : UInt8)
  | recycle (pubkey : String)

def step (a : Ipam) : Call → Option Ipam
  | .allocate pubkey => some ((a.allocate pubkey).elim a (·.1))
  | .reserve pubkey host => some (a.reserve pubkey host)
  | .recycle pubkey => some (a.recycle pubkey)

/-- The hosts in use are those of keys, and a new key gets the lowest that is free. -/
structure Represents (a : Ipam) : Prop extends a.Tight where
  held : ∀ host, a.used host = true → ∃ key, a.byKey.lookup key = some host
  known : ∀ key host, a.byKey.lookup key = some host → a.allocate key = some (a, a.addresses host)
  lowest : ∀ key a' v, a.byKey.lookup key = none → a.allocate key = some (a', v) →
    ∃ host, Ranked.Best (· ≤ ·) (fun h => !a.used h) deviceHosts host ∧ a' = a.claim key host ∧
      v = a.addresses host
  exhausted : ∀ key, a.byKey.lookup key = none →
    (a.allocate key = none ↔ ∀ host ∈ deviceHosts, a.used host = true)

lemma Tight.represents (ha : a.Tight)
    (hheld : ∀ host, a.used host = true → ∃ key, a.byKey.lookup key = some host) :
    a.Represents := by
  refine ⟨ha, hheld, ?_, ?_, ?_⟩
  · intro key host hkey
    rw [Ipam.allocate, hkey]
  · intro key a' v hkey halloc
    simp only [Ipam.allocate, hkey, Option.map_eq_some_iff, Prod.mk.injEq] at halloc
    obtain ⟨host, hfind, rfl, rfl⟩ := halloc
    exact ⟨host, Ranked.best_of_find? (by decide +kernel) UInt8.le_refl hfind, rfl, rfl⟩
  · intro key hkey
    simp [Ipam.allocate, hkey]

lemma Represents.claim (ha : a.Represents) (hnew : a.byKey.lookup key = none)
    (hfree : a.used host = false) : (a.claim key host).Represents := by
  refine (ha.toTight.claim hfree).represents fun h hused => ?_
  rw [used_claim] at hused
  split at hused
  · next heq => exact ⟨key, by rw [lookup_claim, if_pos rfl, heq]⟩
  · obtain ⟨k, hk⟩ := ha.held h hused
    refine ⟨k, ?_⟩
    rw [lookup_claim, if_neg, hk]
    rintro rfl
    cases hnew.symm.trans hk

lemma Represents.recycle (ha : a.Represents) (key : String) : (a.recycle key).Represents := by
  refine (ha.toTight.recycle key).represents fun h hused => ?_
  obtain ⟨hused, hother⟩ := (used_recycle_iff a key h).mp hused
  obtain ⟨k, hk⟩ := ha.held h hused
  refine ⟨k, ?_⟩
  rw [lookup_recycle, if_neg, hk]
  rintro rfl
  exact hother hk

/-- A key that has a host is not given another one that is free. -/
def Settled (a : Ipam) : Call → Ipam → Prop
  | .reserve key host, _ => ∀ host' ∈ a.byKey.lookup key, host' = host ∨ a.used host = true
  | _, _ => True

lemma Represents.step {call : Call} (ha : a.Represents) (hstep : a.step call = some a')
    (hcall : a.Settled call a') : a'.Represents := by
  cases call with
  | allocate key =>
    cases hstep
    cases halloc : a.allocate key with
    | none => exact ha
    | some r =>
      cases hkey : a.byKey.lookup key with
      | some host =>
        cases (ha.known key host hkey).symm.trans halloc
        exact ha
      | none =>
        obtain ⟨host, hbest, heq, -⟩ := ha.lowest key r.1 r.2 hkey halloc
        change r.1.Represents
        rw [heq]
        exact ha.claim hkey (by simpa using hbest.holds)
  | reserve key host =>
    cases hstep
    unfold Ipam.reserve
    split
    · exact ha
    next hother =>
    split
    · exact ha
    next hfree =>
    refine ha.claim (Option.eq_none_iff_forall_ne_some.mpr fun host' hhost' => ?_) (by simpa using hfree)
    rcases hcall host' hhost' with rfl | hused
    · exact hother hhost'
    · exact hfree hused
  | recycle key =>
    cases hstep
    exact ha.recycle key

/-- The host that a key leaves stays in use. -/
lemma Represents.settled {call : Call} (ha : a.Represents) (hstep : a.step call = some a')
    (ha' : a'.Represents) : a.Settled call a' := by
  cases call with
  | reserve key host =>
    intro host' hhost'
    by_contra hne
    obtain ⟨hother, hfree⟩ := not_or.mp hne
    have hkey : a.byKey.lookup key ≠ some host := by
      rw [hhost']
      simpa using hother
    obtain rfl : a.claim key host = a' := by
      simpa [Ipam.step, Ipam.reserve, hkey, hfree] using hstep
    obtain ⟨k, hk⟩ := ha'.held host' (used_claim_of_used key host (ha.used key host' hhost'))
    rw [lookup_claim] at hk
    split at hk
    · exact hother (Option.some.inj hk).symm
    · next hne => exact hne (ha.apart k key host' hk hhost')
  | _ => trivial

/-- A key is given one host and then another. -/
theorem moved_key_leaves_host :
    ∃ a, runFrom step (new (.replicate 4 0) [0, 0, 0]) [.reserve "a" 100, .reserve "a" 101] = some a ∧
      a.used 100 = true ∧ ∀ key, a.byKey.lookup key ≠ some 100 := by
  refine ⟨((new (.replicate 4 0) [0, 0, 0]).claim "a" 100).claim "a" 101, rfl, rfl, fun key => ?_⟩
  rw [lookup_claim, lookup_claim]
  split <;> simp [new]

/-- An allocator represents its hosts after any calls, if and only if none gives another free host to a
key that has one. -/
theorem represents_iff_settled (v4Net : Block 4) (v6Prefix : List Nat) (calls : List Call) :
    Always step Represents (new v4Net v6Prefix) calls ↔
      EveryStep step Settled (new v4Net v6Prefix) calls :=
  always_iff_everyStep (fun _ _ _ => Represents.step) (fun _ => id) (fun _ _ _ => Represents.settled)
    calls ((tight_of_empty rfl).represents nofun)

end Ipam

namespace Memory

variable (text : AddrText) {s s' : Memory}

/-! ## Devices and their hosts -/

/-- A device has the addresses of the host that its key has in the allocator of its network. -/
def Seated (s : Memory) (d : Device) : Prop :=
  ∃ ipam host, s.ipams.lookup d.networkId = some ipam ∧ ipam.byKey.lookup d.wgPublicKey = some host ∧
    d.addressV4 = some (text.display (ipam.addresses host).1) ∧
    d.addressV6 = some (text.display (ipam.addresses host).2)

structure Addressed (s : Memory) : Prop where
  sound : s.Sound
  placed : s.Placed
  tight : ∀ n ipam, s.ipams.lookup n = some ipam → ipam.Tight
  seated : ∀ id d, s.devices.lookup id = some d → d.status = .active → s.Seated text d

/-- The addresses of two active devices of a network differ, in both families. -/
def Distinct (s : Memory) : Prop :=
  ∀ id d id' d', s.devices.lookup id = some d → s.devices.lookup id' = some d' → id ≠ id' →
    d.status = .active → d'.status = .active → d.networkId = d'.networkId →
    d.addressV4 ≠ d'.addressV4 ∧ d.addressV6 ≠ d'.addressV6

variable {text} {id : String}

lemma Addressed.distinct (hs : s.Addressed text) : s.Distinct := by
  intro id d id' d' hd hd' hne hactive hactive' hnetwork
  obtain ⟨ipam, host, hipam, hhost, hv4, hv6⟩ := hs.seated id d hd hactive
  obtain ⟨ipam', host', hipam', hhost', hv4', hv6'⟩ := hs.seated id' d' hd' hactive'
  rw [← hnetwork, hipam] at hipam'
  cases hipam'
  have hhosts : host ≠ host' := by
    rintro rfl
    have hkey := (hs.tight _ _ hipam).apart _ _ _ hhost hhost'
    exact hne (hs.sound.apart _ _ _ _ hd hd' hactive hactive' hnetwork hkey)
  rw [hv4, hv4', hv6, hv6']
  constructor
  · intro heq
    exact hhosts (v4At_inj (display_injective text (Option.some.inj heq)))
  · intro heq
    exact hhosts (v6At_inj (display_injective text (Option.some.inj heq)))

/-- A step that leaves devices and allocators alone. -/
lemma Addressed.of_eq (hs : s.Addressed text) (hdevices : s'.devices = s.devices)
    (hipams : s'.ipams = s.ipams) (hsound : s'.Sound) (hplaced : s'.Placed) :
    s'.Addressed text := by
  refine ⟨hsound, hplaced, hipams ▸ hs.tight, ?_⟩
  intro id d hd hactive
  unfold Seated
  rw [hipams]
  exact hs.seated id d (hdevices ▸ hd) hactive

/-- A network that is new has no devices yet. -/
lemma Addressed.inserted {k : Nat} {net : Network} {ipam : Ipam} (hs : s.Addressed text)
    (hk : s.pending[k]? = some (net, ipam)) :
    Addressed text { s.insertNetwork net ipam with pending := s.pending.eraseIdx k } := by
  obtain ⟨hempty, hnone, -⟩ := hs.placed.pending _ (List.mem_of_getElem? hk)
  refine ⟨hs.sound.of_devices rfl le_rfl, hs.placed.inserted hk, ?_, ?_⟩
  · intro n ipam' hipam'
    rw [insertNetwork, lookup_insert] at hipam'
    split at hipam'
    · cases hipam'
      exact Ipam.tight_of_empty hempty
    · exact hs.tight n ipam' hipam'
  · intro id d hd hactive
    obtain ⟨ipam', host, hipam', hrest⟩ := hs.seated id d hd hactive
    have hne : d.networkId ≠ net.id := by
      intro heq
      rw [heq, hnone] at hipam'
      cases hipam'
    exact ⟨ipam', host, by rw [insertNetwork, lookup_insert, if_neg hne, hipam'], hrest⟩

lemma Addressed.enrolled {device : Device} (hs : s.Addressed text)
    (h : s.Allocates text device s') (hdevices : s'.devices = s.devices.insert device.id device)
    (hsound : s'.Sound) (hplaced : s'.Placed) : s'.Addressed text := by
  obtain ⟨ipam, ipam', v4, v6, hipam, hallocate, hipams, hv4, hv6⟩ := h
  have halloc := (hs.tight _ _ hipam).allocate hallocate
  have hlookup : ∀ n, s'.ipams.lookup n =
      if n = device.networkId then some ipam' else s.ipams.lookup n := by
    intro n
    rw [hipams, lookup_insert]
  refine ⟨hsound, hplaced, ?_, ?_⟩
  · intro n ipam₁ hipam₁
    rw [hlookup] at hipam₁
    split at hipam₁
    · cases hipam₁
      exact halloc.tight
    · exact hs.tight n ipam₁ hipam₁
  · intro id d hd hactive
    rw [hdevices, lookup_insert] at hd
    split at hd
    · cases hd
      obtain ⟨host, hhost, haddr⟩ := halloc.own
      refine ⟨ipam', host, by rw [hlookup, if_pos rfl], hhost, ?_, ?_⟩
      · rw [haddr, hv4]
      · rw [haddr, hv6]
    · obtain ⟨ipam₁, host, hipam₁, hhost, haddr⟩ := hs.seated id d hd hactive
      by_cases hnetwork : d.networkId = device.networkId
      · rw [hnetwork, hipam] at hipam₁
        cases hipam₁
        refine ⟨ipam', host, by rw [hlookup, if_pos hnetwork], halloc.kept _ _ hhost, ?_⟩
        rw [halloc.base]
        exact haddr
      · exact ⟨ipam₁, host, by rw [hlookup, if_neg hnetwork, hipam₁], hhost, haddr⟩

/-! ## Revocation -/

lemma revokeDevice_cases (h : s.revokeDevice id = .ok s') :
    ∃ d, s.devices.lookup id = some d ∧
      s'.devices = s.devices.insert id { d with status := .revoked } ∧
      (∀ n, s'.ipams.lookup n = (s.ipams.lookup n).map fun ipam =>
        if n = d.networkId then ipam.recycle d.wgPublicKey else ipam) ∧
      (∀ n, s'.networks.contains n = s.networks.contains n) ∧
      s'.pending = s.pending ∧ s'.seq = s.seq := by
  unfold revokeDevice at h
  split at h
  · cases h
  next d hd =>
  cases h
  refine ⟨d, hd, devices_bumpEpoch _ _, ?_, bumpEpoch_contains _ _, pending_bumpEpoch _ _,
    seq_bumpEpoch _ _⟩
  intro n
  rw [ipams_bumpEpoch]
  cases hipam : s.ipams.lookup d.networkId with
  | none =>
    by_cases hn : n = d.networkId
    · subst hn
      simp [hipam]
    · simp [hn]
  | some ipam =>
    simp only [lookup_insert]
    split
    · next hn =>
      subst hn
      simp [hipam]
    · simp

/-- No other device is active with the key of a device that is to be revoked. -/
def Op.Sole (s : Memory) : Op → Prop
  | .revokeDevice id => ∀ d, s.devices.lookup id = some d →
    d.status = .active ∨ ¬ s.HasKey d.networkId d.wgPublicKey
  | _ => True

/-- Devices that stay active do not have the key of the revoked one. -/
lemma Addressed.revoked (hs : s.Addressed text) (h : s.revokeDevice id = .ok s')
    (hsole : (Op.revokeDevice id).Sole s) (hsound : s'.Sound) : s'.Addressed text := by
  obtain ⟨d, hd, hdevices, hipams, hnetworks, hpending, hseq⟩ := revokeDevice_cases h
  have hlookup : ∀ id', s'.devices.lookup id' =
      if id' = id then some { d with status := .revoked } else s.devices.lookup id' := by
    intro id'
    rw [hdevices, lookup_insert]
  have hother : ∀ id' d', id' ≠ id → s.devices.lookup id' = some d' → d'.status = .active →
      d'.networkId = d.networkId → d'.wgPublicKey ≠ d.wgPublicKey := by
    intro id' d' hne hd' hactive' hnetwork hkey
    rcases hsole d hd with hactive | hnone
    · exact hne (hs.sound.apart _ _ _ _ hd' hd hactive' hactive hnetwork hkey)
    · exact hnone ⟨id', d', hd', hnetwork, hactive', hkey⟩
  have hcontains : ∀ n, s'.ipams.contains n = s.ipams.contains n := by
    intro n
    rw [contains, hipams, Option.isSome_map, contains]
  refine ⟨hsound, ⟨?_, ?_, ?_, hpending ▸ hs.placed.distinct, ?_⟩, ?_, ?_⟩
  · -- what is left in an allocator belongs to devices that stay
    intro n ipam' key hipam' hkey
    rw [hipams] at hipam'
    obtain ⟨ipam, hipam, rfl⟩ := Option.map_eq_some_iff.mp hipam'
    have hkeep : ∀ hold : ipam.byKey.contains key = true,
        (n = d.networkId → key ≠ d.wgPublicKey) → s'.HasKey n key := by
      intro hold hne
      obtain ⟨id', d', hd', hnetwork, hactive, hsame⟩ := hs.placed.keyed n ipam key hipam hold
      have hid : id' ≠ id := by
        rintro rfl
        rw [hd] at hd'
        cases hd'
        exact hne hnetwork.symm hsame.symm
      exact ⟨id', d', by rw [hlookup, if_neg hid, hd'], hnetwork, hactive, hsame⟩
    split at hkey
    · rw [contains, Ipam.lookup_recycle] at hkey
      split at hkey
      · cases hkey
      · next hne => exact hkeep hkey fun _ => hne
    · next hne => exact hkeep hkey fun heq => absurd heq hne
  · intro n hn
    rw [hcontains]
    exact hs.placed.networks n (hnetworks n ▸ hn)
  · intro p hp
    obtain ⟨hempty, hnone, hissued⟩ := hs.placed.pending p (hpending ▸ hp)
    exact ⟨hempty, by rw [hipams, hnone]; rfl, hseq ▸ hissued⟩
  · intro n hn
    exact hseq ▸ hs.placed.issued n (hcontains n ▸ hn)
  · intro n ipam' hipam'
    rw [hipams] at hipam'
    obtain ⟨ipam, hipam, rfl⟩ := Option.map_eq_some_iff.mp hipam'
    split
    · exact (hs.tight n ipam hipam).recycle _
    · exact hs.tight n ipam hipam
  · intro id' d' hd' hactive'
    rw [hlookup] at hd'
    split at hd'
    · cases hd'
      cases hactive'
    next hid =>
    obtain ⟨ipam, host, hipam, hhost, haddr⟩ := hs.seated id' d' hd' hactive'
    refine ⟨_, host, by rw [hipams, hipam, Option.map_some], ?_, ?_⟩
    · split
      · next hnetwork =>
        rw [Ipam.lookup_recycle, if_neg (hother id' d' hid hd' hactive' hnetwork), hhost]
      · exact hhost
    · split
      · rw [Ipam.addresses_recycle]
        exact haddr
      · exact haddr

/-! ## Runs -/

def Op.isImport : Op → Bool
  | .importDevices .. => true
  | _ => false

lemma Addressed.steps {op : Op} (hs : s.Addressed text) (h : s.Steps text op s')
    (hop : op.isImport = false) (hsole : op.Sole s) : s'.Addressed text := by
  have hsound : s'.Sound := hs.sound.steps h
  have hplaced : op.isRevoke = false → s'.Placed := hs.placed.steps hs.sound h
  cases h with
  | same => exact hs
  | inserted waits => exact hs.inserted waits
  | enrolled _ _ h allocates => exact hs.enrolled allocates h.devices hsound (hplaced rfl)
  | imported => cases hop
  | revoked h => exact hs.revoked h hsole hsound
  | bumped n => exact hs.of_eq (devices_bumpEpoch s n) (ipams_bumpEpoch s n) hsound (hplaced rfl)
  | _ => exact hs.of_eq rfl rfl hsound (hplaced rfl)

lemma addressed_new : Addressed text new := by
  have hdevices : ∀ id, new.devices.lookup id = none := fun _ => rfl
  have hipams : ∀ n, new.ipams.lookup n = none := fun _ => rfl
  refine ⟨⟨?_, ?_⟩, ⟨?_, ?_, ?_, List.nodup_nil, ?_⟩, ?_, ?_⟩
  · intro id d hd
    cases (hdevices id).symm.trans hd
  · intro id d id' d' hd
    cases (hdevices id).symm.trans hd
  · intro n ipam key hipam
    cases (hipams n).symm.trans hipam
  · intro n hn
    cases hn
  · intro p hp
    cases hp
  · intro n hn
    cases hn
  · intro n ipam hipam
    cases (hipams n).symm.trans hipam
  · intro id d hd
    cases (hdevices id).symm.trans hd

variable (text) in
def next? (s : Memory) (op : Op) : Option Memory := some (s.step text op)

/-- In every run, with imports and revocations, an id stands for one device, and so does an active
key of a network. -/
theorem always_sound (text : AddrText) (ops : List Op) : Always (next? text) Sound new ops := by
  refine always_of_forall (fun s op s' hs hstep => ?_) (fun _ hs => hs) (@addressed_new text).sound
  cases hstep
  exact hs.steps (step_steps text s op)

variable (text) in
/-- While no id is revoked whose key is active under another id, active devices of a network have
distinct addresses. -/
theorem addresses_distinct_of_sole (ops : List Op) (himport : ∀ op ∈ ops, op.isImport = false)
    (hsole : EveryStep (next? text) (fun s op _ => op.Sole s) new ops) :
    Always (next? text) Distinct new ops := by
  have hboth := everyStep_and (everyStep_of_forall fun op hop _ _ => himport op hop) hsole
  have hkeep : ∀ s op s', Addressed text s → next? text s op = some s' →
      op.isImport = false ∧ op.Sole s → Addressed text s' := by
    rintro s op s' hs hstep ⟨hop, hsole⟩
    cases hstep
    exact hs.steps (step_steps text s op) hop hsole
  exact always_of_inv hkeep (fun _ => Addressed.distinct) addressed_new hboth

/-! ### An id revoked twice -/

def sampleKey (c : Char) : String := String.ofList (List.replicate 64 c)

/-- A key is enrolled, revoked and enrolled again. Its first id is then revoked once more, and
another key enrolled. -/
def revokedTwice : List Op :=
  [.drawNetwork "net" 0, .insertNetwork 0, .createInvite "net-1" none none "code",
    .enroll "code" "a" (sampleKey '1') 0, .revokeDevice "dev-2",
    .enroll "code" "a" (sampleKey '1') 0, .revokeDevice "dev-2",
    .enroll "code" "b" (sampleKey '2') 0]

lemma runFrom_next? (s : Memory) (ops : List Op) :
    runFrom (next? text) s ops = some (ops.foldl (step text) s) := by
  induction ops generalizing s with
  | nil => rfl
  | cons op ops ih => exact ih (s.step text op)

/-- The device that `revokedTwice` enrols under a number, on the first host. -/
def firstHost (seq : Nat) (name : String) (key : Char) : Device :=
  { id := "dev-" ++ Nat.repr seq, networkId := "net-1", name, wgPublicKey := sampleKey key
    addressV4 := some (AddrText.plain.display (v4At ⟨[100, 72, 16, 0], rfl⟩ 100))
    addressV6 := some (AddrText.plain.display (v6At [0xfd00, 0, 0] 100)), status := .active }

theorem revokedTwice_shares_address :
    (∀ op ∈ revokedTwice, op.isImport = false) ∧
      ∃ s, runFrom (next? .plain) new revokedTwice = some s ∧ ¬ s.Distinct := by
  refine ⟨by decide, _, runFrom_next? _ _, ?_⟩
  intro hdistinct
  have hfirst : (revokedTwice.foldl (step .plain) new).devices.lookup "dev-3" =
      some (firstHost 3 "a" '1') := by decide +kernel
  have hsecond : (revokedTwice.foldl (step .plain) new).devices.lookup "dev-4" =
      some (firstHost 4 "b" '2') := by decide +kernel
  exact (hdistinct _ _ _ _ hfirst hsecond (by decide) rfl rfl rfl).1 rfl

/-- The key is revoked and enrolled again, and its second id revoked. -/
def revokedInTurn : List Op :=
  [.drawNetwork "net" 0, .insertNetwork 0, .createInvite "net-1" none none "code",
    .enroll "code" "a" (sampleKey '1') 0, .revokeDevice "dev-2",
    .enroll "code" "a" (sampleKey '1') 0, .enroll "code" "b" (sampleKey '2') 0,
    .revokeDevice "dev-3"]

lemma sole_of_active (h : ((s.devices.lookup id).all fun d => d.status = .active) = true) :
    (Op.revokeDevice id).Sole s := by
  intro d hd
  rw [hd] at h
  exact .inl (by simpa using h)

theorem addresses_distinct_of_sole_revokedInTurn :
    Always (next? .plain) Distinct new revokedInTurn := by
  refine addresses_distinct_of_sole .plain revokedInTurn (by decide) ?_
  refine .cons rfl trivial ?_
  refine .cons rfl trivial ?_
  refine .cons rfl trivial ?_
  refine .cons rfl trivial ?_
  refine .cons rfl (sole_of_active (by decide +kernel)) ?_
  refine .cons rfl trivial ?_
  refine .cons rfl trivial ?_
  rintro _ ⟨⟩
  exact ⟨sole_of_active (by decide +kernel), trivial⟩

end Memory

end Fluxpeer.Control
