import Fluxpeer.Control.Enrollment

/-!
# The store in memory

The store without a database keeps the same entities in maps behind one lock, so each of its methods
is one step; only the numbers of a new network are drawn before the lock is taken. An invite counts
its uses in 32 bits.
-/

namespace Fluxpeer.Control

open Lib Net HashMap

/-! ## Addresses -/

structure Ipam where
  v4Net : Block 4
  v6Prefix : List Nat
  byKey : HashMap String UInt8
  used : UInt8 → Bool

/-- A predicate that holds of more elements of the list is counted more often. -/
lemma countP_lt {α : Type*} {p q : α → Bool} {l : List α} {x : α} (himp : ∀ y, p y = true → q y = true)
    (hmem : x ∈ l) (hp : p x = false) (hq : q x = true) : l.countP p < l.countP q := by
  obtain ⟨front, back, rfl⟩ := List.append_of_mem hmem
  have hmono : ∀ l : List α, l.countP p ≤ l.countP q :=
    fun l => List.countP_mono_left fun y _ => himp y
  have hfront := hmono front
  have hback := hmono back
  simp only [List.countP_append, List.countP_cons, hp, hq, Bool.false_eq_true, if_true, if_false]
  omega

namespace Ipam

def new (v4Net : Block 4) (v6Prefix : List Nat) : Ipam := ⟨v4Net, v6Prefix, ∅, fun _ => false⟩

def addresses (a : Ipam) (host : UInt8) : IpAddr × IpAddr := (v4At a.v4Net host, v6At a.v6Prefix host)

def claim (a : Ipam) (pubkey : String) (host : UInt8) : Ipam :=
  { a with used := Function.update a.used host true, byKey := a.byKey.insert pubkey host }

/-- The address of a key that has one, or the lowest free one; `none` is `PoolExhausted`. -/
def allocate (a : Ipam) (pubkey : String) : Option (Ipam × IpAddr × IpAddr) :=
  match a.byKey.lookup pubkey with
  | some host => some (a, a.addresses host)
  | none => (deviceHosts.find? fun h => !a.used h).map fun host =>
    (a.claim pubkey host, a.addresses host)

/-- Claim a host; the allocator stays as it is if the host is taken. -/
def reserve (a : Ipam) (pubkey : String) (host : UInt8) : Ipam :=
  if a.byKey.lookup pubkey = some host then a
  else if a.used host then a
  else a.claim pubkey host

def recycle (a : Ipam) (pubkey : String) : Ipam :=
  match a.byKey.lookup pubkey with
  | some host => { a with byKey := a.byKey.erase pubkey, used := Function.update a.used host false }
  | none => a

def inUse (a : Ipam) : Nat := deviceHosts.countP a.used

/-- What giving a host to a key does to the allocator. -/
def Grows (a : Ipam) (key : String) (a' : Ipam) : Prop :=
  a.inUse ≤ a'.inUse ∧ ∀ k, a'.byKey.contains k = true → a.byKey.contains k = true ∨ k = key

lemma Grows.refl (a : Ipam) (key : String) : a.Grows key a := ⟨le_rfl, fun _ => .inl⟩

lemma used_claim (a : Ipam) (key : String) (host h : UInt8) :
    (a.claim key host).used h = if h = host then true else a.used h :=
  Function.update_apply ..

lemma used_claim_of_used {a : Ipam} {h : UInt8} (key : String) (host : UInt8)
    (hused : a.used h = true) : (a.claim key host).used h = true := by
  rw [used_claim, hused, ite_self]

lemma claim_grows (a : Ipam) (key : String) (host : UInt8) : a.Grows key (a.claim key host) := by
  constructor
  · exact List.countP_mono_left fun h _ => used_claim_of_used key host
  · intro k hk
    rw [claim, contains, lookup_insert] at hk
    split at hk
    · next heq => exact .inr heq
    · exact .inl hk

lemma reserve_grows (a : Ipam) (key : String) (host : UInt8) : a.Grows key (a.reserve key host) := by
  unfold reserve
  split
  · exact .refl a key
  · split
    · exact .refl a key
    · exact claim_grows a key host

lemma inUse_claim {a : Ipam} {host : UInt8} (key : String) (hmem : host ∈ deviceHosts)
    (hfree : a.used host = false) : a.inUse < (a.claim key host).inUse :=
  countP_lt (fun _ => used_claim_of_used key host) hmem hfree (by simp [used_claim])

/-- A new key takes a host that was free. -/
lemma allocate_new {a a' : Ipam} {key : String} {v4 v6 : IpAddr} (hkey : a.byKey.lookup key = none)
    (h : a.allocate key = some (a', v4, v6)) : a.Grows key a' ∧ a.inUse < a'.inUse := by
  simp only [allocate, hkey, Option.map_eq_some_iff, Prod.mk.injEq] at h
  obtain ⟨host, hfind, rfl, -⟩ := h
  have hfree : a.used host = false := by simpa using List.find?_some hfind
  exact ⟨claim_grows a key host, inUse_claim key (List.mem_of_find?_eq_some hfind) hfree⟩

lemma inUse_le (a : Ipam) : a.inUse ≤ deviceHosts.length := List.countP_le_length

end Ipam

/-! ## The store -/

inductive StoreError
  | networkNotFound
  | deviceNotFound
  | invalidKey
  | invalidInvite
  | poolExhausted
deriving DecidableEq

structure Memory where
  networks : HashMap String Network
  devices : HashMap String Device
  invites : HashMap String Invite
  ipams : HashMap String Ipam
  seq : Nat
  netIndex : Nat
  /-- Networks that have their numbers and wait for the lock. -/
  pending : List (Network × Ipam)

/-- `Invite::is_redeemable` -/
def Invite.isRedeemable (i : Invite) (now : Int) : Bool :=
  (∀ expiry ∈ i.expiresAt, now < expiry) ∧ ∀ m ∈ i.maxUses, i.uses < m

namespace Memory

def new : Memory := ⟨∅, ∅, ∅, ∅, 1, 0, []⟩

def bumpEpoch (s : Memory) (networkId : String) : Memory :=
  match s.networks.lookup networkId with
  | some net =>
    { s with networks := s.networks.insert networkId { net with configEpoch := net.configEpoch + 1 } }
  | none => s

/-- The part of `create_network` before the lock. -/
def drawNetwork (s : Memory) (name : String) (globalId : Nat) : Memory :=
  let octet := UInt8.ofNat (s.netIndex % 200) + 16
  let ula := [0xfd00 + globalId / 2 ^ 32 % 256, globalId / 2 ^ 16 % 65536, globalId % 65536]
  let net : Network :=
    { id := "net-" ++ Nat.repr s.seq, name, ipv4Pool := "100.72." ++ Nat.repr octet.toNat ++ ".0/24",
      ipv6Ula := ":".intercalate (ula.map hex4) ++ "::/48", configEpoch := 0 }
  { s with
    seq := s.seq + 1
    netIndex := s.netIndex + 1
    pending := (net, .new ⟨[100, 72, octet, 0], rfl⟩ ula) :: s.pending }

/-- The part of `create_network` under the lock. -/
def insertNetwork (s : Memory) (net : Network) (ipam : Ipam) : Memory :=
  { s with ipams := s.ipams.insert net.id ipam, networks := s.networks.insert net.id net }

def createInvite (s : Memory) (networkId : String) (expiresAt : Option Int)
    (maxUses : Option UInt32) (code : String) : Except StoreError (Memory × Invite) :=
  if s.networks.contains networkId then
    let invite : Invite := ⟨code, networkId, expiresAt, maxUses.map UInt32.toNat, 0⟩
    .ok ({ s with invites := s.invites.insert code invite }, invite)
  else .error .networkNotFound

/-- The devices of the store, in some order. -/
def deviceList (s : Memory) : List Device := s.devices.entries.map (·.2)

/-- `inv.uses += 1` -/
def useInvite (s : Memory) (code : String) : Memory :=
  match s.invites.lookup code with
  | some invite =>
    { s with invites := s.invites.insert code { invite with uses := (invite.uses + 1) % 2 ^ 32 } }
  | none => s

variable (text : AddrText)

def enroll (s : Memory) (code name wgPublicKey : String) (now : Int) :
    Except StoreError (Memory × Device) :=
  match PublicKey.normalize wgPublicKey with
  | none => .error .invalidKey
  | some key =>
    match s.invites.lookup code with
    | none => .error .invalidInvite
    | some invite =>
      if invite.expiresAt.any (· ≤ now) then .error .invalidInvite
      else
        match s.deviceList.find? fun d =>
            d.networkId = invite.networkId ∧ d.status = .active ∧ d.wgPublicKey = key with
        | some device => .ok (s, device)
        | none =>
          if ¬ invite.isRedeemable now then .error .invalidInvite
          else
            match s.ipams.lookup invite.networkId with
            | none => .error .networkNotFound
            | some ipam =>
              match ipam.allocate key with
              | none => .error .poolExhausted
              | some (ipam, v4, v6) =>
                let device : Device :=
                  { id := "dev-" ++ Nat.repr s.seq, networkId := invite.networkId, name,
                    wgPublicKey := key, addressV4 := some (text.display v4),
                    addressV6 := some (text.display v6), status := .active }
                let s := { s with ipams := s.ipams.insert invite.networkId ipam, seq := s.seq + 1 }
                let s := s.useInvite code
                let s := { s with devices := s.devices.insert device.id device }
                .ok (s.bumpEpoch invite.networkId, device)

/-- The loop of `import_devices`. -/
def importEach (networkId : String) :
    Memory → List String → List (ImportDevice × String) → Memory × List Device × List String
  | s, _, [] => (s, [], [])
  | s, seen, (d, key) :: rest =>
    if key ∈ seen then
      let (s, created, skipped) := importEach networkId s seen rest
      (s, created, key :: skipped)
    else
      let host := (d.addressV4.bind (parseV4 text)).map lastOctet
      let ipams := match host, s.ipams.lookup networkId with
        | some host, some ipam => s.ipams.insert networkId (ipam.reserve key host)
        | _, _ => s.ipams
      let device : Device :=
        { id := "dev-" ++ Nat.repr s.seq, networkId, name := d.name, wgPublicKey := key,
          addressV4 := d.addressV4, addressV6 := d.addressV6, status := .active }
      let s := { s with ipams, seq := s.seq + 1, devices := s.devices.insert device.id device }
      let (s, created, skipped) := importEach networkId s (key :: seen) rest
      (s, device :: created, skipped)

def importDevices (s : Memory) (networkId : String) (devices : List ImportDevice) :
    Except StoreError (Memory × List Device × List String) :=
  match devices.mapM fun d => PublicKey.normalize d.wgPublicKey with
  | none => .error .invalidKey
  | some keys =>
    if s.networks.contains networkId then
      let seen := (s.deviceList.filter fun d => d.networkId = networkId ∧ d.status = .active).map
        (·.wgPublicKey)
      let (s, created, skipped) := importEach text networkId s seen (devices.zip keys)
      .ok (if created.isEmpty then s else s.bumpEpoch networkId, created, skipped)
    else .error .networkNotFound

def revokeDevice (s : Memory) (deviceId : String) : Except StoreError Memory :=
  match s.devices.lookup deviceId with
  | none => .error .deviceNotFound
  | some device =>
    let ipams := match s.ipams.lookup device.networkId with
      | some ipam => s.ipams.insert device.networkId (ipam.recycle device.wgPublicKey)
      | none => s.ipams
    let s := { s with
      ipams, devices := s.devices.insert deviceId { device with status := .revoked } }
    .ok (s.bumpEpoch device.networkId)

inductive Op
  | drawNetwork (name : String) (globalId : Nat)
  | insertNetwork (k : Nat)
  | createInvite (networkId : String) (expiresAt : Option Int) (maxUses : Option UInt32)
      (code : String)
  | enroll (code name wgPublicKey : String) (now : Int)
  | importDevices (networkId : String) (devices : List ImportDevice)
  | revokeDevice (deviceId : String)
  | nextSeq
  | bumpEpoch (networkId : String)

/-- One method, or one part of `create_network`. A method that fails changes nothing. Routes,
relays and endpoints are not kept here: of their methods only the number they draw and the epoch
they bump remain. -/
def step (s : Memory) : Op → Memory
  | .drawNetwork name globalId => s.drawNetwork name globalId
  | .insertNetwork k =>
    match s.pending[k]? with
    | some (net, ipam) => { s.insertNetwork net ipam with pending := s.pending.eraseIdx k }
    | none => s
  | .createInvite networkId expiresAt maxUses code =>
    match s.createInvite networkId expiresAt maxUses code with
    | .ok (s, _) => s
    | .error _ => s
  | .enroll code name wgPublicKey now =>
    match s.enroll text code name wgPublicKey now with
    | .ok (s, _) => s
    | .error _ => s
  | .importDevices networkId devices =>
    match s.importDevices text networkId devices with
    | .ok (s, _) => s
    | .error _ => s
  | .revokeDevice deviceId =>
    match s.revokeDevice deviceId with
    | .ok s => s
    | .error _ => s
  | .nextSeq => { s with seq := s.seq + 1 }
  | .bumpEpoch networkId => s.bumpEpoch networkId

variable {text} {s s' : Memory} {r : List Device × List String} {devices : List ImportDevice}
  {n : String} {Inv : Memory → Prop} {device : Device}

@[simp] lemma devices_bumpEpoch (s : Memory) (n : String) : (s.bumpEpoch n).devices = s.devices := by
  unfold bumpEpoch
  split <;> rfl

@[simp] lemma invites_bumpEpoch (s : Memory) (n : String) : (s.bumpEpoch n).invites = s.invites := by
  unfold bumpEpoch
  split <;> rfl

@[simp] lemma ipams_bumpEpoch (s : Memory) (n : String) : (s.bumpEpoch n).ipams = s.ipams := by
  unfold bumpEpoch
  split <;> rfl

@[simp] lemma seq_bumpEpoch (s : Memory) (n : String) : (s.bumpEpoch n).seq = s.seq := by
  unfold bumpEpoch
  split <;> rfl

@[simp] lemma pending_bumpEpoch (s : Memory) (n : String) : (s.bumpEpoch n).pending = s.pending := by
  unfold bumpEpoch
  split <;> rfl

lemma bumpEpoch_contains (s : Memory) (n m : String) :
    (s.bumpEpoch n).networks.contains m = s.networks.contains m := by
  unfold bumpEpoch
  split
  · next net hnet =>
    rw [contains, lookup_insert, contains]
    split
    · next heq =>
      subst heq
      rw [hnet]
      rfl
    · rfl
  · rfl

lemma mem_deviceList {d : Device} : d ∈ s.deviceList ↔ ∃ id, s.devices.lookup id = some d :=
  mem_entries

def HasKey (s : Memory) (n key : String) : Prop :=
  ∃ id d, s.devices.lookup id = some d ∧ d.networkId = n ∧ d.status = .active ∧ d.wgPublicKey = key

/-- The store after a device was created through an invite. -/
structure Enrolled (s : Memory) (code key : String) (invite : Invite) (s' : Memory)
    (device : Device) : Prop where
  fresh : ¬ s.HasKey invite.networkId key
  allocated : ∃ ipam ipam' v4 v6, s.ipams.lookup invite.networkId = some ipam ∧
    ipam.allocate key = some (ipam', v4, v6) ∧ s'.ipams = s.ipams.insert invite.networkId ipam'
  created : device.id = "dev-" ++ Nat.repr s.seq ∧ device.networkId = invite.networkId ∧
    device.wgPublicKey = key ∧ device.status = .active
  devices : s'.devices = s.devices.insert device.id device
  invites : s'.invites = s.invites.insert code { invite with uses := (invite.uses + 1) % 2 ^ 32 }
  seq : s'.seq = s.seq + 1
  pending : s'.pending = s.pending
  networks : ∀ m, s'.networks.contains m = s.networks.contains m

variable (text) in
/-- A device has the addresses that the allocator of its network gave to its key. -/
def Allocates (s : Memory) (d : Device) (s' : Memory) : Prop :=
  ∃ ipam ipam' v4 v6, s.ipams.lookup d.networkId = some ipam ∧
    ipam.allocate d.wgPublicKey = some (ipam', v4, v6) ∧
    s'.ipams = s.ipams.insert d.networkId ipam' ∧
    d.addressV4 = some (text.display v4) ∧ d.addressV6 = some (text.display v6)

/-- An enrolment that succeeds finds the device of the key or creates one. -/
lemma enroll_eq_ok {code name wgPublicKey : String} {now : Int}
    (h : s.enroll text code name wgPublicKey now = .ok (s', device)) :
    ∃ key invite, PublicKey.normalize wgPublicKey = some key ∧ s.invites.lookup code = some invite ∧
      invite.expiresAt.any (· ≤ now) = false ∧
      (s' = s ∨ invite.isRedeemable now = true ∧ Enrolled s code key invite s' device ∧
        s.Allocates text device s') := by
  unfold enroll at h
  split at h
  · cases h
  next key hkey =>
  split at h
  · cases h
  next invite hinvite =>
  split at h
  · cases h
  next hexpiry =>
  refine ⟨key, invite, hkey, hinvite, by simpa using hexpiry, ?_⟩
  split at h
  · cases h
    exact .inl rfl
  next hfind =>
  split at h
  · cases h
  next hredeemable =>
  split at h
  · cases h
  next ipam hipam =>
  split at h
  · cases h
  next ipam' v4 v6 hallocate =>
  cases h
  have hfresh : ¬ s.HasKey invite.networkId key := by
    rintro ⟨id, d, hd, hnetwork, hactive, hsame⟩
    have hnone := List.find?_eq_none.mp hfind d (mem_deviceList.mpr ⟨id, hd⟩)
    simp [hnetwork, hactive, hsame] at hnone
  refine .inr ⟨by simpa using hredeemable, ⟨hfresh,
    ⟨ipam, ipam', v4, v6, hipam, hallocate, ?_⟩, ⟨rfl, rfl, rfl, rfl⟩, ?_, ?_, ?_, ?_, ?_⟩,
    ipam, ipam', v4, v6, hipam, hallocate, ?_, rfl, rfl⟩
  · simp [useInvite, hinvite]
  · simp [useInvite, hinvite]
  · simp [useInvite, hinvite]
  · simp [useInvite, hinvite]
  · simp [useInvite, hinvite]
  · intro m
    rw [bumpEpoch_contains]
    simp [useInvite, hinvite]
  · simp [useInvite, hinvite]

lemma revokeDevice_eq_ok {id : String} (h : s.revokeDevice id = .ok s') :
    (∃ d, s.devices.lookup id = some d ∧
      s'.devices = s.devices.insert id { d with status := .revoked }) ∧
    s'.invites = s.invites ∧ s'.seq = s.seq := by
  unfold revokeDevice at h
  split at h
  · cases h
  · next d hd =>
    cases h
    exact ⟨⟨d, hd, devices_bumpEpoch _ _⟩, invites_bumpEpoch _ _, seq_bumpEpoch _ _⟩

/-! ## Keys -/

/-- Devices stand under their own ids, which the counter gave out, and an active key of a network
belongs to one of them. -/
structure Sound (s : Memory) : Prop where
  ids : ∀ id d, s.devices.lookup id = some d → id = d.id ∧ ∃ k < s.seq, id = "dev-" ++ Nat.repr k
  apart : ∀ id d id' d', s.devices.lookup id = some d → s.devices.lookup id' = some d' →
    d.status = .active → d'.status = .active → d.networkId = d'.networkId →
    d.wgPublicKey = d'.wgPublicKey → id = id'

lemma Sound.unissued (hs : s.Sound) : s.devices.lookup ("dev-" ++ Nat.repr s.seq) = none := by
  rw [Option.eq_none_iff_forall_ne_some]
  intro d hd
  obtain ⟨k, hk, heq⟩ := (hs.ids _ d hd).2
  have hseq := eq_of_repr_eq ((String.append_right_inj "dev-").mp heq)
  omega

/-- A device under the next number, with a key that no active device of its network has. -/
structure Adds (s : Memory) (d : Device) (s' : Memory) : Prop where
  fresh : ¬ s.HasKey d.networkId d.wgPublicKey
  id : d.id = "dev-" ++ Nat.repr s.seq
  devices : s'.devices = s.devices.insert d.id d
  seq : s'.seq = s.seq + 1

lemma Sound.adds {d : Device} (hs : s.Sound) (h : s.Adds d s') : s'.Sound := by
  have hlookup : ∀ id, s'.devices.lookup id = if id = d.id then some d else s.devices.lookup id := by
    intro id
    rw [h.devices, lookup_insert]
  constructor
  · intro id d' hd'
    rw [hlookup] at hd'
    rw [h.seq]
    split at hd'
    · next hid =>
      cases hd'
      exact ⟨hid, s.seq, by omega, hid.trans h.id⟩
    · obtain ⟨hid, k, hk, heq⟩ := hs.ids id d' hd'
      exact ⟨hid, k, by omega, heq⟩
  · intro id₁ d₁ id₂ d₂ h₁ h₂ hactive₁ hactive₂ hnetwork hkey
    rw [hlookup] at h₁ h₂
    split at h₁ <;> split at h₂
    · next hid₁ hid₂ => rw [hid₁, hid₂]
    · cases h₁
      exact absurd ⟨id₂, d₂, h₂, hnetwork.symm, hactive₂, hkey.symm⟩ h.fresh
    · cases h₂
      exact absurd ⟨id₁, d₁, h₁, hnetwork, hactive₁, hkey⟩ h.fresh
    · exact hs.apart _ _ _ _ h₁ h₂ hactive₁ hactive₂ hnetwork hkey

lemma Sound.of_devices (hs : s.Sound) (hdevices : s'.devices = s.devices)
    (hseq : s.seq ≤ s'.seq) : s'.Sound := by
  constructor
  · intro id d hd
    obtain ⟨hid, k, hk, heq⟩ := hs.ids id d (hdevices ▸ hd)
    exact ⟨hid, k, by omega, heq⟩
  · rw [hdevices]
    exact hs.apart

lemma Enrolled.adds {code key : String} {invite : Invite}
    (h : Enrolled s code key invite s' device) : s.Adds device s' := by
  obtain ⟨hid, hnetwork, hkey, -⟩ := h.created
  refine ⟨?_, hid, h.devices, h.seq⟩
  rw [hnetwork, hkey]
  exact h.fresh

def imported (s : Memory) (networkId : String) (d : ImportDevice) (key : String) : Device :=
  { id := "dev-" ++ Nat.repr s.seq, networkId, name := d.name, wgPublicKey := key,
    addressV4 := d.addressV4, addressV6 := d.addressV6, status := .active }

/-- One turn of the loop of `import_devices`. -/
structure ImportStep (networkId key : String) (s s' : Memory) : Prop where
  adds : ∃ d : ImportDevice, s.Adds (s.imported networkId d key) s'
  invites : s'.invites = s.invites
  networks : s'.networks = s.networks
  pending : s'.pending = s.pending
  ipams : s'.ipams = s.ipams ∨ ∃ ipam host, s.ipams.lookup networkId = some ipam ∧
    s'.ipams = s.ipams.insert networkId (ipam.reserve key host)

variable (text) in
/-- What each turn of the loop keeps, the loop keeps. -/
lemma importEach_inv (keep : ∀ s key s', Inv s → ImportStep n key s s' → Inv s')
    {seen : List String} (items : List (ImportDevice × String)) (hs : Inv s)
    (hseen : ∀ key, s.HasKey n key → key ∈ seen) : Inv (importEach text n s seen items).1 := by
  induction items generalizing s seen with
  | nil => exact hs
  | cons item rest ih =>
    obtain ⟨d, key⟩ := item
    unfold importEach
    split
    · exact ih hs hseen
    next hkey =>
    -- the state of the next turn
    set ipams := (match (d.addressV4.bind (parseV4 text)).map lastOctet, s.ipams.lookup n with
      | some host, some ipam => s.ipams.insert n (ipam.reserve key host)
      | _, _ => s.ipams) with hipams
    have hstep : ImportStep n key s { s with
        ipams, seq := s.seq + 1
        devices := s.devices.insert (s.imported n d key).id (s.imported n d key) } := by
      refine ⟨⟨d, fun hhas => hkey (hseen key hhas), rfl, rfl, rfl⟩, rfl, rfl, rfl, ?_⟩
      rw [hipams]
      split
      · next host ipam _ hipam => exact .inr ⟨ipam, host, hipam, rfl⟩
      · exact .inl rfl
    refine ih (keep s key _ hs hstep) ?_
    rintro key' ⟨id, d', hd', hnetwork, hactive, hsame⟩
    rw [lookup_insert] at hd'
    split at hd'
    · cases hd'
      exact List.mem_cons.mpr (.inl hsame.symm)
    · exact List.mem_cons_of_mem _ (hseen key' ⟨id, d', hd', hnetwork, hactive, hsame⟩)

/-- What each turn of the loop and an epoch bump keep, `import_devices` keeps. -/
lemma importDevices_inv (keep : ∀ s key s', Inv s → ImportStep n key s s' → Inv s')
    (bump : ∀ s, Inv s → Inv (s.bumpEpoch n)) (hs : Inv s)
    (h : s.importDevices text n devices = .ok (s', r)) : Inv s' := by
  unfold importDevices at h
  split at h
  · cases h
  next keys hkeys =>
  split at h
  · have hseen : ∀ key, s.HasKey n key →
        key ∈ (s.deviceList.filter fun d => d.networkId = n ∧ d.status = .active).map
          (·.wgPublicKey) := by
      rintro key ⟨id, d, hd, hnetwork, hactive, hkey⟩
      refine List.mem_map.mpr ⟨d, List.mem_filter.mpr ⟨mem_deviceList.mpr ⟨id, hd⟩, ?_⟩, hkey⟩
      simp [hnetwork, hactive]
    have hloop := importEach_inv text keep (devices.zip keys) hs hseen
    cases h
    split
    · exact hloop
    · exact bump _ hloop
  · cases h

/-- What a step does to the devices and invites of the store. -/
inductive Change (s : Memory) : Op → Memory → Prop
  /-- No new device, and no invite is used. -/
  | other {op : Op} {s' : Memory} (invites : s'.invites = s.invites)
    (noEnroll : ∀ code name key now, op = .enroll code name key now → s' = s)
    (noInvite : ∀ n expiry limit code, op = .createInvite n expiry limit code →
      s.networks.contains n = false) : Change s op s'
  | invited {n : String} {expiry : Option Int} {limit : Option UInt32} {code : String}
    (known : s.networks.contains n = true) :
    Change s (.createInvite n expiry limit code)
      { s with invites := s.invites.insert code ⟨code, n, expiry, limit.map UInt32.toNat, 0⟩ }
  | enrolled {code name wgPublicKey key : String} {now : Int} {invite : Invite} {device : Device}
    {s' : Memory} (found : s.invites.lookup code = some invite)
    (redeemable : invite.isRedeemable now = true) (h : Enrolled s code key invite s' device) :
    Change s (.enroll code name wgPublicKey now) s'

lemma importDevices_invites (h : s.importDevices text n devices = .ok (s', r)) :
    s'.invites = s.invites := by
  have hkeep : ∀ s₁ key s₂, s₁.invites = s.invites → ImportStep n key s₁ s₂ →
      s₂.invites = s.invites := fun _ _ _ h₁ hstep => hstep.invites.trans h₁
  exact importDevices_inv hkeep (fun s₁ h₁ => (invites_bumpEpoch s₁ n).trans h₁) rfl h

variable (text) in
/-- What a step amounts to. -/
inductive Steps (s : Memory) : Op → Memory → Prop
  /-- The method fails, or it finds what it would create. -/
  | same {op : Op} (noInvite : ∀ n expiry limit code, op = .createInvite n expiry limit code →
      s.networks.contains n = false) : Steps s op s
  | drawn (name : String) (globalId : Nat) :
    Steps s (.drawNetwork name globalId) (s.drawNetwork name globalId)
  | inserted {k : Nat} {net : Network} {ipam : Ipam} (waits : s.pending[k]? = some (net, ipam)) :
    Steps s (.insertNetwork k) { s.insertNetwork net ipam with pending := s.pending.eraseIdx k }
  | invited {n : String} {expiry : Option Int} {limit : Option UInt32} {code : String}
    (known : s.networks.contains n = true) :
    Steps s (.createInvite n expiry limit code)
      { s with invites := s.invites.insert code ⟨code, n, expiry, limit.map UInt32.toNat, 0⟩ }
  | enrolled {code name wgPublicKey key : String} {now : Int} {invite : Invite} {device : Device}
    {s' : Memory} (found : s.invites.lookup code = some invite)
    (redeemable : invite.isRedeemable now = true) (h : Enrolled s code key invite s' device)
    (allocates : s.Allocates text device s') : Steps s (.enroll code name wgPublicKey now) s'
  | imported {n : String} {devices : List ImportDevice} {r : List Device × List String}
    {s' : Memory} (h : s.importDevices text n devices = .ok (s', r)) :
    Steps s (.importDevices n devices) s'
  | revoked {id : String} {s' : Memory} (h : s.revokeDevice id = .ok s') :
    Steps s (.revokeDevice id) s'
  | counted : Steps s .nextSeq { s with seq := s.seq + 1 }
  | bumped (n : String) : Steps s (.bumpEpoch n) (s.bumpEpoch n)

variable (text s) in
lemma step_steps (op : Op) : s.Steps text op (s.step text op) := by
  cases op with
  | drawNetwork name globalId => exact .drawn name globalId
  | insertNetwork k =>
    simp only [step]
    split
    · next hk => exact .inserted hk
    · exact .same nofun
  | createInvite n expiry limit code =>
    simp only [step, createInvite]
    cases hknown : s.networks.contains n with
    | true => exact .invited hknown
    | false =>
      refine .same ?_
      rintro _ _ _ _ ⟨⟩
      exact hknown
  | enroll code name wgPublicKey now =>
    simp only [step]
    cases henroll : s.enroll text code name wgPublicKey now with
    | error e => exact .same nofun
    | ok r =>
      obtain ⟨key, invite, -, hfound, -, hsame | ⟨hredeemable, hnew, hallocates⟩⟩ :=
        enroll_eq_ok henroll
      · simp only [hsame]
        exact .same nofun
      · exact .enrolled hfound hredeemable hnew hallocates
  | importDevices n devices =>
    simp only [step]
    cases himport : s.importDevices text n devices with
    | error e => exact .same nofun
    | ok r => exact .imported himport
  | revokeDevice id =>
    simp only [step]
    cases hrevoke : s.revokeDevice id with
    | error e => exact .same nofun
    | ok s' => exact .revoked hrevoke
  | nextSeq => exact .counted
  | bumpEpoch n => exact .bumped n

lemma Steps.change {op : Op} (h : s.Steps text op s') : s.Change op s' := by
  cases h with
  | same noInvite => exact .other rfl (fun _ _ _ _ _ => rfl) noInvite
  | invited known => exact .invited known
  | enrolled found redeemable h => exact .enrolled found redeemable h
  | imported h => exact .other (importDevices_invites h) nofun nofun
  | revoked h => exact .other (revokeDevice_eq_ok h).2.1 nofun nofun
  | bumped n => exact .other (invites_bumpEpoch s n) nofun nofun
  | _ => exact .other rfl nofun nofun

lemma Sound.bump (hs : s.Sound) (n : String) : (s.bumpEpoch n).Sound :=
  hs.of_devices (devices_bumpEpoch s n) (seq_bumpEpoch s n).ge

lemma Sound.steps {op : Op} (hs : s.Sound) (h : s.Steps text op s') : s'.Sound := by
  cases h with
  | same => exact hs
  | drawn | counted => exact hs.of_devices rfl (Nat.le_succ _)
  | inserted | invited => exact hs.of_devices rfl le_rfl
  | enrolled _ _ h => exact hs.adds h.adds
  | @imported n _ _ _ h =>
    have hkeep : ∀ s key s', Sound s → ImportStep n key s s' → Sound s' := by
      rintro s key s' hs ⟨⟨d, hadds⟩, -⟩
      exact hs.adds hadds
    exact importDevices_inv hkeep (fun _ hs => hs.bump n) hs h
  | revoked h =>
    obtain ⟨⟨d, hlookup, hdevices⟩, -, hseq⟩ := revokeDevice_eq_ok h
    -- a revoked device drops out of the comparison
    constructor
    · intro id' d' hd'
      rw [hdevices, lookup_insert] at hd'
      rw [hseq]
      split at hd'
      · next heq =>
        cases hd'
        exact heq ▸ hs.ids _ d hlookup
      · exact hs.ids id' d' hd'
    · intro id₁ d₁ id₂ d₂ h₁ h₂ hactive₁ hactive₂ hnetwork hkey
      rw [hdevices, lookup_insert] at h₁ h₂
      split at h₁
      · cases h₁
        cases hactive₁
      split at h₂
      · cases h₂
        cases hactive₂
      · exact hs.apart _ _ _ _ h₁ h₂ hactive₁ hactive₂ hnetwork hkey
  | bumped n => exact hs.bump n

end Memory

end Fluxpeer.Control
