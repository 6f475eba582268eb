import Fluxpeer.Control.Soundness
import Mathlib.Order.Bounds.Defs

/-!
# Enrolment

The active devices of a network have different keys and different addresses, because both are
stored in one form and the indexes of the table compare that form. The address of a new device is
that of the lowest host that no active device has, so an enrolment never runs into the indexes.
-/

namespace Fluxpeer.Control

open Lib Net PublicKey DeviceRow Table AddrText

/-! ## Pools -/

/-- IPv4 addresses are written as decimal octets between dots. -/
def Dotted (text : AddrText) : Prop :=
  ∀ octets : Block 4, text.display (.v4 octets) = AddrText.displayOctets '.' octets.toList

lemma dotted_plain : Dotted .plain := fun _ => rfl

def poolBase (idx : Nat) : Block 4 := ⟨[100, 72, UInt8.ofNat (idx % 200 + 16), 0], rfl⟩

lemma before_ipv4Pool (idx : Nat) :
    String.ofList (before '/' (ipv4Pool idx).toList) =
      displayOctets '.' (poolBase idx).toList := by
  have hoctet : (UInt8.ofNat (idx % 200 + 16)).toNat = idx % 200 + 16 := by
    rw [UInt8.toNat_ofNat', Nat.mod_eq_of_lt (by omega)]
  have hslash : ∀ c ∈ digits (UInt8.ofNat (idx % 200 + 16)), decide (c ≠ '/') = true := by
    intro c hc
    refine decide_eq_true ?_
    rintro rfl
    exact absurd (isDigit_of_mem_digits hc) (by decide)
  have hpool : (ipv4Pool idx).toList = "100.72.".toList ++
      (digits (UInt8.ofNat (idx % 200 + 16)) ++ ".0/24".toList) := by
    rw [digits, hoctet]
    simp [ipv4Pool]
  have hfirst : ∀ c ∈ "100.72.".toList, decide (c ≠ '/') = true := by simp
  rw [hpool, before, List.takeWhile_append_of_pos hfirst, List.takeWhile_append_of_pos hslash]
  have hlast : List.takeWhile (fun c => decide (c ≠ '/')) ".0/24".toList = ".0".toList := by decide
  have hdigits : digits 100 = "100".toList ∧ digits 72 = "72".toList ∧
      digits 0 = "0".toList := by decide
  rw [hlast, displayOctets]
  simp [poolBase, List.intercalate_cons_cons, hdigits]

lemma parseV4_display {text : AddrText} (octets : Block 4) :
    parseV4 text (text.display (.v4 octets)) = some octets := by
  rw [parseV4, text.parse_display]

lemma parseV4Base_ipv4Pool {text : AddrText} (hdotted : Dotted text) (idx : Nat) :
    parseV4Base text (ipv4Pool idx) = .ok (poolBase idx) := by
  rw [parseV4Base, before_ipv4Pool, ← hdotted, parseV4_display]

lemma hexDigit_ne {n : Nat} (h : n < 16) :
    hexDigit n ≠ '+' ∧ hexDigit n ≠ ':' ∧ hexDigit n ≠ '/' := by
  have hall : ∀ n : Fin 16, hexDigit n ≠ '+' ∧ hexDigit n ≠ ':' ∧
      hexDigit n ≠ '/' := by decide
  exact hall ⟨n, h⟩

lemma parseHexU16_digits {a b c d : Nat} (ha : a < 16) (hb : b < 16) (hc : c < 16) (hd : d < 16) :
    parseHexU16 ([a, b, c, d].map hexDigit) = some (((16 * a + b) * 16 + c) * 16 + d) := by
  have hplus : stripPlus ([a, b, c, d].map hexDigit) =
      [a, b, c, d].map hexDigit := by
    unfold stripPlus
    split
    · next heq => exact absurd (List.cons.inj heq).1 (hexDigit_ne ha).1
    · rfl
  have hdigits : ([a, b, c, d].map hexDigit).mapM hexValue = some [a, b, c, d] := by
    simp [hexValue_hexDigit, ha, hb, hc, hd]
  have hlt : 16 * (16 * (16 * a + b) + c) + d < 65536 := by omega
  rw [parseHexU16, hplus, if_neg (by simp), hdigits]
  simp only [Option.map_some, List.foldl_cons, List.foldl_nil, Nat.mul_zero, Nat.zero_add]
  rw [Option.filter_some, if_pos (by simpa using hlt)]
  congr 1
  omega

/-- The three groups of the ULA of an index. -/
lemma parseV6Prefix_ipv6Ula (idx : Nat) :
    parseV6Prefix (ipv6Ula idx) = .ok [0xfd72, 0x15ab, idx % 65536] := by
  obtain ⟨n, hn⟩ : ∃ n, n = idx % 65536 := ⟨_, rfl⟩
  have hlt : n < 65536 := hn ▸ Nat.mod_lt _ (by decide)
  have h₃ := hexDigit_ne (n := n / 4096 % 16) (by omega)
  have h₂ := hexDigit_ne (n := n / 256 % 16) (by omega)
  have h₁ := hexDigit_ne (n := n / 16 % 16) (by omega)
  have h₀ := hexDigit_ne (n := n % 16) (by omega)
  have hparse := parseHexU16_digits (a := n / 4096 % 16) (b := n / 256 % 16) (c := n / 16 % 16)
    (d := n % 16) (by omega) (by omega) (by omega) (by omega)
  have hvalue : ((16 * (n / 4096 % 16) + n / 256 % 16) * 16 + n / 16 % 16) * 16 + n % 16 = n := by
    omega
  rw [hvalue] at hparse
  have hlist : (ipv6Ula idx).toList = "fd72:15ab:".toList ++
      ([n / 4096 % 16, n / 256 % 16, n / 16 % 16, n % 16].map hexDigit ++ "::/48".toList) := by
    simp [ipv6Ula, hex4, ← hn]
  have hhead : before '/' (beforeColons (ipv6Ula idx).toList) = List.intercalate [':']
      ["fd72".toList, "15ab".toList,
        [n / 4096 % 16, n / 256 % 16, n / 16 % 16, n % 16].map hexDigit] := by
    rw [hlist]
    simp [beforeColons, before, List.intercalate_cons_cons, h₃, h₂, h₁, h₀]
  have hsplit : (before '/' (beforeColons (ipv6Ula idx).toList)).splitOn ':' =
      ["fd72".toList, "15ab".toList,
        [n / 4096 % 16, n / 256 % 16, n / 16 % 16, n % 16].map hexDigit] := by
    rw [hhead]
    apply List.splitOn_intercalate
    · simp [h₃.2.1.symm, h₂.2.1.symm, h₁.2.1.symm, h₀.2.1.symm]
    · simp
  have hgroups : parseHexU16 "fd72".toList = some 0xfd72 ∧ parseHexU16 "15ab".toList = some 0x15ab := by
    decide
  have hparts : ∀ part ∈ ["fd72".toList, "15ab".toList,
      [n / 4096 % 16, n / 256 % 16, n / 16 % 16, n % 16].map hexDigit], part ≠ [] := by
    simp
  have hfilter := List.filter_eq_self.mpr fun part hpart => decide_eq_true (hparts part hpart)
  simp only [parseV6Prefix, hsplit, hfilter]
  rw [if_neg (by simp), List.take_of_length_le (by simp)]
  simp only [List.mapM_cons, List.mapM_nil, hgroups, hparse, ← hn]
  rfl

/-! ## Hosts -/

/-- The hosts of the device range that no active device of a network has. -/
def Db.freeHosts (text : AddrText) (db : Db) (n : String) : Set Nat :=
  {host | DEVICE_HOST_MIN ≤ host ∧ host ≤ DEVICE_HOST_MAX ∧
    ∀ d ∈ db.devices.rows, d.networkId = n → d.status = .active →
      ∀ octets, d.addressV4 = some (text.display (.v4 octets)) → (lastOctet octets).toNat ≠ host}

section

variable {text : AddrText} {db : Db} {n : String}

lemma mem_listDevices {device : Device} :
    device ∈ db.listDevices n ↔ ∃ d ∈ db.devices.rows, d.networkId = n ∧ d.toDevice = device := by
  rw [Db.listDevices, mem_orderBy, select, List.mem_filterMap]
  constructor
  · rintro ⟨d, hd, heq⟩
    split at heq
    · next hnetwork => exact ⟨d, hd, hnetwork, Option.some.inj heq⟩
    · cases heq
  · rintro ⟨d, hd, hnetwork, rfl⟩
    exact ⟨d, hd, if_pos hnetwork⟩

variable {host : UInt8}

/-- The octets in use are the last ones of the addresses of active devices. -/
lemma mem_usedHosts (hsound : db.Sound text) :
    host ∈ usedHosts text (db.listDevices n) ↔ ∃ d ∈ db.devices.rows, d.networkId = n ∧
      d.status = .active ∧ ∃ octets, d.addressV4 = some (text.display (.v4 octets)) ∧
        lastOctet octets = host := by
  simp only [usedHosts, List.mem_map, List.mem_filterMap, List.mem_filter, decide_eq_true_eq]
  constructor
  · rintro ⟨octets, ⟨address, ⟨device, ⟨hdevice, hactive⟩, haddress⟩, hparse⟩, hlast⟩
    obtain ⟨d, hd, hnetwork, rfl⟩ := mem_listDevices.mp hdevice
    obtain ⟨octets', rfl⟩ := (hsound.devices d hd).v4 hactive address haddress
    rw [parseV4_display] at hparse
    cases hparse
    exact ⟨d, hd, hnetwork, hactive, octets, haddress, hlast⟩
  · rintro ⟨d, hd, hnetwork, hactive, octets, haddress, hlast⟩
    exact ⟨octets, ⟨_, ⟨d.toDevice, ⟨mem_listDevices.mpr ⟨d, hd, hnetwork, rfl⟩, hactive⟩, haddress⟩,
      parseV4_display octets⟩, hlast⟩

lemma mem_freeHosts (hsound : db.Sound text) {host : Nat} :
    host ∈ db.freeHosts text n ↔ DEVICE_HOST_MIN ≤ host ∧ host ≤ DEVICE_HOST_MAX ∧
      UInt8.ofNat host ∉ usedHosts text (db.listDevices n) := by
  constructor
  · rintro ⟨hmin, hmax, hfree⟩
    refine ⟨hmin, hmax, fun hused => ?_⟩
    obtain ⟨d, hd, hnetwork, hactive, octets, haddress, hlast⟩ := (mem_usedHosts hsound).mp hused
    refine hfree d hd hnetwork hactive octets haddress ?_
    rw [hlast, UInt8.toNat_ofNat', Nat.mod_eq_of_lt (by unfold DEVICE_HOST_MAX at hmax; omega)]
  · rintro ⟨hmin, hmax, hfree⟩
    refine ⟨hmin, hmax, fun d hd hnetwork hactive octets haddress hlast => hfree ?_⟩
    refine (mem_usedHosts hsound).mpr ⟨d, hd, hnetwork, hactive, octets, haddress, ?_⟩
    rw [← hlast, UInt8.ofNat_toNat]

/-- The search of the allocator finds the lowest free host. -/
lemma find_deviceHosts (hsound : db.Sound text)
    (h : deviceHosts.find? (fun h => h ∉ usedHosts text (db.listDevices n)) = some host) :
    IsLeast (db.freeHosts text n) host.toNat := by
  rw [deviceHosts, List.find?_map, Option.map_eq_some_iff] at h
  obtain ⟨i, hfind, rfl⟩ := h
  obtain ⟨hfree, hmem, hlower⟩ := List.find?_range'_eq_some.mp hfind
  simp only [List.mem_range'_1, DEVICE_HOST_MIN, DEVICE_HOST_MAX] at hmem
  have htoNat : (UInt8.ofNat i).toNat = i := by
    rw [UInt8.toNat_ofNat', Nat.mod_eq_of_lt (by omega)]
  rw [htoNat]
  constructor
  · refine (mem_freeHosts hsound).mpr ⟨hmem.1, ?_, by simpa using hfree⟩
    unfold DEVICE_HOST_MAX
    omega
  · intro j hj
    obtain ⟨hmin, -, hjfree⟩ := (mem_freeHosts hsound).mp hj
    by_contra hlt
    have hused := hlower j hmin (Nat.lt_of_not_le hlt)
    simp only [Function.comp_apply, decide_not, Bool.not_not, decide_eq_true_eq] at hused
    exact hjfree hused

lemma find_deviceHosts_none (hsound : db.Sound text)
    (h : deviceHosts.find? (fun h => h ∉ usedHosts text (db.listDevices n)) = none) :
    db.freeHosts text n = ∅ := by
  rw [deviceHosts, List.find?_map, Option.map_eq_none_iff] at h
  refine Set.eq_empty_of_forall_notMem fun j hj => ?_
  obtain ⟨hmin, hmax, hjfree⟩ := (mem_freeHosts hsound).mp hj
  have hused := List.find?_range'_eq_none.mp h j hmin (by
    unfold DEVICE_HOST_MAX at hmax
    unfold DEVICE_HOST_MIN DEVICE_HOST_MAX
    omega)
  simp only [Function.comp_apply, decide_not, Bool.not_not, decide_eq_true_eq] at hused
  exact hjfree hused

/-! ## New devices -/

variable {net : Network} {key : String} {host' : UInt8}

lemma allocateAddress_eq (hdotted : Dotted text) (hpooled : Pooled net) (devices : List Device) :
    ∃ idx ula, net.ipv4Pool = ipv4Pool idx ∧ allocateAddress text net devices =
      match deviceHosts.find? fun h => h ∉ usedHosts text devices with
      | none => .error .poolExhausted
      | some host => .ok (v4At (poolBase idx) host, v6At ula host) := by
  obtain ⟨idx, hv4, hv6⟩ := hpooled
  refine ⟨idx, [0xfd72, 0x15ab, idx % 65536], hv4, ?_⟩
  rewrite [allocateAddress, hv4, parseV4Base_ipv4Pool hdotted, hv6, parseV6Prefix_ipv6Ula]
  rfl

lemma v4At_inj {base : Block 4} (h : v4At base host = v4At base host') : host = host' := by
  injection h with h
  have hlist := congrArg List.Vector.toList h
  simpa using hlist

lemma v6At_inj {ula : List Nat} (h : v6At ula host = v6At ula host') : host = host' := by
  injection h with h
  have hlist := congrArg List.Vector.toList h
  simpa using hlist

lemma display_injective (text : AddrText) : Function.Injective text.display := by
  intro a b h
  have hparse := text.parse_display a
  rw [h, text.parse_display] at hparse
  exact (Option.some.inj hparse).symm

/-- A device with the next number, a key that no active device has and a host that none has. -/
lemma admits_device (hsound : db.Sound text) (name : String) (v6 : Option String) (base : Block 4)
    (hkey : ∀ d ∈ db.devices.rows, d.networkId = n → d.status = .active → d.wgPublicKey ≠ key)
    (hhost : host ∉ usedHosts text (db.listDevices n)) :
    db.devices.Admits ⟨⟨"dev-" ++ Nat.repr (db.entity + 1), n, name, key,
      some (text.display (v4At base host)), v6, .active⟩, none, none, none⟩ := by
  intro index hindex k hk hmem
  obtain ⟨d, hd, hd'⟩ := List.mem_filterMap.mp hmem
  simp only [indexes, List.mem_cons, List.not_mem_nil, or_false] at hindex
  rcases hindex with rfl | rfl | rfl
  · -- The number is new.
    cases hk
    have hid : d.id = "dev-" ++ Nat.repr (db.entity + 1) := by
      simpa [primaryKey] using hd'
    have hnew : IssuedBetween "dev-" db { db with entity := db.entity + 1 } d.id :=
      ⟨_, Nat.lt_succ_self _, le_rfl, hid⟩
    exact hnew.not_issued (hsound.devices d hd).issued
  · cases hk
    unfold activeKey at hd'
    split at hd'
    · next hactive =>
      obtain ⟨hnetwork, hsame⟩ : d.networkId = n ∧ d.wgPublicKey = key := by simpa using hd'
      exact hkey d hd hnetwork hactive hsame
    · cases hd'
  · -- An address of the host has the host for its last octet.
    cases hk
    unfold activeV4 at hd'
    split at hd'
    · next hactive =>
      obtain ⟨address, haddress, hsame⟩ := Option.map_eq_some_iff.mp hd'
      obtain ⟨hnetwork, rfl⟩ : d.networkId = n ∧ address = text.display (v4At base host) := by
        simpa using hsame
      exact hhost ((mem_usedHosts hsound).mpr ⟨d, hd, hnetwork, hactive, _, haddress, rfl⟩)
    · cases hd'

/-- A device stays what it is when its credential is set. -/
lemma mem_setDeviceToken (db : Db) (deviceId token : String) {d : DeviceRow}
    (hd : d ∈ db.devices.rows) :
    ∃ d' ∈ (db.setDeviceToken deviceId token).devices.rows, d'.toDevice = d.toDevice := by
  refine ⟨_, List.mem_map.mpr ⟨d, hd, rfl⟩, ?_⟩
  split <;> rfl

/-- What an enrolment of a new key comes to: the lowest free host, no free host, or no number
left. -/
def EnrolsLowest (text : AddrText) (db : Db) (net : Network) (key : String) :
    Except SqlStoreError (Db × Device × String) → Prop
  | .ok (db', device, _) => ∃ idx host, net.ipv4Pool = ipv4Pool idx ∧
    IsLeast (db.freeHosts text net.id) host.toNat ∧
    device.addressV4 = some (text.display (v4At (poolBase idx) host)) ∧
    device.networkId = net.id ∧ device.wgPublicKey = key ∧ device.status = .active ∧
    ∃ d ∈ db'.devices.rows, d.toDevice = device
  | .error .poolExhausted => db.freeHosts text net.id = ∅
  | .error e => e = .db (.protocol "entity ID sequence exhausted or missing") ∧
    9223372036854775807 ≤ db.entity

variable {name wgPublicKey token : String}

lemma enrollDevice_lowest (hdotted : Dotted text) (hsound : db.Sound text) (hpooled : Pooled net)
    (hcanonical : PublicKey.normalize wgPublicKey = some key)
    (hkey : ∀ d ∈ db.devices.rows, d.networkId = net.id → d.status = .active → d.wgPublicKey ≠ key)
    :
    EnrolsLowest text db net key
      (db.enrollDevice text net (db.listDevices net.id) name key token) := by
  obtain ⟨k, -, rfl⟩ := Option.map_eq_some_iff.mp hcanonical
  obtain ⟨idx, ula, hpool, halloc⟩ := allocateAddress_eq hdotted hpooled (db.listDevices net.id)
  unfold Db.enrollDevice
  rw [halloc]
  cases hfind : deviceHosts.find? fun h => h ∉ usedHosts text (db.listDevices net.id) with
  | none => exact find_deviceHosts_none hsound hfind
  | some host =>
    have hhost : host ∉ usedHosts text (db.listDevices net.id) := by simpa using List.find?_some hfind
    by_cases hentity : db.entity < 9223372036854775807
    · have hadmits := admits_device hsound name (some (text.display (v6At ula host)))
        (poolBase idx) hkey hhost
      obtain ⟨devices, hinsert⟩ := insert?_of_admits hadmits
      simp only [Db.next, if_pos hentity, Db.insertDevice, normalize_canonical, hinsert]
      refine ⟨idx, host, hpool, find_deviceHosts hsound hfind, rfl, rfl, rfl, rfl, ?_⟩
      have hrow : _ ∈ devices.rows :=
        (mem_insert? hinsert).mpr (.inr rfl)
      exact mem_setDeviceToken { db with entity := db.entity + 1, devices } _ token hrow
    · simp only [Db.next, if_neg hentity]
      exact ⟨rfl, Nat.le_of_not_lt hentity⟩

/-- The key of a device that is looked for among the active ones of a network. -/
lemma ne_key_of_find?_none
    (h : (db.listDevices n).find? (fun d => d.status = .active ∧ d.wgPublicKey = key) = none) :
    ∀ d ∈ db.devices.rows, d.networkId = n → d.status = .active → d.wgPublicKey ≠ key := by
  intro d hd hnetwork hactive hkey
  have hnone := List.find?_eq_none.mp h d.toDevice (mem_listDevices.mpr ⟨d, hd, hnetwork, rfl⟩)
  simp [hactive, hkey] at hnone

/-- The primary key picks one invite. -/
lemma invite_eq {i i' : Invite} (hi : i ∈ db.invites.rows) (hi' : i' ∈ db.invites.rows)
    (hcode : i.code = i'.code) : i = i' :=
  eq_of_index List.mem_cons_self hi hi' rfl (congrArg (fun code => some [code]) hcode.symm)

variable {code : String} {invite : Invite}

lemma getInvite_eq_some (h : db.getInvite code = some invite) :
    invite ∈ db.invites.rows ∧ invite.code = code :=
  ⟨mem_of_find? h, by simpa using find?_some h⟩

variable {now : Int}

/-- The update that consumes an invite affects one row, if the invite is consumable. -/
lemma consumeInvite_count (h : db.getInvite code = some invite)
    (hconsumable : Db.consumable code now invite = true) : (db.consumeInvite code now).2 = 1 := by
  obtain ⟨hmem, hcode⟩ := getInvite_eq_some h
  refine count_eq_one (nodup_rows List.mem_cons_self fun _ => rfl) hmem hconsumable ?_
  intro i hi hp
  have hp : i.code = code := (of_decide_eq_true hp).1
  exact invite_eq hi hmem (hp.trans hcode.symm)

/-- The path of an enrolment past the checks of the invite and the network. -/
lemma enrollOnce_eq (hinvite : db.getInvite code = some invite)
    (hconsumable : Db.consumable code now invite = true)
    (hnet : db.getNetwork invite.networkId = some net)
    (hkey : ∀ d ∈ db.devices.rows, d.networkId = net.id → d.status = .active → d.wgPublicKey ≠ key)
    :
    db.enrollOnce text code name key now token =
      (db.consumeInvite code now).1.enrollDevice text net (db.listDevices net.id) name key token := by
  have hexpiry : invite.expiresAt.any (· ≤ now) = false := by
    obtain ⟨-, hexpiry, -⟩ := of_decide_eq_true hconsumable
    cases hexpires : invite.expiresAt with
    | none => rfl
    | some expiry => simpa [hexpires] using hexpiry
  have hfind : (db.listDevices net.id).find? (fun d => d.status = .active ∧ d.wgPublicKey = key) =
      none := by
    refine List.find?_eq_none.mpr fun device hdevice => ?_
    obtain ⟨d, hd, hnetwork, rfl⟩ := mem_listDevices.mp hdevice
    simpa using hkey d hd hnetwork
  unfold Db.enrollOnce
  rw [hinvite]
  simp only [hexpiry, hnet, hfind, consumeInvite_count hinvite hconsumable]
  simp

lemma Db.Sound.consumeInvite (hsound : db.Sound text) (code : String) (now : Int) :
    (db.consumeInvite code now).1.Sound text :=
  ⟨hsound.networks, hsound.routes, fun d hd => (hsound.devices d hd).mono le_rfl⟩

lemma enrollOnce_lowest (hdotted : Dotted text) (hsound : db.Sound text)
    (hcanonical : PublicKey.normalize wgPublicKey = some key)
    (hinvite : db.getInvite code = some invite) (hconsumable : Db.consumable code now invite = true)
    (hnet : db.getNetwork invite.networkId = some net)
    (hkey : ∀ d ∈ db.devices.rows, d.networkId = net.id → d.status = .active → d.wgPublicKey ≠ key)
    :
    EnrolsLowest text db net key (db.enrollOnce text code name key now token) := by
  have hsound' : (db.consumeInvite code now).1.Sound text :=
    hsound.consumeInvite code now
  rw [enrollOnce_eq hinvite hconsumable hnet hkey]
  exact enrollDevice_lowest hdotted hsound' (hsound.networks net (mem_of_find? hnet)).2
    hcanonical hkey

/-- An enrolment does not run into the indexes. -/
lemma enrollOnce_ne_unique (hdotted : Dotted text) (hsound : db.Sound text)
    (hcanonical : PublicKey.normalize wgPublicKey = some key) :
    db.enrollOnce text code name key now token ≠ .error (.db .unique) := by
  unfold Db.enrollOnce
  split
  · simp
  split
  · simp
  next invite hinvite hexpiry =>
  split
  · simp
  next net hnet =>
  dsimp only
  split
  · simp
  next hfind =>
  split
  · simp
  have hsound' : (db.consumeInvite code now).1.Sound text :=
    hsound.consumeInvite code now
  have hpooled := (hsound.networks net (mem_of_find? hnet)).2
  have hlowest : EnrolsLowest text (db.consumeInvite code now).1 net key
      ((db.consumeInvite code now).1.enrollDevice text net (db.listDevices net.id) name key
        token) :=
    enrollDevice_lowest hdotted hsound' hpooled hcanonical (ne_key_of_find?_none hfind)
  intro herror
  rw [herror] at hlowest
  cases hlowest.1

/-! ## Every run -/

/-- The active devices of a network have different keys, and different IPv4 addresses if they have
any. -/
def Db.IdentitiesApart (text : AddrText) (db : Db) : Prop :=
  ∀ d ∈ db.devices.rows, ∀ d' ∈ db.devices.rows, d ≠ d' → d.networkId = d'.networkId →
    d.status = .active → d'.status = .active →
    (∃ k k', d.wgPublicKey = PublicKey.canonical k ∧ d'.wgPublicKey = PublicKey.canonical k' ∧ k ≠ k') ∧
    ∀ a ∈ d.addressV4, ∀ a' ∈ d'.addressV4,
      ∃ octets octets', a = text.display (.v4 octets) ∧ a' = text.display (.v4 octets') ∧
        octets ≠ octets'

lemma activeKey_mem : activeKey ∈ indexes := by simp [indexes]

lemma activeV4_mem : activeV4 ∈ indexes := by simp [indexes]

lemma identitiesApart (hsound : db.Sound text) : db.IdentitiesApart text := by
  intro d hd d' hd' hne hnetwork hactive hactive'
  constructor
  · obtain ⟨k, hk⟩ := (hsound.devices d hd).key
    obtain ⟨k', hk'⟩ := (hsound.devices d' hd').key
    refine ⟨k, k', hk, hk', ?_⟩
    rintro rfl
    refine hne (eq_of_index activeKey_mem hd hd'
      (if_pos hactive) ?_)
    rw [activeKey, if_pos hactive', hnetwork, hk, hk']
  · intro a ha a' ha'
    obtain ⟨octets, rfl⟩ := (hsound.devices d hd).v4 hactive a ha
    obtain ⟨octets', rfl⟩ := (hsound.devices d' hd').v4 hactive' a' ha'
    refine ⟨octets, octets', rfl, rfl, ?_⟩
    rintro rfl
    have hv4 : ∀ d, d.status = .active → d.addressV4 = some (text.display (.v4 octets)) →
        activeV4 d = some [d.networkId, text.display (.v4 octets)] := by
      intro d hactive haddress
      rw [activeV4, if_pos hactive, haddress]
      rfl
    refine hne (eq_of_index activeV4_mem hd hd'
      (hv4 d hactive ha) ?_)
    rw [hv4 d' hactive' ha', hnetwork]

end

def Transaction.IsEnrolment : Transaction → Prop
  | .enroll .. | .importDevices .. => True
  | _ => False

/-- In every state of every run the active devices of a network differ in key and address; a key
that is new to the network is enrolled at the lowest free host, unless there is none or no number is
left, and never runs into an index; and an enrolment that fails, by itself or by an error of the
database, leaves the database as it was. -/
theorem enrolment_keeps_identities_apart (text : AddrText) (hdotted : Dotted text) (es : List Event)
    (s : Server) (hrun : runFrom (Server.step text) .init es = some s) :
    s.db.IdentitiesApart text ∧
    (∀ code name wgPublicKey key now token invite net,
      PublicKey.normalize wgPublicKey = some key → s.db.getInvite code = some invite →
      Db.consumable code now invite = true → s.db.getNetwork invite.networkId = some net →
      (∀ d ∈ s.db.devices.rows, d.networkId = net.id → d.status = .active → d.wgPublicKey ≠ key) →
      EnrolsLowest text s.db net key (s.db.enrollOnce text code name key now token)) ∧
    (∀ code name wgPublicKey key now token, PublicKey.normalize wgPublicKey = some key →
      s.db.enrollOnce text code name key now token ≠ .error (.db .unique)) ∧
    (∀ id env r tx attempt e s', s.calls id = some r → r.task = .transaction tx attempt →
      tx.IsEnrolment → tx.attempt text env s.db = .error e →
      s.step text (.advance id env) = some s' → s'.db = s.db) ∧
    ∀ store c s', s.step text (.call store c) = some s' → s'.db = s.db := by
  have hsound := (Server.sound_of_run hrun).db
  refine ⟨identitiesApart hsound, ?_, ?_, ?_, ?_⟩
  · intro code name wgPublicKey key now token invite net hcanonical hinvite hconsumable hnet hkey
    exact enrollOnce_lowest hdotted hsound hcanonical hinvite hconsumable hnet hkey
  · intro code name wgPublicKey key now token hcanonical
    exact enrollOnce_ne_unique hdotted hsound hcanonical
  · intro id env r tx attempt e s' hid hr _ hfail hstep
    obtain ⟨r', hid', rfl⟩ := Option.map_eq_some_iff.mp hstep
    cases hid.symm.trans hid'
    change (r.task.step text env s.db).1 = s.db
    rw [hr]
    simp only [Task.step, hfail]
  · intro store c s' hstep
    cases hstep
    exact (Server.call_frame text s store c).1

def inviteRun : List Event :=
  [.call 0 (.createNetwork "a"), .advance 0 ⟨"", none⟩, .advance 0 ⟨"", none⟩,
    .call 0 (.createInvite "net-1" none (some 1)), .advance 1 ⟨"code", none⟩]

theorem enrolment_keeps_identities_apart_inviteRun :
    ∃ s, runFrom (Server.step .plain) .init inviteRun = some s ∧ s.db.IdentitiesApart .plain ∧
      EnrolsLowest .plain s.db (newNetwork "a" 0 1) (String.ofList (List.replicate 64 '0'))
        (s.db.enrollOnce .plain "code" "d" (String.ofList (List.replicate 64 '0')) 0 "token") := by
  refine ⟨_, rfl, ?_⟩
  obtain ⟨hapart, hlowest, -⟩ :=
    enrolment_keeps_identities_apart .plain dotted_plain inviteRun _ rfl
  refine ⟨hapart, hlowest "code" "d" (String.ofList (List.replicate 64 '0')) _ 0 "token"
    ⟨"code", "net-1", none, some 1, 0⟩ (newNetwork "a" 0 1) ?_ ?_ ?_ ?_ ?_⟩
  all_goals decide +kernel

end Fluxpeer.Control
