import Fluxpeer.Control.Integrity

/-!
# What the integrity migration leaves

The scan collects what has to be written, the statements write it, and the indexes of the active
devices are there from then on. A migration that returns without an error has changed the spelling of
keys and of active IPv4 addresses, taken addresses and credentials from revoked devices, and nothing
else; a second one finds nothing to do.
-/

namespace Fluxpeer.Control

open Lib Net LegacyDevice

/-! ## The statements of the transaction -/

def Renewal.applyAll (rs : List Renewal) (d : LegacyDevice) : LegacyDevice :=
  rs.foldl (fun d r => if d.id = r.id then r.apply d else d) d

section Updates

variable {text : AddrText} {d : LegacyDevice} {rows : List LegacyDevice}

def renewals (text : AddrText) (rows : List LegacyDevice) : List Renewal :=
  (rows.filter fun d => d.renewed text ≠ d).map (LegacyDevice.renewal text)

lemma applyAll_renewals_cons (row d : LegacyDevice) (rows : List LegacyDevice) :
    Renewal.applyAll (renewals text (row :: rows)) d = Renewal.applyAll (renewals text rows)
      (if row.renewed text ≠ row ∧ d.id = row.id then (row.renewal text).apply d else d) := by
  by_cases hne : row.renewed text = row
  · simp [renewals, hne]
  · simp [renewals, hne, Renewal.applyAll, renewal]

lemma applyAll_renewals_renewed (h : ∀ d' ∈ rows, d'.id = d.id → d' = d) :
    Renewal.applyAll (renewals text rows) (d.renewed text) = d.renewed text := by
  induction rows with
  | nil => rfl
  | cons row rows ih =>
    have hrest := ih fun d' hd' => h d' (List.mem_cons_of_mem _ hd')
    rw [applyAll_renewals_cons]
    split
    · next hrow =>
      cases h row List.mem_cons_self hrow.2.symm
      exact hrest
    · exact hrest

lemma applyAll_renewals (h : ∀ d' ∈ rows, d'.id = d.id → d' = d) (hd : d ∈ rows) :
    Renewal.applyAll (renewals text rows) d = d.renewed text := by
  by_cases hsame : d.renewed text = d
  · have hrenewed : Renewal.applyAll (renewals text rows) (d.renewed text) = d.renewed text :=
      applyAll_renewals_renewed h
    rwa [hsame] at hrenewed ⊢
  induction rows with
  | nil => cases hd
  | cons row rows ih =>
    have hrest : ∀ d' ∈ rows, d'.id = d.id → d' = d :=
      fun d' hd' => h d' (List.mem_cons_of_mem _ hd')
    rw [applyAll_renewals_cons]
    by_cases hid : d.id = row.id
    · cases h row List.mem_cons_self hid.symm
      rw [if_pos ⟨hsame, rfl⟩]
      exact applyAll_renewals_renewed hrest
    rw [if_neg fun hrow => hid hrow.2]
    refine ih hrest ((List.mem_cons.mp hd).resolve_left ?_)
    rintro rfl
    exact hid rfl

end Updates

namespace LegacyDb

variable {db db' : LegacyDb}

lemma constrain_eq_ok : db.constrain = .ok db' ↔ db.Admissible ∧ db' = db := by
  unfold constrain
  split <;> simp_all [eq_comm]

/-- The updates of the devices change their rows and nothing else. -/
lemma foldlM_renewed {rs : List Renewal}
    (h : rs.foldlM (fun db r => (db.renewed r).constrain) db = .ok db') :
    db'.devices.rows = db.devices.rows.map (Renewal.applyAll rs) ∧
      db' = { db with devices := db'.devices } := by
  induction rs generalizing db with
  | nil =>
    cases h
    exact ⟨(List.map_id _).symm, rfl⟩
  | cons r rs ih =>
    rw [List.foldlM_cons, bind_eq_ok_iff] at h
    obtain ⟨db₁, hconstrain, hrest⟩ := h
    obtain ⟨_, rfl⟩ := constrain_eq_ok.mp hconstrain
    obtain ⟨hrows, hrest⟩ := ih hrest
    refine ⟨?_, hrest⟩
    rw [hrows]
    change (db.devices.rows.map _).map _ = _
    rw [List.map_map]
    refine List.map_congr_left fun d _ => ?_
    simp only [Function.comp_apply, decide_eq_true_eq]
    rfl

lemma foldl_bumpNetworkEpoch (networks : List String) (hnodup : networks.Nodup) (db : LegacyDb) :
    (networks.foldl bumpNetworkEpoch db).networks.rows = db.networks.rows.map (fun n =>
        if n.id ∈ networks then { n with configEpoch := n.configEpoch + 1 } else n) ∧
      networks.foldl bumpNetworkEpoch db =
        { db with networks := (networks.foldl bumpNetworkEpoch db).networks } := by
  induction networks generalizing db with
  | nil => simp
  | cons network networks ih =>
    obtain ⟨hnotMem, hnodup⟩ := List.nodup_cons.mp hnodup
    obtain ⟨hrows, hrest⟩ := ih hnodup (db.bumpNetworkEpoch network)
    rw [List.foldl_cons]
    refine ⟨?_, hrest⟩
    rw [hrows]
    change (db.networks.rows.map _).map _ = _
    rw [List.map_map]
    refine List.map_congr_left fun n _ => ?_
    by_cases hn : n.id = network
    · simp [hn, hnotMem]
    · simp [hn]

end LegacyDb

/-! ## The sequence -/

lemma foldlM_maxId {ids : List String} {m₀ m : Nat}
    (h : ids.foldlM (fun m id => (entityNumber id).map fun n => max m (n.getD 0)) m₀ = .ok m) :
    m₀ ≤ m ∧ ∀ id ∈ ids, ∃ number, entityNumber id = .ok number ∧ ∀ n ∈ number, n ≤ m := by
  induction ids generalizing m₀ with
  | nil =>
    cases h
    exact ⟨le_rfl, by simp⟩
  | cons id ids ih =>
    rw [List.foldlM_cons, bind_eq_ok_iff] at h
    obtain ⟨m₁, hnumber, hrest⟩ := h
    obtain ⟨number, hid, rfl⟩ := map_eq_ok hnumber
    obtain ⟨hle, hall⟩ := ih hrest
    refine ⟨(le_max_left _ _).trans hle, ?_⟩
    intro id' hmem
    rcases List.mem_cons.mp hmem with rfl | hmem
    · refine ⟨number, hid, fun n hn => ?_⟩
      rw [Option.mem_def] at hn
      subst hn
      exact (le_max_right _ _).trans hle
    · exact hall id' hmem

lemma entityNumber_eq_ok {kind : String} {digits : List Char} {number : Option Nat}
    (hkind : kind ∈ entityKinds) (hdigits : digits ≠ []) (hall : digits.all Char.isDigit)
    (h : entityNumber (kind ++ "-" ++ String.ofList digits) = .ok number) :
    number = some (Nat.ofDigitChars 10 digits 0) := by
  have hminus : '-' ∉ digits := by
    intro hmem
    exact absurd (List.all_eq_true.mp hall _ hmem) (by decide)
  have hsplit : rsplitOnce '-' (kind ++ "-" ++ String.ofList digits) =
      some (kind, String.ofList digits) :=
    rsplitOnce_of_append (by simp) (by simpa using hminus)
  have hnonempty : String.ofList digits ≠ "" := by
    intro heq
    exact hdigits (by simpa using congrArg String.toList heq)
  unfold entityNumber at h
  rw [hsplit] at h
  simp only [String.toList_ofList] at h
  rw [if_pos ⟨hkind, hnonempty, hall⟩] at h
  split at h
  · cases h
    rfl
  · cases h

/-! ## What is committed -/

namespace LegacyDb

variable {text : AddrText} {debug : String → String} {db db' : LegacyDb}

/-- What the transaction reads and what it makes of the tables. -/
structure Commit (text : AddrText) (debug : String → String) (db db' : LegacyDb) (value : Nat)
    (scan : Scan) : Prop where
  highest : maxId db.ids = .ok value
  scanned : (orderBy (fun d => d.id.toList) db.devices.rows).foldlM
    (fun scan row => Scan.visit text debug row scan) .new = .ok scan
  devices : db'.devices.rows = db.devices.rows.map (LegacyDevice.renewed text)
  networks : db'.networks.rows = db.networks.rows.map fun n =>
    if n.id ∈ scan.changedNetworks then { n with configEpoch := n.configEpoch + 1 } else n
  rest : db' =
    { (db.raiseSequence value).createIndexes with devices := db'.devices, networks := db'.networks }
  admissible : db'.Admissible

lemma mem_orderBy {d : LegacyDevice} {rows : List LegacyDevice} :
    d ∈ orderBy (fun d => d.id.toList) rows ↔ d ∈ rows :=
  (List.perm_insertionSort (fun a b : LegacyDevice => a.id.toList ≤ b.id.toList) rows).mem_iff

lemma map_applyAll_renewals (db : LegacyDb) :
    db.devices.rows.map (Renewal.applyAll (renewals text
      (orderBy (fun d => d.id.toList) db.devices.rows))) =
      db.devices.rows.map (LegacyDevice.renewed text) := by
  refine List.map_congr_left fun d hd => applyAll_renewals ?_ (mem_orderBy.mpr hd)
  intro d' hd' hid
  exact Table.eq_of_index (List.mem_singleton_self primaryKey) (mem_orderBy.mp hd') hd
    (congrArg (fun id => some [id]) hid) rfl

lemma commit_of_migrateOnce (h : db.migrateOnce text debug = .ok db') :
    ∃ value scan, Commit text debug db db' value scan := by
  unfold migrateOnce at h
  simp only [bind_eq_ok_iff] at h
  obtain ⟨value, hmax, scan, hscan, db₁, hrenewed, db₂, hindexes, hbump⟩ := h
  obtain ⟨hvalid, hafter⟩ := Scan.foldlM_visit hscan
  obtain ⟨hrows, hsame⟩ := foldlM_renewed hrenewed
  obtain ⟨hadmissible, rfl⟩ := constrain_eq_ok.mp hindexes
  have hnodup : scan.changedNetworks.Nodup := by
    rw [hafter]
    exact Scan.nodup_changedNetworks_foldl_after _ List.nodup_nil
  obtain ⟨hnetworks, hlast⟩ := foldl_bumpNetworkEpoch _ hnodup db₁.createIndexes
  have hnormalized : scan.normalized =
      renewals text (orderBy (fun d => d.id.toList) db.devices.rows) := by
    rw [hafter, Scan.normalized_foldl_after]
    rfl
  cases hbump
  refine ⟨value, scan, hmax, hscan, ?_, ?_, ?_, ?_⟩
  · rw [hlast, ← map_applyAll_renewals, ← hnormalized]
    exact hrows
  · rw [hnetworks, hsame]
    rfl
  · rw [hlast, hsame]
    rfl
  · rw [hlast]
    exact hadmissible

variable {value : Nat} {scan : Scan}

section

variable (h : Commit text debug db db' value scan)

include h

lemma Commit.ids : db'.ids = db.ids := by
  have hnetworks : db'.networks.rows.map (·.id) = db.networks.rows.map (·.id) := by
    rw [h.networks, List.map_map]
    refine List.map_congr_left fun n _ => ?_
    simp only [Function.comp_apply]
    split <;> rfl
  have hdevices : db'.devices.rows.map (·.id) = db.devices.rows.map (·.id) := by
    rw [h.devices, List.map_map]
    rfl
  have hrelays : db'.relays = db.relays := by rw [h.rest]; rfl
  have hroutes : db'.routes = db.routes := by rw [h.rest]; rfl
  rw [LegacyDb.ids, hnetworks, hdevices, hrelays, hroutes, LegacyDb.ids]

lemma Commit.sequence {seq : Nat} (hseq : db.sequence = some seq) :
    db'.sequence = some (if seq < value then value else seq) := by
  rw [h.rest]
  exact congrArg (Option.map _) hseq

/-- A second run finds the identifiers below the sequence and nothing to write. -/
lemma Commit.again {seq : Nat} (hseq : db.sequence = some seq) : db'.migrateOnce text debug = .ok db' := by
  have hsequence := h.sequence hseq
  have hraise : db'.raiseSequence value = db' := by
    have hmax : (if (if seq < value then value else seq) < value then value
        else if seq < value then value else seq) = if seq < value then value else seq := by
      grind
    rw [raiseSequence, hsequence, Option.map_some, hmax, ← hsequence]
  have hrows : orderBy (fun d => d.id.toList) db'.devices.rows =
      (orderBy (fun d => d.id.toList) db.devices.rows).map (LegacyDevice.renewed text) := by
    rw [h.devices]
    exact (map_orderBy (LegacyDevice.renewed text) (fun _ => rfl) _).symm
  have hindexes : db'.createIndexes = db' := by
    rw [h.rest]
    rfl
  unfold migrateOnce
  simp only [bind_eq_ok_iff]
  refine ⟨value, ?_, scan.conflicts, ?_, db', ?_, db', ?_, rfl⟩
  · rw [h.ids]
    exact h.highest
  · rw [hraise, hrows]
    exact Scan.foldlM_visit_renewed h.scanned
  · rw [hraise]
    rfl
  · rw [hindexes]
    exact constrain_eq_ok.mpr ⟨h.admissible, rfl⟩

end

/-! ## The result -/

/-- An active device of a network has another row afterwards. -/
def ActiveChanged (db db' : LegacyDb) (network : String) : Prop :=
  ∃ d ∈ db.devices.rows, d.networkId = network ∧ d.status = "active" ∧ d ∉ db'.devices.rows

/-- What holds after a migration that returned without an error. -/
structure Migrated (text : AddrText) (debug : String → String) (db db' : LegacyDb) : Prop where
  keys : ∀ d ∈ db'.devices.rows, d.status = "active" → ∃ key, d.wgPublicKey = PublicKey.canonical key
  keysUnique : ∀ d ∈ db'.devices.rows, ∀ d' ∈ db'.devices.rows, d.status = "active" →
    d'.status = "active" → d.networkId = d'.networkId → d.wgPublicKey = d'.wgPublicKey → d = d'
  v4 : ∀ d ∈ db'.devices.rows, d.status = "active" → ∀ v4 ∈ d.addressV4,
    ∃ octets, v4 = text.display (.v4 octets)
  v4Unique : ∀ d ∈ db'.devices.rows, ∀ d' ∈ db'.devices.rows, d.status = "active" →
    d'.status = "active" → d.networkId = d'.networkId → ∀ v4 ∈ d.addressV4, v4 ∈ d'.addressV4 →
    d = d'
  revoked : ∀ d ∈ db'.devices.rows, d.status ≠ "active" → d.status = "revoked" ∧
    d.addressV4 = none ∧ d.addressV6 = none ∧ d.authToken = none
  devices : List.Forall₂ (LegacyDevice.Respelt text) db.devices.rows db'.devices.rows
  networks : List.Forall₂ (fun n n' : Network =>
      (ActiveChanged db db' n.id → n' = { n with configEpoch := n.configEpoch + 1 }) ∧
        (¬ ActiveChanged db db' n.id → n' = n))
    db.networks.rows db'.networks.rows
  relays : db'.relays = db.relays
  routes : db'.routes = db.routes
  /-- The sequence has not fallen, and is at least the number of every identifier. -/
  sequence : ∃ seq, db'.sequence = some seq ∧ db.sequence.getD 0 ≤ seq ∧
    (∀ kind ∈ entityKinds, ∀ digits : List Char, digits ≠ [] → digits.all Char.isDigit →
      kind ++ "-" ++ String.ofList digits ∈ db'.ids → Nat.ofDigitChars 10 digits 0 ≤ seq) ∧
    -- A store whose sequence is this one or a later one draws no identifier that is there.
    ∀ store : Db, seq ≤ store.entity → ∀ store' n, store.next = .ok (store', n) →
      ∀ kind ∈ entityKinds, kind ++ "-" ++ Nat.repr n ∉ db'.ids
  again : db'.migrate text debug none = (db', .ok ())

variable {d : LegacyDevice}

/-- Two active rows that an index of the active devices does not tell apart are one row. -/
lemma eq_of_active {index : Index LegacyDevice} {rows : List LegacyDevice} {d' : LegacyDevice}
    {entry : List String} (hnodup : (rows.filterMap index).Nodup) (hd : d ∈ rows) (hd' : d' ∈ rows)
    (hentry : index d = some entry) (hentry' : index d' = some entry) : d = d' := by
  let t : Table [index] := ⟨rows, by simpa using hnodup⟩
  exact t.eq_of_index (List.mem_singleton_self index) hd hd' hentry hentry'

section

variable (h : Commit text debug db db' value scan)

include h

lemma renewed_mem_iff (hd : d ∈ db.devices.rows) :
    d ∈ db'.devices.rows ↔ d.renewed text = d := by
  rw [h.devices, List.mem_map]
  constructor
  · rintro ⟨d', hd', heq⟩
    have hid : (d'.renewed text).id = d.id := congrArg LegacyDevice.id heq
    have hsame : d' = d :=
      Table.eq_of_index (List.mem_singleton_self primaryKey) hd' hd
        (congrArg (fun id => some [id]) hid) rfl
    rwa [hsame] at heq
  · exact fun heq => ⟨d, hd, heq⟩

lemma Commit.activeChanged_iff (network : String) :
    network ∈ scan.changedNetworks ↔ ActiveChanged db db' network := by
  rw [(Scan.foldlM_visit h.scanned).2, Scan.mem_changedNetworks_foldl_after, ActiveChanged]
  constructor
  · rintro (hmem | ⟨d, hd, hnetwork, hactive, hne⟩)
    · cases hmem
    · have hd := mem_orderBy.mp hd
      exact ⟨d, hd, hnetwork, hactive, fun hmem => hne ((renewed_mem_iff h hd).mp hmem)⟩
  · rintro ⟨d, hd, hnetwork, hactive, hne⟩
    exact .inr ⟨d, mem_orderBy.mpr hd, hnetwork, hactive,
      fun heq => hne ((renewed_mem_iff h hd).mpr heq)⟩

lemma Commit.exists_renewed (hd : d ∈ db'.devices.rows) :
    ∃ old : LegacyDevice, old.Valid text ∧ old.renewed text = d := by
  rw [h.devices, List.mem_map] at hd
  obtain ⟨old, hold, rfl⟩ := hd
  exact ⟨old, (Scan.foldlM_visit h.scanned).1 old (mem_orderBy.mpr hold), rfl⟩

lemma Commit.keys_canonical (hd : d ∈ db'.devices.rows) (hactive : d.status = "active") :
    ∃ key, d.wgPublicKey = PublicKey.canonical key := by
  obtain ⟨old, hvalid, rfl⟩ := h.exists_renewed hd
  obtain ⟨key, hkey⟩ := Option.isSome_iff_exists.mp (hvalid.key hactive)
  exact ⟨key, by rw [LegacyDevice.renewed, canonicalKey, PublicKey.normalize, hkey]; rfl⟩

lemma Commit.v4_canonical (hd : d ∈ db'.devices.rows) (hactive : d.status = "active")
    {v4 : String} (hv4 : v4 ∈ d.addressV4) :
    ∃ octets, v4 = text.display (.v4 octets) := by
  obtain ⟨old, hvalid, rfl⟩ := h.exists_renewed hd
  change old.status = "active" at hactive
  rw [LegacyDevice.renewed, if_pos hactive] at hv4
  obtain ⟨older, holder, rfl⟩ := Option.map_eq_some_iff.mp hv4
  obtain ⟨octets, hparse⟩ := Option.isSome_iff_exists.mp (hvalid.v4 hactive older holder)
  exact ⟨octets, by rw [canonicalV4, hparse]; rfl⟩

lemma Commit.revoked_bare (hd : d ∈ db'.devices.rows) (hactive : d.status ≠ "active") :
    d.status = "revoked" ∧ d.addressV4 = none ∧ d.addressV6 = none ∧ d.authToken = none := by
  obtain ⟨old, hvalid, rfl⟩ := h.exists_renewed hd
  exact ⟨hvalid.status.resolve_left hactive, if_neg hactive, if_neg hactive, if_neg hactive⟩

lemma Commit.number_le {kind : String} {digits : List Char} (hkind : kind ∈ entityKinds)
    (hdigits : digits ≠ []) (hall : digits.all Char.isDigit)
    (hmem : kind ++ "-" ++ String.ofList digits ∈ db'.ids) :
    Nat.ofDigitChars 10 digits 0 ≤ value := by
  rw [h.ids] at hmem
  obtain ⟨number, hnumber, hle⟩ := (foldlM_maxId h.highest).2 _ hmem
  obtain rfl := entityNumber_eq_ok hkind hdigits hall hnumber
  exact hle _ rfl

end

lemma Commit.migrated (h : Commit text debug db.seed db' value scan) :
    Migrated text debug db db' where
  keys _ hd hactive := h.keys_canonical hd hactive
  keysUnique d hd d' hd' hactive hactive' hnetwork hkey := by
    have hindex : db'.keyIndex = true := by rw [h.rest]; rfl
    refine eq_of_active (h.admissible.1 hindex) hd hd' (if_pos hactive) ?_
    rw [activeKey, if_pos hactive', hnetwork, hkey]
  v4 _ hd hactive _ hv4 := h.v4_canonical hd hactive hv4
  v4Unique d hd d' hd' hactive hactive' hnetwork v4 hv4 hv4' := by
    have hindex : db'.v4Index = true := by rw [h.rest]; rfl
    have hentry : activeV4 d = some [d.networkId, v4] := by
      rw [activeV4, if_pos hactive, hv4, Option.map_some]
    have hentry' : activeV4 d' = some [d.networkId, v4] := by
      rw [activeV4, if_pos hactive', hv4', Option.map_some, hnetwork]
    exact eq_of_active (h.admissible.2 hindex) hd hd' hentry hentry'
  revoked _ hd hactive := h.revoked_bare hd hactive
  devices := by
    rw [h.devices, List.forall₂_map_right_iff]
    exact List.forall₂_same.mpr fun d _ => respelt_renewed d
  networks := by
    rw [h.networks, List.forall₂_map_right_iff]
    refine List.forall₂_same.mpr fun n _ => ?_
    have hchanged : n.id ∈ scan.changedNetworks ↔ ActiveChanged db db' n.id :=
      h.activeChanged_iff n.id
    rw [← hchanged]
    exact ⟨fun hmem => if_pos hmem, fun hmem => if_neg hmem⟩
  relays := by rw [h.rest]; rfl
  routes := by rw [h.rest]; rfl
  sequence := by
    refine ⟨_, h.sequence rfl, ?_, ?_, ?_⟩
    · split <;> omega
    · intro kind hkind digits hdigits hall hmem
      have hle := h.number_le hkind hdigits hall hmem
      split <;> omega
    · intro store hstore store' n hnext kind hkind hmem
      have hn : n = store.entity + 1 := by
        unfold Db.next at hnext
        split at hnext
        · cases hnext
          rfl
        · cases hnext
      rw [Nat.repr_eq_ofList_toDigits] at hmem
      have hle := h.number_le hkind Nat.toDigits_ne_nil
        (List.all_eq_true.mpr fun c hc => Nat.isDigit_of_mem_toDigits (by decide) (by decide) hc) hmem
      rw [Nat.ofDigitChars_toDigits (by decide) (by decide)] at hle
      split at hstore <;> omega
  again := by
    have hsequence := h.sequence rfl
    have hseed : db'.seed = db' := by rw [seed, hsequence, Option.getD_some, ← hsequence]
    rw [migrate, hseed, h.again rfl]

/-- A migration fails with the tables as they were, or ends with all of them in order. -/
theorem migrate_failed_or_migrated (text : AddrText) (debug : String → String)
    (fault : Option Fault) (db : LegacyDb) :
    match db.migrate text debug fault with
    | (db', .error _) => db'.networks = db.networks ∧ db'.devices = db.devices ∧
        db'.relays = db.relays ∧ db'.routes = db.routes
    | (db', .ok ()) => Migrated text debug db db' := by
  unfold migrate
  cases fault with
  | some fault =>
    obtain ⟨seeded, error⟩ := fault
    cases seeded <;> exact ⟨rfl, rfl, rfl, rfl⟩
  | none =>
    cases honce : db.seed.migrateOnce text debug with
    | error e => exact ⟨rfl, rfl, rfl, rfl⟩
    | ok db' =>
      obtain ⟨value, scan, hcommit⟩ := commit_of_migrateOnce honce
      exact hcommit.migrated

end LegacyDb

end Fluxpeer.Control
