import Fluxpeer.Control.Epochs

/-!
# Configurations that are pulled

A call of `device_config` reads the epoch of the network before everything else that it returns of
it. Other calls write in between, but each of them makes its changes no later than it moves the
epoch on, so a configuration shows every change whose bump its epoch counts.
-/

namespace Fluxpeer.Control

open Lib Net

/-! ## What a pull is made of -/

/-- The peer that is made of a listed device, of the approved routes, and of reads of its endpoints
and its settings. -/
structure PeerReflects (texts : Texts) (read : Db → Prop) (approved : List (String × String))
    (d : Device) (p : PeerConfig) : Prop where
  wgPublicKey : p.wgPublicKey = d.wgPublicKey
  allowedIps : p.allowedIps = Control.allowedIps approved d
  endpoints : ∃ db, read db ∧ ∃ db', read db' ∧ p.endpoints =
    withOverride (texts.settings (db'.getDeviceSettings d.id)) (db.getDeviceEndpoints d.id)
  exit : p.exit = isExit texts approved d.id

/-- Every part of a configuration but the addresses of the device comes from a database that was
read. -/
structure Reflects (texts : Texts) (deviceId : String) (read : Db → Prop) (cfg : DeviceConfig) :
    Prop where
  relays : ∃ db, read db ∧ cfg.relays = db.listRelays cfg.networkId
  settings : ∃ db, read db ∧
    cfg.mtu = (texts.settings (db.getDeviceSettings deviceId)).mtu.map asI32 ∧
    cfg.dns = ((texts.settings (db.getDeviceSettings deviceId)).dns.getD []).filterMap id
  peers : ∃ db, read db ∧ ∃ db', read db' ∧
    cfg.selfExit = isExit texts (db.approvedRoutesForNetwork cfg.networkId) deviceId ∧
    List.Forall₂ (PeerReflects texts read (db.approvedRoutesForNetwork cfg.networkId))
      ((db'.listDevices cfg.networkId).filter fun d => d.id ≠ deviceId ∧ d.status = .active) cfg.peers

section

variable {texts : Texts} {deviceId : String} {seen rest : List Db} {cfg : DeviceConfig}
  {approved : List (String × String)} {read read' : Db → Prop} {p : PeerConfig}

lemma bind_eq_some {α β : Type} {x : Reads α} {k : α → Reads β} {b : β}
    (h : (x >>= k) seen = some (b, rest)) :
    ∃ a mid, x seen = some (a, mid) ∧ k a mid = some (b, rest) := by
  obtain ⟨⟨a, mid⟩, hx, hk⟩ := Option.bind_eq_some_iff.mp h
  exact ⟨a, mid, hx, hk⟩

lemma query_eq_some {α : Type} {f : Db → α} {a : α} (h : Reads.query f seen = some (a, rest)) :
    ∃ db, seen = db :: rest ∧ a = f db := by
  cases seen with
  | nil => cases h
  | cons db seen =>
    cases h
    exact ⟨db, rfl, rfl⟩

lemma peerConfig_eq_some {d : Device}
    (h : peerConfig texts Reads.query approved d seen = some (p, rest)) :
    ∃ db db', seen = db :: db' :: rest ∧
      PeerReflects texts (· ∈ [db, db']) approved d p := by
  obtain ⟨endpoints, mid, hendpoints, h⟩ := bind_eq_some h
  obtain ⟨db, rfl, rfl⟩ := query_eq_some hendpoints
  obtain ⟨settings, mid', hsettings, h⟩ := bind_eq_some h
  obtain ⟨db', rfl, rfl⟩ := query_eq_some hsettings
  cases h
  exact ⟨db, db', rfl, rfl, rfl, ⟨db, by simp, db', by simp, rfl⟩, rfl⟩

lemma PeerReflects.mono {d : Device} (h : PeerReflects texts read approved d p)
    (hread : ∀ db, read db → read' db) : PeerReflects texts read' approved d p := by
  obtain ⟨hkey, hips, ⟨db, hdb, db', hdb', heq⟩, hexit⟩ := h
  exact ⟨hkey, hips, ⟨db, hread db hdb, db', hread db' hdb', heq⟩, hexit⟩

/-- The reads for the peers, one device after the other. -/
lemma mapM_peerConfig {devices : List Device} {peers : List PeerConfig}
    (h : devices.mapM (peerConfig texts Reads.query approved) seen = some (peers, rest)) :
    ∃ used, seen = used ++ rest ∧
      List.Forall₂ (PeerReflects texts (· ∈ used) approved) devices peers := by
  induction devices generalizing seen peers with
  | nil =>
    cases h
    exact ⟨[], rfl, .nil⟩
  | cons d devices ih =>
    rw [List.mapM_cons] at h
    obtain ⟨p, mid, hp, h⟩ := bind_eq_some h
    obtain ⟨ps, mid', hps, h⟩ := bind_eq_some h
    cases h
    obtain ⟨db, db', rfl, hfirst⟩ := peerConfig_eq_some hp
    obtain ⟨used, rfl, hrest⟩ := ih hps
    refine ⟨db :: db' :: used, rfl, .cons (hfirst.mono ?_) (hrest.imp ?_)⟩
    · intro db₀ hdb₀
      simp only [List.mem_cons, List.not_mem_nil, or_false] at hdb₀ ⊢
      exact hdb₀.imp_right .inl
    · intro d p hp
      exact hp.mono fun db hdb => List.mem_cons_of_mem _ (List.mem_cons_of_mem _ hdb)

lemma Reflects.mono (h : Reflects texts deviceId read cfg) (hread : ∀ db, read db → read' db) :
    Reflects texts deviceId read' cfg where
  relays := by
    obtain ⟨db, hdb, heq⟩ := h.relays
    exact ⟨db, hread db hdb, heq⟩
  settings := by
    obtain ⟨db, hdb, heq⟩ := h.settings
    exact ⟨db, hread db hdb, heq⟩
  peers := by
    obtain ⟨db, hdb, db', hdb', hexit, hpeers⟩ := h.peers
    exact ⟨db, hread db hdb, db', hread db' hdb', hexit, hpeers.imp fun d p hp => hp.mono hread⟩

/-- A pull reads the device, then the network with its epoch, and then everything else. -/
lemma pulled_eq_some (h : pulled texts deviceId seen = some (.ok cfg, rest)) :
    ∃ db db' later, seen = db :: db' :: later ∧ db'.epoch cfg.networkId = some cfg.configEpoch ∧
      Reflects texts deviceId (· ∈ later) cfg := by
  obtain ⟨me?, mid, hme, h⟩ := bind_eq_some h
  obtain ⟨db, rfl, rfl⟩ := query_eq_some hme
  cases hget : db.getDevice deviceId with
  | none =>
    rw [hget] at h
    cases h
  | some me =>
    rw [hget] at h
    by_cases hactive : me.status ≠ .active
    · simp only [if_pos hactive] at h
      cases h
    simp only [if_neg hactive] at h
    obtain ⟨net?, mid, hnet, h⟩ := bind_eq_some h
    obtain ⟨db', rfl, rfl⟩ := query_eq_some hnet
    cases hgetNet : db'.getNetwork me.networkId with
    | none =>
      rw [hgetNet] at h
      cases h
    | some net =>
      rw [hgetNet] at h
      obtain ⟨cfg', mid, hcfg, heq⟩ := bind_eq_some h
      cases heq
      obtain ⟨approved, mid, hroutes, h₁⟩ := bind_eq_some hcfg
      obtain ⟨dbRoutes, rfl, rfl⟩ := query_eq_some hroutes
      obtain ⟨settings, mid, hsettings, h₂⟩ := bind_eq_some h₁
      obtain ⟨dbSettings, rfl, rfl⟩ := query_eq_some hsettings
      obtain ⟨devices, mid, hdevices, h₃⟩ := bind_eq_some h₂
      obtain ⟨dbDevices, rfl, rfl⟩ := query_eq_some hdevices
      obtain ⟨peers, mid, hread, h₄⟩ := bind_eq_some h₃
      obtain ⟨used, rfl, hpeers⟩ := mapM_peerConfig hread
      obtain ⟨relays, mid, hrelays, h₅⟩ := bind_eq_some h₄
      obtain ⟨dbRelays, rfl, rfl⟩ := query_eq_some hrelays
      cases h₅
      have hid : me.id = deviceId := by
        obtain ⟨d, -, hid, rfl⟩ := getDevice_eq_some hget
        exact hid
      subst hid
      refine ⟨db, db', _, rfl, ?_, ⟨?_, ?_, ?_⟩⟩
      · rw [Db.epoch, hgetNet]
        rfl
      · exact ⟨dbRelays, by simp, rfl⟩
      · exact ⟨dbSettings, by simp, rfl, rfl⟩
      · refine ⟨dbRoutes, by simp, dbDevices, by simp, rfl, hpeers.imp fun d p hp => ?_⟩
        exact hp.mono fun db₀ hdb₀ => by simp [hdb₀]

end

/-! ## What a call does after its bump -/

namespace Server

/-- A call that has nothing left to do but to tell the watchers. -/
structure Done (id : CallId) (s : Server) : Prop where
  begun : id < s.nextCall
  spent : ∀ r, s.calls id = some r → r.task.Spent

variable {text : AddrText} {n : String} {id : CallId} {s s' : Server}

lemma Done.step (h : s.Done id) {e : Event} (hstep : s.step text e = some s') : s'.Done id where
  begun := h.begun.trans_le (step_nextCall hstep).1
  spent r' hid := by
    rcases step_calls hstep hid with ⟨hold, -⟩ | ⟨env, r, -, hold, -, hnext⟩ | ⟨store, c, -, heq, -, -⟩
    · exact h.spent r' hold
    · exact ((h.spent r hold).step env).2 _ hnext
    · exact absurd heq h.begun.ne

/-- The step in which a call moves an epoch on is its last one that writes. -/
lemma Sound.done (h : s.Sound text) {env : Env} (hstep : s.step text (.advance id env) = some s')
    (hne : s'.db.epoch n ≠ s.db.epoch n) : s'.Done id := by
  obtain ⟨r, hid, rfl⟩ := Option.map_eq_some_iff.mp hstep
  refine ⟨?_, fun r' hr' => ?_⟩
  · refine (Nat.lt_of_not_le fun hle => ?_).trans_le (step_nextCall hstep).1
    rw [h.unused id hle] at hid
    cases hid
  · rw [advance_calls_self] at hr'
    obtain ⟨task, hnext, rfl⟩ := Option.map_eq_some_iff.mp hr'
    exact spent_of_epoch_ne hne hnext

lemma Done.db_eq (h : s.Done id) {env : Env} (hstep : s.step text (.advance id env) = some s') :
    s'.db = s.db := by
  obtain ⟨r, hid, rfl⟩ := Option.map_eq_some_iff.mp hstep
  exact ((h.spent r hid).step env).1

/-- The epoch of a network that was seen, from then on. -/
structure AtLeast (text : AddrText) (n : String) (e : Nat) (s : Server) : Prop where
  sound : s.Sound text
  known : s.Known n
  le : ∀ e', s.db.epoch n = some e' → e ≤ e'

lemma Sound.atLeast (h : s.Sound text) {e : Nat} (he : s.db.epoch n = some e) :
    s.AtLeast text n e := by
  refine ⟨h, h.known he, fun e' he' => ?_⟩
  cases he.symm.trans he'
  exact le_rfl

lemma AtLeast.step {e : Nat} (h : s.AtLeast text n e) {event : Event}
    (hstep : s.step text event = some s') : s'.AtLeast text n e where
  sound := h.sound.step hstep
  known := h.known.step h.sound hstep
  le e' he' := by
    obtain ⟨e₀, hle, he₀⟩ := h.known.epoch_le h.sound hstep he'
    exact (h.le e₀ he₀).trans hle

/-- From every state of every run on, the epoch of a network does not fall, and a network that is
gone does not come back. -/
theorem epochs_rise (text : AddrText) (n : String) (e : Nat) (es es' es'' : List Event) :
    Always (step text) (fun s => s.db.epoch n = some e → Always (step text) (fun s' =>
      (∀ e', s'.db.epoch n = some e' → e ≤ e') ∧
      (s'.db.epoch n = none → Always (step text) (fun s'' => s''.db.epoch n = none) s' es'')) s es')
      init es := by
  refine always_of_forall (fun _ _ _ hs hstep => hs.step hstep) (fun s hs he => ?_) init_sound
  refine always_of_forall (fun _ _ _ h hstep => h.step hstep) (fun s' h => ⟨h.le, fun hgone => ?_⟩)
    (hs.atLeast he)
  refine always_of_forall ?_ (fun _ => And.right) (And.intro h hgone)
  rintro s₁ event s₂ ⟨h₁, hgone₁⟩ hstep
  refine ⟨h₁.step hstep, Option.eq_none_iff_forall_ne_some.mpr fun e' he' => ?_⟩
  obtain ⟨e₀, -, he₀⟩ := h₁.known.epoch_le h₁.sound hstep he'
  cases hgone₁.symm.trans he₀

end Server

section

variable {text : AddrText} {n : String} {es : List Event} {state : Nat → Server}

/-- A call changes what a network shows no later than it moves the epoch on. -/
lemma change_le_bump (hstates : StatesOf (Server.step text) .init es state) {id : CallId}
    {i j : Nat} {env env' : Env} (hi : es[i]? = some (.advance id env))
    (hj : es[j]? = some (.advance id env'))
    (hchange : (state (i + 1)).db.view n ≠ (state i).db.view n)
    (hbump : (state (j + 1)).db.epoch n ≠ (state j).db.epoch n) : i ≤ j := by
  by_contra hlt
  have hilen : i ≤ es.length := (List.getElem?_eq_some_iff.mp hi).1.le
  have hsound : (state j).Sound text := Server.sound_of_run (hstates j (by omega))
  have hdone : (state i).Done id :=
    hstates.inv_from (fun _ _ _ h hstep => h.step hstep) (Nat.lt_of_not_le hlt) hilen
      (hsound.done (hstates.step_at hj) hbump)
  exact hchange (by rw [hdone.db_eq (hstates.step_at hi)])

/-- A bump that an epoch counts came before the epoch. -/
lemma bump_lt_of_le (hstates : StatesOf (Server.step text) .init es state) {first j e e' : Nat}
    (hfirst : (state first).db.epoch n = some e) (hlen : first ≤ es.length) {event : Event}
    (hj : es[j]? = some event) (hbump : (state (j + 1)).db.epoch n ≠ (state j).db.epoch n)
    (he' : (state (j + 1)).db.epoch n = some e') (hle : e' ≤ e) : j < first := by
  by_contra hge
  have hjlen : j ≤ es.length := (List.getElem?_eq_some_iff.mp hj).1.le
  have hatLeast : (state j).AtLeast text n e :=
    hstates.inv_from (fun _ _ _ h hstep => h.step hstep) (Nat.le_of_not_lt hge) hjlen
      ((Server.sound_of_run (hstates first hlen)).atLeast hfirst)
  obtain ⟨eⱼ, hle', heⱼ⟩ := hatLeast.known.epoch_le hatLeast.sound (hstates.step_at hj) he'
  have hge' := hatLeast.le eⱼ heⱼ
  exact hbump (by rw [he', heⱼ]; congr 1; omega)

end

/-- A configuration that is pulled with an epoch, its reads at any positions of a run one after the
other, is made of databases not older than the first with that epoch; and every change whose call
has made its bump within that epoch was there before. -/
theorem pulled_reflects_epoch (texts : Texts) (es : List Event) (state : Nat → Server)
    (hstates : StatesOf (Server.step texts.addr) .init es state) (deviceId : String)
    (reads : List Nat) (hreads : reads.Pairwise (· ≤ ·)) (hbound : ∀ k ∈ reads, k ≤ es.length)
    (cfg : DeviceConfig) (rest : List Db)
    (hpulled : pulled texts deviceId (reads.map fun k => (state k).db) = some (.ok cfg, rest)) :
    ∃ first ≤ es.length, (state first).db.epoch cfg.networkId = some cfg.configEpoch ∧
      (∀ k < first, (state k).db.epoch cfg.networkId ≠ some cfg.configEpoch) ∧
      Reflects texts deviceId (fun db => ∃ k, first ≤ k ∧ k ≤ es.length ∧ db = (state k).db) cfg ∧
      ∀ id i j env env' e, es[i]? = some (.advance id env) → es[j]? = some (.advance id env') →
        (state (i + 1)).db.view cfg.networkId ≠ (state i).db.view cfg.networkId →
        (state (j + 1)).db.epoch cfg.networkId ≠ (state j).db.epoch cfg.networkId →
        (state (j + 1)).db.epoch cfg.networkId = some e → e ≤ cfg.configEpoch → i < first := by
  obtain ⟨db, db', later, hseen, hepoch, hreflects⟩ := pulled_eq_some hpulled
  obtain ⟨k₀, reads₁, rfl, -, hseen₁⟩ := List.map_eq_cons_iff.mp hseen
  obtain ⟨k₁, reads₂, rfl, rfl, rfl⟩ := List.map_eq_cons_iff.mp hseen₁
  obtain ⟨-, hreads₁⟩ := List.pairwise_cons.mp hreads
  obtain ⟨hafter, -⟩ := List.pairwise_cons.mp hreads₁
  -- The network was read at `k₁`, so its epoch was that by then.
  have hexists : ∃ k, (state k).db.epoch cfg.networkId = some cfg.configEpoch := ⟨k₁, hepoch⟩
  have hle : Nat.find hexists ≤ k₁ := Nat.find_min' hexists hepoch
  have hk₁ : k₁ ≤ es.length := hbound k₁ (by simp)
  refine ⟨Nat.find hexists, hle.trans hk₁, Nat.find_spec hexists, fun k hk => Nat.find_min hexists hk,
    hreflects.mono ?_, ?_⟩
  · intro db hdb
    obtain ⟨k, hk, rfl⟩ := List.mem_map.mp hdb
    exact ⟨k, hle.trans (hafter k hk), hbound k (by simp [hk]), rfl⟩
  · intro id i j env env' e hi hj hchange hbump he hle'
    have hij := change_le_bump hstates hi hj hchange hbump
    have hj := bump_lt_of_le hstates (Nat.find_spec hexists) (hle.trans hk₁) hj hbump he hle'
    omega

/-- The states of a run in which a network is created and a device imported. -/
def importState (k : Nat) : Server :=
  (runFrom (Server.step plainTexts.addr) .init ((overlookedRun.take 8).take k)).getD .init

/-- The device is pulled while its import tells the watchers. -/
theorem pulled_reflects_epoch_importState :
    ∃ cfg rest, pulled plainTexts "dev-2" ([6, 6, 7, 7, 8, 8].map fun k => (importState k).db) =
        some (.ok cfg, rest) ∧
      ∃ first ≤ 8, (importState first).db.epoch cfg.networkId = some cfg.configEpoch ∧
        Reflects plainTexts "dev-2"
          (fun db => ∃ k, first ≤ k ∧ k ≤ 8 ∧ db = (importState k).db) cfg := by
  have hstates : StatesOf (Server.step plainTexts.addr) .init (overlookedRun.take 8) importState :=
    statesOf_of_isSome (by decide +kernel)
  have hok : (pulled plainTexts "dev-2" ([6, 6, 7, 7, 8, 8].map fun k => (importState k).db)).any
      (fun result => result.1.isOk) = true := by decide +kernel
  cases hpulled : pulled plainTexts "dev-2" ([6, 6, 7, 7, 8, 8].map fun k => (importState k).db) with
  | none =>
    rw [hpulled] at hok
    cases hok
  | some result =>
    obtain ⟨result, rest⟩ := result
    rw [hpulled] at hok
    cases result with
    | error e => cases hok
    | ok cfg =>
      obtain ⟨first, hle, hfirst, -, hreflects, -⟩ := pulled_reflects_epoch plainTexts
        (overlookedRun.take 8) importState hstates "dev-2" [6, 6, 7, 7, 8, 8] (by decide) (by decide)
        cfg rest hpulled
      exact ⟨cfg, rest, rfl, first, hle, hfirst, hreflects⟩

end Fluxpeer.Control
