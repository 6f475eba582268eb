import Fluxpeer.Control.RouteRequests

/-!
# What a route request can do

The commit of a route request leaves approved routes, the routes of other devices and every
configuration alone, and adds no route that the device has in another spelling: stored prefixes are
in one form, and prefixes in that form with the same addresses are the same text.
-/

namespace Fluxpeer.Control

open Lib Net IpPrefix Table

/-! ## Prefixes in their stored form -/

/-- The text is one that `normalize_prefix` gives. -/
def Normal (text : AddrText) (cidr : String) : Prop := ∃ p, cidr = IpPrefix.display text p

section

variable {text : AddrText}

lemma fromStr_display (p : IpPrefix) : fromStr text (display text p) = some p := by
  have hsplit : splitOnce '/' (display text p) =
      some (text.display p.network, Nat.repr p.length) :=
    splitOnce_of_append (by simp [display]) (text.display_slash _)
  have hlength : p.length < 256 := by
    have := p.length_le
    unfold IpAddr.width at this
    split at this <;> omega
  have hof : ofAddr p.network p.length = some p := by
    rw [ofAddr, dif_pos p.length_le]
    obtain ⟨network, length, hle, hmasked⟩ := p
    simp only [hmasked]
  simp only [fromStr, hsplit, parseU8_repr hlength, Option.map_some, Option.bind_eq_bind,
    Option.bind_some, text.parse_display, Option.getD_some, hof]

lemma normal_of_normalizePrefix {value cidr : String} (h : normalizePrefix text value = some cidr) :
    Normal text cidr := by
  unfold normalizePrefix at h
  split at h
  · obtain ⟨p, -, rfl⟩ := Option.map_eq_some_iff.mp h
    exact ⟨p, rfl⟩
  · cases h

end

/-! ## The transaction as one step -/

/-- What a route request does when it succeeds. -/
structure Contained (texts : Texts) (c : RouteChange) (db db' : Db) : Prop where
  approved : ∀ r ∈ db.routes.rows, r.approved = true → r ∈ db'.routes.rows
  others : ∀ r, r.deviceId ≠ c.device → (r ∈ db'.routes.rows ↔ r ∈ db.routes.rows)
  unchanged : Unchanged texts db db'
  /-- A new row has addresses that no row of the device has. -/
  fresh : ∀ r ∈ db'.routes.rows, r ∉ db.routes.rows →
    ∃ p, IpPrefix.fromStr texts.addr r.cidr = some p ∧ ∀ r' ∈ db.routes.rows, r'.deviceId = c.device →
      ∃ q, IpPrefix.fromStr texts.addr r'.cidr = some q ∧ ∃ a, p.contains a ≠ q.contains a
  token : c.token ≠ "" ∧ db.getDeviceToken c.device = some c.token

section

variable {texts : Texts} {c : RouteChange} {db db' : Db}

lemma Unchanged.of_unseen (h : ∀ n, Unseen n db db') : Unchanged texts db db' := by
  refine ⟨fun id => ?_, fun n => (h n).epoch⟩
  by_cases hactive : ∃ n, db.ActiveIn n id
  · obtain ⟨n, hactive⟩ := hactive
    exact (deviceConfig_congr texts (h n).view (h n).epoch hactive).2
  have hback : ∀ n, ¬ db'.ActiveIn n id := by
    intro n hactive'
    exact hactive ⟨n, (deviceConfig_congr texts (h n).view.symm (h n).epoch.symm hactive').1⟩
  rw [deviceConfig_of_not_active, deviceConfig_of_not_active]
  · exact fun d hd hid hd' => hactive ⟨d.networkId, d, hd, hid, rfl, hd'⟩
  · exact fun d hd hid hd' => hback d.networkId ⟨d, hd, hid, rfl, hd'⟩

lemma contained_of_deviceRouteChangeOnce {routes : List Route}
    (hnormal : ∀ r ∈ db.routes.rows, Normal texts.addr r.cidr)
    (h : db.deviceRouteChangeOnce texts.addr c.device c.token c.cidr c.withdraw = .ok (db', routes)) :
    Contained texts c db db' := by
  obtain ⟨device, token, cidr, withdraw, attempt⟩ := c
  cases deviceRouteChangeOnce_commits "" h with
  | withdrawRoute authorized =>
    refine ⟨?_, ?_, .of_unseen fun _ => unseen_deleteRoutes ?_, ?_, authorized⟩
    · intro r hr happroved
      refine mem_delete.mpr ⟨hr, decide_eq_false fun hmatch => ?_⟩
      rw [happroved] at hmatch
      cases hmatch.2.2
    · intro r hdevice
      refine ⟨fun hr => (mem_delete.mp hr).1, fun hr => ?_⟩
      exact mem_delete.mpr ⟨hr, decide_eq_false fun hmatch => hdevice hmatch.1⟩
    · exact fun r _ hp _ => (of_decide_eq_true hp).2.2
    · intro r hr hnew
      exact absurd (mem_delete.mp hr).1 hnew
  | keepRoute authorized =>
    exact ⟨fun _ hr _ => hr, fun _ _ => Iff.rfl, .of_unseen fun _ => .refl db,
      fun r hr hnew => absurd hr hnew, authorized⟩
  | @requestRoute _ _ _ cidr' _ route _ authorized normal absent add =>
    have hunchanged : Unchanged texts db db' := .of_unseen fun _ => unseen_addRoute add
    obtain ⟨rows, hinsert, hroute, rfl⟩ := addRoute_eq_ok add
    have hrows : ∀ {r}, r ∈ rows.rows ↔ r ∈ db.routes.rows ∨ r = route := mem_insert? hinsert
    refine ⟨fun r hr _ => hrows.mpr (.inl hr), ?_, hunchanged, ?_, authorized⟩
    · intro r hdevice
      rw [show r ∈ rows.rows ↔ _ from hrows, or_iff_left]
      rintro rfl
      exact hdevice (by rw [hroute])
    · intro r hr hnew
      obtain rfl := (hrows.mp hr).resolve_left hnew
      obtain ⟨p, hp⟩ := normal_of_normalizePrefix normal
      refine ⟨p, by rw [hroute, hp, fromStr_display], fun r' hr' hdevice => ?_⟩
      obtain ⟨q, hq⟩ := hnormal r' hr'
      refine ⟨q, by rw [hq, fromStr_display], ?_⟩
      -- one set of addresses is one prefix, and one prefix is one text
      by_contra hsame
      have hpq : p = q := ext_contains fun a => by
        by_contra hne
        exact hsame ⟨a, hne⟩
      have hlisted : r' ∈ db.listRoutesForDevice device :=
        List.mem_filterMap.mpr ⟨r', hr', if_pos hdevice⟩
      refine absent (List.any_eq_true.mpr ⟨r', hlisted, ?_⟩)
      exact decide_eq_true (by rw [hq, hp, hpq])

end

/-! ## Stored prefixes -/

/-- Every prefix in the route table is in the stored form. -/
def Db.Normalized (text : AddrText) (db : Db) : Prop := ∀ r ∈ db.routes.rows, Normal text r.cidr

section

variable {text : AddrText} {draw : String} {db db' : Db}

lemma Db.Normalized.of_eq (h : db.Normalized text) (hroutes : db'.routes = db.routes) :
    db'.Normalized text := by
  intro r hr
  rw [hroutes] at hr
  exact h r hr

lemma Db.Normalized.addRoute {networkId deviceId value cidr : String} {route : Route}
    (h : db.Normalized text) (hnormal : normalizePrefix text value = some cidr)
    (hadd : db.addRoute networkId deviceId cidr = .ok (db', route)) : db'.Normalized text := by
  obtain ⟨routes, hinsert, hroute, rfl⟩ := addRoute_eq_ok hadd
  intro r hr
  rcases (mem_insert? hinsert).mp hr with hr | rfl
  · exact h r hr
  · rw [hroute]
    exact normal_of_normalizePrefix hnormal

lemma routes_foldl_bumpNetworkEpoch (ids : List String) (db : Db) :
    (ids.foldl Db.bumpNetworkEpoch db).routes = db.routes := by
  induction ids generalizing db with
  | nil => rfl
  | cons id ids ih => exact ih (db.bumpNetworkEpoch id)

lemma Imports.routes {networkId : String} {seen : List String}
    {items : List (ImportDevice × String)} {created : List Device}
    (h : Imports networkId db seen items db' created) : db'.routes = db.routes := by
  induction h with
  | nil => rfl
  | skip known rest ih => exact ih
  | create new row insert rest ih =>
    obtain ⟨_, _, -, -, rfl⟩ := insertDevice_eq_ok insert
    exact ih

lemma Db.Normalized.commits {tx : Transaction} {next : Option Task} (h : db.Normalized text)
    (hcommits : tx.Commits text draw db db' next) : db'.Normalized text := by
  cases hcommits with
  | deleteNetwork | withdrawRoute => exact fun r hr => h r (mem_delete.mp hr).1
  | enroll invited consumed stored parsed inRange free row insert =>
    obtain ⟨_, _, -, -, rfl⟩ := insertDevice_eq_ok insert
    exact h.of_eq rfl
  | importDevices stored imports => exact h.of_eq imports.routes
  | advertiseRoute normal add => exact h.addRoute normal add
  | requestRoute authorized normal absent add => exact h.addRoute normal add
  | registerRelay insert =>
    obtain ⟨relays, -, rfl⟩ := insertRelay_eq_ok insert
    exact h.of_eq (routes_foldl_bumpNetworkEpoch _ _)
  | updateRelay => exact h.of_eq (routes_foldl_bumpNetworkEpoch _ _)
  | _ => exact h.of_eq rfl

lemma Db.Normalized.writes {task : Task} (h : db.Normalized text)
    (hwrites : task.Writes text draw db db') : db'.Normalized text := by
  cases hwrites with
  | commits hcommits => exact h.commits hcommits
  | approve =>
    intro r' hr'
    obtain ⟨r, hr, rfl⟩ := List.mem_map.mp hr'
    split <;> exact h r hr
  | delete => exact fun r hr => h r (mem_delete.mp hr).1
  | _ => exact h.of_eq rfl

end

/-! ## Runs -/

namespace Requests

variable {text : AddrText} {s s' : Requests} {fault : Option DbError}

structure Sound (text : AddrText) (s : Requests) : Prop where
  normalized : s.db.Normalized text
  ids : ∀ id c, s.changes id = some c → id < s.nextCall
  held : ∀ h, s.held = some h →
    ∃ c, s.changes h.id = some c ∧ c.Holds text s.db h.locked h.phase

lemma sound_init : (init).Sound text where
  normalized := nofun
  ids := nofun
  held := nofun

/-- The database with the edit of a transaction at its commit. -/
lemma Sound.commit (h : s.Sound text) {held : Held} {c : RouteChange} {db' : Db}
    {routes : List Route} (hheld : s.held = some held) (hc : s.changes held.id = some c)
    (hout : s.outcome text held c fault = .done db' routes) :
    ∃ routes', s.db.deviceRouteChangeOnce text c.device c.token c.cidr c.withdraw =
      .ok (db', routes') := by
  obtain ⟨c', hc', hholds⟩ := h.held held hheld
  rw [hc] at hc'
  cases hc'
  unfold outcome at hout
  split at hout
  · cases hout
  cases hphase : held.phase with
  | commit edit routes =>
    rw [hphase] at hout hholds
    obtain ⟨cidr, hlocks, hjustifies⟩ := hholds
    simp only [RouteChange.run] at hout
    split at hout
    · cases hout
    · next happly =>
      cases hout
      exact hjustifies.apply hlocks happly
  | token =>
    rw [hphase] at hout
    simp only [RouteChange.run] at hout
    split at hout
    · cases hout
    · split at hout <;> cases hout
  | list cidr =>
    rw [hphase] at hout
    simp only [RouteChange.run] at hout
    split at hout <;> split at hout <;> cases hout
  | device | next | insert | relist =>
    rw [hphase] at hout
    simp only [RouteChange.run] at hout
    split at hout <;> cases hout
  | known | lock | delete =>
    rw [hphase] at hout
    cases hout

lemma Sound.rollback (h : s.Sound text) (id : CallId) (c : RouteChange) (e : SqlStoreError)
    (hc : s.changes id = some c) : (s.rollback id c e).Sound text where
  normalized := h.normalized
  ids id' c' hid := by
    change Function.update s.changes id _ id' = some c' at hid
    by_cases heq : id' = id
    · subst heq
      exact h.ids id' c hc
    · rw [Function.update_of_ne heq] at hid
      exact h.ids id' c' hid
  held := nofun

lemma Sound.settle (h : s.Sound text) {held : Held} {c : RouteChange} (hheld : s.held = some held)
    (hc : s.changes held.id = some c) :
    (s.settle held c (s.outcome text held c fault)).Sound text := by
  cases hout : s.outcome text held c fault with
  | go phase more =>
    refine ⟨h.normalized, h.ids, fun held' hheld' => ?_⟩
    cases hheld'
    refine ⟨c, hc, ?_⟩
    obtain ⟨c', hc', hholds⟩ := h.held held hheld
    rw [hc] at hc'
    cases hc'
    unfold outcome at hout
    split at hout
    · cases hout
    · exact hholds.go hout
  | fail e => exact h.rollback held.id c e hc
  | done db' routes =>
    obtain ⟨routes', hatomic⟩ := h.commit hheld hc hout
    refine ⟨h.normalized.commits (deviceRouteChangeOnce_commits "" hatomic), fun id' c' hid => ?_, nofun⟩
    change Function.update s.changes held.id none id' = some c' at hid
    by_cases heq : id' = held.id
    · subst heq
      rw [Function.update_self] at hid
      cases hid
    · rw [Function.update_of_ne heq] at hid
      exact h.ids id' c' hid

/-- What others commit is quiet while the lock is held. -/
lemma Sound.advance (h : s.Sound text) {id : CallId} {env : Env} {task : Task}
    (hwaits : task.Waits s.held = false) (next : Option Task) :
    Sound text { s with
      db := (task.step text env s.db).1, calls := Function.update s.calls id next } := by
  refine ⟨h.normalized.writes (task.writes text s.db env), h.ids, fun held hheld => ?_⟩
  obtain ⟨c, hc, hholds⟩ := h.held held hheld
  rw [show s.held = some held from hheld] at hwaits
  exact ⟨c, hc, hholds.quiet ((task.writes text s.db env).quiet hwaits)⟩

lemma Sound.step {e : Event} (h : s.Sound text) (hstep : s.step text e = some s') :
    s'.Sound text := by
  cases e with
  | request device token cidr withdraw =>
    cases hstep
    refine ⟨h.normalized, ?_, ?_⟩
    · intro id c hid
      change Function.update s.changes s.nextCall _ id = some c at hid
      by_cases heq : id = s.nextCall
      · subst heq
        exact Nat.lt_succ_self _
      · rw [Function.update_of_ne heq] at hid
        exact (h.ids id c hid).trans (Nat.lt_succ_self _)
    · intro held hheld
      obtain ⟨c, hc, hholds⟩ := h.held held hheld
      refine ⟨c, ?_, hholds⟩
      exact (Function.update_of_ne (h.ids _ _ hc).ne _ _).trans hc
  | begin id fault =>
    simp only [Requests.step] at hstep
    split at hstep
    · next c _ hc =>
      split at hstep
      · cases hstep
        exact h.rollback id c _ hc
      cases hstep
      refine ⟨h.normalized, h.ids, fun held hheld => ?_⟩
      cases hheld
      exact ⟨c, hc, trivial⟩
    · cases hstep
  | statement fault =>
    simp only [Requests.step] at hstep
    split at hstep
    · cases hstep
    · next held hheld =>
      obtain ⟨c, hc, rfl⟩ := Option.map_eq_some_iff.mp hstep
      exact h.settle hheld hc
  | call idx c =>
    simp only [Requests.step] at hstep
    split at hstep
    · cases hstep
    · cases hstep
      exact ⟨h.normalized, fun id c hid => (h.ids id c hid).trans (Nat.lt_succ_self _), h.held⟩
  | advance id env =>
    simp only [Requests.step] at hstep
    split at hstep
    · cases hstep
    next task _ =>
    split at hstep
    · cases hstep
    next hwaits =>
    split at hstep
    · cases hstep
      exact ⟨h.normalized, h.ids, h.held⟩
    · cases hstep
      exact h.advance (Bool.eq_false_iff.mpr hwaits) _

/-! ## Results of calls -/

/-- What a call with an error returns, unless it tries again. -/
def returned (c : RouteChange) (e : SqlStoreError) : Option (RouteChange × Except SqlStoreError (List Route)) :=
  if (nextAttempt false c.attempt e).isSome then none else some (c, .error e)

variable (text) in
def result (s : Requests) : Event → Option (RouteChange × Except SqlStoreError (List Route))
  | .begin id fault => (s.changes id).bind fun c => fault.bind fun e => returned c (.db e)
  | .statement fault => s.held.bind fun h => (s.changes h.id).bind fun c =>
    match s.outcome text h c fault with
    | .go .. => none
    | .fail e => returned c e
    | .done _ routes => some (c, .ok routes)
  | _ => none

def Event.isRequest : Event → Bool
  | .request .. | .begin .. | .statement _ => true
  | .call .. | .advance .. => false

lemma returned_ne_ok (c c' : RouteChange) (e : SqlStoreError) (routes : List Route) :
    returned c e ≠ some (c', .ok routes) := by
  unfold returned
  split <;> simp

lemma Sound.contained {texts : Texts} {e : Event} (h : s.Sound texts.addr)
    (hstep : s.step texts.addr e = some s') :
    (∀ c routes, s.result texts.addr e = some (c, .ok routes) → Contained texts c s.db s'.db) ∧
      (e.isRequest = true → (∀ c routes, s.result texts.addr e ≠ some (c, .ok routes)) →
        s'.db = s.db) := by
  cases e with
  | request device token cidr withdraw =>
    cases hstep
    exact ⟨nofun, fun _ _ => rfl⟩
  | begin id fault =>
    have herror : ∀ c routes, s.result texts.addr (.begin id fault) ≠ some (c, .ok routes) := by
      intro c routes hresult
      obtain ⟨c', -, hresult⟩ := Option.bind_eq_some_iff.mp hresult
      obtain ⟨e, -, hresult⟩ := Option.bind_eq_some_iff.mp hresult
      exact returned_ne_ok _ _ _ _ hresult
    refine ⟨fun c routes hresult => absurd hresult (herror c routes), fun _ _ => ?_⟩
    simp only [Requests.step] at hstep
    split at hstep
    · split at hstep <;> cases hstep <;> rfl
    · cases hstep
  | statement fault =>
    simp only [Requests.step] at hstep
    split at hstep
    · cases hstep
    next held hheld =>
    obtain ⟨c, hc, rfl⟩ := Option.map_eq_some_iff.mp hstep
    have hresult : s.result texts.addr (.statement fault) =
        match s.outcome texts.addr held c fault with
        | .go .. => none
        | .fail e => returned c e
        | .done _ routes => some (c, .ok routes) := by
      rw [result, hheld, Option.bind_some, hc, Option.bind_some]
    rw [hresult]
    cases hout : s.outcome texts.addr held c fault with
    | go phase more => exact ⟨nofun, fun _ _ => rfl⟩
    | fail e => exact ⟨fun c' routes h => absurd h (returned_ne_ok c c' e routes), fun _ _ => rfl⟩
    | done db' routes =>
      refine ⟨fun c' routes' hok => ?_, fun _ hne => absurd rfl (hne c routes)⟩
      cases hok
      obtain ⟨routes', hatomic⟩ := h.commit hheld hc hout
      exact contained_of_deviceRouteChangeOnce h.normalized hatomic
  | call idx c => exact ⟨nofun, nofun⟩
  | advance id env => exact ⟨nofun, nofun⟩

/-- In every interleaving, a request changes the database in the step in which it returns a list of
routes, and what it does then is contained; in all other steps it changes nothing. -/
theorem route_requests_contained (texts : Texts) (es : List Event) :
    EveryStep (step texts.addr) (fun s e s' =>
      (∀ c routes, s.result texts.addr e = some (c, .ok routes) → Contained texts c s.db s'.db) ∧
      (e.isRequest = true → (∀ c routes, s.result texts.addr e ≠ some (c, .ok routes)) →
        s'.db = s.db)) init es := by
  have hkeep : ∀ s e s', Sound texts.addr s → step texts.addr s e = some s' → True →
      Sound texts.addr s' := fun _ _ _ h hstep _ => h.step hstep
  exact everyStep_of_inv hkeep (fun _ _ _ h hstep _ => h.contained hstep) sound_init
    (everyStep_of_forall fun _ _ _ _ => trivial)

end Requests

end Fluxpeer.Control
