import Fluxpeer.Relay.Auth

/-!
# The registry of bonds

A call of `accept` for link 0 has its bond reserved while it authenticates, and no other call has; the
session it registers is the only active one of its bond. `Turn` and `Opens` say what an input and the
first part of a call can do to a call and to the registry, and the invariants follow from them.
-/

namespace Fluxpeer.Relay.Auth

open Lib Crypto HashMap

/-! ## What a step does to the sessions -/

namespace Sessions

variable {h h' : Sessions} {sid : Nat}

/-- Sessions keep their keys, and none comes back. -/
def Le (h h' : Sessions) : Prop :=
  ∀ sid a, h.lookup sid = some a →
    ∃ a', h'.lookup sid = some a' ∧ a'.session.key = a.session.key ∧ (a'.usable → a.usable)

lemma Le.refl (h : Sessions) : Le h h := fun _ a ha => ⟨a, ha, rfl, id⟩

lemma Le.usable (hle : Le h h') (hsid : (h.lookup sid).isSome) (huse : h'.usable sid = true) :
    h.usable sid = true := by
  obtain ⟨a, ha⟩ := Option.isSome_iff_exists.mp hsid
  obtain ⟨a', ha', -, hback⟩ := hle sid a ha
  rw [Sessions.usable, ha'] at huse
  rw [Sessions.usable, ha]
  exact hback huse

lemma Le.isSome (hle : Le h h') (hsid : (h.lookup sid).isSome) : (h'.lookup sid).isSome := by
  obtain ⟨a, ha⟩ := Option.isSome_iff_exists.mp hsid
  obtain ⟨a', ha', -⟩ := hle sid a ha
  rw [ha']
  rfl

lemma lookup_modify (f : Arc → Arc) (sid' : Nat) :
    (h.modify sid f).lookup sid' = if sid' = sid then (h.lookup sid).map f else h.lookup sid' := by
  unfold modify
  split
  · next hnone =>
    rw [hnone, Option.map_none]
    split
    · next heq => rw [heq, hnone]
    · rfl
  · next a ha => rw [lookup_insert, ha, Option.map_some]

lemma le_modify {f : Arc → Arc}
    (hf : ∀ a, h.lookup sid = some a →
      (f a).session.key = a.session.key ∧ ((f a).usable → a.usable)) : Le h (h.modify sid f) := by
  intro sid' a ha
  rw [lookup_modify]
  split
  · next heq =>
    subst heq
    obtain ⟨hkey, hback⟩ := hf a ha
    exact ⟨f a, by rw [ha, Option.map_some], hkey, hback⟩
  · exact ⟨a, ha, rfl, id⟩

lemma le_clone (hrefs : ∀ a, h.lookup sid = some a → 0 < a.refs) : Le h (h.clone sid) := by
  refine le_modify fun a ha => ⟨rfl, ?_⟩
  simp [Arc.usable, hrefs a ha]

lemma le_drop : Le h (h.drop sid) := by
  refine le_modify fun a _ => ⟨rfl, ?_⟩
  simp only [Arc.usable, Bool.and_eq_true, decide_eq_true_eq]
  exact fun ⟨hactive, hrefs⟩ => ⟨hactive, by omega⟩

lemma le_invalidate :
    Le h (h.modify sid fun a => { a with session := a.session.invalidate }) := by
  refine le_modify fun a _ => ⟨rfl, ?_⟩
  simp [Arc.usable, Session.invalidate]

lemma le_insert {a : Arc} (hfresh : h.lookup sid = none) : Le h (h.insert sid a) := by
  intro sid' a' ha'
  have hne : sid' ≠ sid := by
    rintro rfl
    cases hfresh.symm.trans ha'
  exact ⟨a', by rw [lookup_insert, if_neg hne, ha'], rfl, id⟩

/-- No session has a number from `n` on. -/
def Below (h : Sessions) (n : Nat) : Prop := ∀ sid, n ≤ sid → h.lookup sid = none

lemma Below.modify {n : Nat} (hbelow : Below h n) (f : Arc → Arc) : Below (h.modify sid f) n := by
  intro sid' hle
  rw [lookup_modify]
  split
  · next heq => rw [← heq, hbelow sid' hle, Option.map_none]
  · exact hbelow sid' hle

end Sessions

namespace ServerAuth

variable {P : Primitives} {s s' : ServerAuth} {id : Nat} {r r' : Running} {input : Input}
  {failure : Option Failure} {call : Call}

/-! ## What an input does to a call -/

/-- What a call does with an input, one case for each way through the source. -/
inductive Moves (P : Primitives) (s : ServerAuth) (id : Nat) (r : Running) : Input → ServerAuth → Prop
  | version {version : UInt32} {peer : Key} (stage : r.stage = .hello) (ne : version ≠ 2) :
      Moves P s id r (.hello version peer) (s.fail id r .version)
  | weak {version : UInt32} {peer : Key} (stage : r.stage = .hello)
      (shared : Auth.shared P s.secret peer = none) :
      Moves P s id r (.hello version peer) (s.fail id r .nonContributory)
  | hello {peer sh : Key} (stage : r.stage = .hello) (shared : Auth.shared P s.secret peer = some sh) :
      Moves P s id r (.hello 2 peer) (s.put id { r with stage := .challenge peer sh })
  | undrawn {written : Bool} (stage : (∃ peer sh, r.stage = .challenge peer sh) ∨ r.stage = .linkChallenge) :
      Moves P s id r (.draw none written) (s.fail id r .io)
  | unwritten {nonce : Key}
      (stage : (∃ peer sh, r.stage = .challenge peer sh) ∨ r.stage = .linkChallenge) :
      Moves P s id r (.draw (some nonce) false) (s.fail id { r with challenge := some nonce } .io)
  | challenge {peer sh nonce : Key} (stage : r.stage = .challenge peer sh) :
      Moves P s id r (.draw (some nonce) true)
        (s.put id { r with challenge := some nonce, stage := .proof peer sh nonce })
  | linkChallenge {nonce : Key} (stage : r.stage = .linkChallenge) :
      Moves P s id r (.draw (some nonce) true)
        (s.put id { r with challenge := some nonce, stage := .linkProof nonce })
  | proof {peer sh challenge : Key} (stage : r.stage = .proof peer sh challenge) :
      Moves P s id r (.proof (tag P sh (authMessage challenge peer)))
        (s.create id r (.new peer (tag P sh (keyMessage r.call.bond challenge))))
  | unproved {peer sh challenge proof : Key} (stage : r.stage = .proof peer sh challenge)
      (ne : proof ≠ tag P sh (authMessage challenge peer)) :
      Moves P s id r (.proof proof) (s.fail id r .identityProof)
  | linkProof {challenge : Key} {session : Session} (stage : r.stage = .linkProof challenge)
      (found : s.session r = some session) (active : session.active = true) :
      Moves P s id r (.proof (tag P session.key (linkMessage challenge r.call.bond r.call.index)))
        (s.put id { r with stage := .confirm challenge })
  | linkUnproved {challenge proof : Key} {session : Session} (stage : r.stage = .linkProof challenge)
      (found : s.session r = some session)
      (ne : proof ≠ tag P session.key (linkMessage challenge r.call.bond r.call.index)) :
      Moves P s id r (.proof proof) (s.fail id r .linkProof)
  | register {sid : Nat} (stage : r.stage = .register) (session : r.session = some sid) :
      Moves P s id r .register
        ({ s with groups := s.groups.insert r.call.bond sid }.put id { r with stage := .confirm zero })
  | confirm {nonce : Key} {session : Session} (stage : r.stage = .confirm nonce)
      (found : s.session r = some session) :
      Moves P s id r (.confirm true)
        (s.put id
          { r with
            confirmation := some (tag P session.key (confirmMessage r.call.bond r.call.index nonce))
            stage := r.call.ending none })
  | unconfirmed {nonce : Key} {session : Session} (stage : r.stage = .confirm nonce)
      (found : s.session r = some session) :
      Moves P s id r (.confirm false)
        (s.fail id
          { r with
            confirmation := some (tag P session.key (confirmMessage r.call.bond r.call.index nonce)) } .io)
  | revoked {input : Input} (stage : (∃ challenge, r.stage = .linkProof challenge) ∨
      ∃ nonce, r.stage = .confirm nonce) : Moves P s id r input (s.fail id r .revoked)
  | fail (stage : r.stage = .hello ∨ (∃ peer sh challenge, r.stage = .proof peer sh challenge) ∨
      ∃ challenge, r.stage = .linkProof challenge) : Moves P s id r .fail (s.fail id r .io)
  | release {failure : Option Failure} (stage : r.stage = .leaving failure) :
      Moves P s id r .release
        ({ s with pending := s.pending.erase r.call.bond }.put id { r with stage := .done failure })

lemma advance_moves (h : s.advance P id r input = some s') : Moves P s id r input s' := by
  cases input with
  | hello version peer =>
    simp only [advance] at h
    split at h
    · next hstage =>
      split at h
      · next hversion =>
        cases h
        exact .version hstage hversion
      next hversion =>
      split at h <;> cases h
      · next hnone => exact .weak hstage hnone
      · next hsome =>
        rw [not_not.mp hversion]
        exact .hello hstage hsome
    · cases h
  | draw nonce written =>
    cases nonce with
    | none =>
      dsimp only [advance] at h
      cases hstage : r.stage <;> rw [hstage] at h <;> cases h
      · exact .undrawn (.inl ⟨_, _, hstage⟩)
      · exact .undrawn (.inr hstage)
    | some nonce =>
      dsimp only [advance] at h
      cases hstage : r.stage <;> rw [hstage] at h <;> cases h <;> cases written
      · exact .unwritten (.inl ⟨_, _, hstage⟩)
      · exact .challenge hstage
      · exact .unwritten (.inr hstage)
      · exact .linkChallenge hstage
  | proof proof =>
    simp only [advance] at h
    split at h
    · next hstage =>
      split at h <;> cases h
      · next hproof =>
        rw [hproof]
        exact .proof hstage
      · next hproof => exact .unproved hstage hproof
    · next challenge hstage =>
      obtain ⟨session, hsession, rfl⟩ := Option.map_eq_some_iff.mp h
      unfold Session.verify
      by_cases hactive : session.active = true
      · rw [if_pos hactive]
        by_cases hproof : proof = tag P session.key (linkMessage challenge r.call.bond r.call.index)
        · rw [if_pos hproof, hproof]
          exact .linkProof hstage hsession hactive
        · rw [if_neg hproof]
          exact .linkUnproved hstage hsession hproof
      · rw [if_neg hactive]
        exact .revoked (.inl ⟨_, hstage⟩)
    · cases h
  | register =>
    simp only [advance] at h
    split at h
    · next hstage hsession =>
      cases h
      exact .register hstage hsession
    · cases h
  | confirm written =>
    simp only [advance] at h
    split at h
    · next hstage =>
      obtain ⟨session, hsession, rfl⟩ := Option.map_eq_some_iff.mp h
      unfold Session.confirmation
      by_cases hactive : session.active = true
      · rw [if_pos hactive]
        cases written
        · exact .unconfirmed hstage hsession
        · exact .confirm hstage hsession
      · rw [if_neg hactive]
        exact .revoked (.inr ⟨_, hstage⟩)
    · cases h
  | fail =>
    simp only [advance] at h
    split at h <;> cases h
    · next hstage => exact .fail (.inl hstage)
    · next hstage => exact .fail (.inr (.inl ⟨_, _, _, hstage⟩))
    · next hstage => exact .fail (.inr (.inr ⟨_, hstage⟩))
  | release =>
    simp only [advance] at h
    split at h
    · next hstage =>
      cases h
      exact .release hstage
    · cases h

/-! ## What a step does to a call and to the registry -/

/-- What a call has checked on its way. -/
def Valid (P : Primitives) (s : ServerAuth) (r : Running) : Prop :=
  match r.stage with
  | .hello => r.call.index = 0
  | .challenge peer shared => r.call.index = 0 ∧ Auth.shared P s.secret peer = some shared
  | .proof peer shared _ => r.call.index = 0 ∧ Auth.shared P s.secret peer = some shared
  | .register => r.call.reserves = true
  | .linkChallenge | .linkProof _ => r.call.index ≠ 0
  | .leaving _ => r.call.reserves = true
  | _ => True

/-- The exchange of link 0 is complete: the client has answered the challenge, and the session of the
bond gets its key. -/
def Exchanges (P : Primitives) (s s' : ServerAuth) (r : Running) (input : Input) (sid : Nat) (key : Key) : Prop :=
  ∃ peer shared challenge, r.stage = .proof peer shared challenge ∧
    input = .proof (tag P shared (authMessage challenge peer)) ∧
    key = tag P shared (keyMessage r.call.bond challenge) ∧
    s.sessions.lookup sid = none ∧ s'.sessions.lookup sid = some ⟨.new peer key, 1⟩

/-- What an input does to a call and to the registry: it registers the session, or it drops the
reservation, or it does neither. -/
inductive Turn (P : Primitives) (s : ServerAuth) (id : Nat) (r : Running) (input : Input) :
    Running → ServerAuth → Prop
  | stays {r' : Running} {s' : ServerAuth} (calls : s'.calls = s.calls.insert id r')
      (groups : s'.groups = s.groups) (pending : s'.pending = s.pending) (secret : s'.secret = s.secret)
      (le : s.sessions.Le s'.sessions) (below : s'.sessions.Below s'.nextSession) (call : r'.call = r.call)
      (progress : r.stage.inProgress = true)
      (progress' : r.call.reserves = true → r'.stage.inProgress = true)
      (before : r'.stage.unregistered = true → r.stage.unregistered = true)
      (valid : s.Valid P r → s.Valid P r')
      (session : r'.session = r.session ∨ ∃ sid key, r'.session = some sid ∧
        s.Exchanges P s' r input sid key) : Turn P s id r input r' s'
  | registers {sid : Nat} (stage : r.stage = .register) (session : r.session = some sid) :
      Turn P s id r input { r with stage := .confirm zero }
        ({ s with groups := s.groups.insert r.call.bond sid }.put id { r with stage := .confirm zero })
  | leaves {failure : Option Failure} (stage : r.stage = .leaving failure) :
      Turn P s id r input { r with stage := .done failure }
        ({ s with pending := s.pending.erase r.call.bond }.put id { r with stage := .done failure })

lemma inProgress_of_unregistered (h : r.stage.unregistered = true) : r.stage.inProgress = true := by
  cases hstage : r.stage <;> first | rfl | rw [hstage] at h; cases h

lemma ending_inProgress (h : call.reserves = true) : (call.ending failure).inProgress = true := by
  rw [Call.ending, if_pos h]
  rfl

lemma ending_unregistered : (call.ending failure).unregistered = false := by
  unfold Call.ending
  split <;> rfl

lemma valid_ending {session : Option Nat} {challenge confirmation : Option Key} :
    s.Valid P ⟨r.call, r.call.ending failure, session, challenge, confirmation⟩ := by
  unfold Call.ending
  split
  · next hreserves => exact hreserves
  · trivial

lemma turn_fail (hbelow : s.sessions.Below s.nextSession) (hprogress : r.stage.inProgress = true)
    (e : Failure) (challenge confirmation : Option Key) :
    ∃ r', Turn P s id r input r' (s.fail id { r with challenge, confirmation } e) := by
  refine ⟨_, .stays rfl rfl rfl rfl ?_ ?_ rfl hprogress ending_inProgress ?_ (fun _ => valid_ending)
    (.inl rfl)⟩
  · cases hsession : r.session with
    | none => simp [fail, put, Sessions.Le.refl]
    | some sid => simp [fail, put, Sessions.le_drop]
  · cases hsession : r.session with
    | none => simpa [fail, put, hsession] using hbelow
    | some sid =>
      simp only [fail, put, Option.elim]
      exact Sessions.Below.modify hbelow _
  · simp [ending_unregistered]

lemma turn_put (hbelow : s.sessions.Below s.nextSession) (call : r'.call = r.call) (session : r'.session = r.session)
    (hprogress : r.stage.inProgress = true)
    (hprogress' : r.call.reserves = true → r'.stage.inProgress = true)
    (before : r'.stage.unregistered = true → r.stage.unregistered = true)
    (valid : s.Valid P r → s.Valid P r') : ∃ r'', Turn P s id r input r'' (s.put id r') :=
  ⟨r', .stays rfl rfl rfl rfl (.refl _) hbelow call hprogress hprogress' before valid (.inl session)⟩

lemma turn_create (hbelow : s.sessions.Below s.nextSession) {peer shared challenge : Key}
    (hstage : r.stage = .proof peer shared challenge) :
    ∃ r', Turn P s id r (.proof (tag P shared (authMessage challenge peer))) r'
      (s.create id r (.new peer (tag P shared (keyMessage r.call.bond challenge)))) := by
  refine ⟨_, .stays rfl rfl rfl rfl (Sessions.le_insert (hbelow _ le_rfl)) ?_ rfl (by rw [hstage]; rfl)
    ?_ ?_ ?_ (.inr ⟨_, _, rfl, _, _, _, hstage, rfl, rfl, hbelow _ le_rfl, ?_⟩)⟩
  · intro sid hle
    have hlt : s.nextSession < sid := hle
    rw [create, put, lookup_insert, if_neg hlt.ne', hbelow sid hlt.le]
  · intro hreserves
    simp [hreserves, Stage.inProgress]
  · intro _
    rw [hstage]
    rfl
  · intro _
    by_cases hreserves : r.call.reserves = true
    · simp [Valid, hreserves]
    · simp [Valid, hreserves]
  · rw [create, put, lookup_insert, if_pos rfl]

lemma Moves.turn (h : Moves P s id r input s') (hbelow : s.sessions.Below s.nextSession) :
    ∃ r', Turn P s id r input r' s' := by
  cases h with
  | version stage | weak stage | unproved stage | linkUnproved stage | unconfirmed stage =>
    exact turn_fail hbelow (by rw [stage]; rfl) ..
  | undrawn stage | unwritten stage =>
    refine turn_fail hbelow ?_ ..
    obtain ⟨_, _, stage⟩ | stage := stage <;> rw [stage] <;> rfl
  | revoked stage =>
    refine turn_fail hbelow ?_ ..
    obtain ⟨_, stage⟩ | ⟨_, stage⟩ := stage <;> rw [stage] <;> rfl
  | fail stage =>
    refine turn_fail hbelow ?_ ..
    obtain stage | ⟨_, _, _, stage⟩ | ⟨_, stage⟩ := stage <;> rw [stage] <;> rfl
  | hello stage hshared =>
    refine turn_put hbelow rfl rfl (by rw [stage]; rfl) (fun _ => rfl) (fun _ => by rw [stage]; rfl) ?_
    simp only [Valid, stage]
    exact fun hindex => ⟨hindex, hshared⟩
  | challenge stage =>
    refine turn_put hbelow rfl rfl (by rw [stage]; rfl) (fun _ => rfl) (fun _ => by rw [stage]; rfl) ?_
    simp [Valid, stage]
  | linkChallenge stage | linkProof stage =>
    refine turn_put hbelow rfl rfl (by rw [stage]; rfl) (fun _ => rfl) nofun ?_
    simp [Valid, stage]
  | confirm stage =>
    exact turn_put hbelow rfl rfl (by rw [stage]; rfl) ending_inProgress (by simp [ending_unregistered])
      fun _ => valid_ending
  | proof stage => exact turn_create hbelow stage
  | register stage session => exact ⟨_, .registers stage session⟩
  | release stage => exact ⟨_, .leaves stage⟩

/-! ## The registry -/

/-- The set of bonds is that of the calls which have a reservation, each its own. -/
structure Holds (reservation : Nat → Option Bond) (pending : Finset Bond) : Prop where
  mem : ∀ b, b ∈ pending ↔ ∃ id, reservation id = some b
  alone : ∀ id id' b, reservation id = some b → reservation id' = some b → id = id'

section

variable {reservation : Nat → Option Bond} {pending : Finset Bond} {b : Bond}

/-- One call has another reservation, for a bond that nobody has. -/
lemma Holds.update (h : Holds reservation pending) {held : Option Bond} {pending' : Finset Bond}
    (hheld : ∀ b, held = some b → b ∉ pending)
    (hmem : ∀ b, b ∈ pending' ↔ held = some b ∨ b ∈ pending ∧ reservation id ≠ some b) :
    Holds (Function.update reservation id held) pending' := by
  constructor
  · intro b
    rw [hmem, h.mem]
    constructor
    · rintro (hb | ⟨⟨id', hid'⟩, hne⟩)
      · exact ⟨id, (Function.update_self ..).trans hb⟩
      · refine ⟨id', ?_⟩
        rw [Function.update_of_ne, hid']
        rintro rfl
        exact hne hid'
    · rintro ⟨id', hid'⟩
      rw [Function.update_apply] at hid'
      split at hid'
      · exact .inl hid'
      · next hne => exact .inr ⟨⟨id', hid'⟩, fun hid => hne (h.alone _ _ _ hid' hid)⟩
  · intro id₁ id₂ b h₁ h₂
    have hother : ∀ id', held = some b → reservation id' ≠ some b := fun id' hb hid' =>
      hheld b hb ((h.mem b).mpr ⟨id', hid'⟩)
    rw [Function.update_apply] at h₁ h₂
    split at h₁ <;> split at h₂
    · next heq heq' => rw [heq, heq']
    · exact absurd h₂ (hother _ h₁)
    · exact absurd h₁ (hother _ h₂)
    · exact h.alone _ _ _ h₁ h₂

lemma Holds.insert (h : Holds reservation pending) (hid : reservation id = none) (hb : b ∉ pending) :
    Holds (Function.update reservation id (some b)) (insert b pending) := by
  refine h.update ?_ fun b' => ?_
  · rintro _ ⟨⟩
    exact hb
  · simp [hid, eq_comm]

lemma Holds.erase (h : Holds reservation pending) (hid : reservation id = some b) :
    Holds (Function.update reservation id none) (pending.erase b) := by
  refine h.update nofun fun b' => ?_
  simp [hid, and_comm, eq_comm]

end

def reservation (s : ServerAuth) (id : Nat) : Option Bond := (s.calls.lookup id).bind Running.reservation

lemma reservation_of_insert (hcalls : s'.calls = s.calls.insert id r) :
    s'.reservation = Function.update s.reservation id r.reservation := by
  funext id'
  rw [reservation, hcalls, lookup_insert, Function.update_apply]
  split
  · rfl
  · rfl

lemma find_eq_some {b : Bond} {sid : Nat} :
    s.find b = some sid ↔ s.groups.lookup b = some sid ∧ s.sessions.usable sid = true :=
  Option.filter_eq_some_iff

structure Sound (P : Primitives) (s : ServerAuth) : Prop where
  below : s.sessions.Below s.nextSession
  groups : ∀ b sid, s.groups.lookup b = some sid → (s.sessions.lookup sid).isSome
  sessions : ∀ id r sid, s.calls.lookup id = some r → r.session = some sid →
    (s.sessions.lookup sid).isSome
  valid : ∀ id r, s.calls.lookup id = some r → s.Valid P r
  reserved : Holds s.reservation s.pending
  /-- A bond that is authenticating has no active session. -/
  unregistered : ∀ id r, s.calls.lookup id = some r → r.call.reserves = true →
    r.stage.unregistered = true → s.find r.call.bond = none

lemma new_sound (secret : Key) : (new secret).Sound P := by
  refine ⟨fun _ _ => rfl, ?_, ?_, ?_, ⟨?_, ?_⟩, ?_⟩ <;> simp [new, reservation]

lemma find_back (hs : s.Sound P) (hle : s.sessions.Le s'.sessions)
    (hgroups : ∀ b sid, s'.groups.lookup b = some sid → s.groups.lookup b = some sid) {b : Bond}
    (hnone : s.find b = none) : s'.find b = none := by
  rw [Option.eq_none_iff_forall_ne_some] at hnone ⊢
  intro sid hsid
  obtain ⟨hlookup, huse⟩ := find_eq_some.mp hsid
  have hlookup' := hgroups b sid hlookup
  exact hnone sid (find_eq_some.mpr ⟨hlookup', hle.usable (hs.groups b sid hlookup') huse⟩)

lemma valid_of_secret (hsecret : s'.secret = s.secret) (h : s.Valid P r) : s'.Valid P r := by
  unfold Valid at h ⊢
  rwa [hsecret]

lemma reservation_eq (hcall : r'.call = r.call)
    (hprogress : r.stage.inProgress = true)
    (hprogress' : r.call.reserves = true → r'.stage.inProgress = true) :
    r'.reservation = r.reservation := by
  unfold Running.reservation
  rw [hcall, hprogress]
  by_cases hreserves : r.call.reserves = true
  · rw [hprogress' hreserves]
  · simp [hreserves]

lemma lookup_calls {id' : Nat} {r₁ : Running} (hcalls : s'.calls = s.calls.insert id r')
    (hr₁ : s'.calls.lookup id' = some r₁) :
    id' = id ∧ r₁ = r' ∨ id' ≠ id ∧ s.calls.lookup id' = some r₁ := by
  rw [hcalls, lookup_insert] at hr₁
  split at hr₁
  · next heq => exact .inl ⟨heq, (Option.some.inj hr₁).symm⟩
  · next hne => exact .inr ⟨hne, hr₁⟩

lemma Sound.reserves (hs : s.Sound P) (hr : s.calls.lookup id = some r)
    (hstage : r.stage = .register ∨ ∃ failure, r.stage = .leaving failure) : r.call.reserves = true := by
  have hvalid := hs.valid id r hr
  unfold Valid at hvalid
  obtain hstage | ⟨_, hstage⟩ := hstage <;> rwa [hstage] at hvalid

/-- A step that changes one call and adds nothing to the registry. -/
lemma Sound.of_insert (hs : s.Sound P) (hcalls : s'.calls = s.calls.insert id r')
    (hsecret : s'.secret = s.secret) (hle : s.sessions.Le s'.sessions)
    (hbelow : s'.sessions.Below s'.nextSession)
    (hgroups : ∀ b sid, s'.groups.lookup b = some sid → s.groups.lookup b = some sid)
    (hsession : ∀ sid, r'.session = some sid → (s'.sessions.lookup sid).isSome)
    (hvalid : s.Valid P r')
    (hreserved : Holds (Function.update s.reservation id r'.reservation) s'.pending)
    (hbefore : r'.call.reserves = true → r'.stage.unregistered = true → s.find r'.call.bond = none) :
    s'.Sound P := by
  refine ⟨hbelow, fun b sid hsid => hle.isSome (hs.groups b sid (hgroups b sid hsid)), ?_, ?_,
    reservation_of_insert hcalls ▸ hreserved, ?_⟩
  · intro id' r₁ sid hr₁ hsid
    obtain ⟨rfl, rfl⟩ | ⟨-, hr₁⟩ := lookup_calls hcalls hr₁
    · exact hsession sid hsid
    · exact hle.isSome (hs.sessions id' r₁ sid hr₁ hsid)
  · intro id' r₁ hr₁
    obtain ⟨rfl, rfl⟩ | ⟨-, hr₁⟩ := lookup_calls hcalls hr₁
    · exact valid_of_secret hsecret hvalid
    · exact valid_of_secret hsecret (hs.valid id' r₁ hr₁)
  · intro id' r₁ hr₁ hreserves hunregistered
    refine find_back hs hle hgroups ?_
    obtain ⟨rfl, rfl⟩ | ⟨-, hr₁⟩ := lookup_calls hcalls hr₁
    · exact hbefore hreserves hunregistered
    · exact hs.unregistered id' r₁ hr₁ hreserves hunregistered

lemma Sound.register (hs : s.Sound P) {sid : Nat} (hr : s.calls.lookup id = some r)
    (hstage : r.stage = .register) (hsession : r.session = some sid) :
    ({ s with groups := s.groups.insert r.call.bond sid }.put id
      { r with stage := .confirm zero }).Sound P := by
  have hreserves := hs.reserves hr (.inl hstage)
  have hbond : r.reservation = some r.call.bond := by
    rw [Running.reservation, hreserves, hstage]
    rfl
  have hid : s.reservation id = some r.call.bond := by rw [reservation, hr, Option.bind_some, hbond]
  refine ⟨hs.below, ?_, ?_, ?_, ?_, ?_⟩
  · intro b sid' hsid'
    rw [put, lookup_insert] at hsid'
    split at hsid'
    · cases hsid'
      exact hs.sessions id r sid hr hsession
    · exact hs.groups b sid' hsid'
  · intro id' r₁ sid' hr₁ hsid'
    obtain ⟨rfl, rfl⟩ | ⟨-, hr₁⟩ := lookup_calls rfl hr₁
    · exact hs.sessions _ r sid' hr hsid'
    · exact hs.sessions id' r₁ sid' hr₁ hsid'
  · intro id' r₁ hr₁
    obtain ⟨rfl, rfl⟩ | ⟨-, hr₁⟩ := lookup_calls rfl hr₁
    · trivial
    · exact hs.valid id' r₁ hr₁
  · have hsame : Running.reservation { r with stage := .confirm zero } = r.reservation :=
      reservation_eq rfl (by rw [hstage]; rfl) fun _ => rfl
    rw [reservation_of_insert (s := s) rfl, hsame, hbond, ← hid, Function.update_eq_self]
    exact hs.reserved
  · intro id' r₁ hr₁ hreserves₁ hunregistered
    obtain ⟨rfl, rfl⟩ | ⟨hne, hr₁⟩ := lookup_calls rfl hr₁
    · cases hunregistered
    · -- a second call for the bond would have the same reservation
      have hid₁ : s.reservation id' = some r₁.call.bond := by
        rw [reservation, hr₁, Option.bind_some, Running.reservation, hreserves₁,
          inProgress_of_unregistered hunregistered]
        rfl
      have hother : r₁.call.bond ≠ r.call.bond := by
        intro heq
        exact hne (hs.reserved.alone _ _ _ (heq ▸ hid₁) hid)
      rw [find, put, lookup_insert, if_neg hother]
      exact hs.unregistered id' r₁ hr₁ hreserves₁ hunregistered

lemma Sound.turn (hs : s.Sound P) (hr : s.calls.lookup id = some r)
    (h : Turn P s id r input r' s') : s'.Sound P := by
  have hid : s.reservation id = r.reservation := by rw [reservation, hr, Option.bind_some]
  cases h with
  | stays calls groups pending secret le below call progress progress' before valid session =>
    refine hs.of_insert calls secret le below (fun b sid hb => by rwa [groups] at hb) ?_
      (valid (hs.valid id r hr)) ?_ ?_
    · intro sid hsid
      rcases session with hsame | ⟨sid', key, hnew, _, _, _, _, _, _, _, hlookup⟩
      · exact le.isSome (hs.sessions id r sid hr (hsame ▸ hsid))
      · cases hnew.symm.trans hsid
        rw [hlookup]
        rfl
    · rw [reservation_eq call progress progress', ← hid, Function.update_eq_self, pending]
      exact hs.reserved
    · intro hreserves hbefore
      rw [call] at hreserves ⊢
      exact hs.unregistered id r hr hreserves (before hbefore)
  | registers stage session => exact hs.register hr stage session
  | leaves stage =>
    have hreserves := hs.reserves hr (.inr ⟨_, stage⟩)
    have hbond : s.reservation id = some r.call.bond := by
      rw [hid, Running.reservation, hreserves, stage]
      rfl
    refine hs.of_insert rfl rfl (.refl _) hs.below (fun _ _ hb => hb) (fun sid hsid => ?_) trivial ?_ nofun
    · exact hs.sessions id r sid hr hsid
    · rw [show Running.reservation { r with stage := .done _ } = none by
        simp [Running.reservation, Stage.inProgress]]
      exact hs.reserved.erase hbond

/-- What the first part of a call does: it has a reservation for a bond without an active session, or
it has none, and a further link has found the session of its bond. -/
inductive Opens (s : ServerAuth) (id : Nat) (call : Call) : Running → ServerAuth → Prop
  | idle {r' : Running} {s' : ServerAuth} (calls : s'.calls = s.calls.insert id r')
      (groups : ∀ b, s'.groups.lookup b = s.groups.lookup b ∨
        s'.groups.lookup b = (s.groups.lookup b).filter s.sessions.usable)
      (pending : s'.pending = s.pending) (secret : s'.secret = s.secret)
      (le : s.sessions.Le s'.sessions) (below : s'.sessions.Below s'.nextSession)
      (own : r'.call = call) (reservation : r'.reservation = none)
      (stage : r'.stage = .hello ∧ call = .plain ∧ r'.session = none ∨
        r'.stage = .linkChallenge ∧ call.index ≠ 0 ∨
        r'.stage = .done (some .bondExists) ∧ call.index = 0 ∧ r'.session = none ∨
        r'.stage = .done (some .unauthenticated) ∧ call.index ≠ 0 ∧ r'.session = none)
      (session : ∀ sid, r'.session = some sid → s.find call.bond = some sid)
      (silent : r'.challenge = none ∧ r'.confirmation = none) : Opens s id call r' s'
  | reserves {bond : Bond} (primary : call = .accept bond 0) (free : s.find bond = none)
      (pending : bond ∉ s.pending) :
      Opens s id call ⟨call, .hello, none, none, none⟩
        ({ s with
          groups := s.groups.retain fun _ sid => s.sessions.usable sid
          pending := insert bond s.pending }.put id ⟨call, .hello, none, none, none⟩)

lemma begin_opens (hbelow : s.sessions.Below s.nextSession) (id : Nat) (call : Call) :
    ∃ r', Opens s id call r' (s.begin id call) := by
  cases call with
  | plain =>
    exact ⟨_, .idle rfl (fun _ => .inl rfl) rfl rfl (.refl _) hbelow rfl rfl (.inl ⟨rfl, rfl, rfl⟩)
      nofun ⟨rfl, rfl⟩⟩
  | accept bond index =>
    unfold begin
    dsimp only
    by_cases hindex : index = 0
    · rw [if_pos hindex]
      subst hindex
      split
      · exact ⟨_, .idle rfl (fun b => .inr (lookup_retain ..)) rfl rfl (.refl _) hbelow rfl rfl
          (.inr (.inr (.inl ⟨rfl, rfl, rfl⟩))) nofun ⟨rfl, rfl⟩⟩
      next hfree =>
      rw [not_or] at hfree
      refine ⟨_, .reserves rfl ?_ hfree.2⟩
      have hnone := hfree.1
      rwa [contains, lookup_retain, Option.not_isSome_iff_eq_none] at hnone
    · rw [if_neg hindex]
      cases hfind : s.find bond with
      | none =>
        exact ⟨_, .idle rfl (fun _ => .inl rfl) rfl rfl (.refl _) hbelow rfl
          (by simp [Running.reservation, Stage.inProgress])
          (.inr (.inr (.inr ⟨rfl, hindex, rfl⟩))) nofun ⟨rfl, rfl⟩⟩
      | some sid =>
        have huse := (find_eq_some.mp hfind).2
        refine ⟨_, .idle rfl (fun _ => .inl rfl) rfl rfl (Sessions.le_clone ?_) (hbelow.modify _) rfl
          (by simp [Running.reservation, Call.reserves, hindex]) (.inr (.inl ⟨rfl, hindex⟩)) ?_ ⟨rfl, rfl⟩⟩
        · intro a ha
          rw [Sessions.usable, ha] at huse
          simpa [Arc.usable] using (Bool.and_eq_true_iff.mp huse).2
        · rintro sid' ⟨⟩
          exact hfind

/-- Nothing is registered. -/
lemma Opens.groups_back (h : Opens s id call r' s') {b : Bond} {sid : Nat}
    (hsid : s'.groups.lookup b = some sid) : s.groups.lookup b = some sid := by
  cases h with
  | idle calls groups =>
    rcases groups b with hgroups | hgroups
    · rwa [hgroups] at hsid
    · rw [hgroups] at hsid
      exact (Option.filter_eq_some_iff.mp hsid).1
  | reserves =>
    rw [put, lookup_retain] at hsid
    exact (Option.filter_eq_some_iff.mp hsid).1

lemma Sound.opens (hs : s.Sound P) (hid : s.calls.lookup id = none) (h : Opens s id call r' s') :
    s'.Sound P := by
  have hfree : s.reservation id = none := by rw [reservation, hid, Option.bind_none]
  have hgroups : ∀ b sid, s'.groups.lookup b = some sid → s.groups.lookup b = some sid :=
    fun _ _ => h.groups_back
  cases h with
  | idle calls groups pending secret le below own reservation stage session =>
    subst own
    refine hs.of_insert calls secret le below hgroups ?_ ?_ ?_ ?_
    · intro sid hsid
      exact le.isSome (hs.groups _ sid (find_eq_some.mp (session sid hsid)).1)
    · unfold Valid
      rcases stage with ⟨hstage, hcall, -⟩ | ⟨hstage, hindex⟩ | ⟨hstage, -⟩ | ⟨hstage, -⟩
      · rw [hstage, hcall]
        rfl
      · rw [hstage]
        exact hindex
      all_goals
        rw [hstage]
        trivial
    · rw [reservation, ← hfree, Function.update_eq_self, pending]
      exact hs.reserved
    · intro hreserves hunregistered
      rcases stage with ⟨-, hcall, -⟩ | ⟨hstage, -⟩ | ⟨hstage, -⟩ | ⟨hstage, -⟩
      · rw [hcall] at hreserves
        cases hreserves
      all_goals
        rw [hstage] at hunregistered
        cases hunregistered
  | reserves primary free pending =>
    subst primary
    exact hs.of_insert rfl rfl (.refl _) hs.below hgroups nofun rfl
      (hs.reserved.insert hfree pending) fun _ _ => free

lemma Sound.of_sessions (hs : s.Sound P) {sessions : Sessions} (hle : s.sessions.Le sessions)
    (hbelow : sessions.Below s.nextSession) : { s with sessions }.Sound P := by
  refine ⟨hbelow, fun b sid hsid => hle.isSome (hs.groups b sid hsid),
    fun id r sid hr hsid => hle.isSome (hs.sessions id r sid hr hsid), hs.valid, hs.reserved, ?_⟩
  intro id r hr hreserves hunregistered
  refine find_back hs ?_ ?_ (hs.unregistered id r hr hreserves hunregistered)
  · exact hle
  · exact fun _ _ hb => hb

inductive Step (P : Primitives) (s : ServerAuth) : ServerEvent → ServerAuth → Prop
  | begin {id : Nat} {call : Call} {r' : Running} {s' : ServerAuth} (free : s.calls.lookup id = none)
      (opens : Opens s id call r' s') : Step P s (.begin id call) s'
  | advance {id : Nat} {input : Input} {r r' : Running} {s' : ServerAuth}
      (running : s.calls.lookup id = some r) (moves : Moves P s id r input s')
      (turn : Turn P s id r input r' s') : Step P s (.advance id input) s'
  | sessions {e : ServerEvent} {sessions : Sessions} (call : ∀ id input, e ≠ .advance id input)
      (le : s.sessions.Le sessions) (below : sessions.Below s.nextSession) : Step P s e { s with sessions }

variable {e : ServerEvent} {E : Bond → Nat → Prop}

lemma step_cases (hbelow : s.sessions.Below s.nextSession) (h : s.step P e = some s') :
    Step P s e s' := by
  cases e with
  | begin id call =>
    simp only [step] at h
    split at h
    · cases h
    next hfree =>
    cases h
    obtain ⟨r', hopens⟩ := begin_opens hbelow id call
    exact .begin (Option.not_isSome_iff_eq_none.mp hfree) hopens
  | advance id input =>
    obtain ⟨r, hr, hadvance⟩ := Option.bind_eq_some_iff.mp h
    have hmoves := advance_moves hadvance
    obtain ⟨r', hturn⟩ := hmoves.turn hbelow
    exact .advance hr hmoves hturn
  | invalidate sid =>
    cases h
    exact .sessions nofun Sessions.le_invalidate (hbelow.modify _)
  | clone sid =>
    obtain ⟨a, ha, h⟩ := Option.bind_eq_some_iff.mp h
    split at h
    · next hlt =>
      cases h
      refine .sessions nofun (Sessions.le_clone fun a' ha' => ?_) (hbelow.modify _)
      cases ha.symm.trans ha'
      exact Nat.zero_lt_of_lt hlt
    · cases h
  | drop sid =>
    obtain ⟨a, ha, h⟩ := Option.bind_eq_some_iff.mp h
    split at h
    · cases h
      exact .sessions nofun Sessions.le_drop (hbelow.modify _)
    · cases h

lemma Sound.step (hs : s.Sound P) (h : Step P s e s') : s'.Sound P := by
  cases h with
  | begin free opens => exact hs.opens free opens
  | advance running moves turn => exact hs.turn running turn
  | sessions call le below => exact hs.of_sessions le below

/-- In every interleaving the pending bonds are those of the calls that authenticate, one each; and
until such a call registers, its bond has no active session. -/
theorem always_reserved (P : Primitives) (secret : Key) (es : List ServerEvent) :
    Always (ServerAuth.step P) (fun s => Holds s.reservation s.pending ∧
      ∀ id r, s.calls.lookup id = some r → r.call.reserves = true → r.stage.unregistered = true →
        s.find r.call.bond = none) (new secret) es :=
  always_of_forall (fun _ _ _ hs hstep => hs.step (step_cases hs.below hstep))
    (fun _ hs => ⟨hs.reserved, hs.unregistered⟩) (new_sound secret)

lemma Step.le (h : Step P s e s') : s.sessions.Le s'.sessions := by
  cases h with
  | begin free opens =>
    cases opens with
    | idle calls groups pending secret le => exact le
    | reserves => exact .refl _
  | advance running moves turn =>
    cases turn with
    | stays calls groups pending secret le => exact le
    | registers | leaves => exact .refl _
  | sessions call le => exact le

lemma Step.secret (h : Step P s e s') : s'.secret = s.secret := by
  cases h with
  | begin free opens =>
    cases opens with
    | idle calls groups pending secret => exact secret
    | reserves => rfl
  | advance running moves turn =>
    cases turn with
    | stays calls groups pending secret => exact secret
    | registers | leaves => rfl
  | sessions => rfl

/-- The session of a bond stays the registered one as long as it is active. -/
lemma Sound.find_of_usable (hs : s.Sound P) (h : Step P s e s') {b : Bond} {sid : Nat}
    (hfind : s.find b = some sid) (huse : s'.sessions.usable sid = true) : s'.find b = some sid := by
  obtain ⟨hgroups, huse₀⟩ := find_eq_some.mp hfind
  refine find_eq_some.mpr ⟨?_, huse⟩
  have hkept : (s.groups.lookup b).filter s.sessions.usable = some sid := hfind
  cases h with
  | begin free opens =>
    cases opens with
    | idle calls groups =>
      rcases groups b with heq | heq
      · rw [heq, hgroups]
      · rw [heq, hkept]
    | reserves =>
      rw [put, lookup_retain]
      exact hkept
  | advance running moves turn =>
    cases turn with
    | stays calls groups => rw [groups, hgroups]
    | registers stage session =>
      rw [put, lookup_insert, if_neg, hgroups]
      rintro rfl
      -- the call that registers has the bond for itself
      have hreserves := hs.reserves running (.inl stage)
      have hnone := hs.unregistered _ _ running hreserves (by rw [stage]; rfl)
      cases hnone.symm.trans hfind
    | leaves => exact hgroups
  | sessions => exact hgroups

/-- Every session that a call of `accept` has, or that is registered, is one of its bond. -/
structure Owns (E : Bond → Nat → Prop) (s : ServerAuth) : Prop where
  calls : ∀ id r bond index sid, s.calls.lookup id = some r → r.call = .accept bond index →
    r.session = some sid → E bond sid
  groups : ∀ bond sid, s.groups.lookup bond = some sid → E bond sid

lemma Owns.mono {E E' : Bond → Nat → Prop} (h : s.Owns E) (hE : ∀ bond sid, E bond sid → E' bond sid) :
    s.Owns E' :=
  ⟨fun id r bond index sid hr hcall hsid => hE _ _ (h.calls id r bond index sid hr hcall hsid),
    fun bond sid hsid => hE _ _ (h.groups bond sid hsid)⟩

/-- A step that changes one call. -/
lemma Owns.of_insert (h : s.Owns E) (hcalls : s'.calls = s.calls.insert id r')
    (hsession : ∀ bond index sid, r'.call = .accept bond index → r'.session = some sid → E bond sid)
    (hgroups : ∀ bond sid, s'.groups.lookup bond = some sid → E bond sid) : s'.Owns E := by
  refine ⟨fun id' r₁ bond index sid hr₁ hcall hsid => ?_, hgroups⟩
  obtain ⟨rfl, rfl⟩ | ⟨-, hr₁⟩ := lookup_calls hcalls hr₁
  · exact hsession bond index sid hcall hsid
  · exact h.calls id' r₁ bond index sid hr₁ hcall hsid

lemma Owns.step (hs : s.Sound P) (hstep : Step P s e s') (h : s.Owns E)
    (hE : ∀ id r input bond index sid key, e = .advance id input → s.calls.lookup id = some r →
      r.call = .accept bond index → s.Exchanges P s' r input sid key → E bond sid) : s'.Owns E := by
  cases hstep with
  | begin free opens =>
    have hgroups : ∀ bond sid, s'.groups.lookup bond = some sid → E bond sid :=
      fun bond sid hsid => h.groups bond sid (opens.groups_back hsid)
    cases opens with
    | idle calls groups pending secret le below own reservation stage session =>
      refine h.of_insert calls (fun bond index sid hcall hsid => ?_) hgroups
      have hfind := session sid hsid
      rw [← own, hcall] at hfind
      exact h.groups bond sid (find_eq_some.mp hfind).1
    | reserves => exact h.of_insert rfl nofun hgroups
  | advance running moves turn =>
    have hold := fun bond index sid => h.calls _ _ bond index sid running
    cases turn with
    | stays calls groups pending secret le below call progress progress' before valid session =>
      refine h.of_insert calls (fun bond index sid hcall hsid => ?_) (groups ▸ h.groups)
      rw [call] at hcall
      rcases session with hsame | ⟨sid', key, hnew, hexchange⟩
      · exact hold bond index sid hcall (hsame ▸ hsid)
      · cases hnew.symm.trans hsid
        exact hE _ _ _ bond index sid key rfl running hcall hexchange
    | registers stage session =>
      refine h.of_insert rfl hold fun bond sid hsid => ?_
      rw [put, lookup_insert] at hsid
      split at hsid
      · next hbond =>
        cases hsid
        subst hbond
        obtain ⟨bond, hcall⟩ := Call.eq_accept (hs.reserves running (.inl stage))
        rw [hcall]
        exact hold bond 0 _ hcall session
      · exact h.groups bond sid hsid
    | leaves stage => exact h.of_insert rfl hold h.groups
  | sessions => exact ⟨h.calls, h.groups⟩

/-! ## Authenticating once more -/

/-- What a client with the key does on link 0. -/
def authentication (P : Primitives) (id : Nat) (bond : Bond) (peer shared nonce : Key) : List ServerEvent :=
  [.begin id (.accept bond 0), .advance id (.hello 2 peer), .advance id (.draw (some nonce) true),
    .advance id (.proof (tag P shared (authMessage nonce peer))), .advance id .register,
    .advance id (.confirm true), .advance id .release]

lemma Sound.not_pending (hs : s.Sound P) {b : Bond}
    (hidle : ∀ id r, s.calls.lookup id = some r → r.call = .accept b 0 → r.stage.inProgress = false) :
    b ∉ s.pending := by
  intro hb
  obtain ⟨id, hid⟩ := (hs.reserved.mem b).mp hb
  obtain ⟨r, hr, hreservation⟩ := Option.bind_eq_some_iff.mp hid
  unfold Running.reservation at hreservation
  split at hreservation
  · next hreserves =>
    obtain ⟨hreserves, hprogress⟩ := Bool.and_eq_true_iff.mp hreserves
    obtain ⟨bond, hcall⟩ := Call.eq_accept hreserves
    rw [hcall] at hreservation
    cases hreservation
    rw [hidle id r hr hcall] at hprogress
    cases hprogress
  · cases hreservation

lemma advance_draw {peer sh nonce : Key} :
    s.advance P id ⟨call, .challenge peer sh, none, none, none⟩ (.draw (some nonce) true) =
      some (s.put id ⟨call, .proof peer sh nonce, none, some nonce, none⟩) := rfl

/-- A bond without an active session that nobody authenticates can be authenticated. -/
lemma Sound.authenticates (hs : s.Sound P) {b : Bond} (hfree : s.find b = none)
    (hidle : ∀ id r, s.calls.lookup id = some r → r.call = .accept b 0 → r.stage.inProgress = false)
    (hid : s.calls.lookup id = none) {peer shared : Key} (hshared : Auth.shared P s.secret peer = some shared)
    (nonce : Key) : ∃ s', runFrom (ServerAuth.step P) s (authentication P id b peer shared nonce) = some s' ∧
      ∃ sid r, s'.calls.lookup id = some r ∧ r.stage = .done none ∧ r.session = some sid ∧
        s'.find b = some sid := by
  have hpending := hs.not_pending hidle
  have hretain : (s.groups.retain fun _ sid => s.sessions.usable sid).contains b = false := by
    rw [contains, lookup_retain]
    exact Option.isSome_eq_false_iff.mpr (Option.isNone_iff_eq_none.mpr hfree)
  simp only [authentication, runFrom, ServerAuth.step, hid, begin, hretain, hpending]
  simp [find, Sessions.usable, Arc.usable, put, lookup_insert, advance_draw, advance.eq_1,
    advance.eq_4, advance.eq_5, advance.eq_6, advance.eq_8, hshared, create, session,
    Call.reserves, Call.ending, Call.bond, Call.index, Session.confirmation, Session.new]

end ServerAuth

end Fluxpeer.Relay.Auth
