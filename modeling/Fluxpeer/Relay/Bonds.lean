import Fluxpeer.Relay.Links

/-!
# Bonded links

What holds in every run of a world, whatever the other clients send and whatever fails: a bond has at
most one active session; a further link is accepted only on a proof with the key of the bond's session;
a bond whose session has ended can be authenticated again; and the client and the relay agree.
-/

namespace Fluxpeer.Relay.Auth

open Lib Crypto ServerAuth

namespace World

variable {P : Primitives} {shared : Key} {w w' : World} {e : WorldEvent}

/-- The two ends of every link of the client. -/
structure Agreed (P : Primitives) (shared : Key) (w : World) : Prop where
  sound : w.server.Sound P
  wrote : ∀ id r, w.server.calls.lookup id = some r → ServerAuth.Wrote r
  below : w.client.Below
  relay : Auth.shared P w.client.secret w.client.relay = some shared
  peer : Auth.shared P w.server.secret (w.client.publicKey P) = some shared
  client : ∀ id d, w.client.calls.lookup id = some d →
    w.client.End P shared (w.client.publicKey P) (w.server.challengeOf id) (w.server.keyOf id) d
  server : ∀ id d r, w.client.calls.lookup id = some d → w.server.calls.lookup id = some r →
    w.server.End P shared (w.client.publicKey P) d.bond d.index (w.client.key d) r

lemma new_agreed (hP : P.Lawful) {secret relaySecret : Key}
    (hshared : Auth.shared P secret (P.publicKey relaySecret) = some shared) :
    (new P secret relaySecret).Agreed P shared := by
  have hserver : ∀ id, (new P secret relaySecret).server.calls.lookup id = none := fun _ => rfl
  have hclient : ∀ id, (new P secret relaySecret).client.calls.lookup id = none := fun _ => rfl
  have hpeer : Auth.shared P relaySecret (P.publicKey secret) = some shared := by
    rwa [Auth.shared, hP.diffieHellman_comm, ← Auth.shared]
  refine ⟨new_sound relaySecret, ?_, fun _ _ => rfl, hshared, hpeer, ?_, ?_⟩
  · intro id r hr
    cases (hserver id).symm.trans hr
  · intro id d hd
    cases (hclient id).symm.trans hd
  · intro id d r hd
    cases (hclient id).symm.trans hd

variable {id : Nat} {d : Dial} {r : Running} {client : ClientAuth} {input : Input}

/-- What the client sends is what the relay reads. -/
lemma Agreed.offered (h : w.Agreed P shared)
    (hdelivers : w.delivers (.server (.advance id input)) = true)
    (hd : w.client.calls.lookup id = some d) (hr : w.server.calls.lookup id = some r) :
    ServerAuth.Offered P shared (w.client.publicKey P) d.bond d.index (w.client.key d) r.challenge
      input := by
  have hend := h.client id d hd
  cases input with
  | hello version peer =>
    have hhello : d.hello = some (version, peer) := by simpa [delivers, hd] using hdelivers
    exact hend.hello version peer hhello
  | proof proof =>
    have hproof : d.proof = some proof := by simpa [delivers, hd] using hdelivers
    rw [← challengeOf_eq hr]
    exact hend.proof proof hproof
  | draw | register | confirm | fail | release => trivial

lemma Agreed.server_step (h : w.Agreed P shared) {e : ServerEvent} {server : ServerAuth}
    (hdelivers : w.delivers (.server e) = true) (hstep : w.server.step P e = some server) :
    { w with server }.Agreed P shared := by
  have hcases := step_cases h.sound.below hstep
  obtain ⟨hwrote, hgrows⟩ := hcases.grows h.sound h.wrote
  refine ⟨h.sound.step hcases, hwrote, h.below, h.relay, ?_, ?_, ?_⟩
  · dsimp only
    rw [hcases.secret]
    exact h.peer
  · intro id d hd
    have hremembers := remembers_of_grows hcases.le (hgrows id)
    exact (h.client id d hd).mono hremembers.challenge hremembers.key (.of_eq rfl)
  · intro id d r hd hr
    dsimp only at hd hr ⊢
    have hother : ∀ {r}, w.server.calls.lookup id = some r →
        server.End P shared (w.client.publicKey P) d.bond d.index (w.client.key d) r := fun hr =>
      (h.server id d _ hd hr).mono (fun _ hk => hk) hcases.le
    have hle := hcases.le
    cases hcases with
    | begin free opens =>
      obtain ⟨rfl, rfl⟩ | ⟨-, hr⟩ := lookup_calls (wrote_of_opens opens).1 hr
      · have hcall := hdelivers
        simp only [delivers, hd, Option.all_some, decide_eq_true_eq] at hcall
        subst hcall
        exact end_of_opens opens
      · exact hother hr
    | advance running moves turn =>
      obtain ⟨r', hcalls, -⟩ := moves.grows (h.sound.valid _ _ running) (h.wrote _ _ running)
      obtain ⟨rfl, -⟩ | ⟨-, hr⟩ := lookup_calls hcalls hr
      · exact (h.server _ d _ hd running).moves moves h.peer (h.sound.valid _ _ running)
          (h.wrote _ _ running) hle (h.offered hdelivers hd running) hr
      · exact hother hr
    | sessions => exact hother hr

/-- What the relay sends is what the client reads. -/
lemma Agreed.received (h : w.Agreed P shared) {e : DialEvent} {c' : ClientAuth}
    (hmoves : ClientAuth.Moves P w.client id d e c') (hdelivers : w.delivers (.client e) = true)
    (hd : w.client.calls.lookup id = some d) :
    ClientAuth.Received P shared (w.server.challengeOf id) (w.server.keyOf id) d e := by
  have hchallenge : ∀ ch written, e = .challenge id ch written →
      w.server.challengeOf id = some ch := by
    rintro ch written rfl
    obtain ⟨r, hr, hch⟩ : ∃ r, w.server.calls.lookup id = some r ∧ r.challenge = some ch := by
      simpa [delivers, Option.any_eq_true] using hdelivers
    rw [challengeOf_eq hr, hch]
  have hconfirmation : ∀ x, e = .confirmation id x →
      ClientAuth.Received P shared (w.server.challengeOf id) (w.server.keyOf id) d e := by
    rintro x rfl
    obtain ⟨r, hr, hx⟩ : ∃ r, w.server.calls.lookup id = some r ∧ r.confirmation = some x := by
      simpa [delivers, Option.any_eq_true] using hdelivers
    have hend := h.server id d r hd hr
    obtain ⟨k, ch, hk, hch, hx⟩ := hend.confirmation x hx
    rw [challengeOf_eq hr, keyOf_eq hr]
    refine ⟨k, ch, hk, hch, hx, fun hindex => ?_⟩
    obtain ⟨ch', hch', hk'⟩ := hend.derived hindex (session_of_key hk)
    cases hch.symm.trans hch'
    exact Option.some.inj (hk.symm.trans hk')
  cases hmoves with
  | unwritten | answer | linkUnwritten | linkAnswer => exact hchallenge _ _ rfl
  | unconfirmed | confirm => exact hconfirmation _ rfl
  | revoked own =>
    obtain ⟨ch, written, rfl⟩ | ⟨x, rfl⟩ := own
    · exact hchallenge _ _ rfl
    · exact hconfirmation _ rfl
  | fail => trivial

/-- A step of the client that changes at most one call. -/
lemma Agreed.of_calls (h : w.Agreed P shared) (hsteps : w.client.Steps client)
    (hbelow : client.Below)
    (hcalls : ∀ id d', client.calls.lookup id = some d' → w.client.calls.lookup id = some d' ∨
      client.End P shared (w.client.publicKey P) (w.server.challengeOf id) (w.server.keyOf id) d' ∧
      ∀ r, w.server.calls.lookup id = some r →
        w.server.End P shared (w.client.publicKey P) d'.bond d'.index (client.key d') r) :
    { w with client }.Agreed P shared := by
  have hpublic : client.publicKey P = w.client.publicKey P := by
    rw [ClientAuth.publicKey, hsteps.secret, ClientAuth.publicKey]
  refine ⟨h.sound, h.wrote, hbelow, ?_, ?_, ?_, ?_⟩
  · dsimp only
    rw [hsteps.secret, hsteps.relay]
    exact h.relay
  · dsimp only
    rw [hpublic]
    exact h.peer
  · intro id d' hd'
    dsimp only
    rw [hpublic]
    obtain hd | ⟨hend, -⟩ := hcalls id d' hd'
    · exact (h.client id d' hd).mono (fun _ hch => hch) (fun _ hk => hk) hsteps.keeps
    · exact hend
  · intro id d' r hd' hr
    dsimp only
    rw [hpublic]
    obtain hd | ⟨-, hend⟩ := hcalls id d' hd'
    · refine (h.server id d' r hd hr).mono (fun _ hk => ?_) (.refl _)
      exact ClientAuth.key_of_keeps hsteps.keeps (fun _ hsid => hsid) hk
    · exact hend r hr

lemma Agreed.of_call (h : w.Agreed P shared) (hsteps : w.client.Steps client)
    (hbelow : client.Below) (hcalls : client.calls = w.client.calls.insert id d)
    (hclient : client.End P shared (w.client.publicKey P) (w.server.challengeOf id)
      (w.server.keyOf id) d) (hserver : ∀ r, w.server.calls.lookup id = some r →
      w.server.End P shared (w.client.publicKey P) d.bond d.index (client.key d) r) :
    { w with client }.Agreed P shared := by
  refine h.of_calls hsteps hbelow fun id' d' hd' => ?_
  rw [hcalls, HashMap.lookup_insert] at hd'
  split at hd'
  · next heq =>
    cases hd'
    subst heq
    exact .inr ⟨hclient, hserver⟩
  · exact .inl hd'

lemma Agreed.client_step (h : w.Agreed P shared) {e : DialEvent}
    (hdelivers : w.delivers (.client e) = true) (hstep : w.client.step P e = some client) :
    { w with client }.Agreed P shared := by
  obtain ⟨id, bond, index, written, rfl, -, rfl⟩ | ⟨id, d, hd, hmoves⟩ | ⟨sid, session, hsession, rfl⟩ :=
    ClientAuth.step_cases hstep
  · obtain ⟨d', rfl, rfl, hsteps, hbelow, hcalls, hend⟩ :=
      ClientAuth.dial_end h.relay h.below id bond index written
    refine h.of_call hsteps hbelow hcalls hend fun r hr => ?_
    simp only [delivers, hr] at hdelivers
    cases hdelivers
  · obtain ⟨d', hturn, hend⟩ := (h.client id d hd).moves hmoves h.below (h.received hmoves hdelivers hd)
    refine h.of_call hturn.toSteps hturn.below hturn.calls hend fun r hr => ?_
    rw [hturn.bond, hturn.index]
    refine (h.server id d r hd hr).mono (fun _ hk => ?_) (.refl _)
    exact ClientAuth.key_of_keeps hturn.keeps hturn.session hk
  · obtain ⟨hsteps, hbelow⟩ := ClientAuth.invalidate_steps hsession h.below
    exact h.of_calls hsteps hbelow fun id' d₁ hd₁ => .inl hd₁

lemma Agreed.step (h : w.Agreed P shared) (hstep : w.step P e = some w') : w'.Agreed P shared := by
  unfold World.step at hstep
  split at hstep
  · next hdelivers =>
    cases e with
    | server e =>
      obtain ⟨server, hserver, rfl⟩ := Option.map_eq_some_iff.mp hstep
      exact h.server_step hdelivers hserver
    | client e =>
      obtain ⟨client, hclient, rfl⟩ := Option.map_eq_some_iff.mp hstep
      exact h.client_step hdelivers hclient
    | mac key message =>
      cases hstep
      exact h
  · cases hstep

/-! ## What the two ends agree on -/

/-- The two ends of a further link have the sessions of one link 0. -/
def SameSession (w : World) (d : Dial) (r : Running) : Prop :=
  ∃ id₀ d₀ r₀, w.client.calls.lookup id₀ = some d₀ ∧ w.server.calls.lookup id₀ = some r₀ ∧ d₀.index = 0 ∧
    d.session = d₀.session ∧ r.session = r₀.session ∧ d.session.isSome ∧ r.session.isSome

/-- On link 0 the two ends have the same key, and neither rejects what the other sends; on a further
link with the sessions of one link 0 neither does so either. -/
structure Mutual (w : World) (d : Dial) (r : Running) : Prop where
  keys : d.index = 0 → ∀ k k', w.server.key r = some k → w.client.key d = some k' → k = k'
  accepted : d.index = 0 → d.stage = .done none → ∃ k, w.server.key r = some k ∧ w.client.key d = some k
  failures : d.index = 0 →
    (∀ e, r.stage.failure? = some e → e = .io ∨ e = .revoked ∨ e = .bondExists) ∧
    ∀ e, d.stage = .done (some e) → e = .io ∨ e = .revoked
  linkFailures : d.index ≠ 0 → w.SameSession d r →
    (∀ e, r.stage.failure? = some e → e = .io ∨ e = .revoked) ∧
    ∀ e, d.stage = .done (some e) → e = .io ∨ e = .revoked

lemma Agreed.keys (h : w.Agreed P shared) (hd : w.client.calls.lookup id = some d)
    (hr : w.server.calls.lookup id = some r) (hindex : d.index = 0) (hclient : d.session.isSome)
    (hserver : r.session.isSome) : ∃ k, w.server.key r = some k ∧ w.client.key d = some k := by
  obtain ⟨ch, hch, hk⟩ := (h.client id d hd).derived hindex hclient
  obtain ⟨ch', hch', hk'⟩ := (h.server id d r hd hr).derived hindex hserver
  rw [challengeOf_eq hr, hch'] at hch
  cases hch
  exact ⟨_, hk', hk⟩

lemma eq_of_keys (h : ∃ k, w.server.key r = some k ∧ w.client.key d = some k) {k k' : Key}
    (hk : w.server.key r = some k) (hk' : w.client.key d = some k') : k = k' := by
  obtain ⟨k₀, hk₀, hk₀'⟩ := h
  exact (Option.some.inj (hk.symm.trans hk₀)).trans (Option.some.inj (hk'.symm.trans hk₀')).symm

lemma Agreed.mutual (h : w.Agreed P shared) (hd : w.client.calls.lookup id = some d)
    (hr : w.server.calls.lookup id = some r) : w.Mutual d r := by
  have hclient := h.client id d hd
  have hserver := h.server id d r hd hr
  refine ⟨?_, ?_, ?_, ?_⟩
  · intro hindex k k' hk hk'
    have hdial : d.session.isSome := by
      cases hnone : d.session with
      | none => simp [ClientAuth.key, ClientAuth.session, hnone] at hk'
      | some sid => rfl
    exact eq_of_keys (h.keys hd hr hindex hdial (session_of_key hk)) hk hk'
  · intro hindex hstage
    obtain ⟨hdial, hkey⟩ := hclient.accepted hstage
    obtain ⟨k, hk⟩ := Option.isSome_iff_exists.mp hkey
    rw [keyOf_eq hr] at hk
    exact h.keys hd hr hindex hdial (session_of_key hk)
  · intro hindex
    constructor
    · intro e he
      rcases hserver.failure e he with h | h | ⟨-, h⟩ | ⟨hne, -⟩ | ⟨hne, -⟩
      · exact .inl h
      · exact .inr (.inl h)
      · exact .inr (.inr h)
      · exact absurd hindex hne
      · exact absurd hindex hne
    · intro e he
      rcases hclient.failure e he with h | h | ⟨hne, -⟩ | ⟨hne, -⟩
      · exact .inl h
      · exact .inr h
      · exact absurd hindex hne
      · exact absurd hindex hne
  · rintro hindex ⟨id₀, d₀, r₀, hd₀, hr₀, hindex₀, hdsession, hrsession, hdsome, hrsome⟩
    have hkeys := h.keys hd₀ hr₀ hindex₀ (hdsession ▸ hdsome) (hrsession ▸ hrsome)
    rw [key, session, ← hrsession, ClientAuth.key, ClientAuth.session,
      ← hdsession] at hkeys
    constructor
    · intro e he
      rcases hserver.failure e he with h | h | ⟨hzero, -⟩ | ⟨-, -, hnone⟩ | ⟨-, -, k, k', hk, hk', hne⟩
      · exact .inl h
      · exact .inr h
      · exact absurd hzero hindex
      · rw [hnone] at hrsome
        cases hrsome
      · exact absurd (eq_of_keys hkeys hk hk') hne
    · intro e he
      rcases hclient.failure e he with h | h | ⟨-, -, hnone⟩ | ⟨-, -, k, k', hk, hk', hne⟩
      · exact .inl h
      · exact .inr h
      · rw [hnone] at hdsome
        cases hdsome
      · rw [keyOf_eq hr] at hk
        exact absurd (eq_of_keys hkeys hk hk') hne

/-! ## Every run -/

section

variable (P : Primitives) (es : List WorldEvent) (state : Nat → World)

/-- Nobody guesses a nonce: it is drawn once, and no tag over it is computed before. -/
structure Fresh : Prop where
  once : ∀ (i j : Nat) (e e' : WorldEvent) n, es[i]? = some e → es[j]? = some e' → e.nonce? = some n → e'.nonce? = some n → i = j
  unseen : ∀ (i j : Nat) (e e' : WorldEvent) n key rest, es[i]? = some e → es[j]? = some e' → e.nonce? = some n →
    (key, n.toList ++ rest) ∈ (state j).macs P e' → i < j

/-- The key and the message that a call verifies a proof with. -/
def expects (w : World) (r : Running) : Option (Key × Bytes) :=
  match r.stage with
  | .proof peer shared challenge => some (shared, authMessage challenge peer)
  | .linkProof challenge =>
    (w.server.session r).map fun session => (session.key, linkMessage challenge r.call.bond r.call.index)
  | _ => none

/-- Nobody forges a tag: a proof that verifies has been computed before. -/
def Unforged : Prop :=
  ∀ v id r key message, es[v]? = some (.server (.advance id (.proof (tag P key message)))) →
    (state v).server.calls.lookup id = some r → (state v).expects r = some (key, message) →
    ∃ m < v, ∃ e, es[m]? = some e ∧ (key, message) ∈ (state m).macs P e

/-- The exchange of link 0 of the bond is complete and gives the session its key. -/
def ExchangedAt (x : Nat) (bond : Bond) (sid : Nat) (key : Key) : Prop :=
  ∃ id r peer shared challenge,
    es[x]? = some (.server (.advance id (.proof (tag P shared (authMessage challenge peer))))) ∧
    (state x).server.calls.lookup id = some r ∧ r.call = .accept bond 0 ∧
    r.stage = .proof peer shared challenge ∧ Auth.shared P (state x).server.secret peer = some shared ∧
    key = tag P shared (keyMessage bond challenge) ∧
    (state (x + 1)).server.sessions.lookup sid = some ⟨.new peer key, 1⟩

/-- The session is registered for the bond. -/
def RegisteredAt (i : Nat) (bond : Bond) (sid : Nat) : Prop :=
  ∃ id r, es[i]? = some (.server (.advance id .register)) ∧
    (state i).server.calls.lookup id = some r ∧ r.call = .accept bond 0 ∧ r.stage = .register ∧
    r.session = some sid

/-- The proof of a further link is verified with the key of an active session. -/
def VerifiedAt (v id : Nat) (bond : Bond) (index : UInt32) (sid : Nat) (key challenge : Key) : Prop :=
  ∃ r a, es[v]? = some (.server (.advance id (.proof (tag P key (linkMessage challenge bond index))))) ∧
    (state v).server.calls.lookup id = some r ∧ r.call = .accept bond index ∧
    r.stage = .linkProof challenge ∧ r.session = some sid ∧
    (state v).server.sessions.lookup sid = some a ∧ a.session.active = true ∧ a.session.key = key

/-- Somebody other than the relay computes a tag. -/
def ComputedAt (m : Nat) (key : Key) (message : Bytes) : Prop :=
  ∃ e, es[m]? = some e ∧ (∀ e', e ≠ .server e') ∧ (key, message) ∈ (state m).macs P e

/-- A further link was accepted on a proof with the key of the session of its bond: the session comes
from the exchange of link 0, the relay drew a challenge for this call, somebody computed the proof for
it, and it was verified while the session was active. -/
def LinkProved (k id : Nat) (bond : Bond) (index : UInt32) (sid : Nat) : Prop :=
  ∃ x d m v key challenge, x < d ∧ d < m ∧ m < v ∧ v < k ∧ ExchangedAt P es state x bond sid key ∧
    es[d]? = some (.server (.advance id (.draw (some challenge) true))) ∧
    (∀ i e, es[i]? = some e → e.nonce? = some challenge → i = d) ∧
    ComputedAt P es state m key (linkMessage challenge bond index) ∧
    VerifiedAt P es state v id bond index sid key challenge

/-- The session of a bond at position `k`: where it comes from, and that it has its key. -/
def OwnedAt (k : Nat) (bond : Bond) (sid : Nat) : Prop :=
  ∃ x < k, ∃ key a, ExchangedAt P es state x bond sid key ∧
    (state k).server.sessions.lookup sid = some a ∧ a.session.key = key

end

section

variable {es : List WorldEvent} {state : Nat → World} {secret relaySecret : Key}

variable {k : Nat} {bond : Bond}

/-- A step of the world is a step of the relay or leaves the relay as it is. -/
lemma step_server (hsound : w.server.Sound P) (hstep : w.step P e = some w') :
    (∃ e', e = .server e' ∧ ServerAuth.Step P w.server e' w'.server) ∨ w'.server = w.server := by
  unfold World.step at hstep
  split at hstep
  · cases e with
    | server e =>
      obtain ⟨server, hserver, rfl⟩ := Option.map_eq_some_iff.mp hstep
      exact .inl ⟨e, rfl, step_cases hsound.below hserver⟩
    | client e =>
      obtain ⟨client, -, rfl⟩ := Option.map_eq_some_iff.mp hstep
      exact .inr rfl
    | mac key message =>
      cases hstep
      exact .inr rfl
  · cases hstep

lemma step_le (hsound : w.server.Sound P) (hstep : w.step P e = some w') :
    w.server.sessions.Le w'.server.sessions := by
  obtain ⟨e', -, hcases⟩ | hsame := step_server hsound hstep
  · exact hcases.le
  · rw [hsame]
    exact .refl _

lemma OwnedAt.succ {sid : Nat} (h : OwnedAt P es state k bond sid)
    (hle : (state k).server.sessions.Le (state (k + 1)).server.sessions) :
    OwnedAt P es state (k + 1) bond sid := by
  obtain ⟨x, hx, key, a, hexchanged, ha, hkey⟩ := h
  obtain ⟨a', ha', hkey', -⟩ := hle sid a ha
  exact ⟨x, by omega, key, a', hexchanged, ha', hkey'.trans hkey⟩

/-! ### Further links -/

lemma LinkProved.succ {id sid : Nat} {index : UInt32} (h : LinkProved P es state k id bond index sid) :
    LinkProved P es state (k + 1) id bond index sid := by
  obtain ⟨x, d, m, v, key, challenge, hxd, hdm, hmv, hvk, hrest⟩ := h
  exact ⟨x, d, m, v, key, challenge, hxd, hdm, hmv, by omega, hrest⟩

/-- What is behind a call for a further link that has drawn its challenge, and behind one whose proof
has been verified. -/
structure Traced (P : Primitives) (es : List WorldEvent) (state : Nat → World) (k id : Nat) (r : Running) :
    Prop where
  drawn : ∀ bond index sid challenge, r.call = .accept bond index → index ≠ 0 → r.session = some sid →
    r.stage = .linkProof challenge → ∃ x d key a, x < d ∧ d < k ∧ ExchangedAt P es state x bond sid key ∧
      es[d]? = some (.server (.advance id (.draw (some challenge) true))) ∧
      (state k).server.sessions.lookup sid = some a ∧ a.session.key = key
  proved : ∀ bond index sid, r.call = .accept bond index → index ≠ 0 → r.session = some sid →
    (∃ nonce, r.stage = .confirm nonce) ∨ r.stage = .done none → LinkProved P es state k id bond index sid

variable {id : Nat} {r : Running}

lemma Traced.succ (h : Traced P es state k id r)
    (hle : (state k).server.sessions.Le (state (k + 1)).server.sessions) :
    Traced P es state (k + 1) id r := by
  constructor
  · intro bond index sid challenge hcall hindex hsession hstage
    obtain ⟨x, d, key, a, hxd, hdk, hexchanged, hdraw, ha, hkey⟩ :=
      h.drawn bond index sid challenge hcall hindex hsession hstage
    obtain ⟨a', ha', hkey', -⟩ := hle sid a ha
    exact ⟨x, d, key, a', hxd, by omega, hexchanged, hdraw, ha', hkey'.trans hkey⟩
  · intro bond index sid hcall hindex hsession hstage
    exact (h.proved bond index sid hcall hindex hsession hstage).succ

lemma traced_of_failed {e : Failure} (h : r.stage = r.call.ending (some e)) :
    Traced P es state k id r := by
  constructor
  · intro bond index sid challenge _ _ _ hstage
    rw [h, Call.ending] at hstage
    split at hstage <;> cases hstage
  · rintro bond index sid - - - (⟨nonce, hstage⟩ | hstage)
    all_goals
      rw [h, Call.ending] at hstage
      split at hstage <;> cases hstage

lemma traced_of_zero (h : r.call.index = 0) : Traced P es state k id r := by
  have hzero : ∀ bond index, r.call = .accept bond index → index = 0 := by
    intro bond index hcall
    rwa [hcall] at h
  constructor
  · intro bond index sid challenge hcall hindex
    exact absurd (hzero bond index hcall) hindex
  · intro bond index sid hcall hindex
    exact absurd (hzero bond index hcall) hindex

/-- The relay computes confirmations only. -/
lemma macs_server {e : ServerEvent} {key : Key} {message : Bytes}
    (h : (key, message) ∈ w.macs P (.server e)) : ∃ bond index nonce, message = confirmMessage bond index nonce := by
  cases e with
  | advance id input =>
    cases input with
    | confirm written =>
      simp only [macs] at h
      split at h
      · cases h
      split at h
      · obtain ⟨session, -, heq⟩ := List.mem_map.mp h
        exact ⟨_, _, _, (congrArg Prod.snd heq).symm⟩
      · cases h
    | hello | draw | proof | register | fail | release => cases h
  | begin | invalidate | clone | drop => cases h

/-- The proof of a further link is verified. -/
lemma linkProved_of_verified (hmac : Unforged P es state) (hfresh : Fresh P es state)
    {sid x d : Nat} {index : UInt32} {key challenge : Key} {a : Arc}
    (hevent : es[k]? = some (.server (.advance id (.proof (tag P key (linkMessage challenge bond index))))))
    (hr : (state k).server.calls.lookup id = some r) (hcall : r.call = .accept bond index)
    (hstage : r.stage = .linkProof challenge) (hsession : r.session = some sid)
    (ha : (state k).server.sessions.lookup sid = some a) (hactive : a.session.active = true)
    (hkey : a.session.key = key) (hxd : x < d) (hexchanged : ExchangedAt P es state x bond sid key)
    (hdraw : es[d]? = some (.server (.advance id (.draw (some challenge) true)))) :
    LinkProved P es state (k + 1) id bond index sid := by
  have hexpects : (state k).expects r = some (key, linkMessage challenge bond index) := by
    simp [expects, hstage, session, hsession, ha, hkey, hcall, Call.bond, Call.index]
  obtain ⟨m, hmk, e, he, hmem⟩ := hmac k id r key _ hevent hr hexpects
  have hdm : d < m := hfresh.unseen d m _ e challenge key _ hdraw he rfl hmem
  refine ⟨x, d, m, k, key, challenge, hxd, hdm, hmk, Nat.lt_succ_self k, hexchanged, hdraw, ?_, ?_, ?_⟩
  · intro i e' he' hnonce
    exact hfresh.once i d e' _ challenge he' hdraw hnonce rfl
  · refine ⟨e, he, ?_, hmem⟩
    rintro e' rfl
    obtain ⟨bond', index', nonce, hconfirm⟩ := macs_server hmem
    exact confirmMessage_ne_linkMessage _ _ _ _ _ _ hconfirm.symm
  · exact ⟨r, a, hevent, hr, hcall, hstage, hsession, ha, hactive, hkey⟩

lemma Traced.moves (hmac : Unforged P es state) (hfresh : Fresh P es state) {r' : Running}
    {s' : ServerAuth} (h : Traced P es state k id r)
    (hevent : es[k]? = some (.server (.advance id input)))
    (hr : (state k).server.calls.lookup id = some r) (hvalid : (state k).server.Valid P r)
    (howns : (state k).server.Owns (OwnedAt P es state k))
    (hmoves : ServerAuth.Moves P (state k).server id r input s')
    (hserver : (state (k + 1)).server = s') (hr' : s'.calls.lookup id = some r') :
    Traced P es state (k + 1) id r' := by
  have hzero : r.call.reserves = true → r.call.index = 0 := by
    intro hreserves
    obtain ⟨bond, hcall⟩ := Call.eq_accept hreserves
    rw [hcall]
    rfl
  cases hmoves with
  | version | weak | undrawn | unwritten | unproved | linkUnproved | unconfirmed | revoked | fail =>
    cases eq_of_put hr'
    exact traced_of_failed rfl
  | hello | challenge =>
    cases eq_of_put hr'
    exact ⟨by simp, by simp⟩
  | proof stage =>
    cases eq_of_put hr'
    simp only [ServerAuth.Valid, stage] at hvalid
    exact traced_of_zero hvalid.1
  | register stage | release stage =>
    cases eq_of_put hr'
    simp only [ServerAuth.Valid, stage] at hvalid
    exact traced_of_zero (hzero hvalid)
  | linkChallenge stage =>
    cases eq_of_put hr'
    refine ⟨?_, by simp⟩
    rintro bond index sid challenge hcall hindex hsession ⟨⟩
    obtain ⟨x, hxk, key, a, hexchanged, ha, hkey⟩ := howns.calls id r bond index sid hr hcall hsession
    exact ⟨x, k, key, a, hxk, Nat.lt_succ_self k, hexchanged, hevent, by rw [hserver]; exact ha, hkey⟩
  | linkProof stage found active =>
    cases eq_of_put hr'
    refine ⟨by simp, ?_⟩
    rintro bond index sid hcall hindex hsession -
    obtain ⟨a, ha, rfl⟩ := Option.map_eq_some_iff.mp found
    rw [show r.session = some sid from hsession, Option.bind_some] at ha
    obtain ⟨x, d, key, a', hxd, -, hexchanged, hdraw, ha', rfl⟩ :=
      h.drawn bond index sid _ hcall hindex hsession stage
    cases ha.symm.trans ha'
    refine linkProved_of_verified hmac hfresh ?_ hr hcall stage hsession ha active rfl hxd hexchanged hdraw
    rw [hevent, show r.call = .accept bond index from hcall]
    rfl
  | confirm stage =>
    cases eq_of_put hr'
    refine ⟨?_, ?_⟩
    · intro bond index sid challenge _ _ _ hstage
      dsimp only at hstage
      rw [Call.ending] at hstage
      split at hstage <;> cases hstage
    · rintro bond index sid hcall hindex hsession -
      exact (h.proved bond index sid hcall hindex hsession (.inl ⟨_, stage⟩)).succ

/-! ### Every position of a run -/

section

variable (hP : P.Lawful) (hshared : Auth.shared P secret (P.publicKey relaySecret) = some shared)
  (h : StatesOf (step P) (new P secret relaySecret) es state)

include hP hshared h

lemma agreed_at (hk : k ≤ es.length) : (state k).Agreed P shared := by
  refine h.induct (Q := fun _ w => w.Agreed P shared) (new_agreed hP hshared) ?_ hk
  intro k e _ hstep hagreed
  exact hagreed.step hstep

lemma owned_at (hk : k ≤ es.length) : (state k).server.Owns (OwnedAt P es state k) := by
  refine (h.induct (Q := fun k w => k ≤ es.length → w.server.Owns (OwnedAt P es state k)) ?_ ?_ hk) hk
  · exact fun _ => by constructor <;> simp [new, ServerAuth.new]
  · intro k e hevent hstep ih hk
    have hagreed := agreed_at hP hshared h (Nat.le_of_succ_le hk)
    have hold := (ih (Nat.le_of_succ_le hk)).mono fun bond sid howned =>
      howned.succ (step_le hagreed.sound hstep)
    obtain ⟨e', rfl, hcases⟩ | hsame := step_server hagreed.sound hstep
    · refine hold.step hagreed.sound hcases ?_
      rintro id r input bond index sid key rfl hr hcall ⟨peer, sh, challenge, hstage, rfl, rfl, -, hlookup⟩
      have hvalid := hagreed.sound.valid id r hr
      simp only [ServerAuth.Valid, hstage, hcall, Call.index] at hvalid
      obtain ⟨rfl, hsh⟩ := hvalid
      exact ⟨k, Nat.lt_succ_self k, _, _, ⟨id, r, peer, sh, challenge, hevent, hr, hcall, hstage, hsh,
        by rw [hcall]; rfl, hlookup⟩, hlookup, rfl⟩
    · rw [hsame]
      exact hold

/-- A session that has been registered is the one the relay finds, as long as it is active. -/
lemma find_of_registered {i : Nat} (hik : i < k) (hk : k ≤ es.length) {sid : Nat}
    (hregistered : RegisteredAt es state i bond sid)
    (huse : (state k).server.sessions.usable sid = true) :
    (state k).server.find bond = some sid := by
  have hkeep : ∀ w e w', (w.Agreed P shared ∧ (w.server.sessions.lookup sid).isSome ∧
      (w.server.sessions.usable sid = true → w.server.find bond = some sid)) → step P w e = some w' →
      w'.Agreed P shared ∧ (w'.server.sessions.lookup sid).isSome ∧
        (w'.server.sessions.usable sid = true → w'.server.find bond = some sid) := by
    rintro w e w' ⟨hagreed, hsome, hfind⟩ hstep
    have hle := step_le hagreed.sound hstep
    refine ⟨hagreed.step hstep, hle.isSome hsome, fun huse => ?_⟩
    have hfound := hfind (hle.usable hsome huse)
    obtain ⟨e', -, hcases⟩ | hsame := step_server hagreed.sound hstep
    · exact hagreed.sound.find_of_usable hcases hfound huse
    · rw [hsame]
      exact hfound
  obtain ⟨id, r, hevent, hr, hcall, hstage, hsession⟩ := hregistered
  have hagreed := agreed_at hP hshared h (show i ≤ es.length by omega)
  have hstep := h.step_at hevent
  have hserver : (state (i + 1)).server.groups = (state i).server.groups.insert bond sid ∧
      (state (i + 1)).server.sessions = (state i).server.sessions := by
    simp only [World.step, delivers, if_true, ServerAuth.step, hr, Option.bind_some, ServerAuth.advance,
      hstage, hsession, Option.map_some, Option.some.injEq, hcall, Call.bond] at hstep
    rw [← hstep]
    exact ⟨rfl, rfl⟩
  refine (h.inv_from hkeep hik hk ⟨hagreed.step hstep, ?_, fun huse => ?_⟩).2.2 huse
  · rw [hserver.2]
    exact hagreed.sound.sessions id r sid hr hsession
  · refine ServerAuth.find_eq_some.mpr ⟨?_, huse⟩
    rw [hserver.1, HashMap.lookup_insert, if_pos rfl]

lemma traced_at (hmac : Unforged P es state) (hfresh : Fresh P es state) (hk : k ≤ es.length) :
    ∀ id r, (state k).server.calls.lookup id = some r → Traced P es state k id r := by
  refine (h.induct (Q := fun k w => k ≤ es.length → ∀ id r, w.server.calls.lookup id = some r →
    Traced P es state k id r) ?_ ?_ hk) hk
  · intro _ id r hr
    cases (show (new P secret relaySecret).server.calls.lookup id = none from rfl).symm.trans hr
  · intro k e hevent hstep ih hk id r' hr'
    have hk' := Nat.le_of_succ_le hk
    have hagreed := agreed_at hP hshared h hk'
    have hle := step_le hagreed.sound hstep
    obtain ⟨e', rfl, hcases⟩ | hsame := step_server hagreed.sound hstep
    · generalize hserver : (state (k + 1)).server = s' at hcases hr'
      cases hcases with
      | begin free opens =>
        obtain ⟨hcalls, -⟩ := wrote_of_opens opens
        obtain ⟨rfl, rfl⟩ | ⟨-, hr⟩ := lookup_calls hcalls hr'
        · cases opens with
          | idle _ _ _ _ _ _ _ _ stage =>
            constructor
            · intro bond index sid challenge _ _ _ hstage
              obtain ⟨h, -⟩ | ⟨h, -⟩ | ⟨h, -⟩ | ⟨h, -⟩ := stage <;> cases h.symm.trans hstage
            · rintro bond index sid - - - (⟨nonce, hstage⟩ | hstage)
              all_goals obtain ⟨h, -⟩ | ⟨h, -⟩ | ⟨h, -⟩ | ⟨h, -⟩ := stage <;> cases h.symm.trans hstage
          | reserves => exact ⟨nofun, by simp⟩
        · exact (ih hk' id r' hr).succ hle
      | advance running moves turn =>
        obtain ⟨_, hcalls, -⟩ := moves.grows (hagreed.sound.valid _ _ running) (hagreed.wrote _ _ running)
        obtain ⟨rfl, -⟩ | ⟨-, hr⟩ := lookup_calls hcalls hr'
        · exact (ih hk' _ _ running).moves hmac hfresh hevent running (hagreed.sound.valid _ _ running)
            (owned_at hP hshared h hk') moves hserver hr'
        · exact (ih hk' id r' hr).succ hle
      | sessions => exact (ih hk' id r' hr').succ hle
    · rw [hsame] at hr'
      exact (ih hk' id r' hr').succ hle

end

/-! ### Authenticating once more -/

lemma run_server {es' : List ServerEvent} (hdelivers : ∀ e ∈ es', ∀ server, { w with server }.delivers (.server e) = true)
    {server' : ServerAuth} (hrun : runFrom (ServerAuth.step P) w.server es' = some server') :
    runFrom (step P) w (es'.map .server) = some { w with server := server' } := by
  induction es' generalizing w with
  | nil =>
    cases hrun
    rfl
  | cons e es' ih =>
    obtain ⟨server₁, hstep, hrest⟩ := Option.bind_eq_some_iff.mp hrun
    have hfirst : w.step P (.server e) = some { w with server := server₁ } := by
      rw [World.step, if_pos (hdelivers e List.mem_cons_self w.server)]
      simp [hstep]
    rw [List.map_cons, runFrom, hfirst, Option.bind_some]
    exact ih (fun e he server => hdelivers e (List.mem_cons_of_mem _ he) server) hrest

/-- A bond without an active session that nobody authenticates can be authenticated by whoever has a
key. -/
def Reopens (P : Primitives) (w : World) (bond : Bond) : Prop :=
  w.server.find bond = none →
  (∀ id r, w.server.calls.lookup id = some r → r.call = .accept bond 0 → r.stage.inProgress = false) →
  ∀ id peer sh nonce, w.server.calls.lookup id = none → w.client.calls.lookup id = none →
    Auth.shared P w.server.secret peer = some sh →
    ∃ w', runFrom (step P) w ((ServerAuth.authentication P id bond peer sh nonce).map .server) = some w' ∧
      ∃ sid r, w'.server.calls.lookup id = some r ∧ r.stage = .done none ∧ r.session = some sid ∧
        w'.server.find bond = some sid

lemma Agreed.reopens (h : w.Agreed P shared) (bond : Bond) : w.Reopens P bond := by
  intro hfree hidle id peer sh nonce hserver hclient hsh
  obtain ⟨server', hrun, hdone⟩ := h.sound.authenticates hfree hidle hserver hsh nonce
  refine ⟨_, run_server ?_ hrun, hdone⟩
  intro e he server
  simp only [authentication, List.mem_cons, List.not_mem_nil, or_false] at he
  rcases he with rfl | rfl | rfl | rfl | rfl | rfl | rfl <;> simp [delivers, hclient]

def AcceptedLink (w : World) (id : Nat) (bond : Bond) (index : UInt32) (sid : Nat) : Prop :=
  ∃ r, w.server.calls.lookup id = some r ∧ r.call = .accept bond index ∧ index ≠ 0 ∧
    r.stage = .done none ∧ r.session = some sid

/-- In every run of a relay, a client of it and whoever else talks to the relay: no two active sessions
have been registered for one bond; every further link was accepted on a proof with the key of a session
of its bond; a bond whose session has ended can be authenticated again; and the client and the relay
agree. -/
theorem bonds_belong_to_sessions (P : Primitives) (hP : P.Lawful) (secret relaySecret : Key)
    (hcontributory : wasContributory (P.diffieHellman secret (P.publicKey relaySecret)) = true)
    (es : List WorldEvent) (state : Nat → World)
    (h : StatesOf (step P) (new P secret relaySecret) es state)
    (hmac : Unforged P es state) (hfresh : Fresh P es state) (k : Nat) (hk : k ≤ es.length) :
    (∀ bond sid sid' i i', i < k → i' < k → RegisteredAt es state i bond sid →
      RegisteredAt es state i' bond sid' → (state k).server.sessions.usable sid = true →
      (state k).server.sessions.usable sid' = true → sid = sid') ∧
    (∀ id bond index sid, (state k).AcceptedLink id bond index sid →
      LinkProved P es state k id bond index sid) ∧
    (∀ bond, (state k).Reopens P bond) ∧
    ∀ id d r, (state k).client.calls.lookup id = some d → (state k).server.calls.lookup id = some r →
      (state k).Mutual d r := by
  have hshared : Auth.shared P secret (P.publicKey relaySecret) =
      some (P.diffieHellman secret (P.publicKey relaySecret)) := if_pos hcontributory
  have hagreed := agreed_at hP hshared h hk
  refine ⟨?_, ?_, hagreed.reopens, fun id d r => hagreed.mutual⟩
  · intro bond sid sid' i i' hi hi' hregistered hregistered' huse huse'
    have hfind := find_of_registered hP hshared h hi hk hregistered huse
    have hfind' := find_of_registered hP hshared h hi' hk hregistered' huse'
    exact Option.some.inj (hfind.symm.trans hfind')
  · rintro id bond index sid ⟨r, hr, hcall, hindex, hstage, hsession⟩
    exact (traced_at hP hshared h hmac hfresh hk id r hr).proved bond index sid hcall hindex hsession
      (.inr hstage)

/-! ### A client with two links -/

/-- The client's secret and the relay's, the bond, and the two challenges. -/
def linkedSecret : Key := .replicate 32 1

def linkedRelay : Key := .replicate 32 2

def linkedBond : Bond := .replicate 16 3

def linkedNonce (n : UInt8) : Key := .replicate 32 n

def linkedShared : Key := Primitives.transparent.diffieHellman linkedSecret linkedRelay

def linkedKey : Key := tag .transparent linkedShared (keyMessage linkedBond (linkedNonce 4))

def linkedRun : List WorldEvent :=
  [.client (.dial 0 linkedBond 0 true), .server (.begin 0 (.accept linkedBond 0)),
    .server (.advance 0 (.hello 2 linkedSecret)), .server (.advance 0 (.draw (some (linkedNonce 4)) true)),
    .client (.challenge 0 (linkedNonce 4) true),
    .server (.advance 0 (.proof (tag .transparent linkedShared (authMessage (linkedNonce 4) linkedSecret)))),
    .server (.advance 0 .register), .server (.advance 0 (.confirm true)), .server (.advance 0 .release),
    .client (.confirmation 0 (tag .transparent linkedKey (confirmMessage linkedBond 0 zero))),
    .client (.dial 1 linkedBond 1 true), .server (.begin 1 (.accept linkedBond 1)),
    .server (.advance 1 (.draw (some (linkedNonce 5)) true)), .client (.challenge 1 (linkedNonce 5) true),
    .server (.advance 1 (.proof (tag .transparent linkedKey (linkMessage (linkedNonce 5) linkedBond 1)))),
    .server (.advance 1 (.confirm true)),
    .client (.confirmation 1 (tag .transparent linkedKey (confirmMessage linkedBond 1 (linkedNonce 5))))]

def linkedState (k : Nat) : World :=
  (runFrom (step .transparent) (new .transparent linkedSecret linkedRelay) (linkedRun.take k)).getD
    (new .transparent linkedSecret linkedRelay)

/-- The proof of an event has been computed before, as far as it is the one expected. -/
def proofComputed (v : Nat) : WorldEvent → Bool
  | .server (.advance id (.proof _)) =>
    ((linkedState v).server.calls.lookup id).all fun r =>
      ((linkedState v).expects r).all fun expected =>
        (List.range v).any fun m =>
          linkedRun[m]?.any fun e => expected ∈ (linkedState m).macs .transparent e
  | _ => true

lemma unforged_linkedRun : Unforged .transparent linkedRun linkedState := by
  have hcheck : ∀ v < 17, linkedRun[v]?.all (proofComputed v) = true := by decide +kernel
  intro v id r key message hevent hr hexpects
  have hv := hcheck v (List.getElem?_eq_some_iff.mp hevent).1
  simp only [hevent, Option.all_some, proofComputed, hr, hexpects, List.any_eq_true, List.mem_range] at hv
  obtain ⟨m, hm, hany⟩ := hv
  cases he : linkedRun[m]? with
  | none =>
    rw [he] at hany
    cases hany
  | some e =>
    rw [he] at hany
    exact ⟨m, hm, e, he, of_decide_eq_true hany⟩

lemma fresh_linkedRun : Fresh .transparent linkedRun linkedState := by
  have hdraws : ∀ i < 17, linkedRun[i]?.bind WorldEvent.nonce? =
      if i = 3 then some (linkedNonce 4) else if i = 12 then some (linkedNonce 5) else none := by
    decide +kernel
  have hmacs : ∀ j < 17, linkedRun[j]?.all fun e =>
      ((linkedState j).macs .transparent e).all fun (_, message) =>
        (message.take 32 = (linkedNonce 4).toList → 3 < j) ∧
        (message.take 32 = (linkedNonce 5).toList → 12 < j) := by
    decide +kernel
  -- a nonce and where it is drawn
  have hdrawn : ∀ {i : Nat} {e : WorldEvent} {n : Key}, linkedRun[i]? = some e → e.nonce? = some n →
      i = 3 ∧ n = linkedNonce 4 ∨ i = 12 ∧ n = linkedNonce 5 := by
    intro i e n he hn
    have hi := hdraws i (List.getElem?_eq_some_iff.mp he).1
    rw [he, Option.bind_some, hn] at hi
    split at hi
    · next heq => exact .inl ⟨heq, Option.some.inj hi⟩
    · split at hi
      · next heq => exact .inr ⟨heq, Option.some.inj hi⟩
      · cases hi
  have hne : linkedNonce 4 ≠ linkedNonce 5 := by decide
  constructor
  · intro i j e e' n he he' hn hn'
    obtain ⟨rfl, rfl⟩ | ⟨rfl, rfl⟩ := hdrawn he hn <;>
      obtain ⟨rfl, h⟩ | ⟨rfl, h⟩ := hdrawn he' hn'
    · rfl
    · exact absurd h hne
    · exact absurd h.symm hne
    · rfl
  · intro i j e e' n key rest he he' hn hmem
    have hj := hmacs j (List.getElem?_eq_some_iff.mp he').1
    rw [he', Option.all_some, List.all_eq_true] at hj
    have hmessage := of_decide_eq_true (hj _ hmem)
    have htake : (n.toList ++ rest).take 32 = n.toList := List.take_left' n.toList_length
    obtain ⟨rfl, rfl⟩ | ⟨rfl, rfl⟩ := hdrawn he hn
    · exact hmessage.1 htake
    · exact hmessage.2 htake

theorem bonds_belong_to_sessions_linkedRun :
    (linkedState 17).AcceptedLink 1 linkedBond 1 0 ∧
      LinkProved .transparent linkedRun linkedState 17 1 linkedBond 1 0 ∧
      ∀ d r, (linkedState 17).client.calls.lookup 1 = some d → (linkedState 17).server.calls.lookup 1 = some r →
        (linkedState 17).Mutual d r := by
  have haccepted : (linkedState 17).AcceptedLink 1 linkedBond 1 0 :=
    ⟨⟨.accept linkedBond 1, .done none, some 0, some (linkedNonce 5),
      some (tag .transparent linkedKey (confirmMessage linkedBond 1 (linkedNonce 5)))⟩,
      by decide +kernel, rfl, by decide, rfl, rfl⟩
  obtain ⟨-, hproved, -, hmutual⟩ := bonds_belong_to_sessions .transparent Primitives.transparent_lawful
    linkedSecret linkedRelay (by decide +kernel) linkedRun linkedState
    (statesOf_of_isSome (by decide +kernel)) unforged_linkedRun fresh_linkedRun 17 le_rfl
  exact ⟨haccepted, hproved 1 linkedBond 1 0 haccepted, hmutual 1⟩

end

end World

end Fluxpeer.Relay.Auth
