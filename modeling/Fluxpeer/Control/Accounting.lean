import Fluxpeer.Control.Memory

/-!
# Uses of invites in memory

The devices created through an invite, counted along a run of the store in memory, are the uses of
the invite up to the width of its counter. A limit keeps the counter below that width, and so do the
hosts of a network as long as none of its devices is revoked.
-/

namespace Fluxpeer.Control

open Lib Net HashMap

namespace Memory

variable {text : AddrText} {s s' : Memory}

/-! ## Uses -/

/-- The devices created through each invite, after a step to `s'`. A code that is given out again
starts over. -/
def tally (s s' : Memory) (created : String → Nat) : Op → String → Nat
  | .createInvite networkId _ _ code =>
    if s.networks.contains networkId then Function.update created code 0 else created
  | .enroll code _ _ _ =>
    Function.update created code (created code + (s'.devices.len - s.devices.len))
  | _ => created

variable (text) in
/-- A step of the store, with the devices created through each invite. -/
def countedStep (t : Memory × (String → Nat)) (op : Op) : Memory × (String → Nat) :=
  (t.1.step text op, tally t.1 (t.1.step text op) t.2 op)

variable (text) in
def counted (ops : List Op) : Memory × (String → Nat) :=
  ops.foldl (countedStep text) (new, fun _ => 0)

/-- The counter of an invite against the devices created through it. -/
structure Accounted (s : Memory) (created : String → Nat) : Prop where
  uses : ∀ code invite, s.invites.lookup code = some invite → invite.uses = created code % 2 ^ 32
  limit : ∀ code invite m, s.invites.lookup code = some invite → invite.maxUses = some m →
    created code ≤ m ∧ m < 2 ^ 32

variable {op : Op} {created : String → Nat}

lemma tally_same (noEnroll : ∀ code name key now, op = .enroll code name key now → s' = s)
    (noInvite : ∀ n expiry limit code, op = .createInvite n expiry limit code → s.networks.contains n = false) :
    tally s s' created op = created := by
  cases op with
  | createInvite n expiry limit code => simp [tally, noInvite n expiry limit code rfl]
  | enroll code name key now =>
    simp [tally, noEnroll code name key now rfl]
  | _ => rfl

variable {code name wgPublicKey key : String} {invite : Invite} {device : Device} {now : Int}

lemma tally_enrolled (hs : s.Sound) (h : Enrolled s code key invite s' device) :
    tally s s' created (.enroll code name wgPublicKey now)
      = Function.update created code (created code + 1) := by
  have hlen : s'.devices.len = s.devices.len + 1 := by
    rw [h.devices, h.created.1, len_insert_of_none hs.unissued]
  simp [tally, hlen]

lemma Accounted.change (h : Accounted s created) (hs : s.Sound) (hchange : Change s op s') :
    Accounted s' (tally s s' created op) := by
  cases hchange with
  | other hinvites hnoEnroll hnoInvite =>
    rw [tally_same hnoEnroll hnoInvite]
    exact ⟨hinvites ▸ h.uses, hinvites ▸ h.limit⟩
  | @invited n expiry limit code hknown =>
    have htally (s' : Memory) : tally s s' created (.createInvite n expiry limit code)
        = Function.update created code 0 := if_pos hknown
    rw [htally]
    constructor
    · intro c invite hc
      rw [lookup_insert] at hc
      rw [Function.update_apply]
      split at hc
      · next heq =>
        cases hc
        simp [heq]
      · next hne => simpa [hne] using h.uses c invite hc
    · intro c invite m hc hm
      rw [lookup_insert] at hc
      rw [Function.update_apply]
      split at hc
      · next heq =>
        cases hc
        obtain ⟨m', -, rfl⟩ := Option.map_eq_some_iff.mp hm
        simpa [heq] using m'.toNat_lt
      · next hne => simpa [hne] using h.limit c invite m hc hm
  | @enrolled code _ _ _ _ invite _ _ hfound hredeemable hnew =>
    rw [tally_enrolled hs hnew]
    constructor
    · intro c invite' hc
      rw [hnew.invites, lookup_insert] at hc
      rw [Function.update_apply]
      split at hc
      · next heq =>
        cases hc
        simp [heq, h.uses code invite hfound]
      · next hne => simpa [hne] using h.uses c invite' hc
    · intro c invite' m hc hm
      rw [hnew.invites, lookup_insert] at hc
      rw [Function.update_apply]
      split at hc
      · next heq =>
        cases hc
        obtain ⟨hle, hm32⟩ := h.limit code invite m hfound hm
        have hlt : invite.uses < m := by
          simp only [Invite.isRedeemable, decide_eq_true_eq] at hredeemable
          exact hredeemable.2 m hm
        -- up to the limit the counter has not wrapped
        rw [h.uses code invite hfound, Nat.mod_eq_of_lt (by omega)] at hlt
        simp only [heq, if_true]
        exact ⟨hlt, hm32⟩
      · next hne => simpa [hne] using h.limit c invite' m hc hm

/-! ## Hosts -/

/-- Every network has an allocator, whose keys belong to active devices of the network, and the
networks that wait for the lock have theirs to come. -/
structure Placed (s : Memory) : Prop where
  keyed : ∀ n ipam key, s.ipams.lookup n = some ipam → ipam.byKey.contains key = true →
    s.HasKey n key
  networks : ∀ n, s.networks.contains n = true → s.ipams.contains n = true
  pending : ∀ p ∈ s.pending, p.2.byKey = ∅ ∧ s.ipams.lookup p.1.id = none ∧
    ∃ k < s.seq, p.1.id = "net-" ++ Nat.repr k
  distinct : (s.pending.map (·.1.id)).Nodup
  issued : ∀ n, s.ipams.contains n = true → ∃ k < s.seq, n = "net-" ++ Nat.repr k

/-- The devices created through an invite hold hosts of its network. -/
def Fits (s : Memory) (created : String → Nat) : Prop :=
  ∀ code invite, s.invites.lookup code = some invite →
    ∃ ipam, s.ipams.lookup invite.networkId = some ipam ∧ created code ≤ ipam.inUse

/-- The allocators after a device of network `n` came in. -/
def Stocked (n key : String) (s s' : Memory) : Prop :=
  s'.ipams = s.ipams ∨ ∃ ipam ipam', s.ipams.lookup n = some ipam ∧ ipam.Grows key ipam' ∧
    s'.ipams = s.ipams.insert n ipam'

variable {n : String} {ops : List Op}

lemma Stocked.lookup {m : String} {ipam' : Ipam} (h : Stocked n key s s')
    (hipam : s'.ipams.lookup m = some ipam') : ∃ ipam, s.ipams.lookup m = some ipam ∧
      ipam.inUse ≤ ipam'.inUse ∧
      ∀ k, ipam'.byKey.contains k = true → ipam.byKey.contains k = true ∨ k = key ∧ m = n := by
  rcases h with h | ⟨ipam, grown, hlookup, hgrows, h⟩
  · rw [h] at hipam
    exact ⟨ipam', hipam, le_rfl, fun _ => .inl⟩
  rw [h, lookup_insert] at hipam
  split at hipam
  · next heq =>
    cases hipam
    exact ⟨ipam, heq ▸ hlookup, hgrows.1, fun k hk => (hgrows.2 k hk).imp_right fun hk => ⟨hk, heq⟩⟩
  · exact ⟨ipam', hipam, le_rfl, fun _ => .inl⟩

lemma Stocked.contains {m : String} (h : Stocked n key s s') :
    s'.ipams.contains m = s.ipams.contains m := by
  rcases h with h | ⟨ipam, grown, hlookup, -, h⟩
  · rw [h]
  rw [h, HashMap.contains, HashMap.lookup_insert]
  split
  · next heq => rw [heq, HashMap.contains, hlookup]; rfl
  · rfl

/-- A device that came in keeps the allocators in order. -/
lemma Placed.adds {d : Device} (hs : s.Placed) (hsound : s.Sound) (hadds : s.Adds d s')
    (hactive : d.status = .active) (hstock : Stocked d.networkId d.wgPublicKey s s')
    (hpending : s'.pending = s.pending)
    (hnetworks : ∀ n, s'.networks.contains n = s.networks.contains n) : s'.Placed := by
  have hkeeps : ∀ n key, s.HasKey n key → s'.HasKey n key := by
    rintro n key ⟨id, d', hd', hrest⟩
    have hne : id ≠ d.id := by
      rintro rfl
      rw [hadds.id, hsound.unissued] at hd'
      cases hd'
    exact ⟨id, d', by rw [hadds.devices, lookup_insert, if_neg hne, hd'], hrest⟩
  have hown : s'.HasKey d.networkId d.wgPublicKey :=
    ⟨d.id, d, by rw [hadds.devices, lookup_insert, if_pos rfl], rfl, hactive, rfl⟩
  refine ⟨?_, ?_, ?_, hpending ▸ hs.distinct, ?_⟩
  · intro n ipam' key hipam' hkey
    obtain ⟨ipam, hipam, -, hold⟩ := hstock.lookup hipam'
    rcases hold key hkey with hkey | ⟨rfl, rfl⟩
    · exact hkeeps n key (hs.keyed n ipam key hipam hkey)
    · exact hown
  · intro n hn
    rw [hstock.contains]
    exact hs.networks n (hnetworks n ▸ hn)
  · intro p hp
    obtain ⟨hempty, hnone, k, hk, hid⟩ := hs.pending p (hpending ▸ hp)
    refine ⟨hempty, ?_, k, by rw [hadds.seq]; omega, hid⟩
    have hcontains := hstock.contains (m := p.1.id)
    simpa [contains, hnone] using hcontains
  · intro n hn
    obtain ⟨k, hk, hid⟩ := hs.issued n (hstock.contains ▸ hn)
    exact ⟨k, by rw [hadds.seq]; omega, hid⟩

lemma Placed.of_eq (hs : s.Placed) (hdevices : s'.devices = s.devices)
    (hipams : s'.ipams = s.ipams) (hnetworks : ∀ n, s'.networks.contains n = s.networks.contains n)
    (hpending : s'.pending = s.pending) (hseq : s.seq ≤ s'.seq) : s'.Placed := by
  refine ⟨?_, ?_, ?_, hpending ▸ hs.distinct, ?_⟩
  · intro n ipam key hipam hkey
    obtain ⟨id, d, hd, hrest⟩ := hs.keyed n ipam key (hipams ▸ hipam) hkey
    exact ⟨id, d, hdevices ▸ hd, hrest⟩
  · intro n hn
    rw [hipams]
    exact hs.networks n (hnetworks n ▸ hn)
  · intro p hp
    obtain ⟨hempty, hnone, k, hk, hid⟩ := hs.pending p (hpending ▸ hp)
    exact ⟨hempty, hipams ▸ hnone, k, by omega, hid⟩
  · intro n hn
    obtain ⟨k, hk, hid⟩ := hs.issued n (hipams ▸ hn)
    exact ⟨k, by omega, hid⟩

lemma ImportStep.stocked (h : ImportStep n key s s') : Stocked n key s s' :=
  h.ipams.imp_right fun ⟨ipam, host, hlookup, heq⟩ =>
    ⟨ipam, ipam.reserve key host, hlookup, ipam.reserve_grows key host, heq⟩

/-- The key is new to the network, so its allocator gives out another host. -/
lemma Enrolled.grown (h : Enrolled s code key invite s' device) (hplaced : s.Placed) :
    ∃ ipam ipam', s.ipams.lookup invite.networkId = some ipam ∧ ipam.Grows key ipam' ∧
      ipam.inUse < ipam'.inUse ∧ s'.ipams = s.ipams.insert invite.networkId ipam' := by
  obtain ⟨ipam, ipam', v4, v6, hipam, hallocate, heq⟩ := h.allocated
  have hnew : ipam.byKey.lookup key = none := by
    rw [← Option.not_isSome_iff_eq_none]
    exact fun hsome => h.fresh (hplaced.keyed _ ipam key hipam hsome)
  obtain ⟨hgrows, hlt⟩ := Ipam.allocate_new hnew hallocate
  exact ⟨ipam, ipam', hipam, hgrows, hlt, heq⟩

lemma Placed.enrolled (hs : s.Placed) (hsound : s.Sound)
    (h : Enrolled s code key invite s' device) : s'.Placed := by
  obtain ⟨-, hnetwork, hkey, hactive⟩ := h.created
  obtain ⟨ipam, ipam', hipam, hgrows, -, heq⟩ := h.grown hs
  refine hs.adds hsound h.adds hactive ?_ h.pending h.networks
  rw [hnetwork, hkey]
  exact .inr ⟨ipam, ipam', hipam, hgrows, heq⟩

lemma Placed.inserted {k : Nat} {net : Network} {ipam : Ipam} (hs : s.Placed)
    (hk : s.pending[k]? = some (net, ipam)) :
    Placed { s.insertNetwork net ipam with pending := s.pending.eraseIdx k } := by
  obtain ⟨hempty, hnone, hissued⟩ := hs.pending _ (List.mem_of_getElem? hk)
  refine ⟨?_, ?_, ?_, ?_, ?_⟩
  · intro n ipam' key hipam' hkey
    rw [insertNetwork, lookup_insert] at hipam'
    split at hipam'
    · cases hipam'
      rw [contains, hempty] at hkey
      cases hkey
    · exact hs.keyed n ipam' key hipam' hkey
  · intro n hn
    rw [insertNetwork, contains, lookup_insert] at hn ⊢
    split
    · rfl
    · next hne =>
      rw [if_neg hne] at hn
      exact hs.networks n hn
  · intro p hp
    obtain ⟨i, hi, hget⟩ := List.mem_eraseIdx_iff_getElem?.mp hp
    obtain ⟨hp₁, hp₂, hp₃⟩ := hs.pending p (List.mem_of_getElem? hget)
    refine ⟨hp₁, ?_, hp₃⟩
    have hne : p.1.id ≠ net.id := by
      intro heq
      have hlt : i < (s.pending.map (·.1.id)).length := by
        rw [List.length_map]
        exact (List.getElem?_eq_some_iff.mp hget).1
      refine hi ((List.getElem?_inj hlt hs.distinct).mp ?_)
      simp [hget, hk, heq]
    rw [insertNetwork, lookup_insert, if_neg hne, hp₂]
  · rw [← List.eraseIdx_map]
    exact hs.distinct.sublist (List.eraseIdx_sublist _ _)
  · intro n hn
    rw [insertNetwork, contains, lookup_insert] at hn
    split at hn
    · next heq => exact heq ▸ hissued
    · exact hs.issued n hn

lemma Placed.drawn (hs : s.Placed) (name : String) (globalId : Nat) :
    (s.drawNetwork name globalId).Placed := by
  have hle {P : Nat → Prop} (h : ∃ k < s.seq, P k) : ∃ k < s.seq + 1, P k := by
    obtain ⟨k, hk, hP⟩ := h
    exact ⟨k, by omega, hP⟩
  have hnew {id : String} (h : ∃ k < s.seq, id = "net-" ++ Nat.repr k) :
      "net-" ++ Nat.repr s.seq ≠ id := by
    rintro rfl
    obtain ⟨k, hk, heq⟩ := h
    have hseq := eq_of_repr_eq ((String.append_right_inj "net-").mp heq)
    omega
  refine ⟨hs.keyed, hs.networks, ?_, ?_, fun n hn => hle (hs.issued n hn)⟩
  · intro p hp
    rcases List.mem_cons.mp hp with rfl | hp
    · refine ⟨rfl, ?_, s.seq, Nat.lt_succ_self _, rfl⟩
      rw [← Option.not_isSome_iff_eq_none]
      exact fun hsome => hnew (hs.issued _ hsome) rfl
    · obtain ⟨hp₁, hp₂, hp₃⟩ := hs.pending p hp
      exact ⟨hp₁, hp₂, hle hp₃⟩
  · refine List.nodup_cons.mpr ⟨?_, hs.distinct⟩
    rw [List.mem_map]
    rintro ⟨p, hp, heq⟩
    exact hnew (hs.pending p hp).2.2 heq.symm

def Op.isRevoke : Op → Bool
  | .revokeDevice _ => true
  | _ => false

lemma Placed.bump (hs : s.Placed) (n : String) : (s.bumpEpoch n).Placed :=
  hs.of_eq (devices_bumpEpoch s n) (ipams_bumpEpoch s n) (bumpEpoch_contains s n)
    (pending_bumpEpoch s n) (seq_bumpEpoch s n).ge

lemma Placed.steps (hs : s.Placed) (hsound : s.Sound) (h : s.Steps text op s')
    (hop : op.isRevoke = false) : s'.Placed := by
  cases h with
  | same => exact hs
  | drawn name globalId => exact hs.drawn name globalId
  | inserted waits => exact hs.inserted waits
  | invited => exact hs.of_eq rfl rfl (fun _ => rfl) rfl le_rfl
  | enrolled _ _ h => exact hs.enrolled hsound h
  | @imported n _ _ _ h =>
    have hkeep : ∀ s key s', Placed s ∧ Sound s → ImportStep n key s s' → Placed s' ∧ Sound s' := by
      rintro s key s' ⟨hs, hsound⟩ hstep
      obtain ⟨d, hadds⟩ := hstep.adds
      exact ⟨hs.adds hsound hadds rfl hstep.stocked hstep.pending
        (fun _ => by rw [hstep.networks]), hsound.adds hadds⟩
    exact (importDevices_inv hkeep (fun _ hs => ⟨hs.1.bump n, hs.2.bump n⟩) ⟨hs, hsound⟩ h).1
  | revoked => cases hop
  | counted => exact hs.of_eq rfl rfl (fun _ => rfl) rfl (Nat.le_succ _)
  | bumped n => exact hs.bump n

/-- The allocators of `s'` have at least the hosts in use that those of `s` have. -/
def Above (s s' : Memory) : Prop :=
  ∀ n ipam, s.ipams.lookup n = some ipam →
    ∃ ipam', s'.ipams.lookup n = some ipam' ∧ ipam.inUse ≤ ipam'.inUse

lemma Above.of_eq (h : s'.ipams = s.ipams) : s.Above s' := fun _ ipam hipam =>
  ⟨ipam, h ▸ hipam, le_rfl⟩

lemma Stocked.above (h : Stocked n key s s') : s.Above s' := by
  intro m ipam hipam
  rcases h with h | ⟨ipam₀, grown, hlookup, hgrows, h⟩
  · exact Above.of_eq h m ipam hipam
  rw [h, lookup_insert]
  split
  · next heq =>
    subst heq
    cases hlookup.symm.trans hipam
    exact ⟨grown, rfl, hgrows.1⟩
  · exact ⟨ipam, hipam, le_rfl⟩

lemma Above.trans {s'' : Memory} (h : s.Above s') (h' : s'.Above s'') : s.Above s'' := by
  intro n ipam hipam
  obtain ⟨ipam₁, hipam₁, hle₁⟩ := h n ipam hipam
  obtain ⟨ipam₂, hipam₂, hle₂⟩ := h' n ipam₁ hipam₁
  exact ⟨ipam₂, hipam₂, hle₁.trans hle₂⟩

lemma Steps.above (h : s.Steps text op s') (hs : s.Placed) (hop : op.isRevoke = false) :
    s.Above s' := by
  cases h with
  | @inserted _ net _ waits =>
    obtain ⟨-, hnone, -⟩ := hs.pending _ (List.mem_of_getElem? waits)
    intro n ipam' hipam'
    have hne : n ≠ net.id := by
      rintro rfl
      cases hnone.symm.trans hipam'
    exact ⟨ipam', by rw [insertNetwork, lookup_insert, if_neg hne, hipam'], le_rfl⟩
  | enrolled _ _ h =>
    obtain ⟨ipam, ipam', hipam, hgrows, -, heq⟩ := h.grown hs
    exact Stocked.above (.inr ⟨ipam, ipam', hipam, hgrows, heq⟩)
  | @imported n _ _ _ h =>
    have hkeep : ∀ s₁ key s₂, s.Above s₁ → ImportStep n key s₁ s₂ → s.Above s₂ :=
      fun _ _ _ habove hstep => habove.trans hstep.stocked.above
    exact importDevices_inv hkeep (fun s₁ habove => habove.trans (.of_eq (ipams_bumpEpoch s₁ n)))
      (.of_eq rfl) h
  | revoked => cases hop
  | bumped n => exact .of_eq (ipams_bumpEpoch s n)
  | _ => exact .of_eq rfl

lemma Fits.change (h : Fits s created) (hs : s.Sound) (hplaced : s.Placed) (habove : s.Above s')
    (hchange : Change s op s') : Fits s' (tally s s' created op) := by
  have hold : ∀ {code invite}, s.invites.lookup code = some invite →
      ∃ ipam', s'.ipams.lookup invite.networkId = some ipam' ∧ created code ≤ ipam'.inUse := by
    intro code invite hinvite
    obtain ⟨ipam, hipam, hle⟩ := h code invite hinvite
    obtain ⟨ipam', hipam', hle'⟩ := habove _ ipam hipam
    exact ⟨ipam', hipam', hle.trans hle'⟩
  cases hchange with
  | other hinvites hnoEnroll hnoInvite =>
    rw [tally_same hnoEnroll hnoInvite]
    intro code invite hinvite
    exact hold (hinvites ▸ hinvite)
  | @invited n expiry limit code hknown =>
    rw [tally, if_pos hknown]
    intro c invite hc
    rw [lookup_insert] at hc
    rw [Function.update_apply]
    split at hc
    · next heq =>
      cases hc
      obtain ⟨ipam, hipam⟩ := Option.isSome_iff_exists.mp (hplaced.networks n hknown)
      exact ⟨ipam, hipam, by simp [heq]⟩
    · next hne =>
      rw [if_neg hne]
      exact hold hc
  | @enrolled code _ _ _ _ invite _ _ hfound _ hnew =>
    rw [tally_enrolled hs hnew]
    intro c invite' hc
    rw [hnew.invites, lookup_insert] at hc
    rw [Function.update_apply]
    split at hc
    · next heq =>
      cases hc
      obtain ⟨ipam, ipam', hipam, -, hlt, hipams⟩ := hnew.grown hplaced
      obtain ⟨ipam₀, hipam₀, hle⟩ := h code invite hfound
      cases hipam.symm.trans hipam₀
      refine ⟨ipam', by rw [hipams, lookup_insert, if_pos rfl], ?_⟩
      rw [if_pos heq]
      omega
    · next hne =>
      rw [if_neg hne]
      exact hold hc

/-! ## Runs -/

variable (text) in
lemma counted_sound (ops : List Op) :
    (counted text ops).1.Sound ∧ Accounted (counted text ops).1 (counted text ops).2 := by
  refine List.foldlRecOn (motive := fun t : Memory × (String → Nat) =>
    t.1.Sound ∧ Accounted t.1 t.2) ops _ ?_ ?_
  · exact ⟨⟨nofun, nofun⟩, ⟨nofun, nofun⟩⟩
  · rintro t ⟨hs, hacc⟩ op -
    have hsteps := step_steps text t.1 op
    exact ⟨hs.steps hsteps, hacc.change hs hsteps.change⟩

/-- Without revocations a network has at most as many devices created through invites as it has
hosts. -/
lemma counted_fits (hops : ∀ op ∈ ops, op.isRevoke = false) :
    Fits (counted text ops).1 (counted text ops).2 := by
  refine (List.foldlRecOn (motive := fun t : Memory × (String → Nat) =>
    t.1.Sound ∧ t.1.Placed ∧ Fits t.1 t.2) ops _ ?_ ?_).2.2
  · exact ⟨⟨nofun, nofun⟩, ⟨nofun, nofun, nofun, List.nodup_nil, nofun⟩, nofun⟩
  · rintro t ⟨hs, hplaced, hfits⟩ op hop
    have hsteps := step_steps text t.1 op
    exact ⟨hs.steps hsteps, hplaced.steps hs hsteps (hops op hop),
      hfits.change hs hplaced (hsteps.above hplaced (hops op hop)) hsteps.change⟩

/-- The counter of an invite is the number of devices created through it, up to the width of the
counter. -/
lemma counted_uses (hinvite : (counted text ops).1.invites.lookup code = some invite) :
    invite.uses = (counted text ops).2 code % 2 ^ 32 ∧
      ((∀ op ∈ ops, op.isRevoke = false) ∨ invite.maxUses.isSome = true →
        invite.uses = (counted text ops).2 code) ∧
      ∀ m, invite.maxUses = some m → invite.uses ≤ m := by
  obtain ⟨-, hacc⟩ := counted_sound text ops
  have huses := hacc.uses code invite hinvite
  refine ⟨huses, ?_, ?_⟩
  · rintro (hops | hlimited)
    · obtain ⟨ipam, -, hle⟩ := counted_fits hops code invite hinvite
      have hhosts : ipam.inUse ≤ deviceHosts.length := ipam.inUse_le
      have hlen : deviceHosts.length < 2 ^ 32 := by
        simp [deviceHosts, DEVICE_HOST_MAX, DEVICE_HOST_MIN]
      rw [huses, Nat.mod_eq_of_lt (by omega)]
    · obtain ⟨m, hm⟩ := Option.isSome_iff_exists.mp hlimited
      obtain ⟨hle, hm32⟩ := hacc.limit code invite m hinvite hm
      rw [huses, Nat.mod_eq_of_lt (by omega)]
  · intro m hm
    have hle := (hacc.limit code invite m hinvite hm).1
    rw [huses]
    exact (Nat.mod_le _ _).trans hle

lemma enroll_expired {e : Int} (hinvite : s.invites.lookup code = some invite)
    (he : invite.expiresAt = some e) (hnow : e ≤ now) :
    ∃ error, s.enroll text code name wgPublicKey now = .error error := by
  unfold enroll
  split
  · exact ⟨_, rfl⟩
  · simp [hinvite, he, hnow]

lemma enroll_existing (hs : s.Sound) {id : String}
    (hkey : PublicKey.normalize wgPublicKey = some key)
    (hinvite : s.invites.lookup code = some invite) (hexpiry : ∀ e ∈ invite.expiresAt, now < e)
    (hdevice : s.devices.lookup id = some device) (hactive : device.status = .active)
    (hnetwork : device.networkId = invite.networkId) (hsame : device.wgPublicKey = key) :
    s.enroll text code name wgPublicKey now = .ok (s, device) := by
  have hvalid : invite.expiresAt.any (· ≤ now) = false := by
    cases he : invite.expiresAt with
    | none => rfl
    | some e => simpa using hexpiry e he
  have hfind : (s.deviceList.find? fun d =>
      d.networkId = invite.networkId ∧ d.status = .active ∧ d.wgPublicKey = key) = some device := by
    have hmem : device ∈ s.deviceList := mem_deviceList.mpr ⟨id, hdevice⟩
    cases hfound : s.deviceList.find? fun d =>
        d.networkId = invite.networkId ∧ d.status = .active ∧ d.wgPublicKey = key with
    | none =>
      have hnone := List.find?_eq_none.mp hfound device hmem
      simp [hnetwork, hactive, hsame] at hnone
    | some d =>
      obtain ⟨id', hid'⟩ := mem_deviceList.mp (List.mem_of_find?_eq_some hfound)
      have ⟨hnetwork', hactive', hkey'⟩ : d.networkId = invite.networkId ∧ d.status = .active ∧
          d.wgPublicKey = key := by simpa using List.find?_some hfound
      have hid := hs.apart id' d id device hid' hdevice hactive' hactive
        (hnetwork'.trans hnetwork.symm) (hkey'.trans hsame.symm)
      rw [← hdevice, ← hid, hid']
  simp only [enroll, hkey, hinvite, hvalid, hfind]
  rfl

end Memory

end Fluxpeer.Control
