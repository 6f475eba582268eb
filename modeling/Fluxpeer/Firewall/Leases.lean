import Fluxpeer.Firewall.Forwarding
import Mathlib.Data.Finset.Basic

/-!
# The last lease restores the settings

What is on disk is enough to put the settings back, after every step of every call: a baseline is
never taken from a setting that was already changed, and a setting is changed only with its original
in the baseline. That is `Sound`, and each call keeps it whether it returns, fails or ends early.
-/

namespace Fluxpeer.Firewall

open Lib

variable {ι : Type}

/-! ## Settings -/

section Settings

variable {env : Env} {Allowed : Fate ApplyError → Prop} {I : Host ι → Prop} {key : Sysctl} {on : Bool}

def Faulty (Allowed : Fate ApplyError → Prop) : Prop := ∃ fate, Allowed fate ∧ fate ≠ .done

def Reported (Allowed : Fate ApplyError → Prop) (e : ApplyError) : Prop :=
  ∃ effect, Allowed (.failed e effect)

/-- Why a call stopped: an error of a step, or the end of the process. -/
def Blamed (Allowed : Fate ApplyError → Prop) : Stop ApplyError → Prop
  | .error e => Reported Allowed e
  | .crash => Allowed .crash

lemma Blamed.faulty {stop : Stop ApplyError} (h : Blamed Allowed stop) : Faulty Allowed := by
  cases stop with
  | error e =>
    obtain ⟨effect, hallowed⟩ := h
    exact ⟨_, hallowed, by simp⟩
  | crash => exact ⟨_, h, by simp⟩

/-- A step that the state does not refuse stops only by its fate. -/
lemma act_spec {α : Type} {P : Host ι → Prop} {Q : α → Host ι → Prop} {read : Host ι → α}
    {write : Host ι → Host ι} (done : ∀ host, P host → Q (read host) (write host))
    (before : ∀ host, P host → I host) (after : ∀ host, P host → I (write host)) :
    Triple Allowed P (Act.act (fun host => .ok (read host)) write) Q
      (fun _ host => I host ∧ Faulty Allowed) := by
  refine .act done (fun host e effect hP hfailed => ⟨?_, _, hfailed, by simp⟩)
    fun host hP hcrash => ⟨before host hP, _, hcrash, by simp⟩
  cases effect
  · exact before host hP
  · exact after host hP

lemma trim_output (on : Bool) :
    trim (if on then "1\n" else "0\n") = if on then "1" else "0" := by
  cases on <;> decide

lemma sysctlGetWith_spec (hexists : ∀ host, I host → (host.value key).isSome) :
    Triple Allowed I (env.sysctlGetWith key) (fun now host => I host ∧ host.value key = some now)
      (fun stop host => I host ∧ Blamed Allowed stop) := by
  refine .bind (Q := fun output host => ∃ now, (I host ∧ host.value key = some now) ∧
    output = if now then "1\n" else "0\n") ?_ ?_
  · refine .act ?_ ?_ ?_
    · intro host hI
      obtain ⟨now, hnow⟩ := Option.isSome_iff_exists.mp (hexists host hI)
      rw [hnow]
      exact ⟨now, ⟨hI, hnow⟩, rfl⟩
    · intro host e effect hI hallowed
      rw [id, ite_self]
      exact ⟨hI, effect, hallowed⟩
    · exact fun host hI hallowed => ⟨hI, hallowed⟩
  · intro output
    refine .exists_pre fun now => .of_pre (fun _ h => h.2) ?_
    rintro rfl
    rw [trim_output]
    cases now <;> exact .pure fun host h => h.1

/-- A write that reports an error may have had its effect, so the invariant has to stand it. -/
lemma sysctlForce_spec (hexists : ∀ host, I host → (host.value key).isSome)
    (hwrite : ∀ host, I host → I (host.write key on)) :
    Triple Allowed I (env.sysctlForce key on) (fun _ host => I host ∧ host.value key = some on)
      (fun stop host => I host ∧ Blamed Allowed stop) := by
  have hwritten : Triple Allowed I (env.sysctlWrite key on)
      (fun _ host => I host ∧ host.value key = some on)
      (fun stop host => I host ∧ Blamed Allowed stop) := by
    refine .act ?_ ?_ ?_
    · intro host hI
      rw [if_pos (hexists host hI)]
      refine ⟨hwrite host hI, ?_⟩
      cases key with
      | v4 => rfl
      | v6 =>
        have hsome : host.v6.isSome := hexists host hI
        rw [Host.write, if_pos hsome]
        rfl
    · intro host e effect hI hallowed
      refine ⟨?_, effect, hallowed⟩
      split
      · exact hwrite host hI
      · exact hI
    · exact fun host hI hallowed => ⟨hI, hallowed⟩
  refine .bind hwritten.attempt ?_
  rintro (e | ⟨⟩)
  · refine .of_pre (p := Reported Allowed e) (fun host h => h.2) fun hreported => ?_
    have hthrow : ∀ P : Host ι → Prop, (∀ host, P host → I host) →
        Triple Allowed P (Act.throw e) (fun (_ : Unit) host => I host ∧ host.value key = some on)
          (fun stop host => I host ∧ Blamed Allowed stop) :=
      fun P hP => .throw fun host h => ⟨hP host h, hreported⟩
    dsimp only
    split
    · refine .bind (sysctlGetWith_spec (I := fun host => I host ∧ Reported Allowed e)
        (fun host h => hexists host h.1) |>.stops fun stop host h => ⟨h.1.1, h.2⟩) ?_
      intro now
      split
      · next hnow =>
        subst hnow
        exact .pure fun host h => ⟨h.1.1, h.2⟩
      · exact hthrow _ fun host h => h.1.1
    · exact hthrow _ fun host h => h.1
  · exact .pure fun host h => h

/-- A setting that is there is set, unless a step reports an error that does not say it is not. -/
lemma sysctlSetWith_spec (hexists : ∀ host, I host → (host.value key).isSome)
    (hwrite : ∀ host, I host → I (host.write key on))
    (hfair : key = .v6 → ∀ e, Reported Allowed e → e.ipv6Unavailable = false) :
    Triple Allowed I (env.sysctlSetWith key on) (fun _ host => I host ∧ host.value key = some on)
      (fun stop host => I host ∧ Blamed Allowed stop) := by
  have hinner : Triple Allowed I (do
      let now ← env.sysctlGetWith key
      if now = on then pure () else env.sysctlForce key on)
      (fun _ host => I host ∧ host.value key = some on)
      (fun stop host => I host ∧ Blamed Allowed stop) := by
    refine .bind (sysctlGetWith_spec hexists) ?_
    intro now
    split
    · next hnow =>
      subst hnow
      exact .pure fun host h => h
    · exact (sysctlForce_spec hexists hwrite).conseq (fun host h => h.1) (fun _ _ h => h)
        fun _ _ h => h
  refine .bind hinner.attempt ?_
  rintro (e | ⟨⟩)
  · refine .of_pre (p := Reported Allowed e) (fun host h => h.2) fun hreported => ?_
    have hnot : ¬ (key = .v6 ∧ e.ipv6Unavailable = true) := by
      rintro ⟨hkey, hunavailable⟩
      rw [hfair hkey e hreported] at hunavailable
      cases hunavailable
    dsimp only
    rw [if_neg hnot]
    exact .throw fun host h => h
  · exact .pure fun host h => h

end Settings

/-! ## What is on disk is enough -/

section Records

variable {platform : Platform} {original : Baseline} {host : Host ι} {b : Baseline}

/-- The baseline has the originals of the settings that were written to. -/
structure Held (original : Baseline) (host : Host ι) (b : Baseline) : Prop where
  v4 : b.v4 = original.v4
  v6 : ∀ on ∈ b.v6, original.v6 = some on
  unwritten : b.v6 = none → host.v6 = original.v6 ∧ ∀ w ∈ host.writes, w.1 ≠ .v6

structure Sound (platform : Platform) (original : Baseline) (host : Host ι) : Prop where
  records : host.leases ≠ ∅ → host.baseline ≠ none
  held : ∀ b ∈ host.baseline, Held original host b
  unbased : host.baseline = none → host.v4 = original.v4 ∧ host.v6 = original.v6
  unleased : host.leases = ∅ → host.v4 = original.v4 ∧ host.v6 = original.v6
  present : host.v6.isSome = original.v6.isSome
  written : ∀ w ∈ host.writes, w.1 = .v6 → original.v6.isSome ∧ platform = .linux
  macos : platform = .macos → ∀ b ∈ host.baseline, b.v6 = none

def Savable (platform : Platform) (original : Baseline) (b : Baseline) (host : Host ι) : Prop :=
  Sound platform original host ∧ Held original host b ∧ (platform = .macos → b.v6 = none)

/-- Between the first write of an acquisition and the last removal of a release. -/
def Leased (platform : Platform) (original : Baseline) (b : Baseline) (host : Host ι) : Prop :=
  Sound platform original host ∧ host.leases ≠ ∅ ∧ host.baseline = some b

lemma Savable.saved (h : Savable platform original b host) :
    Sound platform original { host with baseline := some b } := by
  obtain ⟨hsound, hheld, hmacos⟩ := h
  refine ⟨fun _ => by simp, ?_, by simp, hsound.unleased, hsound.present, hsound.written, ?_⟩
  · rintro _ ⟨⟩
    exact ⟨hheld.v4, hheld.v6, hheld.unwritten⟩
  · rintro hplatform _ ⟨⟩
    exact hmacos hplatform

lemma Sound.leased [DecidableEq ι] (h : Sound platform original host) (hb : host.baseline = some b)
    (id : ι) : Leased platform original b { host with leases := insert id host.leases } := by
  refine ⟨⟨?_, ?_, h.unbased, ?_, h.present, h.written, h.macos⟩, Finset.insert_ne_empty _ _, hb⟩
  · rw [hb]
    simp
  · exact fun b hb => ⟨(h.held b hb).v4, (h.held b hb).v6, (h.held b hb).unwritten⟩
  · intro hempty
    exact absurd hempty (Finset.insert_ne_empty _ _)

lemma Leased.held (h : Leased platform original b host) : Held original host b :=
  h.1.held b h.2.2

lemma Leased.write_v4 (h : Leased platform original b host) (on : Bool) :
    Leased platform original b (host.write .v4 on) := by
  obtain ⟨hsound, hleases, hb⟩ := h
  refine ⟨⟨hsound.records, ?_, ?_, ?_, hsound.present, ?_, hsound.macos⟩, hleases, hb⟩
  · intro b hb
    obtain ⟨hv4, hv6, hunwritten⟩ := hsound.held b hb
    refine ⟨hv4, hv6, fun hnone => ⟨(hunwritten hnone).1, ?_⟩⟩
    exact List.forall_mem_cons.mpr ⟨by simp, (hunwritten hnone).2⟩
  · exact fun hnone => absurd (hb.symm.trans hnone) (by simp)
  · exact fun hempty => absurd hempty hleases
  · exact List.forall_mem_cons.mpr ⟨fun hkey => absurd hkey (by simp), hsound.written⟩

lemma Leased.write_v6 (h : Leased platform original b host) (hv6 : b.v6.isSome)
    (hplatform : platform = .linux) (on : Bool) :
    Leased platform original b (host.write .v6 on) := by
  obtain ⟨hsound, hleases, hb⟩ := h
  obtain ⟨old, hold⟩ := Option.isSome_iff_exists.mp hv6
  have horiginal : original.v6 = some old := (hsound.held b hb).v6 old hold
  rw [Host.write]
  split
  · refine ⟨⟨hsound.records, ?_, ?_, ?_, ?_, ?_, hsound.macos⟩, hleases, hb⟩
    · intro b' hb'
      cases hb.symm.trans hb'
      exact ⟨(hsound.held b hb).v4, (hsound.held b hb).v6,
        fun hnone => absurd (hold.symm.trans hnone) (by simp)⟩
    · exact fun hnone => absurd (hb.symm.trans hnone) (by simp)
    · exact fun hempty => absurd hempty hleases
    · rw [horiginal]
      rfl
    · exact List.forall_mem_cons.mpr
        ⟨fun _ => ⟨by rw [horiginal]; rfl, hplatform⟩, hsound.written⟩
  · exact ⟨hsound, hleases, hb⟩

/-- A setting that has its original in the baseline is there. -/
lemma Leased.present (h : Leased platform original b host) (hv6 : b.v6.isSome) :
    host.v6.isSome := by
  obtain ⟨old, hold⟩ := Option.isSome_iff_exists.mp hv6
  rw [h.1.present, h.held.v6 old hold]
  rfl

end Records

/-! ## Acquisition -/

section Calls

variable {env : Env} {Allowed : Fate ApplyError → Prop} {original : Baseline} {v6 : Option Bool}
  {id other : ι}

/-- An error says that IPv6 is not there only while it is not. -/
def Fair (Allowed : Fate ApplyError → Prop) (original : Baseline) : Prop :=
  ∀ e, Reported Allowed e → e.ipv6Unavailable → original.v6 = none

lemma Fair.available (hfair : Fair Allowed original) (hv6 : original.v6.isSome) (e : ApplyError)
    (he : Reported Allowed e) : e.ipv6Unavailable = false := by
  by_contra hunavailable
  rw [hfair e he (by simpa using hunavailable)] at hv6
  cases hv6

/-- Of a setting that is not there nothing is read. -/
lemma sysctlGetWith_absent {I : Host ι → Prop} {key : Sysctl}
    (habsent : ∀ host, I host → host.value key = none) :
    Triple Allowed I (env.sysctlGetWith key) (fun _ _ => False) (fun _ host => I host) := by
  refine .bind (Q := fun _ _ => False) ?_ ?_
  · refine .act_of_inv (fun host _ hI hread => ?_) (fun _ hI => hI) fun _ hI => hI
    rw [habsent host hI] at hread
    cases hread
  · exact fun _ _ _ hfalse => hfalse.elim

/-- What `read_v6` finds is what the kernel has. -/
structure Observed (platform : Platform) (v6 : Option Bool) (host : Host ι) : Prop where
  absent : v6 = none → host.v6 = none ∨ platform = .macos
  seen : ∀ on ∈ v6, host.v6 = some on
  macos : platform = .macos → v6 = none

lemma readV6_spec {I : Host ι → Prop} (hpresent : ∀ host, I host → host.v6.isSome = original.v6.isSome)
    (hfair : Fair Allowed original) :
    Triple Allowed I env.readV6 (fun v6 host => I host ∧ Observed env.platform v6 host)
      (fun _ host => I host) := by
  unfold Env.readV6
  cases hplatform : env.platform with
  | macos => exact .pure fun host h => ⟨h, fun _ => .inr rfl, by simp, fun _ => rfl⟩
  | linux =>
    by_cases hv6 : original.v6.isSome
    · have hget : Triple Allowed I (env.sysctlGetWith .v6)
          (fun now host => I host ∧ host.value .v6 = some now)
          (fun stop host => I host ∧ Blamed Allowed stop) :=
        sysctlGetWith_spec fun host hI => (hpresent host hI).trans hv6
      refine .bind (hget.attempt.stops fun _ _ h => h.1) ?_
      rintro (e | on)
      · refine .of_pre (p := Reported Allowed e) (fun host h => h.2) fun he => ?_
        dsimp only
        rw [if_neg (by rw [hfair.available hv6 e he]; simp)]
        exact .throw fun host h => h.1
      · refine .pure fun host h => ⟨h.1, by simp, ?_, by simp⟩
        rintro _ ⟨⟩
        exact h.2
    · have habsent : ∀ host, I host → host.v6 = none := fun host hI => by
        rw [← hpresent host hI] at hv6
        simpa using hv6
      have hget : Triple Allowed I (env.sysctlGetWith .v6) (fun _ _ => False)
          (fun _ host => I host) := sysctlGetWith_absent habsent
      refine .bind hget.attempt ?_
      rintro (e | on)
      · dsimp only
        split
        · exact .pure fun host hI => ⟨hI, fun _ => .inl (habsent host hI), by simp, by simp⟩
        · exact .throw fun host hI => hI
      · exact fun _ _ hfalse => hfalse.elim

/-- A baseline without a value for IPv6, filled in from the kernel. -/
lemma Sound.savable_filled {host : Host ι} {b : Baseline} (h : Sound env.platform original host)
    (hb : host.baseline = some b) (hnone : b.v6 = none) (hv6 : Observed env.platform v6 host) :
    Savable env.platform original { b with v6 } host := by
  have hheld := h.held b hb
  refine ⟨h, ⟨hheld.v4, ?_, fun _ => hheld.unwritten hnone⟩, hv6.macos⟩
  intro on hon
  rw [← (hheld.unwritten hnone).1]
  exact hv6.seen on hon

/-- A baseline taken while there is none. -/
lemma Sound.savable_new {host : Host ι} (h : Sound env.platform original host)
    (hb : host.baseline = none) (hv6 : Observed env.platform v6 host) :
    Savable env.platform original ⟨host.v4, v6⟩ host := by
  obtain ⟨hv4, hsame⟩ := h.unbased hb
  refine ⟨h, ⟨hv4, ?_, ?_⟩, hv6.macos⟩
  · intro on hon
    rw [← hsame]
    exact hv6.seen on hon
  · intro hnone
    refine ⟨hsame, fun w hw hkey => ?_⟩
    obtain ⟨hsome, hlinux⟩ := h.written w hw hkey
    rcases hv6.absent hnone with hnone | hmacos
    · rw [← h.present, hnone] at hsome
      cases hsome
    · rw [hlinux] at hmacos
      cases hmacos

lemma captured_spec [DecidableEq ι] (hfair : Fair Allowed original) :
    Triple Allowed (Sound env.platform original) (env.captured : Effect ι Baseline)
      (Savable env.platform original) (fun _ => Sound env.platform original) := by
  refine .bind (Q := fun baseline host => Sound env.platform original host ∧
    host.baseline = baseline) ?_ ?_
  · refine .act_of_inv ?_ (fun _ h => h) fun _ h => h
    rintro host _ h ⟨⟩
    exact ⟨h, rfl⟩
  rintro (_ | b)
  · refine .bind (Q := fun leases host => (Sound env.platform original host ∧
      host.baseline = none) ∧ leases = host.leases) ?_ ?_
    · refine .act_of_inv ?_ (fun _ h => h.1) fun _ h => h.1
      rintro host _ h ⟨⟩
      exact ⟨h, rfl⟩
    intro leases
    split
    · exact .throw fun host h => h.1.1
    have hv4 : Triple Allowed (fun host : Host ι => (Sound env.platform original host ∧
        host.baseline = none) ∧ leases = host.leases) (env.sysctlGetWith .v4)
        (fun v4 host => ((Sound env.platform original host ∧ host.baseline = none) ∧
          leases = host.leases) ∧ host.value .v4 = some v4)
        (fun _ => Sound env.platform original) :=
      (sysctlGetWith_spec fun _ _ => rfl).stops fun _ _ h => h.1.1.1
    refine .bind hv4 fun v4 => ?_
    refine .bind ((readV6_spec (fun host h => h.1.1.1.present) hfair).stops
      fun _ _ h => h.1.1.1) fun v6 => ?_
    refine .pure fun host h => ?_
    obtain ⟨⟨⟨⟨hsound, hb⟩, _⟩, hv4⟩, hv6⟩ := h
    cases hv4
    exact hsound.savable_new hb hv6
  · dsimp only
    split
    · next hnone =>
      refine .bind ((readV6_spec (fun host h => h.1.present) hfair).stops
        fun _ _ h => h.1) fun v6 => ?_
      exact .pure fun host h => h.1.1.savable_filled h.1.2 hnone h.2
    · exact .pure fun host h =>
        ⟨h.1, h.1.held b h.2, fun hmacos => h.1.macos hmacos b h.2⟩

/-- An acquisition keeps the records, however it ends. -/
lemma acquireWith_spec [DecidableEq ι] (env : Env) (hfair : Fair Allowed original) (id : ι) :
    Triple Allowed (Sound env.platform original) (env.acquireWith id)
      (fun _ => Sound env.platform original) (fun _ => Sound env.platform original) := by
  refine .bind (captured_spec hfair) fun b => ?_
  refine .bind (Q := fun _ host => Sound env.platform original host ∧
    host.baseline = some b) ?_ fun _ => ?_
  · exact .act_of_inv (fun _ _ h _ => ⟨h.saved, rfl⟩) (fun _ h => h.1) fun _ h => h.saved
  refine .bind (Q := fun _ host => Leased env.platform original b host) ?_ fun _ => ?_
  · exact .act_of_inv (fun _ _ h _ => h.1.leased h.2 id) (fun _ h => h.1)
      fun _ h => (h.1.leased h.2 id).1
  have hv4 : Triple Allowed (Leased env.platform original b) (env.sysctlSetWith .v4 true)
      (fun _ host => Leased env.platform original b host ∧ host.value .v4 = some true)
      (fun _ => Sound (ι := ι) env.platform original) :=
    (sysctlSetWith_spec (fun _ _ => rfl) (fun host h => h.write_v4 true) (by simp)).stops
      fun _ _ h => h.1.1
  refine .bind hv4 fun _ => ?_
  split
  · next hkey =>
    obtain ⟨hlinux, hv6⟩ := hkey
    refine .of_pre (p := original.v6.isSome) ?_ fun horiginal => ?_
    · intro host h
      rw [← h.1.1.present]
      exact h.1.present hv6
    · exact (sysctlSetWith_spec (fun host h => h.present hv6)
        (fun host h => h.write_v6 hv6 hlinux true) fun _ => hfair.available horiginal).conseq
        (fun _ h => h.1) (fun _ _ h => h.1.1) fun _ _ h => h.1.1
  · exact .pure fun host h => h.1.1

/-! ## Release -/

/-- The result of setting a setting: it is as it should be, or a step reported the error. -/
def Settled (Allowed : Fate ApplyError → Prop) (p : Prop) : Result → Prop
  | .ok () => p
  | .error e => Reported Allowed e

lemma Settled.faulty {p : Prop} {e : ApplyError} (h : Settled Allowed p (.error e)) :
    Faulty Allowed :=
  Blamed.faulty (show Blamed Allowed (.error e) from h)

section Restore

variable {b : Baseline} {L : Finset ι} {I : Host ι → Prop} {key : Sysctl} {on : Bool}

lemma attempt_sysctlSetWith_spec (hsound : ∀ host, I host → Sound env.platform original host)
    (hexists : ∀ host, I host → (host.value key).isSome)
    (hwrite : ∀ host, I host → I (host.write key on))
    (hfair : key = .v6 → ∀ e, Reported Allowed e → e.ipv6Unavailable = false) :
    Triple Allowed I (env.sysctlSetWith key on).attempt
      (fun result host => I host ∧ Settled Allowed (host.value key = some on) result)
      (fun _ host => Sound env.platform original host ∧ Faulty Allowed) := by
  refine (sysctlSetWith_spec hexists hwrite hfair).attempt.conseq (fun _ h => h) ?_
    fun stop host h => ⟨hsound host h.1, h.2.faulty⟩
  rintro (e | ⟨⟩) host h <;> exact h

lemma restoreV6_spec (hfair : Fair Allowed original) (p : Bool → Prop) :
    Triple Allowed
      (fun host => (Leased env.platform original b host ∧ host.leases = L) ∧ p host.v4)
      (env.restoreV6 b)
      (fun result host => ((Leased env.platform original b host ∧ host.leases = L) ∧ p host.v4) ∧
        Settled Allowed (host.v6 = original.v6) result)
      (fun _ host => Sound env.platform original host ∧ Faulty Allowed) := by
  unfold Env.restoreV6
  split
  · next on hv6 hlinux =>
    refine .of_pre (p := original.v6 = some on) (fun host h => h.1.1.held.v6 on hv6) ?_
    intro horiginal
    have hsome : b.v6.isSome := by rw [hv6]; rfl
    refine (attempt_sysctlSetWith_spec (fun host h => h.1.1.1) ?_ ?_ ?_).conseq (fun _ h => h) ?_
      fun _ _ h => h
    · exact fun host h => h.1.1.present hsome
    · intro host h
      refine ⟨⟨h.1.1.write_v6 hsome hlinux on, ?_⟩, ?_⟩ <;> rw [Host.write]
      · split <;> exact h.1.2
      · split <;> exact h.2
    · exact fun _ => hfair.available (by rw [horiginal]; rfl)
    · rintro (e | ⟨⟩) host h
      · exact h
      · exact ⟨h.1, Eq.trans h.2 horiginal.symm⟩
  · next hother =>
    refine .pure fun host h => ⟨h, ?_⟩
    refine (h.1.1.held.unwritten ?_).1
    cases hv6 : b.v6 with
    | none => rfl
    | some on =>
      cases hplatform : env.platform with
      | linux => exact absurd hplatform (hother on hv6)
      | macos => exact hv6.symm.trans (h.1.1.1.macos hplatform b h.1.1.2.2)

/-- Both settings have their originals, or a step reported an error. -/
lemma restore_spec (hfair : Fair Allowed original) (b : Baseline) (L : Finset ι) :
    Triple Allowed (fun host => Leased env.platform original b host ∧ host.leases = L)
      (env.restore b)
      (fun _ host => (Leased env.platform original b host ∧ host.leases = L) ∧
        host.v4 = original.v4 ∧ host.v6 = original.v6)
      (fun _ host => Sound env.platform original host ∧ Faulty Allowed) := by
  refine .bind (Q := fun r4 host => (Leased env.platform original b host ∧
    host.leases = L) ∧ Settled Allowed (host.v4 = original.v4) r4) ?_ fun r4 => ?_
  · refine (attempt_sysctlSetWith_spec (fun host h => h.1.1) (fun _ _ => rfl)
      (fun host h => ⟨h.1.write_v4 b.v4, h.2⟩) (by simp)).conseq (fun _ h => h) ?_ fun _ _ h => h
    rintro (e | ⟨⟩) host h
    · exact h
    · exact ⟨h.1, (Option.some.inj h.2).trans h.1.1.held.v4⟩
  refine .bind (restoreV6_spec hfair fun v4 => Settled Allowed (v4 = original.v4) r4)
    fun r6 => ?_
  cases hall : all [r4, r6] with
  | ok _ =>
    obtain rfl := eq_ok_of_all_eq_ok hall r4 (by simp)
    obtain rfl := eq_ok_of_all_eq_ok hall r6 (by simp)
    exact .pure fun host h => ⟨h.1.1, h.1.2, h.2⟩
  | error e =>
    refine .throw fun host h => ⟨h.1.1.1.1, ?_⟩
    match r4, r6, hall, h with
    | .error e4, _, _, h => exact h.1.2.faulty
    | .ok (), .error e6, _, h => exact h.2.faulty

end Restore

lemma Sound.unlease [DecidableEq ι] {host : Host ι} (h : Sound env.platform original host) (id : ι)
    (hlast : host.leases.erase id = ∅ → host.v4 = original.v4 ∧ host.v6 = original.v6) :
    Sound env.platform original { host with leases := host.leases.erase id } := by
  refine ⟨?_, ?_, h.unbased, hlast, h.present, h.written, h.macos⟩
  · intro hne
    refine h.records fun hempty => hne ?_
    change host.leases.erase id = ∅
    rw [hempty]
    rfl
  · exact fun b hb => ⟨(h.held b hb).v4, (h.held b hb).v6, (h.held b hb).unwritten⟩

lemma Sound.unbase {host : Host ι} (h : Sound env.platform original host)
    (hleases : host.leases = ∅) : Sound env.platform original { host with baseline := none } :=
  ⟨fun hne => absurd hleases hne, by simp, fun _ => h.unleased hleases, h.unleased, h.present,
    h.written, by simp⟩

lemma releaseLast_spec [DecidableEq ι] (hfair : Fair Allowed original) (id : ι) :
    Triple Allowed (fun host => Sound env.platform original host ∧ host.leases = {id})
      (env.releaseLast id)
      (fun _ host => Sound env.platform original host ∧ host.leases = ∅ ∧ host.baseline = none)
      (fun _ host => Sound env.platform original host ∧ Faulty Allowed) := by
  refine .bind (Q := fun baseline host => (Sound env.platform original host ∧
    host.leases = {id}) ∧ baseline = host.baseline) ?_ fun baseline => ?_
  · exact act_spec (fun _ h => ⟨h, rfl⟩) (fun _ h => h.1) fun _ h => h.1
  have hne : ∀ host : Host ι, host.leases = {id} → host.leases ≠ ∅ :=
    fun host h => h ▸ Finset.singleton_ne_empty id
  cases baseline with
  | none =>
    refine .throw fun host h => ?_
    exact absurd h.2.symm (h.1.1.records (hne host h.1.2))
  | some b =>
    refine .bind ((restore_spec hfair b {id}).conseq
      (fun host h => ⟨⟨h.1.1, hne host h.1.2, h.2.symm⟩, h.1.2⟩) (fun _ _ h => h)
      fun _ _ h => h) fun _ => ?_
    refine .bind (Q := fun _ host => Sound env.platform original host ∧
      host.leases = ∅) ?_ fun _ => ?_
    · refine act_spec (fun host h => ⟨h.1.1.1.unlease id fun _ => h.2, ?_⟩) (fun _ h => h.1.1.1)
        fun _ h => h.1.1.1.unlease id fun _ => h.2
      change host.leases.erase id = ∅
      rw [h.1.2, Finset.erase_singleton]
    exact act_spec (fun _ h => ⟨h.1.unbase h.2, h.2, rfl⟩) (fun _ h => h.1)
      fun _ h => h.1.unbase h.2

/-- A lease is removed next to another one. -/
lemma removeLease_spec [DecidableEq ι] {L : Finset ι} (hother : other ∈ L) (hne : other ≠ id) :
    Triple Allowed (fun host => Sound env.platform original host ∧ host.leases = L)
      (removeLease id)
      (fun _ host => Sound env.platform original host ∧ host.leases = L.erase id)
      (fun _ host => Sound env.platform original host ∧ Faulty Allowed) := by
  have hsound : ∀ host : Host ι, Sound env.platform original host ∧ host.leases = L →
      Sound env.platform original { host with leases := host.leases.erase id } := by
    intro host h
    refine h.1.unlease id fun hempty => ?_
    have hin : other ∈ host.leases.erase id := by
      rw [h.2]
      exact Finset.mem_erase.mpr ⟨hne, hother⟩
    rw [hempty] at hin
    cases hin
  exact act_spec (fun host h => ⟨hsound host h, congrArg (Finset.erase · id) h.2⟩)
    (fun _ h => h.1) hsound

lemma readLeases_spec {I : Host ι → Prop} {L : Finset ι}
    (hleases : ∀ host, I host → host.leases = L) :
    Triple Allowed I readLeases (fun leases host => I host ∧ leases = L)
      (fun _ host => I host ∧ Faulty Allowed) :=
  act_spec (fun host h => ⟨h, hleases host h⟩) (fun _ h => h) fun _ h => h

/-- A release keeps the records however it ends; it fails only with a step, and the last one leaves
nothing. -/
lemma releaseWith_spec [DecidableEq ι] (env : Env) (hfair : Fair Allowed original) (id : ι) (L : Finset ι) :
    Triple Allowed (fun host => Sound env.platform original host ∧ host.leases = L)
      (env.releaseWith id)
      (fun _ host => Sound env.platform original host ∧ host.leases = L.erase id ∧
        (L = {id} → host.baseline = none))
      (fun _ host => Sound env.platform original host ∧ Faulty Allowed) := by
  refine .bind ((readLeases_spec fun _ h => h.2).stops fun _ _ h => ⟨h.1.1, h.2⟩)
    fun leases => ?_
  refine .of_pre (fun host h => h.2) ?_
  rintro rfl
  split
  · next hnone =>
    refine .pure fun host h => ⟨h.1.1, ?_, ?_⟩
    · rw [Finset.erase_eq_of_notMem hnone]
      exact h.1.2
    · rintro rfl
      exact absurd (Finset.mem_singleton_self id) hnone
  · next hmem =>
    split
    · next hother =>
      obtain ⟨other, hother, hne⟩ := hother
      refine (removeLease_spec hother hne).conseq (fun _ h => h.1) ?_ fun _ _ h => h
      refine fun _ host h => ⟨h.1, h.2, ?_⟩
      rintro rfl
      exact absurd (Finset.mem_singleton.mp hother) hne
    · next hno =>
      obtain rfl : leases = {id} :=
        Finset.eq_singleton_iff_unique_mem.mpr ⟨not_not.mp hmem, by simpa using hno⟩
      refine (releaseLast_spec hfair id).conseq (fun _ h => h.1) ?_ fun _ _ h => h
      refine fun _ host h => ⟨h.1, ?_, fun _ => h.2.2⟩
      rw [Finset.erase_singleton]
      exact h.2.1

/-- The settings are those of another host, and were not written to since. -/
def SameSettings (host host' : Host ι) : Prop :=
  host'.v4 = host.v4 ∧ host'.v6 = host.v6 ∧ host'.writes = host.writes

end Calls

/-! ## Runs -/

namespace Site

variable {platform : Platform} {s s' : Site ι} {fates : List (Fate ApplyError)} {event : Event ι}

def start (v4 : Bool) (v6 : Option Bool) : Site ι := ⟨⟨∅, none, v4, v6, []⟩, ⟨v4, v6⟩⟩

/-- The fates of a call, none of which says that IPv6 is not there while it is. -/
def FairStep (s : Site ι) (event : Event ι) (_ : Site ι) : Prop :=
  match event with
  | .acquire _ _ fates | .release _ _ fates =>
    ∀ e effect, .failed e effect ∈ fates → e.ipv6Unavailable → s.host.v6 = none
  | .appear _ => True

/-- A lease stands next to the originals of all settings that were ever written to. -/
def Backed (s : Site ι) : Prop :=
  s.host.leases ≠ ∅ → ∃ b, s.host.baseline = some b ∧
    ∀ w ∈ s.host.writes, b.value w.1 = s.original.value w.1

/-- The settings are as they were, and no lease is left. -/
def Restored (s : Site ι) : Prop :=
  s.host.v4 = s.original.v4 ∧ s.host.v6 = s.original.v6 ∧ s.host.leases = ∅

def releaseAll [DecidableEq ι] (platform : Platform) (absent : ApplyError) (s : Site ι) (order : List ι) : Site ι :=
  order.foldl (fun s id =>
    { s with host := (Env.releaseWith ⟨platform, absent⟩ id s.host []).2.1 }) s

/-- What a release does: nothing to the settings while another lease is left, all of it as the last
one, and if it is cut short then the later releases do. -/
def Released [DecidableEq ι] (platform : Platform) (s : Site ι) (event : Event ι) (s' : Site ι) : Prop :=
  match event with
  | .release id absent fates =>
    (∀ other ∈ s.host.leases, other ≠ id → SameSettings s.host s'.host) ∧
    (s.host.leases = {id} → (Env.releaseWith ⟨platform, absent⟩ id s.host fates).1 = .ok () →
      s'.Restored ∧ s'.host.baseline = none) ∧
    (∀ stop, (Env.releaseWith ⟨platform, absent⟩ id s.host fates).1 = .error stop →
      ∀ absent order, (∀ id ∈ s'.host.leases, id ∈ order) →
        (s'.releaseAll platform absent order).Restored ∧
          (s'.host.leases ≠ ∅ → (s'.releaseAll platform absent order).host.baseline = none))
  | _ => True

section

variable (hs : Sound platform s.original s.host)
include hs

lemma fair_of_fates
    (h : ∀ e effect, .failed e effect ∈ fates → e.ipv6Unavailable → s.host.v6 = none) :
    Fair (· ∈ fates) s.original := by
  rintro e ⟨effect, hmem⟩ hunavailable
  have hpresent := hs.present
  rw [h e effect hmem hunavailable] at hpresent
  simpa using hpresent.symm

/-- What a release does to the host of a site. -/
lemma release_contract [DecidableEq ι]
    (h : ∀ e effect, .failed e effect ∈ fates → e.ipv6Unavailable → s.host.v6 = none)
    (absent : ApplyError) (id : ι) :
    Triple (· ∈ fates) (fun host => Sound platform s.original host ∧ host.leases = s.host.leases)
      (Env.releaseWith ⟨platform, absent⟩ id)
      (fun _ host => Sound platform s.original host ∧ host.leases = s.host.leases.erase id ∧
        (s.host.leases = {id} → host.baseline = none))
      (fun _ host => Sound platform s.original host ∧ Faulty (· ∈ fates)) :=
  releaseWith_spec ⟨platform, absent⟩ (fair_of_fates hs h) id s.host.leases

lemma sound_appear (hv6 : s.host.v6 = none) (on : Bool) :
    Sound platform { s.original with v6 := some on } { s.host with v6 := some on } := by
  have hnone : s.original.v6 = none := by
    have hpresent := hs.present
    rw [hv6] at hpresent
    simpa using hpresent.symm
  refine ⟨hs.records, ?_, fun h => ⟨(hs.unbased h).1, rfl⟩, fun h => ⟨(hs.unleased h).1, rfl⟩, rfl,
    fun w hw hkey => ⟨rfl, (hs.written w hw hkey).2⟩, hs.macos⟩
  intro b hb
  obtain ⟨hv4, hheld, hunwritten⟩ := hs.held b hb
  refine ⟨hv4, fun on' hon' => ?_, fun h => ⟨rfl, (hunwritten h).2⟩⟩
  rw [hheld on' hon'] at hnone
  cases hnone

/-- One call, or the coming of IPv6, keeps the records. -/
lemma sound_step [DecidableEq ι] (hstep : s.step platform event = some s')
    (hfair : FairStep s event s') : Sound platform s'.original s'.host := by
  cases event with
  | acquire id absent fates =>
    cases hstep
    have hspec : Triple (· ∈ fates) (Sound platform s.original) (Env.acquireWith ⟨platform, absent⟩ id)
        (fun _ => Sound platform s.original) (fun _ => Sound platform s.original) :=
      acquireWith_spec ⟨platform, absent⟩ (fair_of_fates hs hfair) id
    exact hspec.final hs (fun _ _ h => h) fun _ _ h => h
  | release id absent fates =>
    cases hstep
    exact (release_contract hs hfair absent id).final ⟨hs, rfl⟩ (fun _ _ h => h.1) fun _ _ h => h.1
  | appear on =>
    simp only [step] at hstep
    split at hstep
    · cases hstep
      exact hs
    · next hv6 =>
      cases hstep
      exact sound_appear hs hv6 on

end

end Site

end Fluxpeer.Firewall
