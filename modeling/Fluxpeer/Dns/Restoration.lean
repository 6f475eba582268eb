import Fluxpeer.Dns.Managed

/-!
# Restoration of the resolver file

While no process dies and nobody else touches the file, its content is one of three: what the
journal has as last written, what it has before that, or the original. It is the last written,
the body of the last owner, unless a write failed.

The journal forgets a body when a second different one is entered after it. A file that still
holds the forgotten body, because both writes failed, is taken for someone else's and is not
restored. A second failure of this kind, and operations that leave a file alone that was not
repaired, are what `Careful` excludes.
-/

namespace Fluxpeer.Dns

open Lib Net Locked

@[simp] lemma Journal.default_file : Journal.default.file = none := rfl

@[simp] lemma Journal.default_owners : Journal.default.owners = [] := rfl

@[simp] lemma Journal.default_restorePending : Journal.default.restorePending = false := rfl

namespace Disk

def owners (d : Disk) : List Owner := d.journal.owners

def topBody (d : Disk) : Option Bytes := d.owners.getLast?.map fun owner => fileBody owner.dns

/-- The file holds what its last owner asked for. -/
def Current (d : Disk) : Prop := d.owners = [] ∨ d.content = d.topBody

/-- The file holds what it held before the first owner. -/
def Original (d : Disk) : Prop :=
  ∃ original, d.journal.file = some original ∧ d.content = original.bytes

end Disk

@[simp] lemma Locked.ofDisk_owners (d : Disk) : (ofDisk d).journal.owners = d.owners := rfl

variable {text : AddrText} {host : Host} {content₀ : Option Bytes} {d : Disk} {e : Event}
  {j : Journal} {original : OriginalFile} {top : Owner} {write : Except String Unit} {pid : UInt32}
  {current : Process}

/-- The journal of a file that has owners. -/
structure Owned (host : Host) (content₀ : Option Bytes) (j : Journal) (original : OriginalFile)
    (top : Owner) : Prop where
  file : j.file = some original
  last : j.owners.getLast? = some top
  pending : j.restorePending = false
  target : host.sameTarget original = true
  bootId : original.bootId = host.bootId
  bytes : original.bytes = content₀
  written : original.lastWritten = some (fileBody top.dns)
  alive : ∀ owner ∈ j.owners, ∀ current : Process, current.bootId = host.bootId →
    host.alive owner.process current = true

/-- The file holds what the journal knows of, or what it held at first. -/
def Known (content₀ : Option Bytes) (original : OriginalFile) (content : Option Bytes) : Prop :=
  content = original.lastWritten ∨ content = original.previousWritten ∨ content = content₀

/-- The file is as it was, or it is owned and not out of reach. -/
inductive Kept (host : Host) (content₀ : Option Bytes) (d : Disk) : Prop
  | idle (journal : d.journal = .default) (content : d.content = content₀)
  | owned {original : OriginalFile} {top : Owner}
    (owned : Owned host content₀ d.journal original top)
    (known : Known content₀ original d.content)

lemma bootId_of_currentProcess (h : host.currentProcess pid = .ok current) :
    current.bootId = host.bootId := by
  unfold Host.currentProcess at h
  split at h
  · cases h
    rfl
  · cases h

lemma alive_of_currentProcess {process : Process} (hpid : pid ≠ 0)
    (h : host.currentProcess pid = .ok process) (current : Process)
    (hboot : current.bootId = host.bootId) : host.alive process current = true := by
  unfold Host.currentProcess at h
  split at h
  · next startTime hstart =>
    cases h
    simp [Host.alive, hboot, hpid, hstart, Except.toOption]
  · cases h

/-- Nothing is pruned while no process dies. -/
lemma prune_kept (h : Kept host content₀ d) (hboot : current.bootId = host.bootId) :
    (ofDisk d).prune host current write = (.ofDisk d, .ok ()) := by
  have hrun : (ofDisk d).releaseRun current = .ofDisk d := by
    refine if_neg ?_
    rcases h with ⟨hjournal, _⟩ | ⟨howned, _⟩
    · simp [ofDisk, hjournal]
    · simp [ofDisk, howned.file, howned.bootId, hboot]
  have halive : (ofDisk d).retainAlive host current = .ofDisk d := by
    have hall : ∀ owner ∈ (ofDisk d).journal.owners, host.alive owner.process current := by
      rcases h with ⟨hjournal, _⟩ | ⟨howned, _⟩
      · simp [ofDisk, hjournal]
      · exact fun owner hmem => howned.alive owner hmem current hboot
    refine if_neg ?_
    rw [List.filter_eq_self.mpr hall]
    exact not_not.mpr rfl
  rw [prune, hrun, halive]
  refine if_neg ?_
  rcases h with ⟨hjournal, _⟩ | ⟨howned, _⟩
  · simp [ofDisk, hjournal]
  have hne : d.journal.owners ≠ [] := by
    intro hnil
    have hlast := howned.last
    rw [hnil] at hlast
    cases hlast
  simp [ofDisk, howned.pending, hne]

/-- What an operation leaves: a file within reach, and after a success the right one. -/
def Sound (host : Host) (content₀ : Option Bytes) (out : Disk × Result) : Prop :=
  Kept host content₀ out.1 ∧ (out.2 = .ok () → out.1.Current)

def Good (host : Host) (content₀ : Option Bytes) (out : Locked × Result) : Prop :=
  Sound host content₀ (out.1.disk, out.2)

variable {s : Locked}

lemma Good.failed (h : Kept host content₀ s.disk) (err : ApplyError) :
    Good host content₀ (s, .error err) :=
  ⟨h, nofun⟩

lemma Owned.topBody (h : Owned host content₀ d.journal original top) :
    d.topBody = some (fileBody top.dns) := by
  rw [Disk.topBody, Disk.owners, h.last, Option.map_some]

/-- The body of the last owner is written after it was entered into the journal. -/
lemma good_replaceFile (howned : Owned host content₀ s.journal original top)
    (hknown : write = .ok () ∨ Known content₀ original s.disk.content) :
    Good host content₀
      (s.save.replaceFile original.target (some (fileBody top.dns)) write) := by
  cases write with
  | error err => exact .failed (s := s.save) (.owned howned (hknown.resolve_left nofun)) _
  | ok _ =>
    refine ⟨.owned howned (.inl howned.written.symm), fun _ => .inr ?_⟩
    exact (Owned.topBody (d := ⟨_, some s.journal⟩) howned).symm

lemma good_repair {now : Nat} (hs : s.disk.journal = s.journal)
    (howned : Owned host content₀ s.journal original top)
    (hknown : Known content₀ original s.disk.content) :
    Good host content₀ (s.repair now write original top) := by
  have hkept : Kept host content₀ s.disk := .owned (hs ▸ howned) hknown
  unfold repair
  dsimp only
  split
  · next hcontent =>
    rw [← hs] at howned
    exact ⟨hkept, fun _ => .inr (hcontent.trans howned.topBody.symm)⟩
  split
  · exact .failed hkept _
  · -- The body is the one last entered, so entering it again changes nothing.
    have hstaged : stageWrite (original.backoff now) (fileBody top.dns) = original.backoff now :=
      if_neg (not_not.mpr howned.written)
    rw [hstaged]
    exact good_replaceFile (s := s.setFile _) ⟨rfl, howned.last, howned.pending, howned.target,
      howned.bootId, howned.bytes, howned.written, howned.alive⟩ (.inr hknown)

@[simp] lemma stageWrite_lastWritten (o : OriginalFile) (b : Bytes) :
    (stageWrite o b).lastWritten = some b := by
  unfold stageWrite
  grind

/-- Entering a write changes the two records of writes and nothing else. -/
lemma stageWrite_fields (o : OriginalFile) (b : Bytes) :
    (stageWrite o b).target = o.target ∧ (stageWrite o b).link = o.link ∧
      (stageWrite o b).bootId = o.bootId ∧ (stageWrite o b).bytes = o.bytes := by
  unfold stageWrite
  split <;> exact ⟨rfl, rfl, rfl, rfl⟩

/-- After a failed write the file is known if it held the body entered before this one. -/
lemma known_stageWrite {o : OriginalFile} {b : Bytes} {content : Option Bytes}
    (hknown : content = some b ∨ (content = o.lastWritten ∧ o.lastWritten ≠ none) ∨
      content = content₀ ∨ o.lastWritten = some b ∧ Known content₀ o content) :
    Known content₀ (stageWrite o b) content := by
  unfold stageWrite
  split
  · next hnew =>
    rcases hknown with hbody | ⟨hlast, hne⟩ | hfirst | ⟨hlast, _⟩
    · exact .inl hbody
    · obtain ⟨b', hb'⟩ := Option.ne_none_iff_exists'.mp hne
      refine .inr (.inl ?_)
      simp [hlast, hb']
    · exact .inr (.inr hfirst)
    · exact absurd hlast hnew
  · next hsame =>
    have hsame : o.lastWritten = some b := not_not.mp hsame
    rcases hknown with hbody | ⟨hlast, _⟩ | hfirst | ⟨_, hknown⟩
    · exact .inl (hbody.trans hsame.symm)
    · exact .inl hlast
    · exact .inr (.inr hfirst)
    · exact hknown

lemma good_promote {owner : Owner}
    (halive : ∀ o ∈ owner :: s.journal.owners, ∀ current : Process,
      current.bootId = host.bootId → host.alive o.process current = true)
    (hpending : s.journal.restorePending = false) (htarget : host.sameTarget original = true)
    (hbootId : original.bootId = host.bootId) (hbytes : original.bytes = content₀)
    (hknown : write = .ok () ∨
      Known content₀ (stageWrite original (fileBody owner.dns)) s.disk.content) :
    Good host content₀ (s.promote write original owner) := by
  obtain ⟨hstage, hlink, hboot, hstaged⟩ := stageWrite_fields original (fileBody owner.dns)
  refine good_replaceFile (s := (s.setOwners _).setFile _) ⟨rfl, ?_, hpending, ?_, ?_, ?_, ?_, ?_⟩
    hknown
  · exact List.getLast?_concat
  · simpa only [Host.sameTarget, OriginalFile.settled, hlink, hstage] using htarget
  · exact hboot.trans hbootId
  · exact hstaged.trans hbytes
  · exact stageWrite_lastWritten original _
  · intro o ho
    rcases List.mem_append.mp ho with hold | hnew
    · exact halive o (List.mem_cons_of_mem _ (List.mem_of_mem_filter hold))
    · rw [List.mem_singleton.mp hnew]
      exact halive owner List.mem_cons_self

/-- When a set may fail to write. -/
def MayFail (d : Disk) (iface : String) (dns : List String) : Prop :=
  d.owners = [] ∨ (∃ owner ∈ d.owners, owner.iface = iface ∧ owner.dns = dns) ∨
    d.topBody = some (fileBody dns) ∨ d.content = d.topBody ∨ d.content = some (fileBody dns) ∨
    d.Original

variable {iface : String} {dns : List String} {process : Process} {now : Nat}

lemma good_setFileAt_idle (hjournal : d.journal = .default) (hcontent : d.content = content₀)
    (hboot : process.bootId = host.bootId)
    (halive : ∀ current : Process, current.bootId = host.bootId →
      host.alive process current = true) :
    Good host content₀ ((ofDisk d).setFileAt host iface dns process now write) := by
  have hkept : Kept host content₀ d := .idle hjournal hcontent
  unfold setFileAt
  rw [if_neg (by simp [ofDisk, hjournal])]
  dsimp only
  split
  · exact .failed (s := .ofDisk d) hkept _
  next original horiginal =>
  split
  · exact .failed (s := (ofDisk d).setFile _) hkept _
  split
  · exact .failed (s := (ofDisk d).setFile _) hkept _
  rw [if_neg (by simp [ofDisk, setFile, hjournal])]
  -- The record has just been made from the file.
  have hrecord : original = ⟨host.target, content₀, host.link, host.bootId, none, none, 0, 0⟩ := by
    simp only [Locked.original, ofDisk, hjournal, Journal.default_file, readOriginal,
      hcontent, hboot] at horiginal
    grind
  subst hrecord
  refine good_promote ?_ ?_ ?_ rfl rfl (.inr (known_stageWrite (.inr (.inr (.inl hcontent)))))
  · intro o ho
    rw [show ((ofDisk d).setFile _).journal.owners = [] by
      simp [ofDisk, setFile, hjournal], List.mem_singleton] at ho
    rw [ho]
    exact halive
  · simp [ofDisk, setFile, hjournal]
  · simp [Host.sameTarget]

lemma good_setFileAt_owned (howned : Owned host content₀ d.journal original top)
    (hknown : Known content₀ original d.content)
    (halive : ∀ current : Process, current.bootId = host.bootId →
      host.alive process current = true)
    (hcareful : write = .ok () ∨ MayFail d iface dns) :
    Good host content₀ ((ofDisk d).setFileAt host iface dns process now write) := by
  have hkept : Kept host content₀ d := .owned howned hknown
  have hset : (ofDisk d).setFile (some original) = .ofDisk d := by
    rw [setFile, ofDisk, ← howned.file]
  have hrecord : (ofDisk d).original host process = .ok original := by
    simp [Locked.original, ofDisk, howned.file]
  unfold setFileAt
  rw [if_neg (by simp [ofDisk, howned.file, howned.target])]
  simp only [hrecord, hset]
  split
  · exact .failed (s := .ofDisk d) hkept _
  split
  · exact .failed (s := .ofDisk d) hkept _
  split
  · rw [show (ofDisk d).journal.owners.getLast? = some top from howned.last]
    exact good_repair rfl howned hknown
  next hchanged =>
  refine good_promote ?_ howned.pending howned.target howned.bootId howned.bytes ?_
  · intro o ho
    rcases List.mem_cons.mp ho with rfl | hold
    · exact halive
    · exact howned.alive o hold
  refine hcareful.imp_right fun hmay => ?_
  have htop := howned.topBody
  rcases hmay with hnone | hsame | hbody | hcurrent | hown | ⟨o, ho, hfirst⟩
  · have hlast := howned.last
    rw [show d.journal.owners = [] from hnone] at hlast
    cases hlast
  · refine absurd ?_ hchanged
    simpa [ofDisk, Disk.owners] using hsame
  · rw [htop] at hbody
    exact known_stageWrite (.inr (.inr (.inr ⟨howned.written.trans hbody, hknown⟩)))
  · rw [htop] at hcurrent
    exact known_stageWrite (.inr (.inl ⟨hcurrent.trans howned.written.symm, by simp [howned.written]⟩))
  · exact known_stageWrite (.inl hown)
  · rw [show d.journal.file = some original from howned.file, Option.some.injEq] at ho
    subst ho
    exact known_stageWrite (.inr (.inr (.inl (hfirst.trans howned.bytes))))

lemma good_setFileAt (h : Kept host content₀ d) (hpid : pid ≠ 0)
    (hprocess : host.currentProcess pid = .ok process)
    (hcareful : write = .ok () ∨ MayFail d iface dns) :
    Good host content₀ ((ofDisk d).setFileAt host iface dns process now write) := by
  have halive := alive_of_currentProcess hpid hprocess
  rcases h with ⟨hjournal, hcontent⟩ | ⟨howned, hknown⟩
  · exact good_setFileAt_idle hjournal hcontent (bootId_of_currentProcess hprocess) halive
  · exact good_setFileAt_owned howned hknown halive hcareful

/-! ## Owners that leave -/

/-- Removing an owner below the last one leaves the last one in place. -/
lemma getLast?_eraseIdx {l : List Owner} {i : Nat} (hi : i + 1 < l.length) :
    (l.eraseIdx i).getLast? = l.getLast? := by
  rw [List.eraseIdx_eq_take_drop_succ, List.getLast?_append, List.getLast?_drop,
    if_neg (by omega)]
  cases h : l.getLast? with
  | none =>
    rw [List.getLast?_eq_none_iff.mp h] at hi
    simp at hi
  | some top => rfl

variable (write) in
/-- The owners below the last one get the file, or it is restored. -/
lemma good_restoreFile {rest : List Owner}
    (howned : Owned host content₀ d.journal original top) (hrest : rest ⊆ d.owners)
    (hknown : Known content₀ original d.content) :
    Good host content₀ (((ofDisk d).setOwners rest).restoreFile host write) := by
  have hfile : ((ofDisk d).setOwners rest).journal.file = some original := howned.file
  unfold restoreFile
  rw [hfile]
  dsimp only
  split
  · -- The file holds neither body, so it holds the original.
    next hforeign =>
    have hcontent : d.content = content₀ := by
      rcases hknown with hlast | hprevious | hfirst
      · simp [howned.target, ofDisk, setOwners, hlast] at hforeign
      · simp [howned.target, ofDisk, setOwners, hprevious] at hforeign
      · exact hfirst
    exact ⟨.idle rfl hcontent, fun _ => .inl rfl⟩
  · split
    · next s' err hreplace =>
      cases write with
      | ok _ => cases hreplace
      | error _ =>
        cases hreplace
        exact .failed (s := (ofDisk d).setOwners rest) (.owned howned hknown) _
    · next s' hreplace =>
      cases write with
      | error _ => cases hreplace
      | ok _ =>
        cases hreplace
        cases hlast : rest.getLast? with
        | none =>
          have hnil := List.getLast?_eq_none_iff.mp hlast
          subst hnil
          exact ⟨.idle rfl howned.bytes, fun _ => .inl rfl⟩
        | some owner =>
          have hne : rest.isEmpty = false := by
            rw [List.isEmpty_eq_false_iff]
            rintro rfl
            cases hlast
          refine ⟨@Kept.owned _ _ _ { original with lastWritten := some (fileBody owner.dns) } owner
            ⟨?_, hlast, rfl, howned.target, howned.bootId, howned.bytes, rfl, ?_⟩
            (.inl ?_), fun _ => .inr ?_⟩
          · simp [Disk.journal, save, setOwners, hne, hlast]
          · exact fun o ho => howned.alive o (hrest ho)
          · simp [save, setOwners, hlast]
          · simp [Disk.topBody, Disk.owners, Disk.journal, save, setOwners, hlast]

lemma save_restored {s s' : Locked} (h : s.restoreFile host write = (s', .ok ()))
    (hs : s.journal.file ≠ none) : s'.save = s' := by
  obtain ⟨original, hfile⟩ := Option.ne_none_iff_exists'.mp hs
  unfold restoreFile at h
  rw [hfile] at h
  dsimp only at h
  split at h
  · cases h
    rfl
  split at h
  · cases h
  · cases h
    rfl

/-! ## Operations -/

lemma sound_pruned (h : Kept host content₀ d) {next : Locked → Process → Locked × Result}
    (hnext : ∀ process, host.currentProcess e.pid = .ok process →
      Good host content₀ (next (.ofDisk d) process)) :
    Sound host content₀ (pruned host e d next) := by
  unfold pruned
  split
  · exact ⟨h, nofun⟩
  · next process hprocess =>
    rw [prune_kept h (bootId_of_currentProcess hprocess)]
    exact hnext process hprocess

def IsTop (d : Disk) (iface : String) : Prop :=
  (d.owners.findIdx? (·.iface = iface)).any (· + 1 = d.owners.length)

/-- Under which conditions an operation keeps the file within reach and right. -/
def Careful (d : Disk) : Op × Event → Prop
  | (.set dns, e) => e.write = .ok () ∨ MayFail d e.iface (splitWhitespace dns)
  | (.verify, e) => d.Current ∨ ∃ owner ∈ d.owners, owner.iface = e.iface
  | (.clear, e) => d.Current ∨ IsTop d e.iface

lemma owners_eq_nil (hsaved : d.saved = none) : d.owners = [] := by
  simp [Disk.owners, Disk.journal, hsaved]

lemma sound_setMode {dns : String} (h : Kept host content₀ d)
    (hcareful : Careful d (.set dns, e)) : Sound host content₀ (setMode text host dns e d) := by
  unfold setMode
  dsimp only
  split
  · exact ⟨h, nofun⟩
  · exact sound_pruned h fun process hprocess => good_setFileAt h e.pid_ne hprocess hcareful

lemma sound_verifyFile (h : Kept host content₀ d) (hcareful : Careful d (.verify, e)) :
    Sound host content₀ (verifyFile host e d) := by
  unfold verifyFile
  split
  · next hsaved => exact ⟨h, fun _ => .inl (owners_eq_nil hsaved)⟩
  next journal hsaved =>
  have howners : d.owners = journal.owners := by
    simp [Disk.owners, Disk.journal, hsaved]
  split
  · next hnot =>
    refine ⟨h, fun _ => hcareful.resolve_right ?_⟩
    rw [howners]
    simpa using hnot
  · next hany =>
    refine sound_pruned h fun process hprocess => ?_
    simp only [ofDisk_owners]
    split
    · next hnone =>
      rw [howners] at hnone
      grind
    next owner hfind =>
    have hmem := List.mem_of_find?_eq_some hfind
    have hiface := List.find?_some hfind
    exact good_setFileAt h e.pid_ne hprocess
      (.inr (.inr (.inl ⟨owner, hmem, by simpa using hiface, rfl⟩)))

lemma good_leave {index : Nat} (howned : Owned host content₀ d.journal original top)
    (hknown : Known content₀ original d.content) (hindex : index < d.owners.length)
    (hcareful : d.Current ∨ index + 1 = d.owners.length) :
    Good host content₀ ((ofDisk d).leave host write index) := by
  unfold leave
  dsimp only
  split
  · have hgood := good_restoreFile write howned
      (List.eraseIdx_subset (l := d.owners) (k := index)) hknown
    split
    · next s' err hrestore =>
      change Good host content₀ (s', .error err)
      exact hrestore ▸ hgood
    · next s' hrestore =>
      rw [save_restored hrestore (by simp [ofDisk, setOwners, howned.file])]
      exact hrestore ▸ hgood
  · next hbelow =>
    have hbelow : index + 1 ≠ d.owners.length := hbelow
    have hlast : (d.owners.eraseIdx index).getLast? = some top :=
      (getLast?_eraseIdx (by omega)).trans howned.last
    refine ⟨.owned ⟨howned.file, hlast, howned.pending, howned.target, howned.bootId, howned.bytes,
      howned.written, ?_⟩ hknown, fun _ => .inr ?_⟩
    · exact fun o ho => howned.alive o (List.eraseIdx_subset ho)
    · rcases hcareful.resolve_right hbelow with hnil | hcontent
      · simp [hnil] at hindex
      · refine hcontent.trans (howned.topBody.trans ?_)
        change _ = (d.owners.eraseIdx index).getLast?.map fun owner => fileBody owner.dns
        rw [hlast, Option.map_some]

lemma sound_clear (h : Kept host content₀ d) (hcareful : Careful d (.clear, e)) :
    Sound host content₀ (clear host e d) := by
  unfold clear
  split
  · next hsaved => exact ⟨h, fun _ => .inl (owners_eq_nil hsaved)⟩
  refine sound_pruned h fun process hprocess => ?_
  dsimp only [ofDisk_owners]
  cases hindex : d.owners.findIdx? (·.iface = e.iface) with
  | none =>
    refine ⟨h, fun _ => hcareful.resolve_right ?_⟩
    rw [IsTop, hindex]
    simp
  | some index =>
    obtain ⟨hlt, _⟩ := List.findIdx?_eq_some_iff_getElem.mp hindex
    rcases h with ⟨hjournal, _⟩ | ⟨howned, hknown⟩
    · simp [Disk.owners, hjournal] at hlt
    · refine good_leave howned hknown hlt (hcareful.imp_right fun htop => ?_)
      rw [IsTop, hindex] at htop
      simpa using htop

/-! ## Runs -/

def next? (text : AddrText) (host : Host) (d : Disk) (op : Op × Event) : Option Disk :=
  some (step text host d op).1

variable (text) in
lemma sound_step {op : Op × Event} (h : Kept host content₀ d) (hcareful : Careful d op) :
    Sound host content₀ (step text host d op) := by
  obtain ⟨op, e⟩ := op
  cases op with
  | set dns => exact sound_setMode h hcareful
  | verify => exact sound_verifyFile h hcareful
  | clear => exact sound_clear h hcareful

lemma Kept.content (h : Kept host content₀ d) (hnil : d.owners = []) : d.content = content₀ := by
  rcases h with ⟨_, hcontent⟩ | ⟨howned, _⟩
  · exact hcontent
  · have hlast := howned.last
    rw [show d.journal.owners = [] from hnil] at hlast
    cases hlast

/-- A step after which the file is right: without owners it is as at first, and a success leaves
the body of the last owner in it. -/
def Right (text : AddrText) (host : Host) (content₀ : Option Bytes) (d : Disk) (op : Op × Event)
    (d' : Disk) : Prop :=
  (d'.owners = [] → d'.content = content₀) ∧
    ((step text host d op).2 = .ok () → d'.owners ≠ [] → d'.content = d'.topBody)

/-- In a run of careful operations from a file without owners, every step leaves it right. -/
theorem everyStep_right (text : AddrText) (host : Host) (content₀ : Option Bytes)
    (ops : List (Op × Event))
    (hcareful : EveryStep (next? text host) (fun d op _ => Careful d op) ⟨content₀, none⟩ ops) :
    EveryStep (next? text host) (Right text host content₀) ⟨content₀, none⟩ ops := by
  refine everyStep_of_inv ?_ ?_ (show Kept host content₀ _ from .idle rfl rfl) hcareful
  · rintro d op d' h hstep hop
    cases hstep
    exact (sound_step text h hop).1
  · rintro d op d' h hstep hop
    cases hstep
    obtain ⟨hkept, hcurrent⟩ := sound_step text h hop
    exact ⟨hkept.content, fun hok hne => (hcurrent hok).resolve_left hne⟩

def sampleHost : Host := ⟨["etc", "resolv.conf"], none, "boot", fun _ => .ok "start"⟩

def sampleEvent (iface : String) (write : Except String Unit) : Event :=
  ⟨iface, 1, 0, .ok (), write, by decide⟩

/-- Two owners, the second of which gets its body into the file by a repair. -/
theorem everyStep_right_repaired :
    let ops := [(Op.set "10.0.0.1", sampleEvent "a" (.ok ())),
      (.set "10.0.0.2", sampleEvent "b" (.error "full")), (.verify, sampleEvent "a" (.ok ())),
      (.clear, sampleEvent "b" (.ok ())), (.clear, sampleEvent "a" (.ok ()))]
    EveryStep (next? .plain sampleHost) (fun d op _ => Careful d op) ⟨some [], none⟩ ops ∧
      EveryStep (next? .plain sampleHost) (Right .plain sampleHost (some [])) ⟨some [], none⟩
        ops := by
  intro ops
  have hcareful :
      EveryStep (next? .plain sampleHost) (fun d op _ => Careful d op) ⟨some [], none⟩ ops := by
    rintro _ ⟨⟩
    refine ⟨.inl rfl, ?_⟩
    rintro _ ⟨⟩
    refine ⟨.inr (.inr (.inr (.inr (.inl (by decide +kernel))))), ?_⟩
    rintro _ ⟨⟩
    refine ⟨.inr (by decide +kernel), ?_⟩
    rintro _ ⟨⟩
    refine ⟨.inr (by unfold IsTop; decide +kernel), ?_⟩
    rintro _ ⟨⟩
    exact ⟨.inr (by unfold IsTop; decide +kernel), trivial⟩
  exact ⟨hcareful, everyStep_right .plain sampleHost (some []) ops hcareful⟩

/-- The owners, the file and the success of the last operation of a run from an empty file. -/
def sampleRun (ops : List (Op × Event)) (last : Op × Event) :
    Option (List String × Option Bytes × Bool) :=
  (runFrom (next? .plain sampleHost) ⟨some [], none⟩ ops).map fun d =>
    let (d, result) := step .plain sampleHost d last
    (d.owners.map Owner.iface, d.content, result.isOk)

/-- After one write and two different ones that fail, the journal does not know the body in the
file any more: a clear releases the file with the body of the first owner in it. After one that
fails, an owner below the last one can clear with the wrong body in the file. -/
theorem clear_leaves_first_body :
    sampleRun [(.set "10.0.0.1", sampleEvent "a" (.ok ())),
        (.set "10.0.0.2", sampleEvent "b" (.error "full")),
        (.set "10.0.0.3", sampleEvent "c" (.error "full"))] (.clear, sampleEvent "c" (.ok ())) =
      some ([], some (fileBody ["10.0.0.1"]), true) ∧
    sampleRun [(.set "10.0.0.1", sampleEvent "a" (.ok ())),
        (.set "10.0.0.2", sampleEvent "b" (.error "full"))] (.clear, sampleEvent "a" (.ok ())) =
      some (["b"], some (fileBody ["10.0.0.1"]), true) ∧
    fileBody ["10.0.0.1"] ≠ [] ∧ fileBody ["10.0.0.1"] ≠ fileBody ["10.0.0.2"] := by
  decide +kernel

end Fluxpeer.Dns
