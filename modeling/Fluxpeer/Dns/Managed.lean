import Fluxpeer.Lib.Run
import Fluxpeer.Net.Prefix

/-!
# The resolver file

Interfaces that carry the DNS of an exit own the resolver file in turn: the last one to set it is
in effect, and when it clears, the one below it is, until the original content comes back. Who
owns the file, what it held at first and what was last written to it is kept in a journal on
disk. A write is entered into the journal before it is made, so that after a failed write the
file is still recognised: it holds what was last to be written, or what was to be written before
that. A file that holds neither is taken to be someone else's and is left alone.

Operations are serialised by a lock. What is modelled is the backend that writes the file; the
map of the other backend stays empty in it.
-/

namespace Fluxpeer.Dns

open Lib Net

/-- The components of an absolute path. -/
abbrev Path := List String

def Path.display (path : Path) : String := path.foldl (fun s part => s ++ "/" ++ part) ""

def utf8 (s : String) : Bytes := s.toUTF8.toList

structure ApplyError where
  command : List String
  stderr : String
deriving DecidableEq

abbrev Result := Except ApplyError Unit

/-! ## The journal -/

structure Process where
  pid : UInt32
  startTime : String
  bootId : String
deriving DecidableEq

structure Owner where
  iface : String
  dns : List String
  process : Process
deriving DecidableEq

structure OriginalFile where
  target : Path
  bytes : Option Bytes
  link : Option Path
  bootId : String
  lastWritten : Option Bytes
  previousWritten : Option Bytes
  driftDelay : Nat
  driftAfterMs : Nat
deriving DecidableEq

structure Journal where
  file : Option OriginalFile
  owners : List Owner
  restorePending : Bool
deriving DecidableEq

def Journal.default : Journal := ⟨none, [], false⟩

/-- What an operation finds on the host besides the two files. -/
structure Host where
  /-- Where the resolver path leads, and the text of the link that it is. -/
  target : Path
  link : Option Path
  bootId : String
  /-- The start time of a process, or the error of reading it. -/
  processStart : UInt32 → Except String String

namespace Host

def currentProcess (host : Host) (pid : UInt32) : Except ApplyError Process :=
  match host.processStart pid with
  | .ok startTime => .ok ⟨pid, startTime, host.bootId⟩
  | .error e => .error ⟨["read process start", "/proc"], e⟩

def alive (host : Host) (process current : Process) : Bool :=
  if process.bootId ≠ current.bootId ∨ process.pid = 0 then false
  else (host.processStart process.pid).toOption = some process.startTime

def sameTarget (host : Host) (original : OriginalFile) : Bool :=
  host.link = original.link && host.target = original.target

end Host

/-- The content of the resolver file and of the journal, `none` where there is no file. -/
structure Disk where
  content : Option Bytes
  saved : Option Journal
deriving DecidableEq

def Disk.journal (d : Disk) : Journal := d.saved.getD .default

def nmGenerated (bytes : Option Bytes) : Bool :=
  bytes.any ((utf8 "# Generated by NetworkManager").isPrefixOf ·)

/-- Targets that a resolver manager keeps. -/
def managedTarget (path : Path) : Bool :=
  [["run", "NetworkManager"], ["run", "resolvconf"], ["run", "netconfig"], ["run", "connman"],
    ["run", "dhcpcd"], ["var", "lib", "NetworkManager"], ["var", "run", "NetworkManager"],
    ["var", "run", "resolvconf"], ["var", "run", "netconfig"]].any (·.isPrefixOf path)

/-- Enter a write into the journal. -/
def stageWrite (saved : OriginalFile) (bytes : Bytes) : OriginalFile :=
  if saved.lastWritten ≠ some bytes then
    { saved with
      previousWritten := saved.lastWritten.or saved.bytes
      lastWritten := some bytes }
  else saved

/-- The delay before the next repair doubles up to a minute. -/
def OriginalFile.backoff (saved : OriginalFile) (now : Nat) : OriginalFile :=
  let delay := if saved.driftDelay = 0 then 2 else min (saved.driftDelay * 2) 60
  { saved with driftDelay := delay, driftAfterMs := min (now + delay * 1000) (2 ^ 64 - 1) }

def OriginalFile.settled (saved : OriginalFile) : OriginalFile :=
  { saved with driftDelay := 0, driftAfterMs := 0 }

def fileBody (dns : List String) : Bytes :=
  utf8 (dns.foldl (fun text s => text ++ ("nameserver " ++ s ++ "\n")) "# fluxpeer exit-node\n")

def readOriginal (host : Host) (process : Process) (content : Option Bytes) :
    Except ApplyError OriginalFile :=
  if managedTarget host.target then
    .error ⟨["DNS", "file fallback"], "resolver target is managed externally; enable systemd-resolved or configure DNS manually"⟩
  else if nmGenerated content then
    .error ⟨["DNS", "file fallback"], "NetworkManager-generated resolver file; enable systemd-resolved or configure DNS manually"⟩
  else
    .ok ⟨host.target, content, host.link, process.bootId, none, none, 0, 0⟩

/-- The journal in memory, over what is on disk. -/
structure Locked where
  disk : Disk
  journal : Journal

namespace Locked

/-- `Locked::open`: read the journal under the lock. -/
def ofDisk (disk : Disk) : Locked := ⟨disk, disk.journal⟩

def save (s : Locked) : Locked := { s with disk := { s.disk with saved := some s.journal } }

def setFile (s : Locked) (file : Option OriginalFile) : Locked :=
  { s with journal := { s.journal with file := file } }

def setOwners (s : Locked) (owners : List Owner) : Locked :=
  { s with journal := { s.journal with owners := owners } }

/-- Replace the content, or remove the file; the write may fail and then changes nothing. -/
def replaceFile (s : Locked) (target : Path) (bytes : Option Bytes) (write : Except String Unit) :
    Locked × Result :=
  match write with
  | .ok () => ({ s with disk := { s.disk with content := bytes } }, .ok ())
  | .error e =>
    (s, .error ⟨[if bytes.isSome then "write" else "remove", target.display], e⟩)

def releaseFile (s : Locked) : Locked := { s with journal := .default }.save

/-- The content that the owners ask for, or the original one. -/
def restoreFile (host : Host) (write : Except String Unit) (s : Locked) : Locked × Result :=
  match s.journal.file with
  | none => (s, .ok ())
  | some original =>
    let actual := s.disk.content
    if !host.sameTarget original ||
        (actual ≠ original.lastWritten && actual ≠ original.previousWritten) then
      (s.releaseFile, .ok ())
    else
      let body := s.journal.owners.getLast?.map fun owner => fileBody owner.dns
      match s.replaceFile original.target (body.or original.bytes) write with
      | (s, .error e) => (s, .error e)
      | (s, .ok ()) =>
        let file := if s.journal.owners.isEmpty then none
          else some { original with lastWritten := body }
        ({ s with journal := ⟨file, s.journal.owners, false⟩ }.save, .ok ())

/-- The files under `/run` of an earlier boot are gone with it. -/
def releaseRun (current : Process) (s : Locked) : Locked :=
  if s.journal.file.any fun saved => saved.bootId ≠ current.bootId ∧
      (["run"].isPrefixOf saved.target ∨ ["var", "run"].isPrefixOf saved.target) then
    s.releaseFile
  else s

/-- Drop the owners whose process is gone, and note if the last one is among them. -/
def retainAlive (host : Host) (current : Process) (s : Locked) : Locked :=
  let owners := s.journal.owners.filter fun owner => host.alive owner.process current
  if owners.length ≠ s.journal.owners.length then
    let restorePending := s.journal.restorePending ||
      decide (s.journal.owners.getLast?.map Owner.iface ≠ owners.getLast?.map Owner.iface)
    { s with journal := ⟨s.journal.file, owners, restorePending⟩ }.save
  else s

def prune (host : Host) (current : Process) (write : Except String Unit) (s : Locked) :
    Locked × Result :=
  let s := (s.releaseRun current).retainAlive host current
  if s.journal.restorePending || (s.journal.owners.isEmpty && s.journal.file.isSome) then
    s.restoreFile host write
  else (s, .ok ())

/-- Write the body of the last owner again, not too often. -/
def repair (now : Nat) (write : Except String Unit) (s : Locked) (original : OriginalFile)
    (top : Owner) : Locked × Result :=
  let active := fileBody top.dns
  if s.disk.content = some active then (s, .ok ())
  else if now < original.driftAfterMs then
    (s, .error ⟨["DNS", "verify file"], "DNS drift repair is in backoff"⟩)
  else
    let original := stageWrite (original.backoff now) active
    (s.setFile (some original)).save.replaceFile original.target (some active) write

/-- Make the interface the last owner and write its body. -/
def promote (write : Except String Unit) (s : Locked) (original : OriginalFile) (owner : Owner) :
    Locked × Result :=
  let body := fileBody owner.dns
  let owners := s.journal.owners.filter (·.iface ≠ owner.iface) ++ [owner]
  let original := (stageWrite original body).settled
  ((s.setOwners owners).setFile (some original)).save.replaceFile original.target (some body) write

/-- The record of the original file, made when there is none. -/
def original (host : Host) (process : Process) (s : Locked) : Except ApplyError OriginalFile :=
  match s.journal.file with
  | some original => .ok original
  | none => readOriginal host process s.disk.content

/-- `set_file_at`: an interface that has the file with the same servers keeps its place. -/
def setFileAt (host : Host) (iface : String) (dns : List String) (process : Process) (now : Nat)
    (write : Except String Unit) (s : Locked) : Locked × Result :=
  let s := if s.journal.file.any (!host.sameTarget ·) then s.releaseFile else s
  match s.original host process with
  | .error e => (s, .error e)
  | .ok original =>
    let s := s.setFile (some original)
    if managedTarget original.target then
      (s, .error ⟨["DNS", "file fallback"], "enable systemd-resolved or configure DNS manually"⟩)
    else if nmGenerated s.disk.content then
      (s, .error ⟨["DNS", "file fallback"], "NetworkManager-generated resolver file; enable systemd-resolved or configure DNS manually"⟩)
    else if s.journal.owners.any fun o => o.iface = iface ∧ o.dns = dns then
      match s.journal.owners.getLast? with
      | some top => s.repair now write original top
      | none => s.promote write original ⟨iface, dns, process⟩
    else s.promote write original ⟨iface, dns, process⟩

/-- The owner at a position gives up the file. -/
def leave (host : Host) (write : Except String Unit) (s : Locked) (index : Nat) :
    Locked × Result :=
  let rest := s.setOwners (s.journal.owners.eraseIdx index)
  if index + 1 = s.journal.owners.length then
    match rest.restoreFile host write with
    -- The owner is put back in memory; the journal on disk still has it.
    | (s', .error err) => (s'.setOwners s.journal.owners, .error err)
    | (s', .ok ()) => (s'.save, .ok ())
  else (rest.save, .ok ())

end Locked

/-! ## Operations -/

/-- One operation of an interface, with the outcomes of the resolver writes that it makes. -/
structure Event where
  iface : String
  pid : UInt32
  now : Nat
  /-- The outcome of a write for owners whose process is gone. -/
  pruneWrite : Except String Unit
  write : Except String Unit
  pid_ne : pid ≠ 0

/-- The journal after pruning, if that did not fail. -/
def pruned (host : Host) (e : Event) (d : Disk) (next : Locked → Process → Locked × Result) :
    Disk × Result :=
  match host.currentProcess e.pid with
  | .error err => (d, .error err)
  | .ok current =>
    match (Locked.ofDisk d).prune host current e.pruneWrite with
    | (s, .error err) => (s.disk, .error err)
    | (s, .ok ()) =>
      let (s, result) := next s current
      (s.disk, result)

def setMode (text : AddrText) (host : Host) (dns : String) (e : Event) (d : Disk) : Disk × Result :=
  let servers := splitWhitespace dns
  if servers.isEmpty || servers.any fun s => (text.parse s).isNone then
    (d, .error ⟨["DNS", "set"], "DNS servers must be IP addresses"⟩)
  else
    pruned host e d fun s process => s.setFileAt host e.iface servers process e.now e.write

def verifyFile (host : Host) (e : Event) (d : Disk) : Disk × Result :=
  match d.saved with
  | none => (d, .ok ())
  | some journal =>
    if !journal.owners.any (·.iface = e.iface) then (d, .ok ())
    else
      pruned host e d fun s process =>
        match s.journal.owners.find? (·.iface = e.iface) with
        | none => (s, .ok ())
        | some owner => s.setFileAt host e.iface owner.dns process e.now e.write

def clear (host : Host) (e : Event) (d : Disk) : Disk × Result :=
  match d.saved with
  | none => (d, .ok ())
  | some _ =>
    pruned host e d fun s _ =>
      match s.journal.owners.findIdx? (·.iface = e.iface) with
      | none => (s, .ok ())
      | some index => s.leave host e.write index

inductive Op
  | set (dns : String)
  | verify
  | clear

def step (text : AddrText) (host : Host) (d : Disk) : Op × Event → Disk × Result
  | (.set dns, e) => setMode text host dns e d
  | (.verify, e) => verifyFile host e d
  | (.clear, e) => clear host e d

end Fluxpeer.Dns
