import Fluxpeer.Lib.Run
import Mathlib.Data.Finset.Insert
import Mathlib.Data.Fintype.Basic

/-!
# One kill switch for a host

A node that is started without the daemon looks for the journals of other interfaces before its
first `Guard::sync`, which saves its own. The check takes no lock: it lists the directory and reads
the files of the list one after the other. Two nodes that both list the directory before either has
saved its journal both go on, so journals of two interfaces exclude each other only if no node lists
the directory while another has still to save.
-/

namespace Fluxpeer.Firewall.KillSwitch

open Lib

/-- Where the node of an interface is. -/
inductive Phase (ι : Type*)
  | stopped
  /-- `ensure_exclusive_at` with the entries that it has still to read. -/
  | checking (entries : List ι)
  /-- `run_with`, where the guard is. -/
  | running
deriving DecidableEq

/-- The nodes by their interfaces, and the interfaces with an output journal. -/
structure Host (ι : Type*) where
  phase : ι → Phase ι
  journals : Finset ι

inductive Event (ι : Type*)
  /-- `run` lists the directory. A journal that comes or goes meanwhile may be listed or not. -/
  | list (iface : ι) (entries : List ι)
  | read (iface : ι)
  /-- `sync_with` with its outcome up to `save`. -/
  | sync (iface : ι) (saved : Bool)
  /-- `clear_with` for a node that is inactive or taken down, and whether it came to the end. -/
  | clear (iface : ι) (removed : Bool)
  /-- The node stops with an error, or is killed. -/
  | stop (iface : ι)

variable {ι : Type*} [DecidableEq ι]

namespace Host

def put (h : Host ι) (iface : ι) (phase : Phase ι) : Host ι :=
  { h with phase := Function.update h.phase iface phase }

@[grind =]
lemma phase_put (h : Host ι) (iface : ι) (phase : Phase ι) (x : ι) :
    (h.put iface phase).phase x = if x = iface then phase else h.phase x :=
  Function.update_apply ..

@[grind =]
lemma journals_put (h : Host ι) (iface : ι) (phase : Phase ι) :
    (h.put iface phase).journals = h.journals := rfl

def step (h : Host ι) : Event ι → Option (Host ι)
  | .list iface entries =>
    if h.phase iface = .stopped ∧ ∀ owner ∈ h.journals, owner ∈ entries then
      some (h.put iface (.checking entries))
    else none
  | .read iface =>
    match h.phase iface with
    | .checking [] => some (h.put iface .running)
    | .checking (owner :: entries) =>
      -- a file that is gone by now is passed over
      if owner ∈ h.journals ∧ owner ≠ iface then some (h.put iface .stopped)
      else some (h.put iface (.checking entries))
    | _ => none
  | .sync iface saved =>
    match h.phase iface with
    | .running => some (if saved then { h with journals := insert iface h.journals } else h)
    | _ => none
  | .clear iface removed =>
    match h.phase iface with
    | .running =>
      some ({ h with journals := if removed then h.journals.erase iface else h.journals }.put iface
        .stopped)
    | _ => none
  | .stop iface => some (h.put iface .stopped)

/-- A node that has still to save its journal, if it gets so far. -/
def Due (h : Host ι) (iface : ι) : Prop :=
  h.phase iface ≠ .stopped ∧ (h.phase iface = .running → iface ∉ h.journals)

/-- No node lists the directory while another has still to save its journal. -/
def ListsAlone (h : Host ι) : Event ι → Host ι → Prop
  | .list iface _, _ => ∀ other, other ≠ iface → ¬ h.Due other
  | _, _ => True

def Exclusive (h : Host ι) : Prop := ∀ x ∈ h.journals, ∀ y ∈ h.journals, x = y

/-- A node in its check is the only one that is due, and will find the journals of the others. -/
structure Sound (h : Host ι) : Prop where
  owner : ∀ x y, h.phase x = .running ∨ x ∈ h.journals → h.phase y = .running ∨ y ∈ h.journals →
    x = y
  checking : ∀ x entries, h.phase x = .checking entries →
    ∀ y, y ≠ x → ¬ h.Due y ∧ (y ∈ h.journals → y ∈ entries)

lemma Sound.step {h h' : Host ι} {e : Event ι} (hs : h.Sound) (hstep : h.step e = some h')
    (halone : h.ListsAlone e h') : h'.Sound := by
  obtain ⟨howner, hchecking⟩ := hs
  unfold Due at hchecking
  cases e with
  | list iface entries =>
    simp only [Host.step] at hstep
    split at hstep <;> cases hstep
    have halone : ∀ other, other ≠ iface → ¬ h.Due other := halone
    unfold Due at halone
    constructor <;> grind [Due]
  | read iface =>
    simp only [Host.step] at hstep
    split at hstep
    · next hphase =>
      -- No other node is due, and none of them has a journal.
      cases hstep
      have hothers := hchecking iface [] hphase
      constructor <;> grind [Due]
    · next hphase =>
      have hothers := hchecking iface _ hphase
      split at hstep <;> cases hstep <;> constructor <;> grind [Due]
    · cases hstep
  | sync iface saved =>
    simp only [Host.step] at hstep
    split at hstep <;> cases hstep
    cases saved with
    | false => exact ⟨howner, hchecking⟩
    | true => constructor <;> simp only [if_true, Due, Finset.mem_insert] <;> grind
  | clear iface removed =>
    simp only [Host.step] at hstep
    split at hstep <;> cases hstep
    constructor <;> grind [Due]
  | stop iface =>
    cases hstep
    refine ⟨fun x y => ?_, by grind [Due]⟩
    have := howner x y
    grind

/-- In every run of nodes none of which lists the directory while another has still to save its
journal, journals of two interfaces are never there at the same time. -/
theorem exclusive_of_listsAlone (journals : Finset ι)
    (hjournals : ∀ x ∈ journals, ∀ y ∈ journals, x = y) (es : List (Event ι))
    (hes : EveryStep step ListsAlone ⟨fun _ => .stopped, journals⟩ es) :
    Always step Exclusive ⟨fun _ => .stopped, journals⟩ es := by
  refine always_of_inv (fun h e h' hs hstep halone => Sound.step hs hstep halone) ?_ ?_ hes
  · exact fun h hs x hx y hy => hs.owner x y (.inr hx) (.inr hy)
  · exact ⟨by grind, by grind⟩

def start (iface : Bool) : List (Event Bool) := [.list iface [], .read iface, .sync iface true]

instance (h : Host Bool) (e : Event Bool) (h' : Host Bool) : Decidable (h.ListsAlone e h') := by
  unfold ListsAlone Due
  split <;> infer_instance

/-- The second node starts after the journal of the first has been removed. -/
theorem exclusive_of_listsAlone_start :
    EveryStep step ListsAlone ⟨fun _ => .stopped, ∅⟩
        (start false ++ .clear false true :: start true) ∧
      Always step Exclusive ⟨fun _ => .stopped, ∅⟩
        (start false ++ .clear false true :: start true) := by
  have hes : EveryStep step ListsAlone ⟨fun _ => .stopped, ∅⟩
      (start false ++ .clear false true :: start true) := by decide +kernel
  exact ⟨hes, exclusive_of_listsAlone ∅ (by simp) _ hes⟩

/-- Both nodes list the directory, and then both save their journals. -/
theorem two_journals :
    ∃ h, runFrom step (⟨fun _ => .stopped, ∅⟩ : Host Bool) [.list false [], .list true [],
      .read false, .read true, .sync false true, .sync true true] = some h ∧ ¬ h.Exclusive := by
  refine ⟨_, rfl, ?_⟩
  unfold Exclusive
  decide

end Host

end Fluxpeer.Firewall.KillSwitch
