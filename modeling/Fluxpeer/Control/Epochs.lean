import Fluxpeer.Control.Effects

/-!
# Epochs and configurations

A network without calls in progress shows its devices one configuration for each epoch: whatever
has changed since the epoch began has moved it on. While calls are in progress a change comes first
and the epoch follows it, with one exception: a call that read a route as not approved deletes it
without a bump, even if the route has been approved in between.
-/

namespace Fluxpeer.Control

open Lib Net Server

/-- A store starts again only when it has no call in progress. -/
def Uninterrupted (s : Server) : Event → Server → Prop
  | .connect store, _ => ∀ id r, s.calls id = some r → r.store ≠ store
  | _, _ => True

/-- A route that was read as not approved is deleted only while it is not. -/
def DeletesAsRead (s : Server) : Event → Server → Prop
  | .advance id _, _ => ∀ r routeId read, s.calls id = some r → r.task = .deleteWrite routeId read →
    read.approved = false → ∀ row ∈ s.db.routes.rows, row.id = routeId → row.approved = false
  | _, _ => True

section

variable {text : AddrText} {db : Db}

/-- A route after a step was there before, or is not approved, or the bump of its network follows. -/
lemma step_routes {task : Task} (env : Env) (htask : task.Sound text db) {row : Route}
    (h : row ∈ (task.step text env db).1.routes.rows) :
    row ∈ db.routes.rows ∨ row.approved = false ∨
      (task.step text env db).2 = some (.bump row.networkId) := by
  by_cases hordinary : task.Ordinary
  · rcases ((task.writes text db env).evolves hordinary htask).routes row h with hold | hnew
    · exact .inl hold
    · exact .inr (.inl hnew.pending)
  cases task with
  | approveWrite routeId networkId =>
    obtain ⟨r, hr, rfl⟩ := List.mem_map.mp h
    split
    · next hid =>
      right
      right
      rw [← htask.2 r hr (of_decide_eq_true hid)]
      rfl
    · exact .inl hr
  | insertNetwork net =>
    simp only [Task.step] at h
    split at h
    · next hinsert =>
      obtain ⟨networks, -, rfl⟩ := insertNetwork_eq_ok hinsert
      exact .inl h
    · exact .inl h
  | _ => exact absurd trivial hordinary

/-- A call that is about to delete a route has just read it. -/
lemma step_deleteWrite {task : Task} {env : Env} {routeId : String} {read : Route}
    (h : (task.step text env db).2 = some (.deleteWrite routeId read)) :
    task = .deleteRead routeId ∧ db.getRoute routeId = some read := by
  generalize hstep : task.step text env db = result at h
  obtain ⟨db', next⟩ := result
  subst h
  cases step_leads hstep with
  | spent h => cases h
  | delete found => exact ⟨rfl, found⟩

end

namespace Server

/-- A call is about to bump the epoch of the network. -/
def Owes (n : String) (s : Server) : Prop := ∃ id r, s.calls id = some r ∧ r.task = .bump n

/-- The epoch of the network has moved on since it was `e₀`, or is about to. -/
def MovesOn (n : String) (e₀ : Nat) (s : Server) : Prop :=
  ∀ e, s.db.epoch n = some e → e₀ < e ∨ e₀ ≤ e ∧ s.Owes n

/-- Calls that are about to delete a route of the network see it as it is. -/
def Tracked (n : String) (s : Server) : Prop :=
  ∀ id r routeId read, s.calls id = some r → r.task = .deleteWrite routeId read →
    read.approved = false → ∀ row ∈ s.db.routes.rows, row.id = routeId → row.networkId = n →
      row.approved = false

variable {text : AddrText} {n : String} {e₀ : Nat} {s s' : Server} {e : Event}

/-- A call that takes no step stays where it is. -/
lemma step_keeps (h : s.Sound text) (hstep : s.step text e = some s')
    (hconnect : Uninterrupted s e s') {id : CallId} {r : Running} (hid : s.calls id = some r)
    (hne : ∀ env, e ≠ .advance id env) : s'.calls id = some r := by
  cases e with
  | call store c =>
    cases hstep
    have hlt : id ≠ s.nextCall := by
      rintro rfl
      rw [h.unused _ le_rfl] at hid
      cases hid
    rw [(call_frame text s store c).2.2, Function.update_of_ne hlt]
    exact hid
  | advance id₀ env =>
    obtain ⟨r₀, hid₀, rfl⟩ := Option.map_eq_some_iff.mp hstep
    have hne' : id ≠ id₀ := fun heq => hne env (heq ▸ rfl)
    exact (Function.update_of_ne hne' _ _).trans hid
  | subscribe store networkId =>
    cases hstep
    rw [(subscribe_frame s store networkId).2.1]
    exact hid
  | unsubscribe id₀ =>
    simp only [step] at hstep
    split at hstep
    · cases hstep
    · cases hstep
      exact hid
  | connect store =>
    cases hstep
    change (s.calls id).filter _ = some r
    rw [hid, Option.filter_some, if_pos (by simpa using hconnect id r hid)]

lemma advance_calls_self (s : Server) (id : CallId) (env : Env) (r : Running) :
    (s.advance text id env r).calls id = (r.task.step text env s.db).2.map (⟨r.store, ·⟩) :=
  Function.update_self ..

lemma MovesOn.step (h : s.MovesOn n e₀) (hknown : s.Known n) (hsound : s.Sound text)
    (hstep : s.step text e = some s') (hconnect : Uninterrupted s e s') : s'.MovesOn n e₀ := by
  intro e' he'
  obtain ⟨e₁, hle, he₁⟩ := hknown.epoch_le hsound hstep he'
  rcases h e₁ he₁ with hlt | ⟨hle₀, id, r, hid, hr⟩
  · exact .inl (hlt.trans_le hle)
  by_cases hadvance : ∃ env, e = .advance id env
  · -- The call that owed the bump makes it.
    obtain ⟨env, rfl⟩ := hadvance
    obtain ⟨r₀, hid₀, rfl⟩ := Option.map_eq_some_iff.mp hstep
    cases hid₀.symm.trans hid
    have hbump : (s.advance text id env r).db.epoch n = (s.db.epoch n).map (· + 1) := by
      rw [← epoch_bumpNetworkEpoch]
      change (r.task.step text env s.db).1.epoch n = _
      rw [hr]
      rfl
    rw [hbump, he₁] at he'
    cases he'
    exact .inl (Nat.lt_succ_of_le hle₀)
  · refine .inr ⟨hle₀.trans hle, id, r, ?_, hr⟩
    exact step_keeps hsound hstep hconnect hid fun env heq => hadvance ⟨env, heq⟩

/-- A step does not show in the configurations of the network, or moves its epoch on, unless it
deletes a route that was approved after it was read. -/
lemma unseen_or_movesOn (hsound : s.Sound text) (hstep : s.step text e = some s')
    (he₀ : s.db.epoch n = some e₀)
    (hread : ∀ id env r routeId read, e = .advance id env → s.calls id = some r →
      r.task = .deleteWrite routeId read → read.approved = false → ∀ row ∈ s.db.routes.rows,
        row.id = routeId → row.networkId = n → row.approved = false) :
    (Unseen n s.db s'.db ∧ ∀ row ∈ s'.db.routes.rows, row.networkId = n →
      row ∈ s.db.routes.rows ∨ row.approved = false) ∨ s'.MovesOn n e₀ := by
  have hknown := hsound.known he₀
  rcases step_db hstep with ⟨hdb, -⟩ | ⟨id, env, r, rfl, hid, hdb⟩
  · rw [hdb]
    exact .inl ⟨.refl _, fun row hrow _ => .inl hrow⟩
  have htask := hsound.tasks id r hid
  by_cases howed : (r.task.step text env s.db).2 = some (.bump n)
  · -- The bump comes next.
    right
    intro e' he'
    obtain ⟨e₁, hle, he₁⟩ := hknown.epoch_le hsound hstep he'
    cases he₀.symm.trans he₁
    refine .inr ⟨hle, id, ⟨r.store, .bump n⟩, ?_, rfl⟩
    obtain ⟨r₀, hid₀, rfl⟩ := Option.map_eq_some_iff.mp hstep
    cases hid₀.symm.trans hid
    rw [advance_calls_self, howed]
    rfl
  · have heffect := r.task.effect (n := n) env htask
    rw [hdb]
    cases heffect with
    | effect h =>
      cases h with
      | unseen hunseen =>
        refine .inl ⟨hunseen, fun row hrow hnetwork => ?_⟩
        rcases step_routes env htask hrow with hold | hpending | hbump
        · exact .inl hold
        · exact .inr hpending
        · exact absurd (hnetwork ▸ hbump) howed
      | bumped he he' hlt =>
        right
        intro e₂ he₂
        cases he₀.symm.trans he
        rw [hdb, he'] at he₂
        cases he₂
        exact .inl hlt
      | gone hgone =>
        right
        intro e₂ he₂
        rw [hdb, hgone] at he₂
        cases he₂
    | owed h => exact absurd h howed
    | created h hnet => exact absurd hnet (hknown.inserts id r _ hid h)
    | overlooked h hreadApproved hr hrow hnetwork happroved =>
      rw [hread id env r _ _ rfl hid h hreadApproved _ hr hrow hnetwork] at happroved
      cases happroved

/-- Between states with one epoch: the epoch has moved on, or nothing has changed. -/
def Settled (n : String) (e₀ : Nat) (v : View) (s : Server) : Prop :=
  s.MovesOn n e₀ ∨ s.db.epoch n = some e₀ ∧ s.db.view n = v ∧ s.Tracked n

lemma Settled.step {v : View} (h : s.Settled n e₀ v) (hknown : s.Known n) (hsound : s.Sound text)
    (hstep : s.step text e = some s') (hconnect : Uninterrupted s e s') : s'.Settled n e₀ v := by
  rcases h with hmoves | ⟨he₀, hview, htracked⟩
  · exact .inl (hmoves.step hknown hsound hstep hconnect)
  rcases unseen_or_movesOn hsound hstep he₀ fun id env r routeId read _ =>
      htracked id r routeId read with ⟨hunseen, hroutes⟩ | hmoves
  · refine .inr ⟨hunseen.epoch.trans he₀, hunseen.view.trans hview, ?_⟩
    intro id r' routeId read hid hr' hread row hrow hrowId hnetwork
    rcases step_calls hstep hid with ⟨hold, -⟩ | ⟨env, r, rfl, hold, -, hnext⟩ |
      ⟨store, c, -, -, -, hstart⟩
    · rcases hroutes row hrow hnetwork with hrow | hpending
      · exact htracked id r' routeId read hold hr' hread row hrow hrowId hnetwork
      · exact hpending
    · -- The call has just read the route, which is still the one stored.
      rw [hr'] at hnext
      obtain ⟨htask, hget⟩ := step_deleteWrite hnext
      rcases hroutes row hrow hnetwork with hrow | hpending
      · obtain ⟨hstored, hid⟩ := route_of_getRoute hget
        rw [route_eq hrow hstored (hrowId.trans hid.symm)]
        exact hread
      · exact hpending
    · rw [hr'] at hstart
      cases start_initial hstart
  · exact .inl hmoves

end Server

/-! ## Runs -/

/-- Two states without calls in progress in which a network has one epoch show its devices one
configuration. -/
def EpochDetermines (texts : Texts) (es : List Event) : Prop :=
  ∀ es₁ es₂ s s', es = es₁ ++ es₂ → runFrom (Server.step texts.addr) .init es₁ = some s →
    runFrom (Server.step texts.addr) s es₂ = some s' → s.Quiescent → s'.Quiescent →
    ∀ n e, s.db.epoch n = some e → s'.db.epoch n = some e →
      ∀ id, s.db.ActiveIn n id ∨ s'.db.ActiveIn n id →
        s.db.deviceConfig texts id = s'.db.deviceConfig texts id

/-- A step that changes what a device of a network is shown is followed by a larger epoch. -/
def EpochFollows (texts : Texts) (es : List Event) : Prop :=
  ∀ es₁ e es₂ s s' s'', es = es₁ ++ e :: es₂ →
    runFrom (Server.step texts.addr) .init es₁ = some s → s.step texts.addr e = some s' →
    runFrom (Server.step texts.addr) s' es₂ = some s'' → s''.Quiescent →
    ∀ n e₀ e₂, s.db.epoch n = some e₀ → s''.db.epoch n = some e₂ →
      ∀ id, s.db.ActiveIn n id ∨ s'.db.ActiveIn n id →
        s.db.deviceConfig texts id ≠ s'.db.deviceConfig texts id → e₀ < e₂

namespace Server

variable {texts : Texts} {n : String} {e₀ : Nat} {s s' : Server} {es : List Event}

lemma deviceConfig_of_unseen {db db' : Db} {id : String} (h : Unseen n db db')
    (hactive : db.ActiveIn n id ∨ db'.ActiveIn n id) :
    db.deviceConfig texts id = db'.deviceConfig texts id := by
  rcases hactive with hactive | hactive
  · exact (deviceConfig_congr texts h.view h.epoch hactive).2.symm
  · exact (deviceConfig_congr texts h.view.symm h.epoch.symm hactive).2

/-- Without calls in progress nothing is owed. -/
lemma MovesOn.lt (h : s.MovesOn n e₀) (hquiet : s.Quiescent) {e : Nat}
    (he : s.db.epoch n = some e) : e₀ < e := by
  rcases h e he with hlt | ⟨-, id, r, hid, -⟩
  · exact hlt
  · rw [hquiet id] at hid
    cases hid

lemma epochDetermines (hes : EveryStep (step texts.addr) Uninterrupted .init es) :
    EpochDetermines texts es := by
  rintro es₁ es₂ s s' rfl hrun₁ hrun₂ hquiet hquiet' n e he he' id hactive
  have hsound := sound_of_run hrun₁
  have hbegin : s.Settled n e (s.db.view n) := by
    refine .inr ⟨he, rfl, ?_⟩
    intro id r routeId read hid
    rw [hquiet id] at hid
    cases hid
  have hkeep : ∀ s₁ event s₂, (s₁.Sound texts.addr ∧ s₁.Known n ∧ s₁.Settled n e (s.db.view n)) →
      s₁.step texts.addr event = some s₂ → Uninterrupted s₁ event s₂ →
      s₂.Sound texts.addr ∧ s₂.Known n ∧ s₂.Settled n e (s.db.view n) := by
    rintro s₁ event s₂ ⟨hsound, hknown, hsettled⟩ hstep hconnect
    exact ⟨hsound.step hstep, hknown.step hsound hstep, hsettled.step hknown hsound hstep hconnect⟩
  obtain ⟨-, -, hsettled⟩ := inv_of_everyStep hkeep ⟨hsound, hsound.known he, hbegin⟩
    (everyStep_of_append hes hrun₁) hrun₂
  rcases hsettled with hmoves | ⟨-, hview, -⟩
  · exact absurd (hmoves.lt hquiet' he') (lt_irrefl e)
  · exact deviceConfig_of_unseen ⟨hview, he'.trans he.symm⟩ hactive

lemma epochFollows (hes : EveryStep (step texts.addr) Uninterrupted .init es)
    (hdeletes : EveryStep (step texts.addr) DeletesAsRead .init es) :
    EpochFollows texts es := by
  rintro es₁ e es₂ s s' s'' rfl hrun₁ hstep hrun₂ hquiet n e₀ e₂ he₀ he₂ id hactive hne
  have hsound := sound_of_run hrun₁
  have hknown := hsound.known he₀
  obtain ⟨hconnect, hrest⟩ := everyStep_of_append hes hrun₁ s' hstep
  obtain ⟨hread, -⟩ := everyStep_of_append hdeletes hrun₁ s' hstep
  have hmoves : s'.MovesOn n e₀ := by
    have hcases := unseen_or_movesOn hsound hstep he₀ (by
      rintro id env r routeId read rfl hid hr happroved row hrow hrowId -
      exact hread r routeId read hid hr happroved row hrow hrowId)
    rcases hcases with ⟨hunseen, -⟩ | hmoves
    · exact absurd (deviceConfig_of_unseen hunseen hactive) hne
    · exact hmoves
  have hkeep : ∀ s₁ event s₂, (s₁.Sound texts.addr ∧ s₁.Known n ∧ s₁.MovesOn n e₀) →
      s₁.step texts.addr event = some s₂ → Uninterrupted s₁ event s₂ →
      s₂.Sound texts.addr ∧ s₂.Known n ∧ s₂.MovesOn n e₀ := by
    rintro s₁ event s₂ ⟨hsound, hknown, hmoves⟩ hstep hconnect
    exact ⟨hsound.step hstep, hknown.step hsound hstep, hmoves.step hknown hsound hstep hconnect⟩
  obtain ⟨-, -, hmoves⟩ := inv_of_everyStep hkeep
    ⟨hsound.step hstep, hknown.step hsound hstep, hmoves⟩ hrest hrun₂
  exact hmoves.lt hquiet he₂

end Server

/-- Addresses as they are written and settings without fields. -/
def plainTexts : Texts := ⟨.plain, fun _ => ⟨none, none, none⟩⟩

/-- An exit is advertised by the only device of a network. It is read to be deleted, then approved,
and then deleted. -/
def overlookedRun : List Event :=
  let run := fun id : CallId => Event.advance id ⟨"", none⟩
  let key := String.ofList (List.replicate 64 '0')
  [.call 0 (.createNetwork "a"), run 0, run 0, run 0,
    .call 0 (.importDevices "net-1" [⟨"d", key, none, none, []⟩]), run 1, run 1, run 1,
    .call 0 (.advertiseRoute "dev-2" "0.0.0.0/0"), run 2,
    .call 0 (.deleteRoute "route-3"), run 3,
    .call 0 (.approveRoute "route-3"), run 4, run 4, run 4, run 4, run 4, run 3]

lemma Server.quiescent_of_run (text : AddrText) (es : List Event) {s : Server}
    (hrun : runFrom (step text) .init es = some s)
    (h : ∀ id < s.nextCall, (s.calls id).isNone) : s.Quiescent := by
  intro id
  by_cases hlt : id < s.nextCall
  · exact Option.isNone_iff_eq_none.mp (h id hlt)
  · exact (sound_of_run hrun).unused id (Nat.le_of_not_lt hlt)

/-- The deletion takes the exit away, and the epoch stays what it was. -/
theorem overlookedRun_not_epochFollows :
    EveryStep (Server.step plainTexts.addr) Uninterrupted .init overlookedRun ∧
      ¬ EpochFollows plainTexts overlookedRun := by
  refine ⟨everyStep_of_forall fun e he s s' => ?_, fun h => ?_⟩
  · cases e with
    | connect store => simp [overlookedRun] at he
    | _ => trivial
  · have hlt := h (overlookedRun.take 18) (.advance 3 ⟨"", none⟩) [] _ _ _ rfl rfl rfl rfl
      (Server.quiescent_of_run plainTexts.addr overlookedRun rfl (by decide +kernel)) "net-1" 2 2
      (by decide +kernel) (by decide +kernel) "dev-2" (.inl (by unfold Db.ActiveIn; decide +kernel))
      (by decide +kernel)
    exact absurd hlt (lt_irrefl 2)

/-- In every run whose stores are not interrupted, states without calls in progress and with one
epoch of a network show its devices one configuration; and if routes are deleted as they were read,
every change shown is followed by a larger epoch. -/
theorem epochs_determine_configs (texts : Texts) (es : List Event)
    (hes : EveryStep (Server.step texts.addr) Uninterrupted .init es) :
    EpochDetermines texts es ∧
      (EveryStep (Server.step texts.addr) DeletesAsRead .init es → EpochFollows texts es) :=
  ⟨Server.epochDetermines hes, Server.epochFollows hes⟩

def deletedRun : List Event :=
  let run := fun id : CallId => Event.advance id ⟨"", none⟩
  let key := String.ofList (List.replicate 64 '0')
  [.call 0 (.createNetwork "a"), run 0, run 0,
    .call 0 (.importDevices "net-1" [⟨"d", key, none, none, []⟩]), run 1,
    .call 0 (.advertiseRoute "dev-2" "0.0.0.0/0"), run 2, .call 0 (.deleteRoute "route-3"), run 3, run 3]

theorem epochs_determine_configs_deletedRun :
    EveryStep (Server.step plainTexts.addr) Uninterrupted .init deletedRun ∧
      EveryStep (Server.step plainTexts.addr) DeletesAsRead .init deletedRun ∧
      EpochDetermines plainTexts deletedRun ∧ EpochFollows plainTexts deletedRun := by
  have hes : EveryStep (Server.step plainTexts.addr) Uninterrupted .init deletedRun := by
    refine everyStep_of_forall fun e he s s' => ?_
    cases e with
    | connect store => simp [deletedRun] at he
    | _ => trivial
  have hdeletes : EveryStep (Server.step plainTexts.addr) DeletesAsRead .init deletedRun := by
    refine .cons rfl trivial ?_
    refine .cons rfl (by rintro _ _ _ ⟨⟩ ⟨⟩) ?_
    refine .cons rfl (by rintro _ _ _ ⟨⟩ ⟨⟩) ?_
    refine .cons rfl trivial ?_
    refine .cons rfl (by rintro _ _ _ ⟨⟩ ⟨⟩) ?_
    refine .cons rfl trivial ?_
    refine .cons rfl (by rintro _ _ _ ⟨⟩ ⟨⟩) ?_
    refine .cons rfl trivial ?_
    refine .cons rfl (by rintro _ _ _ ⟨⟩ ⟨⟩) ?_
    -- The call has read the route and finds it as it was.
    rintro _ ⟨⟩
    refine ⟨?_, trivial⟩
    rintro _ _ _ ⟨⟩ ⟨⟩ -
    decide +kernel
  obtain ⟨hdetermines, hfollows⟩ := epochs_determine_configs plainTexts deletedRun hes
  exact ⟨hes, hdeletes, hdetermines, hfollows hdeletes⟩

end Fluxpeer.Control
