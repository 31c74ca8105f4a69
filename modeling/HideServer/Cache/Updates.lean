import HideServer.Async.Cell
import HideServer.Gateway.Socket
import HideServer.Env.Workspace

/-!
# Concurrent updates of a workspace record

Each routine reads the whole record, changes its part and writes all of it back. Side by side they do
as one after the other would, if each finds, when it writes, the record it has read.
-/

namespace HideServer.Cache.Updates

open Async Async.Prog Gateway Env Trace List FSService

variable {change : CachedWorkspace → CachedWorkspace} (uid : String) (t : Timeouts)

inductive Op where
  /-- `FSService.updateCache` -/
  | dir (uid uuid path : String) (add : Bool)
  /-- `SyncService.updateCache` -/
  | doc (instanceId uuid : String) (ino : Nat) (add : Bool)
  /-- `SSHProxyService.updateConnCache` -/
  | ssh (instanceId sessionId uuid : String) (add : Bool)
  /-- `setWorkspaceState`, as a connection and a disconnection call it. -/
  | touch (uid sessionId : String) (wsUuid : Option String) (state : Liveness)
  /-- `setWorkspaceState`, as a ping calls it. -/
  | ping (uid sessionId : String) (bound uuid : Option String) (served : Bool)
  /-- `handleEnvMessage`, with `handleFSLoss` and `handleSSHSLoss`. -/
  | message (uid sessionId uuid : String) (sticky : Option Sticky) (served healthy : Bool)
  deriving DecidableEq, Repr

def program (t : Timeouts) : Op → Io Unit
  | .dir uid uuid path add => updateCache uid uuid path add
  | .doc instanceId uuid ino add => SyncService.updateCache instanceId uuid ino add
  | .ssh instanceId sessionId uuid add => SSHProxyService.updateConnCache instanceId sessionId uuid add
  | .touch uid sessionId wsUuid state => touchWorkspace t uid sessionId wsUuid state
  | .ping uid sessionId bound uuid served => do
    let _ ← refreshWorkspace t uid sessionId bound uuid served
    return ()
  | .message uid sessionId uuid sticky served healthy => handleEnvMessage uid sessionId uuid sticky served healthy

abbrev State := Pool World Op Cmd Cmd.Answer Unit

abbrev Step := Action Op Change

abbrev step (t : Timeouts) : State → Step → State := Pool.step (program t) exec World.change

def effect : Op → CachedWorkspace → CachedWorkspace
  | .dir uid _ path add, record => updated uid path add record
  | .doc instanceId _ ino add, record => SyncService.updated instanceId ino add record
  | .ssh instanceId sessionId _ add, record => SSHProxyService.updated instanceId sessionId add record
  | .touch _ _ _ state, record => { record with state := state }
  | .ping .., record => { record with state := .active }
  | .message _ _ _ (some (.doc ino)) _ _, record => { record with docs := record.docs.erase ino }
  | .message _ sessionId _ (some (.ssh _)) _ _, record => { record with sshs := record.sshs.erase sessionId }
  | .message .., record => record

def NoAnswer : (cmd : Cmd) → cmd.Answer → Bool
  | .fetch (.health _) _, answered => !answered
  | _, _ => false

/-- The operation is one that changes the record of the workspace: a ping does if it comes to that, and a message
if what it is about is found to be lost. -/
def due (uuid : String) (op : Op) (seen : Exchange Cmd Cmd.Answer) : Bool :=
  match op with
  | .dir _ wsUuid _ _ | .doc _ wsUuid _ _ | .ssh _ _ wsUuid _ => wsUuid = uuid
  | .touch _ _ wsUuid _ => given wsUuid = some uuid
  | .ping _ _ bound _ _ => given bound = some uuid && seen.any fun x => x.1 = .getWorkspace uuid
  | .message _ _ wsUuid (some (.doc _)) _ _ | .message _ _ wsUuid (some (.ssh _)) _ _ =>
    wsUuid = uuid && seen.any fun x => NoAnswer x.1 x.2
  | .message .. => false

/-- The record is as if the operations that change it had been made in some order, one after the other. -/
def Serial (uuid : String) (w : World) (pool : State) : Prop :=
  ∃ order : List Op, order.Perm ((pool.tasks.filter fun task => due uuid task.op task.seen).map Task.op) ∧
    pool.shared.workspace uuid = (w.workspace uuid).map fun record => order.foldl (fun record op => effect op record) record

/-- No routine is under way. -/
def Completed (pool : State) : Prop := ∀ task ∈ pool.tasks, task.prog.head? = none

instance : DecidablePred Completed := fun pool => by
  unfold Completed
  infer_instance

/-! ### The record as a cell -/

def record (uuid : String) : Cell exec (Option CachedWorkspace) where
  view w := w.workspace uuid
  read
    | .getWorkspace wsUuid, answer => if wsUuid = uuid then some answer else none
    | _, _ => none
  write
    | .setWorkspace wsUuid workspace => if wsUuid = uuid then some (some workspace) else none
    | .delWorkspace wsUuid => if wsUuid = uuid then some none else none
    | _ => none
  view_of_read := by
    intro cmd w content h
    cases cmd with
    | getWorkspace wsUuid =>
      simp only [Option.ite_none_right_eq_some] at h
      obtain ⟨rfl, h⟩ := h
      exact Option.some.inj h
    | _ => cases h
  view_exec := by
    intro cmd w
    cases cmd with
    | setWorkspace | delWorkspace =>
      simp only [exec, Function.update_apply, eq_comm]
      split <;> rfl
    | acquire | release =>
      simp only [exec]
      split <;> rfl
    | _ => rfl

section

variable (uuid wsUuid : String)

@[simp] theorem read_get (cached : Option CachedWorkspace) :
    (record uuid).read
    (.getWorkspace wsUuid) cached = if wsUuid = uuid then some cached else none := rfl

@[simp] theorem write_get : (record uuid).write (.getWorkspace wsUuid) = none := rfl

@[simp] theorem write_set (workspace : CachedWorkspace) :
    (record uuid).write (.setWorkspace wsUuid workspace) = if wsUuid = uuid then some
    (some workspace) else none := rfl

@[simp] theorem write_setTimer (key : String) (value ttl : Nat) :
    (record uuid).write (.setTimer key value ttl) = none := rfl

@[simp] theorem write_fetch (request : Request) (ok : Bool) : (record uuid).write (.fetch request ok) = none := rfl

@[simp] theorem write_emit (message : Message) : (record uuid).write (.emit message) = none := rfl

end

section

variable {uuid wsUuid : String}

theorem updates_get {α : Type} {f : Option CachedWorkspace → Io α}
    (hown : wsUuid = uuid → ∀ cached, (record uuid).Owes (cached.map change) (f cached))
    (hother : wsUuid ≠ uuid → ∀ cached, (record uuid).Idle (f cached)) :
    (record uuid).Updates (Option.map change) (ask (.getWorkspace wsUuid) >>= f) := by
  by_cases hsame : wsUuid = uuid
  · exact Cell.Updates.fetch rfl fun cached => ⟨cached, if_pos hsame, hown hsame cached⟩
  · exact Cell.Idle.updates ⟨rfl, hother hsame⟩

theorem idle_set (hother : wsUuid ≠ uuid) (workspace : CachedWorkspace) :
    (record uuid).Idle (ask (.setWorkspace wsUuid workspace)) := .single (if_neg hother)

theorem owes_set (hown : wsUuid = uuid) (workspace : CachedWorkspace) :
    (record uuid).Owes (some workspace) (ask (.setWorkspace wsUuid workspace)) :=
  .inl ⟨if_pos hown, fun _ => trivial⟩

theorem updates_rewrite (p : CachedWorkspace → Io Unit) (hp : ∀ workspace, (record uuid).Idle (p workspace)) :
    (record uuid).Updates (Option.map change) (do
      let cached : Option CachedWorkspace ← ask (.getWorkspace wsUuid)
      match cached with
      | none => return ()
      | some workspace =>
        p workspace
        ask (.setWorkspace wsUuid (change workspace))) := by
  apply updates_get
  · intro hown cached
    cases cached with
    | none => trivial
    | some workspace => exact .bind_left (hp workspace) fun _ => owes_set hown _
  · intro hother cached
    cases cached with
    | none => trivial
    | some workspace => exact (hp workspace).bind fun _ => idle_set hother _

theorem updates_dir (path : String) (add : Bool) :
    (record uuid).Updates (Option.map (updated uid path add))
    (updateCache uid wsUuid path add) := by
  apply updates_rewrite fun workspace => unwatch wsUuid path workspace (updated uid path add workspace)
  intro workspace
  apply Only.ite
  · exact .single rfl
  · trivial

theorem updates_doc (instanceId : String) (ino : Nat) (add : Bool) :
    (record uuid).Updates (Option.map (SyncService.updated instanceId ino add))
      (SyncService.updateCache instanceId wsUuid ino add) :=
  updates_rewrite (fun _ => return ()) fun _ => trivial

theorem updates_ssh (instanceId sessionId : String) (add : Bool) :
    (record uuid).Updates (Option.map (SSHProxyService.updated instanceId sessionId add))
      (SSHProxyService.updateConnCache instanceId sessionId wsUuid add) :=
  updates_rewrite (fun _ => return ()) fun _ => trivial

theorem idle_setWorkspaceState (workspace : Option CachedWorkspace) (uid sessionId : String) {wsUuid : Option String}
    (hother : given wsUuid ≠ some uuid) (state : Liveness) :
    (record uuid).Idle (setWorkspaceState t workspace uid sessionId wsUuid state) := by
  unfold setWorkspaceState
  split
  · rename_i workspace wsUuid hgiven
    have hne : wsUuid ≠ uuid := by
      rintro rfl
      exact hother hgiven
    refine (idle_set hne _).bind fun _ => ?_
    cases state with
    | active => exact .single rfl
    | inactive => exact .single rfl
  · trivial

theorem owes_setWorkspaceState (workspace : Option CachedWorkspace) (uid sessionId : String) (wsUuid : Option String)
    (state : Liveness) : (record uuid).Owes (workspace.map ({ · with state := state }))
    (setWorkspaceState t workspace uid sessionId wsUuid state) := by
  by_cases hown : given wsUuid = some uuid
  · unfold setWorkspaceState
    rw [hown]
    cases workspace with
    | none => trivial
    | some workspace =>
      refine (owes_set rfl _).bind_right fun _ => ?_
      cases state with
      | active => exact .single rfl
      | inactive => exact .single rfl
  · exact (idle_setWorkspaceState t workspace uid sessionId hown state).owes

theorem given_ne_of_rendered {value : Option String} (h : rendered value ≠ uuid) : given value ≠ some uuid := by
  intro hgiven
  obtain ⟨rfl, -⟩ := Option.filter_eq_some_iff.mp hgiven
  exact h rfl

theorem updates_touch (uid sessionId : String) (wsUuid : Option String) (state : Liveness) :
    (record uuid).Updates (Option.map ({ · with state := state }))
    (touchWorkspace t uid sessionId wsUuid state) := by
  apply updates_get
  · intro _ cached
    exact owes_setWorkspaceState t cached uid sessionId wsUuid state
  · intro hother cached
    exact idle_setWorkspaceState t cached uid sessionId (given_ne_of_rendered hother) state

def OnMemberships : Cmd → Prop
  | .getMembership _ | .setMembership .. | .membershipCheck .. => True
  | _ => False

theorem onMemberships_checkMembership (wsUuid : String) (served : Bool) :
    (checkMembership uid wsUuid served).Only OnMemberships := by
  apply Only.perform_bind trivial
  intro cached
  split
  · trivial
  · apply Only.perform_bind trivial
    intro isMember
    apply Only.ite
    · trivial
    · exact .single trivial

theorem apart_of_onMemberships {cmd : Cmd} (h : OnMemberships cmd) : (record uuid).Apart cmd := by
  cases cmd with
  | getMembership | setMembership | membershipCheck => exact ⟨rfl, fun _ => rfl⟩
  | _ => exact h.elim

theorem apart_checkMembership (wsUuid : String) (served : Bool) :
    (checkMembership uid wsUuid served).Only (record uuid).Apart :=
  (onMemberships_checkMembership uid wsUuid served).mono fun _ => apart_of_onMemberships

theorem idle_checkMembership (wsUuid : String) (served : Bool) :
    (record uuid).Idle (checkMembership uid wsUuid served) :=
  (apart_checkMembership uid wsUuid served).mono fun _ h => h.1

theorem updates_ping (uid sessionId : String) (bound pinged : Option String) (served : Bool) :
    (record uuid).Updates (Option.map ({ · with state := .active }))
      (refreshWorkspace t uid sessionId bound pinged served) := by
  unfold refreshWorkspace
  split
  · trivial
  · rename_i wsUuid hgiven
    refine Cell.Updates.ite trivial (Cell.Updates.bind_left (apart_checkMembership uid wsUuid served) fun isMember => ?_)
    split
    · apply updates_get
      · intro _ cached
        exact (owes_setWorkspaceState t cached uid sessionId (some wsUuid) .active).bind_right fun _ => trivial
      · intro hother cached
        have hne : given (some wsUuid) ≠ some uuid := given_ne_of_rendered hother
        exact (idle_setWorkspaceState t cached uid sessionId hne .active).bind fun _ => trivial
    · trivial

theorem owes_handleLoss (workspace : CachedWorkspace) (uid sessionId : String) (sticky : Sticky)
    (served healthy : Bool) :
    (record uuid).Owes
    (some (effect (.message uid sessionId uuid (some sticky) served healthy) workspace))
      (handleLoss workspace sessionId uuid sticky) := by
  cases sticky with
  | doc | ssh => exact (owes_set rfl _).bind_right fun _ => .single rfl
  | run => exact .inr ⟨rfl, fun _ => trivial⟩

theorem idle_handleLoss (hother : wsUuid ≠ uuid) (workspace : CachedWorkspace) (sessionId : String) (sticky : Sticky) :
    (record uuid).Idle (handleLoss workspace sessionId wsUuid sticky) := by
  cases sticky with
  | doc | ssh => exact (idle_set hother _).bind fun _ => .single rfl
  | run => exact .single rfl

theorem updates_message (sessionId wsUuid : String) (sticky : Option Sticky) (served healthy : Bool) :
    (record uuid).Updates
    (Option.map (effect (.message uid sessionId wsUuid sticky served healthy)))
      (handleEnvMessage uid sessionId wsUuid sticky served healthy) := by
  apply updates_get
  · rintro rfl cached
    cases cached with
    | none => exact .inr ⟨rfl, fun _ => trivial⟩
    | some workspace =>
      refine .bind_left (idle_checkMembership uid wsUuid served) fun isMember => ?_
      split
      · cases sticky with
        | none => exact .inr ⟨rfl, fun _ => trivial⟩
        | some sticky =>
          refine .inr ⟨rfl, fun answered => Cell.Owes.ite ?_ ?_⟩
          · exact .inr ⟨rfl, fun _ => trivial⟩
          · exact owes_handleLoss workspace uid sessionId sticky served healthy
      · exact .inr ⟨rfl, fun _ => trivial⟩
      · trivial
  · intro hother cached
    cases cached with
    | none => exact .single rfl
    | some workspace =>
      refine (idle_checkMembership uid wsUuid served).bind fun isMember => ?_
      split
      · cases sticky with
        | none => exact .single rfl
        | some sticky =>
          refine ⟨rfl, fun answered => .ite ?_ ?_⟩
          · exact .single rfl
          · exact idle_handleLoss hother workspace sessionId sticky
      · exact .single rfl
      · trivial

theorem updates_program (op : Op) : (record uuid).Updates (Option.map (effect op)) (program t op) := by
  cases op with
  | dir uid wsUuid path add => exact updates_dir uid path add
  | doc instanceId wsUuid ino add => exact updates_doc instanceId ino add
  | ssh instanceId sessionId wsUuid add => exact updates_ssh instanceId sessionId add
  | touch uid sessionId wsUuid state => exact updates_touch t uid sessionId wsUuid state
  | ping uid sessionId bound pinged served =>
    exact (updates_ping t uid sessionId bound pinged served).bind_right fun _ => trivial
  | message uid sessionId wsUuid sticky served healthy => exact updates_message uid sessionId wsUuid sticky served healthy

end

section

variable {uuid : String}

abbrev Pays (uuid : String) (op : Op) (seen : Exchange Cmd Cmd.Answer) : Prop :=
  (record uuid).firstRead seen ≠ some none → (record uuid).stored seen = due uuid op seen

abbrev AboutMemberships (seen : Exchange Cmd Cmd.Answer) : Prop := ∀ x ∈ seen, OnMemberships x.1

variable {seen : Exchange Cmd Cmd.Answer}

theorem firstRead_append (h : AboutMemberships seen) (rest : Exchange Cmd Cmd.Answer) :
    (record uuid).firstRead (seen ++ rest) = (record uuid).firstRead rest := by
  have hnone : (record uuid).firstRead seen = none := by
    apply findSome?_eq_none_iff.mpr
    intro x hx
    exact (apart_of_onMemberships (h x hx)).2 x.2
  simp only [Cell.firstRead] at hnone ⊢
  rw [findSome?_append, hnone, Option.none_or]

theorem stored_append (h : AboutMemberships seen) (rest : Exchange Cmd Cmd.Answer) :
    (record uuid).stored (seen ++ rest) = (record uuid).stored rest := by
  have hnone : (record uuid).stored seen = false := by
    apply any_eq_false.mpr
    intro x hx
    simp [(apart_of_onMemberships (h x hx)).1]
  simp only [Cell.stored] at hnone ⊢
  rw [any_append, hnone, Bool.false_or]

theorem get_append (h : AboutMemberships seen) (rest : Exchange Cmd Cmd.Answer) :
    ((seen ++ rest).any fun x => x.1 = .getWorkspace uuid) = rest.any fun x => x.1 = .getWorkspace uuid := by
  have hnone : (seen.any fun x => x.1 = .getWorkspace uuid) = false := by
    apply any_eq_false.mpr
    intro x hx hget
    have hmembership := h x hx
    rw [of_decide_eq_true hget] at hmembership
    exact hmembership
  rw [any_append, hnone, Bool.false_or]

theorem noAnswer_of_onMemberships {cmd : Cmd} (h : OnMemberships cmd) (answer : cmd.Answer) :
    NoAnswer cmd answer = false := by
  cases cmd with
  | fetch request ok => exact h.elim
  | _ => rfl

theorem ends_unwatch (wsUuid path : String) (workspace after : CachedWorkspace) :
    (unwatch wsUuid path workspace after).Ends fun seen =>
      ∀ rest, (record uuid).stored (seen ++ rest) = (record uuid).stored rest := by
  unfold unwatch
  split
  · exact fun _ _ => rfl
  · exact fun _ => rfl

theorem pays_rewrite {op : Op} {wsUuid : String} (hdue : ∀ seen, due uuid op seen = decide (wsUuid = uuid))
    (p : CachedWorkspace → Io Unit) (hp : ∀ workspace, (p workspace).Ends fun seen =>
      ∀ rest, (record uuid).stored (seen ++ rest) = (record uuid).stored rest) :
    (do
      let cached : Option CachedWorkspace ← ask (.getWorkspace wsUuid)
      match cached with
      | none => return ()
      | some workspace =>
        p workspace
        ask (.setWorkspace wsUuid (change workspace)) : Io Unit).Ends (Pays uuid op) := by
  intro cached
  cases cached with
  | none =>
    intro hfound
    have hother : wsUuid ≠ uuid := by
      rintro rfl
      exact hfound (by simp)
    simp [hdue, hother]
  | some workspace =>
    refine (hp workspace).bind fun seen _ hseen _ _ => ?_
    by_cases hown : wsUuid = uuid <;> simp [hdue, hseen, hown]

theorem ends_setWorkspaceState (uuid : String) (t : Timeouts) (workspace : Option CachedWorkspace)
    (uid sessionId : String) (wsUuid : Option String) (state : Liveness) :
    (setWorkspaceState t workspace uid sessionId wsUuid state).Ends fun seen =>
      (record uuid).stored seen = (workspace.isSome && decide (given wsUuid = some uuid)) := by
  unfold setWorkspaceState
  cases workspace with
  | none => rfl
  | some workspace =>
    cases hgiven : given wsUuid with
    | none => rfl
    | some wsUuid =>
      intro _
      by_cases hown : wsUuid = uuid <;> cases state <;> intro _ <;> simp [Ends, hown]

theorem pays_touch (uid sessionId : String) (wsUuid : Option String) (state : Liveness) :
    (touchWorkspace t uid sessionId wsUuid state).Ends
    (Pays uuid (.touch uid sessionId wsUuid state)) := by
  intro cached
  refine (ends_setWorkspaceState uuid t cached uid sessionId wsUuid state).mono fun seen hseen hfound => ?_
  rw [Cell.stored_cons, write_get, Option.isSome_none, Bool.false_or, hseen]
  cases cached with
  | some workspace => rfl
  | none =>
    have hother : given wsUuid ≠ some uuid := by
      apply given_ne_of_rendered
      rintro rfl
      exact hfound (by simp)
    simp [due, hother]

theorem pays_ping (uid sessionId : String) (bound pinged : Option String) (served : Bool) :
    (refreshWorkspace t uid sessionId bound pinged served).Ends
    (Pays uuid (.ping uid sessionId bound pinged served)) := by
  unfold refreshWorkspace
  cases hgiven : given bound with
  | none =>
    intro _
    simp [due]
  | some wsUuid =>
    simp only
    split
    · intro _
      simp [due]
    refine (onMemberships_checkMembership uid wsUuid served).ends.bind fun checked isMember hchecked => ?_
    split
    · intro cached
      refine (ends_setWorkspaceState uuid t cached uid sessionId (some wsUuid) .active).bind fun seen _ hseen hfound => ?_
      rw [stored_append hchecked, due, hgiven, get_append hchecked]
      rw [firstRead_append hchecked] at hfound
      have hgiven' : given (some wsUuid) = some wsUuid := by
        rw [given, Option.filter_eq_some_iff]
        exact ⟨rfl, (Option.filter_eq_some_iff.mp hgiven).2⟩
      rw [hgiven'] at hseen
      by_cases hown : wsUuid = uuid
      · subst hown
        cases cached with
        | none => exact (hfound (by simp)).elim
        | some workspace => simp [hseen]
      · simp [hseen, hown]
    · intro _
      rw [stored_append hchecked, due, get_append hchecked]
      simp

theorem due_message {uid sessionId wsUuid : String} {sticky : Option Sticky} {served healthy : Bool}
    {cached : Option CachedWorkspace} {checked rest : Exchange Cmd Cmd.Answer}
    (hchecked : AboutMemberships checked) (hrest : ∀ x ∈ rest, NoAnswer x.1 x.2 = false) :
    due uuid (.message uid sessionId wsUuid sticky served healthy)
      (⟨.getWorkspace wsUuid, cached⟩ :: (checked ++ rest)) =
      false := by
  have hnone : ((⟨.getWorkspace wsUuid, cached⟩ :: (checked ++ rest) : Exchange Cmd Cmd.Answer).any
      fun x => NoAnswer x.1 x.2) = false := by
    rw [any_eq_false]
    intro x hx
    rw [Bool.not_eq_true]
    rcases mem_cons.mp hx with rfl | hx
    · rfl
    rcases mem_append.mp hx with hx | hx
    · exact noAnswer_of_onMemberships (hchecked x hx) x.2
    · exact hrest x hx
  unfold due
  split <;> simp_all

theorem pays_handleLoss (checked : Exchange Cmd Cmd.Answer) (hchecked : AboutMemberships checked)
    (workspace : CachedWorkspace) (uid sessionId wsUuid : String) (sticky : Sticky)
    (served healthy : Bool) (request : String) :
    (handleLoss workspace sessionId wsUuid sticky).Ends fun seen =>
      Pays uuid (.message uid sessionId wsUuid (some sticky) served healthy)
        (⟨.getWorkspace wsUuid, some workspace⟩ :: (checked ++ ⟨.fetch (.health request) healthy, false⟩ :: seen)) := by
  cases sticky with
  | doc | ssh =>
    intro _ _ _
    by_cases hown : wsUuid = uuid <;>
      simp [due, stored_append hchecked, hown, NoAnswer]
  | run =>
    intro _ _
    simp [due, stored_append hchecked]

theorem pays_message (sessionId wsUuid : String) (sticky : Option Sticky) (served healthy : Bool) :
    (handleEnvMessage uid sessionId wsUuid sticky served healthy).Ends
      (Pays uuid (.message uid sessionId wsUuid sticky served healthy)) := by
  intro cached
  cases cached with
  | none =>
    intro answer _
    have hdue : due uuid (.message uid sessionId wsUuid sticky served healthy)
        (⟨.getWorkspace wsUuid, none⟩ :: ([] ++ [⟨.emit (.socketError "NO_WORKSPACE"), answer⟩])) = false :=
      due_message (fun _ hx => nomatch hx) (by simp [NoAnswer])
    refine Eq.trans ?_ hdue.symm
    simp
  | some workspace =>
    refine (onMemberships_checkMembership uid wsUuid served).ends.bind fun checked isMember hchecked => ?_
    split
    · cases sticky with
      | none =>
        intro _ _
        simp [due, stored_append hchecked]
      | some sticky =>
        intro answered
        cases answered with
        | true =>
          intro _ _
          rw [due_message hchecked (by simp [NoAnswer])]
          simp [stored_append hchecked]
        | false => exact pays_handleLoss checked hchecked workspace uid sessionId wsUuid sticky served healthy _
    · intro _ _
      rw [due_message hchecked (by simp [NoAnswer])]
      simp [stored_append hchecked]
    · intro _
      rw [due_message hchecked (by simp), Cell.stored_cons, stored_append hchecked]
      rfl

theorem pays_program (op : Op) : (program t op).Ends (Pays uuid op) := by
  cases op with
  | dir uid wsUuid path add => exact pays_rewrite (fun _ => rfl) _ fun _ => ends_unwatch ..
  | doc | ssh => exact pays_rewrite (fun _ => rfl) (fun _ => return ()) fun _ _ => rfl
  | touch uid sessionId wsUuid state => exact pays_touch t uid sessionId wsUuid state
  | ping uid sessionId bound pinged served =>
    have hping : (refreshWorkspace t uid sessionId bound pinged served).Ends
        (Pays uuid (.ping uid sessionId bound pinged served)) := pays_ping t uid sessionId bound pinged served
    refine hping.bind fun seen _ hseen => ?_
    show Pays _ _ (seen ++ [])
    rw [append_nil]
    exact hseen
  | message uid sessionId wsUuid sticky served healthy => exact pays_message uid sessionId wsUuid sticky served healthy

end

section

variable {uuid : String} {t : Timeouts}

theorem view_change (w : World) (change : Change) : (record uuid).view (w.change change) = (record uuid).view w :=
  congrFun (World.change_workspace w change) uuid

theorem foldl_map (ops : List Op) (cached : Option CachedWorkspace) :
    ops.foldl (fun cached op => cached.map (effect op)) cached =
      cached.map fun record => ops.foldl (fun record op => effect op record) record := by
  induction ops generalizing cached with
  | nil => cases cached <;> rfl
  | cons op ops ih =>
    rw [foldl_cons, ih]
    cases cached <;> rfl

/-- The record is there, and every routine updates it. -/
structure Found (uuid : String) (pool : State) : Prop where
  updating : (record uuid).Updating (fun op => Option.map (effect op)) pool
  present : (record uuid).view pool.shared ≠ none
  reads : ∀ task ∈ pool.tasks, ∀ content ∈ (record uuid).firstRead task.seen, content ≠ none

theorem found_step {pool : State} (hpool : Found uuid pool) {label : Step} (hfresh : (record uuid).Fresh pool label) :
    Found uuid (step t pool label) where
  updating := Cell.updating_step (updates_program t) hpool.updating label
  present := by
    rw [step, Cell.view_step hpool.updating view_change hfresh]
    cases (record uuid).storing pool label with
    | none => exact hpool.present
    | some task =>
      intro hnone
      exact hpool.present (Option.map_eq_none_iff.mp hnone)
  reads := Cell.reads_step hpool.present hpool.reads label

theorem storers_of_completed {pool : State} (hpool : Found uuid pool)
    (hgenuine : Pool.Genuine (program t) pool) (hcompleted : Completed pool) :
    (record uuid).storers pool =
    (pool.tasks.filter fun task => due uuid task.op task.seen).map Task.op := by
  unfold Cell.storers
  congr 1
  apply filter_congr
  intro task htask
  obtain ⟨value, hvalue⟩ := eq_ret_of_head? (hcompleted task htask)
  have hresidue := hgenuine task htask
  rw [hvalue] at hresidue
  exact hresidue.ends (pays_program t task.op) fun hnone => hpool.reads task htask none hnone rfl

theorem genuine_run (w : World) (labels : List Step) : Pool.Genuine (program t) (run (step t) ⟨w, []⟩ labels) := by
  have hstep (pool : State) (label : Step) : Pool.Genuine (program t) pool → Pool.Genuine (program t) (step t pool label) :=
    fun hpool => Pool.genuine_step _ _ _ hpool label
  have hstart : Pool.Genuine (program t) (⟨w, []⟩ : State) := fun task htask => nomatch htask
  exact run_preserves hstep hstart labels

/-- Operations that are fresh whenever they write the record leave it as in a serial order. -/
theorem serial_of_fresh {w : World} {labels : List Step} (hfresh : Along (step t) (record uuid).Fresh ⟨w, []⟩ labels)
    (hcompleted : Completed (run (step t) ⟨w, []⟩ labels)) : Serial uuid w (run (step t) ⟨w, []⟩ labels) := by
  have hstart : (record uuid).Updating (fun op => Option.map (effect op)) (⟨w, []⟩ : State) :=
    fun task htask => nomatch htask
  have hview := Cell.view_run (updates_program t) view_change hstart hfresh
  rw [foldl_map] at hview
  by_cases hpresent : w.workspace uuid = none
  · refine ⟨_, Perm.refl _, ?_⟩
    rw [hpresent]
    exact hview.trans (by rw [show (record uuid).view w = none from hpresent]; rfl)
  · have hfound : Found uuid (run (step t) ⟨w, []⟩ labels) := by
      have hstep (pool : State) (label : Step) :
          Found uuid pool → (record uuid).Fresh pool label → Found uuid (step t pool label) :=
        fun hpool hfresh => found_step hpool hfresh
      exact run_invariant hstep ⟨hstart, hpresent, fun task htask => nomatch htask⟩ hfresh
    refine ⟨(record uuid).stores (program t) World.change ⟨w, []⟩ labels, ?_, hview⟩
    rw [← storers_of_completed hfound (genuine_run w labels) hcompleted]
    exact (Cell.perm_storers_run (updates_program t) hstart labels).symm

end

/-! ### Two overlaps -/

def quiet : World :=
  { World.empty with
    workspace := Function.update World.empty.workspace "w1" (some ⟨.active, "e1", .empty, .empty, .empty⟩) }

def inTurn : List Step :=
  [.spawn (.doc "e1" "w1" 7 true), .spawn (.doc "e2" "w1" 8 true), .spawn (.touch "alice" "s1" (some "w1") .inactive),
    .resume 1, .resume 1, .resume 0, .resume 0, .resume 2, .resume 2, .resume 2]

theorem serial_inTurn : Serial "w1" quiet (run (step .default) ⟨quiet, []⟩ inTurn) :=
  serial_of_fresh (by decide +kernel) (by decide +kernel)

/-- The second instance reads the record before the first one has written it. -/
def overlapping : List Step :=
  [.spawn (.doc "e1" "w1" 7 true), .spawn (.doc "e2" "w1" 8 true), .resume 0, .resume 1, .resume 0, .resume 1]

/-- The document of the first instance is no longer listed. -/
theorem lost_overlapping :
    Completed (run (step .default) ⟨quiet, []⟩ overlapping) ∧
      ¬Serial "w1" quiet (run (step .default) ⟨quiet, []⟩ overlapping) := by
  refine ⟨by decide +kernel, ?_⟩
  rintro ⟨order, horder, hrecord⟩
  have hboth : order.Perm [.doc "e1" "w1" 7 true, .doc "e2" "w1" 8 true] := horder
  obtain ⟨first, second, rfl⟩ := length_eq_two.mp hboth.length_eq
  have hfirst : first ∈ _ := hboth.subset mem_cons_self
  have hsecond : second ∈ _ := hboth.subset (mem_cons_of_mem _ mem_cons_self)
  simp only [mem_cons, not_mem_nil, or_false] at hfirst hsecond
  have hlost : (((run (step .default) ⟨quiet, []⟩ overlapping).shared.workspace "w1").bind (·.docs.get? 7)) = none := by
    decide +kernel
  rw [hrecord] at hlost
  rcases hfirst with rfl | rfl <;> rcases hsecond with rfl | rfl
  · exact absurd hboth (by decide +kernel)
  · exact absurd hlost (by decide +kernel)
  · exact absurd hlost (by decide +kernel)
  · exact absurd hboth (by decide +kernel)

end HideServer.Cache.Updates
