import HideServer.Manage.Roster

/-!
# What the operations do to the roster

An operation issues at most one transaction of its own kind, and everything around it only reads and
sends. So it leaves the roster as it was or does one of the things the roster knows.
-/

namespace HideServer.Manage

open Async Async.Prog Dict Db.Table List Roster Store

variable {id : Nat} {workspace : Workspace} {uid : String}

def Store.roster (s : Store) : Roster where
  uuid id := (s.workspaces.rows id).map (·.uuid)
  role id uid := s.memberships.get? (id, uid)

/-- Messages are sent. -/
def Store.tell (s : Store) (messages : List Message) : Store := { s with sent := s.sent ++ messages }

section

variable (s : Store)

@[simp] theorem tell_nil : s.tell [] = s := by
  simp [Store.tell]

@[simp] theorem tell_tell (messages messages' : List Message) :
    (s.tell messages).tell messages' = s.tell (messages ++ messages') := by
  simp [Store.tell]

@[simp] theorem roster_tell (messages : List Message) : (s.tell messages).roster = s.roster := rfl

@[simp] theorem exec_emit (message : Message) : exec (.emit message) s = ((), s.tell [message]) := rfl

theorem run_each_tell {ι : Type} {f : ι → Io Unit} {notices : ι → List Message}
    (hf : ∀ x s, run exec (f x) s = ((), s.tell (notices x))) (xs : List ι) :
    run exec (each xs f) s = ((), s.tell (xs.flatMap notices)) := by
  induction xs generalizing s with
  | nil => simp [each]
  | cons x xs ih => simp [each, hf, ih]

theorem run_emits {ι : Type} (xs : List ι) (f : ι → Message) :
    run exec (each xs fun x => ask (.emit (f x))) s = ((), s.tell (xs.map f)) := by
  rw [map_eq_flatMap]
  exact run_each_tell s (fun _ _ => rfl) xs

def modifiedNotices (sessions : Sessions) (uids : List String) (uuid : String) : List Message :=
  uids.flatMap fun uid => ((sessions uid).getD []).map fun session => .socketModified uid session.1 uuid

theorem run_notifyModified (sessions : Sessions) (uids : List String) (uuid : String) :
    run exec (notifyModified sessions uids uuid) s = ((), s.tell (modifiedNotices sessions uids uuid)) :=
  run_each_tell s (fun _ s => run_emits s _ _) uids

def clearingNotices (sessions : Sessions) (wsUuid uid : String) : List Message :=
  match ((sessions uid).getD []).find? fun session => session.2 = some wsUuid with
  | none => []
  | some (sessionId, _) => [.socketDisconnect uid sessionId, .unbind uid sessionId wsUuid]

theorem run_clearCacheOnDelete (sessions : Sessions) (members : List String) (wsUuid : String) :
    run exec (clearCacheOnDelete sessions members wsUuid) s =
      ((), s.tell (members.flatMap (clearingNotices sessions wsUuid) ++ [.dropWorkspaceCache wsUuid])) := by
  rw [clearCacheOnDelete, run_bind, @run_each_tell s _ _ (clearingNotices sessions wsUuid)]
  · simp
  · intro uid s
    unfold clearingNotices
    cases ((sessions uid).getD []).find? fun session => session.2 = some wsUuid <;> simp

variable (uid workspaceUUID : String) (invitees : List (String × String)) (choice : Nat)

theorem run_validateInvite_store : (run exec (validateInvite uid workspaceUUID choice) s).2 = s := by
  simp only [validateInvite, run_bind, run_perform, exec]
  split
  · rfl
  · simp only [run_bind, run_perform, exec]
    split <;> rfl

theorem run_inviteAllUsers :
    run exec (inviteAllUsers uid workspaceUUID invitees choice) s =
      ((run exec (validateInvite uid workspaceUUID choice) s).1,
        if (run exec (validateInvite uid workspaceUUID choice) s).1 = .ok () then
          s.tell (invitees.map fun invitee => .invite invitee.1 uid workspaceUUID invitee.2) else s) := by
  simp only [inviteAllUsers, run_bind, run_validateInvite_store]
  cases (run exec (validateInvite uid workspaceUUID choice) s).1 with
  | error err => simp
  | ok value =>
    have hsent : run exec (each invitees (sendInvite uid workspaceUUID)) s = _ :=
      run_emits s invitees fun invitee => .invite invitee.1 uid workspaceUUID invitee.2
    simp only [run_bind, hsent, if_true]
    rfl

theorem roster_inviteUser (invitee : String × String) :
    (run exec (inviteUser uid workspaceUUID invitee choice) s).2.roster = s.roster := by
  simp only [inviteUser, run_bind, run_validateInvite_store]
  cases (run exec (validateInvite uid workspaceUUID choice) s).1 <;> rfl

theorem roster_inviteAllUsers : (run exec (inviteAllUsers uid workspaceUUID invitees choice) s).2.roster = s.roster := by
  rw [run_inviteAllUsers]
  split_ifs <;> rfl

end

theorem sent_apply {s s' : Store} {write : Write} (h : write.apply s = some s') : s'.sent = s.sent := by
  cases write with
  | create =>
    simp only [Write.apply, Store.saveMembership, Option.ite_none_left_eq_some, Option.bind_eq_bind, Option.bind_eq_some_iff, Option.some.injEq] at h
    obtain ⟨-, row, -, -, rfl⟩ := h
    rfl
  | saveWorkspace =>
    simp only [Write.apply, Option.ite_none_left_eq_some, Option.bind_eq_bind, Option.bind_eq_some_iff, Option.pure_def, Option.some.injEq] at h
    obtain ⟨-, row, -, rfl⟩ := h
    rfl
  | saveMembership | deleteWorkspace =>
    simp only [Write.apply, Store.saveMembership, Option.ite_none_left_eq_some, Option.some.injEq] at h
    obtain ⟨-, rfl⟩ := h
    rfl
  | deleteMembership | deleteMembershipsOf | deleteMembershipsBy =>
    cases h
    rfl

theorem sent_transact {s s' : Store} {writes : List Write} (h : transact s writes = some s') : s'.sent = s.sent := by
  induction writes generalizing s with
  | nil =>
    cases h
    rfl
  | cons write writes ih =>
    obtain ⟨mid, hmid, hrest⟩ := Option.bind_eq_some_iff.mp h
    exact (ih hrest).trans (sent_apply hmid)

theorem sent_exec_transaction (writes : List Write) (commits : Bool) (s : Store) :
    (exec (.transaction writes commits) s).2.sent = s.sent := by
  simp only [exec]
  split
  · rename_i after htransact
    exact sent_transact htransact
  · rfl

section

variable {s after : Store}

@[simp] theorem exec_rollback (writes : List Write) : exec (.transaction writes false) s = (false, s) := by
  simp [exec]

theorem exec_commit {writes : List Write} (h : transact s writes = some after) :
    exec (.transaction writes true) s = (true, after) := by
  simp [exec, h]

theorem exec_violation {writes : List Write} (commits : Bool) (h : transact s writes = none) :
    exec (.transaction writes commits) s = (false, s) := by
  simp [exec, h]

theorem uuid_eq_none_iff : s.roster.uuid id = none ↔ s.workspaces.rows id = none := by
  simp [roster]

theorem inserted_some {row : Workspace} (h : workspace.inserted = some row) :
    ∃ image name, row = { workspace with image := image, name := name } := by
  simp only [Workspace.inserted, Option.bind_eq_bind] at h
  split_ifs at h
  obtain ⟨image, -, h⟩ := Option.bind_eq_some_iff.mp h
  obtain ⟨name, -, h⟩ := Option.bind_eq_some_iff.mp h
  exact ⟨image, name, (Option.some.inj h).symm⟩

theorem saved_some {old : Option Workspace} {row : Workspace} (h : workspace.saved old = some row) :
    ∃ name, row = { workspace with name := name } := by
  unfold Workspace.saved at h
  split_ifs at h
  · exact ⟨workspace.name, (Option.some.inj h).symm⟩
  · obtain ⟨name, -, rfl⟩ := Option.map_eq_some_iff.mp h
    exact ⟨name, rfl⟩

theorem transact_create {owner : String} (h : transact s [.create workspace owner] = some after) :
    after.roster = s.roster.found s.workspaces.next workspace.uuid owner ∧ owner ≠ "" ∧
      s.roster.uuid s.workspaces.next = none ∧ ∀ key, s.roster.uuid key ≠ some workspace.uuid := by
  have hfresh := s.workspaces.absent s.workspaces.next (Nat.le_refl _)
  simp only [transact, foldlM_cons, foldlM_nil, Write.apply, Option.bind_eq_bind] at h
  split_ifs at h with htaken
  · simp at h
  · rw [Bool.not_eq_true, others_eq_false] at htaken
    obtain ⟨_, hsaved, h⟩ := Option.bind_eq_some_iff.mp h
    obtain ⟨row, hrow, hsaved⟩ := Option.bind_eq_some_iff.mp hsaved
    obtain ⟨image, name, rfl⟩ := inserted_some hrow
    simp only [saveMembership] at hsaved
    split_ifs at hsaved with hnamed
    · simp only [Option.pure_def, Option.some.injEq] at hsaved h
      subst hsaved h
      refine ⟨?_, fun hempty => hnamed (.inl hempty), uuid_eq_none_iff.mpr hfresh, ?_⟩
      · ext1
        · funext key
          simp only [roster, found, rows_insert]
          split_ifs <;> rfl
        · simp [roster, found, get?_set]
      · intro key hkey
        obtain ⟨row, hrow, huuid⟩ := Option.map_eq_some_iff.mp hkey
        have heq := htaken key row hrow (by simp [huuid])
        rw [heq, hfresh] at hrow
        cases hrow

theorem transact_saveWorkspace (huuid : s.roster.uuid id = some workspace.uuid)
    (h : transact s [.saveWorkspace id workspace] = some after) : after.roster = s.roster := by
  simp only [transact, foldlM_cons, foldlM_nil, Write.apply, Option.bind_eq_bind] at h
  split_ifs at h
  · simp at h
  · obtain ⟨_, hsaved, h⟩ := Option.bind_eq_some_iff.mp h
    obtain ⟨row, hrow, hsaved⟩ := Option.bind_eq_some_iff.mp hsaved
    obtain ⟨name, rfl⟩ := saved_some hrow
    simp only [Option.pure_def, Option.some.injEq] at hsaved h
    subst hsaved h
    ext1
    · funext key
      simp only [roster, rows_save]
      split_ifs with hkey
      · rw [hkey]
        exact huuid.symm
      · rfl
    · rfl

theorem transact_saveWorkspace_own (hproper : s.roster.Proper) (huuid : s.roster.uuid id = some workspace.uuid)
    (hname : (s.workspaces.rows id).any (·.name = workspace.name)) :
    transact s [.saveWorkspace id workspace] = some { s with workspaces := s.workspaces.save id workspace } := by
  have hunique : s.workspaces.others id (fun row => row.uuid = workspace.uuid) = false := by
    rw [others_eq_false]
    intro key row hrow hsame
    refine hproper.distinct key id workspace.uuid ?_ huuid
    simpa [roster, hrow] using hsame
  simp [transact, Write.apply, hunique, Workspace.saved, hname]

theorem transact_saveMembership (hnamed : uid ≠ "") (hexists : s.roster.uuid id ≠ none) :
    ∃ after, transact s [.saveMembership id uid .member] = some after ∧ after.roster = s.roster.join id uid := by
  have hrow : s.workspaces.rows id ≠ none := fun hnone => hexists (uuid_eq_none_iff.mpr hnone)
  refine ⟨{ s with memberships := s.memberships.set (id, uid) .member }, ?_, ?_⟩
  · simp [transact, Write.apply, saveMembership, hnamed, hrow]
  · ext1
    · rfl
    · simp [roster, join, get?_set]

theorem transact_removals (s : Store) (id : Nat) (removed : List String) :
    ∃ after, transact s (removed.map (.deleteMembership id)) = some after ∧ after.roster.uuid = s.roster.uuid ∧
      ∀ key user, after.roster.role key user = if key = id ∧
        user ∈ removed then none else s.roster.role key user := by
  induction removed generalizing s with
  | nil => exact ⟨s, rfl, rfl, by simp⟩
  | cons uid removed ih =>
    obtain ⟨after, hafter, huuid, hrole⟩ := ih { s with memberships := s.memberships.erase (id, uid) }
    refine ⟨after, ?_, huuid, fun key user => ?_⟩
    · simpa [transact, Write.apply] using hafter
    · rw [hrole]
      by_cases hkey : key = id <;> by_cases huser : user = uid <;>
        simp [roster, get?_erase, hkey, huser]

theorem transact_depart (s : Store) (uid : String) :
    ∃ after, transact s [.deleteMembershipsBy uid] = some after ∧ after.roster = s.roster.depart uid := by
  refine ⟨_, rfl, ?_⟩
  ext1
  · rfl
  · funext key user
    simp only [roster, depart, get?_filter]
    cases s.memberships.get? (key, user) <;> by_cases huser : user = uid <;> simp [huser]

theorem transact_dissolve (hproper : s.roster.Proper) {uuid : String} (huuid : s.roster.uuid id = some uuid) :
    ∃ after, transact s [.deleteMembershipsOf id, .deleteWorkspace uuid] = some after ∧
      after.roster = s.roster.dissolve (· = id) := by
  have hmine : ∀ key row, s.workspaces.rows key = some row → row.uuid = uuid → key = id := by
    intro key row hrow heq
    apply hproper.distinct key id uuid _ huuid
    simp [roster, hrow, heq]
  have hfree : ¬((s.memberships.filter fun key _ => key.1 ≠ id).keys.any fun key =>
      (s.workspaces.rows key.1).any fun row => row.uuid = uuid) = true := by
    rw [any_eq_true]
    rintro ⟨key, hkey, hany⟩
    rw [Dict.mem_keys, get?_filter] at hkey
    simp only [Option.any_eq_true, decide_eq_true_eq] at hany
    obtain ⟨row, hrow, heq⟩ := hany
    simp [hmine key.1 row hrow heq] at hkey
  refine ⟨{ s with
    workspaces := s.workspaces.delete fun row => row.uuid = uuid
    memberships := s.memberships.filter fun key _ => key.1 ≠ id }, ?_, ?_⟩
  · simp only [transact, foldlM_cons, foldlM_nil, Write.apply, Option.bind_eq_bind, Option.bind_some,
      if_neg hfree, Option.pure_def]
  · ext1
    · funext key
      simp only [roster, dissolve, rows_delete]
      cases hrow : s.workspaces.rows key with
      | none => simp
      | some row =>
        by_cases hkey : key = id
        · have heq : row.uuid = uuid := by simpa [roster, ← hkey, hrow] using huuid
          simp [hkey, heq]
        · have hne : row.uuid ≠ uuid := fun heq => hkey (hmine key row hrow heq)
          simp [hkey, hne]
    · funext key user
      simp only [roster, dissolve, get?_filter]
      cases s.memberships.get? (key, user) <;> by_cases hkey : key = id <;> simp [hkey]

end

section

variable (s : Store)

theorem roster_create (uid : String) (data : CreateData) (uuid : String) (profile commits : Bool) :
    let after := perform s (.create uid data uuid profile commits)
    after.roster = s.roster ∨ after.roster = s.roster.found s.workspaces.next uuid uid ∧ uid ≠ "" ∧
      s.roster.uuid s.workspaces.next = none ∧ ∀ key, s.roster.uuid key ≠ some uuid := by
  simp only [perform, createWorkspace]
  split
  · exact .inl rfl
  · split_ifs
    · exact .inl rfl
    · simp only [run_bind, run_perform, pure_eq, run_ret, exec]
      split
      · rename_i htransact _
        exact .inr (transact_create htransact)
      · exact .inl rfl

theorem roster_exec_saveWorkspace {s : Store} (saves : Bool) (huuid : s.roster.uuid id = some workspace.uuid) :
    (exec (.transaction [.saveWorkspace id workspace] saves) s).2.roster = s.roster := by
  simp only [exec]
  split
  · exact transact_saveWorkspace huuid ‹_›
  · rfl

theorem mem_membershipsOf {s : Store} {role : Role} :
    (uid, role) ∈ s.membershipsOf id ↔ s.roster.role id uid = some role := by
  simp [membershipsOf, roster, mem_entries]

theorem mem_members {s : Store} : uid ∈ (s.membershipsOf id).map Prod.fst ↔ s.roster.role id uid ≠ none := by
  rw [Option.ne_none_iff_exists', mem_map]
  constructor
  · rintro ⟨⟨_, role⟩, hentry, rfl⟩
    exact ⟨role, mem_membershipsOf.mp hentry⟩
  · rintro ⟨role, hentry⟩
    exact ⟨(uid, role), mem_membershipsOf.mpr hentry, rfl⟩

theorem mem_missing {wanted actual : List String} : uid ∈ missing wanted actual ↔ uid ∈ wanted ∧ uid ∉ actual := by
  simp [missing]

theorem transact_keep (s : Store) (id : Nat) (wanted : List String) :
    ∃ after, transact s ((missing ((s.membershipsOf id).map Prod.fst) wanted).map (.deleteMembership id)) =
        some after ∧
      after.roster = s.roster.keep id wanted := by
  obtain ⟨after, hafter, huuid, hrole⟩ := transact_removals s id (missing ((s.membershipsOf id).map Prod.fst) wanted)
  refine ⟨after, hafter, ?_⟩
  ext1
  · exact huuid
  · funext key user
    rw [hrole]
    simp only [keep, mem_missing, mem_members]
    by_cases hkey : key = id
    · subst hkey
      by_cases hnone : s.roster.role key user = none <;> simp [hnone]
    · simp [hkey]

/-- Those who go are notified. -/
def removalNotices (uid : String) (workspace : Workspace) (removed : List String) : List Message :=
  removed.map fun removedUid => .membershipRemoved removedUid uid workspace.uuid workspace.name

def replacementNotices (uid : String) (workspace : Workspace) (added : List (String × String))
    (removed members : List String) (sessions : Sessions) : List Message :=
  removalNotices uid workspace removed ++ added.map (fun invitee => .invite invitee.1 uid workspace.uuid invitee.2) ++
    (if removed = [] then [] else modifiedNotices sessions (members.eraseDups.filter (· ∉ removed)) workspace.uuid) ++
    [.membersModified workspace.uuid (added.map Prod.fst) removed]

section

variable {s after : Store} {removed : List String} (uid : String) (workspace : Workspace)
  (added : List (String × String)) (sessions : Sessions) (choice : Nat)

theorem updateMembers_rolledBack :
    run exec (updateMembers uid id workspace added removed sessions choice false) s = (.error "rolled back", s) := by
  simp [updateMembers, exec]

theorem run_updateMembers (hafter : transact s (removed.map (.deleteMembership id)) = some after) :
    run exec (updateMembers uid id workspace added removed sessions choice true) s =
      ((run exec (validateInvite uid workspace.uuid choice) (after.tell (removalNotices uid workspace removed))).1,
        if (run exec (validateInvite uid workspace.uuid choice) (after.tell (removalNotices uid workspace removed))).1 =
            .ok () then
          after.tell (replacementNotices uid workspace added removed ((s.membershipsOf id).map Prod.fst) sessions)
        else after.tell (removalNotices uid workspace removed)) := by
  have hcommit : exec (.transaction (removed.map (.deleteMembership id)) true) s = (true, after) := exec_commit hafter
  have hmembers : exec (.members id) s = ((s.membershipsOf id).map Prod.fst, s) := rfl
  have hnotified : run exec (each removed fun removedUid =>
      ask (.emit (.membershipRemoved removedUid uid workspace.uuid workspace.name))) after =
        ((), after.tell (removalNotices uid workspace removed)) := run_emits ..
  unfold updateMembers
  simp only [run_bind, run_perform, hmembers, hcommit, Bool.not_true, Bool.false_eq_true, if_false, hnotified,
    run_inviteAllUsers]
  cases (run exec (validateInvite uid workspace.uuid choice) (after.tell (removalNotices uid workspace removed))).1 with
  | error err => simp
  | ok value =>
    by_cases hnone : removed = []
    · simp only [hnone, replacementNotices, ne_eq, not_true_eq_false, if_false, if_true, run_bind, run_perform,
        exec_emit, tell_tell, append_nil]
      rfl
    · simp only [hnone, replacementNotices, ne_eq, not_false_eq_true, if_false, if_true, run_bind, run_perform,
        run_notifyModified, exec_emit, tell_tell]
      rfl

end

theorem roster_updateMembers (uid : String) (id : Nat) (workspace : Workspace)
    (added : List (String × String)) (wanted : List String) (sessions : Sessions) (choice : Nat)
    (commits : Bool) :
    (run exec (updateMembers uid id workspace added (missing ((s.membershipsOf id).map Prod.fst) wanted) sessions
      choice commits) s).2.roster = if commits then s.roster.keep id wanted else s.roster := by
  cases commits with
  | false =>
    rw [updateMembers_rolledBack]
    rfl
  | true =>
    obtain ⟨after, hafter, hroster⟩ := transact_keep s id wanted
    rw [run_updateMembers uid workspace added sessions choice hafter]
    refine Eq.trans ?_ hroster
    split_ifs <;> rfl

/-- What an update does to the members. -/
def Roster.keepAny (r : Roster) (id : Nat) (members : Option (List String)) (commits : Bool) :
    Roster :=
  match members, commits with
  | some wanted, true => r.keep id wanted
  | _, _ => r

theorem Roster.uuid_keepAny (r : Roster) (id : Nat) (members : Option (List String)) (commits : Bool) :
    (r.keepAny id members commits).uuid = r.uuid := by
  unfold keepAny
  split <;> rfl

theorem roster_replaceMembers (uid : String) (id : Nat) (workspace : Workspace)
    (members : Option (List String)) (ntfnIds : String → String) (sessions : Sessions)
    (choice : Nat) (commits : Bool) :
    (run exec (replaceMembers uid id workspace members ntfnIds sessions choice commits) s).2.roster =
      s.roster.keepAny id members commits := by
  cases members with
  | none => rfl
  | some wanted =>
    refine (roster_updateMembers s uid id workspace _ wanted sessions choice commits).trans ?_
    cases commits <;> rfl

/-- The update goes as far as the members: the actor is an admin at least, and the name is valid. -/
def reachesMembers (s : Store) (uid : String) (id : Nat) (data : UpdateData) : Bool :=
  (s.memberships.get? (id, uid)).any (fun role => decide (Role.admin.level ≤ role.level)) &&
    (s.workspaces.rows id).any fun workspace => (renamed data workspace).isSome

/-- The end of `updateWorkspace`. -/
def finish (id : Nat) (workspace : Workspace) (saves : Bool) : Except String Unit → Io (Except String Unit)
  | .error err => return .error err
  | .ok () => do
    let saved : Bool ← ask (.transaction [.saveWorkspace id workspace] saves)
    return if saved then .ok () else .error "save failed"

section

variable {s : Store} {uid : String} {data : UpdateData} (ntfnIds : String → String) (sessions : Sessions) (choice : Nat)
  (commits saves : Bool)

theorem updateWorkspace_of_not_reaches (hid : data.id = some id) (h : ¬reachesMembers s uid id data = true) :
    ∃ err, err ≠ "save failed" ∧
      run exec (updateWorkspace uid data ntfnIds sessions choice commits saves) s = (.error err, s) := by
  simp only [updateWorkspace, hid, run_bind, run_perform, exec]
  cases hrole : s.memberships.get? (id, uid) with
  | none => exact ⟨_, by decide, rfl⟩
  | some role =>
    by_cases hlevel : role.level < Role.admin.level
    · simp only [hlevel, if_true]
      exact ⟨_, by decide, rfl⟩
    · simp only [hlevel, if_false, run_bind, run_perform, exec]
      cases hrow : s.workspaces.rows id with
      | none => exact ⟨_, by decide, rfl⟩
      | some workspace =>
        cases hname : renamed data workspace with
        | none =>
          simp only [hname]
          exact ⟨_, by decide, rfl⟩
        | some name => simp [reachesMembers, hrole, hrow, hname, Nat.le_of_not_lt hlevel] at h

theorem updateWorkspace_of_reaches (hid : data.id = some id) (h : reachesMembers s uid id data = true) :
    ∃ updated role, s.roster.uuid id = some updated.uuid ∧ s.roster.role id uid = some role ∧
      Role.admin.level ≤ role.level ∧
      run exec (updateWorkspace uid data ntfnIds sessions choice commits saves) s = run exec
          (replaceMembers uid id updated data.members ntfnIds sessions choice commits >>= finish id updated saves) s := by
  simp only [reachesMembers, Bool.and_eq_true, Option.any_eq_true, decide_eq_true_eq] at h
  obtain ⟨⟨role, hrole, hlevel⟩, workspace, hrow, hname⟩ := h
  obtain ⟨name, hname⟩ := Option.isSome_iff_exists.mp hname
  refine ⟨{ workspace with name := name, description := data.description.getD workspace.description }, role,
    by simp [Store.roster, hrow], hrole, hlevel, ?_⟩
  simp only [updateWorkspace, hid, run_bind, run_perform, exec, hrole, Nat.not_lt.mpr hlevel, if_false, hrow, hname]
  split
  · rename_i hreplaced
    rw [hreplaced]
    rfl
  · rename_i hreplaced
    rw [hreplaced]
    rfl

end

theorem roster_finish (saves : Bool) {s : Store} (huuid : s.roster.uuid id = some workspace.uuid)
    (result : Except String Unit) : (run exec (finish id workspace saves result) s).2.roster = s.roster := by
  cases result with
  | error err => rfl
  | ok value => exact roster_exec_saveWorkspace saves huuid

theorem roster_update (uid : String) (data : UpdateData) (ntfnIds : String → String) (sessions : Sessions)
    (choice : Nat) (commits saves : Bool) (hid : data.id = some id) :
    (perform s (.update uid data ntfnIds sessions choice commits saves)).roster =
      if reachesMembers s uid id data then s.roster.keepAny id data.members commits
      else s.roster := by
  rw [perform]
  split_ifs with hreaches
  · obtain ⟨updated, role, huuid, -, -, hrun⟩ :=
      updateWorkspace_of_reaches ntfnIds sessions choice commits saves hid hreaches
    have hkept := roster_replaceMembers s uid id updated data.members ntfnIds sessions choice commits
    rw [hrun, run_bind, roster_finish saves, hkept]
    rw [hkept, uuid_keepAny, huuid]
  · obtain ⟨err, -, hrun⟩ := updateWorkspace_of_not_reaches ntfnIds sessions choice commits saves hid hreaches
    rw [hrun]

/-- The workspace that an accepted invitation is for, if the invitation is the user's own. -/
def joining (s : Store) (inviteeId : String) (token : Option InvitationToken) (choice' : Nat) : Option Nat :=
  token.bind fun token =>
    if token.inviteeId = some inviteeId then
      (s.workspaces.find? (fun row => token.workspaceUUID.all (· = row.uuid)) choice').map Prod.fst
    else none

theorem uuid_of_joining {s : Store} {inviteeId : String} {token : Option InvitationToken} {choice' : Nat}
    (hjoining : joining s inviteeId token choice' = some id) :
    s.roster.uuid id ≠ none := by
  obtain ⟨token, rfl, hfind⟩ := Option.bind_eq_some_iff.mp hjoining
  split_ifs at hfind
  obtain ⟨⟨key, row⟩, hfound, rfl⟩ := Option.map_eq_some_iff.mp hfind
  simp [roster, (find?_some hfound).1]

theorem roster_exec_join {s : Store} (uid : String) (commits : Bool) (hexists : s.roster.uuid id ≠ none) :
    (exec (.transaction [.saveMembership id uid .member] commits) s).2.roster =
      if commits ∧ uid ≠ "" then s.roster.join id uid else s.roster := by
  by_cases hnamed : uid = ""
  · rw [exec_violation commits (by simp [transact, Write.apply, saveMembership, hnamed])]
    simp [hnamed]
  · obtain ⟨after, hafter, hroster⟩ := transact_saveMembership hnamed hexists
    cases commits with
    | false => simp
    | true => simp [exec_commit hafter, hroster, hnamed]

theorem roster_accept (inviteeId : String) (token : Option InvitationToken) (sessions : Sessions)
    (choice choice' : Nat) (commits : Bool) :
    (perform s (.accept inviteeId token sessions choice choice' commits)).roster =
      match joining s inviteeId token choice' with
      | some id => if commits ∧ inviteeId ≠ "" then s.roster.join id inviteeId else s.roster
      | none => s.roster := by
  cases token with
  | none => rfl
  | some token =>
    simp only [perform, acceptInvitation]
    by_cases hinvitee : token.inviteeId = some inviteeId
    · let named : Workspace → Bool := fun row => token.workspaceUUID.all (· = row.uuid)
      have hjoining : joining s inviteeId (some token) choice' = (s.workspaces.find? named choice').map Prod.fst := by
        simp [joining, hinvitee, named]
      rw [hjoining]
      simp only [ne_eq, hinvitee, not_true, if_false, run_bind, run_perform]
      -- the workspace is looked up twice, and found the second time only if it was the first time
      split
      · rename_i hfirst
        cases hsecond : s.workspaces.find? named choice' with
        | none => rfl
        | some row =>
          have hfound := find?_some hsecond
          exact absurd ((find?_none hfirst hfound.1).symm.trans hfound.2) Bool.false_ne_true
      · simp only [run_bind, run_perform, exec]
        cases hsecond : s.workspaces.find? named choice' with
        | none => rfl
        | some row =>
          rw [hsecond] at hjoining
          refine Eq.trans ?_ (roster_exec_join inviteeId commits (uuid_of_joining hjoining))
          by_cases hsaved : (exec (.transaction [.saveMembership row.1 inviteeId .member] commits) s).1 = true
          · simp [hsaved, run_notifyModified]
          · simp [hsaved]
    · simp [joining, hinvitee, Ne.symm hinvitee]

/-- The user may delete this workspace. -/
def Roster.Deletable (r : Roster) (uid uuid : String) (id : Nat) : Prop :=
  r.uuid id = some uuid ∧ (r.role id uid).any (fun role => decide (Role.admin.level ≤ role.level)) = true

instance (r : Roster) (uid uuid : String) : DecidablePred (r.Deletable uid uuid) :=
  fun _ => inferInstanceAs (Decidable (_ ∧ _))

theorem Roster.deletable_dissolve {r : Roster} {p : Nat → Prop} [DecidablePred p] {uuid : String} :
    (r.dissolve p).Deletable uid uuid id ↔ ¬p id ∧ r.Deletable uid uuid id := by
  by_cases hp : p id <;> simp [Deletable, dissolve, hp]

theorem Roster.deletable_iff {r : Roster} (hproper : r.Proper) {uuid : String} {key : Nat}
    (huuid : r.uuid id = some uuid) :
    r.Deletable uid uuid key ↔ key = id ∧
        (r.role id uid).any (fun role => decide (Role.admin.level ≤ role.level)) = true := by
  constructor
  · rintro ⟨hkey, hallowed⟩
    obtain rfl := hproper.distinct key id uuid hkey huuid
    exact ⟨rfl, hallowed⟩
  · rintro ⟨rfl, hallowed⟩
    exact ⟨huuid, hallowed⟩

def deletionNotices (sessions : Sessions) (members : List String) (uuid : String) : List Message :=
  members.flatMap (clearingNotices sessions uuid) ++
    [.dropWorkspaceCache uuid, .deprovision uuid, .workspaceDeleted uuid members]

/-- A deletion does nothing, or all of it. -/
theorem run_deleteWorkspace (uid uuid : String) (sessions : Sessions) (choice : Nat) (commits : Bool) :
    (∃ err, run exec (deleteWorkspace uid (some uuid) sessions choice commits) s = (.error err, s) ∧
      (s.roster.Proper → ∀ id, s.roster.Deletable uid uuid id → commits = false)) ∨
    ∃ id after, s.roster.Deletable uid uuid id ∧ commits = true ∧
      transact s [.deleteMembershipsOf id, .deleteWorkspace uuid] = some after ∧
      run exec (deleteWorkspace uid (some uuid) sessions choice commits) s =
        (.ok (), after.tell (deletionNotices sessions ((s.membershipsOf id).map Prod.fst) uuid)) := by
  simp only [deleteWorkspace, run_bind, run_perform, exec, Option.all_some]
  cases hrow : s.workspaces.find? (fun row => decide (uuid = row.uuid)) choice with
  | none =>
    refine .inl ⟨_, rfl, fun _ id hdeletable => ?_⟩
    obtain ⟨row, hfound, rfl⟩ := Option.map_eq_some_iff.mp hdeletable.1
    exact absurd (find?_none hrow hfound) (by simp)
  | some found =>
    obtain ⟨id, row⟩ := found
    have hfound := find?_some hrow
    have huuid : s.roster.uuid id = some uuid := by simpa [roster, hfound.1, eq_comm] using hfound.2
    have hallowed (hproper : s.roster.Proper) {key : Nat} (hkey : s.roster.Deletable uid uuid key) :=
      ((deletable_iff hproper huuid).mp hkey).2
    simp only [run_bind, run_perform, exec]
    cases hrole : s.memberships.get? (id, uid) with
    | none => exact .inl ⟨_, rfl, fun hproper _ hkey => absurd (hallowed hproper hkey) (by simp [roster, hrole])⟩
    | some role =>
      by_cases hlevel : role.level < Role.admin.level
      · simp only [hlevel, if_true]
        exact .inl ⟨_, rfl, fun hproper _ hkey => absurd (hallowed hproper hkey) (by simp [roster, hrole, hlevel])⟩
      · have hmembers : exec (.members id) s = ((s.membershipsOf id).map Prod.fst, s) := rfl
        simp only [hlevel, if_false, run_bind, run_perform, hmembers]
        cases htransact : transact s [.deleteMembershipsOf id, .deleteWorkspace uuid] with
        | none =>
          simp only [exec_violation commits htransact]
          refine .inl ⟨_, rfl, fun hproper _ _ => ?_⟩
          obtain ⟨after, hafter, -⟩ := transact_dissolve hproper huuid
          cases htransact.symm.trans hafter
        | some after =>
          cases commits with
          | false =>
            simp only [exec_rollback]
            exact .inl ⟨_, rfl, fun _ _ _ => trivial⟩
          | true =>
            simp only [exec_commit htransact]
            refine .inr ⟨id, after, ⟨huuid, ?_⟩, trivial, htransact, ?_⟩
            · simp [roster, hrole, Nat.le_of_not_lt hlevel]
            · simp [run_clearCacheOnDelete, deletionNotices]
              rfl

theorem roster_deleteWorkspace (hproper : s.roster.Proper) (uid uuid : String) (sessions : Sessions)
    (choice : Nat) (commits : Bool) :
    (run exec (deleteWorkspace uid (some uuid) sessions choice commits) s).2.roster =
      s.roster.dissolve fun id => commits = true ∧ s.roster.Deletable uid uuid id := by
  rcases run_deleteWorkspace s uid uuid sessions choice commits with
    ⟨err, hrun, hnone⟩ | ⟨id, after, hdeletable, rfl, htransact, hrun⟩
  · rw [hrun, dissolve_of_none]
    rintro id ⟨hcommits, hdeletable⟩
    rw [hnone hproper id hdeletable] at hcommits
    cases hcommits
  · obtain ⟨after', hafter, hroster⟩ := transact_dissolve hproper hdeletable.1
    cases htransact.symm.trans hafter
    rw [hrun]
    refine hroster.trans (dissolve_eq fun key => ?_)
    simp [deletable_iff hproper hdeletable.1, hdeletable.2]

theorem roster_deleteOwned (uid : String) (sessions : Sessions) (commits : String → Bool)
    (uuids : List String) {s : Store} (hproper : s.roster.Proper) :
    (run exec (deleteOwned uid sessions commits uuids) s).2.roster =
      s.roster.dissolve fun id => ∃ uuid ∈ uuids, commits uuid = true ∧ s.roster.Deletable uid uuid id := by
  induction uuids generalizing s with
  | nil => exact (dissolve_of_none (by simp)).symm
  | cons uuid uuids ih =>
    have hfirst := roster_deleteWorkspace s hproper uid uuid sessions 0 (commits uuid)
    have hproper' : (run exec (deleteWorkspace uid (some uuid) sessions 0 (commits uuid)) s).2.roster.Proper := by
      rw [hfirst]
      exact proper_dissolve hproper
    have hrest := ih hproper'
    simp only [deleteOwned, each, run_bind] at hrest ⊢
    refine hrest.trans ?_
    simp only [hfirst, dissolve_dissolve, deletable_dissolve]
    apply dissolve_eq
    intro id
    by_cases hgone : commits uuid = true ∧ s.roster.Deletable uid uuid id <;> simp [hgone]

theorem mem_withRole {s : Store} {uuid : String} {role : Role} :
    uuid ∈ (withRole uid role (exec (.workspacesOf uid) s).1).map (fun entry => entry.1.uuid) ↔
      ∃ id, s.roster.uuid id = some uuid ∧ s.roster.role id uid = some role := by
  simp only [withRole, mem_map, mem_filter, any_eq_true, decide_eq_true_eq]
  simp only [exec, mem_filterMap]
  constructor
  · rintro ⟨entry, ⟨⟨id, -, hentry⟩, membership, hmember, rfl⟩, rfl⟩
    obtain ⟨-, -, hmap⟩ := Option.bind_eq_some_iff.mp hentry
    obtain ⟨row, hrow, rfl⟩ := Option.map_eq_some_iff.mp hmap
    exact ⟨id, by simp [roster, hrow], mem_membershipsOf.mp hmember⟩
  · rintro ⟨id, huuid, hrole⟩
    obtain ⟨row, hrow, rfl⟩ := Option.map_eq_some_iff.mp huuid
    refine ⟨(row, s.membershipsOf id), ⟨⟨id, mem_range.mpr (s.workspaces.lt_next hrow), ?_⟩, ?_⟩, rfl⟩
    · rw [show s.memberships.get? (id, uid) = some role from hrole, hrow]
      rfl
    · exact ⟨(uid, role), mem_membershipsOf.mpr hrole, rfl⟩

def leavingNotices (uid : String) (sessions : Sessions) (entry : Workspace × List (String × Role)) : List Message :=
  modifiedNotices sessions ((entry.2.map Prod.fst).eraseDups.filter (· ≠ uid)) entry.1.uuid ++
    [.membersModified entry.1.uuid [] [uid]]

theorem run_leaving (uid : String) (sessions : Sessions) (entry : Workspace × List (String × Role)) (s : Store) :
    run exec (do
      notifyModified sessions ((entry.2.map Prod.fst).eraseDups.filter (· ≠ uid)) entry.1.uuid
      ask (.emit (.membersModified entry.1.uuid [] [uid]))) s = ((), s.tell (leavingNotices uid sessions entry)) := by
  simp [run_notifyModified, leavingNotices]

theorem roster_deleteOwnedWorkspaces (hproper : s.roster.Proper) (uid : String)
    (sessions : Sessions) (commits : String → Bool) (leaves : Bool) :
    let remaining := s.roster.dissolve fun id =>
      s.roster.role id uid = some .owner ∧ (s.roster.uuid id).any commits = true
    (perform s (.deleteOwned uid sessions commits leaves)).roster =
      if leaves then remaining.depart uid else remaining := by
  intro remaining
  have hdeleted : (run exec (deleteOwned uid sessions commits
      ((withRole uid .owner (exec (.workspacesOf uid) s).1).map fun entry => entry.1.uuid)) s).2.roster = remaining := by
    rw [roster_deleteOwned uid sessions commits _ hproper]
    apply dissolve_eq
    intro id
    simp only [mem_withRole]
    constructor
    · rintro ⟨uuid, ⟨owned, howned, hrole⟩, hcommits, huuid, -⟩
      obtain rfl := hproper.distinct owned id uuid howned huuid
      exact ⟨hrole, by simp [huuid, hcommits]⟩
    · rintro ⟨hrole, hcommits⟩
      obtain ⟨uuid, huuid, hcommits⟩ := (Option.any_eq_true ..).mp hcommits
      exact ⟨uuid, ⟨id, huuid, hrole⟩, hcommits, huuid, by simp [hrole, Role.level]⟩
  simp only [perform, deleteOwnedWorkspaces, run_bind, run_perform]
  rw [← hdeleted]
  cases leaves with
  | false => rfl
  | true =>
    obtain ⟨after, hafter, hroster⟩ := transact_depart (run exec (deleteOwned uid sessions commits
      ((withRole uid .owner (exec (.workspacesOf uid) s).1).map fun entry => entry.1.uuid)) s).2 uid
    have hread : (exec (.workspacesOf uid) s).2 = s := rfl
    simp only [hread, exec_commit hafter, Bool.not_true, Bool.false_eq_true, if_false, run_bind,
      run_each_tell _ (run_leaving uid sessions)]
    exact hroster

/-- What a call can make of the roster. -/
inductive Becomes : Op → Roster → Prop
  | same {op : Op} : Becomes op s.roster
  | found {uid data uuid profile commits} (hnamed : uid ≠ "") (hfresh : s.roster.uuid s.workspaces.next = none)
      (hunique : ∀ key, s.roster.uuid key ≠ some uuid) :
      Becomes (.create uid data uuid profile commits) (s.roster.found s.workspaces.next uuid uid)
  | kept {uid data ntfnIds sessions choice commits saves id} (members : List String)
      (hreaches : reachesMembers s uid id data = true) :
      Becomes (.update uid data ntfnIds sessions choice commits saves) (s.roster.keep id members)
  | joined {inviteeId token sessions choice choice' commits id} (hnamed : inviteeId ≠ "")
      (hjoining : joining s inviteeId token choice' = some id) :
      Becomes (.accept inviteeId token sessions choice choice' commits) (s.roster.join id inviteeId)
  | dissolved {uid workspaceUUID sessions choice commits p} [DecidablePred p] (hallowed : ∀ id, p id →
        (s.roster.role id uid).any (fun role => decide (Role.admin.level ≤ role.level)) = true) :
      Becomes (.delete uid workspaceUUID sessions choice commits) (s.roster.dissolve p)
  | stayed {uid sessions commits leaves p} [DecidablePred p] (howned : ∀ id, p id → s.roster.role id uid = some .owner) :
      Becomes (.deleteOwned uid sessions commits leaves) (s.roster.dissolve p)
  | left {uid sessions commits leaves p} [DecidablePred p] (howned : ∀ id, p id → s.roster.role id uid = some .owner) :
      Becomes (.deleteOwned uid sessions commits leaves) ((s.roster.dissolve p).depart uid)

variable {s}

/-- What each call makes of the roster. -/
theorem becomes_perform (hproper : s.roster.Proper) (op : Op) : Becomes s op (perform s op).roster := by
  cases op with
  | create uid data uuid profile commits =>
    obtain hsame | ⟨hfound, hnamed, hfresh, hunique⟩ := roster_create s uid data uuid profile commits
    · rw [hsame]
      exact .same
    · rw [hfound]
      exact .found hnamed hfresh hunique
  | update uid data ntfnIds sessions choice commits saves =>
    cases hid : data.id with
    | none =>
      have hsame : perform s (.update uid data ntfnIds sessions choice commits saves) = s := by
        simp [perform, updateWorkspace, hid]
      rw [hsame]
      exact .same
    | some id =>
      rw [roster_update s uid data ntfnIds sessions choice commits saves hid]
      split_ifs with hreaches
      · unfold keepAny
        split
        · exact .kept _ hreaches
        · exact .same
      · exact .same
  | invite inviterId workspaceUUID invitee choice =>
    rw [perform, roster_inviteUser]
    exact .same
  | inviteAll inviterId workspaceUUID invitees choice =>
    rw [perform, roster_inviteAllUsers]
    exact .same
  | accept inviteeId token sessions choice choice' commits =>
    rw [roster_accept]
    cases hjoining : joining s inviteeId token choice' with
    | none => exact .same
    | some id =>
      split_ifs with hcommits
      · exact .joined hcommits.2 hjoining
      · exact .same
  | delete uid workspaceUUID sessions choice commits =>
    cases workspaceUUID with
    | none => exact .same
    | some uuid =>
      rw [perform, roster_deleteWorkspace s hproper]
      exact .dissolved fun _ h => h.2.2
  | deleteOwned uid sessions commits leaves =>
    rw [roster_deleteOwnedWorkspaces s hproper]
    split_ifs
    · exact .left fun _ h => h.1
    · exact .stayed fun _ h => h.1

theorem Becomes.proper {op : Op} {after : Roster} (h : Becomes s op after) (hproper : s.roster.Proper) :
    after.Proper := by
  cases h with
  | same => exact hproper
  | found hnamed _ hunique => exact proper_found hproper hnamed hunique
  | kept members => exact proper_keep hproper members
  | joined hnamed hjoining => exact proper_join hproper hnamed (uuid_of_joining hjoining)
  | dissolved | stayed => exact proper_dissolve hproper
  | left => exact proper_depart (proper_dissolve hproper)

theorem proper_perform (hproper : s.roster.Proper) (op : Op) : (perform s op).roster.Proper :=
  (becomes_perform hproper op).proper hproper

end

end HideServer.Manage
