import HideServer.Manage.Owners

/-!
# Announcing who is no longer a member

An update announces whom it let go after the invitations, which are refused to an actor who is no
member any more. Of a user who leaves, the workspaces are told in which they were a plain member, and
those whose deletion succeeds.
-/

namespace HideServer.Manage

open Async Trace Db.Table Option Prog Roster

/-- The call says that the user is no member any more. -/
def Call.Announces (uuid uid : String) : Call → Prop
  | .emit (.membersModified uuid' _ removed) => uuid' = uuid ∧ uid ∈ removed
  | .emit (.workspaceDeleted uuid' uids) => uuid' = uuid ∧ uid ∈ uids
  | _ => False

/-- Somebody is told so in the course of the program. -/
def Tells {α : Type} (p : Io α) (s : Store) (uuid uid : String) : Prop :=
  ∃ call ∈ calls exec p s, call.2.Announces uuid uid

def Op.Tells (s : Store) (uuid uid : String) : Op → Prop
  | .create user data uuid' profile commits => Manage.Tells (createWorkspace user data uuid' profile commits) s uuid uid
  | .update user data ntfnIds sessions choice commits saves =>
    Manage.Tells (updateWorkspace user data ntfnIds sessions choice commits saves) s uuid uid
  | .invite inviterId workspaceUUID invitee choice => Manage.Tells (inviteUser inviterId workspaceUUID invitee choice) s uuid uid
  | .inviteAll inviterId workspaceUUID invitees choice =>
    Manage.Tells (inviteAllUsers inviterId workspaceUUID invitees choice) s uuid uid
  | .accept inviteeId token sessions choice choice' commits =>
    Manage.Tells (acceptInvitation inviteeId token sessions choice choice' commits) s uuid uid
  | .delete user workspaceUUID sessions choice commits =>
    Manage.Tells (deleteWorkspace user workspaceUUID sessions choice commits) s uuid uid
  | .deleteOwned user sessions commits leaves => Manage.Tells (deleteOwnedWorkspaces user sessions commits leaves) s uuid uid

/-- Every membership that the operation takes away is announced. -/
def AnnouncesRemovals (s : Store) (op : Op) : Prop :=
  ∀ id uuid uid, s.roster.uuid id = some uuid → s.roster.role id uid ≠ none → (perform s op).roster.role id uid = none →
    op.Tells s uuid uid

/-- An update that replaces the members keeps the actor, and who leaves is a plain member, or an owner whose
workspaces can be deleted. -/
def StaysOrIsPlain (s : Store) : Op → Prop
  | .update uid data _ _ _ commits _ =>
    ∀ id wanted, data.id = some id → data.members = some wanted → reachesMembers s uid id data = true → commits = true →
      uid ∈ wanted
  | .deleteOwned uid _ commits leaves =>
    leaves = true → ∀ id uuid role, s.roster.uuid id = some uuid → s.roster.role id uid = some role →
      role = .member ∨ role = .owner ∧ commits uuid = true
  | _ => True

section

variable {α β : Type} {s : Store} {uuid uid : String}

theorem tells_bind {p : Io α} {f : α → Io β} :
    Tells (p >>= f) s uuid uid ↔ Tells p s uuid uid ∨ Tells (f (run exec p s).1) (run exec p s).2 uuid uid := by
  simp only [Tells, calls_bind, List.mem_append, or_and_right, exists_or]

@[simp] theorem tells_ret (value : α) : ¬Tells (.ret value) s uuid uid := by
  simp [Tells]

@[simp] theorem tells_await (call : Call) (next : call.Answer → Io α) :
    Tells (.await call next) s uuid uid ↔ call.Announces uuid uid ∨ Tells (next (exec call s).1) (exec call s).2 uuid uid := by
  simp [Tells]

/-- Some message says so. -/
def Announced (uuid uid : String) (messages : List Message) : Prop :=
  ∃ message ∈ messages, (Call.emit message).Announces uuid uid

theorem announced_append (messages messages' : List Message) :
    Announced uuid uid (messages ++ messages') ↔ Announced uuid uid messages ∨ Announced uuid uid messages' := by
  simp only [Announced, List.mem_append, or_and_right, exists_or]

theorem sent_exec (call : Call) (s : Store) : ∃ messages, (exec call s).2.sent = s.sent ++ messages ∧
    (call.Announces uuid uid ↔ Announced uuid uid messages) := by
  cases call with
  | emit message => exact ⟨[message], rfl, by simp [Announced]⟩
  | transaction writes commits => exact ⟨[], by simp [sent_exec_transaction], by simp [Announced, Call.Announces]⟩
  | _ => exact ⟨[], (List.append_nil _).symm, by simp [Announced, Call.Announces]⟩

theorem sent_run (p : Io α) (s : Store) : ∃ messages, (run exec p s).2.sent = s.sent ++ messages ∧
    (Tells p s uuid uid ↔ Announced uuid uid messages) := by
  induction p generalizing s with
  | ret value => exact ⟨[], (List.append_nil _).symm, by simp [Announced]⟩
  | await call next ih =>
    obtain ⟨first, hfirst, htold⟩ := sent_exec call s
    obtain ⟨rest, hrest, htells⟩ := ih (exec call s).1 (exec call s).2
    refine ⟨first ++ rest, ?_, ?_⟩
    · rw [run_await, hrest, hfirst, List.append_assoc]
    · rw [tells_await, announced_append, htold, htells]

/-- Whom a program tells can be read off the messages that it adds. -/
theorem tells_iff {p : Io α} {messages : List Message} (h : (run exec p s).2.sent = s.sent ++ messages) :
    Tells p s uuid uid ↔ Announced uuid uid messages := by
  obtain ⟨added, hadded, htells⟩ := sent_run p s
  rw [htells, List.append_cancel_left (h.symm.trans hadded)]

theorem not_announced_modifiedNotices (sessions : Sessions) (uids : List String) (wsUuid : String) :
    ¬Announced uuid uid (modifiedNotices sessions uids wsUuid) := by
  simp [Announced, modifiedNotices, Call.Announces]

theorem announced_deletionNotices (sessions : Sessions) (members : List String) (wsUuid : String) :
    Announced uuid uid (deletionNotices sessions members wsUuid) ↔ wsUuid = uuid ∧ uid ∈ members := by
  have hclearing : ¬Announced uuid uid (members.flatMap (clearingNotices sessions wsUuid)) := by
    rintro ⟨message, hmessage, htells⟩
    obtain ⟨user, -, hmessage⟩ := List.mem_flatMap.mp hmessage
    unfold clearingNotices at hmessage
    split at hmessage
    · cases hmessage
    · simp only [List.mem_cons, List.not_mem_nil, or_false] at hmessage
      rcases hmessage with rfl | rfl <;> exact htells
  rw [deletionNotices, announced_append, or_iff_right hclearing]
  simp [Announced, Call.Announces]

theorem not_announced_removalNotices (user : String) (workspace : Workspace) (removed : List String) :
    ¬Announced uuid uid (removalNotices user workspace removed) := by
  simp [Announced, removalNotices, Call.Announces]

theorem announced_replacementNotices (user : String) (workspace : Workspace) (added : List (String × String))
    (removed members : List String) (sessions : Sessions) :
    Announced uuid uid (replacementNotices user workspace added removed members sessions) ↔
      workspace.uuid = uuid ∧ uid ∈ removed := by
  have hmodified : ¬Announced uuid uid (if removed = [] then [] else
      modifiedNotices sessions (members.eraseDups.filter (· ∉ removed)) workspace.uuid) := by
    split_ifs
    · simp [Announced]
    · exact not_announced_modifiedNotices sessions _ _
  simp only [replacementNotices, announced_append, not_announced_removalNotices, hmodified, false_or, or_false]
  simp [Announced, Call.Announces]

/-! ### Deleting -/

theorem tells_deleteWorkspace_iff (hproper : s.roster.Proper) (user uuid' : String)
    (sessions : Sessions) (choice : Nat) (commits : Bool) :
    Tells (deleteWorkspace user (some uuid') sessions choice commits) s uuid uid ↔
      uuid' = uuid ∧ commits = true ∧ ∃ id, s.roster.Deletable user uuid' id ∧ s.roster.role id uid ≠ none := by
  rcases run_deleteWorkspace s user uuid' sessions choice commits with
    ⟨err, hrun, hnone⟩ | ⟨id, after, hdeletable, rfl, htransact, hrun⟩
  · rw [tells_iff (by rw [hrun, List.append_nil])]
    refine iff_of_false (by simp [Announced]) ?_
    rintro ⟨-, rfl, id, hdeletable, -⟩
    cases hnone hproper id hdeletable
  · rw [tells_iff (by rw [hrun, ← sent_transact htransact]; rfl), announced_deletionNotices, mem_members]
    constructor
    · rintro ⟨rfl, hrole⟩
      exact ⟨rfl, rfl, id, hdeletable, hrole⟩
    · rintro ⟨rfl, -, key, hkey, hrole⟩
      obtain ⟨rfl, -⟩ := (deletable_iff hproper hdeletable.1).mp hkey
      exact ⟨rfl, hrole⟩

theorem tells_deleteOwned_iff (user : String) (sessions : Sessions) (commits : String → Bool)
    (uuids : List String) {s : Store} (hproper : s.roster.Proper) :
    Tells (deleteOwned user sessions commits uuids) s uuid uid ↔
      uuid ∈ uuids ∧ commits uuid = true ∧ ∃ id, s.roster.Deletable user uuid id ∧ s.roster.role id uid ≠ none := by
  induction uuids generalizing s with
  | nil => simp [deleteOwned, each]
  | cons first uuids ih =>
    have hroster := roster_deleteWorkspace s hproper user first sessions 0 (commits first)
    have hproper' : (run exec (deleteWorkspace user (some first) sessions 0 (commits first)) s).2.roster.Proper := by
      rw [hroster]
      exact proper_dissolve hproper
    have hrest := ih hproper'
    simp only [hroster, deletable_dissolve] at hrest
    simp only [deleteOwned, each, tells_bind, run_bind, tells_deleteWorkspace_iff hproper, pure_eq, tells_ret,
      or_false, run_ret] at hrest ⊢
    rw [hrest, List.mem_cons]
    by_cases hsame : first = uuid
    · subst hsame
      simp only [true_and, true_or, or_iff_left_iff_imp]
      rintro ⟨-, hcommits, id, ⟨hnot, hdeletable⟩, -⟩
      exact absurd ⟨hcommits, hdeletable⟩ hnot
    · -- a workspace that goes by the one uuid is not the one that goes by the other
      have hother : ∀ id, s.roster.Deletable user uuid id → ¬(commits first = true ∧ s.roster.Deletable user first id) := by
        rintro id ⟨huuid, -⟩ ⟨-, hfirst, -⟩
        exact hsame (some.inj (hfirst.symm.trans huuid))
      simp only [hsame, Ne.symm hsame, false_and, false_or]
      refine and_congr_right fun _ => and_congr_right fun _ => exists_congr fun id => ?_
      constructor
      · rintro ⟨⟨hnot, hdeletable⟩, hrole⟩
        simp only [dissolve, if_neg hnot] at hrole
        exact ⟨hdeletable, hrole⟩
      · rintro ⟨hdeletable, hrole⟩
        refine ⟨⟨hother id hdeletable, hdeletable⟩, ?_⟩
        simp only [dissolve, if_neg (hother id hdeletable)]
        exact hrole

theorem announced_leavingNotices (user : String) (sessions : Sessions) (workspaces : List (Workspace × List (String × Role))) :
    Announced uuid uid (workspaces.flatMap (leavingNotices user sessions)) ↔
      uuid ∈ workspaces.map (fun entry => entry.1.uuid) ∧ uid = user := by
  have hentry (entry : Workspace × List (String × Role)) : Announced uuid uid (leavingNotices user sessions entry) ↔
      entry.1.uuid = uuid ∧ uid = user := by
    rw [leavingNotices, announced_append, or_iff_right (not_announced_modifiedNotices sessions _ _)]
    simp [Announced, Call.Announces]
  simp only [Announced, List.mem_flatMap, List.mem_map] at hentry ⊢
  constructor
  · rintro ⟨message, ⟨entry, hmem, hmessage⟩, htells⟩
    obtain ⟨huuid, huser⟩ := (hentry entry).mp ⟨message, hmessage, htells⟩
    exact ⟨⟨entry, hmem, huuid⟩, huser⟩
  · rintro ⟨⟨entry, hmem, huuid⟩, huser⟩
    obtain ⟨message, hmessage, htells⟩ := (hentry entry).mpr ⟨huuid, huser⟩
    exact ⟨message, ⟨entry, hmem, hmessage⟩, htells⟩

theorem tells_leaving (user : String) (sessions : Sessions)
    (workspaces : List (Workspace × List (String × Role))) (s : Store) :
    Tells (each workspaces fun entry => do
        notifyModified sessions ((entry.2.map Prod.fst).eraseDups.filter (· ≠ user)) entry.1.uuid
        ask (.emit (.membersModified entry.1.uuid [] [user]))) s uuid uid ↔
      uuid ∈ workspaces.map (fun entry => entry.1.uuid) ∧ uid = user := by
  rw [← announced_leavingNotices user sessions]
  refine tells_iff ?_
  rw [run_each_tell s (run_leaving user sessions)]
  rfl

theorem tells_deleteOwnedWorkspaces_iff (hproper : s.roster.Proper) (user : String)
    (sessions : Sessions) (commits : String → Bool) (leaves : Bool) :
    Tells (deleteOwnedWorkspaces user sessions commits leaves) s uuid uid ↔
      (∃ id, s.roster.uuid id = some uuid ∧ s.roster.role id user = some .owner ∧ commits uuid = true ∧
        s.roster.role id uid ≠ none) ∨
      leaves = true ∧ uid = user ∧ ∃ id, s.roster.uuid id = some uuid ∧ s.roster.role id user = some .member := by
  have hread : (exec (.workspacesOf user) s).2 = s := rfl
  simp only [deleteOwnedWorkspaces, perform_bind, tells_await, Call.Announces, false_or, tells_bind, hread]
  refine or_congr ?_ ?_
  · rw [tells_deleteOwned_iff user sessions commits _ hproper, mem_withRole]
    constructor
    · rintro ⟨⟨owned, howned, howner⟩, hcommits, id, ⟨huuid, -⟩, hrole⟩
      obtain rfl := hproper.distinct owned id uuid howned huuid
      exact ⟨owned, huuid, howner, hcommits, hrole⟩
    · rintro ⟨id, huuid, howner, hcommits, hrole⟩
      exact ⟨⟨id, huuid, howner⟩, hcommits, id, ⟨huuid, by simp [howner, Role.level]⟩, hrole⟩
  · cases leaves with
    | false => simp [exec_rollback]
    | true =>
      obtain ⟨after, hafter, -⟩ := transact_depart (run exec (deleteOwned user sessions commits
        ((withRole user .owner (exec (.workspacesOf user) s).1).map fun entry => entry.1.uuid)) s).2 user
      simp only [exec_commit hafter, Bool.not_true, Bool.false_eq_true, if_false, tells_bind, tells_leaving,
        mem_withRole, pure_eq, tells_ret, or_false, true_and]
      exact and_comm

/-! ### Updating -/

variable {id : Nat}

theorem validateInvite_ok_iff (hproper : s.roster.Proper) {workspaceUUID : String}
    (huuid : s.roster.uuid id = some workspaceUUID) (inviterId : String) (choice : Nat) :
    (run exec (validateInvite inviterId workspaceUUID choice) s).1 = .ok () ↔
      ∃ role, s.roster.role id inviterId = some role ∧ Role.admin.level ≤ role.level := by
  obtain ⟨row, hrow, rfl⟩ := map_eq_some_iff.mp huuid
  simp only [validateInvite, perform_bind, run_await, exec, all_some]
  cases hfind : s.workspaces.find? (fun other => decide (row.uuid = other.uuid)) choice with
  | none => exact absurd (find?_none hfind hrow) (by simp)
  | some found =>
    obtain ⟨id', row'⟩ := found
    obtain ⟨hrow', hsame⟩ := find?_some hfind
    obtain rfl : id' = id := by
      refine hproper.distinct id' id row.uuid ?_ huuid
      simpa [Store.roster, hrow', eq_comm] using hsame
    simp only [run_await, exec]
    rw [show s.memberships.get? (id', inviterId) = s.roster.role id' inviterId from rfl]
    cases s.roster.role id' inviterId with
    | none => simp
    | some role => cases role <;> simp [Role.level]

theorem validateInvite_keep_iff (hproper : s.roster.Proper) {workspaceUUID user : String} {role : Role}
    (huuid : s.roster.uuid id = some workspaceUUID) (hrole : s.roster.role id user = some role)
    (hlevel : Role.admin.level ≤ role.level) {now : Store} {wanted : List String}
    (hnow : now.roster = s.roster.keep id wanted) (choice : Nat) :
    (run exec (validateInvite user workspaceUUID choice) now).1 = .ok () ↔ user ∈ wanted := by
  rw [validateInvite_ok_iff (hnow ▸ proper_keep hproper wanted) (by rw [hnow]; exact huuid), hnow]
  by_cases huser : user ∈ wanted <;> simp [keep, huser, hrole, hlevel]

theorem inviteAllUsers_ok_iff (inviterId workspaceUUID : String) (invitees : List (String × String)) (choice : Nat) :
    (run exec (inviteAllUsers inviterId workspaceUUID invitees choice) s).1 = .ok () ↔
      (run exec (validateInvite inviterId workspaceUUID choice) s).1 = .ok () := by
  simp only [inviteAllUsers, run_bind]
  cases (run exec (validateInvite inviterId workspaceUUID choice) s).1 with
  | error err => simp
  | ok value => simp

theorem tells_updateMembers_iff (hproper : s.roster.Proper) (workspace : Workspace)
    {user : String} {role : Role} (huuid : s.roster.uuid id = some workspace.uuid)
    (hrole : s.roster.role id user = some role) (hlevel : Role.admin.level ≤ role.level)
    (added : List (String × String)) (wanted : List String) (sessions : Sessions) (choice : Nat) (commits : Bool) :
    Tells (updateMembers user id workspace added (missing ((s.membershipsOf id).map Prod.fst) wanted) sessions choice commits) s
        uuid uid ↔
      commits = true ∧ workspace.uuid = uuid ∧ user ∈ wanted ∧ s.roster.role id uid ≠ none ∧ uid ∉ wanted := by
  obtain ⟨after, hafter, hroster⟩ := transact_keep s id wanted
  have hremoved : ∀ other, other ∈ missing ((s.membershipsOf id).map Prod.fst) wanted ↔
      s.roster.role id other ≠ none ∧ other ∉ wanted := by
    simp only [mem_missing, mem_members, implies_true]
  generalize missing ((s.membershipsOf id).map Prod.fst) wanted = removed at hafter hremoved ⊢
  cases commits with
  | false =>
    rw [tells_iff (by rw [updateMembers_rolledBack, List.append_nil])]
    simp [Announced]
  | true =>
    -- the invitations are checked against the members that are left
    have hnow : (after.tell (removalNotices user workspace removed)).roster = s.roster.keep id wanted := hroster
    have hrun := run_updateMembers user workspace added sessions choice hafter
    simp only [validateInvite_keep_iff hproper huuid hrole hlevel hnow] at hrun
    rw [← hremoved]
    by_cases hstays : user ∈ wanted
    · rw [if_pos hstays] at hrun
      rw [tells_iff (by rw [hrun, ← sent_transact hafter]; rfl), announced_replacementNotices]
      simp [hstays]
    · rw [if_neg hstays] at hrun
      rw [tells_iff (by rw [hrun, ← sent_transact hafter]; rfl)]
      simp [hstays, not_announced_removalNotices]

theorem tells_updateWorkspace_iff (hproper : s.roster.Proper) (user : String) {data : UpdateData}
    (ntfnIds : String → String) (sessions : Sessions) (choice : Nat) (commits saves : Bool) (hid : data.id = some id) :
    Tells (updateWorkspace user data ntfnIds sessions choice commits saves) s uuid uid ↔
      reachesMembers s user id data = true ∧ commits = true ∧ s.roster.uuid id = some uuid ∧
        ∃ wanted, data.members = some wanted ∧ user ∈ wanted ∧ s.roster.role id uid ≠ none ∧ uid ∉ wanted := by
  by_cases hreaches : reachesMembers s user id data = true
  · obtain ⟨updated, role, huuid, hrole, hlevel, hrun⟩ :=
      updateWorkspace_of_reaches ntfnIds sessions choice commits saves hid hreaches
    obtain ⟨messages, hsent, htells⟩ :=
      sent_run (replaceMembers user id updated data.members ntfnIds sessions choice commits) s
    have hfinish : (run exec (updateWorkspace user data ntfnIds sessions choice commits saves) s).2.sent = s.sent ++ messages := by
      rw [hrun, run_bind, ← hsent]
      cases (run exec (replaceMembers user id updated data.members ntfnIds sessions choice commits) s).1 with
      | error err => rfl
      | ok value => exact sent_exec_transaction ..
    rw [tells_iff hfinish, ← htells]
    cases hmembers : data.members with
    | none => simp [replaceMembers]
    | some wanted =>
      simp only [replaceMembers, perform_bind, tells_await, Call.Announces, false_or]
      refine (tells_updateMembers_iff hproper updated huuid hrole hlevel _ wanted sessions choice commits).trans ?_
      simp [hreaches, huuid]
  · obtain ⟨err, -, hrun⟩ := updateWorkspace_of_not_reaches ntfnIds sessions choice commits saves hid hreaches
    rw [tells_iff (by rw [hrun, List.append_nil])]
    simp [Announced, hreaches]

end

section

variable {s : Store}

theorem announcesRemovals_of_kept {op : Op}
    (hkept : ∀ id uid, s.roster.role id uid ≠ none → (perform s op).roster.role id uid ≠ none) : AnnouncesRemovals s op :=
  fun id _ uid _ hrole hgone => absurd hgone (hkept id uid hrole)

theorem member_of_reachesMembers {user : String} {id : Nat} {data : UpdateData}
    (h : reachesMembers s user id data = true) :
    s.roster.role id user ≠ none ∧ ∃ uuid, s.roster.uuid id = some uuid := by
  simp only [reachesMembers, Bool.and_eq_true, any_eq_true] at h
  obtain ⟨⟨role, hrole, -⟩, row, hrow, -⟩ := h
  refine ⟨?_, row.uuid, by simp [Store.roster, hrow]⟩
  rw [show s.roster.role id user = some role from hrole]
  simp

variable (hproper : s.roster.Proper)
include hproper

theorem announcesRemovals_update_iff (user : String) (data : UpdateData) (ntfnIds : String → String)
    (sessions : Sessions) (choice : Nat) (commits saves : Bool) :
    AnnouncesRemovals s (.update user data ntfnIds sessions choice commits saves) ↔
      StaysOrIsPlain s (.update user data ntfnIds sessions choice commits saves) := by
  cases hid : data.id with
  | none =>
    have hsame : perform s (.update user data ntfnIds sessions choice commits saves) = s := by
      simp [perform, updateWorkspace, hid]
    refine iff_of_true (announcesRemovals_of_kept fun id uid hrole => by rwa [hsame]) fun id _ hsome => ?_
    rw [hid] at hsome
    cases hsome
  | some id =>
    have hroster := roster_update s user data ntfnIds sessions choice commits saves hid
    constructor
    · intro hannounces key wanted hkey hmembers hreaches hcommits
      obtain rfl : id = key := some.inj (hid.symm.trans hkey)
      by_contra hgone
      obtain ⟨hrole, uuid, huuid⟩ := member_of_reachesMembers hreaches
      have hremoved : (perform s (.update user data ntfnIds sessions choice commits saves)).roster.role id user = none := by
        rw [hroster, if_pos hreaches, hmembers, hcommits]
        exact if_pos ⟨rfl, hgone⟩
      have htold := hannounces id uuid user huuid hrole hremoved
      obtain ⟨-, -, -, wanted', hwanted, huser, -⟩ :=
        (tells_updateWorkspace_iff hproper user ntfnIds sessions choice commits saves hid).mp htold
      rw [hmembers] at hwanted
      cases hwanted
      exact hgone huser
    · intro hstays key uuid uid huuid hrole hgone
      refine (tells_updateWorkspace_iff hproper user ntfnIds sessions choice commits saves hid).mpr ?_
      rw [hroster] at hgone
      split_ifs at hgone with hreaches
      · unfold keepAny at hgone
        split at hgone
        · rename_i wanted hmembers
          simp only [keep] at hgone
          split_ifs at hgone with hlet
          · obtain ⟨rfl, hunwanted⟩ := hlet
            exact ⟨hreaches, rfl, huuid, wanted, hmembers, hstays key wanted hid hmembers hreaches rfl, hrole, hunwanted⟩
          · exact absurd hgone hrole
        · exact absurd hgone hrole
      · exact absurd hgone hrole

theorem announcesRemovals_deleteOwned_iff (user : String) (sessions : Sessions)
    (commits : String → Bool) (leaves : Bool) :
    AnnouncesRemovals s (.deleteOwned user sessions commits leaves) ↔ StaysOrIsPlain s (.deleteOwned user sessions commits leaves) := by
  have hroster := roster_deleteOwnedWorkspaces s hproper user sessions commits leaves
  constructor
  · intro hannounces hleaves id uuid role huuid hrole
    have hremoved : (perform s (.deleteOwned user sessions commits leaves)).roster.role id user = none := by
      rw [hroster, if_pos hleaves]
      exact if_pos rfl
    have htold := hannounces id uuid user huuid (by simp [hrole]) hremoved
    rcases (tells_deleteOwnedWorkspaces_iff hproper user sessions commits leaves).mp htold with
      ⟨id', huuid', howner, hcommits, -⟩ | ⟨-, -, id', huuid', hmember⟩
    · obtain rfl := hproper.distinct id' id uuid huuid' huuid
      exact .inr ⟨some.inj (hrole.symm.trans howner), hcommits⟩
    · obtain rfl := hproper.distinct id' id uuid huuid' huuid
      exact .inl (some.inj (hrole.symm.trans hmember))
  · intro hplain id uuid uid huuid hrole hgone
    refine (tells_deleteOwnedWorkspaces_iff hproper user sessions commits leaves).mpr ?_
    by_cases hdeleted : s.roster.role id user = some .owner ∧ (s.roster.uuid id).any commits = true
    · exact .inl ⟨id, huuid, hdeleted.1, by simpa [huuid] using hdeleted.2, hrole⟩
    · rw [hroster] at hgone
      cases leaves with
      | false => exact absurd hgone (by simpa [dissolve, hdeleted] using hrole)
      | true =>
        obtain rfl : uid = user := by
          by_contra hother
          exact absurd hgone (by simpa [depart, dissolve, hdeleted, hother] using hrole)
        obtain ⟨role, hsome⟩ := ne_none_iff_exists'.mp hrole
        rcases hplain rfl id uuid role huuid hsome with rfl | ⟨rfl, hcommits⟩
        · exact .inr ⟨rfl, rfl, id, huuid, hsome⟩
        · exact absurd ⟨hsome, by simpa [huuid] using hcommits⟩ hdeleted

end

/-- What an operation takes away is announced, except by an actor who takes leave with an update and by a user who
leaves as an admin or as an owner whose workspace stays. -/
theorem announcesRemovals_iff (s : Store) (hproper : s.roster.Proper) (op : Op) :
    AnnouncesRemovals s op ↔ StaysOrIsPlain s op := by
  have hbecomes := becomes_perform hproper op
  cases op with
  | create | invite | inviteAll | accept =>
    -- nobody loses a role by these
    refine iff_of_true (announcesRemovals_of_kept fun id uid hrole => ?_) trivial
    generalize (perform s _).roster = after at hbecomes ⊢
    cases hbecomes
    case same => exact hrole
    all_goals
      simp only [found, Roster.join]
      split_ifs
      · simp
      · exact hrole
  | update user data ntfnIds sessions choice commits saves =>
    exact announcesRemovals_update_iff hproper user data ntfnIds sessions choice commits saves
  | delete user workspaceUUID sessions choice commits =>
    refine iff_of_true ?_ trivial
    cases workspaceUUID with
    | none => exact announcesRemovals_of_kept fun id uid hrole => hrole
    | some uuid =>
      intro id uuid' uid huuid hrole hgone
      rw [perform, roster_deleteWorkspace s hproper] at hgone
      simp only [dissolve] at hgone
      split_ifs at hgone with hdeleted
      · refine (tells_deleteWorkspace_iff hproper user uuid sessions choice commits).mpr ⟨?_, hdeleted.1, id, hdeleted.2, hrole⟩
        exact some.inj (hdeleted.2.1.symm.trans huuid)
      · exact absurd hgone hrole
  | deleteOwned user sessions commits leaves => exact announcesRemovals_deleteOwned_iff hproper user sessions commits leaves

theorem proper_run (ops : List Op) : (run perform .empty ops).roster.Proper := by
  have hstep : ∀ s op, s.roster.Proper → (perform s op).roster.Proper := fun _ op hproper => proper_perform hproper op
  exact run_preserves hstep proper_empty ops

def joined : List Op := founded ++ [.accept "bob" (some ⟨some "bob", some demoUuid, some "n1"⟩) noSessions 0 0 true]

theorem announcesRemovals_owner_stays :
    AnnouncesRemovals (run perform .empty joined)
      (.update "alice" ⟨some 1, none, none, some ["alice"]⟩ id noSessions 0 true true) := by
  refine (announcesRemovals_iff _ (proper_run joined) _).mpr ?_
  intro id wanted _ hmembers _ _
  cases hmembers
  simp

/-- The owner is let go by the owner's own update, or leaves while the deletion of the workspace fails. -/
theorem removals_not_announced :
    ¬AnnouncesRemovals (run perform .empty founded) (.update "alice" ⟨some 1, none, none, some []⟩ id noSessions 0 true true) ∧
      ¬AnnouncesRemovals (run perform .empty founded) (.deleteOwned "alice" noSessions (fun _ => false) true) := by
  constructor
  · intro hannounces
    have htold := hannounces 1 demoUuid "alice" (by decide) (by decide) (by decide)
    obtain ⟨-, -, -, wanted, hwanted, halice, -⟩ :=
      (tells_updateWorkspace_iff (proper_run founded) "alice" id noSessions 0 true true rfl).mp htold
    cases hwanted
    cases halice
  · intro hannounces
    have htold := hannounces 1 demoUuid "alice" (by decide) (by decide) (by decide)
    rcases (tells_deleteOwnedWorkspaces_iff (proper_run founded) "alice" noSessions (fun _ => false) true).mp htold with
      ⟨id, -, -, hcommits, -⟩ | ⟨-, -, id, huuid, hmember⟩
    · cases hcommits
    · obtain rfl := (proper_run founded).distinct id 1 demoUuid huuid (by decide)
      exact absurd hmember (by decide)

end HideServer.Manage
