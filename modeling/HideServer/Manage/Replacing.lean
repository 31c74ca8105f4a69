import HideServer.Manage.Announcing

/-!
# Updates that replace the members

The removals of an update are committed before the rest is done. The rest is refused only if the actor,
in whose name the invitations are sent, is not in the list.
-/

namespace HideServer.Manage

open Async Async.Prog Function Trace Option Message

section

variable {s : Store} {uid : String} {id : Nat}

theorem finish_ok_error {workspace : Workspace} {saves : Bool} {err : String}
    (h : (run exec (finish id workspace saves (.ok ())) s).1 = .error err) : err = "save failed" := by
  change (if (exec (.transaction [.saveWorkspace id workspace] saves) s).1 = true then Except.ok () else _) = _ at h
  split at h
  · cases h
  · exact (Except.error.inj h).symm

theorem replaceMembers_of_stays (hproper : s.roster.Proper) {workspace : Workspace} {role : Role}
    (huuid : s.roster.uuid id = some workspace.uuid) (hrole : s.roster.role id uid = some role)
    (hlevel : Role.admin.level ≤ role.level) {members : Option (List String)} {commits : Bool}
    (hstays : commits = true → ∀ wanted ∈ members, uid ∈ wanted) (ntfnIds : String → String) (sessions : Sessions)
    (choice : Nat) :
    (run exec (replaceMembers uid id workspace members ntfnIds sessions choice commits) s).1 = .ok () ∨
      run exec (replaceMembers uid id workspace members ntfnIds sessions choice commits) s =
        (.error "rolled back", s) := by
  cases members with
  | none => exact .inl rfl
  | some wanted =>
    simp only [replaceMembers, run_bind, run_perform, exec]
    cases commits with
    | false => exact .inr (updateMembers_rolledBack ..)
    | true =>
      left
      obtain ⟨after, hafter, hroster⟩ := transact_keep s id wanted
      rw [run_updateMembers uid workspace _ sessions choice hafter]
      have hroster' (messages : List Message) : (after.tell messages).roster = s.roster.keep id wanted := hroster
      exact (validateInvite_keep_iff hproper huuid hrole hlevel (hroster' _) choice).mpr (hstays rfl wanted rfl)

end

/-- An update that fails, other than by the database's failure to save the workspace, has done nothing if and only if it
does not remove the actor. -/
theorem failed_update_unchanged_iff (s : Store) (hproper : s.roster.Proper) (uid : String) (data : UpdateData)
    (ntfnIds : String → String) (sessions : Sessions) (choice : Nat) (commits saves : Bool) (err : String)
    (herr : (run exec (updateWorkspace uid data ntfnIds sessions choice commits saves) s).1 = .error err)
    (hown : err ≠ "save failed") :
    (run exec (updateWorkspace uid data ntfnIds sessions choice commits saves) s).2 = s ↔
      StaysOrIsPlain s (.update uid data ntfnIds sessions choice commits saves) := by
  cases hid : data.id with
  | none =>
    refine iff_of_true ?_ fun id _ hsome => ?_
    · rw [updateWorkspace, hid]
      rfl
    · rw [hid] at hsome
      cases hsome
  | some id =>
    by_cases hreaches : reachesMembers s uid id data = true
    · constructor
      · intro hsame key wanted hkey hmembers _ hcommits
        by_contra hgone
        have hroster := roster_update s uid data ntfnIds sessions choice commits saves hid
        rw [show perform s (.update uid data ntfnIds sessions choice commits saves) = s from hsame, if_pos hreaches, hmembers,
          hcommits] at hroster
        apply (member_of_reachesMembers hreaches).1
        rw [hroster]
        exact if_pos ⟨rfl, hgone⟩
      · intro hstays
        obtain ⟨updated, role, huuid, hrole, hlevel, hrun⟩ :=
          updateWorkspace_of_reaches ntfnIds sessions choice commits saves hid hreaches
        rw [hrun, run_bind] at herr ⊢
        have hkept : commits = true → ∀ wanted ∈ data.members, uid ∈ wanted :=
          fun hcommits wanted hwanted => hstays id wanted hid hwanted hreaches hcommits
        rcases replaceMembers_of_stays hproper huuid hrole hlevel hkept ntfnIds sessions choice with hok | hrolled
        · rw [hok] at herr
          exact absurd (finish_ok_error herr) hown
        · rw [hrolled]
          rfl
    · obtain ⟨err', -, hrun⟩ := updateWorkspace_of_not_reaches ntfnIds sessions choice commits saves hid hreaches
      refine iff_of_true (by rw [hrun]) fun key wanted hkey _ hreach _ => ?_
      obtain rfl := some.inj (hid.symm.trans hkey)
      exact absurd hreach hreaches

theorem failed_update_unchanged_name :
    (run exec (updateWorkspace "alice" ⟨some 1, some "x", none, some ["bob"]⟩ id noSessions 0 true true)
      (run perform .empty joined)).2 = run perform .empty joined := by
  refine (failed_update_unchanged_iff _ (proper_run joined) "alice" _ id noSessions 0 true true "INVALID_WORKSPACE_NAME"
    (by decide) (by decide)).mpr ?_
  intro key wanted hkey _ hreaches _
  cases hkey
  exact absurd hreaches (by decide)

/-- The owner leaves themself out of the list: the update is refused, the owner is no member any more, and is told so. -/
theorem failed_update_half_done :
    let failed := run exec (updateWorkspace "alice" ⟨some 1, none, none, some ["bob"]⟩ id noSessions 0 true true)
      (run perform .empty joined)
    failed.1 = .error "NO_WORKSPACE_MEMBERSHIP" ∧ (run perform .empty joined).roster.role 1 "alice" = some .owner ∧
      failed.2.roster.role 1 "alice" = none ∧ failed.2.sent ≠ (run perform .empty joined).sent := by
  decide

def Message.invites (user : String) : Message → Bool
  | .invite inviteeId _ _ _ => inviteeId = user
  | _ => false

def Message.removes (user : String) : Message → Bool
  | .membershipRemoved uid _ _ _ => uid = user
  | _ => false

def Message.reaches (user sessionId : String) : Message → Bool
  | .socketModified uid other _ => uid = user ∧ other = sessionId
  | _ => false

def Message.about : Message → Option String
  | .invite _ _ uuid _ | .membershipRemoved _ _ uuid _ | .socketModified _ _ uuid | .membersModified uuid _ _ => some uuid
  | _ => none

/-- What replacing the members by a list should come to: the rows, and the messages that are sent. -/
structure ExactlyReplaced (s after : Store) (id : Nat) (wanted : List String) (sessions : Sessions)
    (messages : List Message) : Prop where
  sent : after.sent = s.sent ++ messages
  rows : ∀ key user, after.roster.role key user = if key = id ∧ user ∉ wanted then none else s.roster.role key user
  invited : ∀ user, messages.countP (invites user) =
    if user ∈ wanted ∧ s.roster.role id user = none then 1 else 0
  removed : ∀ user, messages.countP (removes user) =
    if s.roster.role id user ≠ none ∧ user ∉ wanted then 1 else 0
  /-- Every cached session of those who remain, if somebody was removed. -/
  told : (∃ other, s.roster.role id other ≠ none ∧ other ∉ wanted) → ∀ user sessionId,
    messages.countP (reaches user sessionId) =
      if s.roster.role id user ≠ none ∧ user ∈ wanted then (((sessions user).getD []).map Prod.fst).count sessionId else 0
  quiet : (∀ other, s.roster.role id other ≠ none → other ∈ wanted) → ∀ user sessionId,
    messages.countP (reaches user sessionId) = 0
  about : ∃ uuid, s.roster.uuid id = some uuid ∧ ∀ message ∈ messages, message.about = some uuid

section

variable (user : String)

theorem nodup_missing (wanted actual : List String) : (missing wanted actual).Nodup :=
  (Dict.nodup_eraseDups wanted).filter _

theorem countP_missing (wanted actual : List String) :
    (missing wanted actual).countP (fun other => decide (other = user)) =
      if user ∈ wanted ∧ user ∉ actual then 1 else 0 := by
  have hcount : (missing wanted actual).count user = _ := (nodup_missing wanted actual).count
  simp only [mem_missing] at hcount
  exact hcount

theorem countP_modifiedNotices (sessions : Sessions) {uids : List String} (hnodup : uids.Nodup) (sessionId uuid : String) :
    (modifiedNotices sessions uids uuid).countP (reaches user sessionId) =
      if user ∈ uids then (((sessions user).getD []).map Prod.fst).count sessionId else 0 := by
  induction uids with
  | nil => rfl
  | cons uid uids ih =>
    obtain ⟨hfresh, hnodup⟩ := List.nodup_cons.mp hnodup
    have hhere : (((sessions uid).getD []).map fun session => socketModified uid session.1 uuid).countP
        (reaches user sessionId) =
          if uid = user then (((sessions user).getD []).map Prod.fst).count sessionId else 0 := by
      by_cases huid : uid = user
      · simp [huid, reaches, List.countP_map, comp_def, List.count, beq_eq_decide]
      · simp [huid, reaches, List.countP_map, comp_def]
    simp only [modifiedNotices, List.flatMap_cons, List.countP_append] at ih ⊢
    rw [ih hnodup, hhere]
    by_cases huid : uid = user
    · subst huid
      simp [hfresh]
    · simp [huid, Ne.symm huid]

theorem about_modifiedNotices (sessions : Sessions) (uids : List String) (uuid : String) :
    ∀ message ∈ modifiedNotices sessions uids uuid, ∃ uid sessionId, message = .socketModified uid sessionId uuid := by
  intro message hmessage
  obtain ⟨uid, -, hsession⟩ := List.mem_flatMap.mp hmessage
  obtain ⟨session, -, rfl⟩ := List.mem_map.mp hsession
  exact ⟨uid, session.1, rfl⟩

variable (uid : String) (workspace : Workspace) (added : List (String × String)) (removed members : List String)
  (sessions : Sessions)

theorem countP_replacementNotices {p : Message → Bool}
    (hsocket : ∀ uid sessionId uuid, p (.socketModified uid sessionId uuid) = false)
    (hevent : ∀ uuid added removed, p (.membersModified uuid added removed) = false) :
    (replacementNotices uid workspace added removed members sessions).countP p =
      (removalNotices uid workspace removed).countP p +
        (added.map fun invitee => invite invitee.1 uid workspace.uuid invitee.2).countP p := by
  have hnone (uids : List String) : (modifiedNotices sessions uids workspace.uuid).countP p = 0 := by
    rw [List.countP_eq_zero]
    intro message hmessage
    obtain ⟨other, sessionId, rfl⟩ := about_modifiedNotices sessions uids workspace.uuid message hmessage
    simp [hsocket]
  unfold replacementNotices
  split_ifs <;> simp [List.countP_append, hnone, hevent]

theorem countP_invites : (replacementNotices uid workspace added removed members sessions).countP (invites user) =
    (added.map Prod.fst).countP fun other => decide (other = user) := by
  rw [countP_replacementNotices _ _ _ _ _ _ (fun _ _ _ => rfl) (fun _ _ _ => rfl)]
  simp [removalNotices, List.countP_map, comp_def, invites]

theorem countP_removes : (replacementNotices uid workspace added removed members sessions).countP (removes user) =
    removed.countP fun other => decide (other = user) := by
  rw [countP_replacementNotices _ _ _ _ _ _ (fun _ _ _ => rfl) (fun _ _ _ => rfl)]
  simp [removalNotices, List.countP_map, comp_def, removes]

theorem countP_reaches (sessionId : String) :
    (replacementNotices uid workspace added removed members sessions).countP (reaches user sessionId) =
      if removed ≠ [] ∧ user ∈ members ∧ user ∉ removed then (((sessions user).getD []).map Prod.fst).count sessionId
      else 0 := by
  have hnodup : (members.eraseDups.filter (· ∉ removed)).Nodup := (Dict.nodup_eraseDups members).filter _
  unfold replacementNotices
  by_cases hnone : removed = []
  · simp [hnone, removalNotices, List.countP_append, List.countP_map, comp_def, reaches]
  · simp only [hnone, if_false, List.countP_append, countP_modifiedNotices user sessions hnodup]
    simp [hnone, removalNotices, List.countP_map, comp_def, reaches]

theorem about_replacementNotices :
    ∀ message ∈ replacementNotices uid workspace added removed members sessions, message.about = some workspace.uuid := by
  intro message hmessage
  simp only [replacementNotices, removalNotices, List.mem_append, List.mem_map, List.mem_singleton] at hmessage
  rcases hmessage with ((⟨other, -, rfl⟩ | ⟨invitee, -, rfl⟩) | hmodified) | rfl
  · rfl
  · rfl
  · split_ifs at hmodified
    · cases hmodified
    · obtain ⟨other, sessionId, rfl⟩ := about_modifiedNotices _ _ _ message hmodified
      rfl
  · rfl

end

theorem exactlyReplaced_notices {s after : Store} {id : Nat} {uid : String} {workspace : Workspace}
    {added : List (String × String)} {wanted members : List String} {sessions : Sessions}
    (huuid : s.roster.uuid id = some workspace.uuid) (hroster : after.roster = s.roster.keep id wanted)
    (hmembers : ∀ user, user ∈ members ↔ s.roster.role id user ≠ none) (hadded : added.map Prod.fst = missing wanted members)
    (hsent : after.sent = s.sent ++ replacementNotices uid workspace added (missing members wanted) members sessions) :
    ExactlyReplaced s after id wanted sessions
      (replacementNotices uid workspace added (missing members wanted) members sessions) where
  sent := hsent
  rows key user := by
    rw [hroster]
    rfl
  invited user := by
    rw [countP_invites, hadded, countP_missing]
    simp only [hmembers, ne_eq, not_not]
  removed user := by
    rw [countP_removes, countP_missing]
    simp only [hmembers]
  told hremoved user sessionId := by
    obtain ⟨other, hother⟩ := hremoved
    have hne : missing members wanted ≠ [] := by
      apply List.ne_nil_of_mem (a := other)
      rwa [mem_missing, hmembers]
    rw [countP_reaches]
    refine if_congr ?_ rfl rfl
    rw [mem_missing, hmembers]
    tauto
  quiet hkept user sessionId := by
    have hnone : missing members wanted = [] := by
      refine List.eq_nil_iff_forall_not_mem.mpr fun other hother => ?_
      rw [mem_missing, hmembers] at hother
      exact hother.2 (hkept other hother.1)
    rw [countP_reaches, if_neg fun h => h.1 hnone]
  about := ⟨workspace.uuid, huuid, about_replacementNotices _ _ _ _ _ _⟩

/-- An update that replaces the members and succeeds has replaced them exactly. -/
theorem exactlyReplaced_of_ok (s : Store) (uid : String) (data : UpdateData) (ntfnIds : String → String)
    (sessions : Sessions) (choice : Nat) (commits saves : Bool) {id : Nat} {wanted : List String}
    (hid : data.id = some id) (hmembers : data.members = some wanted)
    (hok : (run exec (updateWorkspace uid data ntfnIds sessions choice commits saves) s).1 = .ok ()) :
    ∃ messages, ExactlyReplaced s (run exec (updateWorkspace uid data ntfnIds sessions choice commits saves) s).2
      id wanted sessions messages := by
  have hreaches : reachesMembers s uid id data = true := by
    by_contra hreaches
    obtain ⟨err, -, hrun⟩ := updateWorkspace_of_not_reaches ntfnIds sessions choice commits saves hid hreaches
    rw [hrun] at hok
    cases hok
  have hroster := roster_update s uid data ntfnIds sessions choice commits saves hid
  rw [if_pos hreaches, hmembers, perform] at hroster
  obtain ⟨updated, role, huuid, -, -, hrun⟩ :=
    updateWorkspace_of_reaches ntfnIds sessions choice commits saves hid hreaches
  rw [hrun] at hok hroster ⊢
  simp only [hmembers, replaceMembers, run_bind, run_perform, exec] at hok hroster ⊢
  cases commits with
  | false =>
    rw [updateMembers_rolledBack] at hok
    cases hok
  | true =>
    obtain ⟨after, hafter, -⟩ := transact_keep s id wanted
    rw [run_updateMembers uid updated _ sessions choice hafter] at hok hroster ⊢
    cases hinvite : (run exec (validateInvite uid updated.uuid choice)
        (after.tell (removalNotices uid updated (missing ((s.membershipsOf id).map Prod.fst) wanted)))).1 with
    | error err =>
      rw [hinvite] at hok
      cases hok
    | ok value =>
      rw [hinvite] at hroster
      refine ⟨_, exactlyReplaced_notices huuid hroster (fun _ => mem_members) ?_
        ((sent_exec_transaction ..).trans (congrArg (· ++ _) (sent_transact hafter)))⟩
      rw [List.map_map]
      exact List.map_id _

/-- Carol, who is named twice, is invited once, and bob is removed. -/
theorem exactlyReplaced_joined : let wanted := ["carol", "alice", "carol"]
    ∃ messages, ExactlyReplaced (run perform .empty joined)
      (run exec (updateWorkspace "alice" ⟨some 1, none, none, some wanted⟩ id noSessions 0 true true)
        (run perform .empty joined)).2 1 wanted noSessions messages :=
  exactlyReplaced_of_ok _ "alice" _ id noSessions 0 true true rfl rfl (by decide)

end HideServer.Manage
