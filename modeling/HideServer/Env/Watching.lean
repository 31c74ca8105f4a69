import HideServer.Cache.Tidy
import HideServer.Env.Watchers

/-!
# Who watches a directory

A user is taken from the watchers of paths by `closeDir`, by `closeDirs` and by closing an environment.
All of them come down to `closing`: the record without the user at the paths, and the messages.
-/

namespace HideServer.Env

open Async Async.Prog Cache Function Trace Dict List FSService

/-! ### The record without a user -/

/-- The message that a path is not watched any more. -/
def dropped (uuid path : String) (workspace after : CachedWorkspace) : List Message :=
  if unwatched workspace after path then [.watchRemove uuid path] else []

/-- The record without the user at the paths, and the messages. -/
def closing (uid uuid : String) : List String → CachedWorkspace → CachedWorkspace × List Message
  | [], workspace => (workspace, [])
  | path :: paths, workspace =>
    let after := unwatching workspace uid path
    ((closing uid uuid paths after).1, dropped uuid path workspace after ++ (closing uid uuid paths after).2)

def recorded (w : World) (uuid : String) (workspace : CachedWorkspace) (messages : List Message) : World :=
  { w with sent := w.sent ++ messages, workspace := update w.workspace uuid (some workspace) }

section

variable {uid uuid path : String} {workspace after : CachedWorkspace} {w : World}

theorem recorded_cached (hcached : w.workspace uuid = some workspace) : recorded w uuid workspace [] = w := by
  unfold recorded
  rw [append_nil, ← hcached, update_eq_self]

theorem recorded_recorded (first second : List Message) :
    recorded (recorded w uuid workspace first) uuid after second = recorded w uuid after (first ++ second) := by
  simp [recorded]

theorem run_unwatch (w : World) :
    (run exec (unwatch uuid path workspace after) w).2 =
      { w with sent := w.sent ++ dropped uuid path workspace after } := by
  unfold unwatch dropped
  split_ifs
  · rfl
  · simp

theorem run_closeDir (hcached : w.workspace uuid = some workspace) :
    (run exec (closeDir uid uuid path) w).2 = recorded w uuid (unwatching workspace uid path)
        (dropped uuid path workspace (unwatching workspace uid path)) := by
  unfold closeDir updateCache
  simp only [perform_bind, run_await, exec, hcached, updated, run_bind, run_unwatch]
  rfl

theorem run_closeDir_of_none (hcached : w.workspace uuid = none) : (run exec (closeDir uid uuid path) w).2 = w := by
  unfold closeDir updateCache
  simp only [perform_bind, run_await, exec, hcached]
  rfl

theorem run_each_closeDir (paths : List String) (hcached : w.workspace uuid = some workspace) :
    (run exec (each paths fun path => closeDir uid uuid path) w).2 =
      recorded w uuid (closing uid uuid paths workspace).1 (closing uid uuid paths workspace).2 := by
  induction paths generalizing w workspace with
  | nil => exact (recorded_cached hcached).symm
  | cons path paths ih =>
    unfold each
    have hnext : (recorded w uuid (unwatching workspace uid path)
        (dropped uuid path workspace (unwatching workspace uid path))).workspace uuid =
        some (unwatching workspace uid path) := update_self ..
    rw [run_bind, run_closeDir hcached, ih hnext, recorded_recorded]
    rfl

theorem unwatching_of_mem (hlisted : uid ∈ (workspace.dirs.get? path).getD []) :
    unwatching workspace uid path = setWatchers workspace path (splice ((workspace.dirs.get? path).getD []) uid) := by
  unfold unwatching
  cases hpath : workspace.dirs.get? path with
  | none => simp [hpath] at hlisted
  | some watchers =>
    rw [hpath] at hlisted
    exact if_pos hlisted

theorem get?_unwatching_of_ne {other : String} (hother : other ≠ path) :
    (unwatching workspace uid path).dirs.get? other = workspace.dirs.get? other := by
  unfold unwatching setWatchers
  split
  · rfl
  · split_ifs
    · simp only [get?_erase, if_neg hother]
    · simp only [get?_set, if_neg hother]
    · rfl

theorem run_closeDirs (paths : List String) (hnodup : paths.Nodup)
    (hlisted : ∀ path ∈ paths, uid ∈ (workspace.dirs.get? path).getD []) (w : World) :
    run exec (closeDirs uid uuid paths workspace) w =
      ((closing uid uuid paths workspace).1, { w with sent := w.sent ++ (closing uid uuid paths workspace).2 }) := by
  induction paths generalizing w workspace with
  | nil => simp [closeDirs, closing]
  | cons path paths ih =>
    obtain ⟨hpath, hrest⟩ := forall_mem_cons.mp hlisted
    obtain ⟨hnot, hnodup⟩ := nodup_cons.mp hnodup
    have hlater : ∀ other ∈ paths, uid ∈ ((unwatching workspace uid path).dirs.get? other).getD [] := by
      intro other hother
      rw [get?_unwatching_of_ne (by rintro rfl; exact hnot hother)]
      exact hrest other hother
    unfold closeDirs
    simp only [← unwatching_of_mem hpath, run_bind, run_unwatch, ih hnodup hlater]
    simp [closing]

theorem mem_of_mem_watchedBy (hpath : path ∈ watchedBy workspace uid) : uid ∈ (workspace.dirs.get? path).getD [] := by
  obtain ⟨entry, hentry, rfl⟩ := mem_map.mp hpath
  obtain ⟨hmem, hlisted⟩ := mem_filter.mp hentry
  rw [mem_entries.mp hmem]
  exact of_decide_eq_true hlisted

theorem run_closeWatched (uid uuid : String) (workspace : CachedWorkspace) (w : World) :
    (run exec (closeDirs uid uuid (watchedBy workspace uid) workspace >>= fun after =>
        ask (.setWorkspace uuid after)) w).2 =
      recorded w uuid (closing uid uuid (watchedBy workspace uid) workspace).1
        (closing uid uuid (watchedBy workspace uid) workspace).2 := by
  rw [run_bind, run_closeDirs _ (watchedBy_nodup workspace uid) fun _ => mem_of_mem_watchedBy]
  rfl

end

/-- Closing the directories of a user at once leaves the same record, and sends the same messages, as closing them
one by one. -/
theorem closeDirs_eq_each_closeDir (uid uuid : String) (workspace : CachedWorkspace) (w : World)
    (hcached : w.workspace uuid = some workspace) :
    (run exec (closeDirs uid uuid (watchedBy workspace uid) workspace >>= fun after =>
        ask (.setWorkspace uuid after)) w).2 =
      (run exec (each (watchedBy workspace uid) fun path => closeDir uid uuid path) w).2 := by
  rw [run_closeWatched, run_each_closeDir _ hcached]

def twoWatchers : CachedWorkspace :=
  ⟨.active, "e1", (empty.set "/workspace/" ["u1", "u2"]).set "/workspace/src/" ["u1"], .empty, .empty⟩

theorem closeDirs_eq_each_closeDir_two :
    (watchedBy twoWatchers "u1" = ["/workspace/", "/workspace/src/"]) ∧
      (run exec (closeDirs "u1" "w1" (watchedBy twoWatchers "u1") twoWatchers >>= fun after =>
          ask (.setWorkspace "w1" after)) (recorded .empty "w1" twoWatchers [])).2 =
        (run exec (each (watchedBy twoWatchers "u1") fun path => closeDir "u1" "w1" path)
          (recorded .empty "w1" twoWatchers [])).2 :=
  ⟨by decide, closeDirs_eq_each_closeDir "u1" "w1" twoWatchers (recorded .empty "w1" twoWatchers []) (by decide)⟩

/-! ### The lists -/

/-- Every path of the record is watched by somebody, and by nobody twice. -/
def Attended (workspace : CachedWorkspace) : Prop :=
  ∀ path uids, workspace.dirs.get? path = some uids → uids ≠ [] ∧ uids.Nodup

/-- Every record is in order. -/
def WellAttended (w : World) : Prop := ∀ uuid, ∀ workspace ∈ w.workspace uuid, Attended workspace

def watchers (w : World) (uuid path : String) : List String :=
  ((w.workspace uuid).bind fun workspace => workspace.dirs.get? path).getD []

/-- Nobody but the user stops watching a path. -/
def SparesOthers (uid : String) (w after : World) : Prop :=
  ∀ uuid path, ∀ other ∈ watchers w uuid path, other ≠ uid → other ∈ watchers after uuid path

/-- The list of the path goes. -/
def Disappears (w after : World) (uuid path : String) : Prop :=
  lists w.workspace uuid path = true ∧ lists after.workspace uuid path = false
  deriving Decidable

/-- The daemon of a workspace is told to stop watching a path once if the path goes from the record, and not at all
if it does not. -/
def TellsExactly (w after : World) : Prop :=
  ∀ uuid path, after.sent.count (.watchRemove uuid path) =
    w.sent.count (.watchRemove uuid path) + if Disappears w after uuid path then 1 else 0

structure Closes (uid : String) (w after : World) : Prop where
  attended : WellAttended w → WellAttended after
  others : SparesOthers uid w after
  fewer : ∀ uuid path, lists after.workspace uuid path = true → lists w.workspace uuid path = true
  tells : TellsExactly w after

variable (wsActivity : Nat) (w : World)

section

variable {uid uuid path : String} {workspace : CachedWorkspace} {w after final : World}

theorem Closes.trans (hfirst : Closes uid w after) (hsecond : Closes uid after final) : Closes uid w final where
  attended hw := hsecond.attended (hfirst.attended hw)
  others uuid path other hother hne := hsecond.others uuid path other (hfirst.others uuid path other hother hne) hne
  fewer uuid path hlists := hfirst.fewer uuid path (hsecond.fewer uuid path hlists)
  tells uuid path := by
    rw [hsecond.tells, hfirst.tells, Nat.add_assoc]
    -- a path that has gone does not come back
    have hfirst := hfirst.fewer uuid path
    have hsecond := hsecond.fewer uuid path
    cases hw : lists w.workspace uuid path <;> cases hafter : lists after.workspace uuid path <;>
      cases hfinal : lists final.workspace uuid path <;> simp_all [Disappears]

theorem closes_of_frame (uid : String)
    (hdirs : ∀ uuid, (after.workspace uuid).map CachedWorkspace.dirs = (w.workspace uuid).map CachedWorkspace.dirs)
    (hsent : ∀ uuid path, after.sent.count (.watchRemove uuid path) = w.sent.count (.watchRemove uuid path)) :
    Closes uid w after := by
  have hget : ∀ uuid path, ((after.workspace uuid).bind fun workspace => workspace.dirs.get? path) =
      (w.workspace uuid).bind fun workspace => workspace.dirs.get? path := by
    intro uuid path
    have hboth := congrArg (fun dirs => dirs.bind fun dirs => get? dirs path) (hdirs uuid)
    simpa [Option.bind_map] using hboth
  have hlists : ∀ uuid path, lists after.workspace uuid path = lists w.workspace uuid path := by
    intro uuid path
    have hsome := congrArg Option.isSome (hget uuid path)
    simpa [lists, Option.isSome_bind] using hsome
  refine ⟨fun hw uuid workspace hworkspace path uids huids => ?_, fun uuid path other hother _ => ?_, ?_, ?_⟩
  · have hmem := hdirs uuid
    rw [Option.mem_def.mp hworkspace] at hmem
    obtain ⟨before, hbefore, hsame⟩ := Option.map_eq_some_iff.mp hmem.symm
    exact hw uuid before hbefore path uids (by rw [hsame]; exact huids)
  · unfold watchers at hother ⊢
    rw [hget]
    exact hother
  · intro uuid path hlisted
    rw [← hlists]
    exact hlisted
  · intro uuid path
    have hstays : ¬Disappears w after uuid path := by
      unfold Disappears
      rw [hlists]
      simp
    rw [hsent, if_neg hstays, Nat.add_zero]

/-! ### One path -/

theorem Attended.unwatching (h : Attended workspace) (uid path : String) : Attended (unwatching workspace uid path) := by
  intro other uids huids
  have hdistinct : Tidy.Distinct workspace := fun path uids huids => (h path uids huids).2
  refine ⟨?_, hdistinct.unwatching uid path other uids huids⟩
  by_cases hother : other = path
  · subst hother
    unfold Env.unwatching setWatchers at huids
    split at huids
    · exact (h other uids huids).1
    · split_ifs at huids with hlisted hempty
      · simp [get?_erase] at huids
      · simp only [get?_set, if_true, Option.some.injEq] at huids
        rw [← huids]
        exact hempty
      · exact (h other uids huids).1
  · rw [get?_unwatching_of_ne hother] at huids
    exact (h other uids huids).1

theorem mem_unwatching {other : String} (hne : other ≠ uid) (hother : other ∈ (workspace.dirs.get? path).getD []) :
    other ∈ ((unwatching workspace uid path).dirs.get? path).getD [] := by
  unfold unwatching
  cases hpath : workspace.dirs.get? path with
  | none => simp [hpath] at hother
  | some watchers =>
    rw [hpath] at hother
    simp only
    split_ifs with hlisted
    · have hleft : other ∈ splice watchers uid := by
        unfold splice
        rw [if_pos hlisted]
        exact (mem_erase_of_ne hne).mpr hother
      unfold setWatchers
      rw [if_neg (ne_nil_of_mem hleft)]
      simpa [get?_set] using hleft
    · rw [hpath]
      exact hother

theorem watchers_recorded (messages : List Message) (uuid' path : String) :
    watchers (recorded w uuid workspace messages) uuid' path =
      if uuid' = uuid then (workspace.dirs.get? path).getD [] else watchers w uuid' path := by
  unfold watchers recorded
  split_ifs with huuid
  · simp [huuid]
  · simp [update_of_ne huuid]

theorem lists_recorded (messages : List Message) (uuid' path : String) :
    lists (recorded w uuid workspace messages).workspace uuid' path =
      if uuid' = uuid then (workspace.dirs.get? path).isSome else lists w.workspace uuid' path :=
  lists_update w.workspace uuid (some workspace) uuid' path

theorem lists_cached (hcached : w.workspace uuid = some workspace) (path : String) :
    lists w.workspace uuid path = (workspace.dirs.get? path).isSome := by
  simp [lists, hcached]

theorem count_dropped (uuid path uuid' path' : String) (workspace after : CachedWorkspace) :
    (dropped uuid path workspace after).count (.watchRemove uuid' path') =
      if uuid' = uuid ∧ path' = path ∧ unwatched workspace after path = true then 1 else 0 := by
  unfold dropped
  by_cases hgone : unwatched workspace after path = true
  · simp only [hgone, if_true, and_true, count_singleton, beq_iff_eq, Message.watchRemove.injEq]
    exact if_congr (and_congr eq_comm eq_comm) rfl rfl
  · simp [hgone]

theorem disappears_unwatching (hcached : w.workspace uuid = some workspace) (messages : List Message)
    (uuid' path' : String) :
    Disappears w (recorded w uuid (unwatching workspace uid path) messages) uuid' path' ↔
      uuid' = uuid ∧ path' = path ∧ unwatched workspace (unwatching workspace uid path) path = true := by
  unfold Disappears
  rw [lists_recorded]
  by_cases huuid : uuid' = uuid
  · subst huuid
    rw [lists_cached hcached, if_pos rfl]
    by_cases hpath : path' = path
    · subst hpath
      simp [unwatched]
    · rw [get?_unwatching_of_ne hpath]
      cases workspace.dirs.get? path' <;> simp [hpath]
  · simp [huuid]

theorem closes_unwatching (uid path : String) (hcached : w.workspace uuid = some workspace) :
    Closes uid w (recorded w uuid (unwatching workspace uid path)
      (dropped uuid path workspace (unwatching workspace uid path))) where
  attended hw uuid' found hfound := by
    simp only [recorded, update_apply] at hfound
    split_ifs at hfound
    · cases hfound
      exact (hw uuid workspace hcached).unwatching uid path
    · exact hw uuid' found hfound
  others uuid' path' other hother hne := by
    rw [watchers_recorded]
    split_ifs with huuid
    · subst huuid
      simp only [watchers, hcached, Option.bind_some] at hother
      by_cases hpath : path' = path
      · subst hpath
        exact mem_unwatching hne hother
      · rw [get?_unwatching_of_ne hpath]
        exact hother
    · exact hother
  fewer uuid' path' hlists := by
    rw [lists_recorded] at hlists
    split_ifs at hlists with huuid
    · subst huuid
      rw [lists_cached hcached]
      by_cases hpath : path' = path
      · subst hpath
        exact drops_unwatching.here hlists
      · rw [← drops_unwatching.others path' hpath]
        exact hlists
    · exact hlists
  tells uuid' path' := by
    simp only [disappears_unwatching hcached]
    simp only [recorded, count_append, count_dropped]

/-! ### The routines -/

theorem closes_refl (uid : String) (w : World) : Closes uid w w := closes_of_frame uid (fun _ => rfl) fun _ _ => rfl

theorem closes_closing (paths : List String) (hcached : w.workspace uuid = some workspace) :
    Closes uid w (recorded w uuid (closing uid uuid paths workspace).1 (closing uid uuid paths workspace).2) := by
  induction paths generalizing w workspace with
  | nil => exact (recorded_cached hcached).symm ▸ closes_refl uid w
  | cons path paths ih =>
    have hfirst := closes_unwatching uid path hcached
    have hrest := ih (w := recorded w uuid (unwatching workspace uid path)
      (dropped uuid path workspace (unwatching workspace uid path))) (update_self ..)
    rw [recorded_recorded] at hrest
    exact hfirst.trans hrest

theorem closes_each_closeDir (paths : List String) (w : World) :
    Closes uid w (run exec (each paths fun path => closeDir uid uuid path) w).2 := by
  cases hcached : w.workspace uuid with
  | some workspace =>
    rw [run_each_closeDir paths hcached]
    exact closes_closing paths hcached
  | none =>
    have hnothing : Triple exec (· = w) (each paths fun path => closeDir uid uuid path) fun _ => (· = w) :=
      .each paths fun path _ s hs => by rw [hs, run_closeDir_of_none hcached]
    rw [hnothing w rfl]
    exact closes_refl uid w

theorem Closes.triple {α : Type} {p : Io α} {start : World} (hp : ∀ w, Closes uid w (run exec p w).2) :
    Triple exec (Closes uid start) p fun _ => Closes uid start :=
  fun w hw => hw.trans (hp w)

def Aside : Cmd → Prop
  | .setWorkspace .. | .delWorkspace _ | .emit _ => False
  | _ => True

theorem closes_aside {α : Type} {p : Io α} {start : World} (hp : p.Only Aside) :
    Triple exec (Closes uid start) p fun _ => Closes uid start := by
  refine hp.triple fun cmd w hcmd hw => hw.trans ?_
  cases cmd with
  | setWorkspace => cases hcmd
  | delWorkspace => cases hcmd
  | emit => cases hcmd
  | acquire | release =>
    simp only [exec]
    split_ifs <;> exact closes_of_frame uid (fun _ => rfl) fun _ _ => rfl
  | _ => exact closes_of_frame uid (fun _ => rfl) fun _ _ => rfl

theorem closes_recorded {after : CachedWorkspace} (hcached : w.workspace uuid = some workspace)
    (hdirs : after.dirs = workspace.dirs) : Closes uid w (recorded w uuid after []) := by
  refine closes_of_frame uid (fun uuid' => ?_) fun _ _ => by rw [recorded, append_nil]
  by_cases huuid : uuid' = uuid
  · subst huuid
    simp [recorded, hcached, hdirs]
  · simp [recorded, update_of_ne huuid]

theorem closes_updateConnCache (instanceId sessionId : String) (add : Bool) (w : World) :
    Closes uid w (run exec (SSHProxyService.updateConnCache instanceId sessionId uuid add) w).2 := by
  unfold SSHProxyService.updateConnCache
  simp only [perform_bind, run_await, exec]
  split
  · exact closes_refl uid w
  · rename_i workspace hcached
    have hrecorded : Closes uid w (recorded w uuid (SSHProxyService.updated instanceId sessionId add workspace) []) :=
      closes_recorded hcached rfl
    simpa [recorded, exec] using hrecorded

theorem closes_markIdle (user sessionId : String) (w : World) :
    Closes uid w (run exec (markIdle wsActivity user sessionId uuid) w).2 := by
  unfold markIdle
  simp only [perform_bind, run_await, exec]
  split
  · exact closes_refl uid w
  · rename_i workspace hcached
    split_ifs
    · have hrecorded : Closes uid w (recorded w uuid { workspace with state := .inactive } []) :=
        closes_recorded hcached rfl
      exact hrecorded.trans (closes_of_frame uid (fun _ => by simp [exec, recorded]) fun _ _ => by simp [exec, recorded])
    · exact closes_refl uid w

theorem closes_handleSSHClose (instanceId user sessionId : String) (w : World) :
    Closes uid w (run exec (SSHProxyService.handleSSHClose instanceId user sessionId uuid) w).2 := by
  have hended : Closes uid w (exec (.emit (.connEnd instanceId user uuid)) w).2 :=
    closes_of_frame uid (fun _ => rfl) fun _ _ => by simp [exec]
  exact hended.trans (closes_updateConnCache instanceId sessionId false _)

theorem closes_closeAll (instanceId sessionId : String) (start : World) :
    Triple exec (Closes uid start) (closeAll wsActivity instanceId uid sessionId uuid) fun _ => Closes uid start := by
  refine .bind (closes_aside (.single trivial)) fun cached => ?_
  cases cached with
  | none => exact fun _ hs => hs
  | some workspace =>
    refine .bind (Closes.triple (closes_handleSSHClose instanceId uid sessionId)) fun _ => ?_
    refine .bind (Closes.triple (closes_each_closeDir _)) fun _ => ?_
    exact Closes.triple (closes_markIdle wsActivity uid sessionId)

theorem closes_leaveWorkspace (instanceId : String) (start : World) :
    Triple exec (Closes uid start) (leaveWorkspace wsActivity instanceId uid uuid) fun _ => Closes uid start := by
  refine .bind (closes_aside (.single trivial)) fun cached => ?_
  cases cached with
  | none => exact fun _ hs => hs
  | some presence =>
    simp only
    split
    · exact fun _ hs => hs
    · refine .bind (closes_aside (.single trivial)) fun _ => ?_
      refine .bind (closes_aside (.single trivial)) fun _ => ?_
      exact closes_closeAll wsActivity instanceId _ start

theorem closes_handleEnvClose (instanceId uid uuid : String) (served : Bool) (w : World) :
    Closes uid w (run exec (handleEnvClose wsActivity instanceId uid uuid served) w).2 := by
  have htriple : Triple exec (Closes uid w) (handleEnvClose wsActivity instanceId uid uuid served)
      fun _ => Closes uid w := by
    refine .bind (closes_aside (.single trivial)) fun isMember => .ite (fun _ _ hs => hs) fun _ => ?_
    refine .bind (closes_aside (.single trivial)) fun lock => ?_
    cases lock with
    | none => exact fun _ hs => hs
    | some token =>
      refine .bind (closes_leaveWorkspace wsActivity instanceId w) fun _ => ?_
      exact closes_aside (.single trivial)
  exact htriple w (closes_refl uid w)

theorem closes_invalidatePreviousSessions (uid uuid : String) (w : World) :
    Closes uid w (run exec (invalidatePreviousSessions uid uuid) w).2 := by
  have htriple : Triple exec (Closes uid w) (invalidatePreviousSessions uid uuid) fun _ => Closes uid w := by
    refine .bind (closes_aside (.single trivial)) fun cached => ?_
    cases cached with
    | none => exact fun _ hs => hs
    | some presence =>
      refine .bind (.each _ fun _ _ => closes_aside (.single trivial)) fun _ => ?_
      refine .bind (closes_aside (.single trivial)) fun _ => Closes.triple (fun now => ?_)
      -- the record is the one that has just been read
      simp only [perform_bind, run_await, exec]
      split
      · exact closes_refl uid now
      · rename_i workspace hcached
        rw [run_closeWatched]
        exact closes_closing _ hcached
  exact htriple w (closes_refl uid w)

end

/-! ### Runs -/

inductive WatchCall where
  | dir (call : DirCall)
  | envClose (wsActivity : Nat) (instanceId uid uuid : String) (served : Bool)
  deriving DecidableEq, Repr

def WatchCall.program : WatchCall → Io Unit
  | .dir call => call.program
  | .envClose wsActivity instanceId uid uuid served => handleEnvClose wsActivity instanceId uid uuid served

def WatchCall.uid : WatchCall → String
  | .dir (.openDir uid ..) | .dir (.closeDir uid ..) | .dir (.closeDirs uid _) => uid
  | .envClose _ _ uid .. => uid

def watchStep (call : WatchCall) : World := (run exec call.program w).2

/-- What every call does. -/
structure Orderly (w : World) (call : WatchCall) : Prop where
  attended : WellAttended w → WellAttended (watchStep w call)
  others : SparesOthers call.uid w (watchStep w call)
  tells : TellsExactly w (watchStep w call)

theorem Closes.orderly {w : World} (call : WatchCall) (h : Closes call.uid w (watchStep w call)) : Orderly w call :=
  ⟨h.attended, h.others, h.tells⟩

theorem Attended.watching {workspace : CachedWorkspace} (h : Attended workspace) (uid path : String) :
    Attended (watching workspace uid path) := by
  intro other uids huids
  have hdistinct : Tidy.Distinct workspace := fun path uids huids => (h path uids huids).2
  refine ⟨?_, hdistinct.watching uid path other uids huids⟩
  simp only [Env.watching, get?_set] at huids
  split_ifs at huids with hother
  · -- the user is in the list
    cases huids
    exact ne_nil_of_mem (mem_eraseDups.mpr (mem_append_right _ (mem_singleton_self uid)))
  · exact (h other uids huids).1

theorem mem_watching {workspace : CachedWorkspace} {uid path other path' : String}
    (hother : other ∈ (workspace.dirs.get? path').getD []) :
    other ∈ ((watching workspace uid path).dirs.get? path').getD [] := by
  simp only [Env.watching, get?_set]
  split_ifs with hpath
  · subst hpath
    exact mem_eraseDups.mpr (mem_append_left _ hother)
  · exact hother

theorem orderly_openDir (uid uuid path : String) (listed : Bool) (w : World) :
    Orderly w (.dir (.openDir uid uuid path listed)) := by
  have hstep : watchStep w (.dir (.openDir uid uuid path listed)) = _ := run_openDir w uid uuid path listed
  refine ⟨fun hw uuid' found hfound => ?_, fun uuid' path' other hother _ => ?_, fun uuid' path' => ?_⟩
  · rw [hstep] at hfound
    simp only [update_apply, opened] at hfound
    split_ifs at hfound
    · obtain ⟨before, hbefore, rfl⟩ := Option.map_eq_some_iff.mp hfound
      exact (hw uuid before hbefore).watching uid path
    · exact hw uuid found hfound
    · exact hw uuid' found hfound
  · rw [hstep]
    unfold watchers at hother ⊢
    simp only [update_apply, opened]
    split_ifs with huuid hlisted
    · subst huuid
      cases hcached : w.workspace uuid' with
      | none => simp [hcached] at hother
      | some workspace =>
        rw [hcached] at hother
        exact mem_watching hother
    · exact huuid ▸ hother
    · exact hother
  · have hstays : ¬Disappears w (watchStep w (.dir (.openDir uid uuid path listed))) uuid' path' := by
      rintro ⟨hbefore, hafter⟩
      rw [hstep] at hafter
      by_cases hsame : uuid' = uuid ∧ path' = path
      · obtain ⟨rfl, rfl⟩ := hsame
        exact Bool.false_ne_true (hafter ▸ (lists_opened w uid uuid' path' listed).mpr (.inl hbefore))
      · rw [lists_opened_of_ne w uid listed hsame, hbefore] at hafter
        cases hafter
    rw [if_neg hstays, hstep]
    simp

theorem orderly_step (call : WatchCall) : Orderly w call := by
  cases call with
  | dir call =>
    cases call with
    | openDir uid uuid path listed => exact orderly_openDir uid uuid path listed w
    | closeDir uid uuid path =>
      -- one path is a list of paths
      have hone : Closes uid w (run exec (each [path] fun path => closeDir uid uuid path) w).2 :=
        closes_each_closeDir [path] w
      simp only [each, run_bind] at hone
      exact Closes.orderly (.dir (.closeDir uid uuid path)) hone
    | closeDirs uid uuid =>
      exact Closes.orderly (.dir (.closeDirs uid uuid)) (closes_invalidatePreviousSessions uid uuid w)
  | envClose wsActivity instanceId uid uuid served =>
    exact Closes.orderly (.envClose wsActivity instanceId uid uuid served)
      (closes_handleEnvClose wsActivity instanceId uid uuid served w)

structure Visit where
  elsewhere : World
  call : WatchCall

def Visit.before (visit : Visit) (w : World) : World := { visit.elsewhere with workspace := w.workspace, sent := w.sent }

def visitStep (visit : Visit) : World := watchStep (visit.before w) visit.call

/-- In every run every list keeps somebody and nobody twice, nobody is removed but by their own call, and a daemon is
told to stop watching a path at exactly the calls with which the path goes from the record. -/
theorem wellAttended_run (w : World) (visits : List Visit) (hw : WellAttended w) :
    Always visitStep WellAttended w visits ∧ Along visitStep (fun w visit =>
        SparesOthers visit.call.uid w (visitStep w visit) ∧ TellsExactly w (visitStep w visit)) w visits := by
  have hvisit : ∀ w (visit : Visit), Orderly (visit.before w) visit.call := fun w visit => orderly_step _ _
  constructor
  · intro done _
    exact run_preserves (fun w visit => (hvisit w visit).attended) hw done
  · exact along_of_forall fun w visit => ⟨(hvisit w visit).others, (hvisit w visit).tells⟩

def allBound : World :=
  { closedWorkspaces with
    presence := fun _ => some (empty.set "s1" ⟨.active, "k1", "g1", some "w1"⟩)
    rows := fun _ _ => true }

theorem wellAttended_run_closedWorkspaces :
    WellAttended closedWorkspaces ∧ Always visitStep WellAttended closedWorkspaces
        [⟨allBound, .dir (.openDir "u1" "w1" "/workspace/" true)⟩,
          ⟨allBound, .dir (.openDir "u2" "w1" "/workspace/" true)⟩,
          ⟨allBound, .envClose 5000 "e1" "u1" "w1" true⟩, ⟨allBound, .dir (.closeDirs "u2" "w1")⟩] := by
  have hclosed : WellAttended closedWorkspaces := by
    intro uuid workspace hworkspace path uids huids
    cases hworkspace
    cases huids
  exact ⟨hclosed, (wellAttended_run closedWorkspaces _ hclosed).1⟩

end HideServer.Env
