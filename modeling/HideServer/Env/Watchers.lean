import HideServer.Env.Workspace
import HideServer.Async.Triple
import HideServer.Async.Trace

/-!
# The directories a daemon watches

Opening a directory sends the daemon a message first and changes the record last; closing changes both
together.
-/

namespace HideServer.Env

open Async Async.Prog Cache Function Trace Dict FSService

def heard (uuid path : String) (watches : Bool) (message : Message) : Bool :=
  if message = .watchAdd uuid path then true
  else if message = .watchRemove uuid path then false
  else watches

/-- The daemon watches the path after these messages. -/
def watches (sent : List Message) (uuid path : String) : Bool := sent.foldl (heard uuid path) false

/-- The record has watchers of the path. -/
def lists (workspaces : String → Option CachedWorkspace) (uuid path : String) : Bool :=
  (workspaces uuid).any fun workspace => (workspace.dirs.get? path).isSome

variable (w : World)

/-- Daemon and record agree, with this record in place. -/
def Tracks (uuid : String) (record : Option CachedWorkspace) : Prop :=
  ∀ uuid' path, watches w.sent uuid' path = lists (update w.workspace uuid record) uuid' path

/-- The daemons watch exactly the directories that are open. -/
def InStep : Prop := ∀ uuid path, watches w.sent uuid path = true ↔ lists w.workspace uuid path = true

/-- The calls, each run to its end; that of `closeDirs` is the one `invalidatePreviousSessions` makes. -/
inductive DirCall where
  | openDir (uid uuid path : String) (listed : Bool)
  | closeDir (uid uuid path : String)
  | closeDirs (uid uuid : String)
  deriving DecidableEq, Repr

def DirCall.program : DirCall → Io Unit
  | .openDir uid uuid path listed => FSService.openDir uid uuid path listed
  | .closeDir uid uuid path => FSService.closeDir uid uuid path
  | .closeDirs uid uuid => invalidatePreviousSessions uid uuid

def dirStep (call : DirCall) : World := (run exec call.program w).2

/-- A directory that is not open yet is opened only if it can be listed and the workspace has a record. -/
def Listable : DirCall → Prop
  | .openDir _ uuid path listed => lists w.workspace uuid path = true ∨ listed = true ∧ (w.workspace uuid).isSome
  | .closeDir .. | .closeDirs .. => True

instance : ∀ (w : World) (call : DirCall), Decidable (Listable w call)
  | _, .openDir .. => inferInstanceAs (Decidable (_ ∨ _ ∧ _))
  | _, .closeDir .. | _, .closeDirs .. => inferInstanceAs (Decidable True)

theorem watches_append (sent : List Message) (message : Message) (uuid path : String) :
    watches (sent ++ [message]) uuid path = heard uuid path (watches sent uuid path) message := by
  simp [watches]

@[simp] theorem heard_watchRemove (uuid path uuid' path' : String) (before : Bool) :
    heard uuid' path' before (.watchRemove uuid path) = if uuid' = uuid ∧ path' = path then false else before := by
  simp [heard, eq_comm]

@[simp] theorem heard_watchAdd (uuid path uuid' path' : String) (before : Bool) :
    heard uuid' path' before (.watchAdd uuid path) = if uuid' = uuid ∧ path' = path then true else before := by
  simp [heard, eq_comm]

theorem inStep_iff_tracks (uuid : String) : InStep w ↔ Tracks w uuid (w.workspace uuid) := by
  unfold InStep Tracks
  rw [update_eq_self]
  exact forall₂_congr fun _ _ => Bool.eq_iff_iff.symm

theorem lists_update (workspaces : String → Option CachedWorkspace) (uuid : String)
    (record : Option CachedWorkspace) (uuid' path : String) :
    lists (update workspaces uuid record) uuid' path =
      if uuid' = uuid then record.any fun workspace => (workspace.dirs.get? path).isSome else lists workspaces uuid' path := by
  unfold lists
  split_ifs with huuid
  · rw [huuid, update_self]
  · rw [update_of_ne huuid]

section

variable {uid uuid path : String} {workspace after : CachedWorkspace}

/-- The record has no new path, and lost at most one. -/
structure Drops (path : String) (workspace after : CachedWorkspace) : Prop where
  others : ∀ other, other ≠ path → (after.dirs.get? other).isSome = (workspace.dirs.get? other).isSome
  here : (after.dirs.get? path).isSome → (workspace.dirs.get? path).isSome

theorem drops_setWatchers (watchers : List String) (hpath : (workspace.dirs.get? path).isSome) :
    Drops path workspace (setWatchers workspace path watchers) where
  others other hother := by
    simp only [setWatchers]
    split_ifs
    · rw [get?_erase, if_neg hother]
    · rw [get?_set, if_neg hother]
  here _ := hpath

theorem drops_unwatching : Drops path workspace (unwatching workspace uid path) := by
  unfold unwatching
  split
  · exact ⟨fun _ _ => rfl, id⟩
  · rename_i watchers hwatchers
    split_ifs
    · exact drops_setWatchers _ (by rw [hwatchers]; rfl)
    · exact ⟨fun _ _ => rfl, id⟩

theorem triple_unwatch (h : Drops path workspace after) :
    Triple exec (Tracks · uuid (some workspace)) (unwatch uuid path workspace after)
      fun _ w => Tracks w uuid (some after) := by
  intro w hw uuid' path'
  unfold unwatch unwatched
  split_ifs with hgone
  · simp only [Bool.and_eq_true, Option.isNone_iff_eq_none] at hgone
    simp only [run_perform, exec, watches_append, heard_watchRemove, hw uuid' path', lists_update]
    by_cases huuid : uuid' = uuid
    · by_cases hpath : path' = path
      · simp [huuid, hpath, hgone.2]
      · simp [huuid, hpath, h.others path' hpath]
    · simp [huuid]
  · simp only [pure_eq, run_ret, hw uuid' path', lists_update]
    by_cases huuid : uuid' = uuid
    · by_cases hpath : path' = path
      · -- the path was not listed, or it still is
        have hhere := h.here
        cases hbefore : workspace.dirs.get? path <;> cases hafter : after.dirs.get? path <;> simp_all
      · simp [huuid, h.others path' hpath]
    · simp [huuid]

theorem triple_setWorkspace (workspace : CachedWorkspace) :
    Triple exec (Tracks · uuid (some workspace)) (ask (.setWorkspace uuid workspace)) fun _ => InStep := by
  intro w hw uuid' path'
  simpa [exec] using hw uuid' path'

theorem inStep_closeDir {w : World} (hw : InStep w) : InStep (run exec (closeDir uid uuid path) w).2 := by
  unfold closeDir updateCache
  simp only [perform_bind, run_await, exec]
  split
  · exact hw
  · rename_i workspace hcached
    have htracks := (inStep_iff_tracks w uuid).mp hw
    rw [hcached] at htracks
    exact (triple_unwatch drops_unwatching).bind (fun _ => triple_setWorkspace _) w htracks

theorem triple_closeDirs (uid uuid : String) (paths : List String) (workspace : CachedWorkspace)
    (hpaths : ∀ path ∈ paths, (workspace.dirs.get? path).isSome) (hnodup : paths.Nodup) :
    Triple exec (Tracks · uuid (some workspace)) (closeDirs uid uuid paths workspace)
      fun after w => Tracks w uuid (some after) := by
  induction paths generalizing workspace with
  | nil => exact fun w hw => hw
  | cons path paths ih =>
    obtain ⟨hpath, hrest⟩ := List.forall_mem_cons.mp hpaths
    obtain ⟨hnot, hnodup⟩ := List.nodup_cons.mp hnodup
    have hdrops := drops_setWatchers (splice ((workspace.dirs.get? path).getD []) uid) hpath
    refine (triple_unwatch hdrops).bind fun _ => ih _ (fun other hother => ?_) hnodup
    rw [hdrops.others other (by rintro rfl; exact hnot hother)]
    exact hrest other hother

theorem watchedBy_isSome (workspace : CachedWorkspace) (uid : String) :
    ∀ path ∈ watchedBy workspace uid, (workspace.dirs.get? path).isSome := by
  intro path hpath
  obtain ⟨entry, hentry, rfl⟩ := List.mem_map.mp hpath
  rw [mem_entries.mp (List.mem_filter.mp hentry).1]
  rfl

theorem watchedBy_nodup (workspace : CachedWorkspace) (uid : String) : (watchedBy workspace uid).Nodup :=
  workspace.dirs.nodup.sublist (List.filter_sublist.map Prod.fst)

theorem triple_closeWatched (uid uuid : String) :
    Triple exec InStep (do
        let workspace : Option CachedWorkspace ← ask (.getWorkspace uuid)
        match workspace with
        | none => return ()
        | some workspace =>
          let after ← closeDirs uid uuid (watchedBy workspace uid) workspace
          ask (.setWorkspace uuid after))
      fun _ => InStep := by
  intro w hw
  simp only [perform_bind, run_await, exec]
  split
  · exact hw
  · rename_i workspace hcached
    have htracks := (inStep_iff_tracks w uuid).mp hw
    rw [hcached] at htracks
    have hclosed := triple_closeDirs uid uuid (watchedBy workspace uid) workspace (watchedBy_isSome workspace uid)
      (watchedBy_nodup workspace uid)
    rw [run_bind]
    exact triple_setWorkspace _ _ (hclosed w htracks)

theorem inStep_invalidatePreviousSessions {w : World} (hw : InStep w) :
    InStep (run exec (invalidatePreviousSessions uid uuid) w).2 := by
  unfold invalidatePreviousSessions
  simp only [perform_bind, run_await]
  split
  · exact hw
  · rename_i presence hcached
    have hdeleted : Triple exec InStep
        (each (boundTo presence uuid) fun sessionId => ask (.delTimer (presenceWorkspace uid sessionId uuid)))
        fun _ => InStep :=
      .each _ fun _ _ => .perform fun _ h => h
    rw [run_bind]
    exact triple_closeWatched uid uuid _ (hdeleted w hw)

/-- The record after `openDir`. -/
def opened (uid uuid path : String) (listed : Bool) : Option CachedWorkspace :=
  if listed then (w.workspace uuid).map fun workspace => watching workspace uid path else w.workspace uuid

theorem run_openDir (uid uuid path : String) (listed : Bool) :
    (run exec (openDir uid uuid path listed) w).2 =
      { w with
        sent := w.sent ++ [.watchAdd uuid path]
        requests := w.requests ++ [.dir uuid path]
        workspace := update w.workspace uuid (opened w uid uuid path listed) } := by
  have hthere : ∀ workspace, unwatched workspace (watching workspace uid path) path = false := by
    simp [unwatched, watching, get?_set]
  unfold openDir updateCache opened
  simp only [perform_bind, run_await, exec]
  cases listed with
  | false => simp
  | true =>
    cases hcached : w.workspace uuid with
    | none =>
      have hsame : update w.workspace uuid none = w.workspace := update_eq_self_iff.mpr hcached.symm
      simp [exec, hcached, hsame]
    | some workspace => simp [hcached, unwatch, updated, hthere, exec]

theorem lists_opened (uid uuid path : String) (listed : Bool) :
    lists (update w.workspace uuid (opened w uid uuid path listed)) uuid path = true ↔
      lists w.workspace uuid path = true ∨ listed = true ∧ (w.workspace uuid).isSome := by
  rw [lists_update, if_pos rfl, opened, lists]
  cases listed <;> cases w.workspace uuid <;> simp [watching, get?_set]

theorem lists_opened_of_ne (uid : String) {uuid path uuid' path' : String}
    (listed : Bool) (hother : ¬(uuid' = uuid ∧ path' = path)) :
    lists (update w.workspace uuid (opened w uid uuid path listed)) uuid' path' = lists w.workspace uuid' path' := by
  rw [lists_update]
  split_ifs with huuid
  · have hpath : path' ≠ path := fun hpath => hother ⟨huuid, hpath⟩
    rw [opened, lists, huuid]
    cases listed <;> cases w.workspace uuid <;> simp [watching, get?_set, hpath]
  · rfl

theorem inStep_openDir_iff {w : World} {listed : Bool} (hw : InStep w) :
    InStep (run exec (openDir uid uuid path listed) w).2 ↔
      lists w.workspace uuid path = true ∨ listed = true ∧ (w.workspace uuid).isSome := by
  rw [run_openDir, ← lists_opened w uid]
  constructor
  · intro hafter
    exact (hafter uuid path).mp (by simp [watches_append])
  · intro hlisted uuid' path'
    by_cases hsame : uuid' = uuid ∧ path' = path
    · obtain ⟨rfl, rfl⟩ := hsame
      exact iff_of_true (by simp [watches_append]) hlisted
    · rw [lists_opened_of_ne w uid listed hsame, watches_append, heard_watchAdd, if_neg hsame]
      exact hw uuid' path'

end

theorem inStep_step_iff {w : World} {call : DirCall} (hw : InStep w) : InStep (dirStep w call) ↔ Listable w call := by
  cases call with
  | openDir uid uuid path listed => exact inStep_openDir_iff hw
  | closeDir uid uuid path => exact iff_of_true (inStep_closeDir hw) trivial
  | closeDirs uid uuid => exact iff_of_true (inStep_invalidatePreviousSessions hw) trivial

/-- The daemons watch exactly the open directories all along a run if and only if every directory that is opened
can be listed and has a record to be listed in. -/
theorem inStep_run_iff (w : World) (calls : List DirCall) (hw : InStep w) :
    Always dirStep InStep w calls ↔ Along dirStep Listable w calls := by
  rw [always_iff, and_iff_right hw]
  have hstep : ∀ w call, InStep w → (InStep (dirStep w call) ↔ Listable w call) := fun w call hw => inStep_step_iff hw
  exact along_iff_of_invariant (fun w call hw hcond => (hstep w call hw).mpr hcond) hstep hw

def closedWorkspaces : World :=
  { World.empty with
    presence := fun _ => some .empty
    workspace := fun _ => some ⟨.active, "e1", .empty, .empty, .empty⟩ }

theorem inStep_run_two_users :
    InStep closedWorkspaces ∧ Always dirStep InStep closedWorkspaces
      [.openDir "u1" "w1" "/workspace/" true, .openDir "u2" "w1" "/workspace/" false, .closeDir "u1" "w1" "/workspace/",
        .openDir "u2" "w1" "/workspace/src/" true, .closeDirs "u2" "w1"] := by
  have hclosed : InStep closedWorkspaces := by simp [InStep, watches, lists, closedWorkspaces, World.empty]
  exact ⟨hclosed, (inStep_run_iff closedWorkspaces _ hclosed).mpr (by decide)⟩

/-- The directory cannot be listed, but the daemon has been told to watch it. -/
theorem watches_unlisted :
    InStep closedWorkspaces ∧ ¬Always dirStep InStep closedWorkspaces [.openDir "u1" "w1" "/workspace/" false] := by
  refine ⟨by simp [InStep, watches, lists, closedWorkspaces, World.empty], fun hrun => ?_⟩
  have hlisted := (hrun.final "w1" "/workspace/").mp (by decide)
  exact absurd hlisted (by decide)

end HideServer.Env
