import HideServer.Env.Events
import HideServer.Env.Placement

/-!
# Who is told that a path is blocked

`sync` takes `/workspace` for `/workspace/`, and a path without an entry is watched by nobody. `signal`
looks the path up as it is, and throws without an entry.
-/

namespace HideServer.Env.Events

open Async Async.Prog Site List
open Cache hiding exec

variable {U : Type}

/-- What `signal` sends when it runs alone, unless it throws. -/
def signalled (c : Setting U) (path : String) (action : Throttle) (s : Site.State U) : Option (List Sent) :=
  (run (exec c) (getWatchingUsersFromPath c.uuid path) s).1.map (signals path action)

/-- The user gets the event in a batch. -/
def Receives (c : Setting U) (me : InstanceId) (event : FSEvent) (s : Site.State U) (uid sid : String) : Prop :=
  ∃ t events, (t, .emit (.batch uid sid events)) ∈ syncCalls c me [event] s ∧ rooted event ∈ events

/-- `signal` does not throw, and it sends to the sessions that `sync` sends the events of the path to. -/
def Alike (c : Setting U) (me : InstanceId) (path : String) (action : Throttle) (s : Site.State U) : Prop :=
  ∃ sent, signalled c path action s = some sent ∧
    ∀ event : FSEvent, event.watchedPath = path → event.writes = false → ∀ uid sid,
      .signal uid sid path action ∈ sent ↔ Receives c me event s uid sid

/-- There is an entry for the path; if it is the root, those in the workspace are listed under both of its names or
under none. -/
def Listed (c : Setting U) (path : String) (world : World) : Prop :=
  ∀ wCache ∈ world.workspace c.uuid, (wCache.dirs.get? path).isSome ∧
    (path = "/workspace" → ∀ uid, (sessionId c.uuid (world.presence uid)).isSome →
      (uid ∈ watchers wCache.dirs "/workspace" ↔ uid ∈ watchers wCache.dirs "/workspace/"))

section

variable {c : Setting U} {me : InstanceId} {path : String} {action : Throttle} {event : FSEvent}
  {s : Site.State U} {wCache : CachedWorkspace} {uid sid : String}

variable {uids : List String}

theorem mem_sessions :
    (uid, sid) ∈ (run (exec c) (sessions c.uuid uids) s).1 ↔
      uid ∈ uids ∧ sessionId c.uuid (s.world.presence uid) = some sid := by
  simp only [run_sessions, mem_flatMap, Option.mem_toList, Option.map_eq_some_iff, Prod.mk.injEq]
  constructor
  · rintro ⟨_, huid, _, hsid, rfl, rfl⟩
    exact ⟨huid, hsid⟩
  · rintro ⟨huid, hsid⟩
    exact ⟨uid, huid, sid, hsid, rfl, rfl⟩

theorem signalled_uncached (hcached : s.world.workspace c.uuid = none) : signalled c path action s = some [] := by
  simp only [signalled, getWatchingUsersFromPath, run_bind, run_perform, exec, hcached]
  rfl

theorem signalled_unlisted (hcached : s.world.workspace c.uuid = some wCache) (hdirs : wCache.dirs.get? path = none) :
    signalled c path action s = none := by
  simp only [signalled, getWatchingUsersFromPath, run_bind, run_perform, exec, hcached, hdirs]
  rfl

theorem signalled_listed (hcached : s.world.workspace c.uuid = some wCache)
    (hdirs : wCache.dirs.get? path = some uids) :
    signalled c path action s = some (signals path action (run (exec c) (sessions c.uuid uids) s).1) := by
  simp only [signalled, getWatchingUsersFromPath, run_bind, run_perform, exec, hcached, hdirs]
  rfl

theorem mem_signals {users : List (String × String)} :
    .signal uid sid path action ∈ signals path action users ↔ (uid, sid) ∈ users := by
  simp [signals]

theorem not_receives (hcached : s.world.workspace c.uuid = none) : ¬Receives c me event s uid sid := by
  rintro ⟨t, events, hcall, -⟩
  simp [syncCalls, sync, exec, hcached] at hcall

theorem gathered_single : gathered (enlist wCache event .empty) uid =
    replicate ((audience wCache.dirs event).count uid) (rooted event) := by
  rw [gathered_enlist]
  rfl

theorem syncCalls_single (hcached : s.world.workspace c.uuid = some wCache) (hwrites : event.writes = false) :
    syncCalls c me [event] s = (s, .getWorkspace) :: ((enlist wCache event .empty).keys.map fun uid => (s, .getPresence uid)) ++
      (run (exec c) (sessions c.uuid (enlist wCache event .empty).keys) s).1.map fun entry =>
        (s, .emit (.batch entry.1 entry.2 (gathered (enlist wCache event .empty) entry.1))) := by
  have hgather : (gather c.uuid me wCache [event] .empty : Site.Io U _) = .ret (some (enlist wCache event .empty)) := by
    simp [gather, examine, hwrites]
  simp only [syncCalls_eq hcached, distribute, hgather, ret_bind, sendBatches, calls_bind, calls_sessions,
    run_sessions, calls_each]
  rfl

theorem receives_iff (hcached : s.world.workspace c.uuid = some wCache) (hwrites : event.writes = false) :
    Receives c me event s uid sid ↔
      uid ∈ audience wCache.dirs event ∧ sessionId c.uuid (s.world.presence uid) = some sid := by
  have hkeys : uid ∈ (enlist wCache event .empty).keys ↔ uid ∈ audience wCache.dirs event := by
    rw [mem_keys_enlist]
    exact or_iff_right not_mem_nil
  rw [← hkeys, ← mem_sessions]
  unfold Receives
  simp only [syncCalls_single hcached hwrites, cons_append, mem_cons, mem_append, mem_map]
  constructor
  · rintro ⟨t, events, hcall | ⟨_, _, hcall⟩ | ⟨entry, hentry, hcall⟩, -⟩
    · cases hcall
    · cases hcall
    · cases hcall
      exact hentry
  · intro hentry
    refine ⟨s, _, .inr (.inr ⟨(uid, sid), hentry, rfl⟩), ?_⟩
    rw [gathered_single, mem_replicate]
    exact ⟨Nat.ne_of_gt (count_pos_iff.mpr (hkeys.mp (mem_sessions.mp hentry).1)), rfl⟩

theorem audience_eq : audience wCache.dirs event =
    watchers wCache.dirs (if event.watchedPath = "/workspace" then "/workspace/" else event.watchedPath) := by
  unfold audience rooted
  split_ifs <;> rfl

theorem alike_iff_of_entry (hcached : s.world.workspace c.uuid = some wCache)
    (hdirs : wCache.dirs.get? path = some uids) :
    Alike c me path action s ↔ ∀ event : FSEvent, event.watchedPath = path → event.writes = false → ∀ uid,
        (sessionId c.uuid (s.world.presence uid)).isSome → (uid ∈ uids ↔ uid ∈ audience wCache.dirs event) := by
  unfold Alike
  rw [signalled_listed hcached hdirs]
  simp only [Option.some.injEq, exists_eq_left', mem_signals, mem_sessions]
  constructor
  · intro h event hpath hwrites uid hsession
    obtain ⟨sid, hsid⟩ := Option.isSome_iff_exists.mp hsession
    have hboth := h event hpath hwrites uid sid
    rw [receives_iff hcached hwrites] at hboth
    simpa only [hsid, and_true] using hboth
  · intro h event hpath hwrites uid sid
    rw [receives_iff hcached hwrites]
    apply and_congr_left
    intro hsid
    exact h event hpath hwrites uid (by simp [hsid])

end

/-- `signal` and `sync` reach the same sessions if and only if the path is listed as it is, or nothing is cached. -/
theorem alike_iff (c : Setting U) (me : InstanceId) (path : String) (action : Throttle) (s : Site.State U) :
    Alike c me path action s ↔ Listed c path s.world := by
  unfold Listed
  cases hcached : s.world.workspace c.uuid with
  | none =>
    refine iff_of_true ⟨[], signalled_uncached hcached, fun event _ _ uid sid => ?_⟩ (by simp)
    exact iff_of_false not_mem_nil (not_receives hcached)
  | some wCache =>
    simp only [Option.mem_some_iff, forall_eq']
    cases hdirs : wCache.dirs.get? path with
    | none => simp [Alike, signalled_unlisted hcached hdirs]
    | some uids =>
      rw [alike_iff_of_entry hcached hdirs]
      have huids : uids = watchers wCache.dirs path := by simp [watchers, hdirs]
      constructor
      · intro h
        refine ⟨rfl, fun hroot uid hsession => ?_⟩
        have hboth := h ⟨path, path, none, none, .create, 0, .file⟩ rfl rfl uid hsession
        rwa [audience_eq, if_pos hroot, huids, hroot] at hboth
      · rintro ⟨-, hroot⟩ event rfl - uid hsession
        rw [audience_eq, huids]
        split_ifs with hpath
        · rw [hpath]
          exact hroot hpath uid hsession
        · rfl

def rootDirs : Dict String (List String) := Dict.empty.set "/workspace/" ["alice"]

def rootWatched (docs : Dict Nat String) : World :=
  let workspace : CachedWorkspace := ⟨.active, "e1", rootDirs, docs, .empty⟩
  let world := attended .empty
  { world with workspace := Function.update world.workspace "w1" (some workspace) }

def created : FSEvent := ⟨"/workspace", "/workspace/notes", none, some 7, .create, 0, .file⟩

/-- Alice gets the events of the root, but when it is blocked or resumed `signal` throws, and so it does for a path
that nobody watches. -/
theorem unlike_rootWatched : let s : Site.State Nat := .start (rootWatched .empty) fun _ => []
    Receives w1 e1 created s "alice" "s1" ∧
    (∀ action, signalled w1 "/workspace" action s = none ∧ ¬Alike w1 e1 "/workspace" action s) ∧
    ∀ action, ¬Alike w1 e1 "/workspace/src" action s := by
  intro s
  have hthrows {path : String} (hdirs : rootDirs.get? path = none) (action : Throttle) : signalled w1 path action s = none :=
    signalled_unlisted rfl hdirs
  have hunlike {path : String} (hdirs : rootDirs.get? path = none) (action : Throttle) : ¬Alike w1 e1 path action s := by
    rintro ⟨sent, hsent, -⟩
    cases (hthrows hdirs action).symm.trans hsent
  refine ⟨(receives_iff rfl rfl).mpr ⟨by decide, by decide⟩, fun action => ⟨?_, ?_⟩, ?_⟩
  · exact hthrows (by decide) action
  · exact hunlike (by decide) action
  · exact hunlike (by decide)

end HideServer.Env.Events
