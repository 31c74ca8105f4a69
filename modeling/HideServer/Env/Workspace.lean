import HideServer.Gateway.Presence

/-!
# The workspaces of an env instance

Opening and closing an environment, and the routines that keep the cached record of a workspace. Every
one of them reads the whole record and writes it back.
-/

namespace HideServer.Env

open Async Cache

def workspaceLock (uuid : String) : String := "locks:workspace:" ++ uuid

def watching (workspace : CachedWorkspace) (uid path : String) : CachedWorkspace :=
  { workspace with dirs := workspace.dirs.set path (((workspace.dirs.get? path).getD [] ++ [uid]).eraseDups) }

/-- `watchers.splice(watchers.indexOf(uid), 1)`: without the user, it is the last one that goes. -/
def splice (watchers : List String) (uid : String) : List String :=
  if uid ∈ watchers then watchers.erase uid else watchers.dropLast

/-- A list that is empty is deleted. -/
def setWatchers (workspace : CachedWorkspace) (path : String) (watchers : List String) : CachedWorkspace :=
  { workspace with dirs := if watchers = [] then workspace.dirs.erase path else workspace.dirs.set path watchers }

def unwatching (workspace : CachedWorkspace) (uid path : String) : CachedWorkspace :=
  match workspace.dirs.get? path with
  | none => workspace
  | some watchers => if uid ∈ watchers then setWatchers workspace path (splice watchers uid) else workspace

/-- The path has no watchers any more. -/
def unwatched (workspace after : CachedWorkspace) (path : String) : Bool :=
  (workspace.dirs.get? path).isSome && (after.dirs.get? path).isNone

namespace FSService

/-- The daemon is told so. -/
def unwatch (wsUuid path : String) (workspace after : CachedWorkspace) : Io Unit :=
  if unwatched workspace after path then ask (.emit (.watchRemove wsUuid path)) else return ()

def updated (uid path : String) (add : Bool) (workspace : CachedWorkspace) : CachedWorkspace :=
  if add then watching workspace uid path else unwatching workspace uid path

def updateCache (uid wsUuid path : String) (add : Bool) : Io Unit := do
  let cached : Option CachedWorkspace ← ask (.getWorkspace wsUuid)
  match cached with
  | none => return ()
  | some workspace =>
    unwatch wsUuid path workspace (updated uid path add workspace)
    ask (.setWorkspace wsUuid (updated uid path add workspace))

/-- `listed` says whether the directory can be listed. -/
def openDir (uid uuid path : String) (listed : Bool) : Io Unit := do
  ask (.emit (.watchAdd uuid path))
  let ok : Bool ← ask (.fetch (.dir uuid path) listed)
  if ok then updateCache uid uuid path true

def closeDir (uid wsUuid path : String) : Io Unit := updateCache uid wsUuid path false

def closeDirs (uid wsUuid : String) (paths : List String) (workspace : CachedWorkspace) : Io CachedWorkspace :=
  match paths with
  | [] => return workspace
  | path :: paths => do
    let after := setWatchers workspace path (splice ((workspace.dirs.get? path).getD []) uid)
    unwatch wsUuid path workspace after
    closeDirs uid wsUuid paths after

end FSService

namespace SyncService

def updated (instanceId : String) (ino : Nat) (add : Bool) (workspace : CachedWorkspace) : CachedWorkspace :=
  { workspace with docs := if add then workspace.docs.set ino instanceId else workspace.docs.erase ino }

/-- `SyncService.updateCache`. -/
def updateCache (instanceId uuid : String) (ino : Nat) (add : Bool) : Io Unit := do
  let cached : Option CachedWorkspace ← ask (.getWorkspace uuid)
  match cached with
  | none => return ()
  | some workspace => ask (.setWorkspace uuid (updated instanceId ino add workspace))

end SyncService

namespace SSHProxyService

def updated (instanceId sessionId : String) (add : Bool) (workspace : CachedWorkspace) : CachedWorkspace :=
  { workspace with sshs := if add then workspace.sshs.set sessionId instanceId else workspace.sshs.erase sessionId }

def updateConnCache (instanceId sessionId wsUuid : String) (add : Bool) : Io Unit := do
  let cached : Option CachedWorkspace ← ask (.getWorkspace wsUuid)
  match cached with
  | none => return ()
  | some workspace => ask (.setWorkspace wsUuid (updated instanceId sessionId add workspace))

/-- `handleSSHClose` with `#all` for the session. -/
def handleSSHClose (instanceId uid sessionId wsUuid : String) : Io Unit := do
  ask (.emit (.connEnd instanceId uid wsUuid))
  updateConnCache instanceId sessionId wsUuid false

end SSHProxyService

/-- The paths that a user watches. -/
def watchedBy (workspace : CachedWorkspace) (uid : String) : List String :=
  (workspace.dirs.entries.filter fun entry => uid ∈ entry.2).map Prod.fst

def unbound (presence : CachedPresence) (uuid : String) : CachedPresence :=
  presence.mapValues fun session => if session.wsUuid = some uuid then { session with wsUuid := none } else session

def boundTo (presence : CachedPresence) (uuid : String) : List String :=
  (presence.entries.filter fun entry => entry.2.wsUuid = some uuid).map Prod.fst

def invalidatePreviousSessions (uid uuid : String) : Io Unit := do
  let cached : Option CachedPresence ← ask (.getPresence uid)
  match cached with
  | none => return ()
  | some presence =>
    Prog.each (boundTo presence uuid) fun sessionId => ask (.delTimer (presenceWorkspace uid sessionId uuid))
    ask (.setPresence uid (unbound presence uuid))
    let workspace : Option CachedWorkspace ← ask (.getWorkspace uuid)
    match workspace with
    | none => return ()
    | some workspace =>
      let after ← FSService.closeDirs uid uuid (watchedBy workspace uid) workspace
      ask (.setWorkspace uuid after)

/-- The record an instance finds or makes, if it has to be written back. -/
def readied (instanceId : String) (cached : Option CachedWorkspace) : Option CachedWorkspace :=
  match cached with
  | none => some ⟨.active, instanceId, .empty, .empty, .empty⟩
  | some workspace => if workspace.dirs.entries = [] then some { workspace with fs := instanceId } else none

/-- The part of `handleEnvReady` under the lock; `false` if it fails. -/
def claimWorkspace (instanceId uid uuid : String) (affine : Bool) : Io Bool := do
  invalidatePreviousSessions uid uuid
  let cached : Option CachedWorkspace ← ask (.getWorkspace uuid)
  match readied instanceId cached with
  | none => return true
  | some workspace =>
    let ok : Bool ← ask (.fetch (.affine uuid instanceId) affine)
    if !ok then return false
    ask (.setWorkspace uuid workspace)
    return true

/-- The end of `handleEnvReady`; `false` if it throws. -/
def bindSession (uid sessionId uuid : String) : Io Bool := do
  let cached : Option CachedPresence ← ask (.getPresence uid)
  match cached with
  | none => return true
  | some presence =>
    if (presence.get? sessionId).isNone then return false
    ask (.setPresence uid (presence.modify sessionId ({ · with wsUuid := some uuid })))
    return true

/-- `ready` and `affine` say whether the daemon of the workspace answers. -/
def handleEnvReady (instanceId uid sessionId uuid : String) (ready affine : Bool) : Io Unit := do
  let reachable : Bool ← ask (.fetch (.ready uuid) ready)
  if !reachable then return ()
  let lock : Option Nat ← ask (.acquire (workspaceLock uuid) (10 * 1000))
  match lock with
  | none => return ()
  | some token =>
    let claimed ← claimWorkspace instanceId uid uuid affine
    ask (.release (workspaceLock uuid) token)
    if !claimed then return ()
    let bound ← bindSession uid sessionId uuid
    if !bound then return ()
    ask (.setTimer (presenceWorkspace uid sessionId uuid) 1 20000)

/-- A workspace in which nothing is open any more is marked for de-provisioning. -/
def markIdle (wsActivity : Nat) (uid sessionId uuid : String) : Io Unit := do
  let cached : Option CachedWorkspace ← ask (.getWorkspace uuid)
  match cached with
  | none => return ()
  | some workspace =>
    if workspace.dirs.entries = [] then
      ask (.setWorkspace uuid { workspace with state := .inactive })
      ask (.setTimer (presenceWorkspace uid sessionId uuid) 0 wsActivity)

/-- Close what the user has open. A path always starts with the root, so the test for an empty one is left out. -/
def closeAll (wsActivity : Nat) (instanceId uid sessionId uuid : String) : Io Unit := do
  let cached : Option CachedWorkspace ← ask (.getWorkspace uuid)
  match cached with
  | none => return ()
  | some workspace =>
    SSHProxyService.handleSSHClose instanceId uid sessionId uuid
    Prog.each (watchedBy workspace uid) fun path => FSService.closeDir uid uuid path
    markIdle wsActivity uid sessionId uuid

/-- `handleEnvClose`, under the lock. -/
def leaveWorkspace (wsActivity : Nat) (instanceId uid uuid : String) : Io Unit := do
  let cached : Option CachedPresence ← ask (.getPresence uid)
  match cached with
  | none => return ()
  | some presence =>
    match Gateway.boundSession presence uuid with
    | none => return ()
    | some sessionId =>
      ask (.setPresence uid (presence.modify sessionId ({ · with wsUuid := none })))
      ask (.delTimer (presenceWorkspace uid sessionId uuid))
      closeAll wsActivity instanceId uid sessionId uuid

def handleEnvClose (wsActivity : Nat) (instanceId uid uuid : String) (served : Bool) : Io Unit := do
  let isMember : Bool ← ask (.membershipCheck uid uuid served)
  if !isMember then return ()
  let lock : Option Nat ← ask (.acquire (workspaceLock uuid) (10 * 1000))
  match lock with
  | none => return ()
  | some token =>
    leaveWorkspace wsActivity instanceId uid uuid
    ask (.release (workspaceLock uuid) token)

end HideServer.Env
