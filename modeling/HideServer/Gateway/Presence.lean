import HideServer.Gateway.Membership

/-!
# The presence service of a gateway

A session has a record in the presence of its user and a key that expires, and a second key for a
workspace it has open. The first expiry starts a longer period; the second one removes.
-/

namespace HideServer.Gateway

open Async Cache

structure Timeouts where
  wsPing : Nat
  wsActivity : Nat
  sessionPing : Nat
  sessionActivity : Nat

def Timeouts.default : Timeouts := ⟨20000, 300000, 20000, 360000⟩

variable (t : Timeouts) (uid sessionId : String)

/-- The flag of a session is written, and then its key. -/
def setSessionState (presence : CachedPresence) (uid sessionId : String) (state : Liveness) : Io CachedPresence := do
  let presence := presence.modify sessionId ({ · with state := state })
  ask (.setPresence uid presence)
  match state with
  | .inactive => ask (.setTimer (presenceSession uid sessionId) 0 t.sessionActivity)
  | .active => ask (.setTimer (presenceSession uid sessionId) 1 t.sessionPing)
  return presence

/-- The flag of a workspace is written, and then the key of the session for it. -/
def setWorkspaceState (workspace : Option CachedWorkspace) (uid sessionId : String)
    (wsUuid : Option String) (state : Liveness) : Io Unit :=
  match workspace, given wsUuid with
  | some workspace, some wsUuid => do
    ask (.setWorkspace wsUuid { workspace with state := state })
    match state with
    | .inactive => ask (.setTimer (presenceWorkspace uid sessionId wsUuid) 0 t.wsActivity)
    | .active => ask (.setTimer (presenceWorkspace uid sessionId wsUuid) 1 t.wsPing)
  | _, _ => return ()

def refreshWorkspace (bound uuid : Option String) (served : Bool) : Io (Option (List String)) :=
  match given bound with
  | none => return none
  | some wsUuid => do
    if uuid ≠ some wsUuid then return none
    match ← checkMembership uid wsUuid served with
    | some true =>
      let workspace : Option CachedWorkspace ← ask (.getWorkspace wsUuid)
      setWorkspaceState t workspace uid sessionId (some wsUuid) .active
      return workspace.bind (·.dirs.get? "/workspace/")
    | _ => return none

/-- `session.ping`. The answer lists the users at the root of the workspace. -/
def handlePresenceMessage (presence : CachedPresence)
    (uuid : Option String) (served : Bool) : Io (Option (List String)) := do
  let presence ← setSessionState t presence uid sessionId .active
  refreshWorkspace t uid sessionId ((presence.get? sessionId).bind (·.wsUuid)) uuid served

/-- The first session bound to the workspace. -/
def boundSession (presence : CachedPresence) (wsUuid : String) : Option String :=
  given ((presence.entries.find? fun entry => entry.2.wsUuid = some wsUuid).map Prod.fst)

theorem boundSession_some {presence : CachedPresence} {sessionId wsUuid : String}
    (h : boundSession presence wsUuid = some sessionId) :
    sessionId ≠ "" ∧ ∃ session, presence.get? sessionId = some session ∧ session.wsUuid = some wsUuid := by
  obtain ⟨hfound, hne⟩ := Option.filter_eq_some_iff.mp h
  obtain ⟨entry, hentry, rfl⟩ := Option.map_eq_some_iff.mp hfound
  have hws : entry.2.wsUuid = some wsUuid := by simpa using List.find?_some hentry
  exact ⟨of_decide_eq_true hne, entry.2, Dict.mem_entries.mp (List.mem_of_find?_eq_some hentry), hws⟩

/-- The users that have a session bound to the workspace, each with the first such session. -/
def boundSessions (wsUuid : String) (uids : List String) : Io (List (String × String)) :=
  match uids with
  | [] => return []
  | uid :: uids => do
    let presence : Option CachedPresence ← ask (.getPresence uid)
    let rest ← boundSessions wsUuid uids
    match presence.bind (boundSession · wsUuid) with
    | none => return rest
    | some sessionId => return (uid, sessionId) :: rest

/-- The watchers of a workspace lose their keys and are told. -/
def notifyExpiry (wsUuid : String) (workspace : Option CachedWorkspace) : Io Unit :=
  match workspace with
  | none => return ()
  | some workspace => do
    let sessions ← boundSessions wsUuid (workspace.dirs.entries.flatMap Prod.snd).eraseDups
    Prog.each sessions fun session => ask (.delTimer (presenceWorkspace session.1 session.2 wsUuid))
    Prog.each sessions fun session => ask (.emit (.inactiveTimeout session.1 session.2))

/-- `disposed` says whether the provisioner can be reached; if it cannot, the handler fails. -/
def handleWorkspaceExpiry (wsUuid : String) (disposed : Bool) : Io Bool := do
  let workspace : Option CachedWorkspace ← ask (.getWorkspace wsUuid)
  notifyExpiry wsUuid workspace
  ask (.delWorkspace wsUuid)
  ask (.fetch (.dispose wsUuid) disposed)

/-- The presence goes with its last session. -/
def dropSession (presence : CachedPresence) (uid sessionId : String) : Io Unit :=
  let presence := presence.erase sessionId
  if presence.entries = [] then ask (.delPresence uid) else ask (.setPresence uid presence)

def handleSessionExpiry (presence : CachedPresence) (uid sessionId : String)
    (session : CachedSession) (disposed : Bool) : Io Bool := do
  ask (.emit (.socketClose session.gatewayId session.socketId))
  match given session.wsUuid with
  | none =>
    dropSession presence uid sessionId
    return true
  | some wsUuid =>
    let ok ← handleWorkspaceExpiry wsUuid disposed
    if !ok then return false
    dropSession presence uid sessionId
    return true

/-- The workspace of a session that becomes inactive becomes inactive too. -/
def idleWorkspace (wsUuid : Option String) : Io Unit :=
  match given wsUuid with
  | none => return ()
  | some wsUuid => do
    let workspace : Option CachedWorkspace ← ask (.getWorkspace wsUuid)
    setWorkspaceState t workspace uid sessionId (some wsUuid) .inactive

def handleStaleSession (disposed : Bool) : Io Bool := do
  let presence : Option CachedPresence ← ask (.getPresence uid)
  match presence with
  | none => return true
  | some presence =>
    match presence.get? sessionId with
    | none => return true
    | some session =>
      match session.state with
      | .active =>
        idleWorkspace t uid sessionId session.wsUuid
        let _ ← setSessionState t presence uid sessionId .inactive
        return true
      | .inactive => handleSessionExpiry presence uid sessionId session disposed

def handleStaleWorkspace (uid sessionId wsUuid : String) (disposed : Bool) : Io Bool := do
  let workspace : Option CachedWorkspace ← ask (.getWorkspace wsUuid)
  match workspace with
  | none => return true
  | some workspace =>
    match workspace.state with
    | .active =>
      setWorkspaceState t (some workspace) uid sessionId (some wsUuid) .inactive
      return true
    | .inactive => handleWorkspaceExpiry wsUuid disposed

def handleStalePresence (parts : List String) (disposed : Bool) : Io Bool :=
  match given parts[2]? with
  | none => handleStaleSession t (rendered parts[0]?) (rendered parts[1]?) disposed
  | some wsUuid => handleStaleWorkspace t (rendered parts[0]?) (rendered parts[1]?) wsUuid disposed

end HideServer.Gateway
