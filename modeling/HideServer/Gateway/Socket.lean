import HideServer.Gateway.Presence

/-!
# The sockets of a gateway

Connecting, disconnecting, messages and announced expiries. The lock of a disconnection that finds no
session is left to lapse, and so is that of an expiry that fails half way.
-/

namespace HideServer.Gateway

open Async Cache

def lockDuration : Nat := 10 * 1000

def sessionLock (uid sessionId : String) : String := "locks:" ++ uid ++ ":" ++ sessionId

/-- The session as a new connection makes it, bound to the workspace it was bound to before. -/
def connected (session : Option CachedSession) (socketId gatewayId : String) : CachedSession :=
  ⟨.active, socketId, gatewayId, session.bind (·.wsUuid)⟩

def replaceSocket (session : Option CachedSession) : Io Unit :=
  match session with
  | none => return ()
  | some session =>
    if session.socketId ≠ "" ∧ session.gatewayId ≠ "" then ask (.emit (.socketClose session.gatewayId session.socketId))
    else return ()

variable (t : Timeouts) (uid sessionId : String)

def touchWorkspace (wsUuid : Option String) (state : Liveness) : Io Unit := do
  let workspace : Option CachedWorkspace ← ask (.getWorkspace (rendered wsUuid))
  setWorkspaceState t workspace uid sessionId wsUuid state

/-- `handleConnection`, for a socket whose token is that of the user. -/
def handleConnection (uid sessionId socketId gatewayId : String) : Io Unit := do
  let lock : Option Nat ← ask (.acquire (sessionLock uid sessionId) lockDuration)
  match lock with
  | none => return ()
  | some token =>
    let cached : Option CachedPresence ← ask (.getPresence uid)
    let presence := cached.getD .empty
    let old := presence.get? sessionId
    replaceSocket old
    let _ ← setSessionState t (presence.set sessionId (connected old socketId gatewayId)) uid sessionId .active
    touchWorkspace t uid sessionId (old.bind (·.wsUuid)) .active
    ask (.release (sessionLock uid sessionId) token)

def handleDisconnect : Io Unit := do
  let lock : Option Nat ← ask (.acquire (sessionLock uid sessionId) lockDuration)
  match lock with
  | none => return ()
  | some token =>
    let cached : Option CachedPresence ← ask (.getPresence uid)
    match cached with
    | none => return ()
    | some presence =>
      match presence.get? sessionId with
      | none => return ()
      | some session =>
        let _ ← setSessionState t presence uid sessionId .inactive
        touchWorkspace t uid sessionId session.wsUuid .inactive
        ask (.release (sessionLock uid sessionId) token)

/-- A `session.ping` from a socket. A socket without a session is closed. -/
def handlePing (uuid : Option String) (served : Bool) : Io Unit := do
  let cached : Option CachedPresence ← ask (.getPresence uid)
  match cached with
  | none => ask (.emit (.socketError "NO_SESSION"))
  | some presence =>
    if (presence.get? sessionId).isNone then ask (.emit (.socketError "NO_SESSION"))
    else
      match ← handlePresenceMessage t uid sessionId presence uuid served with
      | none => return ()
      | some uids => ask (.emit (.awareness uid sessionId uids))

def split (key : String) : List String := (key.toList.splitOn ':').map String.ofList

def handleStaleKey (key : String) (disposed : Bool) : Io Bool :=
  if (split key).head? = some "presence" then handleStalePresence t (split key).tail disposed else return true

/-- A key has expired. Of the gateways that are told, one that does not get the lock gives up. -/
def handleCacheExpiry (key : String) (disposed : Bool) : Io Unit := do
  let lock : Option Nat ← ask (.acquire ("locks:" ++ key) lockDuration)
  match lock with
  | none => return ()
  | some token =>
    let ok ← handleStaleKey t key disposed
    if ok then ask (.release ("locks:" ++ key) token)

/-- The actions that go to the instance that holds what they are about. -/
inductive Sticky where
  /-- `fs.sync`, `fs.open.ack` and `fs.conflict.resolve`. -/
  | doc (ino : Nat)
  /-- `ssh.data` and `ssh.close`. -/
  | ssh (sshSessionId : String)
  /-- `ws.run`. -/
  | run
  deriving DecidableEq, Repr

variable (workspace : CachedWorkspace)

def Sticky.instance (sessionId : String) : Sticky → Option String
  | .doc ino => workspace.docs.get? ino
  | .ssh _ => workspace.sshs.get? sessionId
  | .run => some workspace.fs

def handleFSLoss (wsUuid : String) (ino : Nat) : Io Unit := do
  ask (.setWorkspace wsUuid { workspace with docs := workspace.docs.erase ino })
  ask (.emit (.fsLost ino))

def handleSSHSLoss (sessionId wsUuid sshSessionId : String) : Io Unit := do
  ask (.setWorkspace wsUuid { workspace with sshs := workspace.sshs.erase sessionId })
  ask (.emit (.sshClosed sshSessionId))

/-- What follows when this instance does not answer. -/
def handleLoss (sessionId wsUuid : String) : Sticky → Io Unit
  | .doc ino => handleFSLoss workspace wsUuid ino
  | .ssh sshSessionId => handleSSHSLoss workspace sessionId wsUuid sshSessionId
  | .run => ask (.emit (.socketError "WS_NOT_REACHABLE"))

/-- `sticky` is `none` for the actions that any instance can take. -/
def handleEnvMessage (uid sessionId uuid : String) (sticky : Option Sticky) (served healthy : Bool) : Io Unit := do
  let cached : Option CachedWorkspace ← ask (.getWorkspace uuid)
  match cached with
  | none => ask (.emit (.socketError "NO_WORKSPACE"))
  | some workspace =>
    match ← checkMembership uid uuid served with
    | some true =>
      match sticky with
      | none => ask (.emit (.toEnv none))
      | some sticky =>
        let instanceId := sticky.instance workspace sessionId
        let answered : Bool ← ask (.fetch (.health (rendered instanceId)) healthy)
        if answered then ask (.emit (.toEnv instanceId)) else handleLoss workspace sessionId uuid sticky
    | some false => ask (.emit (.socketError "NOT_A_MEMBER"))
    | none => return ()

end HideServer.Gateway
