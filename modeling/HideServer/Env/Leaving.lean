import HideServer.Async.Triple
import HideServer.Cache.Tidy

/-!
# What a user leaves behind

`handleEnvClose` takes the user from the directories of the record and drops the entry of the session
under `sshs`; it ends the connection of its own instance and closes no document. A connection that
another one has replaced in the table stays open (`Connections.closes_another`).
-/

namespace HideServer.Env.Leaving

open Async Async.Prog Function FSService
open Cache hiding exec

structure State where
  world : World
  /-- The users of the documents that each instance keeps of each workspace, by inode. -/
  users : String → String → Nat → List String
  /-- The session of the ssh connection in the table of each instance for each user and workspace. -/
  conns : String → String → String → Option String

/-- The table of the instance without its connection of the user to the workspace. -/
def State.endConn (s : State) (instanceId uid uuid : String) : State :=
  { s with
    conns := update s.conns instanceId (update (s.conns instanceId) uid (update (s.conns instanceId uid) uuid none)) }

/-- A command of the cache; the end of a connection takes it from the table as well. -/
def exec (cmd : Cmd) (s : State) : cmd.Answer × State :=
  let after : State := { s with world := (Cache.exec cmd s.world).2 }
  ((Cache.exec cmd s.world).1,
    match cmd with
    | .emit (.connEnd instanceId uid uuid) => after.endConn instanceId uid uuid
    | _ => after)

/-- The state after the request to close the environment, which the instance takes alone. -/
def closed (wsActivity : Nat) (instanceId uid uuid : String) (served : Bool) (s : State) : State :=
  (run exec (handleEnvClose wsActivity instanceId uid uuid served) s).2

/-- The session that the user has bound to the workspace. -/
def State.session (s : State) (uid uuid : String) : Option String :=
  (s.world.presence uid).bind (Gateway.boundSession · uuid)

/-- The record names neither the user at a directory nor the session under `sshs`. -/
def Unlisted (uid : String) (session : Option String) (workspace : CachedWorkspace) : Prop :=
  (∀ path uids, workspace.dirs.get? path = some uids → uid ∉ uids) ∧
  ∀ sessionId ∈ session, workspace.sshs.get? sessionId = none

/-- The request is that of a member who has a session in the workspace, which is cached, and nobody holds the lock. -/
def Proceeds (uid uuid : String) (served : Bool) (s : State) : Prop :=
  (served && s.world.rows uid uuid) = true ∧
  ((s.world.locks (workspaceLock uuid)).any fun lease => s.world.now < lease.expires) = false ∧
  (s.session uid uuid).isSome ∧ (s.world.workspace uuid).isSome

/-- No document has the user and no other instance has a connection; and the request goes through, or there is
nothing to do. -/
def Leaves (instanceId uid uuid : String) (served : Bool) (s : State) : Prop :=
  (∀ other ino, uid ∉ s.users other uuid ino) ∧
  (∀ other, s.conns other uid uuid ≠ none → other = instanceId ∧ Proceeds uid uuid served s) ∧
  (Proceeds uid uuid served s ∨ ∀ workspace ∈ s.world.workspace uuid, Unlisted uid (s.session uid uuid) workspace)

section

variable {workspace : CachedWorkspace} {uid path other : String} {uids : List String}

end

section

variable {uid uuid sessionId : String}

end

section

variable {uid uuid sessionId : String} {served : Bool} {s : State} {workspace : CachedWorkspace}

theorem world_exec (cmd : Cmd) (s : State) : (exec cmd s).2.world = (Cache.exec cmd s.world).2 := by
  unfold exec
  split <;> rfl

/-- The command ends no connection. -/
def Spares : Cmd → Prop
  | .emit (.connEnd ..) => False
  | _ => True

variable (wsActivity : Nat) (instanceId : String)

/-- The state once the lock of the workspace is taken. -/
def State.locked (s : State) (uuid : String) : State :=
  { s with world := (Cache.exec (.acquire (workspaceLock uuid) (10 * 1000)) s.world).2 }

end

/-- The service after a run of the caches, with any documents and connections. -/
def reached (t : Gateway.Timeouts) (wsActivity : Nat) (w : World) (actions : List (Action Tidy.Op World))
    (users : String → String → Nat → List String) (conns : String → String → String → Option String) : State :=
  ⟨(Trace.run (Tidy.step t wsActivity) (Tidy.start w) actions).shared, users, conns⟩

def opened : List (Action Tidy.Op World) :=
  .spawn (.connect "alice" "s1" "c1" "g1") :: List.replicate 6 (.resume 0) ++
    .spawn (.envReady "e1" "alice" "s1" "w1" true true) :: List.replicate 12 (.resume 1) ++
    .spawn (.openDir "alice" "w1" "/workspace/" true) :: List.replicate 4 (.resume 2)

end HideServer.Env.Leaving
