import HideServer.Async.Prog
import HideServer.Data.Dict
import Mathlib.Logic.Function.Basic

/-!
# The shared cache

The records in the cache, the keys that expire, the locks, the rows a membership check is answered
from, and the messages sent so far. A handler talks to it one atomic command at a time. Keys are the
very strings the code renders, since such a string comes back at an expiry.
-/

namespace HideServer.Cache

open Async Function

inductive Liveness where
  | active
  | inactive
  deriving DecidableEq, Repr

structure CachedSession where
  state : Liveness
  socketId : String
  gatewayId : String
  wsUuid : Option String
  deriving DecidableEq, Repr

/-- By session id. -/
abbrev CachedPresence := Dict String CachedSession

structure CachedWorkspace where
  state : Liveness
  /-- The env instance that watches the file system. -/
  fs : String
  /-- The users watching each path. -/
  dirs : Dict String (List String)
  /-- The env instance that holds each open document, by inode. -/
  docs : Dict Nat String
  /-- The env instance of the ssh connection of each session. -/
  sshs : Dict String String
  deriving DecidableEq

abbrev CachedMembership := Dict String Bool

def presenceSession (uid sessionId : String) : String := "presence:" ++ uid ++ ":" ++ sessionId

def presenceWorkspace (uid sessionId wsUuid : String) : String :=
  "presence:" ++ uid ++ ":" ++ sessionId ++ ":" ++ wsUuid

/-- What a template string makes of a value that may be undefined. -/
def rendered (value : Option String) : String := value.getD "undefined"

/-- A string that is neither undefined nor empty. -/
def given (value : Option String) : Option String := value.filter (· ≠ "")

structure Timer where
  value : Nat
  expires : Nat
  deriving DecidableEq, Repr

structure Lease where
  token : Nat
  expires : Nat
  deriving DecidableEq, Repr

inductive Message where
  /-- `socket.close`, to the gateway that holds the socket. -/
  | socketClose (gatewayId socketId : String)
  /-- `disconnect`, with code `INACTIVE_TIMEOUT`. -/
  | inactiveTimeout (uid sessionId : String)
  /-- `disconnect`, with code `WORKSPACE_DELETED`. -/
  | workspaceDeleted (uid sessionId : String)
  | awareness (uid sessionId : String) (uids : List String)
  | watchAdd (uuid path : String)
  | watchRemove (uuid path : String)
  /-- `conn.client.end()`, for the connection that an env instance holds of a user to a workspace, if it holds one. -/
  | connEnd (instanceId uid uuid : String)
  | fsLost (ino : Nat)
  | sshClosed (sshSessionId : String)
  /-- An error answered to the socket, by its code. -/
  | socketError (code : String)
  /-- A message passed on to an env instance, or to any of them. -/
  | toEnv (instanceId : Option String)
  deriving DecidableEq, Repr

inductive Request where
  | dispose (uuid : String)
  | ready (uuid : String)
  | affine (uuid envId : String)
  | dir (uuid path : String)
  | health (instanceId : String)
  deriving DecidableEq, Repr

/-- All that handlers share. -/
structure World where
  now : Nat
  presence : String → Option CachedPresence
  workspace : String → Option CachedWorkspace
  membership : String → Option CachedMembership
  timers : String → Option Timer
  locks : String → Option Lease
  token : Nat
  announced : List String
  /-- The user has a membership row for the workspace. -/
  rows : String → String → Bool
  sent : List Message
  requests : List Request

def World.empty : World where
  now := 0
  presence _ := none
  workspace _ := none
  membership _ := none
  timers _ := none
  locks _ := none
  token := 0
  announced := []
  rows _ _ := false
  sent := []
  requests := []

/-- What changes besides the commands of handlers: time passes, and rows of the membership table come and go. -/
inductive Change where
  | wait (ms : Nat)
  | setRow (uid uuid : String) (member : Bool)
  deriving DecidableEq, Repr

def World.change (w : World) : Change → World
  | .wait ms => { w with now := w.now + ms }
  | .setRow uid uuid member => { w with rows := update w.rows uid (update (w.rows uid) uuid member) }

@[simp] theorem World.change_membership (w : World) (change : Change) :
    (w.change change).membership = w.membership := by
  cases change <;> rfl

@[simp] theorem World.change_workspace (w : World) (change : Change) : (w.change change).workspace = w.workspace := by
  cases change <;> rfl

@[simp] theorem World.change_presence (w : World) (change : Change) : (w.change change).presence = w.presence := by
  cases change <;> rfl

inductive Cmd where
  | getPresence (uid : String)
  | setPresence (uid : String) (presence : CachedPresence)
  | delPresence (uid : String)
  | getWorkspace (uuid : String)
  | setWorkspace (uuid : String) (workspace : CachedWorkspace)
  | delWorkspace (uuid : String)
  | getMembership (uid : String)
  | setMembership (uid : String) (membership : CachedMembership)
  | delMembership (uid : String)
  | setTimer (key : String) (value ttl : Nat)
  | delTimer (key : String)
  /-- Acquire a lock for a time, or give up; the answer is the token of the lock. -/
  | acquire (key : String) (duration : Nat)
  | release (key : String) (token : Nat)
  /-- `workspace.membership.check`; it fails without a row, and may fail (`served`) for other reasons. -/
  | membershipCheck (uid uuid : String) (served : Bool)
  /-- `ok` says whether the request succeeds. -/
  | fetch (request : Request) (ok : Bool)
  | emit (message : Message)
  deriving DecidableEq

/-- What each command is answered. -/
abbrev Cmd.Answer : Cmd → Type
  | .getPresence _ => Option CachedPresence
  | .getWorkspace _ => Option CachedWorkspace
  | .getMembership _ => Option CachedMembership
  | .acquire .. => Option Nat
  | .membershipCheck .. => Bool
  | .fetch .. => Bool
  | _ => Unit

def exec : (cmd : Cmd) → World → cmd.Answer × World
  | .getPresence uid, w => (w.presence uid, w)
  | .setPresence uid presence, w => ((), { w with presence := update w.presence uid (some presence) })
  | .delPresence uid, w => ((), { w with presence := update w.presence uid none })
  | .getWorkspace uuid, w => (w.workspace uuid, w)
  | .setWorkspace uuid workspace, w => ((), { w with workspace := update w.workspace uuid (some workspace) })
  | .delWorkspace uuid, w => ((), { w with workspace := update w.workspace uuid none })
  | .getMembership uid, w => (w.membership uid, w)
  | .setMembership uid membership, w =>
    ((), { w with membership := update w.membership uid (some membership) })
  | .delMembership uid, w => ((), { w with membership := update w.membership uid none })
  | .setTimer key value ttl, w => ((), { w with timers := update w.timers key (some ⟨value, w.now + ttl⟩) })
  | .delTimer key, w => ((), { w with timers := update w.timers key none })
  | .acquire key duration, w =>
    if (w.locks key).any fun lease => w.now < lease.expires then (none, w)
    else (some w.token,
      { w with locks := update w.locks key (some ⟨w.token, w.now + duration⟩), token := w.token + 1 })
  | .release key token, w =>
    if (w.locks key).any fun lease => lease.token = token then ((), { w with locks := update w.locks key none })
    else ((), w)
  | .membershipCheck uid uuid served, w => (served && w.rows uid uuid, w)
  | .fetch request ok, w => (ok, { w with requests := w.requests ++ [request] })
  | .emit message, w => ((), { w with sent := w.sent ++ [message] })

abbrev Io := Prog Cmd Cmd.Answer

abbrev ask (cmd : Cmd) : Io cmd.Answer := Prog.perform cmd

section

variable {α : Type} {key : String} {duration : Nat} {f : Option Nat → Io α} {ok : Cmd → Prop}

theorem safe_acquire {good : (cmd : Cmd) → cmd.Answer → Prop} {post : α → Prop} (hok : ok (.acquire key duration))
    (hnone : (f none).Safe ok good post) (hsome : ∀ token, (f (some token)).Safe ok good post) :
    (ask (.acquire key duration) >>= f).Safe ok good post := by
  refine .perform_bind hok fun lock _ => ?_
  cases lock with
  | none => exact hnone
  | some token => exact hsome token

end

end HideServer.Cache
