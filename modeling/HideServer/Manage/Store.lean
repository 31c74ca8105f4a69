import HideServer.Async.Prog
import HideServer.Db.Table
import HideServer.Data.Dict

/-!
# The workspace service's records

Workspaces and memberships as the database keeps them, the transactions on them, and the messages. A
transaction that breaks a key, a reference or the room of a column is rolled back, and so is one that
the database fails for reasons of its own.
-/

namespace HideServer.Manage

open Async

inductive Role where
  | member
  | admin
  | owner
  deriving DecidableEq, Repr

def Role.level : Role → Nat
  | .member => 0
  | .admin => 1
  | .owner => 2

inductive WorkspaceStatus where
  | provisioning
  | ready
  | deprovisioning
  | cold
  | deleting
  deriving DecidableEq, Repr

structure Workspace where
  uuid : String
  image : String
  name : String
  description : String
  status : WorkspaceStatus
  dedicated : Bool
  deriving DecidableEq, Repr

inductive Message where
  | invite (inviteeId inviterId workspaceUUID notificationId : String)
  | membershipRemoved (uid actorId workspaceUUID name : String)
  | notificationRead (uid notificationId : String)
  /-- The socket messages `members.modified` and `disconnect`. -/
  | socketModified (uid sessionId uuid : String)
  | socketDisconnect (uid sessionId : String)
  | membersModified (uuid : String) (added removed : List String)
  | workspaceDeleted (uuid : String) (members : List String)
  | deprovision (uuid : String)
  /-- What is cleared in the presence cache: the workspace key of a session, and the session's binding. -/
  | unbind (uid sessionId uuid : String)
  | dropWorkspaceCache (uuid : String)
  deriving DecidableEq, Repr

/-- The two tables, and the messages sent. -/
structure Store where
  workspaces : Db.Table Workspace
  memberships : Dict (Nat × String) Role
  sent : List Message

def Store.empty : Store := ⟨.empty, .empty, []⟩

inductive Write where
  | create (workspace : Workspace) (owner : String)
  | saveWorkspace (id : Nat) (workspace : Workspace)
  | saveMembership (workspaceId : Nat) (userId : String) (role : Role)
  | deleteMembership (workspaceId : Nat) (userId : String)
  | deleteMembershipsOf (workspaceId : Nat)
  | deleteMembershipsBy (userId : String)
  | deleteWorkspace (uuid : String)
  deriving DecidableEq, Repr

/-- A text in a column of at most `limit` characters: blanks past the limit are cut off, anything else there is refused. -/
def varchar (limit : Nat) (text : String) : Option String :=
  if text.toList.length ≤ limit then some text
  else if (text.toList.drop limit).all (· = ' ') then some (String.ofList (text.toList.take limit)) else none

/-- The row of a new workspace. The constructor leaves empty texts out, and no column may be left out. -/
def Workspace.inserted (workspace : Workspace) : Option Workspace :=
  if workspace.image = "" ∨ workspace.name = "" ∨ workspace.description = "" then none
  else do
    let image ← varchar 50 workspace.image
    let name ← varchar 30 workspace.name
    return { workspace with image := image, name := name }

/-- The row of a workspace that is saved over `row`: a name is written only if it is a new one. -/
def Workspace.saved (workspace : Workspace) (row : Option Workspace) : Option Workspace :=
  if row.any (·.name = workspace.name) then some workspace
  else (varchar 30 workspace.name).map fun name => { workspace with name := name }

/-- Memberships are saved by primary key: a row that exists is overwritten. -/
def Store.saveMembership (s : Store) (workspaceId : Nat) (userId : String) (role : Role) : Option Store :=
  if userId = "" ∨ s.workspaces.rows workspaceId = none then none
  else some { s with memberships := s.memberships.set (workspaceId, userId) role }

/-- One statement of a transaction; `none` if it violates a constraint. -/
def Write.apply (s : Store) : Write → Option Store
  | .create workspace owner =>
    if s.workspaces.others s.workspaces.next fun row => row.uuid = workspace.uuid then none
    else do
      let row ← workspace.inserted
      { s with workspaces := s.workspaces.insert row }.saveMembership s.workspaces.next owner .owner
  | .saveWorkspace id workspace =>
    if s.workspaces.others id fun row => row.uuid = workspace.uuid then none
    else do
      let row ← workspace.saved (s.workspaces.rows id)
      return { s with workspaces := s.workspaces.save id row }
  | .saveMembership workspaceId userId role => s.saveMembership workspaceId userId role
  | .deleteMembership workspaceId userId => some { s with memberships := s.memberships.erase (workspaceId, userId) }
  | .deleteMembershipsOf workspaceId =>
    some { s with memberships := s.memberships.filter fun key _ => key.1 ≠ workspaceId }
  | .deleteMembershipsBy userId => some { s with memberships := s.memberships.filter fun key _ => key.2 ≠ userId }
  | .deleteWorkspace uuid =>
    if s.memberships.keys.any fun key => (s.workspaces.rows key.1).any fun row => row.uuid = uuid then none
    else some { s with workspaces := s.workspaces.delete fun row => row.uuid = uuid }

def transact (s : Store) (writes : List Write) : Option Store := writes.foldlM Write.apply s

inductive Call where
  | findWorkspace (uuid : Option String) (choice : Nat)
  | workspaceById (id : Nat)
  | membership (workspaceId : Nat) (userId : String)
  | members (workspaceId : Nat)
  /-- The workspaces of a user, each with all its memberships. -/
  | workspacesOf (userId : String)
  /-- `commits` says whether the database lets the transaction through. -/
  | transaction (writes : List Write) (commits : Bool)
  | emit (message : Message)
  deriving DecidableEq, Repr

abbrev Call.Answer : Call → Type
  | .findWorkspace .. => Option (Nat × Workspace)
  | .workspaceById _ => Option Workspace
  | .membership .. => Option Role
  | .members _ => List String
  | .workspacesOf _ => List (Workspace × List (String × Role))
  | .transaction .. => Bool
  | .emit _ => Unit

def Store.membershipsOf (s : Store) (workspaceId : Nat) : List (String × Role) :=
  (s.memberships.entries.filter fun entry => entry.1.1 = workspaceId).map fun entry => (entry.1.2, entry.2)

def exec : (call : Call) → Store → call.Answer × Store
  | .findWorkspace uuid choice, s => (s.workspaces.find? (fun row => uuid.all (· = row.uuid)) choice, s)
  | .workspaceById id, s => (s.workspaces.rows id, s)
  | .membership workspaceId userId, s => (s.memberships.get? (workspaceId, userId), s)
  | .members workspaceId, s => ((s.membershipsOf workspaceId).map Prod.fst, s)
  | .workspacesOf userId, s =>
    ((List.range s.workspaces.next).filterMap fun id =>
      (s.memberships.get? (id, userId)).bind fun _ => (s.workspaces.rows id).map fun row => (row, s.membershipsOf id), s)
  | .transaction writes commits, s =>
    match transact s writes, commits with
    | some after, true => (true, after)
    | _, _ => (false, s)
  | .emit message, s => ((), { s with sent := s.sent ++ [message] })

abbrev Io := Prog Call Call.Answer

abbrev ask (call : Call) : Io call.Answer := Prog.perform call

end HideServer.Manage
