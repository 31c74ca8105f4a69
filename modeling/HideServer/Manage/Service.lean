import Mathlib.Algebra.Ring.Nat
import HideServer.Manage.Store

/-!
# Managing workspaces

The operations of the workspace service that touch memberships. What other services answer during an
operation is part of it.
-/

namespace HideServer.Manage

open Async Async.Prog

/-- The sessions of a user in the presence cache, each with the workspace it is bound to. -/
abbrev Sessions := String → Option (List (String × Option String))

/-- Length in UTF-16 code units, which is what the regular expression counts. -/
def units (chars : List Char) : Nat :=
  (chars.map fun char => if char.toNat < 0x10000 then 1 else 2).sum

/-- `nameRegex`: a character that ends no line, then at least three that are none of the listed signs. -/
def validName (name : String) : Bool :=
  match name.toList with
  | [] => false
  | first :: rest =>
    !(['\n', '\r', '\u2028', '\u2029'].contains first) && 4 ≤ units (first :: rest) &&
      rest.all fun char => !"!@#$%^&*()+=\x7b\x7d[]`~:;\"?/<>".toList.contains char

structure CreateData where
  name : Option String
  description : String
  image : String
  dedicated : Bool
  deriving DecidableEq, Repr

/-- `uuid` is the one given or the one the database generates. -/
def createWorkspace (uid : String) (data : CreateData) (uuid : String) (profile commits : Bool) :
    Io (Except String Workspace) :=
  match data.name with
  | none => return .error "INVALID_WORKSPACE_NAME"
  | some name => do
    if !validName name then return .error "INVALID_WORKSPACE_NAME"
    let workspace : Workspace := ⟨uuid, data.image, name, data.description, .ready, data.dedicated⟩
    let committed : Bool ← ask (.transaction [.create workspace uid] (profile && commits))
    return if committed then .ok workspace else .error "rolled back"

variable (inviterId workspaceUUID : String) (uid : String)

/-- Only a member can invite. -/
def validateInvite (choice : Nat) : Io (Except String Unit) := do
  let workspace : Option (Nat × Workspace) ← ask (.findWorkspace (some workspaceUUID) choice)
  match workspace with
  | none => return .error "WORKSPACE_NOT_FOUND"
  | some (id, _) =>
    let membership : Option Role ← ask (.membership id inviterId)
    match membership with
    | none => return .error "NO_WORKSPACE_MEMBERSHIP"
    | some role => return if role.level < 1 then .error "WORKSPACE_ACTION_NOT_AUTHORIZED" else .ok ()

def sendInvite (invitee : String × String) : Io Unit :=
  ask (.emit (.invite invitee.1 inviterId workspaceUUID invitee.2))

def inviteUser (invitee : String × String) (choice : Nat) : Io (Except String Unit) := do
  match ← validateInvite inviterId workspaceUUID choice with
  | .error err => return .error err
  | .ok () =>
    sendInvite inviterId workspaceUUID invitee
    return .ok ()

def inviteAllUsers (invitees : List (String × String)) (choice : Nat) : Io (Except String Unit) := do
  match ← validateInvite inviterId workspaceUUID choice with
  | .error err => return .error err
  | .ok () =>
    each invitees (sendInvite inviterId workspaceUUID)
    return .ok ()

variable (sessions : Sessions)

/-- Every session of these users is told. -/
def notifyModified (uids : List String) (uuid : String) : Io Unit :=
  each uids fun uid => each ((sessions uid).getD []) fun session => ask (.emit (.socketModified uid session.1 uuid))

/-- What is read of the payload of an invitation token; a token of another kind has none of it. -/
structure InvitationToken where
  inviteeId : Option String
  workspaceUUID : Option String
  notificationId : Option String
  deriving DecidableEq, Repr

/-- The workspace is looked up twice, and the second result is the one that is joined. -/
def acceptInvitation (inviteeId : String) (token : Option InvitationToken) (sessions : Sessions)
    (choice choice' : Nat) (commits : Bool) : Io (Except String Unit) :=
  match token with
  | none => return .error "JsonWebTokenError"
  | some token =>
    if some inviteeId ≠ token.inviteeId then return .error "INVALID_INVITATION_TOKEN"
    else do
      let first : Option (Nat × Workspace) ← ask (.findWorkspace token.workspaceUUID choice)
      match first with
      | none => return .error "TypeError"
      | some (wrspcId, _) =>
        let members : List String ← ask (.members wrspcId)
        let second : Option (Nat × Workspace) ← ask (.findWorkspace token.workspaceUUID choice')
        match second with
        | none => return .error "WORKSPACE_NOT_FOUND"
        | some (id, workspace) =>
          let saved : Bool ← ask (.transaction [.saveMembership id inviteeId .member] commits)
          if !saved then return .error "save failed"
          ask (.emit (.notificationRead inviteeId (token.notificationId.getD "")))
          notifyModified sessions members workspace.uuid
          return .ok ()

structure UpdateData where
  id : Option Nat
  name : Option String
  description : Option String
  members : Option (List String)
  deriving DecidableEq, Repr

/-- Those who are wanted and not there. -/
def missing (wanted actual : List String) : List String := wanted.eraseDups.filter (· ∉ actual)

/-- The removals are one transaction; everything after it can still fail, without taking them back. -/
def updateMembers (id : Nat) (workspace : Workspace) (added : List (String × String))
    (removed : List String) (sessions : Sessions) (choice : Nat) (commits : Bool) : Io (Except String Unit) := do
  let members : List String ← ask (.members id)
  let committed : Bool ← ask (.transaction (removed.map (.deleteMembership id)) commits)
  if !committed then return .error "rolled back"
  each removed fun removedUid => ask (.emit (.membershipRemoved removedUid uid workspace.uuid workspace.name))
  match ← inviteAllUsers uid workspace.uuid added choice with
  | .error err => return .error err
  | .ok () =>
    if removed ≠ [] then notifyModified sessions (members.eraseDups.filter (· ∉ removed)) workspace.uuid
    ask (.emit (.membersModified workspace.uuid (added.map Prod.fst) removed))
    return .ok ()

/-- The name as it is after the update, or `none` if the one given is not valid. An empty one is no name at all. -/
def renamed (data : UpdateData) (workspace : Workspace) : Option String :=
  match data.name with
  | none => some workspace.name
  | some "" => some workspace.name
  | some name => if validName name then some name else none

/-- Replace the members, if a list is given. `ntfnIds` are the ids of the notifications of those invited. -/
def replaceMembers (id : Nat) (workspace : Workspace)
    (members : Option (List String)) (ntfnIds : String → String) (sessions : Sessions)
    (choice : Nat) (commits : Bool) : Io (Except String Unit) :=
  match members with
  | none => return .ok ()
  | some wanted => do
    let actual : List String ← ask (.members id)
    let added := (missing wanted actual).map fun uid => (uid, ntfnIds uid)
    updateMembers uid id workspace added (missing actual wanted) sessions choice commits

def updateWorkspace (data : UpdateData) (ntfnIds : String → String)
    (sessions : Sessions) (choice : Nat) (commits saves : Bool) : Io (Except String Unit) :=
  match data.id with
  | none => return .error "MISSING_WORKSPACE_ID"
  | some id => do
    let membership : Option Role ← ask (.membership id uid)
    match membership with
    | none => return .error "NO_WORKSPACE_MEMBERSHIP"
    | some role =>
      if role.level < Role.admin.level then return .error "WORKSPACE_ACTION_NOT_AUTHORIZED"
      let row : Option Workspace ← ask (.workspaceById id)
      match row with
      | none => return .error "WORKSPACE_NOT_FOUND"
      | some workspace =>
        match renamed data workspace with
        | none => return .error "INVALID_WORKSPACE_NAME"
        | some name =>
          let workspace := { workspace with name := name, description := data.description.getD workspace.description }
          match ← replaceMembers uid id workspace data.members ntfnIds sessions choice commits with
          | .error err => return .error err
          | .ok () =>
            let saved : Bool ← ask (.transaction [.saveWorkspace id workspace] saves)
            return if saved then .ok () else .error "save failed"

/-- Only the first session of a member that is bound to the workspace is taken care of. -/
def clearCacheOnDelete (members : List String) (wsUuid : String) : Io Unit := do
  each members fun uid =>
    match ((sessions uid).getD []).find? fun session => session.2 = some wsUuid with
    | none => return ()
    | some (sessionId, _) => do
      ask (.emit (.socketDisconnect uid sessionId))
      ask (.emit (.unbind uid sessionId wsUuid))
  ask (.emit (.dropWorkspaceCache wsUuid))

def deleteWorkspace (workspaceUUID : Option String) (sessions : Sessions)
    (choice : Nat) (commits : Bool) : Io (Except String Unit) :=
  match workspaceUUID with
  | none => return .error "WORKSPACE_DELETE_INVALID_REQUEST"
  | some uuid => do
    let row : Option (Nat × Workspace) ← ask (.findWorkspace (some uuid) choice)
    match row with
    | none => return .error "WORKSPACE_NOT_FOUND"
    | some (id, _) =>
      let membership : Option Role ← ask (.membership id uid)
      match membership with
      | none => return .error "NO_WORKSPACE_MEMBERSHIP"
      | some role =>
        if role.level < Role.admin.level then return .error "WORKSPACE_ACTION_NOT_AUTHORIZED"
        let members : List String ← ask (.members id)
        let committed : Bool ← ask (.transaction [.deleteMembershipsOf id, .deleteWorkspace uuid] commits)
        if !committed then return .error "rolled back"
        clearCacheOnDelete sessions members uuid
        ask (.emit (.deprovision uuid))
        ask (.emit (.workspaceDeleted uuid members))
        return .ok ()

def withRole (role : Role) (workspaces : List (Workspace × List (String × Role))) :
    List (Workspace × List (String × Role)) :=
  workspaces.filter fun entry => entry.2.any fun membership => membership = (uid, role)

/-- The failure of a deletion is not looked at. -/
def deleteOwned (commits : String → Bool) (uuids : List String) : Io Unit :=
  each uuids fun uuid => do
    let _ ← deleteWorkspace uid (some uuid) sessions 0 (commits uuid)
    return ()

/-- `commits` says which of the deletions go through, `leaves` whether the final removal of the memberships does. -/
def deleteOwnedWorkspaces (commits : String → Bool) (leaves : Bool) : Io (Except String Unit) := do
  let workspaces : List (Workspace × List (String × Role)) ← ask (.workspacesOf uid)
  deleteOwned uid sessions commits ((withRole uid .owner workspaces).map fun entry => entry.1.uuid)
  let committed : Bool ← ask (.transaction [.deleteMembershipsBy uid] leaves)
  if !committed then return .error "rolled back"
  each (withRole uid .member workspaces) fun entry => do
    notifyModified sessions ((entry.2.map Prod.fst).eraseDups.filter (· ≠ uid)) entry.1.uuid
    ask (.emit (.membersModified entry.1.uuid [] [uid]))
  return .ok ()

inductive Op where
  | create (uid : String) (data : CreateData) (uuid : String) (profile commits : Bool)
  | update (uid : String) (data : UpdateData) (ntfnIds : String → String) (sessions : Sessions) (choice : Nat)
      (commits saves : Bool)
  | invite (inviterId workspaceUUID : String) (invitee : String × String) (choice : Nat)
  | inviteAll (inviterId workspaceUUID : String) (invitees : List (String × String)) (choice : Nat)
  | accept (inviteeId : String) (token : Option InvitationToken) (sessions : Sessions) (choice choice' : Nat) (commits : Bool)
  | delete (uid : String) (workspaceUUID : Option String) (sessions : Sessions) (choice : Nat) (commits : Bool)
  | deleteOwned (uid : String) (sessions : Sessions) (commits : String → Bool) (leaves : Bool)

def perform (s : Store) : Op → Store
  | .create uid data uuid profile commits => (run exec (createWorkspace uid data uuid profile commits) s).2
  | .update uid data ntfnIds sessions choice commits saves =>
    (run exec (updateWorkspace uid data ntfnIds sessions choice commits saves) s).2
  | .invite inviterId workspaceUUID invitee choice => (run exec (inviteUser inviterId workspaceUUID invitee choice) s).2
  | .inviteAll inviterId workspaceUUID invitees choice =>
    (run exec (inviteAllUsers inviterId workspaceUUID invitees choice) s).2
  | .accept inviteeId token sessions choice choice' commits =>
    (run exec (acceptInvitation inviteeId token sessions choice choice' commits) s).2
  | .delete uid workspaceUUID sessions choice commits =>
    (run exec (deleteWorkspace uid workspaceUUID sessions choice commits) s).2
  | .deleteOwned uid sessions commits leaves => (run exec (deleteOwnedWorkspaces uid sessions commits leaves) s).2

end HideServer.Manage
