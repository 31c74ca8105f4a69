import HideServer.Access.LifeCycle
import HideServer.Manage.Effects

/-!
# The tokens of the workspace service

Invitations and requests for access codes are signed with one secret, and nothing says which kind a
token is. A token that verifies is one the service has signed.
-/

namespace HideServer.Tokens

/-- `sshKey`, which is handed on as it is, is left out. -/
structure InvitationPayload where
  notificationId : String
  inviterId : String
  inviteeId : String
  workspaceUUID : String
  validTill : Int
  deriving DecidableEq, Repr

structure AccessRequestPayload where
  uid : String
  username : String
  name : String
  reason : String
  uuid : String
  deriving DecidableEq, Repr

inductive Data where
  | invitation (payload : InvitationPayload)
  | access (payload : AccessRequestPayload)
  deriving DecidableEq, Repr

structure ServicePayload where
  sub : String
  aud : String
  iss : String
  data : Data
  deriving DecidableEq, Repr

inductive Token where
  | signed (payload : ServicePayload)
  /-- Anything that was not signed with the secret of the service. -/
  | unsigned
  deriving DecidableEq, Repr

/-- `none` where `verify` throws. -/
def verify : Token → Option ServicePayload
  | .signed payload => some payload
  | .unsigned => none

/-- What `fulfillAccessRequest` reads of the data. -/
def Data.asAccess : Data → Access.AccessToken
  | .invitation _ => ⟨none, none⟩
  | .access payload => ⟨some payload.uid, some payload.uuid⟩

/-- What `validateAccept` and the functions after it read of the data. -/
def Data.asInvitation : Data → Manage.InvitationToken
  | .invitation payload => ⟨some payload.inviteeId, some payload.workspaceUUID, some payload.notificationId⟩
  | .access _ => ⟨none, none, none⟩

/-- A token read as a request for a code. -/
def asAccess (token : Token) : Option Access.AccessToken := (verify token).map (·.data.asAccess)

def asInvitation (token : Token) : Option Manage.InvitationToken :=
  (verify token).map (·.data.asInvitation)

def invitationToken (payload : InvitationPayload) : Token :=
  .signed ⟨payload.workspaceUUID, "client", "workspace-api", .invitation payload⟩

def accessToken (payload : AccessRequestPayload) : Token :=
  .signed ⟨"dedicated-workspace", "client", "workspace-api", .access payload⟩

def allowedaud : List String := ["gateway-api", "client"]

def allowedIss : List String := ["firebase-service", "workspace-api"]

/-- `PublicGuard.canActivate` for a route of the workspace service, with the token of the query. -/
def canActivate (token : Option Token) : Except String Bool :=
  match token with
  | none => .error "Authorization header or token param is missing"
  | some token =>
    match verify token with
    | none => .error "Unauthorized access"
    | some payload => .ok (payload.aud ∈ allowedaud && payload.iss ∈ allowedIss)

end HideServer.Tokens
