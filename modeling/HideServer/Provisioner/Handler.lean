import HideServer.Provisioner.Capacity

/-!
# The provision endpoint

`provisionHandler` validates a request, asks the workspace service, answers, and leaves the work to a
background job. `checkWorkspaceMembership` never reads a status, and the status test of the access-code
requests asks for a number below 200 and above 299.
-/

namespace HideServer.Provisioner

open Async

structure HttpRequest where
  method : String
  /-- The decoded body, if it decodes. -/
  body : Option ProvisionRequest
  /-- The header `x-auth-user`; `""` if there is none. -/
  userHeader : String
  deriving DecidableEq, Repr

inductive Reply where
  | error (status : Nat) (message : String)
  | wait (status : Nat) (wait : Bool)
  deriving DecidableEq, Repr

def checkEligibility (userHeader : String) : Io (Except String Bool) := do
  let answer : HttpAnswer ← ask (.checkEligibility userHeader)
  match answer with
  | .failed => return .error "Workspace creation eligibility check failed"
  | .answered status _ => return .ok (status = 200)

/-- The status of the answer is not read. -/
def checkWorkspaceMembership (userHeader workspaceUUID : String) : Io (Except String Unit) := do
  let answer : HttpAnswer ← ask (.checkMembership userHeader workspaceUUID)
  match answer with
  | .failed => return .error "Not a member of workspace"
  | .answered _ _ => return .ok ()

/-- How the three access-code requests read their response. -/
def readAccessAnswer : HttpAnswer → Except String Unit
  | .failed => .error "UNKNOWN"
  | .answered status body =>
    if status < 200 ∧ status > 299 then
      match body with
      | .unreadable => .error "UNKNOWN"
      | .malformed => .error "UNKNOWN"
      | .json message _ => .error message
    else .ok ()

def consumeAccessCode (code userHeader : String) : Io (Except String Unit) :=
  readAccessAnswer <$> ask (.consumeAccessCode userHeader code)

def resetAccessCode (code userHeader : String) : Io (Except String Unit) :=
  readAccessAnswer <$> ask (.resetAccessCode userHeader code)

def deleteAccessCode (code userHeader : String) : Io (Except String Unit) :=
  readAccessAnswer <$> ask (.deleteAccessCode userHeader code)

/-- What follows once the workspace answers: a record for a new one, the affinity of a restored one. -/
def finishProvision (req : ProvisionRequest) (userHeader : String) (isNew : Bool) (privateKey uuid : String) :
    Io (Except String Unit) := do
  if isNew then
    let (result, workspace) ← createWorkspace req userHeader uuid
    sendSuccess req privateKey workspace
    return result
  else
    ask (.publishAffinity req.uid req.sessionId req.uuid)
    return .ok ()

variable (settings : Settings) (req : ProvisionRequest) (userHeader : String)

/-- From the created container on: the part of `provision` that starts under the queue lock and leaves it. -/
def awaitContainer (isNew : Bool) (message privateKey uuid : String) : Io (Except String Unit) := do
  match ← (if settings.devPlatform = "" then waitOnDevContainerScheduled uuid else return .ok ()) with
  | .error err =>
    sendError req message
    ask .unlockQueue
    return .error err
  | .ok () =>
    ask .unlockQueue
    match ← waitOnDevContainerReady req uuid with
    | .error err =>
      sendError req "WORKSPACE_BOOT_FAILED"
      return .error err
    | .ok () => finishProvision req userHeader isNew privateKey uuid

/-- The pod that has to go is killed. -/
def preempt (preemptPodName : String) : Io (Except String Unit) :=
  if preemptPodName ≠ "" then killK8sPod settings preemptPodName else return .ok ()

def abandon (message err : String) : Io (Except String Unit) := do
  sendError req message
  ask .unlockQueue
  return .error err

def provision (isNew : Bool) : Io (Except String Unit) := do
  ask .lockQueue
  match ← hasCapacity settings req.dedicated with
  | .error _ => abandon req "UNKNOWN" "UNKNOWN"
  | .ok (hasCpuCapacity, preemptPodName) =>
    if !hasCpuCapacity ∧ preemptPodName = "" then abandon req "NO_CAPACITY" "NO_CAPACITY"
    else
      match ← preempt settings preemptPodName with
      | .error _ => abandon req "UNKNOWN" "UNKNOWN"
      | .ok () =>
        let message := if isNew then "WORKSPACE_PROVISION_FAILED" else "WORKSPACE_RESTORE_FAILED"
        match ← createDevContainer settings req isNew with
        | .error err => abandon req message err
        | .ok (privateKey, uuid) => awaitContainer settings req userHeader isNew message privateKey uuid

/-- The goroutine of the handler. -/
def background (isNew : Bool) : Io Unit := do
  match ← provision settings req userHeader isNew with
  | .error _ => if isNew ∧ req.dedicated then let _ ← resetAccessCode req.accessCode userHeader
  | .ok () => if isNew ∧ req.dedicated then let _ ← deleteAccessCode req.accessCode userHeader

/-- What the handler decides: its reply, and the job it leaves, `true` for a new workspace. -/
structure Decision where
  reply : Reply
  job : Option Bool
  deriving DecidableEq, Repr

def refuse (status : Nat) (message : String) : Decision := ⟨.error status message, none⟩

/-- Only a new workspace counts against the user's quota. -/
def validateUser : Io (Option Decision) := do
  if userHeader = "" then return some (refuse 400 "WORKSPACE_PROVISION_INVALID_REQUEST")
  if req.uuid ≠ "" then return none
  match ← checkEligibility userHeader with
  | .error _ => return some (refuse 400 "UNKNOWN")
  | .ok false => return some (refuse 400 "WORKSPACE_PROVISION_QUOTA_REACHED")
  | .ok true => return none

def validateImage : Io (Option Decision) := do
  if req.image = "" then return some (refuse 400 "WORKSPACE_PROVISION_INVALID_REQUEST")
  let templates : Option (List String) ← ask .getTemplates
  match templates with
  | none => return some (refuse 500 "UNKNOWN")
  | some templates =>
    if trimSuffix req.image ":dev" ∉ templates then return some (refuse 400 "WORKSPACE_PROVISION_INVALID_REQUEST")
    validateUser req userHeader

/-- The checks every request goes through, up to the split between new and restored. -/
def validate : Io (Option Decision) := do
  if req.uuid = "" then sendStatus req "1/6:Validating request"
  validateImage req userHeader

/-- A restore past the membership check: nothing to do if the workspace is up. -/
def resume : Io Decision := do
  match ← devContainerExists req.uuid settings.devPlatform with
  | .error _ => return refuse 400 "UNKNOWN"
  | .ok true => return ⟨.wait 200 false, none⟩
  | .ok false =>
    sendStatus req "Restoring your workspace"
    return ⟨.wait 202 true, some false⟩

/-- A workspace that exists. -/
def restore : Io Decision := do
  match ← checkWorkspaceMembership userHeader req.uuid with
  | .error _ => return refuse 403 "NO_WORKSPACE_MEMBERSHIP"
  | .ok () => resume settings req

/-- A new workspace. -/
def create : Io Decision := do
  match ← (if req.dedicated then consumeAccessCode req.accessCode userHeader else return .ok ()) with
  | .error _ => return refuse 400 "ACCESS_CODE_USE_FAILED"
  | .ok () => return ⟨.wait 202 true, some true⟩

def decideRequest : Io Decision := do
  match ← validate req userHeader with
  | some refusal => return refusal
  | none => if req.uuid ≠ "" then restore settings req userHeader else create req userHeader

def provisionHandler (r : HttpRequest) : Io Decision :=
  if r.method ≠ "POST" then return refuse 405 "WORKSPACE_PROVISION_INVALID_REQUEST"
  else
    match r.body with
    | none => return refuse 400 "WORKSPACE_PROVISION_INVALID_REQUEST"
    | some req => decideRequest settings req r.userHeader

def startJob (r : HttpRequest) (decision : Decision) : Io Unit :=
  match r.body, decision.job with
  | some req, some isNew => background settings req r.userHeader isNew
  | _, _ => return ()

/-- The request as a whole, job included. -/
def serve (r : HttpRequest) : Io Reply := do
  let decision ← provisionHandler settings r
  startJob settings r decision
  return decision.reply

end HideServer.Provisioner
