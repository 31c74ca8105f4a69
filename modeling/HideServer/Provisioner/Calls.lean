import HideServer.Async.Dialogue

/-!
# What the provisioner talks to

The requests over HTTP, to Kubernetes or Docker, and through Redis and NATS, with the data the source
sends. Every one of them can fail, and none is assumed to tell the truth about another.
-/

namespace HideServer.Provisioner

open Async

/-- `services.ProvisionRequest`; an omitted JSON field is the zero value. -/
structure ProvisionRequest where
  uid : String
  sessionId : String
  image : String
  name : String
  description : String
  uuid : String
  dedicated : Bool
  accessCode : String
  deriving DecidableEq, Repr

/-- The value of the pod label `wstype`. -/
inductive WsType where
  | spot
  | dedicated
  deriving DecidableEq, Repr

inductive Phase where
  | pending
  | running
  | succeeded
  | failed
  | unknown
  deriving DecidableEq, Repr

structure Pod where
  name : String
  phase : Phase
  wsType : Option WsType
  cpuRequests : List (Option Int)
  created : Int
  deriving DecidableEq, Repr

/-- `util.GetPodSpec`, without the parts that are the same for every workspace. -/
structure PodSpec where
  wsUuid : String
  image : String
  publicKey : String
  wsType : WsType
  deriving DecidableEq, Repr

structure WorkspaceDTO where
  id : Int
  uuid : String
  image : String
  name : String
  description : String
  deriving DecidableEq, Repr

/-- The zero `WorkspaceDTO` that an unsuccessful decode leaves behind. -/
def WorkspaceDTO.zero : WorkspaceDTO := ⟨0, "", "", "", ""⟩

/-- A response body as `io.ReadAll` and `json.Unmarshal` see it. -/
inductive Body where
  | unreadable
  | malformed
  | json (message : String) (workspace : WorkspaceDTO)
  deriving DecidableEq, Repr

/-- No response, or a status and a body. -/
inductive HttpAnswer where
  | failed
  | answered (status : Nat) (body : Body)
  deriving DecidableEq, Repr

def HttpAnswer.Success : HttpAnswer → Prop
  | .failed => False
  | .answered status _ => 200 ≤ status ∧ status ≤ 299

instance (answer : HttpAnswer) : Decidable answer.Success := by
  cases answer <;> unfold HttpAnswer.Success <;> infer_instance

/-- A PersistentVolume, or the claim on it that goes by the same name. -/
inductive VolumeKind where
  | volume
  | claim
  deriving DecidableEq, Repr

inductive Lookup where
  | found
  | notFound
  | failed
  deriving DecidableEq, Repr

inductive Notice where
  | status (message : String)
  | error (message : String)
  | success (privateKey : String) (workspace : WorkspaceDTO)
  deriving DecidableEq, Repr

inductive Call where
  | getTemplates
  | checkEligibility (userHeader : String)
  | checkMembership (userHeader workspaceUUID : String)
  | consumeAccessCode (userHeader code : String)
  | getPod (name : String)
  | listContainers
  | lockQueue
  | unlockQueue
  | publish (uid sessionId : String) (notice : Notice)
  | publishAffinity (uid sessionId uuid : String)
  | kubernetesClient
  | dockerClient
  | listNodes
  | listPods (selector : Option WsType)
  | createPod (spec : PodSpec)
  | deletePod (name : String) (gracePeriod : Nat)
  | watchPod (name : String)
  | createService (name : String)
  | getVolume (kind : VolumeKind) (name : String)
  | createVolume (kind : VolumeKind) (name : String)
  | deleteVolume (kind : VolumeKind) (name : String)
  | createJob (name : String)
  | waitJob (name : String)
  | deleteJob (name : String)
  | createWorkspaceResource (wsUuid uid : String)
  | listDockerVolumes (name : String)
  | inspectDockerVolume (name : String)
  | createDockerVolume (name : String)
  | createContainer (name image publicKey : String)
  | startContainer (name : String)
  | newUuid
  | genSSHKeyPair
  | now
  | readyAttempts (uuid : String)
  | ready (uuid : String)
  | createWorkspace (userHeader : String) (req : ProvisionRequest) (uuid : String)
  | resetAccessCode (userHeader code : String)
  | deleteAccessCode (userHeader code : String)
  deriving DecidableEq, Repr

/-- What comes back. Requests of which the code only looks at the error are answered by whether they succeeded; a
list or a value that could not be had is `none`. The code indexes the first node of the cluster without a check, so
a node list is a first node's allocatable millicores and the rest. -/
abbrev Call.Answer : Call → Type
  | .getTemplates => Option (List String)
  | .checkEligibility _ | .checkMembership .. | .consumeAccessCode .. => HttpAnswer
  | .getPod _ => Lookup
  | .listContainers => Option (List (List String))
  | .lockQueue | .unlockQueue | .publish .. | .publishAffinity .. => Unit
  | .kubernetesClient | .dockerClient => Bool
  | .listNodes => Option (Int × List Int)
  | .listPods _ => Option (List Pod)
  | .createPod _ | .deletePod .. | .createService _ => Bool
  | .watchPod _ => Option (List (String × Phase))
  | .getVolume .. | .inspectDockerVolume _ => Lookup
  | .createVolume .. | .deleteVolume .. => Bool
  | .createJob _ | .waitJob _ | .deleteJob _ => Bool
  | .createWorkspaceResource .. => Bool
  | .listDockerVolumes _ => Option Nat
  | .createDockerVolume _ | .createContainer .. | .startContainer _ => Bool
  | .newUuid => String
  | .genSSHKeyPair => Option (String × String)
  | .now => Int
  | .readyAttempts _ => Nat
  | .ready _ => Bool
  | .createWorkspace .. | .resetAccessCode .. | .deleteAccessCode .. => HttpAnswer

instance : (call : Call) → DecidableEq call.Answer
  | .getTemplates | .listContainers | .listNodes | .listPods _ | .watchPod _ | .listDockerVolumes _ | .genSSHKeyPair
  | .checkEligibility _ | .checkMembership .. | .consumeAccessCode ..
  | .createWorkspace .. | .resetAccessCode .. | .deleteAccessCode ..
  | .getPod _ | .getVolume .. | .inspectDockerVolume _
  | .lockQueue | .unlockQueue | .publish .. | .publishAffinity ..
  | .kubernetesClient | .dockerClient | .createPod _ | .deletePod .. | .createService _
  | .createVolume .. | .deleteVolume .. | .createJob _ | .waitJob _ | .deleteJob _
  | .createWorkspaceResource .. | .createDockerVolume _ | .createContainer .. | .startContainer _ | .ready _
  | .newUuid | .now | .readyAttempts _ => inferInstance

abbrev Io := Prog Call Call.Answer

abbrev ask (call : Call) : Io call.Answer := Prog.perform call

end HideServer.Provisioner
