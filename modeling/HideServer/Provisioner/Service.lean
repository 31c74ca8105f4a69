import HideServer.Provisioner.Calls

/-!
# Creating a workspace pod

The services of `provision_service.go`: the check for the volume, the volumes, and the pod with its
Service, on either platform.
-/

namespace HideServer.Provisioner

open Async

/-- The process environment, as far as provisioning reads it; an unset variable is `""`. -/
structure Settings where
  devPlatform : String
  idleThresholdCpu : String
  workspaceCpuRequest : String
  preemptSpotOlderThanHours : String
  noJobDelete : Bool
  deriving DecidableEq, Repr

def sendStatus (req : ProvisionRequest) (message : String) : Io Unit :=
  ask (.publish req.uid req.sessionId (.status message))

def sendError (req : ProvisionRequest) (message : String) : Io Unit :=
  ask (.publish req.uid req.sessionId (.error message))

def sendSuccess (req : ProvisionRequest) (privateKey : String) (workspace : WorkspaceDTO) : Io Unit :=
  ask (.publish req.uid req.sessionId (.success privateKey workspace))

def dataVolumeName (wsUuid : String) : String := "workspace-data-" ++ wsUuid

def configVolumeName (wsUuid : String) : String := "workspace-config-" ++ wsUuid

def podName (wsUuid : String) : String := "workspace-" ++ wsUuid

def trimPrefix (text start : String) : String :=
  if start.toList <+: text.toList then String.ofList (text.toList.drop start.toList.length) else text

def trimSuffix (text suffix : String) : String :=
  if suffix.toList <:+ text.toList then String.ofList (text.toList.take (text.toList.length - suffix.toList.length))
  else text

def k8sPodExists (containerName : String) : Io (Except String Bool) := do
  let client : Bool ← ask .kubernetesClient
  if !client then return .error "client failed"
  let pod : Lookup ← ask (.getPod containerName)
  match pod with
  | .found => return .ok true
  | .notFound => return .ok false
  | .failed => return .error "get failed"

def dockerContainerExists (containerName : String) : Io (Except String Bool) := do
  let client : Bool ← ask .dockerClient
  if !client then return .error "client failed"
  let containers : Option (List (List String)) ← ask .listContainers
  match containers with
  | none => return .error "list failed"
  | some containers => return .ok (containers.any fun names => names.any fun name => trimPrefix name "/" = containerName)

def devContainerExists (wsUuid devEnv : String) : Io (Except String Bool) :=
  if devEnv = "docker" then dockerContainerExists (podName wsUuid)
  else if devEnv = "" then k8sPodExists (podName wsUuid)
  else return .error "Unsupported dev env"

def allExist : List (VolumeKind × String) → Io (Except String Bool)
  | [] => return .ok true
  | (kind, name) :: rest => do
    let object : Lookup ← ask (.getVolume kind name)
    match object with
    | .found => allExist rest
    | .notFound => return .ok false
    | .failed => return .error "get failed"

def k8sVolumeExists (uuid : String) : Io (Except String Bool) := do
  let client : Bool ← ask .kubernetesClient
  if !client then return .error "client failed"
  allExist [(.volume, dataVolumeName uuid), (.claim, dataVolumeName uuid),
    (.volume, configVolumeName uuid), (.claim, configVolumeName uuid)]

def dockerVolumeExists (uuid : String) : Io (Except String Bool) := do
  let client : Bool ← ask .dockerClient
  if !client then return .error "client failed"
  let volume : Lookup ← ask (.inspectDockerVolume (dataVolumeName uuid))
  match volume with
  | .found => return .ok true
  | .notFound => return .ok false
  | .failed => return .error "inspect failed"

def volumeExists (uuid devEnv : String) : Io (Except String Bool) :=
  if devEnv = "docker" then dockerVolumeExists uuid
  else if devEnv = "" then k8sVolumeExists uuid
  else return .error "Unsupported dev env"

/-- A failed preparation job is logged only: the volumes are created all the same. -/
def perpareK8sVolume (wsUuid : String) : Io (Except String Unit) := do
  let created : Bool ← ask (.createJob ("prepare-volume-" ++ wsUuid))
  if !created then return .error "Could not create job to prepare volumes"
  let _ : Bool ← ask (.waitJob ("prepare-volume-" ++ wsUuid))
  return .ok ()

def createK8sVolume (wsUuid : String) : Io (Except String Unit) := do
  let dataPV : Bool ← ask (.createVolume .volume (dataVolumeName wsUuid))
  if !dataPV then return .error "Could not create 'data' PV"
  let configPV : Bool ← ask (.createVolume .volume (configVolumeName wsUuid))
  if !configPV then
    let _ : Bool ← ask (.deleteVolume .volume (dataVolumeName wsUuid))
    return .error "Could not create 'config' PV, cleaning up"
  let dataPVC : Bool ← ask (.createVolume .claim (dataVolumeName wsUuid))
  if !dataPVC then
    let _ : Bool ← ask (.deleteVolume .volume (dataVolumeName wsUuid))
    let _ : Bool ← ask (.deleteVolume .volume (configVolumeName wsUuid))
    return .error "Could not create 'data' PVC, cleaning up"
  let configPVC : Bool ← ask (.createVolume .claim (configVolumeName wsUuid))
  if !configPVC then
    let _ : Bool ← ask (.deleteVolume .volume (dataVolumeName wsUuid))
    let _ : Bool ← ask (.deleteVolume .volume (configVolumeName wsUuid))
    let _ : Bool ← ask (.deleteVolume .claim (dataVolumeName wsUuid))
    return .error "Could not create 'config' PVC, cleaning up"
  return .ok ()

def createDockerVolume (volumeName : String) : Io (Except String Unit) := do
  let volumes : Option Nat ← ask (.listDockerVolumes volumeName)
  match volumes with
  | none => return .error "list failed"
  | some (_ + 1) => return .ok ()
  | some 0 =>
    let created : Bool ← ask (.createDockerVolume volumeName)
    return if created then .ok () else .error "create failed"

/-- The uuid the workspace runs under: a fresh one for a new workspace, the requested one otherwise. -/
def workspaceUuid (req : ProvisionRequest) (isNew : Bool) : Io String :=
  if isNew then ask .newUuid else return req.uuid

/-- A new workspace gets a key pair, a restored one has its keys on its volume. -/
def keyPair (isNew : Bool) : Io (Option (String × String)) :=
  if isNew then ask .genSSHKeyPair else return some ("", "")

variable (settings : Settings) (req : ProvisionRequest)

/-- The volumes of a new workspace. -/
def prepareStorage (wsUuid : String) : Io (Except String Unit) := do
  sendStatus req "2/6:Preparing storage"
  match ← perpareK8sVolume wsUuid with
  | .error err => return .error err
  | .ok () =>
    if !settings.noJobDelete then
      let _ : Bool ← ask (.deleteJob ("prepare-volume-" ++ wsUuid))
    sendStatus req "3/6:Allocating storage"
    createK8sVolume wsUuid

def wsType : WsType := if req.dedicated then .dedicated else .spot

def deployPod (wsUuid privateKey publicKey : String) : Io (Except String (String × String)) := do
  sendStatus req "4/6:Setting up your environment"
  let pod : Bool ← ask (.createPod ⟨wsUuid, req.image, publicKey, wsType req⟩)
  if !pod then return .error "pod creation failed"
  let service : Bool ← ask (.createService (podName wsUuid))
  if !service then
    let _ : Bool ← ask (.deletePod (podName wsUuid) 0)
    return .error "service creation failed"
  if req.dedicated then
    let _ : Bool ← ask (.createWorkspaceResource wsUuid req.uid)
  return .ok (privateKey, wsUuid)

def createK8sPod (isNew : Bool) : Io (Except String (String × String)) := do
  let client : Bool ← ask .kubernetesClient
  if !client then return .error "client failed"
  let wsUuid ← workspaceUuid req isNew
  if wsUuid = "" then return .error "No UUID specified"
  match ← keyPair isNew with
  | none => return .error "key generation failed"
  | some (privateKey, publicKey) =>
    match ← (if isNew then prepareStorage settings req wsUuid else return .ok ()) with
    | .error err => return .error err
    | .ok () => deployPod req wsUuid privateKey publicKey

def prepareDockerVolumes (wsUuid : String) : Io (Except String Unit) := do
  sendStatus req "2/6:Preparing storage"
  match ← createDockerVolume (dataVolumeName wsUuid) with
  | .error err => return .error err
  | .ok () => createDockerVolume (configVolumeName wsUuid)

def startDockerContainer (wsUuid privateKey publicKey : String) : Io (Except String (String × String)) := do
  sendStatus req "3/6:Allocating storage"
  let created : Bool ← ask (.createContainer (podName wsUuid) req.image publicKey)
  if !created then return .error "container creation failed"
  sendStatus req "4/6:Setting up your environment"
  let started : Bool ← ask (.startContainer (podName wsUuid))
  if !started then return .error "container start failed"
  return .ok (privateKey, wsUuid)

def createDockerContainer (isNew : Bool) : Io (Except String (String × String)) := do
  let client : Bool ← ask .dockerClient
  if !client then return .error "client failed"
  let wsUuid ← workspaceUuid req isNew
  if wsUuid = "" then return .error "Cannot generate UUID"
  match ← keyPair isNew with
  | none => return .error "key generation failed"
  | some (privateKey, publicKey) =>
    match ← (if isNew then prepareDockerVolumes req wsUuid else return .ok ()) with
    | .error err => return .error err
    | .ok () => startDockerContainer req wsUuid privateKey publicKey

def createOnPlatform (isNew : Bool) : Io (Except String (String × String)) :=
  if settings.devPlatform = "docker" then createDockerContainer req isNew
  else if settings.devPlatform = "" then createK8sPod settings req isNew
  else return .error "Unsupported dev env"

/-- On success the private key (empty for a restored workspace) and the workspace's uuid. -/
def createDevContainer (isNew : Bool) : Io (Except String (String × String)) := do
  if isNew then createOnPlatform settings req isNew
  else
    sendStatus req "1/6:Restoring your data"
    match ← volumeExists req.uuid settings.devPlatform with
    | .error err => return .error err
    | .ok false => return .error "Volume not found for existing workspace"
    | .ok true => createOnPlatform settings req isNew

/-- The loop of `WaitOnDevContainerScheduled` over the events of the watch. -/
def scheduled : List (String × Phase) → Except String Unit
  | [] => .error "watch closed before scheduling"
  | (nodeName, phase) :: events =>
    if nodeName ≠ "" then .ok ()
    else if phase = .failed ∨ phase = .succeeded then .error "Pod ended before scheduling"
    else scheduled events

def waitOnDevContainerScheduled (uuid : String) : Io (Except String Unit) := do
  let client : Bool ← ask .kubernetesClient
  if !client then return .error "client failed"
  let events : Option (List (String × Phase)) ← ask (.watchPod (podName uuid))
  match events with
  | none => return .error "watch failed"
  | some events => return scheduled events

/-- Poll the workspace until it answers; `attempts` is how many polls fit in before the deadline. -/
def pollReady (uuid : String) : Nat → Io (Except String Unit)
  | 0 => return .error "Workspace timed-out during boot"
  | attempts + 1 => do
    let ready : Bool ← ask (.ready uuid)
    if ready then
      sendStatus req "6/6:Workspace ready !"
      return .ok ()
    else pollReady uuid attempts

def waitOnDevContainerReady (uuid : String) : Io (Except String Unit) := do
  sendStatus req "5/6:Almost there... starting services"
  let attempts : Nat ← ask (.readyAttempts uuid)
  pollReady req uuid attempts

def killK8sPod (name : String) : Io (Except String Unit) := do
  if settings.devPlatform = "docker" then return .ok ()
  let client : Bool ← ask .kubernetesClient
  if !client then return .error "client failed"
  let deleted : Bool ← ask (.deletePod name 0)
  return if deleted then .ok () else .error "delete failed"

/-- Any response that decodes counts: the status is not looked at. On an error the caller keeps a zero record. -/
def createWorkspace (userHeader workspaceUUID : String) : Io (Except String Unit × WorkspaceDTO) := do
  let answer : HttpAnswer ← ask (.createWorkspace userHeader req workspaceUUID)
  match answer with
  | .failed => return (.error "Workspace creation request failed", .zero)
  | .answered _ .unreadable => return (.error "Failed to read workspace creation response", .zero)
  | .answered _ .malformed => return (.error "unmarshal failed", .zero)
  | .answered _ (.json _ workspace) => return (.ok (), workspace)

end HideServer.Provisioner
