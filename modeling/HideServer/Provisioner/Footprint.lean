import HideServer.Provisioner.Handler

/-!
# What provisioning asks for before it deploys

`Call.Prepares` lists the requests that touch no pod and no Service of the cluster, do not tell the user
how it ended, and do not reach the workspace service.
-/

namespace HideServer.Provisioner

open Async Async.Prog

def Call.Docks : Call → Prop
  | .publish _ _ (.status _) => True
  | .dockerClient | .inspectDockerVolume _ | .listDockerVolumes _ | .createDockerVolume _ => True
  | .createContainer .. | .startContainer _ => True
  | _ => False

def Call.Waits : Call → Prop
  | .publish _ _ (.status _) => True
  | .kubernetesClient | .watchPod _ | .readyAttempts _ | .ready _ => True
  | _ => False

/-- The requests before the deployment. -/
def Call.Prepares : Call → Prop
  | .publish _ _ (.status _) => True
  | .kubernetesClient | .dockerClient | .listNodes | .listPods _ | .now | .genSSHKeyPair => True
  | .createJob _ | .waitJob _ | .deleteJob _ | .getVolume .. | .createVolume .. | .deleteVolume .. => True
  | .inspectDockerVolume _ | .listDockerVolumes _ | .createDockerVolume _ | .createContainer .. | .startContainer _ => True
  | .watchPod _ | .readyAttempts _ | .ready _ => True
  | _ => False

variable {α : Type} {p : Io α}

theorem prepares_of_docks (hp : p.Only Call.Docks) : p.Only Call.Prepares := by
  refine hp.mono fun call hcall => ?_
  cases call with
  | publish uid sessionId notice => cases notice <;> trivial
  | _ => trivial

theorem prepares_of_waits (hp : p.Only Call.Waits) : p.Only Call.Prepares := by
  refine hp.mono fun call hcall => ?_
  cases call with
  | publish uid sessionId notice => cases notice <;> trivial
  | _ => trivial

variable (settings : Settings) (req : ProvisionRequest)

theorem prepares_sendStatus (message : String) : (sendStatus req message).Only Call.Prepares := by
  simp [sendStatus, Call.Prepares]

theorem prepares_hasCapacity (dedicated : Bool) : (hasCapacity settings dedicated).Only Call.Prepares := by
  refine .ite trivial (.perform_bind trivial fun client => .ite trivial (.perform_bind trivial fun nodes => ?_))
  cases nodes with
  | none => trivial
  | some nodes =>
    dsimp only
    split
    · trivial
    refine .perform_bind trivial fun pods => ?_
    cases pods with
    | none => trivial
    | some pods =>
      dsimp only
      split
      · trivial
      refine .ite trivial (.perform_bind trivial fun spotPods => ?_)
      cases spotPods with
      | none => trivial
      | some spotPods =>
        dsimp only
        split
        · trivial
        unfold nameVictim
        cases oldest spotPods with
        | none => trivial
        | some pod => exact .ite trivial (.perform_bind trivial fun now => .ite trivial trivial)

theorem prepares_keyPair (isNew : Bool) : (keyPair isNew).Only Call.Prepares := by
  simp [keyPair, Call.Prepares]

theorem prepares_prepareStorage (wsUuid : String) : (prepareStorage settings req wsUuid).Only Call.Prepares := by
  refine (prepares_sendStatus req _).bind fun _ => .bind ?_ fun prepared => ?_
  · simp [perpareK8sVolume, Call.Prepares]
  · cases prepared with
    | error err => trivial
    | ok value => simp [sendStatus, createK8sVolume, Call.Prepares]

theorem prepares_allExist (objects : List (VolumeKind × String)) : (allExist objects).Only Call.Prepares := by
  induction objects with
  | nil => trivial
  | cons object rest ih =>
    refine .perform_bind trivial fun answer => ?_
    cases answer with
    | found => exact ih
    | notFound => trivial
    | failed => trivial

theorem prepares_volumeExists (uuid devEnv : String) : (volumeExists uuid devEnv).Only Call.Prepares := by
  refine .ite (.perform_bind trivial fun client => .ite trivial (.perform_bind trivial fun volume => ?_)) (.ite ?_ trivial)
  · cases volume <;> trivial
  · exact .perform_bind trivial fun client => .ite trivial (prepares_allExist _)

theorem docks_createDockerVolume (volumeName : String) : (createDockerVolume volumeName).Only Call.Docks := by
  refine .perform_bind trivial fun volumes => ?_
  cases volumes with
  | none => trivial
  | some count =>
    cases count with
    | zero => simp [Call.Docks]
    | succ count => trivial

theorem docks_prepareDockerVolumes (wsUuid : String) : (prepareDockerVolumes req wsUuid).Only Call.Docks := by
  refine .perform_bind trivial fun _ => (docks_createDockerVolume _).bind fun created => ?_
  cases created with
  | error err => trivial
  | ok value => exact docks_createDockerVolume _

theorem docks_startDockerContainer (wsUuid privateKey publicKey : String) :
    (startDockerContainer req wsUuid privateKey publicKey).Only Call.Docks := by
  simp [startDockerContainer, sendStatus, Call.Docks]

theorem waits_waitOnDevContainerScheduled (uuid : String) : (waitOnDevContainerScheduled uuid).Only Call.Waits := by
  refine .perform_bind trivial fun client => .ite trivial (.perform_bind trivial fun events => ?_)
  cases events <;> trivial

theorem waits_pollReady (uuid : String) (attempts : Nat) : (pollReady req uuid attempts).Only Call.Waits := by
  induction attempts with
  | zero => trivial
  | succ attempts ih => exact .perform_bind trivial fun ready => .ite (.perform_bind trivial fun _ => trivial) ih

theorem waits_waitOnDevContainerReady (uuid : String) : (waitOnDevContainerReady req uuid).Only Call.Waits :=
  .perform_bind trivial fun _ => .perform_bind trivial fun attempts => waits_pollReady req uuid attempts

def Call.Aloof : Call → Prop
  | .publish .. | .publishAffinity .. | .unlockQueue | .createWorkspace .. | .newUuid | .genSSHKeyPair => True
  | .dockerClient | .inspectDockerVolume _ | .listDockerVolumes _ | .createDockerVolume _ => True
  | .createContainer .. | .startContainer _ | .kubernetesClient | .watchPod _ | .readyAttempts _ | .ready _ => True
  | _ => False

theorem aloof_of_docks (hp : p.Only Call.Docks) : p.Only Call.Aloof :=
  hp.mono fun call hcall => by cases call <;> trivial

theorem aloof_of_waits (hp : p.Only Call.Waits) : p.Only Call.Aloof :=
  hp.mono fun call hcall => by cases call <;> trivial

theorem aloof_createDockerContainer (isNew : Bool) : (createDockerContainer req isNew).Only Call.Aloof := by
  have hnamed : (workspaceUuid req isNew).Only Call.Aloof := by simp [workspaceUuid, Call.Aloof]
  have hkeys : (keyPair isNew).Only Call.Aloof := by simp [keyPair, Call.Aloof]
  refine .perform_bind trivial fun client => .ite trivial (hnamed.bind fun wsUuid => .ite trivial (hkeys.bind fun keys => ?_))
  cases keys with
  | none => trivial
  | some keys =>
    refine .bind (.ite (aloof_of_docks (docks_prepareDockerVolumes req wsUuid)) trivial) fun stored => ?_
    cases stored with
    | error err => trivial
    | ok value => exact aloof_of_docks (docks_startDockerContainer req wsUuid keys.1 keys.2)

theorem aloof_abandon (message err : String) : (abandon req message err).Only Call.Aloof := by
  simp [abandon, sendError, Call.Aloof]

theorem aloof_awaitContainer (userHeader : String) (isNew : Bool) (message privateKey uuid : String) :
    (awaitContainer settings req userHeader isNew message privateKey uuid).Only Call.Aloof := by
  have hfinish : (finishProvision req userHeader isNew privateKey uuid).Only Call.Aloof := by
    refine .ite (Only.bind (.perform_bind trivial fun answer => ?_) fun written => ?_) ?_
    · rcases answer with _ | ⟨status, body⟩
      · trivial
      · cases body <;> trivial
    · exact .perform_bind trivial fun _ => trivial
    · exact .perform_bind trivial fun _ => trivial
  refine .bind (.ite (aloof_of_waits (waits_waitOnDevContainerScheduled uuid)) trivial) fun placed => ?_
  cases placed with
  | error err => exact aloof_abandon req message err
  | ok value =>
    refine .perform_bind trivial fun _ => (aloof_of_waits (waits_waitOnDevContainerReady req uuid)).bind fun ready => ?_
    cases ready with
    | error err => exact .perform_bind trivial fun _ => trivial
    | ok value => exact hfinish

end HideServer.Provisioner
