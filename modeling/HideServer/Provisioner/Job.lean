import HideServer.Provisioner.Footprint

/-!
# What the background job can do

The job never goes back to the checks of the handler, and the label it puts on a pod is the one the
request asks for.
-/

namespace HideServer.Provisioner

open Async Async.Prog

/-- What the job can ask for. -/
def Call.InJob (req : ProvisionRequest) : Call → Prop
  | .createPod spec => spec.wsType = wsType req
  | .getTemplates | .checkEligibility _ | .checkMembership .. | .consumeAccessCode .. => False
  | .getPod _ | .listContainers => False
  | _ => True

theorem Call.Prepares.inJob (req : ProvisionRequest) {call : Call} (h : call.Prepares) : call.InJob req := by
  cases call <;> trivial

section

variable (settings : Settings) (req : ProvisionRequest)

theorem inJob_of_prepares {α : Type} {p : Io α} (hp : p.Only Call.Prepares) : Only (Call.InJob req) p :=
  hp.mono fun _ => Call.Prepares.inJob req

theorem inJob_of_aloof {α : Type} {p : Io α} (hp : p.Only Call.Aloof) : Only (Call.InJob req) p :=
  hp.mono fun call hcall => by cases call <;> trivial

theorem abandon_inJob (message err : String) : Only (Call.InJob req) (abandon req message err) :=
  inJob_of_aloof req (aloof_abandon req message err)

theorem deployPod_inJob (wsUuid privateKey publicKey : String) :
    Only (Call.InJob req) (deployPod req wsUuid privateKey publicKey) := by
  simp [deployPod, sendStatus, Call.InJob]

theorem workspaceUuid_inJob (isNew : Bool) : Only (Call.InJob req) (workspaceUuid req isNew) := by
  simp [workspaceUuid, Call.InJob]

theorem createK8sPod_inJob (isNew : Bool) : Only (Call.InJob req) (createK8sPod settings req isNew) := by
  refine .perform_bind trivial fun client => .ite trivial ?_
  refine (workspaceUuid_inJob req isNew).bind fun wsUuid => .ite trivial ?_
  refine (inJob_of_prepares req (prepares_keyPair isNew)).bind fun keys => ?_
  cases keys with
  | none => trivial
  | some keys =>
    refine .bind (.ite (inJob_of_prepares req (prepares_prepareStorage settings req wsUuid)) trivial) fun stored => ?_
    cases stored with
    | error err => trivial
    | ok value => exact deployPod_inJob req wsUuid keys.1 keys.2

theorem createDevContainer_inJob (isNew : Bool) : Only (Call.InJob req) (createDevContainer settings req isNew) := by
  have hplatform : Only (Call.InJob req) (createOnPlatform settings req isNew) :=
    .ite (inJob_of_aloof req (aloof_createDockerContainer req isNew)) (.ite (createK8sPod_inJob settings req isNew) trivial)
  refine .ite hplatform ?_
  refine (inJob_of_prepares req (prepares_sendStatus req _)).bind fun _ => ?_
  refine (inJob_of_prepares req (prepares_volumeExists _ _)).bind fun exists' => ?_
  match exists' with
  | .error err | .ok false => trivial
  | .ok true => exact hplatform

theorem provision_inJob (userHeader : String) (isNew : Bool) :
    Only (Call.InJob req) (provision settings req userHeader isNew) := by
  refine .perform_bind trivial fun _ => ?_
  refine (inJob_of_prepares req (prepares_hasCapacity settings _)).bind fun capacity => ?_
  cases capacity with
  | error err => exact abandon_inJob req _ _
  | ok capacity =>
    refine .ite (abandon_inJob req _ _) (Only.bind ?_ fun room => ?_)
    · simp [preempt, killK8sPod, Call.InJob]
    · cases room with
      | error err => exact abandon_inJob req _ _
      | ok value =>
        refine (createDevContainer_inJob settings req isNew).bind fun created => ?_
        cases created with
        | error err => exact abandon_inJob req _ err
        | ok container => exact inJob_of_aloof req (aloof_awaitContainer settings req userHeader isNew _ _ _)

theorem background_inJob (userHeader : String) (isNew : Bool) :
    Only (Call.InJob req) (background settings req userHeader isNew) := by
  refine (provision_inJob settings req userHeader isNew).bind fun result => ?_
  cases result <;> simp [resetAccessCode, deleteAccessCode, Call.InJob]

theorem startJob_inJob (r : HttpRequest) (hbody : r.body = some req) (decision : Decision) :
    Only (Call.InJob req) (startJob settings r decision) := by
  unfold startJob
  rw [hbody]
  cases decision.job with
  | none => trivial
  | some isNew => exact background_inJob settings req r.userHeader isNew

end

end HideServer.Provisioner
