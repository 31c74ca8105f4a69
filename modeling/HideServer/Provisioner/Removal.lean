import HideServer.Async.Trace
import HideServer.Provisioner.Cluster
import HideServer.Provisioner.Gate

/-!
# Pods and their Services

`createK8sPod` creates a pod and a Service; `disposeK8sPod` and `deleteK8sPod` delete both, but look for
the pod first; `killK8sPod` deletes the pod only.
-/

namespace HideServer.Provisioner.Removal

open Async Async.Prog Trace

inductive Command where
  | request (call : Call)
  | deleteService (name : String)
  /-- `DeleteWorkspaceCRD` -/
  | deleteWorkspaceResource (wsUuid : String)

abbrev Command.Answer : Command → Type
  | .request call => call.Answer
  | .deleteService _ | .deleteWorkspaceResource _ => Bool

def exec (others : (call : Call) → call.Answer) : (command : Command) → Cluster → command.Answer × Cluster
  | .request call, s => s.exec others call
  | .deleteService name, s =>
    if name ∈ s.services then (true, { s.tick with services := s.services.filter (· ≠ name) }) else (false, s.tick)
  | .deleteWorkspaceResource wsUuid, s =>
    if podName wsUuid ∈ s.resources then (true, { s.tick with resources := s.resources.filter (· ≠ podName wsUuid) })
    else (false, s.tick)

abbrev Io := Prog Command Command.Answer

abbrev ask (call : Call) : Io call.Answer := perform (Command.request call)

/-- A Service that cannot be deleted is logged only. -/
def disposeK8sPod (uuid : String) : Io (Except String Unit) := do
  let client ← ask .kubernetesClient
  if !client then return .error "client failed"
  let pod ← ask (.getPod (podName uuid))
  match pod with
  | .notFound => return .ok ()
  | .failed => return .error "get failed"
  | .found =>
    let deleted ← ask (.deletePod (podName uuid) 20)
    if !deleted then return .error "delete failed"
    let _ ← perform (Command.deleteService (podName uuid))
    return .ok ()

/-- The cleanup job and the resource. -/
def cleanUp (settings : Settings) (wsUuid : String) : Io (Except String Unit) := do
  let created ← ask (.createJob ("cleanup-volume-" ++ wsUuid))
  if !created then return .error "create failed"
  let _ ← ask (.waitJob ("cleanup-volume-" ++ wsUuid))
  if !settings.noJobDelete then
    let _ ← ask (.deleteJob ("cleanup-volume-" ++ wsUuid))
  let deleted ← perform (Command.deleteWorkspaceResource wsUuid)
  return if deleted then .ok () else .error "delete failed"

def deleteK8sPod (settings : Settings) (wsUuid : String) : Io (Except String Unit) := do
  let client ← ask .kubernetesClient
  if !client then return .error "client failed"
  let _ ← ask (.deleteVolume .claim (dataVolumeName wsUuid))
  let _ ← ask (.deleteVolume .claim (configVolumeName wsUuid))
  let _ ← ask (.deleteVolume .volume (dataVolumeName wsUuid))
  let _ ← ask (.deleteVolume .volume (configVolumeName wsUuid))
  match ← disposeK8sPod wsUuid with
  | .error err => return .error err
  | .ok () => cleanUp settings wsUuid

inductive Label where
  /-- `CreateK8sPod`, with the uuid a new workspace gets. -/
  | create (req : ProvisionRequest) (isNew : Bool) (uuid : String)
  | kill (name : String)
  | dispose (uuid : String)
  | delete (uuid : String)
  deriving DecidableEq, Repr

section

variable (others : (call : Call) → call.Answer) (settings : Settings)

def step (s : Cluster) : Label → Cluster
  | .create req isNew uuid => (run (Cluster.exec others) (createK8sPod settings req isNew) { s with uuid := uuid }).2
  | .kill name => (run (Cluster.exec others) (killK8sPod settings name) s).2
  | .dispose uuid => (run (exec others) (disposeK8sPod uuid) s).2
  | .delete uuid => (run (exec others) (deleteK8sPod settings uuid) s).2

/-- A workspace without a pod has no Service. -/
def Matched (s : Cluster) : Prop := ∀ uuid, ¬s.Has (podName uuid) → podName uuid ∉ s.services

def volumesOf (uuid : String) : List (VolumeKind × String) :=
  [(.volume, dataVolumeName uuid), (.claim, dataVolumeName uuid), (.volume, configVolumeName uuid),
    (.claim, configVolumeName uuid)]

/-- Any workspace that has its volumes and no pod can be restored. -/
def Restorable (s : Cluster) : Prop :=
  ∀ req : ProvisionRequest, req.uuid ≠ "" → (∀ volume ∈ volumesOf req.uuid, volume ∈ s.volumes) → ¬s.Has (podName req.uuid) →
    (run (Cluster.exec others) (createDevContainer settings req false) s).1 = .ok ("", req.uuid)

/-- Only a pod without a Service is preempted. -/
def Sparing (s : Cluster) : Label → Prop
  | .kill name => s.Has name → name ∉ s.services
  | _ => True

instance (s : Cluster) : (label : Label) → Decidable (Sparing s label)
  | .kill name => inferInstanceAs (Decidable (s.Has name → name ∉ s.services))
  | .create .. | .dispose _ | .delete _ => .isTrue trivial

end

variable (name : String) (uuid : String) (req : ProvisionRequest)

section

variable {others : (call : Call) → call.Answer} {settings : Settings} {s : Cluster} {α : Type}

theorem Matched.congr {t : Cluster} (h : Matched s) (hhas : ∀ name, s.Has name → t.Has name)
    (hservices : t.services = s.services) : Matched t := by
  intro uuid hpod
  rw [hservices]
  exact h uuid fun hhad => hpod (hhas _ hhad)

theorem Matched.tick (h : Matched s) : Matched s.tick := h.congr (fun name => (s.has_tick name).mpr) s.tick_services

theorem matched_exec (others : (call : Call) → call.Answer) {call : Call} (hquiet : call.Quiet) (h : Matched s) :
    Matched (s.exec others call).2 := by
  obtain ⟨hpods, hservices, -⟩ := Cluster.exec_quiet others hquiet s
  refine h.congr (fun name hhas => ?_) hservices
  unfold Cluster.Has
  rw [hpods]
  exact (s.has_tick name).mpr hhas

theorem matched_quiet {p : Provisioner.Io α} (hp : p.Only Call.Quiet) :
    Triple (Cluster.exec others) Matched p fun _ => Matched :=
  hp.triple fun _ _ => matched_exec others

theorem matched_createPod (spec : PodSpec) : Triple (Cluster.exec others) Matched
    (Provisioner.ask (.createPod spec)) fun created s => Matched s ∧
      (created = true → s.Has (podName spec.wsUuid) ∧ podName spec.wsUuid ∉ s.services) := by
  refine .perform fun s hs => ?_
  by_cases hhas : s.tick.Has (podName spec.wsUuid)
  · simp only [Cluster.exec, Cluster.respond, dif_pos hhas]
    exact ⟨hs.tick, fun hcreated => by cases hcreated⟩
  · simp only [Cluster.exec, Cluster.respond, dif_neg hhas]
    refine ⟨hs.tick.congr (fun name h => (Cluster.has_createPod ..).mpr (.inl h)) rfl, fun _ => ⟨?_, hs.tick _ hhas⟩⟩
    exact (Cluster.has_createPod ..).mpr (.inr rfl)

theorem matched_createService :
    Triple (Cluster.exec others) (fun s => Matched s ∧ s.Has name ∧ name ∉ s.services)
      (Provisioner.ask (.createService name)) fun created s => created = true ∧ Matched s := by
  refine .perform fun s hs => ?_
  obtain ⟨hmatched, hhas, hnone⟩ := hs
  rw [← s.tick_services] at hnone
  simp only [Cluster.exec, Cluster.respond, if_neg hnone, true_and]
  intro uuid hpod hservice
  rcases List.mem_cons.mp hservice with heq | hservice
  · exact hpod (heq ▸ (s.has_tick name).mpr hhas)
  · exact hmatched.tick uuid hpod hservice

theorem matched_deployPod (wsUuid privateKey publicKey : String) :
    Triple (Cluster.exec others) Matched (deployPod req wsUuid privateKey publicKey) fun _ => Matched := by
  refine .bind (matched_quiet (p := sendStatus req _) (.single trivial)) fun _ => ?_
  refine .bind (matched_createPod _) fun pod => .ite (fun _ _ hs => hs.1) fun hpod => ?_
  have hcreated : pod = true := by simpa using hpod
  -- the workspace had no pod and so no Service: the pod is never taken back
  refine .bind ((matched_createService _).strengthen fun s hs => ⟨hs.1, hs.2 hcreated⟩) fun service => ?_
  refine .ite_of_not (fun s hs => by simp [hs.1]) (.strengthen (matched_quiet ?_) fun s hs => hs.2)
  exact .ite (.single trivial) trivial

theorem matched_createK8sPod (isNew : Bool) :
    Triple (Cluster.exec others) Matched (createK8sPod settings req isNew) fun _ => Matched :=
  triple_createK8sPod (fun _ _ => matched_exec others) (fun _ h => h) (matched_deployPod req)

theorem matched_killK8sPod :
    Triple (Cluster.exec others) (fun s => Matched s ∧ (s.Has name → name ∉ s.services)) (killK8sPod settings name)
      fun _ => Matched := by
  refine .ite (fun _ s hs => hs.1) fun _ s hs => ?_
  obtain ⟨hmatched, hspared⟩ := hs
  simp only [run_bind, run_perform, Cluster.exec, Cluster.respond, Bool.not_true, Bool.false_eq_true, if_false,
    pure_eq, run_ret]
  split_ifs with hhas
  -- a Service of the pod would stay behind
  · intro uuid hpod hservice
    have hservice : podName uuid ∈ s.services := by simpa [Cluster.deletePod] using hservice
    simp only [Cluster.has_deletePod, Cluster.has_tick, not_and, not_not] at hpod hhas
    by_cases hown : s.Has (podName uuid)
    · exact hspared hhas (hpod hown ▸ hservice)
    · exact hmatched uuid hown hservice
  · exact hmatched.tick.tick

def Command.Quiet : Command → Prop
  | .request call => call.Quiet
  | .deleteService _ => False
  | .deleteWorkspaceResource _ => True

theorem matched_quietly {p : Io α} (hp : p.Only Command.Quiet) : Triple (exec others) Matched p fun _ => Matched := by
  refine Only.triple (fun command s hquiet h => ?_) hp
  cases command with
  | request call => exact matched_exec others hquiet h
  | deleteService => cases hquiet
  | deleteWorkspaceResource wsUuid =>
    simp only [exec]
    split <;> exact h.tick

/-- A pod is gone, and only its Service may be left. -/
def Halved (s : Cluster) : Prop :=
  ¬s.Has name ∧ ∀ uuid, podName uuid ≠ name → ¬s.Has (podName uuid) → podName uuid ∉ s.services

theorem halved_deletePod (gracePeriod : Nat) :
    Triple (exec others) Matched (ask (.deletePod name gracePeriod)) fun deleted s =>
      if deleted then Halved name s else Matched s := by
  refine .perform fun s hs => ?_
  by_cases hhas : s.tick.Has name
  · simp only [exec, Cluster.exec, Cluster.respond, if_pos hhas]
    refine ⟨fun h => ((Cluster.has_deletePod ..).mp h).2 rfl, fun uuid hother hpod => hs.tick uuid fun h => hpod ?_⟩
    exact (Cluster.has_deletePod ..).mpr ⟨h, hother⟩
  · simp only [exec, Cluster.exec, Cluster.respond, if_neg hhas]
    exact hs.tick

theorem matched_deleteService :
    Triple (exec others) (Halved name) (perform (Command.deleteService name)) fun _ => Matched := by
  refine .perform fun s hs => ?_
  obtain ⟨hgone, hrest⟩ := hs
  by_cases hservice : name ∈ s.services
  · simp only [exec, if_pos hservice]
    intro uuid hpod hlisted
    obtain ⟨hlisted, hother⟩ := List.mem_filter.mp hlisted
    exact hrest uuid (by simpa using hother) (fun h => hpod ((s.has_tick _).mpr h)) hlisted
  · simp only [exec, if_neg hservice]
    intro uuid hpod hlisted
    rw [s.tick_services] at hlisted
    have hother : podName uuid ≠ name := fun heq => hservice (heq ▸ hlisted)
    exact hrest uuid hother (fun h => hpod ((s.has_tick _).mpr h)) hlisted

theorem matched_disposeK8sPod : Triple (exec others) Matched (disposeK8sPod uuid) fun _ => Matched := by
  refine .bind (matched_quietly (.single trivial)) fun client => .ite (fun _ _ hs => hs) fun _ => ?_
  refine .bind (matched_quietly (.single trivial)) fun pod => ?_
  cases pod with
  | notFound | failed => exact fun _ hs => hs
  | found =>
    refine .bind (halved_deletePod _ 20) fun deleted => ?_
    cases deleted with
    | false => exact fun _ hs => hs
    | true => exact .bind (matched_deleteService _) fun _ _ hs => hs

theorem matched_deleteK8sPod (wsUuid : String) :
    Triple (exec others) Matched (deleteK8sPod settings wsUuid) fun _ => Matched := by
  refine .bind (matched_quietly (.single trivial)) fun client => .ite (fun _ _ hs => hs) fun _ => ?_
  refine .bind (matched_quietly (.single trivial)) fun _ => ?_
  refine .bind (matched_quietly (.single trivial)) fun _ => ?_
  refine .bind (matched_quietly (.single trivial)) fun _ => ?_
  refine .bind (matched_quietly (.single trivial)) fun _ => ?_
  refine .bind (matched_disposeK8sPod wsUuid) fun disposed => ?_
  cases disposed with
  | error err => exact fun _ hs => hs
  | ok value => exact matched_quietly (by simp [cleanUp, Command.Quiet, Call.Quiet])

/-- The workspace can be restored. -/
def Cold (s : Cluster) : Prop :=
  (∀ volume ∈ volumesOf uuid, volume ∈ s.volumes) ∧ ¬s.Has (podName uuid) ∧ podName uuid ∉ s.services

variable {uuid : String}

theorem Cold.tick (h : Cold uuid s) : Cold uuid s.tick := by
  unfold Cold
  rw [s.tick_volumes, s.has_tick, s.tick_services]
  exact h

theorem cold_status (message uuid : String) :
    Triple (Cluster.exec others) (Cold uuid) (sendStatus req message) fun _ => Cold uuid :=
  .perform fun _ hs => hs.tick

theorem cold_client (uuid : String) :
    Triple (Cluster.exec others) (Cold uuid) (Provisioner.ask .kubernetesClient) fun client s =>
      client = true ∧ Cold uuid s :=
  .perform fun _ hs => ⟨rfl, hs.tick⟩

theorem found_allExist (objects : List (VolumeKind × String)) (hobjects : objects ⊆ volumesOf uuid) :
    Triple (Cluster.exec others) (Cold uuid) (allExist objects) fun result s => result = .ok true ∧ Cold uuid s := by
  induction objects with
  | nil => exact fun s hs => ⟨rfl, hs⟩
  | cons object objects ih =>
    obtain ⟨hobject, hrest⟩ := List.cons_subset.mp hobjects
    intro s hs
    have hfound : (s.exec others (.getVolume object.1 object.2)).1 = .found := if_pos (hs.tick.1 object hobject)
    simp only [allExist, run_bind, run_perform, hfound]
    exact ih hrest _ hs.tick

theorem found_volumeExists (uuid : String) :
    Triple (Cluster.exec others) (Cold uuid) (volumeExists uuid "") fun result s =>
      result = .ok true ∧ Cold uuid s := by
  refine .ite_of_not (fun _ _ => by decide) (.ite (fun _ => ?_) fun hplatform => absurd rfl hplatform)
  refine .bind (cold_client uuid) fun client => .ite_of_not (fun s hs => by simp [hs.1]) ?_
  exact (found_allExist _ fun _ h => h).strengthen fun s hs => hs.2

theorem created_pod (spec : PodSpec) (huuid : spec.wsUuid = uuid) :
    Triple (Cluster.exec others) (Cold uuid) (Provisioner.ask (.createPod spec)) fun created s =>
      created = true ∧ podName uuid ∉ s.services := by
  subst huuid
  refine .perform fun s hs => ?_
  obtain ⟨-, hpod, hservice⟩ := hs.tick
  simp only [Cluster.exec, Cluster.respond, dif_neg hpod, true_and]
  exact hservice

theorem created_service :
    Triple (Cluster.exec others) (fun s => name ∉ s.services) (Provisioner.ask (.createService name)) fun created _ =>
      created = true := by
  refine .perform fun s hs => ?_
  rw [← s.tick_services] at hs
  simp only [Cluster.exec, Cluster.respond, if_neg hs]

theorem restored_deployPod :
    Triple (Cluster.exec others) (Cold req.uuid) (deployPod req req.uuid "" "") fun result _ =>
      result = .ok ("", req.uuid) := by
  refine .bind (cold_status req _ req.uuid) fun _ => .bind (created_pod _ rfl) fun pod => ?_
  refine .ite_of_not (fun s hs => by simp [hs.1]) ?_
  refine .bind ((created_service _).strengthen fun s hs => hs.2) fun service => .ite_of_not (fun s hs => by simp [hs]) ?_
  exact .ite (fun _ _ _ => rfl) fun _ _ _ => rfl

theorem restored_createK8sPod (huuid : req.uuid ≠ "") :
    Triple (Cluster.exec others) (Cold req.uuid) (createK8sPod settings req false) fun result _ =>
      result = .ok ("", req.uuid) := by
  refine .bind (cold_client req.uuid) fun client => .ite_of_not (fun s hs => by simp [hs.1]) ?_
  refine .ite_of_not (fun _ _ => huuid) ?_
  exact (restored_deployPod req).strengthen fun s hs => hs.2

theorem restored_createDevContainer (hplatform : settings.devPlatform = "") (req : ProvisionRequest)
    (huuid : req.uuid ≠ "") :
    Triple (Cluster.exec others) (Cold req.uuid) (createDevContainer settings req false) fun result _ =>
      result = .ok ("", req.uuid) := by
  refine .ite_of_not (fun _ _ => by decide) (.bind (cold_status req _ req.uuid) fun _ => ?_)
  rw [hplatform]
  refine .bind (found_volumeExists req.uuid) fun result s hs => ?_
  obtain ⟨rfl, hcold⟩ := hs
  simp only [createOnPlatform, hplatform, String.reduceEq, if_false, if_true]
  exact restored_createK8sPod req huuid s hcold

end

variable {others : (call : Call) → call.Answer} {settings : Settings}

theorem matched_step {s : Cluster} {label : Label} (h : Matched s) (hsparing : Sparing s label) :
    Matched (step others settings s label) := by
  cases label with
  | create req isNew uuid => exact matched_createK8sPod req isNew _ (h.congr (fun _ hhas => hhas) rfl)
  | kill name => exact matched_killK8sPod name s ⟨h, hsparing⟩
  | dispose uuid => exact matched_disposeK8sPod uuid s h
  | delete uuid => exact matched_deleteK8sPod uuid s h

theorem restorable_of_matched (hplatform : settings.devPlatform = "") {s : Cluster} (h : Matched s) :
    Restorable others settings s :=
  fun req huuid hvolumes hpod => restored_createDevContainer hplatform req huuid s ⟨hvolumes, hpod, h req.uuid hpod⟩

/-- As long as only pods without a Service are preempted, every Service has its pod and every workspace that lost
its pod can be restored. -/
theorem restorable_of_sparing (hplatform : settings.devPlatform = "") {s : Cluster} (hstart : Matched s)
    {labels : List Label} (hsparing : Along (step others settings) Sparing s labels) :
    Always (step others settings) (fun s => Matched s ∧ Restorable others settings s) s labels := by
  refine always_of_invariant (C := Sparing) ?_ ?_ hstart hsparing
  · exact fun s label h hlabel => matched_step h hlabel
  · exact fun s h => ⟨h, restorable_of_matched hplatform h⟩

def bare : Cluster := ⟨[], List.nodup_nil, [], [], [], [], (2000, []), 0, "", []⟩

theorem matched_bare : Matched bare := fun _ _ hservice => by cases hservice

def spotRequest : ProvisionRequest := ⟨"alice", "s1", "node", "space", "d", uuid, false, ""⟩

def helpful : (call : Call) → call.Answer := obliging "node" .failed .failed []

def cycle : List Label :=
  [.create (spotRequest "") true "w1", .dispose "w1", .kill "workspace-w1", .create (spotRequest "w1") false "",
    .delete "w1"]

theorem restorable_cycle : Always (step helpful defaultSettings)
    (fun s => Matched s ∧ Restorable helpful defaultSettings s) bare cycle :=
  restorable_of_sparing rfl matched_bare (by decide)

/-- The pod of the workspace is preempted, and disposing of the workspace then finds no pod. -/
def preempted : List Label := [.create (spotRequest "") true "w1", .kill "workspace-w1", .dispose "w1"]

/-- The volumes of the workspace are there and its pod is gone, but the Service is not, and restoring fails. -/
theorem stranded_service : let s := run (step helpful defaultSettings) bare preempted
    ¬Matched s ∧ (∀ volume ∈ volumesOf "w1", volume ∈ s.volumes) ∧ ¬s.Has (podName "w1") ∧
      (run (Cluster.exec helpful) (createDevContainer defaultSettings (spotRequest "w1") false) s).1 =
        .error "service creation failed" := by
  refine ⟨fun h => h "w1" (by decide) (by decide), by decide, by decide, by decide⟩

end HideServer.Provisioner.Removal
