import HideServer.Provisioner.Admission
import HideServer.Provisioner.Recording

/-!
# What a failed provisioning leaves behind

The volumes take back what they have created when one of them fails; nothing else is taken back. The
cluster is at rest but for the call, and `Hazards` says which requests fail. A request that fails has no
effect.
-/

namespace HideServer.Provisioner

open Async Async.Prog List Cluster

structure Hazards where
  fails : Call → Bool
  /-- The answers from outside the cluster. -/
  others : (call : Call) → call.Answer

structure Site where
  cluster : Cluster
  /-- Whether the next clients can be made; all the later ones can. -/
  clients : List Bool
  /-- What the workspace answers to the polls that fit in before the deadline. -/
  polls : List Bool

namespace Site

variable (hazards : Hazards)

/-- A request that fails has no effect. -/
def attempt (call : Call) (s : Site) : call.Answer × Site :=
  if hazards.fails call then (default, s)
  else ((s.cluster.respond hazards.others call).1, { s with cluster := (s.cluster.respond hazards.others call).2 })

def exec : (call : Call) → Site → call.Answer × Site
  | .kubernetesClient, s => (s.clients.headD true, { s with clients := s.clients.tail })
  | .readyAttempts _, s => (s.polls.length, s)
  | .ready _, s => (s.polls.headD false, { s with polls := s.polls.tail })
  | .newUuid, s => (s.cluster.uuid, s)
  | .now, s => (s.cluster.now, s)
  | call, s => attempt hazards call s

def withVolumes (s : Site) (volumes : List (VolumeKind × String)) : Site :=
  { s with cluster := { s.cluster with volumes := volumes } }

def withJobs (s : Site) (jobs : List String) : Site := { s with cluster := { s.cluster with jobs := jobs } }

end Site

/-- Pods, Services, volumes and claims are as before; so are the Jobs, whose pods are there as long as they are. -/
structure Untouched (before after : Cluster) : Prop where
  pods : after.pods = before.pods
  services : after.services = before.services
  volumes : after.volumes = before.volumes
  jobs : after.jobs = before.jobs

def LeavesNothing (hazards : Hazards) (settings : Settings) (req : ProvisionRequest) (userHeader : String)
    (s : Site) : Prop :=
  let ended := run (Site.exec hazards) (provision settings req userHeader true) s
  ended.1.isOk = false → Untouched s.cluster ended.2.cluster

/-! ### Storage -/

/-- What `createK8sVolume` creates, in this order, with the error if it cannot. -/
def storage (wsUuid : String) : List ((VolumeKind × String) × String) :=
  [((.volume, dataVolumeName wsUuid), "Could not create 'data' PV"),
    ((.volume, configVolumeName wsUuid), "Could not create 'config' PV, cleaning up"),
    ((.claim, dataVolumeName wsUuid), "Could not create 'data' PVC, cleaning up"),
    ((.claim, configVolumeName wsUuid), "Could not create 'config' PVC, cleaning up")]

def objects (wsUuid : String) : List (VolumeKind × String) := (storage wsUuid).map Prod.fst

/-- One object after the other is created; at the first that fails, those made before are deleted again. -/
def makeAll : List (VolumeKind × String) → List ((VolumeKind × String) × String) → Io (Except String Unit)
  | _, [] => return .ok ()
  | made, (object, err) :: rest => do
    let created : Bool ← ask (.createVolume object.1 object.2)
    if !created then
      Prog.each made fun object => do
        let _ : Bool ← ask (.deleteVolume object.1 object.2)
      return .error err
    makeAll (made ++ [object]) rest

theorem createK8sVolume_eq (wsUuid : String) : createK8sVolume wsUuid = makeAll [] (storage wsUuid) := rfl

/-- The object can be created. -/
def Creatable (hazards : Hazards) (volumes : List (VolumeKind × String)) (object : VolumeKind × String) : Prop :=
  hazards.fails (.createVolume object.1 object.2) = false ∧ object ∉ volumes

instance (hazards : Hazards) (volumes : List (VolumeKind × String)) (object : VolumeKind × String) :
    Decidable (Creatable hazards volumes object) :=
  inferInstanceAs (Decidable (_ ∧ _))

/-- One of the objects cannot be created, and all those made before it can be deleted again. -/
def TakenBack (hazards : Hazards) (volumes : List (VolumeKind × String)) :
    List (VolumeKind × String) → List (VolumeKind × String) → Prop
  | _, [] => False
  | made, object :: rest =>
    if Creatable hazards volumes object then TakenBack hazards volumes (made ++ [object]) rest
    else ∀ object ∈ made, hazards.fails (.deleteVolume object.1 object.2) = false

section

variable {hazards : Hazards}

variable {made base : List (VolumeKind × String)}

theorem not_and_of_fails {call : Call} (h : hazards.fails call = true) (P : Prop) : ¬(hazards.fails call = false ∧ P) := by
  simp [h]

theorem exec_createVolume (object : VolumeKind × String) (s : Site) :
    Site.exec hazards (.createVolume object.1 object.2) s =
      if Creatable hazards s.cluster.volumes object then (true, s.withVolumes (object :: s.cluster.volumes))
      else (false, s) := by
  by_cases hfails : hazards.fails (.createVolume object.1 object.2) = true
  · exact (if_pos hfails).trans (if_neg (not_and_of_fails hfails _)).symm
  · by_cases hthere : object ∈ s.cluster.volumes <;>
      simp [Site.exec, Site.attempt, Site.withVolumes, respond, Creatable, hfails, hthere]

theorem exec_deleteVolume (object : VolumeKind × String) (s : Site) :
    (Site.exec hazards (.deleteVolume object.1 object.2) s).2 = s.withVolumes (s.cluster.volumes.filter fun other =>
        other ≠ object ∨ hazards.fails (.deleteVolume object.1 object.2)) := by
  by_cases hfails : hazards.fails (.deleteVolume object.1 object.2) = true
  · simp [Site.exec, Site.attempt, Site.withVolumes, hfails]
  · by_cases hthere : object ∈ s.cluster.volumes
    · simp [Site.exec, Site.attempt, Site.withVolumes, respond, hfails, hthere]
    · have hsame : s.cluster.volumes.filter (fun other => !decide (other = object)) = s.cluster.volumes := by
        rw [filter_eq_self]
        intro other hother
        simpa using fun heq : other = object => hthere (heq ▸ hother)
      simp [Site.exec, Site.attempt, Site.withVolumes, respond, hfails, hthere, hsame]

theorem run_deletes (made : List (VolumeKind × String)) (s : Site) :
    run (Site.exec hazards) (Prog.each made fun object => do let _ : Bool ← ask (.deleteVolume object.1 object.2)) s =
      ((), s.withVolumes (s.cluster.volumes.filter fun object =>
        object ∉ made ∨ hazards.fails (.deleteVolume object.1 object.2))) := by
  induction made generalizing s with
  | nil => simp [Prog.each, Site.withVolumes]
  | cons object made ih =>
    change run (Site.exec hazards) (Prog.each made _) (Site.exec hazards (.deleteVolume object.1 object.2) s).2 = _
    rw [ih, exec_deleteVolume]
    simp only [Site.withVolumes, filter_filter]
    congr 4
    funext other
    by_cases heq : other = object
    · subst heq
      by_cases hfails : hazards.fails (.deleteVolume other.1 other.2) <;> simp [hfails]
    · simp [heq]

theorem filter_made_eq_iff (hmade : ∀ object ∈ made, object ∉ base) :
    ((made.reverse ++ base).filter fun object => object ∉ made ∨ hazards.fails (.deleteVolume object.1 object.2)) = base ↔
      ∀ object ∈ made, hazards.fails (.deleteVolume object.1 object.2) = false := by
  have hbase : (base.filter fun object => object ∉ made ∨ hazards.fails (.deleteVolume object.1 object.2)) = base := by
    rw [filter_eq_self]
    intro object hobject
    simpa using .inl fun hin => hmade object hin hobject
  rw [filter_append, hbase, append_left_eq_self, filter_eq_nil_iff]
  simp only [mem_reverse, decide_eq_true_eq, not_or, not_not, Bool.not_eq_true]
  exact ⟨fun h object hobject => (h object hobject).2, fun h object hobject => ⟨hobject, h object hobject⟩⟩

structure Stored (hazards : Hazards) (base made objects : List (VolumeKind × String)) (s : Site)
    (ended : Except String Unit × Site) : Prop where
  all : (∀ object ∈ objects, Creatable hazards base object) →
    ended = (.ok (), s.withVolumes ((made ++ objects).reverse ++ base))
  stopped : ¬(∀ object ∈ objects, Creatable hazards base object) →
    ended.1.isOk = false ∧ ∃ volumes, ended.2 = s.withVolumes volumes ∧
      (volumes = base ↔ TakenBack hazards base made objects)

/-- Everything is created, or what was created is taken back as far as it can be. -/
theorem stored_makeAll (rest : List ((VolumeKind × String) × String)) {s : Site}
    (hvolumes : s.cluster.volumes = made.reverse ++ base) (hmade : ∀ object ∈ made, object ∉ base)
    (hnodup : (made ++ rest.map Prod.fst).Nodup) :
    Stored hazards base made (rest.map Prod.fst) s (run (Site.exec hazards) (makeAll made rest) s) := by
  induction rest generalizing made s with
  | nil =>
    refine ⟨fun _ => ?_, fun hnot => absurd (fun object hobject => by cases hobject) hnot⟩
    rw [map_nil, append_nil, ← hvolumes]
    rfl
  | cons entry rest ih =>
    obtain ⟨object, err⟩ := entry
    rw [map_cons] at hnodup ⊢
    have hnew : object ∉ made := fun hin =>
      (nodup_append.mp hnodup).2.2 object hin object mem_cons_self rfl
    have hcreatable : Creatable hazards s.cluster.volumes object ↔ Creatable hazards base object := by
      simp [Creatable, hvolumes, hnew]
    rw [makeAll, run_bind, run_perform, exec_createVolume]
    by_cases hobject : Creatable hazards base object
    · rw [if_pos (hcreatable.mpr hobject)]
      have hadded : ∀ other ∈ made ++ [object], other ∉ base := by
        intro other hother
        rcases mem_append.mp hother with hother | hother
        · exact hmade other hother
        · exact mem_singleton.mp hother ▸ hobject.2
      have hrest := @ih (made ++ [object]) (s.withVolumes (object :: s.cluster.volumes))
        (by simp [Site.withVolumes, hvolumes]) hadded (by simpa using hnodup)
      have hall : (∀ other ∈ object :: rest.map Prod.fst, Creatable hazards base other) ↔
          ∀ other ∈ rest.map Prod.fst, Creatable hazards base other := by
        rw [forall_mem_cons]
        exact and_iff_right hobject
      refine ⟨fun hevery => ?_, fun hnot => ?_⟩
      · have hended := hrest.all (hall.mp hevery)
        rw [append_assoc, singleton_append] at hended
        exact hended
      · rw [TakenBack, if_pos hobject]
        exact hrest.stopped (hall.not.mp hnot)
    · rw [if_neg (hcreatable.not.mpr hobject)]
      have hnot : ¬∀ other ∈ object :: rest.map Prod.fst, Creatable hazards base other :=
        fun hall => hobject (hall object mem_cons_self)
      refine ⟨fun hall => absurd hall hnot, fun _ => ?_⟩
      simp only [Bool.not_false, if_true, run_bind, run_deletes]
      refine ⟨rfl, _, rfl, ?_⟩
      rw [TakenBack, if_neg hobject, hvolumes, filter_made_eq_iff hmade]

theorem dataVolumeName_ne (wsUuid : String) : dataVolumeName wsUuid ≠ configVolumeName wsUuid := by
  intro (heq : "workspace-data-" ++ wsUuid = "workspace-config-" ++ wsUuid)
  have hchar := congrArg (fun name => name.toList[10]?) heq
  simp only [String.toList_append] at hchar
  rw [getElem?_append_left (by decide), getElem?_append_left (by decide)] at hchar
  exact absurd hchar (by decide)

variable (hazards) in
theorem stored_createK8sVolume (wsUuid : String) (s : Site) :
    Stored hazards s.cluster.volumes [] (objects wsUuid) s (run (Site.exec hazards) (createK8sVolume wsUuid) s) := by
  rw [createK8sVolume_eq]
  refine stored_makeAll (storage wsUuid) rfl (fun object hobject => by cases hobject) ?_
  have hne := dataVolumeName_ne wsUuid
  simp [storage, hne]

theorem takenBack_of_deletes (hdeletes : ∀ kind name, hazards.fails (.deleteVolume kind name) = false)
    {objects : List (VolumeKind × String)} (hnot : ¬∀ object ∈ objects, Creatable hazards base object) :
    TakenBack hazards base made objects := by
  induction objects generalizing made with
  | nil => exact hnot fun object hobject => by cases hobject
  | cons object objects ih =>
    unfold TakenBack
    split_ifs with hobject
    · exact ih fun hall => hnot (forall_mem_cons.mpr ⟨hobject, hall⟩)
    · exact fun object _ => hdeletes object.1 object.2

end

/-- If what exists can be deleted, then either all four objects have been added, none of which was there, or the call
fails and everything is as before. -/
theorem createK8sVolume_atomic (hazards : Hazards) (wsUuid : String) (s : Site)
    (hdeletes : ∀ kind name, hazards.fails (.deleteVolume kind name) = false) :
    let ended := run (Site.exec hazards) (createK8sVolume wsUuid) s
    (ended.1 = .ok () ∧ ended.2 = s.withVolumes ((objects wsUuid).reverse ++ s.cluster.volumes) ∧
        ∀ object ∈ objects wsUuid, object ∉ s.cluster.volumes) ∨
      ended.1.isOk = false ∧ ended.2 = s := by
  intro ended
  have hstored := stored_createK8sVolume hazards wsUuid s
  by_cases hall : ∀ object ∈ objects wsUuid, Creatable hazards s.cluster.volumes object
  · have hended : ended = _ := hstored.all hall
    refine .inl ⟨by rw [hended], by rw [hended]; rfl, fun object hobject => (hall object hobject).2⟩
  · obtain ⟨herror, volumes, hended, hback⟩ := hstored.stopped hall
    refine .inr ⟨herror, ?_⟩
    have hsame : volumes = s.cluster.volumes := hback.mpr (takenBack_of_deletes hdeletes hall)
    rw [hended, hsame]
    rfl

/-! ### Requests that do not matter to the cluster -/

/-- The answer from outside, if it comes. -/
def Hazards.reply (hazards : Hazards) (call : Call) : call.Answer :=
  if hazards.fails call then default else hazards.others call

def Call.Aside : Call → Prop
  | .publish .. | .lockQueue | .unlockQueue | .waitJob _ | .genSSHKeyPair | .watchPod _ | .createWorkspace .. => True
  | _ => False

def Call.Touches : Call → Prop
  | .createPod _ | .deletePod .. | .createService _ | .createVolume .. | .deleteVolume .. => True
  | .createJob _ | .deleteJob _ | .createWorkspaceResource .. => True
  | _ => False

section

variable {hazards : Hazards}

theorem exec_aside (call : Call) (h : call.Aside) (s : Site) : Site.exec hazards call s = (hazards.reply call, s) := by
  unfold Hazards.reply
  cases call with
  | publish | lockQueue | unlockQueue | waitJob | genSSHKeyPair | watchPod | createWorkspace =>
    simp only [Site.exec, Site.attempt, respond]
    split_ifs <;> rfl
  | _ => cases h

theorem cluster_exec {call : Call} (h : ¬call.Touches) (s : Site) : (Site.exec hazards call s).2.cluster = s.cluster := by
  cases call with
  | createPod | deletePod | createService | createVolume | deleteVolume | createJob | deleteJob | createWorkspaceResource =>
    exact absurd trivial h
  | kubernetesClient | readyAttempts | ready | newUuid | now => rfl
  | _ =>
    simp only [Site.exec, Site.attempt, respond]
    split_ifs <;> rfl

theorem cluster_aloof {α : Type} {p : Io α} (hp : p.Only Call.Aloof) (s : Site) :
    (run (Site.exec hazards) p s).2.cluster = s.cluster := by
  have hexec : ∀ call s, Call.Aloof call → (Site.exec hazards call s).2.cluster = s.cluster := by
    intro call s hcall
    refine cluster_exec ?_ s
    cases call <;> first | exact hcall.elim | exact id
  exact hp.run_eq hexec s

end

/-! ### The steps of creating a pod -/

abbrev jobName (wsUuid : String) : String := "prepare-volume-" ++ wsUuid

/-- The Job can be created. -/
def JobCreatable (hazards : Hazards) (cluster : Cluster) (wsUuid : String) : Prop :=
  hazards.fails (.createJob (jobName wsUuid)) = false ∧ jobName wsUuid ∉ cluster.jobs
  deriving Decidable

def JobDeleted (hazards : Hazards) (settings : Settings) (wsUuid : String) : Prop :=
  settings.noJobDelete = false ∧ hazards.fails (.deleteJob (jobName wsUuid)) = false
  deriving Decidable

/-- The Jobs after the one that prepares the volumes. -/
def jobsLeft (hazards : Hazards) (settings : Settings) (wsUuid : String) (jobs : List String) : List String :=
  if JobDeleted hazards settings wsUuid then jobs else jobName wsUuid :: jobs

/-- The pod can be created. -/
def PodCreatable (hazards : Hazards) (cluster : Cluster) (spec : PodSpec) : Prop :=
  hazards.fails (.createPod spec) = false ∧ ¬cluster.Has (podName spec.wsUuid)
  deriving Decidable

/-- The Service can be created. -/
def ServiceCreatable (hazards : Hazards) (services : List String) (wsUuid : String) : Prop :=
  hazards.fails (.createService (podName wsUuid)) = false ∧ podName wsUuid ∉ services
  deriving Decidable

section

variable (hazards : Hazards) (settings : Settings) (req : ProvisionRequest) (wsUuid : String) (s : Site)

theorem exec_createJob :
    Site.exec hazards (.createJob (jobName wsUuid)) s =
      if JobCreatable hazards s.cluster wsUuid then (true, s.withJobs (jobName wsUuid :: s.cluster.jobs)) else (false, s) := by
  by_cases hfails : hazards.fails (.createJob (jobName wsUuid)) = true
  · exact (if_pos hfails).trans (if_neg (not_and_of_fails hfails _)).symm
  · by_cases hthere : jobName wsUuid ∈ s.cluster.jobs <;>
      simp [Site.exec, Site.attempt, Site.withJobs, respond, JobCreatable, hfails, hthere]

theorem exec_deleteJob (habsent : jobName wsUuid ∉ s.cluster.jobs) :
    (Site.exec hazards (.deleteJob (jobName wsUuid)) (s.withJobs (jobName wsUuid :: s.cluster.jobs))).2 =
      s.withJobs (if hazards.fails (.deleteJob (jobName wsUuid)) then jobName wsUuid :: s.cluster.jobs
        else s.cluster.jobs) := by
  have hsame : s.cluster.jobs.filter (fun name => !decide (name = jobName wsUuid)) = s.cluster.jobs := by
    rw [filter_eq_self]
    intro name hname
    simpa using fun heq : name = jobName wsUuid => habsent (heq ▸ hname)
  split_ifs with hfails <;> simp [Site.exec, Site.attempt, Site.withJobs, respond, hfails, hsame]

theorem run_sendStatus (message : String) : (run (Site.exec hazards) (sendStatus req message) s).2 = s :=
  congrArg Prod.snd (exec_aside (.publish ..) trivial s)

theorem run_perpareK8sVolume :
    run (Site.exec hazards) (perpareK8sVolume wsUuid) s =
      if JobCreatable hazards s.cluster wsUuid then (.ok (), s.withJobs (jobName wsUuid :: s.cluster.jobs))
      else (.error "Could not create job to prepare volumes", s) := by
  rw [perpareK8sVolume, run_bind, run_perform, exec_createJob]
  by_cases hcreatable : JobCreatable hazards s.cluster wsUuid
  · rw [if_pos hcreatable, if_pos hcreatable]
    exact congrArg (fun ended : Bool × Site => (Except.ok (), ended.2)) (exec_aside (.waitJob _) trivial _)
  · rw [if_neg hcreatable, if_neg hcreatable]
    rfl

theorem run_prepareStorage :
    run (Site.exec hazards) (prepareStorage settings req wsUuid) s =
      if JobCreatable hazards s.cluster wsUuid then
        run (Site.exec hazards) (createK8sVolume wsUuid) (s.withJobs (jobsLeft hazards settings wsUuid s.cluster.jobs))
      else (.error "Could not create job to prepare volumes", s) := by
  rw [prepareStorage, run_bind, run_sendStatus, run_bind, run_perpareK8sVolume]
  by_cases hcreatable : JobCreatable hazards s.cluster wsUuid
  · rw [if_pos hcreatable, if_pos hcreatable]
    cases hkept : settings.noJobDelete with
    | true =>
      have hnot : ¬JobDeleted hazards settings wsUuid := fun h => absurd (hkept.symm.trans h.1) (by simp)
      simp only [Bool.not_true, Bool.false_eq_true, if_false, run_bind, run_sendStatus, jobsLeft, if_neg hnot]
    | false =>
      have hiff : JobDeleted hazards settings wsUuid ↔ ¬hazards.fails (.deleteJob (jobName wsUuid)) = true := by
        simp [JobDeleted, hkept]
      simp only [Bool.not_false, if_true, run_bind, run_perform, run_sendStatus, exec_deleteJob hazards wsUuid s hcreatable.2,
        jobsLeft, hiff, ite_not]
  · rw [if_neg hcreatable, if_neg hcreatable]
    rfl

def Call.Deploys : Call → Prop
  | .publish .. | .createPod _ | .deletePod .. | .createService _ | .createWorkspaceResource .. => True
  | _ => False

def Site.supplies (s : Site) : List (VolumeKind × String) × List Bool × List Bool :=
  (s.cluster.volumes, s.clients, s.polls)

theorem supplies_exec {call : Call} (h : call.Deploys) : (Site.exec hazards call s).2.supplies = s.supplies := by
  cases call with
  | publish | createPod | deletePod | createService | createWorkspaceResource =>
    simp only [Site.exec, Site.attempt, respond]
    split_ifs <;> rfl
  | _ => cases h

theorem supplies_deployPod (privateKey publicKey : String) :
    (run (Site.exec hazards) (deployPod req wsUuid privateKey publicKey) s).2.supplies = s.supplies := by
  have honly : (deployPod req wsUuid privateKey publicKey).Only Call.Deploys := by
    simp [deployPod, sendStatus, Call.Deploys]
  have hexec : ∀ call s, Call.Deploys call → (Site.exec hazards call s).2.supplies = s.supplies :=
    fun _ s h => supplies_exec hazards s h
  exact honly.run_eq hexec s

theorem exec_createPod (spec : PodSpec) :
    (Site.exec hazards (.createPod spec) s).1 = decide (PodCreatable hazards s.cluster spec) ∧
      (Site.exec hazards (.createPod spec) s).2.cluster.services = s.cluster.services := by
  by_cases hfails : hazards.fails (.createPod spec) = true
  · simp only [Site.exec, Site.attempt, if_pos hfails]
    exact ⟨(decide_eq_false (not_and_of_fails hfails _)).symm, trivial⟩
  · by_cases hthere : s.cluster.Has (podName spec.wsUuid) <;>
      simp [Site.exec, Site.attempt, respond, PodCreatable, createPod, hfails, hthere]

theorem exec_createService :
    (Site.exec hazards (.createService (podName wsUuid)) s).1 = decide (ServiceCreatable hazards s.cluster.services wsUuid) := by
  by_cases hfails : hazards.fails (.createService (podName wsUuid)) = true
  · simp only [Site.exec, Site.attempt, if_pos hfails]
    exact (decide_eq_false (not_and_of_fails hfails _)).symm
  · by_cases hthere : podName wsUuid ∈ s.cluster.services <;>
      simp [Site.exec, Site.attempt, respond, ServiceCreatable, hfails, hthere]

theorem result_deployPod (privateKey publicKey : String) :
    (run (Site.exec hazards) (deployPod req wsUuid privateKey publicKey) s).1 =
      if PodCreatable hazards s.cluster ⟨wsUuid, req.image, publicKey, wsType req⟩ then
        if ServiceCreatable hazards s.cluster.services wsUuid then .ok (privateKey, wsUuid) else .error "service creation failed"
      else .error "pod creation failed" := by
  obtain ⟨hpod, hservices⟩ := exec_createPod hazards s ⟨wsUuid, req.image, publicKey, wsType req⟩
  rw [deployPod, run_bind, run_sendStatus, run_bind, run_perform, hpod]
  by_cases hcreatable : PodCreatable hazards s.cluster ⟨wsUuid, req.image, publicKey, wsType req⟩
  · rw [decide_eq_true hcreatable, if_pos hcreatable, if_neg (by simp), run_bind, run_perform, exec_createService,
      hservices]
    by_cases hservice : ServiceCreatable hazards s.cluster.services wsUuid
    · rw [decide_eq_true hservice, if_pos hservice, if_neg (by simp)]
      split_ifs <;> rfl
    · rw [decide_eq_false hservice, if_neg hservice, if_pos (by simp)]
      rfl
  · rw [decide_eq_false hcreatable, if_neg hcreatable, if_pos (by simp)]
    rfl

end

/-! ### Creating a pod -/

def Hazards.keys (hazards : Hazards) : Option (String × String) := hazards.reply .genSSHKeyPair

/-- Everything for the pod can be created. -/
def Builds (hazards : Hazards) (req : ProvisionRequest) (s : Site) : Prop :=
  s.clients.headD true = true ∧ s.cluster.uuid ≠ "" ∧ JobCreatable hazards s.cluster s.cluster.uuid ∧
    (∀ object ∈ objects s.cluster.uuid, Creatable hazards s.cluster.volumes object) ∧
    ServiceCreatable hazards s.cluster.services s.cluster.uuid ∧
    ∃ keys ∈ hazards.keys, PodCreatable hazards s.cluster ⟨s.cluster.uuid, req.image, keys.2, wsType req⟩

/-- Creating the pod fails before there is a volume to stay, and the Job and the volumes made until then can be
deleted. -/
def StopsEarly (hazards : Hazards) (settings : Settings) (s : Site) : Prop :=
  s.clients.headD true = false ∨ s.cluster.uuid = "" ∨ hazards.keys = none ∨
    ¬JobCreatable hazards s.cluster s.cluster.uuid ∨
    JobDeleted hazards settings s.cluster.uuid ∧ TakenBack hazards s.cluster.volumes [] (objects s.cluster.uuid)

structure Placed (hazards : Hazards) (settings : Settings) (req : ProvisionRequest) (s : Site)
    (ended : Except String (String × String) × Site) : Prop where
  built : Builds hazards req s → ∃ privateKey, ended.1 = .ok (privateKey, s.cluster.uuid) ∧
    ended.2.supplies = ((objects s.cluster.uuid).reverse ++ s.cluster.volumes, s.clients.tail, s.polls)
  stopped : ¬Builds hazards req s → ended.1.isOk = false ∧
    (Untouched s.cluster ended.2.cluster ↔ StopsEarly hazards settings s)
  pods : ended.2.cluster.volumes = s.cluster.volumes → ended.2.cluster.pods = s.cluster.pods

section

variable {hazards : Hazards} {settings : Settings} {req : ProvisionRequest} {s : Site}

theorem Untouched.refl (cluster : Cluster) : Untouched cluster cluster := ⟨rfl, rfl, rfl, rfl⟩

theorem Placed.of_same {ended : Except String (String × String) × Site} (herror : ended.1.isOk = false)
    (hsame : ended.2.cluster = s.cluster) (hnot : ¬Builds hazards req s) (hstops : StopsEarly hazards settings s) :
    Placed hazards settings req s ended := by
  refine ⟨fun h => absurd h hnot, fun _ => ⟨herror, iff_of_true ?_ hstops⟩, fun _ => by rw [hsame]⟩
  rw [hsame]
  exact .refl _

theorem not_takenBack {volumes : List (VolumeKind × String)} {rest : List (VolumeKind × String)}
    (hall : ∀ object ∈ rest, Creatable hazards volumes object) (made : List (VolumeKind × String)) :
    ¬TakenBack hazards volumes made rest := by
  induction rest generalizing made with
  | nil => exact id
  | cons object rest ih =>
    rw [forall_mem_cons] at hall
    rw [TakenBack, if_pos hall.1]
    exact ih hall.2 _

theorem objects_append_ne (wsUuid : String) (volumes : List (VolumeKind × String)) :
    (objects wsUuid).reverse ++ volumes ≠ volumes := by
  intro heq
  have hlength := congrArg length heq
  simp only [objects, storage, length_append, length_reverse, length_map, length_cons] at hlength
  omega

theorem stopsEarly_iff (hclient : s.clients.headD true = true) (huuid : s.cluster.uuid ≠ "")
    (hkeys : hazards.keys ≠ none) (hjob : JobCreatable hazards s.cluster s.cluster.uuid) :
    StopsEarly hazards settings s ↔
      JobDeleted hazards settings s.cluster.uuid ∧ TakenBack hazards s.cluster.volumes [] (objects s.cluster.uuid) := by
  simp only [StopsEarly, hclient, huuid, hkeys, hjob, Bool.true_eq_false, not_true_eq_false, false_or]

theorem placed_deployPod (hclient : s.clients.headD true = true) (huuid : s.cluster.uuid ≠ "")
    (hjob : JobCreatable hazards s.cluster s.cluster.uuid)
    (hall : ∀ object ∈ objects s.cluster.uuid, Creatable hazards s.cluster.volumes object)
    {keys : String × String} (hkeys : hazards.keys = some keys) {after : Site}
    (hpods : after.cluster.pods = s.cluster.pods) (hservices : after.cluster.services = s.cluster.services)
    (hsupplies : after.supplies = ((objects s.cluster.uuid).reverse ++ s.cluster.volumes, s.clients.tail, s.polls)) :
    Placed hazards settings req s (run (Site.exec hazards) (deployPod req s.cluster.uuid keys.1 keys.2) after) := by
  have hended := (supplies_deployPod hazards req s.cluster.uuid after keys.1 keys.2).trans hsupplies
  have hresult := result_deployPod hazards req s.cluster.uuid after keys.1 keys.2
  have hvolumes := (congrArg Prod.fst hended).trans_ne (objects_append_ne _ _)
  have hpod : ∀ spec, PodCreatable hazards after.cluster spec ↔ PodCreatable hazards s.cluster spec := by
    intro spec
    rw [PodCreatable, PodCreatable, Cluster.Has, Cluster.Has, hpods]
  have hleft : ¬StopsEarly hazards settings s := by
    rw [stopsEarly_iff hclient huuid (by simp [hkeys]) hjob]
    exact fun h => not_takenBack hall [] h.2
  have hstays : ∀ {herror : Bool}, herror = false → herror = false ∧ (Untouched s.cluster
      (run (Site.exec hazards) (deployPod req s.cluster.uuid keys.1 keys.2) after).2.cluster ↔
        StopsEarly hazards settings s) :=
    fun herror => ⟨herror, iff_of_false (fun h => hvolumes h.volumes) hleft⟩
  simp only [hpod, hservices] at hresult
  refine ⟨fun hbuilds => ⟨keys.1, ?_, hended⟩, fun hnot => hstays ?_, fun hsame => absurd hsame hvolumes⟩
  · obtain ⟨-, -, -, -, hservice, found, hfound, hspec⟩ := hbuilds
    obtain rfl : keys = found := Option.some.inj (hkeys.symm.trans hfound)
    rw [hresult, if_pos hspec, if_pos hservice]
  · rw [hresult]
    split_ifs with hspec hservice
    · exact absurd ⟨hclient, huuid, hjob, hall, hservice, keys, hkeys, hspec⟩ hnot
    · rfl
    · rfl

theorem exec_client :
    Site.exec hazards .kubernetesClient s = (s.clients.headD true, { s with clients := s.clients.tail }) := rfl

variable (hazards settings req) in
theorem prepareStorage_cases (hclient : s.clients.headD true = true) (huuid : s.cluster.uuid ≠ "")
    (hkeys : hazards.keys ≠ none) (after : Site) (hcluster : after.cluster = s.cluster) :
    (∃ err left, run (Site.exec hazards) (prepareStorage settings req s.cluster.uuid) after = (.error err, left) ∧
      ¬Builds hazards req s ∧ left.cluster.pods = s.cluster.pods ∧
      (Untouched s.cluster left.cluster ↔ StopsEarly hazards settings s)) ∨
    ∃ jobs, run (Site.exec hazards) (prepareStorage settings req s.cluster.uuid) after =
        (.ok (), (after.withJobs jobs).withVolumes ((objects s.cluster.uuid).reverse ++ s.cluster.volumes)) ∧
      JobCreatable hazards s.cluster s.cluster.uuid ∧
      ∀ object ∈ objects s.cluster.uuid, Creatable hazards s.cluster.volumes object := by
  rw [run_prepareStorage, hcluster]
  by_cases hjob : JobCreatable hazards s.cluster s.cluster.uuid
  · rw [if_pos hjob]
    have hstored := stored_createK8sVolume hazards s.cluster.uuid
      (after.withJobs (jobsLeft hazards settings s.cluster.uuid s.cluster.jobs))
    have hvolumes (jobs : List String) : (after.withJobs jobs).cluster.volumes = s.cluster.volumes := by
      rw [← hcluster]
      rfl
    rw [hvolumes] at hstored
    by_cases hall : ∀ object ∈ objects s.cluster.uuid, Creatable hazards s.cluster.volumes object
    · exact .inr ⟨_, hstored.all hall, hjob, hall⟩
    · obtain ⟨herror, volumes, hleft, htaken⟩ := hstored.stopped hall
      rcases hended : run (Site.exec hazards) (createK8sVolume s.cluster.uuid) _ with ⟨result, left⟩
      rw [hended] at herror hleft
      cases result with
      | ok value => cases herror
      | error err =>
        subst hleft
        refine .inl ⟨err, _, rfl, fun h => hall h.2.2.2.1, by rw [← hcluster]; rfl, ?_⟩
        rw [stopsEarly_iff hclient huuid hkeys hjob, ← htaken]
        constructor
        · intro h
          refine ⟨?_, h.volumes⟩
          by_contra hkept
          exact cons_ne_self _ _ ((if_neg hkept).symm.trans h.jobs)
        · rintro ⟨hdeleted, rfl⟩
          rw [← hcluster]
          exact ⟨rfl, rfl, rfl, by simp [Site.withVolumes, Site.withJobs, hcluster, jobsLeft, hdeleted]⟩
  · rw [if_neg hjob]
    refine .inl ⟨_, after, rfl, fun h => hjob h.2.2.1, by rw [hcluster], iff_of_true ?_ ?_⟩
    · rw [hcluster]
      exact .refl _
    · exact .inr (.inr (.inr (.inl hjob)))

theorem not_stopsEarly (h : Builds hazards req s) : ¬StopsEarly hazards settings s := by
  obtain ⟨hclient, huuid, hjob, hall, -, keys, hkeys, -⟩ := h
  rw [stopsEarly_iff hclient huuid (fun hnone => absurd (hnone.symm.trans hkeys) (by simp)) hjob]
  exact fun h => not_takenBack hall [] h.2

variable (hazards settings req s) in
theorem placed_createK8sPod :
    Placed hazards settings req s (run (Site.exec hazards) (createK8sPod settings req true) s) := by
  rw [createK8sPod, run_bind, run_perform, exec_client]
  cases hclient : s.clients.headD true with
  | false => exact .of_same rfl rfl (fun h => absurd (hclient.symm.trans h.1) (by simp)) (.inl hclient)
  | true =>
    have hnamed : run (Site.exec hazards) (workspaceUuid req true) { s with clients := s.clients.tail } =
        (s.cluster.uuid, { s with clients := s.clients.tail }) := rfl
    rw [if_neg (by simp), run_bind, hnamed]
    by_cases huuid : s.cluster.uuid = ""
    · rw [if_pos huuid]
      exact .of_same rfl rfl (fun h => h.2.1 huuid) (.inr (.inl huuid))
    · have hdrawn : run (Site.exec hazards) (keyPair true) { s with clients := s.clients.tail } =
          (hazards.keys, { s with clients := s.clients.tail }) := exec_aside .genSSHKeyPair trivial _
      rw [if_neg huuid, run_bind, hdrawn]
      cases hkeys : hazards.keys with
      | none =>
        refine .of_same rfl rfl (fun h => ?_) (.inr (.inr (.inl hkeys)))
        obtain ⟨-, -, -, -, -, keys, hfound, -⟩ := h
        exact absurd (hkeys.symm.trans hfound) (by simp)
      | some keys =>
        have hcases := prepareStorage_cases hazards settings req hclient huuid (by simp [hkeys])
          { s with clients := s.clients.tail } rfl
        rw [if_pos rfl, run_bind]
        rcases hcases with ⟨err, left, hrun, hnot, hpods, hiff⟩ | ⟨jobs, hrun, hjob, hall⟩
        · rw [hrun]
          exact ⟨fun h => absurd h hnot, fun _ => ⟨rfl, hiff⟩, fun _ => hpods⟩
        · rw [hrun]
          exact placed_deployPod hclient huuid hjob hall hkeys rfl rfl rfl

end

/-! ### Waiting for it -/

def Hazards.events (hazards : Hazards) (wsUuid : String) : Option (List (String × Phase)) :=
  hazards.reply (.watchPod (podName wsUuid))

def Hazards.recorded (hazards : Hazards) (userHeader : String) (req : ProvisionRequest) (wsUuid : String) : HttpAnswer :=
  hazards.reply (.createWorkspace userHeader req wsUuid)

/-- The pod is scheduled, the workspace answers in time, and the record is made, or seems to be. -/
def Settles (hazards : Hazards) (req : ProvisionRequest) (userHeader wsUuid : String) (clients polls : List Bool) : Prop :=
  clients.headD true = true ∧ (∃ events ∈ hazards.events wsUuid, (scheduled events).isOk = true) ∧ true ∈ polls ∧
    (hazards.recorded userHeader req wsUuid).decodes = true

section

variable (hazards : Hazards) (settings : Settings) (req : ProvisionRequest) (userHeader wsUuid : String) (s : Site)

theorem run_waitOnDevContainerScheduled :
    ∃ result, run (Site.exec hazards) (waitOnDevContainerScheduled wsUuid) s =
        (result, { s with clients := s.clients.tail }) ∧
      (result.isOk = true ↔
        s.clients.headD true = true ∧ ∃ events ∈ hazards.events wsUuid, (scheduled events).isOk = true) := by
  rw [waitOnDevContainerScheduled, run_bind, run_perform, exec_client]
  cases s.clients.headD true with
  | false => exact ⟨_, rfl, by simp [Except.isOk, Except.toBool]⟩
  | true =>
    rw [if_neg (by simp), run_bind, run_perform, exec_aside (.watchPod (podName wsUuid)) trivial]
    unfold Hazards.events
    cases hazards.reply (.watchPod (podName wsUuid)) with
    | none => exact ⟨_, rfl, by simp [Except.isOk, Except.toBool]⟩
    | some events => exact ⟨_, rfl, by simp⟩

theorem run_pollReady (polls : List Bool) (clients : List Bool) (cluster : Cluster) :
    ∃ result left, run (Site.exec hazards) (pollReady req wsUuid polls.length) ⟨cluster, clients, polls⟩ =
        (result, ⟨cluster, clients, left⟩) ∧ (result.isOk = true ↔ true ∈ polls) := by
  induction polls with
  | nil => exact ⟨_, _, rfl, by simp [Except.isOk, Except.toBool]⟩
  | cons ready polls ih =>
    cases ready with
    | true =>
      refine ⟨.ok (), polls, ?_, by simp [Except.isOk, Except.toBool]⟩
      exact congrArg (fun ended : Unit × Site => (Except.ok (), ended.2)) (exec_aside (.publish ..) trivial _)
    | false =>
      obtain ⟨result, left, hrun, hiff⟩ := ih
      exact ⟨result, left, hrun, by simpa using hiff⟩

theorem run_waitOnDevContainerReady :
    ∃ result left, run (Site.exec hazards) (waitOnDevContainerReady req wsUuid) s = (result, { s with polls := left }) ∧
      (result.isOk = true ↔ true ∈ s.polls) := by
  rw [waitOnDevContainerReady, run_bind, run_sendStatus]
  exact run_pollReady hazards req wsUuid s.polls s.clients s.cluster

theorem isOk_finishProvision (privateKey : String) :
    (run (Site.exec hazards) (finishProvision req userHeader true privateKey wsUuid) s).1.isOk =
      (hazards.recorded userHeader req wsUuid).decodes := by
  have hwritten : (run (Site.exec hazards) (createWorkspace req userHeader wsUuid) s).1.1.isOk =
      (hazards.recorded userHeader req wsUuid).decodes := by
    rw [createWorkspace, run_bind, run_perform, exec_aside (.createWorkspace userHeader req wsUuid) trivial]
    unfold Hazards.recorded
    rcases hazards.reply (.createWorkspace userHeader req wsUuid) with _ | ⟨status, body⟩
    · rfl
    · cases body <;> rfl
  rw [finishProvision, if_pos rfl, run_bind]
  exact hwritten

theorem isOk_awaitContainer (hplatform : settings.devPlatform = "") (message privateKey : String) :
    (run (Site.exec hazards) (awaitContainer settings req userHeader true message privateKey wsUuid) s).1.isOk = true ↔
      Settles hazards req userHeader wsUuid s.clients s.polls := by
  obtain ⟨placed, hplaced, hscheduled⟩ := run_waitOnDevContainerScheduled hazards wsUuid s
  rw [awaitContainer, if_pos hplatform, run_bind, hplaced, Settles, ← and_assoc, ← hscheduled]
  cases placed with
  | error err => exact iff_of_false (fun h => by cases h) fun h => by cases h.1
  | ok value =>
    obtain ⟨ready, left, hready, hpolls⟩ := run_waitOnDevContainerReady hazards req wsUuid { s with clients := s.clients.tail }
    rw [run_bind, run_perform, exec_aside .unlockQueue trivial, run_bind, hready, ← hpolls]
    cases ready with
    | error err => exact iff_of_false (fun h => by cases h) fun h => by cases h.2.1
    | ok value =>
      rw [isOk_finishProvision]
      simp [Except.isOk, Except.toBool]

theorem cluster_awaitContainer (message privateKey : String) :
    (run (Site.exec hazards) (awaitContainer settings req userHeader true message privateKey wsUuid) s).2.cluster =
      s.cluster :=
  cluster_aloof (aloof_awaitContainer settings req userHeader true message privateKey wsUuid) s

end

/-! ### Admission and preemption -/

/-- The pod that has to go, `""` if none has to; `none` if the request is refused. -/
def room (hazards : Hazards) (settings : Settings) (dedicated : Bool) (s : Site) : Option String :=
  if settings.devPlatform = "docker" then some ""
  else if s.clients.headD true = false ∨ hazards.fails .listNodes = true ∨ hazards.fails (.listPods none) = true then none
  else do
    let idleThresholdCpu ← parseInt (orDefault settings.idleThresholdCpu "350")
    let wsCpu ← parseInt (orDefault settings.workspaceCpuRequest "350")
    if totalRequestedCpu wrap s.cluster.pods wsCpu < totalAvailableCpu wrap s.cluster.nodes.1 idleThresholdCpu then some ""
    else if hazards.fails (.listPods (some .spot)) then none
    else do
      let spotHours ← parseInt (orDefault settings.preemptSpotOlderThanHours "12")
      let spotPods := s.cluster.pods.filter fun pod => pod.wsType = some .spot
      let name := victim dedicated (cutoff wrap s.cluster.now spotHours) spotPods
      if name = "" then none else some name

/-- The site after the check. -/
def Site.surveyed (settings : Settings) (s : Site) : Site :=
  if settings.devPlatform = "docker" then s else { s with clients := s.clients.tail }

/-- What the check says about the pod that has to go. -/
def Verdict : Option String → Except String (Bool × String) → Prop
  | none, result => result.isOk = false ∨ result = .ok (false, "")
  | some name, result => ∃ fits, result = .ok (fits, name) ∧ (fits = true ∨ name ≠ "")

section

variable (hazards : Hazards) (settings : Settings) (dedicated : Bool) (s : Site)

theorem exec_listNodes :
    Site.exec hazards .listNodes s = (if hazards.fails .listNodes then none else some s.cluster.nodes, s) := by
  simp only [Site.exec, Site.attempt, respond]
  split_ifs <;> rfl

theorem exec_listPods (selector : Option WsType) :
    Site.exec hazards (.listPods selector) s = (if hazards.fails (.listPods selector) then none
      else some (s.cluster.pods.filter fun pod => selector.isNone || pod.wsType = selector), s) := by
  simp only [Site.exec, Site.attempt, respond]
  split_ifs <;> rfl

theorem Verdict.error (err : String) : Verdict none (.error err) := .inl rfl

theorem run_nameVictim (spotHours : Int) (spotPods : List Pod) :
    run (Site.exec hazards) (nameVictim wrap dedicated spotHours spotPods) s =
      (.ok (false, victim dedicated (cutoff wrap s.cluster.now spotHours) spotPods), s) := by
  unfold nameVictim victim
  cases oldest spotPods with
  | none => rfl
  | some pod =>
    cases dedicated with
    | true => rfl
    | false =>
      simp only [Bool.false_eq_true, if_false]
      by_cases hold : pod.created < cutoff wrap s.cluster.now spotHours
      · rw [if_pos hold]
        exact congrArg (run (Site.exec hazards) · s) (if_pos hold)
      · rw [if_neg hold]
        exact congrArg (run (Site.exec hazards) · s) (if_neg hold)

/-- The check decides by `room`. -/
theorem verdict_hasCapacity :
    ∃ result, run (Site.exec hazards) (hasCapacity settings dedicated) s = (result, s.surveyed settings) ∧
      Verdict (room hazards settings dedicated s) result := by
  unfold room Site.surveyed
  by_cases hdocker : settings.devPlatform = "docker"
  · rw [hasCapacity, capacity, if_pos hdocker, if_pos hdocker, if_pos hdocker]
    exact ⟨_, rfl, true, rfl, .inl rfl⟩
  rw [hasCapacity, capacity, if_neg hdocker, if_neg hdocker, if_neg hdocker, run_bind, run_perform, exec_client]
  cases s.clients.headD true with
  | false => exact ⟨_, rfl, .error _⟩
  | true =>
    rw [if_neg (by simp), run_bind, run_perform, exec_listNodes]
    by_cases hnodes : hazards.fails .listNodes = true
    · rw [if_pos hnodes, if_pos (by simp [hnodes])]
      exact ⟨_, rfl, .error _⟩
    rw [if_neg hnodes]
    by_cases hpods : hazards.fails (.listPods none) = true
    · rw [if_pos (by simp [hpods])]
      cases parseInt (orDefault settings.idleThresholdCpu "350") with
      | none => exact ⟨_, rfl, .error _⟩
      | some idleThresholdCpu =>
        rw [run_bind, run_perform, exec_listPods, if_pos hpods]
        exact ⟨_, rfl, .error _⟩
    rw [if_neg (by simp [hnodes, hpods])]
    cases parseInt (orDefault settings.idleThresholdCpu "350") with
    | none => exact ⟨_, rfl, .error _⟩
    | some idleThresholdCpu =>
      rw [run_bind, run_perform, exec_listPods, if_neg hpods]
      cases parseInt (orDefault settings.workspaceCpuRequest "350") with
      | none => exact ⟨_, rfl, .error _⟩
      | some wsCpu =>
        have hlisted : s.cluster.pods.filter (fun pod => (none : Option WsType).isNone || pod.wsType = none) =
            s.cluster.pods := by simp
        simp only [Option.bind_eq_bind, Option.bind_some]
        rw [hlisted]
        by_cases hfits : totalRequestedCpu wrap s.cluster.pods wsCpu < totalAvailableCpu wrap s.cluster.nodes.1 idleThresholdCpu
        · rw [if_pos hfits, if_pos hfits]
          exact ⟨_, rfl, true, rfl, .inl rfl⟩
        rw [if_neg hfits, if_neg hfits, run_bind, run_perform, exec_listPods]
        by_cases hspot : hazards.fails (.listPods (some .spot)) = true
        · rw [if_pos hspot, if_pos hspot]
          exact ⟨_, rfl, .error _⟩
        rw [if_neg hspot, if_neg hspot]
        cases parseInt (orDefault settings.preemptSpotOlderThanHours "12") with
        | none => exact ⟨_, rfl, .error _⟩
        | some spotHours =>
          refine ⟨_, run_nameVictim hazards dedicated _ spotHours _, ?_⟩
          simp only [Option.bind_some]
          split_ifs with hname
          · exact .inr (by simp [hname])
          · exact ⟨false, rfl, .inr hname⟩

theorem victim_cases (dedicated : Bool) (cutoff : Int) (pods : List Pod) :
    victim dedicated cutoff pods = "" ∨ ∃ pod ∈ pods, pod.name = victim dedicated cutoff pods := by
  unfold victim
  cases holdest : oldest pods with
  | none => exact .inl rfl
  | some pod =>
    dsimp only
    split_ifs
    · exact .inr ⟨pod, Admission.oldest_mem holdest, rfl⟩
    · exact .inr ⟨pod, Admission.oldest_mem holdest, rfl⟩
    · exact .inl rfl

theorem has_of_room {name : String} (h : room hazards settings dedicated s = some name) (hname : name ≠ "") :
    s.cluster.Has name := by
  unfold room at h
  split at h
  · exact absurd (Option.some.inj h).symm hname
  split at h
  · cases h
  obtain ⟨idleThresholdCpu, -, h⟩ := Option.bind_eq_some_iff.mp h
  obtain ⟨wsCpu, -, h⟩ := Option.bind_eq_some_iff.mp h
  split at h
  · exact absurd (Option.some.inj h).symm hname
  split at h
  · cases h
  obtain ⟨spotHours, -, h⟩ := Option.bind_eq_some_iff.mp h
  dsimp only at h
  split at h
  · cases h
  cases h
  rcases victim_cases dedicated (cutoff wrap s.cluster.now spotHours) (s.cluster.pods.filter fun pod => pod.wsType = some .spot)
    with hnone | ⟨pod, hpod, heq⟩
  · exact absurd hnone hname
  · exact mem_map.mpr ⟨pod, (mem_filter.mp hpod).1, heq⟩

/-- The pod can be killed. -/
def Killed (hazards : Hazards) (s : Site) (name : String) : Prop :=
  s.clients.headD true = true ∧ hazards.fails (.deletePod name 0) = false

def Site.preempted (s : Site) (name : String) : Site :=
  { s with cluster := s.cluster.deletePod name, clients := s.clients.tail }

theorem run_preempt {name : String} (hname : name ≠ "") (hplatform : settings.devPlatform ≠ "docker")
    (hhas : s.cluster.Has name) :
    (Killed hazards s name → run (Site.exec hazards) (preempt settings name) s = (.ok (), s.preempted name)) ∧
    (¬Killed hazards s name → ∃ err, run (Site.exec hazards) (preempt settings name) s =
      (.error err, { s with clients := s.clients.tail })) := by
  rw [preempt, if_pos hname, killK8sPod, if_neg hplatform, run_bind, run_perform, exec_client]
  unfold Killed
  cases s.clients.headD true with
  | false => exact ⟨fun h => absurd h.1 (by simp), fun _ => ⟨_, rfl⟩⟩
  | true =>
    cases hfails : hazards.fails (.deletePod name 0) with
    | false =>
      refine ⟨fun _ => ?_, fun h => absurd ⟨rfl, rfl⟩ h⟩
      simp [Site.exec, Site.attempt, Site.preempted, respond, hfails, hhas]
    | true =>
      refine ⟨fun h => absurd h.2 (by simp), fun _ => ⟨"delete failed", ?_⟩⟩
      simp [Site.exec, Site.attempt, hfails, default]

end

/-! ### From the pod to the record -/

/-- Everything succeeds after the check. -/
def Completes (hazards : Hazards) (settings : Settings) (req : ProvisionRequest) (userHeader : String) (s : Site) : Prop :=
  settings.devPlatform = "" ∧ Builds hazards req s ∧
    Settles hazards req userHeader s.cluster.uuid s.clients.tail s.polls

section

variable {hazards : Hazards} {settings : Settings} {req : ProvisionRequest} {userHeader message : String} {s : Site}

variable {next : Except String (String × String) → Io (Except String Unit)}

/-- What follows the creation of the pod. -/
structure Continues (settings : Settings) (req : ProvisionRequest) (userHeader message : String)
    (next : Except String (String × String) → Io (Except String Unit)) : Prop where
  error : ∀ err, next (.error err) = abandon req message err
  ok : ∀ privateKey uuid, next (.ok (privateKey, uuid)) = awaitContainer settings req userHeader true message privateKey uuid

/-- What the rest of the call comes to. -/
structure Constructed (hazards : Hazards) (settings : Settings) (req : ProvisionRequest) (userHeader : String) (s : Site)
    (ended : Except String Unit × Site) : Prop where
  completed : Completes hazards settings req userHeader s → ended.1.isOk = true
  /-- On a cluster, what is left behind is what the creation of the pod leaves. -/
  stopped : settings.devPlatform = "" → ¬Completes hazards settings req userHeader s → ended.1.isOk = false ∧
    (Untouched s.cluster ended.2.cluster ↔ StopsEarly hazards settings s) ∧
    (ended.2.cluster.volumes = s.cluster.volumes → ended.2.cluster.pods = s.cluster.pods)
  /-- On another platform the cluster is left alone, and only one other platform is known. -/
  elsewhere : settings.devPlatform ≠ "" →
    ended.2.cluster = s.cluster ∧ (settings.devPlatform ≠ "docker" → ended.1.isOk = false)

theorem run_abandon (err : String) : run (Site.exec hazards) (abandon req message err) s = (.error err, s) := by
  rw [abandon, run_bind, sendError, run_perform, exec_aside (.publish ..) trivial, run_bind, run_perform,
    exec_aside .unlockQueue trivial]
  rfl

theorem constructed_on_cluster (hplatform : settings.devPlatform = "")
    (hnext : Continues settings req userHeader message next) :
    Constructed hazards settings req userHeader s
      (run (Site.exec hazards) (createDevContainer settings req true >>= next) s) := by
  have hcreate : createDevContainer settings req true = createK8sPod settings req true := by
    rw [createDevContainer, if_pos rfl, createOnPlatform, if_neg (by simp [hplatform]), if_pos hplatform]
  have hplaced := placed_createK8sPod hazards settings req s
  rw [hcreate, run_bind]
  by_cases hbuilds : Builds hazards req s
  · obtain ⟨privateKey, hresult, hsupplies⟩ := hplaced.built hbuilds
    rcases hended : run (Site.exec hazards) (createK8sPod settings req true) s with ⟨result, left⟩
    rw [hended] at hresult hsupplies
    obtain ⟨hvolumes, hclients, hpolls⟩ : left.cluster.volumes = (objects s.cluster.uuid).reverse ++ s.cluster.volumes ∧
        left.clients = s.clients.tail ∧ left.polls = s.polls := by
      simpa [Site.supplies] using hsupplies
    have hsettles := isOk_awaitContainer hazards settings req userHeader s.cluster.uuid left hplatform message privateKey
    have hstays : left.cluster.volumes ≠ s.cluster.volumes := hvolumes.trans_ne (objects_append_ne _ _)
    rw [hclients, hpolls] at hsettles
    rw [hresult, hnext.ok]
    have hcluster := cluster_awaitContainer hazards settings req userHeader s.cluster.uuid left message privateKey
    refine ⟨fun h => hsettles.mpr h.2.2, fun _ hnot => ?_, fun hnot => absurd hplatform hnot⟩
    rw [hcluster]
    refine ⟨?_, iff_of_false (fun h => hstays h.volumes) (not_stopsEarly hbuilds), fun hsame => absurd hsame hstays⟩
    rw [Bool.eq_false_iff]
    exact fun hok => hnot ⟨hplatform, hbuilds, hsettles.mp hok⟩
  · obtain ⟨herror, hiff⟩ := hplaced.stopped hbuilds
    rcases hended : run (Site.exec hazards) (createK8sPod settings req true) s with ⟨result, left⟩
    rw [hended] at herror hiff hplaced
    cases result with
    | ok value => cases herror
    | error err =>
      rw [hnext.error, run_abandon]
      exact ⟨fun h => absurd h.2.1 hbuilds, fun _ _ => ⟨rfl, hiff, hplaced.pods⟩, fun hnot => absurd hplatform hnot⟩

theorem constructed_elsewhere (hplatform : settings.devPlatform ≠ "")
    (hnext : Continues settings req userHeader message next) :
    Constructed hazards settings req userHeader s
      (run (Site.exec hazards) (createDevContainer settings req true >>= next) s) := by
  refine ⟨fun h => absurd h.1 hplatform, fun h => absurd h hplatform, fun _ => ?_⟩
  rw [run_bind, createDevContainer, if_pos rfl, createOnPlatform]
  by_cases hdocker : settings.devPlatform = "docker"
  · rw [if_pos hdocker]
    refine ⟨?_, fun hnot => absurd hdocker hnot⟩
    have hcluster : (run (Site.exec hazards) (createDockerContainer req true) s).2.cluster = s.cluster :=
      cluster_aloof (aloof_createDockerContainer req true) s
    rcases hended : run (Site.exec hazards) (createDockerContainer req true) s with ⟨err | ⟨privateKey, uuid⟩, left⟩
    · rw [hended] at hcluster
      rw [hnext.error, run_abandon]
      exact hcluster
    · rw [hended] at hcluster
      rw [hnext.ok, cluster_awaitContainer]
      exact hcluster
  · rw [if_neg hdocker, if_neg hplatform]
    change (run _ (next (.error _)) s).2.cluster = _ ∧ (_ → (run _ (next (.error _)) s).1.isOk = false)
    rw [hnext.error, run_abandon]
    exact ⟨rfl, fun _ => rfl⟩

theorem constructed (hnext : Continues settings req userHeader message next) :
    Constructed hazards settings req userHeader s
      (run (Site.exec hazards) (createDevContainer settings req true >>= next) s) := by
  by_cases hplatform : settings.devPlatform = ""
  · exact constructed_on_cluster hplatform hnext
  · exact constructed_elsewhere hplatform hnext

end

/-! ### The whole of it -/

def Site.cleared (s : Site) (settings : Settings) (name : String) : Site :=
  if name = "" then s.surveyed settings else (s.surveyed settings).preempted name

/-- The request is refused; or everything succeeds; or no pod has to go and creating the new one stops early; or a pod has
to go and cannot be killed. -/
def Harmless (hazards : Hazards) (settings : Settings) (req : ProvisionRequest) (userHeader : String) (s : Site) : Prop :=
  ∀ name ∈ room hazards settings req.dedicated s,
    Completes hazards settings req userHeader (s.cleared settings name) ∨
      if name = "" then settings.devPlatform ≠ "" ∨ StopsEarly hazards settings (s.surveyed settings)
      else ¬Killed hazards (s.surveyed settings) name

section

variable {hazards : Hazards} {settings : Settings} {req : ProvisionRequest} {userHeader message : String} {s : Site}
  {ended : Except String Unit × Site}

theorem surveyed_cluster : (s.surveyed settings).cluster = s.cluster := by
  unfold Site.surveyed
  split_ifs <;> rfl

theorem Constructed.untouched_iff (h : Constructed hazards settings req userHeader s ended) :
    (ended.1.isOk = false → Untouched s.cluster ended.2.cluster) ↔
      Completes hazards settings req userHeader s ∨ settings.devPlatform ≠ "" ∨ StopsEarly hazards settings s := by
  by_cases hplatform : settings.devPlatform = ""
  · by_cases hcompletes : Completes hazards settings req userHeader s
    · simp [h.completed hcompletes, hcompletes]
    · obtain ⟨herror, hiff, -⟩ := h.stopped hplatform hcompletes
      simp [herror, hiff, hcompletes, hplatform]
  · rw [(h.elsewhere hplatform).1]
    exact iff_of_true (fun _ => .refl _) (.inr (.inl hplatform))

theorem pods_deletePod_ne {cluster : Cluster} {name : String} (hhas : cluster.Has name) :
    (cluster.deletePod name).pods ≠ cluster.pods := by
  intro hsame
  have hgone := (cluster.has_deletePod name name).not.mpr fun h => h.2 rfl
  exact hgone (by rw [Cluster.Has, hsame]; exact hhas)

theorem Constructed.untouched_preempted_iff {name : String} (hhas : s.cluster.Has name)
    (hplatform : settings.devPlatform ≠ "docker")
    (h : Constructed hazards settings req userHeader (s.preempted name) ended) :
    (ended.1.isOk = false → Untouched s.cluster ended.2.cluster) ↔
      Completes hazards settings req userHeader (s.preempted name) := by
  have hgone : (s.preempted name).cluster.pods ≠ s.cluster.pods := pods_deletePod_ne hhas
  by_cases hcompletes : Completes hazards settings req userHeader (s.preempted name)
  · simp [h.completed hcompletes, hcompletes]
  · refine iff_of_false (fun huntouched => ?_) hcompletes
    by_cases hcluster : settings.devPlatform = ""
    · obtain ⟨herror, -, hpods⟩ := h.stopped hcluster hcompletes
      exact hgone ((hpods (huntouched herror).volumes).symm.trans (huntouched herror).pods)
    · obtain ⟨hsame, herror⟩ := h.elsewhere hcluster
      rw [hsame] at huntouched
      exact hgone (huntouched (herror hplatform)).pods

end

theorem room_of_docker {hazards : Hazards} {settings : Settings} {dedicated : Bool} {s : Site}
    (hdocker : settings.devPlatform = "docker") : room hazards settings dedicated s = some "" := if_pos hdocker

/-- An error leaves nothing behind exactly if the request is refused, if everything succeeds, if no pod has to go and creating
the new one stops early, or if a pod has to go and cannot be killed. -/
theorem leavesNothing_iff (hazards : Hazards) (settings : Settings) (req : ProvisionRequest) (userHeader : String) (s : Site) :
    LeavesNothing hazards settings req userHeader s ↔ Harmless hazards settings req userHeader s := by
  obtain ⟨capacity, hsurvey, hverdict⟩ := verdict_hasCapacity hazards settings req.dedicated s
  have hcluster : (s.surveyed settings).cluster = s.cluster := surveyed_cluster
  unfold LeavesNothing Harmless
  rw [provision, run_bind, run_perform, exec_aside .lockQueue trivial, run_bind, hsurvey]
  cases hroom : room hazards settings req.dedicated s with
  | none =>
    rw [hroom] at hverdict
    refine iff_of_true (fun _ => ?_) fun name hname => by cases hname
    rw [← hcluster]
    rcases capacity with err | capacity
    · rw [run_abandon]
      exact .refl _
    · rcases hverdict with herror | hfull
      · cases herror
      · cases hfull
        have hstops : (!false) = true ∧ ("" : String) = "" := ⟨rfl, rfl⟩
        dsimp only
        rw [if_pos hstops, run_abandon]
        exact .refl _
  | some name =>
    rw [hroom] at hverdict
    obtain ⟨fits, rfl, hproceeds⟩ := hverdict
    have hgoes : ¬((!fits) = true ∧ name = "") := by
      rintro ⟨hfull, hname⟩
      rcases hproceeds with hfits | hvictim
      · simp [hfits] at hfull
      · exact hvictim hname
    simp only [Option.mem_def, Option.some.injEq, forall_eq']
    rw [if_neg hgoes, run_bind]
    by_cases hname : name = ""
    · subst hname
      rw [if_pos rfl, Site.cleared, if_pos rfl, ← hcluster]
      exact Constructed.untouched_iff (constructed ⟨fun _ => rfl, fun _ _ => rfl⟩)
    · rw [if_neg hname, Site.cleared, if_neg hname]
      have hhas := has_of_room hazards settings req.dedicated s hroom hname
      have hplatform : settings.devPlatform ≠ "docker" := by
        intro hdocker
        rw [room_of_docker hdocker] at hroom
        exact hname (Option.some.inj hroom).symm
      rw [← hcluster] at hhas ⊢
      obtain ⟨hkill, hspare⟩ := run_preempt hazards settings (s.surveyed settings) hname hplatform hhas
      by_cases hkilled : Killed hazards (s.surveyed settings) name
      · rw [hkill hkilled, or_iff_left (not_not.mpr hkilled)]
        exact Constructed.untouched_preempted_iff hhas hplatform (constructed ⟨fun _ => rfl, fun _ _ => rfl⟩)
      · obtain ⟨err, hspared⟩ := hspare hkilled
        rw [hspared]
        rw [run_abandon]
        exact iff_of_true (fun _ => .refl _) (.inr hkilled)

/-- A node of 1200 millicores, where each pod has its Service. -/
def smallCluster (pods : List Pod) (names : (pods.map Pod.name).Nodup) : Cluster :=
  ⟨pods, names, pods.map Pod.name, [], [], [], (1200, []), 100, "w1", []⟩

def bigPod : Pod := ⟨"workspace-old", .running, some .spot, [some 800], 0⟩

/-- The claim for the configuration cannot be created, next to a volume of another workspace. -/
theorem createK8sVolume_atomic_claim :
    let hazards : Hazards := ⟨fun call => call = .createVolume .claim "workspace-config-w1", attentive .failed []⟩
    let s : Site := ⟨{ smallCluster [] nodup_nil with volumes := [(.volume, "workspace-data-w2")] }, [], []⟩
    (run (Site.exec hazards) (createK8sVolume "w1") s).1.isOk = false ∧
      (run (Site.exec hazards) (createK8sVolume "w1") s).2 = s := by
  intro hazards s
  have hatomic := createK8sVolume_atomic hazards "w1" s fun kind name => by simp [hazards]
  refine hatomic.resolve_left fun hok => ?_
  exact absurd hok.1 (by decide +kernel)

/-- The Service cannot be created, and the volumes stay; or a pod is preempted, and the new workspace does not answer in
time. -/
theorem leftovers :
    ¬LeavesNothing ⟨fun call => call = .createService "workspace-w1", attentive .failed []⟩ defaultSettings
        (namedRequest "space") "alice" ⟨smallCluster [] nodup_nil, [], [true]⟩ ∧
      ¬LeavesNothing ⟨fun _ => false, attentive .failed []⟩ defaultSettings { namedRequest "space" with dedicated := true }
        "alice" ⟨smallCluster [bigPod] (nodup_singleton _), [], [false, false]⟩ := by
  constructor
  · intro h
    exact absurd (h (by decide +kernel)).volumes (by decide +kernel)
  · intro h
    exact absurd (h (by decide +kernel)).pods (by decide +kernel)

end HideServer.Provisioner
