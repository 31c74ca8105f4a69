import HideServer.Async.Trace
import HideServer.Provisioner.Cluster
import HideServer.Provisioner.Gate

/-!
# What the pods request together

`hasCapacity` counts the running pods only, and its sums can overflow. A pod that has been admitted is
pending at first, and a preempted pod makes room only for what it requests. Apart from that the bound
holds. A call runs here from the lock to its end.
-/

namespace HideServer.Provisioner.Admission

open Async Async.Prog Trace List Cluster

variable {s : Cluster}

/-- A call of `provision`, with the time, the uuid a new workspace gets and the changes of phases while it runs;
changes since the last call come with those before its first request. -/
structure Arrival where
  req : ProvisionRequest
  userHeader : String
  isNew : Bool
  uuid : String
  now : Int
  timing : List (String → Option Phase)

def Arrival.begin (arrival : Arrival) (s : Cluster) : Cluster :=
  { s with uuid := arrival.uuid, now := arrival.now, timing := arrival.timing }

def step (others : (call : Call) → call.Answer) (settings : Settings) (s : Cluster) (arrival : Arrival) : Cluster :=
  (run (exec others) (provision settings arrival.req arrival.userHeader arrival.isNew) (arrival.begin s)).2

/-- What all pods request together. -/
def committed (pods : List Pod) : Int := (pods.map Pod.requestedCpu).sum

/-- So much more can be requested, and what is allocatable is still more than the threshold above it. -/
def Within (spare idle : Int) (s : Cluster) : Prop := committed s.pods + spare < s.nodes.1 - idle
  deriving Decidable

/-- Every pod that requests CPU is running. -/
def Settled (s : Cluster) : Prop := ∀ pod ∈ s.pods, pod.phase ≠ .running → pod.requestedCpu = 0
  deriving Decidable

/-- A spot pod requests what a workspace requests, or more. -/
def Sized (s : Cluster) : Prop := ∀ pod ∈ s.pods, pod.wsType = some .spot → podCpu ≤ pod.requestedCpu
  deriving Decidable

/-- What is requested together with a workspace, and what may be, have 64 bits. -/
def Countable (idle : Int) (s : Cluster) : Prop := Fits (committed s.pods + podCpu) ∧ Fits (s.nodes.1 - idle)
  deriving Decidable

/-- All pods count by the time they are listed, after the lock, the client and the nodes; any pod that may be preempted
makes enough room; and no sum overflows. -/
def Orderly (idle : Int) (s : Cluster) (arrival : Arrival) : Prop :=
  Settled (tick^[4] (arrival.begin s)) ∧ Sized s ∧ Countable idle s
  deriving Decidable

theorem committed_append (left right : List Pod) : committed (left ++ right) = committed left + committed right := by
  simp [committed]

theorem committed_turn (change : String → Option Phase) (pods : List Pod) :
    committed (pods.map (Pod.turn change)) = committed pods := by
  unfold committed
  rw [map_map]
  rfl

variable {pods : List Pod}

theorem requestedCpu_eq_committed (h : ∀ pod ∈ pods, pod.phase ≠ .running → pod.requestedCpu = 0) :
    requestedCpu pods = committed pods := by
  induction pods with
  | nil => rfl
  | cons pod pods ih =>
    obtain ⟨hpod, hpods⟩ := forall_mem_cons.mp h
    have hrest := ih hpods
    unfold requestedCpu committed at hrest ⊢
    by_cases hrunning : pod.phase = .running
    · simp [hrunning, hrest]
    · simp [hrunning, hrest, hpod hrunning]

theorem filter_name {name : String} (h : name ∉ pods.map Pod.name) :
    pods.filter (fun pod => pod.name ≠ name) = pods := by
  refine filter_eq_self.mpr fun pod hpod => ?_
  have hother : pod.name ≠ name := fun heq => h (mem_map.mpr ⟨pod, hpod, heq⟩)
  simpa using hother

theorem committed_filter (hnames : (pods.map Pod.name).Nodup) {pod : Pod} (hpod : pod ∈ pods) :
    committed (pods.filter fun other => other.name ≠ pod.name) + pod.requestedCpu = committed pods := by
  induction pods with
  | nil => cases hpod
  | cons first pods ih =>
    obtain ⟨hfirst, hnames⟩ := nodup_cons.mp hnames
    rcases mem_cons.mp hpod with rfl | hpod
    -- no other pod has its name
    · rw [filter_cons_of_neg (by simp), filter_name hfirst]
      simp [committed, add_comm]
    · have hother : first.name ≠ pod.name := fun heq => hfirst (mem_map.mpr ⟨pod, hpod, heq.symm⟩)
      have hrest := ih hnames hpod
      rw [filter_cons_of_pos (by simpa using hother)]
      simp only [committed, map_cons, sum_cons] at hrest ⊢
      omega

theorem tick_pods (s : Cluster) : ∃ change, s.tick.pods = s.pods.map (Pod.turn change) := by
  unfold tick
  split
  · exact ⟨fun _ => none, (map_id s.pods).symm⟩
  · exact ⟨_, rfl⟩

theorem Sized.tick (h : Sized s) : Sized s.tick := by
  obtain ⟨change, hpods⟩ := tick_pods s
  unfold Sized
  rw [hpods, forall_mem_map]
  exact h

theorem committed_tick (s : Cluster) : committed s.tick.pods = committed s.pods := by
  obtain ⟨change, hpods⟩ := tick_pods s
  rw [hpods, committed_turn]

theorem Within.tick {spare idle : Int} (h : Within spare idle s) : Within spare idle s.tick := by
  unfold Within
  rw [committed_tick, s.tick_nodes]
  exact h

theorem Countable.tick {idle : Int} (h : Countable idle s) : Countable idle s.tick := by
  unfold Countable
  rw [committed_tick, s.tick_nodes]
  exact h

/-- The pod is there and no smaller than a workspace. -/
def Stands (name : String) (s : Cluster) : Prop := ∃ pod ∈ s.pods, pod.name = name ∧ podCpu ≤ pod.requestedCpu

theorem Stands.tick {name : String} (h : Stands name s) : Stands name s.tick := by
  obtain ⟨change, hpods⟩ := tick_pods s
  obtain ⟨pod, hpod, hname, hcpu⟩ := h
  refine ⟨pod.turn change, ?_, hname, hcpu⟩
  rw [hpods]
  exact mem_map_of_mem hpod

section

variable {others : (call : Call) → call.Answer} {settings : Settings} {spare idle : Int} {α : Type}

variable (req : ProvisionRequest)

theorem within_exec (others : (call : Call) → call.Answer) {call : Call} (hquiet : call.Quiet) (h : Within spare idle s) :
    Within spare idle (s.exec others call).2 := by
  obtain ⟨hpods, -, hnodes⟩ := exec_quiet others hquiet s
  unfold Within
  rw [hpods, hnodes, committed_tick]
  exact h

theorem within_quiet {p : Io α} (hp : p.Only Call.Quiet) :
    Triple (exec others) (Within spare idle) p fun _ => Within spare idle := by
  refine Only.triple (fun call s hquiet h => ?_) hp
  exact within_exec others hquiet h

def needed (settings : Settings) : Int := if settings.devPlatform = "" then podCpu else 0

theorem needed_le (settings : Settings) : needed settings ≤ podCpu := by
  unfold needed podCpu
  split <;> decide

theorem needed_nonneg (settings : Settings) : 0 ≤ needed settings := by
  unfold needed podCpu
  split <;> decide

theorem Within.mono {spare' : Int} (h : Within spare idle s) (hle : spare' ≤ spare) : Within spare' idle s := by
  unfold Within at h ⊢
  omega

theorem oldest_mem {pods : List Pod} {pod : Pod} (h : oldest pods = some pod) : pod ∈ pods := by
  refine foldlRecOn (motive := fun best => ∀ pod, best = some pod → pod ∈ pods) pods _ ?_ ?_ pod h
  · intro pod hnone
    cases hnone
  · intro best hbest next hnext pod hpod
    split at hpod
    · exact hbest pod hpod
    · cases best with
      | none => exact Option.some.inj hpod ▸ hnext
      | some old =>
        dsimp only at hpod
        split_ifs at hpod
        · exact Option.some.inj hpod ▸ hnext
        · exact hbest pod hpod

/-- There is room, or will be once the pod is gone. -/
def Spares (settings : Settings) (idle : Int) (name : String) (s : Cluster) : Prop :=
  if name = "" then Within (needed settings) idle s else Within 0 idle s ∧ Stands name s

def Decided (settings : Settings) (idle : Int) (result : Except String (Bool × String)) (s : Cluster) : Prop :=
  Within 0 idle s ∧ ∀ fits name, result = .ok (fits, name) → ¬(!fits ∧ name = "") → Spares settings idle name s

def Awaits (idle : Int) (requests : Nat) (s : Cluster) : Prop :=
  Within 0 idle s ∧ Sized s ∧ Countable idle s ∧ Settled (tick^[requests] s)

theorem Awaits.tick {requests : Nat} (h : Awaits idle (requests + 1) s) : Awaits idle requests s.tick :=
  ⟨h.1.tick, h.2.1.tick, h.2.2.1.tick, h.2.2.2⟩

theorem awaits_lock : Triple (exec others) (Awaits idle 4) (ask .lockQueue) fun _ => Awaits idle 3 :=
  .perform fun _ hs => hs.tick

theorem awaits_client : Triple (exec others) (Awaits idle 3) (ask .kubernetesClient) fun client s =>
    client = true ∧ Awaits idle 2 s :=
  .perform fun _ hs => ⟨rfl, hs.tick⟩

theorem awaits_nodes : Triple (exec others) (Awaits idle 2) (ask .listNodes) fun nodes s =>
    nodes = some s.nodes ∧ Awaits idle 1 s :=
  .perform fun _ hs => ⟨rfl, hs.tick⟩

theorem listed_all (idle : Int) (nodes : Int × List Int) : Triple (exec others)
    (fun s => some nodes = some s.nodes ∧ Awaits idle 1 s) (ask (.listPods none)) fun pods s =>
      s.nodes = nodes ∧ pods = some s.pods ∧ Within 0 idle s ∧ Sized s ∧ Countable idle s ∧
        requestedCpu s.pods = committed s.pods := by
  refine .perform fun s hs => ?_
  obtain ⟨hwithin, hsized, hcountable, hsettled⟩ := hs.2.tick
  refine ⟨s.tick_nodes.trans (Option.some.inj hs.1).symm, ?_, hwithin, hsized, hcountable,
    requestedCpu_eq_committed hsettled⟩
  simp [exec, respond]

theorem listed_spot : Triple (exec others) (fun s => Within 0 idle s ∧ Sized s) (ask (.listPods (some .spot)))
    fun pods s => Within 0 idle s ∧ ∃ spotPods, pods = some spotPods ∧ ∀ pod ∈ spotPods, Stands pod.name s := by
  refine .perform fun s hs => ⟨hs.1.tick, _, rfl, fun pod hpod => ?_⟩
  obtain ⟨hpod, hspot⟩ := mem_filter.mp hpod
  exact ⟨pod, hpod, rfl, hs.2.tick pod hpod (by simpa using hspot)⟩

theorem decided_fits (h : Within (needed settings) idle s) : Decided settings idle (.ok (true, "")) s := by
  refine ⟨h.mono (needed_nonneg settings), fun fits name hresult _ => ?_⟩
  cases hresult
  exact h

theorem decided_nobody (hwithin : Within 0 idle s) : Decided settings idle (.ok (false, "")) s := by
  refine ⟨hwithin, fun fits name hresult hproceeds => ?_⟩
  cases hresult
  exact absurd ⟨rfl, rfl⟩ hproceeds

theorem decided_name {name : String} (hwithin : Within 0 idle s) (hstands : Stands name s) :
    Decided settings idle (.ok (false, name)) s := by
  refine ⟨hwithin, fun fits other hresult hproceeds => ?_⟩
  cases hresult
  rw [Spares, if_neg fun hempty => hproceeds ⟨rfl, hempty⟩]
  exact ⟨hwithin, hstands⟩

theorem decided_nameVictim (dedicated : Bool) (spotHours : Int) (spotPods : List Pod) :
    Triple (exec others) (fun s => Within 0 idle s ∧ ∀ pod ∈ spotPods, Stands pod.name s)
      (nameVictim wrap dedicated spotHours spotPods) (Decided settings idle) := by
  unfold nameVictim
  cases holdest : oldest spotPods with
  | none => exact fun s hs => decided_nobody hs.1
  | some pod =>
    have hpod := oldest_mem holdest
    have hnow : Triple (exec others) (fun s => Within 0 idle s ∧ ∀ pod ∈ spotPods, Stands pod.name s) (ask .now)
        fun _ s => Within 0 idle s ∧ Stands pod.name s := .perform fun s hs => ⟨hs.1.tick, (hs.2 pod hpod).tick⟩
    refine .ite (fun _ s hs => decided_name hs.1 (hs.2 pod hpod)) fun _ => .bind hnow fun now => ?_
    exact .ite (fun _ s hs => decided_name hs.1 hs.2) fun _ s hs => decided_nobody hs.1

theorem decided_spot (dedicated : Bool) : Triple (exec others) (fun s => Within 0 idle s ∧ Sized s) (do
      let spotPods : Option (List Pod) ← ask (.listPods (some .spot))
      match spotPods with
      | none => return .error "Failed to list pods with label wstype=spot"
      | some spotPods =>
        match parseInt (orDefault settings.preemptSpotOlderThanHours "12") with
        | none => return .error "Bad config for spot hours"
        | some spotHours => nameVictim wrap dedicated spotHours spotPods)
    (Decided settings idle) := by
  refine .bind listed_spot fun spotPods => ?_
  rintro s ⟨hwithin, listed, rfl, hstands⟩
  cases parseInt (orDefault settings.preemptSpotOlderThanHours "12") with
  | none => exact ⟨hwithin, fun fits name hresult => by cases hresult⟩
  | some spotHours => exact decided_nameVictim dedicated spotHours listed s ⟨hwithin, hstands⟩

theorem decided_hasCapacity (hidle : parseInt (orDefault settings.idleThresholdCpu "350") = some idle)
    (hcpu : parseInt (orDefault settings.workspaceCpuRequest "350") = some podCpu) (dedicated : Bool) :
    Triple (exec others) (Awaits idle 3) (hasCapacity settings dedicated) (Decided settings idle) := by
  refine .ite (fun hdocker s hs => decided_fits ?_) fun _ => ?_
  -- nothing is checked, and nothing is requested of the cluster
  · rw [needed, if_neg (by rw [hdocker]; decide)]
    exact hs.1
  refine .bind awaits_client fun client => .ite_of_not (fun s hs => by simp [hs.1]) ?_
  refine .bind (awaits_nodes.strengthen fun s hs => hs.2) fun nodes => ?_
  rcases nodes with _ | ⟨allocatableCpu, rest⟩
  · rintro s ⟨hnodes, -⟩
    cases hnodes
  rw [hidle]
  refine .bind (listed_all idle (allocatableCpu, rest)) fun pods => ?_
  cases pods with
  | none =>
    rintro s ⟨-, hpods, -⟩
    cases hpods
  | some pods =>
    rw [hcpu]
    refine .ite (fun hfits s hs => ?_) fun _ => ?_
    · obtain ⟨hnodes, hpods, -, -, ⟨hrequested, havailable⟩, hcommitted⟩ := hs
      rw [hnodes] at havailable
      rw [Option.some.inj hpods, rounding_wrap.totalRequestedCpu_eq, hcommitted, hrequested.wrap_eq, totalAvailableCpu,
        havailable.wrap_eq] at hfits
      -- what was counted is what is requested, since all pods that request anything run
      have hroom : Within podCpu idle s := by rwa [Within, hnodes]
      exact decided_fits (hroom.mono (needed_le settings))
    · exact (decided_spot dedicated).strengthen fun s hs => ⟨hs.2.2.1, hs.2.2.2.1⟩

theorem Within.deletePod {name : String} (h : Within 0 idle s) (hstands : Stands name s) :
    Within podCpu idle (s.deletePod name) := by
  obtain ⟨pod, hpod, rfl, hcpu⟩ := hstands
  have hsum := committed_filter s.names hpod
  unfold Within at h ⊢
  simp only [Cluster.deletePod]
  omega

theorem Stands.has {name : String} (h : Stands name s) : s.Has name := by
  obtain ⟨pod, hpod, hname, -⟩ := h
  exact mem_map.mpr ⟨pod, hpod, hname⟩

theorem within_killK8sPod (name : String) :
    Triple (exec others) (fun s => Within 0 idle s ∧ Stands name s) (killK8sPod settings name) fun _ =>
      Within (needed settings) idle := by
  refine .ite (fun hdocker s hs => ?_) fun _ s hs => ?_
  · rw [needed, if_neg (by rw [hdocker]; decide)]
    exact hs.1
  · have hhas : s.tick.tick.Has name := hs.2.tick.tick.has
    simp only [run_bind, run_perform, exec, respond, Bool.not_true, Bool.false_eq_true, if_false,
      pure_eq, run_ret, if_pos hhas]
    exact (hs.1.tick.tick.deletePod hs.2.tick.tick).mono (needed_le settings)

theorem within_preempt (name : String) :
    Triple (exec others) (Spares settings idle name) (preempt settings name) fun _ =>
      Within (needed settings) idle := by
  refine .ite (fun hname => ?_) fun hname s hs => ?_
  · refine (within_killK8sPod name).strengthen fun s hs => ?_
    rw [Spares, if_neg hname] at hs
    exact hs
  · rw [Spares, if_pos (not_not.mp hname)] at hs
    exact hs

theorem within_createPod (spec : PodSpec) :
    Triple (exec others) (Within podCpu idle) (ask (.createPod spec)) fun created s =>
      Within 0 idle s ∧ (created = true → Stands (podName spec.wsUuid) s) := by
  refine .perform fun s hs => ?_
  by_cases hhas : s.tick.Has (podName spec.wsUuid)
  · simp only [exec, respond, dif_pos hhas]
    exact ⟨hs.tick.mono (by decide), fun hcreated => by cases hcreated⟩
  · simp only [exec, respond, dif_neg hhas]
    refine ⟨?_, fun _ => ⟨s.tick.made spec, mem_append_right _ (mem_singleton_self _), rfl, ?_⟩⟩
    · have hroom := hs.tick
      unfold Within at hroom ⊢
      simp only [createPod, committed_append]
      have hmade : committed [s.tick.made spec] = podCpu := rfl
      omega
    · exact Int.le_refl podCpu

theorem kept_createService (name : String) : Triple (exec others) (fun s => Within 0 idle s ∧ Stands name s)
    (ask (.createService name)) fun _ s => Within 0 idle s ∧ Stands name s := by
  refine .perform fun s hs => ?_
  simp only [exec, respond]
  split <;> exact ⟨hs.1.tick, hs.2.tick⟩

theorem within_deletePod (name : String) (gracePeriod : Nat) : Triple (exec others)
    (fun s => Within 0 idle s ∧ Stands name s) (ask (.deletePod name gracePeriod)) fun _ => Within podCpu idle := by
  refine .perform fun s hs => ?_
  simp only [exec, respond, if_pos hs.2.tick.has]
  exact hs.1.tick.deletePod hs.2.tick

theorem within_deployPod (wsUuid privateKey publicKey : String) :
    Triple (exec others) (Within podCpu idle) (deployPod req wsUuid privateKey publicKey) fun _ =>
      Within 0 idle := by
  refine .bind (within_quiet (p := sendStatus req _) (.single trivial)) fun _ => ?_
  refine .bind (within_createPod _) fun pod => .ite (fun _ _ hs => hs.1) fun hpod => ?_
  have hcreated : pod = true := by simpa using hpod
  refine .bind ((kept_createService _).strengthen fun s hs => ⟨hs.1, hs.2 hcreated⟩) fun service => ?_
  refine .ite (fun _ => ?_) fun _ => ?_
  -- the pod that has just been created is taken back
  · exact .bind (within_deletePod _ 0) fun _ s hs => hs.mono (by decide)
  · refine .strengthen (within_quiet ?_) fun s hs => hs.1
    exact .ite (.single trivial) trivial

theorem within_createK8sPod (isNew : Bool) :
    Triple (exec others) (Within podCpu idle) (createK8sPod settings req isNew) fun _ => Within 0 idle :=
  triple_createK8sPod (fun _ _ => within_exec others) (fun _ hs => hs.mono (by decide)) (within_deployPod req)

theorem within_createOnPlatform (isNew : Bool) :
    Triple (exec others) (Within (needed settings) idle) (createOnPlatform settings req isNew) fun _ =>
      Within 0 idle := by
  have hend : ∀ s, Within (needed settings) idle s → Within 0 idle s := fun s hs => hs.mono (needed_nonneg settings)
  refine .ite (fun _ => ?_) fun _ => .ite (fun hplatform => ?_) fun _ => hend
  · exact (within_quiet (quiet_of_aloof (aloof_createDockerContainer req isNew))).strengthen hend
  · rw [needed, if_pos hplatform]
    exact within_createK8sPod req isNew

theorem within_createDevContainer (isNew : Bool) :
    Triple (exec others) (Within (needed settings) idle) (createDevContainer settings req isNew) fun _ =>
      Within 0 idle := by
  have hend : ∀ s, Within (needed settings) idle s → Within 0 idle s := fun s hs => hs.mono (needed_nonneg settings)
  refine .ite (fun _ => within_createOnPlatform req isNew) fun _ => ?_
  refine .bind (within_quiet (p := sendStatus req _) (.single trivial)) fun _ => ?_
  refine .bind (within_quiet (quiet_of_prepares (prepares_volumeExists req.uuid settings.devPlatform))) fun result => ?_
  rcases result with err | _ | _
  · exact hend
  · exact hend
  · exact within_createOnPlatform req isNew

theorem within_provision (hidle : parseInt (orDefault settings.idleThresholdCpu "350") = some idle)
    (hcpu : parseInt (orDefault settings.workspaceCpuRequest "350") = some podCpu) (req : ProvisionRequest)
    (userHeader : String) (isNew : Bool) :
    Triple (exec others) (Awaits idle 4) (provision settings req userHeader isNew) fun _ => Within 0 idle := by
  have habandon (message err : String) :
      Triple (exec others) (Within 0 idle) (abandon req message err) fun _ => Within 0 idle :=
    within_quiet (quiet_of_aloof (aloof_abandon req message err))
  refine .bind awaits_lock fun _ => ?_
  refine .bind (decided_hasCapacity hidle hcpu req.dedicated) fun capacity => ?_
  rcases capacity with err | ⟨fits, name⟩
  · exact (habandon _ _).strengthen fun s hs => hs.1
  refine .ite (fun _ => (habandon _ _).strengthen fun s hs => hs.1) fun hproceeds => ?_
  refine .bind ((within_preempt name).strengthen fun s hs => hs.2 fits name rfl hproceeds) fun preempted => ?_
  cases preempted with
  | error err => exact (habandon _ _).strengthen fun s hs => hs.mono (needed_nonneg settings)
  | ok value =>
    refine .bind (within_createDevContainer req isNew) fun created => ?_
    rcases created with err | ⟨privateKey, uuid⟩
    · exact habandon _ err
    · exact within_quiet (quiet_of_aloof (aloof_awaitContainer settings req userHeader isNew _ privateKey uuid))

end

/-- As long as every pod that requests CPU is running when a call lists the pods, spot pods are no smaller than
workspaces and no sum overflows, the requests of all pods stay below the bound. -/
theorem within_of_orderly (others : (call : Call) → call.Answer) {settings : Settings} {idle : Int}
    (hidle : parseInt (orDefault settings.idleThresholdCpu "350") = some idle)
    (hcpu : parseInt (orDefault settings.workspaceCpuRequest "350") = some podCpu) {s : Cluster} (hstart : Within 0 idle s)
    {arrivals : List Arrival} (horderly : Along (step others settings) (Orderly idle) s arrivals) :
    Always (step others settings) (Within 0 idle) s arrivals := by
  refine always_of_invariant (C := Orderly idle) ?_ (fun _ h => h) hstart horderly
  intro s arrival h ⟨hsettled, hsized, hcountable⟩
  exact within_provision hidle hcpu arrival.req arrival.userHeader arrival.isNew (arrival.begin s)
    ⟨h, hsized, hcountable, hsettled⟩

/-- A workspace counts for what `GetPodSpec` requests, and less than 650 of 1000 millicores may be requested. -/
def oneNode : Settings := ⟨"", "350", "400", "12", false⟩

def holding (pods : List Pod) (names : (pods.map Pod.name).Nodup) : Cluster :=
  ⟨pods, names, [], [], [], [], (1000, []), 0, "", []⟩

/-- Every pod is scheduled, and takes longer to start than the call waits. -/
def slow : (call : Call) → call.Answer
  | .watchPod _ => some [("node1", .pending)]
  | .readyAttempts _ => (1 : Nat)
  | call => obliging "node" .failed .failed [] call

def asks (dedicated : Bool) (uuid : String) (timing : List (String → Option Phase)) : Arrival :=
  ⟨⟨"alice", "s1", "node", "space", "d", "", dedicated, ""⟩, "alice", true, uuid, 0, timing⟩

def replaced : List Arrival := [asks false "w1" [], asks true "w2" [fun _ => some .running]]

theorem within_replaced : Always (step slow oneNode) (Within 0 350) (holding [] nodup_nil) replaced :=
  within_of_orderly slow (by decide) (by decide) (by decide) (by decide)

def uncounted : List Arrival := [asks false "w1" [], asks false "w2" []]

def crowded : List Pod := [⟨"small", .running, some .spot, [some 100], 0⟩, ⟨"system", .running, none, [some 500], 0⟩]

/-- A node whose pods request almost all that 64 bits can count. -/
def vast : Cluster :=
  { holding [⟨"huge", .running, none, [some (2 ^ 63 - 300)], 0⟩] (by decide) with nodes := (2 ^ 63 - 1, []) }

def noThreshold : Settings := ⟨"", "0", "400", "12", false⟩

/-- Two pending pods request more than the bound admits, and so do a pod that takes the place of a smaller one and a
pod that makes the sum overflow. -/
theorem overcommitted_runs :
    (Within 0 350 (holding [] nodup_nil) ∧
      committed (run (step slow oneNode) (holding [] nodup_nil) uncounted).pods = 800 ∧
      ¬Within 0 350 (run (step slow oneNode) (holding [] nodup_nil) uncounted)) ∧
    (Within 0 350 (holding crowded (by decide)) ∧
      committed (run (step slow oneNode) (holding crowded (by decide)) [asks true "w1" []]).pods = 900 ∧
      ¬Within 0 350 (run (step slow oneNode) (holding crowded (by decide)) [asks true "w1" []])) ∧
    Within 0 0 vast ∧ committed (run (step slow noThreshold) vast [asks false "w1" []]).pods = 2 ^ 63 + 100 ∧
      ¬Within 0 0 (run (step slow noThreshold) vast [asks false "w1" []]) := by
  refine ⟨⟨by decide, by decide, by decide⟩, ⟨by decide, by decide, by decide⟩, by decide, by decide, by decide⟩

end HideServer.Provisioner.Admission
