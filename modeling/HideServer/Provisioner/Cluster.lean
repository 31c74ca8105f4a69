import Mathlib.Data.List.Nodup
import HideServer.Async.Triple
import HideServer.Provisioner.Footprint

/-!
# The cluster

A request to Kubernetes succeeds unless it creates what exists, or deletes or gets what does not. Pods
change their phases at any time. Requests that go elsewhere are answered by `others`.
-/

namespace HideServer.Provisioner

open Async

/-- The CPU request of `util.GetPodSpec`, in millicores. -/
def podCpu : Int := 400

/-- A pod comes to another phase. -/
def Pod.turn (change : String → Option Phase) (pod : Pod) : Pod := { pod with phase := (change pod.name).getD pod.phase }

structure Cluster where
  pods : List Pod
  names : (pods.map Pod.name).Nodup
  services : List String
  volumes : List (VolumeKind × String)
  jobs : List String
  resources : List String
  /-- What the first node can allocate, and what the other ones can. -/
  nodes : Int × List Int
  now : Int
  uuid : String
  /-- The changes of phases before each of the next requests. -/
  timing : List (String → Option Phase)

namespace Cluster

theorem map_name_turn (change : String → Option Phase) (pods : List Pod) :
    (pods.map (Pod.turn change)).map Pod.name = pods.map Pod.name := by
  rw [List.map_map]
  rfl

variable (s : Cluster)

def turn (change : String → Option Phase) : Cluster :=
  { s with pods := s.pods.map (Pod.turn change), names := by rw [map_name_turn]; exact s.names }

/-- The phases change that are due before a request. -/
def tick : Cluster :=
  match s.timing with
  | [] => s
  | change :: timing => { s.turn change with timing := timing }

/-- There is a pod of the name. -/
def Has (name : String) : Prop := name ∈ s.pods.map Pod.name
  deriving Decidable

def made (spec : PodSpec) : Pod := ⟨podName spec.wsUuid, .pending, some spec.wsType, [some podCpu], s.now⟩

def createPod (pod : Pod) (h : ¬s.Has pod.name) : Cluster :=
  { s with
    pods := s.pods ++ [pod]
    names := by
      rw [List.map_append, List.nodup_append']
      exact ⟨s.names, List.nodup_singleton _, by simpa [Has] using h⟩ }

def deletePod (name : String) : Cluster :=
  { s with
    pods := s.pods.filter fun pod => pod.name ≠ name
    names := s.names.sublist (List.filter_sublist.map Pod.name) }

def respond (others : (call : Call) → call.Answer) : (call : Call) → Cluster → call.Answer × Cluster
  | .kubernetesClient, s => (true, s)
  | .listNodes, s => (some s.nodes, s)
  | .listPods selector, s => (some (s.pods.filter fun pod => selector.isNone || pod.wsType = selector), s)
  | .getPod name, s => (if s.Has name then .found else .notFound, s)
  | .createPod spec, s => if h : s.Has (podName spec.wsUuid) then (false, s) else (true, s.createPod (s.made spec) h)
  | .deletePod name _, s => if s.Has name then (true, s.deletePod name) else (false, s)
  | .createService name, s => if name ∈ s.services then (false, s) else (true, { s with services := name :: s.services })
  | .getVolume kind name, s => (if (kind, name) ∈ s.volumes then .found else .notFound, s)
  | .createVolume kind name, s =>
    if (kind, name) ∈ s.volumes then (false, s) else (true, { s with volumes := (kind, name) :: s.volumes })
  | .deleteVolume kind name, s =>
    if (kind, name) ∈ s.volumes then (true, { s with volumes := s.volumes.filter (· ≠ (kind, name)) }) else (false, s)
  | .createJob name, s => if name ∈ s.jobs then (false, s) else (true, { s with jobs := name :: s.jobs })
  | .deleteJob name, s => if name ∈ s.jobs then (true, { s with jobs := s.jobs.filter (· ≠ name) }) else (false, s)
  | .createWorkspaceResource wsUuid _, s =>
    if podName wsUuid ∈ s.resources then (false, s) else (true, { s with resources := podName wsUuid :: s.resources })
  | .newUuid, s => (s.uuid, s)
  | .now, s => (s.now, s)
  | call, s => (others call, s)

def exec (others : (call : Call) → call.Answer) (call : Call) (s : Cluster) : call.Answer × Cluster :=
  respond others call s.tick

@[simp] theorem tick_services : s.tick.services = s.services := by
  unfold tick
  split <;> rfl

@[simp] theorem tick_volumes : s.tick.volumes = s.volumes := by
  unfold tick
  split <;> rfl

@[simp] theorem tick_nodes : s.tick.nodes = s.nodes := by
  unfold tick
  split <;> rfl

@[simp] theorem has_tick (name : String) : s.tick.Has name ↔ s.Has name := by
  unfold tick Has
  split
  · rfl
  · simp only [turn, map_name_turn]

theorem has_createPod (pod : Pod) (h : ¬s.Has pod.name) (name : String) :
    (s.createPod pod h).Has name ↔ s.Has name ∨ name = pod.name := by
  simp [Has, createPod]

theorem has_deletePod (name other : String) : (s.deletePod name).Has other ↔ s.Has other ∧ other ≠ name := by
  simp only [Has, deletePod, List.mem_map, List.mem_filter, decide_eq_true_eq]
  constructor
  · rintro ⟨pod, ⟨hpod, hname⟩, rfl⟩
    exact ⟨⟨pod, hpod, rfl⟩, hname⟩
  · rintro ⟨⟨pod, hpod, rfl⟩, hname⟩
    exact ⟨pod, ⟨hpod, hname⟩, rfl⟩

end Cluster

/-- The request touches neither pods nor Services. -/
def Call.Quiet : Call → Prop
  | .createPod _ | .deletePod .. | .createService _ => False
  | _ => True

namespace Cluster

theorem exec_quiet (others : (call : Call) → call.Answer) {call : Call} (h : call.Quiet) (s : Cluster) :
    (s.exec others call).2.pods = s.tick.pods ∧ (s.exec others call).2.services = s.services ∧
      (s.exec others call).2.nodes = s.nodes := by
  rw [← tick_services s, ← tick_nodes s]
  cases call with
  | createPod | deletePod | createService => cases h
  | createVolume | deleteVolume | createJob | deleteJob | createWorkspaceResource =>
    simp only [exec, respond]
    split <;> exact ⟨rfl, rfl, rfl⟩
  | _ => exact ⟨rfl, rfl, rfl⟩

end Cluster

theorem Call.Prepares.quiet {call : Call} (h : call.Prepares) : call.Quiet := by
  cases call <;> trivial

section

open Prog

variable (settings : Settings) (req : ProvisionRequest)

theorem quiet_of_prepares {α : Type} {p : Io α} (hp : p.Only Call.Prepares) : p.Only Call.Quiet :=
  hp.mono fun _ => Call.Prepares.quiet

theorem quiet_workspaceUuid (isNew : Bool) : (workspaceUuid req isNew).Only Call.Quiet := by
  simp [workspaceUuid, Call.Quiet]

theorem quiet_of_aloof {α : Type} {p : Io α} (hp : p.Only Call.Aloof) : p.Only Call.Quiet :=
  hp.mono fun call hcall => by cases call <;> trivial

end

theorem triple_createK8sPod {others : (call : Call) → call.Answer} {settings : Settings} {req : ProvisionRequest}
    {isNew : Bool} {inv post : Cluster → Prop} (hquiet : ∀ call s, call.Quiet → inv s → inv (s.exec others call).2)
    (hend : ∀ s, inv s → post s) (hdeploy : ∀ wsUuid privateKey publicKey,
      Prog.Triple (Cluster.exec others) inv (deployPod req wsUuid privateKey publicKey) fun _ => post) :
    Prog.Triple (Cluster.exec others) inv (createK8sPod settings req isNew) fun _ => post := by
  have hkept {α : Type} {p : Io α} (hp : p.Only Call.Quiet) : Prog.Triple (Cluster.exec others) inv p fun _ => inv :=
    hp.triple hquiet
  refine .bind (hkept (.single trivial)) fun client => .ite (fun _ => hend) fun _ => ?_
  refine .bind (hkept (quiet_workspaceUuid req isNew)) fun wsUuid => .ite (fun _ => hend) fun _ => ?_
  refine .bind (hkept (quiet_of_prepares (prepares_keyPair isNew))) fun keys => ?_
  cases keys with
  | none => exact hend
  | some keys =>
    refine .bind (hkept (.ite (quiet_of_prepares (prepares_prepareStorage settings req wsUuid)) trivial)) fun stored => ?_
    cases stored with
    | error err => exact hend
    | ok value => exact hdeploy wsUuid keys.1 keys.2

end HideServer.Provisioner
