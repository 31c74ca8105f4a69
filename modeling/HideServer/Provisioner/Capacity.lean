import Mathlib.Algebra.Order.Ring.Int
import HideServer.Provisioner.Service

/-!
# Admission

`hasCapacity` decides whether one more workspace fits on the node, and if not, which spot workspace
could be stopped. It counts in 64-bit integers, which wrap around; how a result is rounded is a
parameter here.
-/

namespace HideServer.Provisioner

open Async

/-- The value of a nonempty sequence of decimal digits. -/
def digits : List Char → Option Nat
  | [] => none
  | chars => chars.foldl (fun value char => value.bind fun n =>
    if char.isDigit then some (10 * n + (char.toNat - '0'.toNat)) else none) (some 0)

/-- The value, if it has 64 bits. -/
def int64 (value : Int) : Option Int :=
  if -2 ^ 63 ≤ value ∧ value < 2 ^ 63 then some value else none

/-- `strconv.ParseInt` in base 10 with 64 bits. -/
def parseInt (text : String) : Option Int :=
  match text.toList with
  | '-' :: chars => (digits chars).bind fun n => int64 (-n)
  | '+' :: chars => (digits chars).bind fun n => int64 n
  | chars => (digits chars).bind fun n => int64 n

/-- A variable that is unset or empty takes the default. -/
def orDefault (value default : String) : String := if value = "" then default else value

/-- The sum over the containers. -/
def Pod.requestedCpu (pod : Pod) : Int := (pod.cpuRequests.map fun request => request.getD 0).sum

/-- What the running pods request. -/
def requestedCpu (pods : List Pod) : Int :=
  ((pods.filter fun pod => pod.phase = .running).map Pod.requestedCpu).sum

/-- The first of the oldest running pods. -/
def oldest (pods : List Pod) : Option Pod :=
  pods.foldl (fun best pod =>
    if pod.phase ≠ .running then best
    else match best with
      | none => some pod
      | some old => if pod.created < old.created then some pod else some old) none

def hour : Int := 3600 * 10 ^ 9

/-- What is left of an integer in 64 bits. -/
def wrap (value : Int) : Int := value.bmod (2 ^ 64)

section

variable (round : Int → Int)

/-- `totalRequestedCpu += cpuQty.MilliValue()` for the containers that request CPU. -/
def addContainer (total : Int) : Option Int → Int
  | some cpu => round (total + cpu)
  | none => total

/-- Only the containers of running pods count. -/
def addPod (total : Int) (pod : Pod) : Int :=
  if pod.phase ≠ .running then total else pod.cpuRequests.foldl (addContainer round) total

def totalRequestedCpu (pods : List Pod) (wsCpu : Int) : Int := round (pods.foldl (addPod round) 0 + wsCpu)

/-- What may be requested. -/
def totalAvailableCpu (allocatableCpu idleThresholdCpu : Int) : Int := round (allocatableCpu - idleThresholdCpu)

/-- `time.Now().Add(-1 * time.Duration(spotHours) * time.Hour)`; a time itself does not overflow. -/
def cutoff (now spotHours : Int) : Int := now + round (round (-1 * spotHours) * hour)

/-- The end of `hasCapacity`, where there is no room: the oldest spot pod is to be stopped, for a request that is itself
spot only if it is old enough. -/
def nameVictim (dedicated : Bool) (spotHours : Int) (spotPods : List Pod) : Io (Except String (Bool × String)) :=
  match oldest spotPods with
  | none => return .ok (false, "")
  | some oldestPod => do
    if dedicated then return .ok (false, oldestPod.name)
    let now : Int ← ask .now
    if oldestPod.created < cutoff round now spotHours then return .ok (false, oldestPod.name)
    return .ok (false, "")

/-- `hasCapacity`, with integers that are rounded like this. -/
def capacity (settings : Settings) (dedicated : Bool) : Io (Except String (Bool × String)) := do
  if settings.devPlatform = "docker" then return .ok (true, "")
  let client : Bool ← ask .kubernetesClient
  if !client then return .error "client failed"
  let nodes : Option (Int × List Int) ← ask .listNodes
  match nodes with
  | none => return .error "Failed to list nodes"
  | some (allocatableCpu, _) =>
    match parseInt (orDefault settings.idleThresholdCpu "350") with
    | none => return .error "Bad config for idle threshold"
    | some idleThresholdCpu =>
      let pods : Option (List Pod) ← ask (.listPods none)
      match pods with
      | none => return .error "Failed to list pods"
      | some pods =>
        match parseInt (orDefault settings.workspaceCpuRequest "350") with
        | none => return .error "Bad config for workspace requested cpu"
        | some wsCpu =>
          if totalRequestedCpu round pods wsCpu < totalAvailableCpu round allocatableCpu idleThresholdCpu then
            return .ok (true, "")
          let spotPods : Option (List Pod) ← ask (.listPods (some .spot))
          match spotPods with
          | none => return .error "Failed to list pods with label wstype=spot"
          | some spotPods =>
            match parseInt (orDefault settings.preemptSpotOlderThanHours "12") with
            | none => return .error "Bad config for spot hours"
            | some spotHours => nameVictim round dedicated spotHours spotPods

end

def hasCapacity (settings : Settings) (dedicated : Bool) : Io (Except String (Bool × String)) :=
  capacity wrap settings dedicated

/-- What `nameVictim` names. -/
def victim (dedicated : Bool) (cutoff : Int) (spotPods : List Pod) : String :=
  match oldest spotPods with
  | none => ""
  | some pod =>
    if dedicated then pod.name
    else if pod.created < cutoff then pod.name
    else ""

/-- The integer has 64 bits. -/
def Fits (value : Int) : Prop := -2 ^ 63 ≤ value ∧ value < 2 ^ 63
  deriving Decidable

theorem Fits.wrap_eq {value : Int} (h : Fits value) : wrap value = value := by
  obtain ⟨hlower, hupper⟩ := h
  refine Int.bmod_eq_of_le ?_ ?_ <;> omega

/-- It makes no difference whether a part is rounded first. -/
structure Rounding (round : Int → Int) : Prop where
  zero : round 0 = 0
  add (left right : Int) : round (round left + right) = round (left + right)
  mul (left right : Int) : round (round left * right) = round (left * right)

theorem rounding_wrap : Rounding wrap := ⟨rfl, fun _ _ => Int.bmod_add_bmod, fun _ _ => Int.bmod_mul_bmod⟩

theorem requestedCpu_cons (pod : Pod) (pods : List Pod) :
    requestedCpu (pod :: pods) = (if pod.phase = .running then pod.requestedCpu else 0) + requestedCpu pods := by
  by_cases hrunning : pod.phase = .running <;> simp [requestedCpu, hrunning]

namespace Rounding

variable {round : Int → Int} (h : Rounding round)

include h

theorem foldl_addContainer (requests : List (Option Int)) (total : Int) : requests.foldl (addContainer round) (round total) =
    round (total + (requests.map fun request => request.getD 0).sum) := by
  induction requests generalizing total with
  | nil => simp
  | cons request requests ih =>
    cases request with
    | none => simpa [addContainer] using ih total
    | some cpu =>
      have hrest := ih (total + cpu)
      rw [List.foldl_cons, addContainer, h.add, hrest, List.map_cons, List.sum_cons, Option.getD_some, add_assoc]

theorem foldl_addPod (pods : List Pod) (total : Int) :
    pods.foldl (addPod round) (round total) = round (total + requestedCpu pods) := by
  induction pods generalizing total with
  | nil => simp [requestedCpu]
  | cons pod pods ih =>
    have hpod : addPod round (round total) pod = round (total + if pod.phase = .running then pod.requestedCpu else 0) := by
      by_cases hrunning : pod.phase = .running
      · rw [addPod, if_neg (not_not.2 hrunning), if_pos hrunning, h.foldl_addContainer, Pod.requestedCpu]
      · rw [addPod, if_pos hrunning, if_neg hrunning, add_zero]
    rw [List.foldl_cons, hpod, ih, requestedCpu_cons, add_assoc]

/-- Each addition is rounded, and so is their sum. -/
theorem totalRequestedCpu_eq (pods : List Pod) (wsCpu : Int) :
    totalRequestedCpu round pods wsCpu = round (requestedCpu pods + wsCpu) := by
  have hpods := h.foldl_addPod pods 0
  rw [h.zero, zero_add] at hpods
  rw [totalRequestedCpu, hpods, h.add]

theorem cutoff_eq (now spotHours : Int) : cutoff round now spotHours = now + round (-(spotHours * hour)) := by
  rw [cutoff, h.mul, neg_one_mul, neg_mul]

end Rounding

end HideServer.Provisioner
