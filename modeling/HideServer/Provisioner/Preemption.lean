import Mathlib.Algebra.Group.Nat.Defs
import Mathlib.Data.List.MinMax
import HideServer.Provisioner.Gate

/-!
# Whom a request preempts

Where nothing overflows, the name of a pod is returned only when there is no room, and the pod is the
oldest of the running spot pods. `hasCapacity_agrees` compares the check with `unboundedCapacity`.
-/

namespace HideServer.Provisioner.Preemption

open Async Prog List

/-- What `hasCapacity` is meant to decide: the same with integers that have no bound. -/
def unboundedCapacity (settings : Settings) (dedicated : Bool) : Io (Except String (Bool × String)) :=
  capacity id settings dedicated

/-- What the lists and the clock say. -/
structure Survey where
  allocatableCpu : Int
  otherNodes : List Int
  pods : List Pod
  now : Int
  named : ∀ pod ∈ pods, pod.name ≠ ""

/-- The parsed settings. -/
structure Limits where
  idleThresholdCpu : Int
  wsCpu : Int
  spotHours : Int

/-- The platform is Kubernetes, and the settings can be parsed. -/
structure Limits.Of (limits : Limits) (settings : Settings) : Prop where
  platform : settings.devPlatform ≠ "docker"
  idleThresholdCpu : parseInt (orDefault settings.idleThresholdCpu "350") = some limits.idleThresholdCpu
  wsCpu : parseInt (orDefault settings.workspaceCpuRequest "350") = some limits.wsCpu
  spotHours : parseInt (orDefault settings.preemptSpotOlderThanHours "12") = some limits.spotHours

namespace Survey

variable (survey : Survey) (limits : Limits) (dedicated : Bool)

def answers (others : Environment Call Call.Answer) : Environment Call Call.Answer :=
  fun said call =>
  match call with
  | .kubernetesClient => true
  | .listNodes => some (survey.allocatableCpu, survey.otherNodes)
  | .listPods none => some survey.pods
  | .listPods (some wsType) => some (survey.pods.filter fun pod => pod.wsType = some wsType)
  | .now => survey.now
  | call => others said call

/-- The running spot pods. -/
def candidates : List Pod := survey.pods.filter fun pod => pod.phase = .running ∧ pod.wsType = some .spot

/-- No candidate was created before it, nor at the same time by an earlier place in the list. -/
def Earliest (pod : Pod) : Prop :=
  pod ∈ survey.candidates ∧ (∀ other ∈ survey.candidates, pod.created ≤ other.created) ∧
    ∀ other ∈ survey.candidates, other.created ≤ pod.created →
      survey.candidates.idxOf pod ≤ survey.candidates.idxOf other

/-- What the running pods and a workspace request is all that is available, or more. -/
def Short : Prop := survey.allocatableCpu - limits.idleThresholdCpu ≤ requestedCpu survey.pods + limits.wsCpu
  deriving Decidable

/-- A pod is named only if there is no room, and it is the right one; and a dedicated request gets one if there is any. -/
structure RightlyDecided (result : Except String (Bool × String)) : Prop where
  right : ∀ fits name, result = .ok (fits, name) → name ≠ "" → survey.Short limits ∧
    ∃ pod, survey.Earliest pod ∧ pod.name = name ∧
      (dedicated = false → pod.created < survey.now - limits.spotHours * hour)
  complete : dedicated = true → survey.Short limits → survey.candidates ≠ [] →
    ∃ name, name ≠ "" ∧ result = .ok (false, name)

/-- `Short`, for what is left of the two sides in 64 bits. -/
def WrappedShort : Prop :=
  wrap (survey.allocatableCpu - limits.idleThresholdCpu) ≤ wrap (requestedCpu survey.pods + limits.wsCpu)

/-- Some candidate was created before the time. -/
def Older (time : Int) : Prop := ∃ pod ∈ survey.candidates, pod.created < time

/-- Nobody is to be preempted; or the sums compare as what is left of them in 64 bits, and, for a request that is itself
spot, the hours do not make a cut-off that is too late. -/
def Unharmed : Prop :=
  survey.candidates = [] ∨
    if dedicated then survey.WrappedShort limits ↔ survey.Short limits
    else survey.WrappedShort limits → survey.Older (survey.now + wrap (-(limits.spotHours * hour))) →
      survey.Short limits ∧ survey.Older (survey.now - limits.spotHours * hour)

theorem oldest_cases :
    (oldest (survey.pods.filter fun pod => pod.wsType = some .spot) = none ∧ survey.candidates = []) ∨
      ∃ pod, oldest (survey.pods.filter fun pod => pod.wsType = some .spot) = some pod ∧ survey.Earliest pod := by
  have hargmin (pods : List Pod) : oldest pods = (pods.filter fun pod => pod.phase = .running).argmin Pod.created := by
    rw [oldest, argmin, foldl_filter]
    congr 1
    funext best pod
    by_cases hrunning : pod.phase = .running
    · cases best <;> simp [hrunning, argAux]
    · simp [hrunning]
  have hcandidates : (survey.pods.filter fun pod => pod.wsType = some .spot).filter (fun pod => pod.phase = .running) =
      survey.candidates := by
    rw [filter_filter, candidates]
    simp only [Bool.decide_and]
  rw [hargmin, hcandidates]
  cases hpod : survey.candidates.argmin Pod.created with
  | none => exact .inl ⟨rfl, argmin_eq_none.1 hpod⟩
  | some pod => exact .inr ⟨pod, rfl, mem_argmin_iff.1 hpod⟩

/-- What the check should decide, with results rounded. -/
def decision (round : Int → Int) : Bool × String :=
  if round (requestedCpu survey.pods + limits.wsCpu) < round (survey.allocatableCpu - limits.idleThresholdCpu) then (true, "")
  else match oldest (survey.pods.filter fun pod => pod.wsType = some .spot) with
    | none => (false, "")
    | some pod =>
      if dedicated = true ∨ pod.created < survey.now + round (-(limits.spotHours * hour)) then (false, pod.name)
      else (false, "")

variable {limits} {settings : Settings}

theorem dialogue_ask {α : Type} (env : Environment Call Call.Answer) (call : Call) (next : call.Answer → Io α)
    (said : Exchange Call Call.Answer) :
    dialogue env (ask call >>= next) said = dialogue env (next (env said call)) (said ++ [⟨call, env said call⟩]) := rfl

theorem dialogue_capacity {round : Int → Int} (hround : Rounding round) (h : limits.Of settings)
    (others : Environment Call Call.Answer) (said : Exchange Call Call.Answer) :
    (dialogue (survey.answers others) (capacity round settings dedicated) said).1 =
      .ok (survey.decision limits dedicated round) := by
  rw [capacity, if_neg h.platform, dialogue_ask, if_neg (by simp [answers]), dialogue_ask]
  simp only [answers, h.idleThresholdCpu]
  rw [dialogue_ask]
  simp only [answers, h.wsCpu, hround.totalRequestedCpu_eq, totalAvailableCpu, decision]
  split
  · rfl
  · rw [dialogue_ask]
    simp only [answers, h.spotHours, nameVictim]
    cases oldest (survey.pods.filter fun pod => pod.wsType = some .spot) with
    | none => rfl
    | some pod =>
      cases dedicated with
      | true => rfl
      | false =>
        simp only [Bool.false_eq_true, if_false, false_or]
        rw [dialogue_ask]
        simp only [answers, hround.cutoff_eq]
        split <;> rfl

variable {survey} {dedicated} {pod : Pod}

theorem Earliest.named (h : survey.Earliest pod) : pod.name ≠ "" := survey.named pod (mem_of_mem_filter h.1)

theorem Earliest.older_iff (h : survey.Earliest pod) (time : Int) : survey.Older time ↔ pod.created < time := by
  constructor
  · rintro ⟨other, hother, htime⟩
    exact (h.2.1 other hother).trans_lt htime
  · exact fun htime => ⟨pod, h.1, htime⟩

theorem rightlyDecided_nameless (fits : Bool) :
    survey.RightlyDecided limits dedicated (.ok (fits, "")) ↔
      (dedicated = true → survey.Short limits → survey.candidates = []) := by
  constructor
  · intro h hdedicated hshort
    by_contra hsome
    obtain ⟨name, hname, hresult⟩ := h.complete hdedicated hshort hsome
    cases hresult
    exact hname rfl
  · intro h
    refine ⟨?_, fun hdedicated hshort hsome => absurd (h hdedicated hshort) hsome⟩
    rintro fits name hresult hname
    cases hresult
    exact absurd rfl hname

theorem Earliest.rightlyDecided_iff (h : survey.Earliest pod) :
    survey.RightlyDecided limits dedicated (.ok (false, pod.name)) ↔
      survey.Short limits ∧ (dedicated = false → survey.Older (survey.now - limits.spotHours * hour)) := by
  constructor
  · intro hright
    obtain ⟨hshort, other, hother, -, htime⟩ := hright.right false pod.name rfl h.named
    exact ⟨hshort, fun hspot => (hother.older_iff _).2 (htime hspot)⟩
  · rintro ⟨hshort, holder⟩
    refine ⟨?_, fun _ _ _ => ⟨pod.name, h.named, rfl⟩⟩
    rintro fits name hresult -
    cases hresult
    exact ⟨hshort, pod, h, rfl, fun hspot => (h.older_iff _).1 (holder hspot)⟩

variable (survey) (limits) (dedicated)

theorem rightlyDecided_decision_iff :
    survey.RightlyDecided limits dedicated (.ok (survey.decision limits dedicated wrap)) ↔
      survey.Unharmed limits dedicated := by
  rcases survey.oldest_cases with ⟨hpod, hnone⟩ | ⟨pod, hpod, hearliest⟩
  · have hname : ∃ fits, survey.decision limits dedicated wrap = (fits, "") := by
      rw [decision, hpod]
      split <;> exact ⟨_, rfl⟩
    obtain ⟨fits, hdecision⟩ := hname
    rw [hdecision, rightlyDecided_nameless]
    exact ⟨fun _ => .inl hnone, fun _ _ _ => hnone⟩
  · have hsome : survey.candidates ≠ [] := ne_nil_of_mem hearliest.1
    rw [Unharmed, or_iff_right hsome, decision, hpod]
    by_cases hshort : survey.WrappedShort limits
    · rw [if_neg (not_lt.2 hshort)]
      cases dedicated with
      | true => simp [hearliest.rightlyDecided_iff, hshort]
      | false =>
        rw [hearliest.older_iff (survey.now + _)]
        by_cases htime : pod.created < survey.now + wrap (-(limits.spotHours * hour))
        · simp [hearliest.rightlyDecided_iff, hshort, htime]
        · simp [rightlyDecided_nameless, htime]
    · rw [if_pos (not_le.1 hshort), rightlyDecided_nameless]
      cases dedicated <;> simp [hshort, hsome]

/-- A pod is named exactly when one should be, and it is the right one, unless an overflow makes the difference. -/
theorem rightlyDecided_hasCapacity_iff (settings : Settings) (h : limits.Of settings)
    (others : Environment Call Call.Answer) (said : Exchange Call Call.Answer) :
    survey.RightlyDecided limits dedicated (dialogue (survey.answers others) (hasCapacity settings dedicated) said).1 ↔
      survey.Unharmed limits dedicated := by
  rw [hasCapacity, survey.dialogue_capacity dedicated rounding_wrap h]
  exact survey.rightlyDecided_decision_iff limits dedicated

/-- Nothing overflows. -/
structure Bounded : Prop where
  available : Fits (survey.allocatableCpu - limits.idleThresholdCpu)
  requested : Fits (requestedCpu survey.pods + limits.wsCpu)
  hours : Fits (-(limits.spotHours * hour))

variable {survey} {limits}

theorem Bounded.unharmed (h : survey.Bounded limits) : survey.Unharmed limits dedicated := by
  have hshort : survey.WrappedShort limits ↔ survey.Short limits := by
    rw [WrappedShort, h.available.wrap_eq, h.requested.wrap_eq, Short]
  rw [Unharmed, hshort, h.hours.wrap_eq, ← sub_eq_add_neg]
  cases dedicated with
  | true => simp
  | false => exact .inr fun hshort holder => ⟨hshort, holder⟩

/-- The check that counts without a bound comes to the same. -/
theorem hasCapacity_agrees (hbounded : survey.Bounded limits) (h : limits.Of settings)
    (others : Environment Call Call.Answer) (said : Exchange Call Call.Answer) :
    (dialogue (survey.answers others) (hasCapacity settings dedicated) said).1 =
      (dialogue (survey.answers others) (unboundedCapacity settings dedicated) said).1 := by
  have hid : Rounding id := ⟨rfl, fun _ _ => rfl, fun _ _ => rfl⟩
  rw [hasCapacity, survey.dialogue_capacity dedicated rounding_wrap h, unboundedCapacity,
    survey.dialogue_capacity dedicated hid h]
  simp only [decision, hbounded.available.wrap_eq, hbounded.requested.wrap_eq, hbounded.hours.wrap_eq, id]

end Survey

/-- A node of 1000 millicores with two spot pods, of which the second is older. -/
def busy : Survey where
  allocatableCpu := 1000
  otherNodes := []
  pods := [⟨"w1", .running, some .spot, [some 350], 13 * hour⟩, ⟨"w2", .running, some .spot, [some 350], 11 * hour⟩]
  now := 24 * hour
  named := by decide

def told (settings : Settings) (dedicated : Bool) : Except String (Bool × String) :=
  (dialogue (busy.answers (obliging "node" .failed .failed)) (hasCapacity settings dedicated) []).1

def standard : Settings := ⟨"", "", "", "", false⟩

theorem rightlyDecided_busy : Limits.Of ⟨350, 350, 12⟩ standard ∧ busy.Unharmed ⟨350, 350, 12⟩ false ∧
    told standard false = .ok (false, "w2") ∧ busy.RightlyDecided ⟨350, 350, 12⟩ false (told standard false) := by
  have hlimits : Limits.Of ⟨350, 350, 12⟩ standard := by constructor <;> decide
  have hbounded : busy.Bounded ⟨350, 350, 12⟩ := by constructor <;> decide
  refine ⟨hlimits, hbounded.unharmed false, by decide, ?_⟩
  exact (busy.rightlyDecided_hasCapacity_iff ⟨350, 350, 12⟩ false standard hlimits _ []).2 (hbounded.unharmed false)

theorem hasCapacity_agrees_busy : told standard false =
    (dialogue (busy.answers (obliging "node" .failed .failed)) (unboundedCapacity standard false) []).1 :=
  have hbounded : busy.Bounded ⟨350, 350, 12⟩ := by constructor <;> decide
  Survey.hasCapacity_agrees false hbounded (by constructor <;> decide) _ []

/-- A threshold far below zero, and hours that never pass. -/
def farBelow : Settings := ⟨"", "-9223372036854775808", "", "", false⟩

def neverPassing : Settings := ⟨"", "", "", "2562048", false⟩

/-- With this threshold there is room for everything, and with these hours no spot pod is old enough; a pod is named
all the same. -/
theorem wronglyDecided_busy :
    (Limits.Of ⟨-9223372036854775808, 350, 12⟩ farBelow ∧ told farBelow true = .ok (false, "w2") ∧
      ¬ busy.RightlyDecided ⟨-9223372036854775808, 350, 12⟩ true (told farBelow true)) ∧
    Limits.Of ⟨350, 350, 2562048⟩ neverPassing ∧ told neverPassing false = .ok (false, "w2") ∧
      ¬ busy.RightlyDecided ⟨350, 350, 2562048⟩ false (told neverPassing false) := by
  refine ⟨⟨by constructor <;> decide, by decide, fun h => ?_⟩, by constructor <;> decide, by decide, fun h => ?_⟩
  · obtain ⟨hshort, -⟩ := h.right false "w2" (by decide) (by decide)
    exact absurd hshort (by decide)
  · obtain ⟨-, pod, hearliest, -, htime⟩ := h.right false "w2" (by decide) (by decide)
    have hyoung : ∀ pod ∈ busy.candidates, ¬ pod.created < busy.now - 2562048 * hour := by decide
    exact hyoung pod hearliest.1 (htime rfl)

end HideServer.Provisioner.Preemption
