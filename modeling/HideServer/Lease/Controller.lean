import HideServer.Manage.Owners

/-!
# The lease of a dedicated workspace

When a lease has ended the controller labels the pod as a spot pod, has the record downgraded in the
background, and deletes the resource, without waiting for either. What the cluster and the workspace
service do with a request is part of the reconcile.
-/

namespace HideServer.Lease

open Async Async.Prog Trace Dict Db.Table Manage

abbrev Key := String × String

structure Resource where
  leaseExpiry : Int
  podName : String
  uid : String
  deriving DecidableEq, Repr

/-- The cluster, the records and the requests under way. -/
structure World where
  now : Int
  resources : Dict Key Resource
  pods : Dict Key (Dict String String)
  store : Manage.Store
  /-- The requests for a downgrade that are still to be made, each with the uid and the uuid. -/
  requests : List (String × String)
  /-- The users notified of a downgrade, each with the uuid. -/
  notified : List (String × String)

/-- `ok` says whether the request gets through. -/
inductive Cmd where
  | getResource (key : Key) (ok : Bool)
  | now
  | getPod (key : Key) (ok : Bool)
  | patchPod (key : Key) (label value : String) (ok : Bool)
  | deleteResource (key : Key) (ok : Bool)
  | later (uid uuid : String)
  | sendDowngraded (uid uuid : String)
  | store (call : Manage.Call)
  deriving DecidableEq

abbrev Cmd.Answer : Cmd → Type
  | .getResource .. => Option (Option Resource)
  | .now => Int
  | .getPod .. => Option (Dict String String)
  | .patchPod .. | .deleteResource .. => Bool
  | .later .. | .sendDowngraded .. => Unit
  | .store call => call.Answer

/-- A resource that is not there is an answer; a pod that is not there is an error like any other. -/
def exec : (cmd : Cmd) → World → cmd.Answer × World
  | .getResource key ok, w => (if ok then some (w.resources.get? key) else none, w)
  | .now, w => (w.now, w)
  | .getPod key ok, w => (if ok then w.pods.get? key else none, w)
  | .patchPod key label value ok, w =>
    if ok && (w.pods.get? key).isSome then (true, { w with pods := w.pods.modify key (·.set label value) })
    else (false, w)
  | .deleteResource key ok, w => if ok then (true, { w with resources := w.resources.erase key }) else (false, w)
  | .later uid uuid, w => ((), { w with requests := w.requests ++ [(uid, uuid)] })
  | .sendDowngraded uid uuid, w => ((), { w with notified := w.notified ++ [(uid, uuid)] })
  | .store call, w => ((Manage.exec call w.store).1, { w with store := (Manage.exec call w.store).2 })

abbrev Io := Prog Cmd Cmd.Answer

abbrev ask (cmd : Cmd) : Io cmd.Answer := perform cmd

def downgradeWorkspace (uid uuid : String) (choice : Nat) (commits : Bool) : Io Unit := do
  ask (.sendDowngraded uid uuid)
  let found : Option (Nat × Manage.Workspace) ← ask (.store (.findWorkspace (some uuid) choice))
  match found with
  | none => return ()
  | some (id, workspace) =>
    let _ ← ask (.store (.transaction [.saveWorkspace id { workspace with dedicated := false }] commits))

inductive Delivery where
  | lost
  | late
  /-- It is carried out before that; `commits` says whether the record can be read and saved. -/
  | carriedOut (choice : Nat) (commits : Bool)
  deriving DecidableEq, Repr

def Delivery.commits : Delivery → Bool
  | .carriedOut _ commits => commits
  | _ => false

/-- An answer that reports a failure is not looked at. -/
def notify (uid uuid : String) : Delivery → Io Unit
  | .lost => return ()
  | .late => ask (.later uid uuid)
  | .carriedOut choice commits => downgradeWorkspace uid uuid choice commits

/-- The name without `workspace-`. -/
def wsUuid (name : String) : String :=
  if "workspace-".toList <+: name.toList then String.ofList (name.toList.drop "workspace-".toList.length) else name

/-- Which of the calls of a reconcile get through, and what becomes of its request. -/
structure Calls where
  getResource : Bool
  getPod : Bool
  patchPod : Bool
  request : Delivery
  deleteResource : Bool
  deriving DecidableEq, Repr

inductive Result where
  | failed
  | done
  | requeueAfter (duration : Int)
  deriving DecidableEq, Repr

/-- The pod becomes a spot pod. -/
def relabel (pod : Key) (calls : Calls) : Io Unit := do
  let labels : Option (Dict String String) ← ask (.getPod pod calls.getPod)
  match labels with
  | none => return ()
  | some _ =>
    let _ ← ask (.patchPod pod "wstype" "spot" calls.patchPod)

def downgrade (key : Key) (dev : Resource) (calls : Calls) : Io Unit := do
  relabel (key.1, dev.podName) calls
  notify dev.uid (wsUuid key.2) calls.request
  let _ ← ask (.deleteResource key calls.deleteResource)

def reconcile (key : Key) (calls : Calls) : Io Result := do
  let got : Option (Option Resource) ← ask (.getResource key calls.getResource)
  match got with
  | none => return .failed
  | some none => return .done
  | some (some dev) =>
    let now : Int ← ask .now
    if dev.leaseExpiry < now then
      downgrade key dev calls
      return .done
    else return .requeueAfter (dev.leaseExpiry - now)

inductive Label where
  | reconcile (key : Key) (calls : Calls)
  | deliver (i : Nat) (delivery : Delivery)
  | wait (duration : Nat)
  /-- Others create, change and delete resources and pods, and manage workspaces. -/
  | setResource (key : Key) (resource : Option Resource)
  | setPod (key : Key) (labels : Option (Dict String String))
  | manage (op : Manage.Op)

def put {ρ : Type} (d : Dict Key ρ) (key : Key) : Option ρ → Dict Key ρ
  | none => d.erase key
  | some value => d.set key value

def step (w : World) : Label → World
  | .reconcile key calls => (run exec (reconcile key calls) w).2
  | .deliver i delivery =>
    match w.requests[i]? with
    | none => w
    | some (uid, uuid) => (run exec (notify uid uuid delivery) { w with requests := w.requests.eraseIdx i }).2
  | .wait duration => { w with now := w.now + duration }
  | .setResource key resource => { w with resources := put w.resources key resource }
  | .setPod key labels => { w with pods := put w.pods key labels }
  | .manage op => { w with store := perform w.store op }

def Relabelled (w : World) (pod : Key) : Prop :=
  ∀ labels ∈ w.pods.get? pod, labels.get? "wstype" = some "spot"

/-- No record of the uuid is dedicated. -/
def Downgraded (w : World) (uuid : String) : Prop :=
  ∀ id, ∀ row ∈ w.store.workspaces.rows id, row.uuid = uuid → row.dedicated = false

/-- The pod and the record are as they should be when the resource is gone. -/
def Settled (w : World) (key : Key) (dev : Resource) : Prop :=
  Relabelled w (key.1, dev.podName) ∧ Downgraded w (wsUuid key.2)

/-- If a reconcile deletes a resource whose lease has ended, the downgrade is complete. -/
def LeaseKept (w : World) : Label → Prop
  | .reconcile key calls =>
    ∀ dev ∈ w.resources.get? key, dev.leaseExpiry < w.now →
      (step w (.reconcile key calls)).resources.get? key = none → Settled (step w (.reconcile key calls)) key dev
  | _ => True

/-- A reconcile that gets to delete a resource whose lease has ended has got everything else done that is to do. -/
def Thorough (w : World) : Label → Prop
  | .reconcile key calls =>
    ∀ dev ∈ w.resources.get? key, dev.leaseExpiry < w.now → calls.getResource = true → calls.deleteResource = true →
      (Relabelled w (key.1, dev.podName) ∨ calls.getPod = true ∧ calls.patchPod = true) ∧
        (Downgraded w (wsUuid key.2) ∨ calls.request.commits = true)
  | _ => True

section

variable (w : World) (key : Key) (calls : Calls) (uid uuid : String)

theorem run_relabel (pod : Key) :
    (run exec (relabel pod calls) w).2 =
      if calls.getPod = true ∧ calls.patchPod = true then { w with pods := w.pods.modify pod (·.set "wstype" "spot") }
      else w := by
  have hnone (hpod : w.pods.get? pod = none) : w.pods.modify pod (·.set "wstype" "spot") = w.pods := by
    simp [Dict.modify, hpod]
  simp only [relabel, run_bind, run_perform, exec]
  cases calls.getPod <;> cases calls.patchPod <;> cases hpod : w.pods.get? pod <;>
    simp [exec, hpod, hnone]

theorem relabelled_relabel (pod : Key) :
    Relabelled (run exec (relabel pod calls) w).2 pod ↔
      Relabelled w pod ∨ calls.getPod = true ∧ calls.patchPod = true := by
  rw [run_relabel]
  split_ifs with hcalls
  · simp only [hcalls, and_self, or_true, iff_true]
    intro labels hlabels
    simp only [get?_modify, if_true, Option.mem_def] at hlabels
    obtain ⟨old, -, rfl⟩ := Option.map_eq_some_iff.mp hlabels
    simp [get?_set]
  · simp [hcalls]

theorem only_notify (delivery : Delivery) :
    (notify uid uuid delivery).Only fun cmd =>
      ∀ w, (exec cmd w).2.now = w.now ∧ (exec cmd w).2.resources = w.resources ∧ (exec cmd w).2.pods = w.pods := by
  cases delivery with
  | lost => trivial
  | late => exact ⟨fun _ => ⟨rfl, rfl, rfl⟩, fun _ => trivial⟩
  | carriedOut choice commits =>
    refine .perform_bind (fun _ => ⟨rfl, rfl, rfl⟩) fun _ => .perform_bind (fun _ => ⟨rfl, rfl, rfl⟩) fun found => ?_
    cases found with
    | none => trivial
    | some row => exact .perform_bind (fun _ => ⟨rfl, rfl, rfl⟩) fun _ => trivial

theorem frame_notify (delivery : Delivery) :
    (run exec (notify uid uuid delivery) w).2.resources = w.resources ∧
      (run exec (notify uid uuid delivery) w).2.pods = w.pods := by
  have honly := only_notify uid uuid delivery
  exact ⟨honly.run_eq (fun _ w h => (h w).2.1) w, honly.run_eq (fun _ w h => (h w).2.2) w⟩

theorem store_notify {delivery : Delivery} (hcommits : delivery.commits = false) :
    (run exec (notify uid uuid delivery) w).2.store = w.store := by
  cases delivery with
  | lost | late => rfl
  | carriedOut choice commits =>
    cases hcommits
    simp only [notify, downgradeWorkspace, run_bind, run_perform, exec, Manage.exec]
    cases w.store.workspaces.find? (fun row => Option.all (fun x => decide (x = row.uuid)) (some uuid)) choice with
    | none => rfl
    | some row => simp [exec]

theorem transact_downgrade {s : Manage.Store} (hproper : s.roster.Proper) {choice id : Nat} {workspace : Manage.Workspace}
    (hfound : s.workspaces.find? (fun row => (some uuid).all (· = row.uuid)) choice = some (id, workspace)) :
    transact s [.saveWorkspace id { workspace with dedicated := false }] =
      some { s with workspaces := s.workspaces.save id { workspace with dedicated := false } } := by
  have hrow := (find?_some hfound).1
  exact transact_saveWorkspace_own hproper (by simp [Manage.Store.roster, hrow]) (by simp [hrow])

theorem downgraded_downgradeWorkspace (hproper : w.store.roster.Proper) (choice : Nat) :
    Downgraded (run exec (downgradeWorkspace uid uuid choice true) w).2 uuid := by
  simp only [downgradeWorkspace, run_bind, run_perform, exec, Manage.exec]
  cases hfound : w.store.workspaces.find? (fun row => (some uuid).all (· = row.uuid)) choice with
  | none =>
    intro id row hrow huuid
    have hnot := find?_none hfound hrow
    simp [huuid] at hnot
  | some found =>
    obtain ⟨id, workspace⟩ := found
    obtain ⟨hat, hname⟩ := find?_some hfound
    have hsame : uuid = workspace.uuid := by simpa using hname
    simp only [run_bind, run_perform, exec, Manage.exec_commit (transact_downgrade uuid hproper hfound)]
    intro key row hrow huuid
    simp only [pure_eq, run_ret, rows_save, Option.mem_def] at hrow
    split_ifs at hrow with hkey
    · cases hrow
      rfl
    · -- the uuid is unique, so there is no other record to look at
      refine absurd (hproper.distinct key id uuid ?_ ?_) hkey
      · simp [Manage.Store.roster, hrow, huuid]
      · simp [Manage.Store.roster, hat, hsame]

theorem downgraded_notify (hproper : w.store.roster.Proper) (delivery : Delivery) :
    Downgraded (run exec (notify uid uuid delivery) w).2 uuid ↔ Downgraded w uuid ∨ delivery.commits = true := by
  cases hcommits : delivery.commits with
  | false => simp [Downgraded, store_notify w uid uuid hcommits]
  | true =>
    cases delivery with
    | lost | late => cases hcommits
    | carriedOut choice commits =>
      cases hcommits
      simp only [or_true, iff_true]
      exact downgraded_downgradeWorkspace w uid uuid hproper choice

theorem roster_notify (delivery : Delivery) :
    (run exec (notify uid uuid delivery) w).2.store.roster = w.store.roster := by
  cases delivery with
  | lost | late => rfl
  | carriedOut choice commits =>
    simp only [notify, downgradeWorkspace, run_bind, run_perform, exec, Manage.exec]
    cases hfound : w.store.workspaces.find? (fun row => (some uuid).all (· = row.uuid)) choice with
    | none => rfl
    | some found =>
      apply Manage.roster_exec_saveWorkspace
      simp [Manage.Store.roster, (find?_some hfound).1]

variable (dev : Resource)

theorem frame_relabel (pod : Key) :
    (run exec (relabel pod calls) w).2.resources = w.resources ∧
      (run exec (relabel pod calls) w).2.store = w.store := by
  rw [run_relabel]
  split_ifs <;> exact ⟨rfl, rfl⟩

theorem run_delete :
    (exec (.deleteResource key calls.deleteResource) w).2 =
      { w with resources := if calls.deleteResource = true then w.resources.erase key else w.resources } := by
  simp only [exec]
  split <;> simp [*]

theorem run_downgrade : let relabelled := (run exec (relabel (key.1, dev.podName) calls) w).2
    let notified := (run exec (notify dev.uid (wsUuid key.2) calls.request) relabelled).2
    (run exec (downgrade key dev calls) w).2 =
      { notified with resources := if calls.deleteResource = true then w.resources.erase key else w.resources } := by
  simp only [downgrade, run_bind, run_perform, pure_eq, run_ret, run_delete, frame_notify, frame_relabel]

theorem settled_downgrade (hproper : w.store.roster.Proper) :
    Settled (run exec (downgrade key dev calls) w).2 key dev ↔
      (Relabelled w (key.1, dev.podName) ∨ calls.getPod = true ∧ calls.patchPod = true) ∧
        (Downgraded w (wsUuid key.2) ∨ calls.request.commits = true) := by
  have hstore := (frame_relabel w calls (key.1, dev.podName)).2
  rw [run_downgrade]
  refine and_congr ?_ ?_
  · rw [← relabelled_relabel]
    simp only [Relabelled, frame_notify]
  · have hiff := downgraded_notify (run exec (relabel (key.1, dev.podName) calls) w).2 dev.uid (wsUuid key.2)
      (hstore ▸ hproper) calls.request
    simpa only [Downgraded, hstore] using hiff

end

section

variable {w : World} {key : Key} {calls : Calls} {dev : Resource}

theorem step_reconcile (hdev : w.resources.get? key = some dev) (hexpired : dev.leaseExpiry < w.now)
    (hget : calls.getResource = true) : step w (.reconcile key calls) = (run exec (downgrade key dev calls) w).2 := by
  simp [step, reconcile, exec, hget, hdev, hexpired]

theorem step_reconcile_failed (hget : calls.getResource = false) : step w (.reconcile key calls) = w := by
  simp [step, reconcile, exec, hget]

theorem deleted_iff (hdev : w.resources.get? key = some dev) (hexpired : dev.leaseExpiry < w.now) :
    (step w (.reconcile key calls)).resources.get? key = none ↔
      calls.getResource = true ∧ calls.deleteResource = true := by
  cases hget : calls.getResource with
  | false => simp [step_reconcile_failed hget, hdev]
  | true =>
    rw [step_reconcile hdev hexpired hget, run_downgrade]
    cases calls.deleteResource <;> simp [get?_erase, hdev]

section

variable (hproper : w.store.roster.Proper)

include hproper

theorem leaseKept_iff (label : Label) : LeaseKept w label ↔ Thorough w label := by
  cases label with
  | reconcile key calls =>
    refine forall_congr' fun dev => forall_congr' fun hdev => forall_congr' fun hexpired => ?_
    rw [deleted_iff hdev hexpired, and_imp]
    refine forall_congr' fun hget => forall_congr' fun _ => ?_
    rw [step_reconcile hdev hexpired hget]
    exact settled_downgrade w key calls dev hproper
  | deliver i delivery | wait duration | setResource key resource | setPod key labels | manage op => exact Iff.rfl

def Calls.fine (choice : Nat) : Calls := ⟨true, true, true, .carriedOut choice true, true⟩

theorem completed (hdev : w.resources.get? key = some dev) (hexpired : dev.leaseExpiry < w.now) (choice : Nat) :
    (step w (.reconcile key (.fine choice))).resources.get? key = none ∧
      Settled (step w (.reconcile key (.fine choice))) key dev := by
  refine ⟨(deleted_iff hdev hexpired).mpr ⟨rfl, rfl⟩, ?_⟩
  rw [step_reconcile hdev hexpired rfl, settled_downgrade w key _ dev hproper]
  exact ⟨.inr ⟨rfl, rfl⟩, .inr rfl⟩

theorem proper_step (label : Label) : (step w label).store.roster.Proper := by
  cases label with
  | reconcile key calls =>
    cases hdev : w.resources.get? key with
    | none =>
      have hsame : step w (.reconcile key calls) = w := by
        cases hget : calls.getResource <;> simp [step, reconcile, exec, hget, hdev]
      rwa [hsame]
    | some dev =>
      cases hget : calls.getResource with
      | false => rwa [step_reconcile_failed hget]
      | true =>
        by_cases hexpired : dev.leaseExpiry < w.now
        · rw [step_reconcile hdev hexpired hget, run_downgrade]
          simp only [roster_notify, frame_relabel]
          exact hproper
        · have hsame : step w (.reconcile key calls) = w := by
            simp [step, reconcile, exec, hget, hdev, hexpired]
          rwa [hsame]
  | deliver i delivery =>
    cases hrequest : w.requests[i]? with
    | none => simpa only [step, hrequest] using hproper
    | some request =>
      simp only [step, hrequest, roster_notify]
      exact hproper
  | manage op => exact proper_perform hproper op
  | wait duration | setResource key resource | setPod key labels => exact hproper

end

end

/-- A lease is not lost as long as every reconcile that deletes a resource gets everything else done, and only then; a
resource that is left can be reconciled to the end whatever has failed before. -/
theorem leaseKept_run_iff (w : World) (hproper : w.store.roster.Proper) (labels : List Label) :
    (Along step LeaseKept w labels ↔ Along step Thorough w labels) ∧
      ∀ key dev choice, (run step w labels).resources.get? key = some dev →
        dev.leaseExpiry < (run step w labels).now →
          (run step w (labels ++ [.reconcile key (.fine choice)])).resources.get? key = none ∧
            Settled (run step w (labels ++ [.reconcile key (.fine choice)])) key dev := by
  have hstep : ∀ w label, w.store.roster.Proper → Thorough w label → (step w label).store.roster.Proper :=
    fun w label hproper _ => proper_step hproper label
  constructor
  · exact along_iff_of_invariant hstep (fun w label hproper => leaseKept_iff hproper label) hproper
  · intro key dev choice hdev hexpired
    have hafter : (run step w labels).store.roster.Proper :=
      run_preserves (fun (w : World) label (h : w.store.roster.Proper) => proper_step h label) hproper labels
    rw [run_append]
    exact completed hafter hdev hexpired choice

def dedicated : World where
  now := 10
  resources := empty.set ("default", "workspace-w1") ⟨5, "workspace-w1", "alice"⟩
  pods := empty.set ("default", "workspace-w1") (empty.set "wstype" "dedicated")
  store := perform .empty (.create "alice" ⟨some "demo", "d", "node", true⟩ "w1" true true)
  requests := []
  notified := []

theorem proper_dedicated : dedicated.store.roster.Proper := proper_perform proper_empty _

def secondTry : List Label :=
  [.reconcile ("default", "workspace-w1") ⟨true, true, true, .late, false⟩,
    .reconcile ("default", "workspace-w1") (.fine 0)]

theorem leaseKept_second_try :
    Along step LeaseKept dedicated secondTry ∧
      (run step dedicated secondTry).resources.get? ("default", "workspace-w1") = none := by
  refine ⟨(leaseKept_run_iff dedicated proper_dedicated secondTry).1.mpr ⟨?_, ?_, trivial⟩, by decide +kernel⟩
  · intro dev _ _ _ hdelete
    cases hdelete
  · intro dev _ _ _ _
    exact ⟨.inr ⟨rfl, rfl⟩, .inr rfl⟩

/-- The label cannot be set, and the request does not get through. -/
def lostLease : List Label := [.reconcile ("default", "workspace-w1") ⟨true, true, false, .lost, true⟩]

/-- The resource is deleted all the same, and another reconcile finds nothing to do. -/
theorem lease_lost :
    ¬Along step LeaseKept dedicated lostLease ∧
      let later := run step dedicated (lostLease ++ [.reconcile ("default", "workspace-w1") (.fine 0)])
      later.resources.get? ("default", "workspace-w1") = none ∧
        ((later.pods.get? ("default", "workspace-w1")).bind fun labels => labels.get? "wstype") = some "dedicated" ∧
        (later.store.workspaces.rows 1).map (fun row => (row.uuid, row.dedicated)) = some ("w1", true) := by
  refine ⟨?_, by decide +kernel⟩
  rintro ⟨hkept, -⟩
  have hsettled := hkept ⟨5, "workspace-w1", "alice"⟩ (by decide +kernel) (by decide) (by decide +kernel)
  have hspot := hsettled.1 (empty.set "wstype" "dedicated") (by decide +kernel)
  exact absurd hspot (by decide +kernel)

end HideServer.Lease
