import HideServer.Env.Fleet

/-!
# Calls of `openFile` and `closeFile` on several instances

The instances share the cached workspace, which notes who has the document of a file. A call asks the
cache, goes on on its own instance, and has the note changed by `updateCache`; others go on between
its steps. A call that is passed on is another call there.
-/

namespace HideServer.Env.Calls

open Cache Sync

variable {U : Type}

inductive Op where
  | openFile
  | closeFile
  deriving DecidableEq, Repr

inductive Phase where
  | asking
  /-- The cache has been read: the note about the document, if there is a workspace. -/
  | answered (cached : Option (Option String))
  | loading (d : Nat)
  | fetching
  /-- The workspace being written by `updateCache`. -/
  | storing (workspace : CachedWorkspace)
  | stored
  | ended
  deriving DecidableEq

structure Call where
  op : Op
  instanceId : InstanceId
  uid : String
  ino : Nat
  phase : Phase
  deriving DecidableEq

/-- What `updateCache` writes. -/
def Call.update (call : Call) (docs : Dict Nat String) : Dict Nat String :=
  match call.op with
  | .openFile => docs.set call.ino call.instanceId.1
  | .closeFile => docs.erase call.ino

/-- An open that was reported to its user. -/
structure Grant where
  instanceId : InstanceId
  uid : String
  ino : Nat
  deriving DecidableEq

def Call.grant (call : Call) : Grant := ⟨call.instanceId, call.uid, call.ino⟩

structure Cluster (U : Type) where
  uuid : String
  instances : Fleet U
  workspace : Option CachedWorkspace
  calls : List Call
  granted : List Grant

def Cluster.start (uuid : String) (workspace : Option CachedWorkspace) (files : File → List U) : Cluster U :=
  ⟨uuid, fun i => .start i.1 files, workspace.map fun workspace => { workspace with docs := .empty }, [], []⟩

namespace Cluster

variable (s : Cluster U)

def file (ino : Nat) : File := ⟨s.uuid, ino⟩

def act (i : InstanceId) (label : Sync.Label U) : Cluster U :=
  { s with instances := s.instances.act i label }

variable (k : Nat) (call : Call)

/-- The call comes to another phase. -/
def move (phase : Phase) : Cluster U :=
  { s with calls := s.calls.set k { call with phase := phase } }

/-- Where an open goes on after the cache was read. -/
def entered (cached : Option (Option String)) : Phase :=
  let inst := s.instances call.instanceId
  if !inst.responsible cached then .ended
  else if (inst.here (s.file call.ino)).isSome then .fetching
  else .loading inst.docCount

def left (cached : Option (Option String)) : Phase :=
  if (s.instances call.instanceId).parts call.uid (s.file call.ino) cached then .fetching else .ended

def closing : Nat := (s.instances call.instanceId).closings.idxOf s.uuid

def answer (cached : Option (Option String)) : Cluster U :=
  match call.op with
  | .openFile =>
    (s.move k call (s.entered call cached)).act call.instanceId (.openFile call.uid (s.file call.ino) cached)
  | .closeFile =>
    { (s.move k call (s.left call cached)).act call.instanceId (.closeFile call.uid (s.file call.ino) cached) with
      granted := s.granted.filter (· ≠ call.grant) }

/-- The end of a call. -/
def finish : Cluster U :=
  match call.op with
  -- `sendSuccess`
  | .openFile => { s.move k call .ended with granted := s.granted ++ [call.grant] }
  | .closeFile => (s.move k call .ended).act call.instanceId (.closed (s.closing call))

def resume : Cluster U :=
  match call.phase with
  | .asking => s.move k call (.answered (s.workspace.map fun workspace => workspace.docs.get? call.ino))
  | .answered cached => s.answer k call cached
  | .loading d =>
    if (s.instances call.instanceId).served d then
      (s.move k call .fetching).act call.instanceId (.initialized d)
    else s
  | .fetching =>
    match s.workspace with
    | none => s.move k call .stored
    | some workspace => s.move k call (.storing workspace)
  | .storing workspace =>
    { s.move k call .stored with workspace := some { workspace with docs := call.update workspace.docs } }
  | .stored => s.finish k call
  | .ended => s

/-- The daemon answers a load. -/
def read (ok blank : Bool) : Cluster U :=
  match call.phase with
  | .loading d =>
    if (s.instances call.instanceId).served d then s
    else (s.move k call (if ok then .loading d else .ended)).act call.instanceId (.read d ok blank)
  | _ => s

end Cluster

inductive Label (U : Type) where
  | spawn (op : Op) (instanceId : InstanceId) (uid : String) (ino : Nat)
  | resume (k : Nat)
  | read (k : Nat) (ok blank : Bool)
  | inner (instanceId : InstanceId) (label : Sync.Label U)

def step (s : Cluster U) : Label U → Cluster U
  | .spawn op instanceId uid ino => { s with calls := s.calls ++ [⟨op, instanceId, uid, ino, .asking⟩] }
  | .resume k => (s.calls[k]?).elim s (s.resume k)
  | .read k ok blank => (s.calls[k]?).elim s fun call => s.read k call ok blank
  | .inner instanceId label => if label.inner then s.act instanceId label else s

/-- File loads succeed. -/
def Loads : Label U → Prop
  | .read _ ok _ => ok = true
  | _ => True

def Cluster.tidy (s : Cluster U) (call : Call) : Prop :=
  match call.op, call.phase with
  | .openFile, .answered cached =>
    Sync.Orderly (s.instances call.instanceId) (.openFile call.uid (s.file call.ino) cached)
  | .closeFile, .stored => Sync.Orderly (s.instances call.instanceId) (.closed (s.closing call))
  | _, _ => True

/-- The step keeps the instance orderly. -/
def Tidy (s : Cluster U) : Label U → Prop
  | .resume k => ∀ call ∈ s.calls[k]?, s.tidy call
  | _ => True

instance (label : Label U) : Decidable (Loads label) := by
  cases label <;> (unfold Loads; infer_instance)

instance [DecidableEq U] (s : Cluster U) (call : Call) : Decidable (s.tidy call) := by
  unfold Cluster.tidy
  split <;> infer_instance

instance [DecidableEq U] (s : Cluster U) (label : Label U) : Decidable (Tidy s label) := by
  cases label <;> (unfold Tidy; infer_instance)

def shelf : CachedWorkspace := ⟨.active, "e1", .empty, .empty, .empty⟩

/-- Every call that waits for a document waits for its own. -/
structure Attached (s : Cluster U) : Prop where
  wired : ∀ i, Wired (s.instances i)
  ids : ∀ i, (s.instances i).instanceId = i.1
  loading : ∀ {k : Nat} {call : Call} {d : Nat}, s.calls[k]? = some call → call.phase = .loading d →
    (s.instances call.instanceId).opening d = some (s.file call.ino, call.uid)
  loading_inj : ∀ {k k' : Nat} {call call' : Call} {d : Nat}, s.calls[k]? = some call → s.calls[k']? = some call' →
    call.instanceId = call'.instanceId → call.phase = .loading d → call'.phase = .loading d → k = k'

section

variable {s : Cluster U} {k : Nat} {call : Call}

theorem attached_start (uuid : String) (workspace : Option CachedWorkspace)
    (files : File → List U) : Attached (.start uuid workspace files) where
  wired i := wired_start i.1 files
  ids _ := rfl
  loading h := nomatch h
  loading_inj h := nomatch h

theorem file_inj {ino ino' : Nat} (hfile : s.file ino = s.file ino') : ino = ino' :=
  congrArg File.ino hfile

theorem instances_act (i : InstanceId) (label : Sync.Label U) :
    (s.act i label).instances = s.instances.act i label := rfl

theorem calls_move (hcall : s.calls[k]? = some call) (phase : Phase) (j : Nat) :
    (s.move k call phase).calls[j]? =
      if j = k then some { call with phase := phase } else s.calls[j]? := by
  have hlt : k < s.calls.length := (List.getElem?_eq_some_iff.mp hcall).1
  simp only [Cluster.move, List.getElem?_set, hlt, if_true]
  simp only [eq_comm]

theorem calls_spawn {op : Op} {i : InstanceId} {uid : String} {ino j : Nat} {other : Call}
    (hother : (step s (.spawn op i uid ino)).calls[j]? = some other) :
    s.calls[j]? = some other ∨ other = ⟨op, i, uid, ino, .asking⟩ := by
  simp only [step, List.getElem?_append] at hother
  split_ifs at hother with hlt
  · exact .inl hother
  · exact .inr (List.mem_singleton.mp (List.mem_of_getElem? hother))

theorem Attached.move (h : Attached s) (hcall : s.calls[k]? = some call) {phase : Phase}
    (hphase : ∀ d, phase = .loading d → (s.instances call.instanceId).opening d = some (s.file call.ino, call.uid) ∧
      ∀ (j : Nat) (other : Call), s.calls[j]? = some other → other.instanceId = call.instanceId →
        other.phase = .loading d → j = k) :
    Attached (s.move k call phase) where
  wired := h.wired
  ids := h.ids
  loading := by
    intro j other d hother hloading
    rw [calls_move hcall] at hother
    split_ifs at hother with hj
    · cases hother
      exact (hphase d hloading).1
    · exact h.loading hother hloading
  loading_inj := by
    intro j j' other other' d hother hother' hinstance hloading hloading'
    rw [calls_move hcall] at hother hother'
    split_ifs at hother hother' with hj hj' hj'
    · exact hj.trans hj'.symm
    · cases hother
      exact absurd ((hphase d hloading).2 j' other' hother' hinstance.symm hloading') hj'
    · cases hother'
      exact absurd ((hphase d hloading').2 j other hother hinstance hloading) hj
    · exact h.loading_inj hother hother' hinstance hloading hloading'

theorem Attached.act (h : Attached s) {i : InstanceId} {label : Sync.Label U} (htidy : Sync.Tidy (s.instances i) label)
    (hothers : ∀ d, label = .initialized d → ∀ (k : Nat) (call : Call), s.calls[k]? = some call → call.instanceId = i →
      call.phase ≠ .loading d) :
    Attached (s.act i label) where
  wired := by
    intro j
    by_cases hj : j = i
    · subst hj
      rw [instances_act, Fleet.act_self]
      exact wired_step (h.wired j) htidy
    · rw [instances_act, Fleet.act_of_ne hj]
      exact (h.wired j).files _
  ids := by
    intro j
    by_cases hj : j = i
    · subst hj
      rw [instances_act, Fleet.act_self, instanceId_step]
      exact h.ids j
    · rw [instances_act, Fleet.act_of_ne hj]
      exact h.ids j
  loading := by
    intro k call d hcall hloading
    have hopening := h.loading hcall hloading
    by_cases hi : call.instanceId = i
    · subst hi
      rw [instances_act, Fleet.act_self]
      refine opening_step (h.wired _) htidy ?_ hopening
      intro hlabel
      exact hothers d hlabel k call hcall rfl hloading
    · rw [instances_act, Fleet.opening_act_of_ne hi]
      exact hopening
  loading_inj := h.loading_inj

theorem entered_eq_loading {cached : Option (Option String)} {d : Nat} (hentered : s.entered call cached = .loading d) :
    ((s.instances call.instanceId).responsible cached = true ∧
      (s.instances call.instanceId).here (s.file call.ino) = none) ∧
      d = (s.instances call.instanceId).docCount := by
  unfold Cluster.entered at hentered
  simp only at hentered
  split_ifs at hentered with hresponsible hhere
  cases hentered
  exact ⟨⟨by simpa using hresponsible, by simpa using hhere⟩, rfl⟩

theorem Attached.answer (h : Attached s) (hcall : s.calls[k]? = some call) {cached : Option (Option String)}
    (horderly : call.op = .openFile →
      Sync.Orderly (s.instances call.instanceId) (.openFile call.uid (s.file call.ino) cached)) :
    Attached (s.answer k call cached) := by
  unfold Cluster.answer
  cases hop : call.op with
  | openFile =>
    have hact : Attached (s.act call.instanceId (.openFile call.uid (s.file call.ino) cached)) := h.act (horderly hop) nofun
    refine hact.move hcall fun d hphase => ?_
    obtain ⟨hnew, rfl⟩ := entered_eq_loading hphase
    rw [instances_act, Fleet.act_self]
    refine ⟨?_, fun j other hother hinstance hloading => ?_⟩
    · exact (opening_openFile (h.wired _) ..).trans (if_pos ⟨hnew, rfl⟩)
    · -- no call waits for a document that did not exist
      have hopening := h.loading hother hloading
      rw [hinstance, (h.wired _).opening_docCount] at hopening
      cases hopening
  | closeFile =>
    have hleft (d : Nat) : s.left call cached ≠ .loading d := by
      unfold Cluster.left
      split <;> nofun
    have hact : Attached (s.act call.instanceId (.closeFile call.uid (s.file call.ino) cached)) := h.act trivial nofun
    have hmove := hact.move hcall fun d hphase => absurd hphase (hleft d)
    exact ⟨hmove.wired, hmove.ids, hmove.loading, hmove.loading_inj⟩

theorem Attached.finish (h : Attached s) (hcall : s.calls[k]? = some call) (horderly : call.op = .closeFile →
      Sync.Orderly (s.instances call.instanceId) (.closed (s.closing call))) :
    Attached (s.finish k call) := by
  have hmove : Attached (s.move k call .ended) := h.move hcall nofun
  unfold Cluster.finish
  cases hop : call.op with
  | openFile => exact ⟨hmove.wired, hmove.ids, hmove.loading, hmove.loading_inj⟩
  | closeFile => exact hmove.act (horderly hop) nofun

theorem Attached.initialized (h : Attached s) (hcall : s.calls[k]? = some call) {d : Nat}
    (hphase : call.phase = .loading d) : Attached ((s.move k call .fetching).act call.instanceId (.initialized d)) := by
  have hmove : Attached (s.move k call .fetching) := h.move hcall nofun
  refine hmove.act trivial fun e he j other hother hinstance hloading => ?_
  cases he
  rw [calls_move hcall] at hother
  split_ifs at hother with hj
  · cases hother
    cases hloading
  · exact hj (h.loading_inj hother hcall hinstance hloading hphase)

theorem Cluster.tidy.opens (h : s.tidy call) {cached : Option (Option String)}
    (hop : call.op = .openFile) (hphase : call.phase = .answered cached) :
    Sync.Orderly (s.instances call.instanceId) (.openFile call.uid (s.file call.ino) cached) := by
  simp only [Cluster.tidy, hop, hphase] at h
  exact h

theorem Cluster.tidy.closes (h : s.tidy call) (hop : call.op = .closeFile) (hphase : call.phase = .stored) :
    Sync.Orderly (s.instances call.instanceId) (.closed (s.closing call)) := by
  simp only [Cluster.tidy, hop, hphase] at h
  exact h

theorem Attached.resume (h : Attached s) (hcall : s.calls[k]? = some call) (htidy : s.tidy call) :
    Attached (s.resume k call) := by
  unfold Cluster.resume
  cases hphase : call.phase with
  | asking => exact h.move hcall nofun
  | answered cached => exact h.answer hcall fun hop => htidy.opens hop hphase
  | loading d =>
    simp only
    split
    · exact h.initialized hcall hphase
    · exact h
  | fetching =>
    simp only
    split
    · exact h.move hcall nofun
    · exact h.move hcall nofun
  | storing workspace =>
    have hmove : Attached (s.move k call .stored) := h.move hcall nofun
    exact ⟨hmove.wired, hmove.ids, hmove.loading, hmove.loading_inj⟩
  | stored => exact h.finish hcall fun hop => htidy.closes hop hphase
  | ended => exact h

theorem Attached.read (h : Attached s) (hcall : s.calls[k]? = some call) (blank : Bool) :
    Attached (s.read k call true blank) := by
  unfold Cluster.read
  cases hphase : call.phase with
  | loading d =>
    simp only [if_true]
    split
    · exact h
    · have hmove : Attached (s.move k call (.loading d)) := by
        refine h.move hcall fun e he => ?_
        cases he
        exact ⟨h.loading hcall hphase, fun j other hother hinstance hloading =>
          h.loading_inj hother hcall hinstance hloading hphase⟩
      exact hmove.act rfl nofun
  | _ => exact h

theorem Attached.spawn (h : Attached s) (op : Op) (i : InstanceId) (uid : String) (ino : Nat) :
    Attached (step s (.spawn op i uid ino)) := by
  have hold {j : Nat} {other : Call} {d : Nat} (hother : (step s (.spawn op i uid ino)).calls[j]? = some other)
      (hloading : other.phase = .loading d) : s.calls[j]? = some other := by
    rcases calls_spawn hother with hother | rfl
    · exact hother
    · cases hloading
  exact ⟨h.wired, h.ids, fun hother hloading => h.loading (hold hother hloading) hloading,
    fun hother hother' hinstance hloading hloading' =>
      h.loading_inj (hold hother hloading) (hold hother' hloading') hinstance hloading hloading'⟩

theorem attached_step (h : Attached s) {label : Label U} (hloads : Loads label)
    (htidy : Tidy s label) : Attached (step s label) := by
  cases label with
  | spawn op i uid ino => exact h.spawn op i uid ino
  | resume k =>
    cases hcall : s.calls[k]? with
    | none =>
      rw [step, hcall]
      exact h
    | some call =>
      rw [step, hcall]
      exact h.resume hcall (htidy call hcall)
  | read k ok blank =>
    cases hloads
    cases hcall : s.calls[k]? with
    | none =>
      rw [step, hcall]
      exact h
    | some call =>
      rw [step, hcall]
      exact h.read hcall blank
  | inner i label =>
    rw [step]
    split
    · rename_i hinner
      exact h.act (tidy_of_inner hinner) (fun d hlabel => by rw [hlabel] at hinner; cases hinner)
    · exact h

end

end HideServer.Env.Calls
