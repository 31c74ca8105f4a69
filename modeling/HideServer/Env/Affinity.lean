import HideServer.Async.Trace
import HideServer.Async.Triple
import HideServer.Env.Workspace

/-!
# Where the events of a workspace go

The daemon of a workspace sends its events to the instance it was told last, which takes them only if
it has an entry for the workspace. `handleEnvReady` arranges both, but only if the record lists no
directories. Pods and instances may be replaced. A handler runs to its end here, and no call fails.
-/

namespace HideServer.Env.Affinity

open Async Async.Prog Cache Function Trace FSService

structure Deployment where
  world : World
  /-- The instance that the daemon of each workspace sends its events to. -/
  affinity : String → Option String
  /-- The ids of the instances that run, and of those that do not any more. -/
  live : List String
  gone : List String
  /-- `pathState` of an instance has an entry for the workspace. -/
  watches : String → String → Bool

def Deployment.start (world : World) (live : List String) : Deployment where
  world := { world with workspace := fun _ => none }
  affinity _ := none
  live := live
  gone := []
  watches _ _ := false

namespace Deployment

variable (s : Deployment)

/-- `/api/affine` has succeeded, and `setWorkspace` follows. -/
def claim (uuid envId : String) : Deployment :=
  { s with
    affinity := update s.affinity uuid (some envId)
    watches := update s.watches envId (update (s.watches envId) uuid true) }

def note : Cmd → Deployment
  | .fetch (.affine uuid envId) true => s.claim uuid envId
  | _ => s

def replacePod (uuid : String) : Deployment := { s with affinity := update s.affinity uuid none }

/-- The instance is gone, and another one runs under an id that was never used. -/
def restart (instanceId newId : String) : Deployment :=
  if instanceId ∈ s.live ∧ newId ∉ s.live ∧ newId ∉ s.gone then
    { s with
      live := newId :: s.live.filter (· ≠ instanceId)
      gone := instanceId :: s.gone
      watches := update (update s.watches instanceId fun _ => false) newId fun _ => false }
  else s

end Deployment

def exec (cmd : Cmd) (s : Deployment) : cmd.Answer × Deployment :=
  ((Cache.exec cmd s.world).1, { s.note cmd with world := (Cache.exec cmd s.world).2 })

inductive Label where
  | envReady (instanceId uid sessionId uuid : String)
  | envClose (instanceId uid uuid : String)
  | openDir (uid uuid path : String)
  | closeDir (uid uuid path : String)
  | replacePod (uuid : String)
  | restart (instanceId newId : String)
  | presence (uid : String) (presence : Option CachedPresence)
  | change (change : Change)

variable (wsActivity : Nat)

def program (s : Deployment) : Label → Io Unit
  | .envReady instanceId uid sessionId uuid =>
    if instanceId ∈ s.live then handleEnvReady instanceId uid sessionId uuid true true else return ()
  | .envClose instanceId uid uuid =>
    if instanceId ∈ s.live then handleEnvClose wsActivity instanceId uid uuid true else return ()
  | .openDir uid uuid path => openDir uid uuid path true
  | .closeDir uid uuid path => closeDir uid uuid path
  | _ => return ()

def Deployment.pass (s : Deployment) : Label → Deployment
  | .replacePod uuid => s.replacePod uuid
  | .restart instanceId newId => s.restart instanceId newId
  | .presence uid presence => { s with world := { s.world with presence := update s.world.presence uid presence } }
  | .change change => { s with world := s.world.change change }
  | _ => s

def step (s : Deployment) (label : Label) : Deployment :=
  (run exec (program wsActivity s label) (s.pass label)).2

/-! ### The property and the condition -/

/-- Events of the workspace go to the instance that is noted for it, which runs and takes them. -/
def Attached (s : Deployment) (uuid : String) : Prop :=
  ∃ workspace, s.world.workspace uuid = some workspace ∧ s.affinity uuid = some workspace.fs ∧ workspace.fs ∈ s.live ∧
    s.watches workspace.fs uuid = true

/-- The opening comes to the key that it sets last. -/
def Succeeds (s : Deployment) (instanceId uid sessionId uuid : String) : Prop :=
  ∃ call ∈ calls exec (program wsActivity s (.envReady instanceId uid sessionId uuid)) s,
    call.2 = .setTimer (presenceWorkspace uid sessionId uuid) 1 20000

instance (wsActivity : Nat) (s : Deployment) (instanceId uid sessionId uuid : String) :
    Decidable (Succeeds wsActivity s instanceId uid sessionId uuid) :=
  inferInstanceAs (Decidable (∃ call ∈ calls exec (program wsActivity s (.envReady instanceId uid sessionId uuid)) s,
    call.2 = .setTimer (presenceWorkspace uid sessionId uuid) 1 20000))

/-- Every opening that succeeds leaves the workspace attached. -/
def AttachedWhenReady (s : Deployment) : Label → Prop
  | .envReady instanceId uid sessionId uuid =>
    Succeeds wsActivity s instanceId uid sessionId uuid →
      Attached (step wsActivity s (.envReady instanceId uid sessionId uuid)) uuid
  | _ => True

/-- Pods are replaced and instances restarted while no directory is listed, and directories are opened while the
daemon has the affinity of an instance that runs. -/
def Careful (s : Deployment) : Label → Prop
  | .replacePod uuid => ∀ workspace ∈ s.world.workspace uuid, workspace.dirs.entries = []
  | .restart instanceId _ =>
    ∀ uuid, ∀ workspace ∈ s.world.workspace uuid, workspace.fs = instanceId → workspace.dirs.entries = []
  | .openDir _ uuid _ => (s.world.workspace uuid).isSome → ∃ envId ∈ s.affinity uuid, envId ∈ s.live
  | _ => True

/-! ### What holds between handlers -/

structure Sound (s : Deployment) : Prop where
  watching : ∀ {uuid envId}, s.affinity uuid = some envId → envId ∈ s.live → s.watches envId uuid = true
  known : ∀ {uuid envId}, s.affinity uuid = some envId → envId ∈ s.live ∨ envId ∈ s.gone
  noted : ∀ {uuid workspace envId}, s.world.workspace uuid = some workspace → s.affinity uuid = some envId →
    workspace.fs = envId
  listed : ∀ {uuid workspace}, s.world.workspace uuid = some workspace → workspace.dirs.entries ≠ [] →
    ∃ envId, s.affinity uuid = some envId ∧ envId ∈ s.live

/-- What the invariant depends on. -/
def Deployment.core (s : Deployment) : Deployment := { s with world := { World.empty with workspace := s.world.workspace } }

section

variable {s t : Deployment} {uuid : String} {workspace after : CachedWorkspace}

theorem sound_start (world : World) (live : List String) : Sound (.start world live) where
  watching h := by cases h
  known h := by cases h
  noted h := by cases h
  listed h := by cases h

theorem fields_of_core (h : t.core = s.core) : t.world.workspace = s.world.workspace ∧ t.affinity = s.affinity ∧
    t.live = s.live ∧ t.gone = s.gone ∧ t.watches = s.watches := by
  have hworkspace := congrArg (fun s => s.world.workspace) h
  have haffinity := congrArg Deployment.affinity h
  have hlive := congrArg Deployment.live h
  have hgone := congrArg Deployment.gone h
  have hwatches := congrArg Deployment.watches h
  exact ⟨hworkspace, haffinity, hlive, hgone, hwatches⟩

theorem Sound.congr (h : Sound s) (hcore : t.core = s.core) : Sound t := by
  obtain ⟨hworkspace, haffinity, hlive, hgone, hwatches⟩ := fields_of_core hcore
  constructor
  · rw [haffinity, hlive, hwatches]
    exact h.watching
  · rw [haffinity, hlive, hgone]
    exact h.known
  · rw [hworkspace, haffinity]
    exact h.noted
  · rw [hworkspace, haffinity, hlive]
    exact h.listed

theorem Attached.congr (h : Attached s uuid) (hcore : t.core = s.core) : Attached t uuid := by
  obtain ⟨hworkspace, haffinity, hlive, -, hwatches⟩ := fields_of_core hcore
  unfold Attached
  rw [hworkspace, haffinity, hlive, hwatches]
  exact h

theorem Sound.attached (h : Sound s) (hcached : s.world.workspace uuid = some workspace)
    (haffinity : ∃ envId, s.affinity uuid = some envId ∧ envId ∈ s.live) : Attached s uuid := by
  obtain ⟨envId, haffinity, hlive⟩ := haffinity
  cases h.noted hcached haffinity
  exact ⟨workspace, hcached, haffinity, hlive, h.watching haffinity hlive⟩

/-- The record has no new directories. -/
structure Trims (workspace after : CachedWorkspace) : Prop where
  fs : after.fs = workspace.fs
  dirs : after.dirs.entries ≠ [] → workspace.dirs.entries ≠ []

theorem Sound.setWorkspace (h : Sound s) (hcached : s.world.workspace uuid = some workspace)
    (hfs : after.fs = workspace.fs)
    (hdirs : after.dirs.entries ≠ [] → ∃ envId, s.affinity uuid = some envId ∧ envId ∈ s.live) :
    Sound (exec (.setWorkspace uuid after) s).2 where
  watching := h.watching
  known := h.known
  noted := by
    intro other record envId hrecord haffinity
    simp only [exec, Deployment.note, Cache.exec, update_apply] at hrecord
    split_ifs at hrecord with hother
    · cases hrecord
      rw [hother] at haffinity
      rw [hfs]
      exact h.noted hcached haffinity
    · exact h.noted hrecord haffinity
  listed := by
    intro other record hrecord hlisted
    simp only [exec, Deployment.note, Cache.exec, update_apply] at hrecord
    split_ifs at hrecord with hother
    · cases hrecord
      rw [hother]
      exact hdirs hlisted
    · exact h.listed hrecord hlisted

theorem Sound.trim (h : Sound s) (hcached : s.world.workspace uuid = some workspace) (htrims : Trims workspace after) :
    Sound (exec (.setWorkspace uuid after) s).2 :=
  h.setWorkspace hcached htrims.fs fun hlisted => h.listed hcached (htrims.dirs hlisted)

theorem Sound.claim (h : Sound s) (uuid : String) (hlive : after.fs ∈ s.live) :
    Sound (exec (.setWorkspace uuid after) (exec (.fetch (.affine uuid after.fs) true) s).2).2 ∧
      Attached (exec (.setWorkspace uuid after) (exec (.fetch (.affine uuid after.fs) true) s).2).2 uuid := by
  set claimed := (exec (.setWorkspace uuid after) (exec (.fetch (.affine uuid after.fs) true) s).2).2 with hclaimed
  have hworkspace (other : String) : claimed.world.workspace other =
      if other = uuid then some after else s.world.workspace other := by
    simp [hclaimed, exec, Deployment.note, Deployment.claim, Cache.exec, update_apply]
  have haffinity (other : String) : claimed.affinity other = if other = uuid then some after.fs else s.affinity other := by
    simp [hclaimed, exec, Deployment.note, Deployment.claim, update_apply]
  have hwatches (envId other : String) : claimed.watches envId other =
      if envId = after.fs ∧ other = uuid then true else s.watches envId other := by
    by_cases henv : envId = after.fs
    · subst henv
      simp [hclaimed, exec, Deployment.note, Deployment.claim, update_apply]
    · simp [hclaimed, exec, Deployment.note, Deployment.claim, henv]
  refine ⟨⟨?_, ?_, ?_, ?_⟩, ⟨after, ?_, ?_, hlive, ?_⟩⟩
  · intro other envId haff hrunning
    rw [haffinity] at haff
    rw [hwatches]
    split_ifs at haff with hother
    · rw [if_pos ⟨(Option.some.inj haff).symm, hother⟩]
    · rw [if_neg fun hboth => hother hboth.2]
      exact h.watching haff hrunning
  · intro other envId haff
    rw [haffinity] at haff
    split_ifs at haff
    · cases haff
      exact .inl hlive
    · exact h.known haff
  · intro other record envId hrecord haff
    rw [hworkspace] at hrecord
    rw [haffinity] at haff
    split_ifs at hrecord haff
    · cases hrecord
      cases haff
      rfl
    · exact h.noted hrecord haff
  · intro other record hrecord hlisted
    rw [hworkspace] at hrecord
    rw [haffinity]
    split_ifs at hrecord ⊢
    · exact ⟨after.fs, rfl, hlive⟩
    · exact h.listed hrecord hlisted
  · rw [hworkspace, if_pos rfl]
  · rw [haffinity, if_pos rfl]
  · rw [hwatches, if_pos ⟨rfl, rfl⟩]

end

/-! ### The handlers -/

def Quiet : Cmd → Prop
  | .setWorkspace .. | .delWorkspace _ | .fetch (.affine ..) _ => False
  | _ => True

theorem core_of_quiet {cmd : Cmd} (h : Quiet cmd) (s : Deployment) : (exec cmd s).2.core = s.core := by
  cases cmd with
  | setWorkspace | delWorkspace => cases h
  | fetch request ok =>
    cases request with
    | affine => cases h
    | _ => rfl
  | acquire | release =>
    simp only [exec, Deployment.note, Deployment.core, Cache.exec]
    split <;> rfl
  | _ => rfl

variable (uid sessionId : String)

section

variable {live : List String} {α : Type} {uuid : String} {workspace : CachedWorkspace}

/-- Sound, with these instances. -/
def Ready (live : List String) (s : Deployment) : Prop := Sound s ∧ s.live = live

theorem Ready.congr {s t : Deployment} (h : Ready live s) (hcore : t.core = s.core) : Ready live t :=
  ⟨h.1.congr hcore, (fields_of_core hcore).2.2.1.trans h.2⟩

theorem Ready.trim {s : Deployment} {after : CachedWorkspace} (h : Ready live s)
    (hcached : s.world.workspace uuid = some workspace) (htrims : Trims workspace after) :
    Ready live (exec (.setWorkspace uuid after) s).2 :=
  ⟨h.1.trim hcached htrims, h.2⟩

theorem triple_quiet {inv : Deployment → Prop} (hinv : ∀ {s t : Deployment}, t.core = s.core → inv s → inv t) {p : Io α}
    (hp : p.Only Quiet) : Triple exec inv p fun _ => inv :=
  hp.triple fun _ s hquiet hs => hinv (core_of_quiet hquiet s) hs

theorem ready_quiet {p : Io α} (hp : p.Only Quiet) : Triple exec (Ready live) p fun _ => Ready live :=
  triple_quiet (fun hcore h => h.congr hcore) hp

theorem triple_of_read {inv : Deployment → Prop} {post : α → Deployment → Prop} {f : Option CachedWorkspace → Io α}
    (hnone : Triple exec (fun s => inv s ∧ s.world.workspace uuid = none) (f none) post) (hsome : ∀ workspace,
      Triple exec (fun s => inv s ∧ s.world.workspace uuid = some workspace) (f (some workspace)) post) :
    Triple exec inv (ask (.getWorkspace uuid) >>= f) post := by
  intro s hs
  show post (run exec (f (s.world.workspace uuid)) s).1 (run exec (f (s.world.workspace uuid)) s).2
  cases hcached : s.world.workspace uuid with
  | none => exact hnone s ⟨hs, hcached⟩
  | some workspace => exact hsome workspace s ⟨hs, hcached⟩

/-- Ready, with this record. -/
def Holding (live : List String) (uuid : String) (workspace : CachedWorkspace) (s : Deployment) : Prop :=
  Ready live s ∧ s.world.workspace uuid = some workspace

theorem holding_quiet {p : Io α} (hp : p.Only Quiet) :
    Triple exec (Holding live uuid workspace) p fun _ => Holding live uuid workspace :=
  triple_quiet (fun hcore h => ⟨h.1.congr hcore, (congrFun (fields_of_core hcore).1 uuid).trans h.2⟩) hp

theorem ready_of_read {f : Option CachedWorkspace → Io Unit} (hnone : (f none).Only Quiet)
    (hsome : ∀ workspace, Triple exec (Holding live uuid workspace) (f (some workspace)) fun _ => Ready live) :
    Triple exec (Ready live) (ask (.getWorkspace uuid) >>= f) fun _ => Ready live :=
  triple_of_read (fun s hs => ready_quiet hnone s hs.1) hsome

theorem holding_write {after : CachedWorkspace} (htrims : Trims workspace after) :
    Triple exec (Holding live uuid workspace) (ask (.setWorkspace uuid after)) fun _ => Ready live :=
  .perform fun _ hs => hs.1.trim hs.2 htrims

theorem quiet_unwatch (path : String) (workspace after : CachedWorkspace) :
    (unwatch uuid path workspace after).Only Quiet :=
  .ite (.single trivial) trivial

theorem trims_unwatching (workspace : CachedWorkspace) (uid path : String) :
    Trims workspace (unwatching workspace uid path) := by
  unfold unwatching
  cases hpath : workspace.dirs.get? path with
  | none => exact ⟨rfl, id⟩
  | some watchers =>
    have hlisted : workspace.dirs.entries ≠ [] := by
      intro hnil
      simp [Dict.get?, hnil] at hpath
    simp only
    split
    · exact ⟨rfl, fun _ => hlisted⟩
    · exact ⟨rfl, id⟩

theorem ready_closeDir (uid path : String) :
    Triple exec (Ready live) (closeDir uid uuid path) fun _ => Ready live := by
  refine ready_of_read trivial fun workspace => ?_
  exact .bind (holding_quiet (quiet_unwatch path _ _)) fun _ => holding_write (trims_unwatching workspace uid path)

/-- Events get to a live instance, if there is a record. -/
def Served (uuid : String) (s : Deployment) : Prop :=
  Sound s ∧ ((s.world.workspace uuid).isSome → ∃ envId, s.affinity uuid = some envId ∧ envId ∈ s.live)

theorem Served.congr {s t : Deployment} (hcore : t.core = s.core) (h : Served uuid s) : Served uuid t := by
  obtain ⟨hworkspace, haffinity, hlive, -, -⟩ := fields_of_core hcore
  refine ⟨h.1.congr hcore, ?_⟩
  rw [hworkspace, haffinity, hlive]
  exact h.2

theorem served_openDir (uid path : String) :
    Triple exec (Served uuid) (openDir uid uuid path true) fun _ => Sound := by
  refine .bind (triple_quiet Served.congr (.single trivial)) fun _ => ?_
  refine .bind (triple_quiet Served.congr (.single trivial)) fun ok => ?_
  refine .ite (fun _ => triple_of_read (fun _ hs => hs.1.1) fun workspace => ?_) fun _ _ hs => hs.1
  refine .bind (triple_quiet (fun hcore hs => ?_) (quiet_unwatch path _ _)) fun _ => .perform fun s hs => ?_
  · exact ⟨hs.1.congr hcore, (congrFun (fields_of_core hcore).1 uuid).trans hs.2⟩
  · obtain ⟨⟨hsound, hserved⟩, hcached⟩ := hs
    exact hsound.setWorkspace hcached rfl fun _ => hserved (Option.isSome_of_eq_some hcached)

theorem ready_handleSSHClose (instanceId uid sessionId : String) :
    Triple exec (Ready live) (SSHProxyService.handleSSHClose instanceId uid sessionId uuid) fun _ => Ready live :=
  .bind (ready_quiet (.single trivial)) fun _ => ready_of_read trivial fun _ => holding_write ⟨rfl, id⟩

theorem ready_markIdle : Triple exec (Ready live) (markIdle wsActivity uid sessionId uuid) fun _ => Ready live := by
  refine ready_of_read trivial fun workspace => .ite (fun _ => ?_) fun _ => ?_
  · exact .bind (holding_write ⟨rfl, id⟩) fun _ => ready_quiet (.single trivial)
  · exact fun _ hs => hs.1

theorem ready_closeAll (instanceId uid sessionId : String) :
    Triple exec (Ready live) (closeAll wsActivity instanceId uid sessionId uuid) fun _ => Ready live := by
  refine ready_of_read trivial fun workspace => ?_
  have hssh : Triple exec (Holding live uuid workspace)
      (SSHProxyService.handleSSHClose instanceId uid sessionId uuid) fun _ => Ready live :=
    fun s hs => ready_handleSSHClose instanceId uid sessionId s hs.1
  exact hssh.bind fun _ => .bind (.each _ fun path _ => ready_closeDir uid path) fun _ =>
    ready_markIdle wsActivity uid sessionId

theorem ready_handleEnvClose (instanceId uid uuid : String) (served : Bool) :
    Triple exec (Ready live) (handleEnvClose wsActivity instanceId uid uuid served) fun _ => Ready live := by
  refine .bind (ready_quiet (.single trivial)) fun isMember => .ite (fun _ _ hs => hs) fun _ => ?_
  refine .bind (ready_quiet (.single trivial)) fun lock => ?_
  cases lock with
  | none => exact fun _ hs => hs
  | some token =>
    refine .bind (.bind (ready_quiet (.single trivial)) fun cached => ?_) fun _ =>
      ready_quiet (.single trivial)
    cases cached with
    | none => exact fun _ hs => hs
    | some presence =>
      simp only
      split
      · exact fun _ hs => hs
      · refine .bind (ready_quiet (.single trivial)) fun _ => ?_
        refine .bind (ready_quiet (.single trivial)) fun _ => ?_
        exact ready_closeAll wsActivity instanceId uid _

/-! ### `handleEnvReady` -/

theorem holding_closeDirs (uid : String) (paths : List String) (current : CachedWorkspace) :
    Triple exec (Holding live uuid workspace) (closeDirs uid uuid paths current) fun after s =>
      Holding live uuid workspace s ∧ after.fs = current.fs ∧ (paths = [] → after = current) := by
  induction paths generalizing current with
  | nil => exact fun _ hs => ⟨hs, rfl, fun _ => rfl⟩
  | cons path paths ih =>
    refine .bind (holding_quiet (quiet_unwatch path _ _)) fun _ s hs => ?_
    obtain ⟨hholding, hfs, -⟩ := ih _ s hs
    exact ⟨hholding, hfs, fun hnil => by cases hnil⟩

theorem ready_invalidatePreviousSessions (uid : String) :
    Triple exec (Ready live) (invalidatePreviousSessions uid uuid) fun _ => Ready live := by
  refine .bind (ready_quiet (.single trivial)) fun cached => ?_
  cases cached with
  | none => exact fun _ hs => hs
  | some presence =>
    refine .bind (ready_quiet (.each _ fun _ _ => .single trivial)) fun _ => ?_
    refine .bind (ready_quiet (.single trivial)) fun _ => ready_of_read trivial fun workspace => ?_
    refine .bind (holding_closeDirs uid (watchedBy workspace uid) workspace) fun after s hs => ?_
    obtain ⟨hholding, hfs, hsame⟩ := hs
    refine holding_write ⟨hfs, fun hlisted hnil => hlisted ?_⟩ s hholding
    rw [hsame (by simp [watchedBy, hnil])]
    exact hnil

theorem attached_claim (after : CachedWorkspace) (hlive : after.fs ∈ live) :
    Triple exec (Ready live) (do
      let ok : Bool ← ask (.fetch (.affine uuid after.fs) true)
      if !ok then return false
      ask (.setWorkspace uuid after)
      return true) fun _ s => Ready live s ∧ Attached s uuid := by
  rintro s ⟨hsound, rfl⟩
  obtain ⟨hclaimed, hattached⟩ := hsound.claim uuid hlive
  exact ⟨⟨hclaimed, rfl⟩, hattached⟩

variable {instanceId : String}

theorem attached_claimWorkspace (hlive : instanceId ∈ live) (uid : String) :
    Triple exec (Ready live) (claimWorkspace instanceId uid uuid true) fun _ s => Ready live s ∧ Attached s uuid := by
  refine .bind (ready_invalidatePreviousSessions uid) fun _ => triple_of_read ?_ fun workspace => ?_
  · exact fun s hs => attached_claim ⟨.active, instanceId, .empty, .empty, .empty⟩ hlive s hs.1
  · simp only [readied]
    by_cases hlisted : workspace.dirs.entries = []
    · rw [if_pos hlisted]
      exact fun s hs => attached_claim { workspace with fs := instanceId } hlive s hs.1
    · rw [if_neg hlisted]
      exact fun s hs => ⟨hs.1, hs.1.1.attached hs.2 (hs.1.1.listed hs.2 hlisted)⟩

theorem attached_quiet {p : Io α} (hp : p.Only Quiet) :
    Triple exec (fun s => Ready live s ∧ Attached s uuid) p fun _ s => Ready live s ∧ Attached s uuid :=
  triple_quiet (fun hcore h => ⟨h.1.congr hcore, h.2.congr hcore⟩) hp

theorem quiet_bindSession : (bindSession uid sessionId uuid).Only Quiet := by
  refine ⟨trivial, fun cached => ?_⟩
  cases cached with
  | none => trivial
  | some presence => exact .ite trivial (.single trivial)

theorem attached_locked (hlive : instanceId ∈ live) (uid sessionId : String) (token : Nat) :
    Triple exec (Ready live) (do
      let claimed ← claimWorkspace instanceId uid uuid true
      ask (.release (workspaceLock uuid) token)
      if !claimed then return ()
      let bound ← bindSession uid sessionId uuid
      if !bound then return ()
      ask (.setTimer (presenceWorkspace uid sessionId uuid) 1 20000)) fun _ s => Ready live s ∧ Attached s uuid := by
  refine .bind (attached_claimWorkspace hlive uid) fun claimed => attached_quiet ⟨trivial, fun _ => .ite trivial ?_⟩
  exact .bind (quiet_bindSession uid sessionId) fun bound => .ite trivial (.single trivial)

theorem attached_handleEnvReady (hlive : instanceId ∈ live) (uid sessionId uuid : String) {s : Deployment}
    (hs : Ready live s) : Ready live (run exec (handleEnvReady instanceId uid sessionId uuid true true) s).2 ∧
      ((∃ call ∈ calls exec (handleEnvReady instanceId uid sessionId uuid true true) s,
          call.2 = .setTimer (presenceWorkspace uid sessionId uuid) 1 20000) →
        Attached (run exec (handleEnvReady instanceId uid sessionId uuid true true) s).2 uuid) := by
  have hfetch : Quiet (.fetch (.ready uuid) true) := trivial
  have hacquire : Quiet (.acquire (workspaceLock uuid) (10 * 1000)) := trivial
  have hlocked := (hs.congr (core_of_quiet hfetch s)).congr (core_of_quiet hacquire _)
  have hreachable : (exec (.fetch (.ready uuid) true) s).1 = true := rfl
  simp only [handleEnvReady, ask, perform_bind, run_await, calls_await, hreachable, Bool.not_true,
    Bool.false_eq_true, if_false]
  cases (exec (.acquire (workspaceLock uuid) (10 * 1000)) (exec (.fetch (.ready uuid) true) s).2).1 with
  | none => exact ⟨hlocked, by simp⟩
  | some token => exact And.imp_right (fun h _ => h) (attached_locked hlive uid sessionId token _ hlocked)

end

section

variable {wsActivity : Nat} {s : Deployment}

theorem sound_replacePod (h : Sound s) {uuid : String} (hcareful : Careful s (.replacePod uuid)) :
    Sound (s.replacePod uuid) where
  watching := by
    intro other envId haffinity hlive
    simp only [Deployment.replacePod, update_apply] at haffinity
    split_ifs at haffinity
    exact h.watching haffinity hlive
  known := by
    intro other envId haffinity
    simp only [Deployment.replacePod, update_apply] at haffinity
    split_ifs at haffinity
    exact h.known haffinity
  noted := by
    intro other workspace envId hcached haffinity
    simp only [Deployment.replacePod, update_apply] at haffinity
    split_ifs at haffinity
    exact h.noted hcached haffinity
  listed := by
    intro other workspace hcached hlisted
    have hother : other ≠ uuid := by
      rintro rfl
      exact hlisted (hcareful workspace hcached)
    simpa [Deployment.replacePod, hother] using h.listed hcached hlisted

theorem sound_restart (h : Sound s) {instanceId newId : String} (hcareful : Careful s (.restart instanceId newId)) :
    Sound (s.restart instanceId newId) := by
  unfold Deployment.restart
  split_ifs with hids
  · obtain ⟨hold, hunused, hnever⟩ := hids
    -- no daemon was ever told the new id
    have hfresh {uuid envId : String} (haffinity : s.affinity uuid = some envId) : envId ≠ newId := by
      rintro rfl
      exact (h.known haffinity).elim hunused hnever
    refine ⟨?_, ?_, h.noted, ?_⟩
    · intro uuid envId haffinity hlive
      have hnew := hfresh haffinity
      simp only [List.mem_cons, hnew, List.mem_filter, decide_eq_true_eq, false_or] at hlive
      simpa [hnew, hlive.2] using h.watching haffinity hlive.1
    · intro uuid envId haffinity
      by_cases hgone : envId = instanceId
      · exact .inr (hgone ▸ List.mem_cons_self)
      · refine (h.known haffinity).imp (fun hlive => ?_) (List.mem_cons_of_mem _)
        simp [hlive, hgone]
    · intro uuid workspace hcached hlisted
      obtain ⟨envId, haffinity, hlive⟩ := h.listed hcached hlisted
      refine ⟨envId, haffinity, ?_⟩
      have hother : envId ≠ instanceId := by
        rintro rfl
        exact hlisted (hcareful uuid workspace hcached (h.noted hcached haffinity))
      simp [hlive, hother]
  · exact h

theorem sound_step (h : Sound s) {label : Label} (hcareful : Careful s label) : Sound (step wsActivity s label) := by
  have hready : Ready s.live s := ⟨h, rfl⟩
  cases label with
  | envReady instanceId uid sessionId uuid =>
    by_cases hlive : instanceId ∈ s.live
    · simpa [step, program, hlive, Deployment.pass] using (attached_handleEnvReady hlive uid sessionId uuid hready).1.1
    · simpa [step, program, hlive, Deployment.pass] using h
  | envClose instanceId uid uuid =>
    by_cases hlive : instanceId ∈ s.live
    · simpa [step, program, hlive, Deployment.pass] using
        (ready_handleEnvClose wsActivity instanceId uid uuid true s hready).1
    · simpa [step, program, hlive, Deployment.pass] using h
  | openDir uid uuid path => exact served_openDir uid path s ⟨h, hcareful⟩
  | closeDir uid uuid path => exact (ready_closeDir uid path s hready).1
  | replacePod uuid => exact sound_replacePod h hcareful
  | restart instanceId newId => exact sound_restart h hcareful
  | presence uid presence => exact h.congr rfl
  | change change =>
    refine h.congr ?_
    simp [step, program, Deployment.pass, Deployment.core]

theorem attachedWhenReady_of_sound (h : Sound s) (label : Label) : AttachedWhenReady wsActivity s label := by
  cases label with
  | envReady instanceId uid sessionId uuid =>
    intro hsucceeds
    by_cases hlive : instanceId ∈ s.live
    · have hattached := (attached_handleEnvReady hlive uid sessionId uuid ⟨h, rfl⟩).2
      simp only [Succeeds, step, program, hlive, if_true, Deployment.pass] at hsucceeds ⊢
      exact hattached hsucceeds
    · simp [Succeeds, program, hlive] at hsucceeds
  | _ => trivial

end

/-- In every careful run, each `handleEnvReady` that comes to its end leaves the workspace attached. -/
theorem attached_of_careful {wsActivity : Nat} {world : World} {live : List String} {labels : List Label}
    (hcareful : Along (step wsActivity) Careful (.start world live) labels) :
    Along (step wsActivity) (AttachedWhenReady wsActivity) (.start world live) labels := by
  refine along_of_invariant (C := Careful) ?_ ?_ (sound_start world live) hcareful
  · exact fun s label hs hlabel => sound_step hs hlabel
  · exact fun s label hs _ => attachedWhenReady_of_sound hs label

/-! ### A workspace of two users -/

def signedIn : Label := .presence uid (some (Dict.empty.set sessionId ⟨.active, "c", "g1", none⟩))

def w1Start : Deployment := .start .empty ["e0"]

/-- Two users of one workspace, one with a directory open. -/
def joined : List Label :=
  [.restart "e0" "e1", signedIn "alice" "s1", signedIn "bob" "s2", .envReady "e1" "alice" "s1" "w1",
    .openDir "alice" "w1" "/workspace/", .envReady "e1" "bob" "s2" "w1"]

/-- Alice closes what is open, the pod is replaced, and bob opens the workspace again. -/
def renewed : List Label :=
  [.closeDir "alice" "w1" "/workspace/", .replacePod "w1", .envReady "e1" "bob" "s2" "w1"]

theorem attached_renewed :
    Succeeds 0 (run (step 0) w1Start (joined ++ renewed.dropLast)) "e1" "bob" "s2" "w1" ∧
    Along (step 0) (AttachedWhenReady 0) w1Start (joined ++ renewed) := by
  refine ⟨by decide, attached_of_careful ?_⟩
  rw [along_append]
  refine ⟨⟨?_, trivial, trivial, trivial, ?_, trivial, trivial⟩, trivial, ?_, trivial, trivial⟩
  · intro uuid workspace hcached _
    cases hcached
  · exact fun _ => ⟨"e1", rfl, by decide⟩
  · intro workspace hcached
    cases hcached
    rfl

def replaced : List Label := [.replacePod "w1", .envReady "e1" "bob" "s2" "w1"]

def restarted : List Label := [.restart "e1" "e2", .envReady "e2" "bob" "s2" "w1"]

def reopened : List Label :=
  [.closeDir "alice" "w1" "/workspace/", .replacePod "w1", .openDir "alice" "w1" "/workspace/",
    .envReady "e1" "bob" "s2" "w1"]

/-- No one is told of the new daemon, or the daemon sends its events to an instance that is gone. -/
theorem unattached_runs :
    ¬Along (step 0) (AttachedWhenReady 0) w1Start (joined ++ replaced) ∧
    ¬Along (step 0) (AttachedWhenReady 0) w1Start (joined ++ restarted) ∧
    ¬Along (step 0) (AttachedWhenReady 0) w1Start (joined ++ reopened) := by
  simp only [along_append]
  refine ⟨fun h => ?_, fun h => ?_, fun h => ?_⟩
  · obtain ⟨-, -, hattached, -⟩ := h
    obtain ⟨workspace, -, haffinity, -⟩ := hattached (by decide)
    cases haffinity
  · obtain ⟨-, -, hattached, -⟩ := h
    obtain ⟨workspace, hcached, -, hlive, -⟩ := hattached (by decide)
    cases hcached
    exact absurd hlive (by decide)
  · obtain ⟨-, -, -, -, hattached, -⟩ := h
    obtain ⟨workspace, -, haffinity, -⟩ := hattached (by decide)
    cases haffinity

end HideServer.Env.Affinity
