import HideServer.Async.Pool
import HideServer.Cache.Conduct

/-!
# Nobody is listed twice

The handlers that write the record of a workspace, interleaved at every command: no user is ever
listed twice at a path.
-/

namespace HideServer.Cache.Tidy

open Async Gateway Env

variable (t : Timeouts) (wsActivity : Nat)

inductive Op where
  | connect (uid sessionId socketId gatewayId : String)
  | disconnect (uid sessionId : String)
  | ping (uid sessionId : String) (uuid : Option String) (served : Bool)
  | expiry (key : String) (disposed : Bool)
  | message (uid sessionId uuid : String) (sticky : Option Sticky) (served healthy : Bool)
  | envReady (instanceId uid sessionId uuid : String) (ready affine : Bool)
  | envClose (instanceId uid uuid : String) (served : Bool)
  | openDir (uid uuid path : String) (listed : Bool)
  | closeDir (uid uuid path : String)
  /-- `SyncService.updateCache` -/
  | doc (instanceId uuid : String) (ino : Nat) (add : Bool)
  /-- `SSHProxyService.updateConnCache` -/
  | ssh (instanceId sessionId uuid : String) (add : Bool)
  deriving DecidableEq, Repr

def program (t : Timeouts) (wsActivity : Nat) : Op → Io Unit
  | .connect uid sessionId socketId gatewayId => handleConnection t uid sessionId socketId gatewayId
  | .disconnect uid sessionId => handleDisconnect t uid sessionId
  | .ping uid sessionId uuid served => handlePing t uid sessionId uuid served
  | .expiry key disposed => handleCacheExpiry t key disposed
  | .message uid sessionId uuid sticky served healthy => handleEnvMessage uid sessionId uuid sticky served healthy
  | .envReady instanceId uid sessionId uuid ready affine => handleEnvReady instanceId uid sessionId uuid ready affine
  | .envClose instanceId uid uuid served => handleEnvClose wsActivity instanceId uid uuid served
  | .openDir uid uuid path listed => FSService.openDir uid uuid path listed
  | .closeDir uid uuid path => FSService.closeDir uid uuid path
  | .doc instanceId uuid ino add => SyncService.updateCache instanceId uuid ino add
  | .ssh instanceId sessionId uuid add => SSHProxyService.updateConnCache instanceId sessionId uuid add

def outside (w after : World) : World := { after with workspace := w.workspace }

abbrev Service := Pool World Op Cmd Cmd.Answer Unit

def step (t : Timeouts) (wsActivity : Nat) : Service → Action Op World → Service :=
  Pool.step (program t wsActivity) exec outside

def start (w : World) : Service := ⟨{ w with workspace := fun _ => none }, []⟩

/-- Nobody is listed twice at a path. -/
def Distinct (workspace : CachedWorkspace) : Prop :=
  ∀ path uids, workspace.dirs.get? path = some uids → uids.Nodup

section

variable {workspace : CachedWorkspace}

theorem Distinct.set (h : Distinct workspace) {path : String} {uids : List String} (huids : uids.Nodup) :
    Distinct { workspace with dirs := workspace.dirs.set path uids } := by
  intro other found hfound
  simp only [Dict.get?_set] at hfound
  split_ifs at hfound
  · cases hfound
    exact huids
  · exact h other found hfound

theorem Distinct.watching (h : Distinct workspace) (uid path : String) : Distinct (watching workspace uid path) :=
  h.set (Dict.nodup_eraseDups _)

theorem Distinct.setWatchers (h : Distinct workspace) (path : String) {watchers : List String} (hwatchers : watchers.Nodup) :
    Distinct (setWatchers workspace path watchers) := by
  unfold Env.setWatchers
  split_ifs
  · intro other found hfound
    simp only [Dict.get?_erase] at hfound
    split_ifs at hfound
    exact h other found hfound
  · exact h.set hwatchers

theorem nodup_splice {watchers : List String} (h : watchers.Nodup) (uid : String) : (splice watchers uid).Nodup := by
  unfold splice
  split_ifs
  · exact h.erase uid
  · exact h.sublist (List.dropLast_sublist watchers)

theorem Distinct.unwatching (h : Distinct workspace) (uid path : String) : Distinct (unwatching workspace uid path) := by
  unfold Env.unwatching
  cases hpath : workspace.dirs.get? path with
  | none => exact h
  | some watchers =>
    simp only
    split_ifs
    · exact h.setWatchers path (nodup_splice (h path watchers hpath) uid)
    · exact h

end

/-- A command that writes such records only. -/
def Proper : Cmd → Prop
  | .setWorkspace _ workspace => Distinct workspace
  | _ => True

def Reads : (cmd : Cmd) → cmd.Answer → Prop
  | .getWorkspace _, cached => ∀ workspace ∈ cached, Distinct workspace
  | _, _ => True

/-- A handler that writes such records if it reads such. -/
abbrev Mild {α : Type} (p : Io α) : Prop := p.Safe Proper Reads fun _ => True

theorem mild : Rules Proper Reads (fun _ => Distinct) fun _ => True where
  minor {cmd} h := by cases cmd <;> trivial
  found h := h _ rfl
  write h := h
  same h hdirs := by
    rw [Distinct, hdirs]
    exact h
  watching uid path h := h.watching uid path
  splice {_ workspace} uid path h := by
    refine h.setWatchers path (nodup_splice ?_ uid)
    cases hpath : workspace.dirs.get? path with
    | none => exact List.nodup_nil
    | some watchers => exact h path watchers hpath
  key _ _ _ _ _ _ := trivial
  getPresence _ := trivial
  within _ _ _ _ _ _ := trivial
  lift _ _ _ := trivial

section

variable {workspace : CachedWorkspace} (uid sessionId : String)

theorem mild_handleLoss (h : Distinct workspace) (sessionId wsUuid : String) (sticky : Sticky) :
    Mild (handleLoss workspace sessionId wsUuid sticky) := by
  cases sticky with
  | doc | ssh => exact .perform_bind h fun _ _ => .single trivial
  | run => exact .single trivial

theorem mild_handleEnvMessage (uuid : String) (sticky : Option Sticky) (served healthy : Bool) :
    Mild (handleEnvMessage uid sessionId uuid sticky served healthy) := by
  refine mild.read (.single trivial) fun workspace hworkspace => ?_
  refine .bind (mild.checkMembership uid uuid served) fun isMember _ => ?_
  split
  · split
    · exact .single trivial
    · refine .perform_bind trivial fun answered _ => .ite (fun _ => .single trivial) fun _ => ?_
      exact mild_handleLoss hworkspace sessionId uuid _
  · exact .single trivial
  · trivial

theorem mild_program (op : Op) : Mild (program t wsActivity op) := by
  cases op with
  | connect => exact mild.handleConnection t (fun _ _ => trivial) (fun _ _ => trivial) _ _
  | disconnect => exact mild.handleDisconnect t (fun _ _ => trivial) fun _ _ => trivial
  | ping => exact mild.handlePing t (fun _ _ => trivial) (fun _ _ => trivial) _ _
  | expiry =>
    refine mild.handleCacheExpiry t (fun _ _ => ?_) fun _ _ => ?_
    · exact mild.handleStaleSession t (fun _ _ => trivial) (fun _ _ => trivial) trivial fun _ _ => ⟨trivial, trivial⟩
    · exact mild.handleStaleWorkspace t _ _ fun _ _ => ⟨trivial, trivial, trivial⟩
  | message => exact mild_handleEnvMessage ..
  | envReady =>
    refine mild.handleEnvReady (fun _ _ => trivial) ?_ trivial _ _ _
    rintro path uids ⟨⟩
  | envClose => exact mild.handleEnvClose (fun _ _ => trivial) _ _ _ _
  | openDir => exact mild.openDir ..
  | closeDir uid uuid path => exact mild.updateCache uid uuid path false
  | doc => exact mild.read trivial fun _ h => .single h
  | ssh => exact mild.updateConnCache ..

end

/-- All records are such. -/
def Tidied (w : World) : Prop := ∀ uuid workspace, w.workspace uuid = some workspace → Distinct workspace

theorem tidied_exec {cmd : Cmd} (hcmd : Proper cmd) {w : World} (h : Tidied w) : Tidied (exec cmd w).2 := by
  cases cmd with
  | setWorkspace uuid workspace =>
    intro other found hfound
    simp only [exec, Function.update_apply] at hfound
    split_ifs at hfound
    · cases hfound
      exact hcmd
    · exact h other found hfound
  | delWorkspace uuid =>
    intro other found hfound
    simp only [exec, Function.update_apply] at hfound
    split_ifs at hfound
    exact h other found hfound
  | acquire | release =>
    simp only [exec]
    split <;> exact h
  | _ => exact h

theorem reads_of_tidied {w : World} (h : Tidied w) (cmd : Cmd) : Reads cmd (exec cmd w).1 := by
  cases cmd with
  | getWorkspace uuid => exact h uuid
  | _ => trivial

def Orderly (pool : Service) : Prop := pool.Guarded Proper Reads ∧ Tidied pool.shared

theorem orderly_start (w : World) : Orderly (start w) := by
  refine ⟨by simp [start, Pool.Guarded], ?_⟩
  rintro uuid workspace ⟨⟩

theorem orderly_step {pool : Service} (h : Orderly pool) (action : Action Op World) :
    Orderly (step t wsActivity pool action) := by
  refine ⟨Pool.guarded_step h.1 (mild_program t wsActivity) (reads_of_tidied h.2) action, ?_⟩
  unfold step
  rcases Pool.step_shared_cases (program t wsActivity) exec outside pool action with
    hshared | ⟨i, op, cmd, -, hnext, hshared⟩ | ⟨after, -, hshared⟩
  · rw [hshared]
    exact h.2
  · rw [hshared]
    exact tidied_exec (h.1.next hnext) h.2
  · rw [hshared]
    exact h.2

end HideServer.Cache.Tidy
