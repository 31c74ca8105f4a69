import Mathlib.Logic.Function.Basic
import HideServer.Async.Protocol
import HideServer.Data.Dict

/-!
# The volumes of a deleted workspace

A script that never ends mounts the logical volumes it finds, and a job removes those of a deleted
workspace. The loop looks once for the marker of the job, before several further commands. What it takes
for the state of a volume is arbitrary: it looks in the wrong place of the output of `lvs`. Pauses are
steps of the others.
-/

namespace HideServer.Provisioner.Mounter

open Async Async.Prog Function Trace

/-! ### Names -/

/-- The name of a logical volume. -/
def volume (uuid subdir : String) : String := uuid ++ "-" ++ subdir

def volumesOf (uuid : String) : List String := [volume uuid "data", volume uuid "config"]

/-- `${lv%-*}`: without the last dash and what comes after it. -/
def uuidOf (lv : String) : String :=
  if '-' ∈ lv.toList then String.ofList (lv.toList.reverse.dropWhile (· ≠ '-')).tail.reverse else lv

/-- `${lv##*-}`: what comes after the last dash. -/
def subdirOf (lv : String) : String := String.ofList (lv.toList.reverse.takeWhile (· ≠ '-')).reverse

theorem uuidOf_volume {uuid lv : String} (hlv : lv ∈ volumesOf uuid) : uuidOf lv = uuid := by
  simp only [volumesOf, List.mem_cons, List.not_mem_nil, or_false] at hlv
  rcases hlv with rfl | rfl <;> simp [uuidOf, volume]

/-! ### The node -/

/-- The node: volumes, mounts, markers and directories. -/
structure Host where
  /-- There is a file `.delete-<uuid>`. -/
  marked : String → Bool
  volumes : Dict String Bool
  node : String → Bool
  mounted : String → Bool
  inUse : String → Bool
  /-- `lvs -o lv_attr` prints a line that matches `^..a`. -/
  looksActive : String → Bool
  /-- The directories of the workspaces, and what is in them. -/
  dirs : Dict String (List String)

/-- `ok` says whether a command succeeds that can fail for reasons of its own. -/
inductive Cmd where
  | touch (uuid : String) (ok : Bool)
  /-- `umount`, or `umount -l`, which does not mind that the volume is in use. -/
  | umount (lv : String) (lazy : Bool)
  /-- `lvchange -an`. -/
  | deactivate (lv : String)
  | sync (ok : Bool)
  | lvremove (lv : String)
  | removeDir (uuid : String) (ok : Bool)
  | unmark (uuid : String) (ok : Bool)
  | lvs
  | isMarked (lv : String)
  | hasNode (lv : String)
  | isActive (lv : String)
  /-- `lvchange -ay`. -/
  | activate (lv : String)
  | mkdir (lv : String)
  | isMounted (lv : String)
  | mount (lv : String)
  | listDirs
  | rmdir (uuid subdir : String)
  | rmdirEmpty (uuid : String)
  deriving DecidableEq, Repr

abbrev Cmd.Answer : Cmd → Type
  | .lvs | .listDirs => List String
  | .mkdir _ | .rmdir .. | .rmdirEmpty _ => Unit
  | _ => Bool

namespace Host

/-- Nothing keeps the volume from being deactivated. -/
def free (h : Host) (lv : String) : Bool := (h.volumes.get? lv).isSome && !h.mounted lv && !h.inUse lv

def active (h : Host) (lv : String) : Bool := h.volumes.get? lv = some true

end Host

def exec : (cmd : Cmd) → Host → cmd.Answer × Host
  | .touch uuid ok, h => (ok, if ok then { h with marked := update h.marked uuid true } else h)
  | .umount lv lazy, h =>
    if h.mounted lv && (lazy || !h.inUse lv) then (true, { h with mounted := update h.mounted lv false })
    else (false, h)
  | .deactivate lv, h => if h.free lv then (true, { h with volumes := h.volumes.set lv false }) else (false, h)
  | .sync ok, h => (ok, h)
  | .lvremove lv, h => if h.free lv then (true, { h with volumes := h.volumes.erase lv }) else (false, h)
  | .removeDir uuid ok, h =>
    if ok && (volumesOf uuid).all (!h.mounted ·) then (true, { h with dirs := h.dirs.erase uuid }) else (false, h)
  | .unmark uuid ok, h => (ok, if ok then { h with marked := update h.marked uuid false } else h)
  | .lvs, h => (h.volumes.keys, h)
  | .isMarked lv, h => (h.marked (uuidOf lv), h)
  | .hasNode lv, h => (h.node lv, h)
  | .isActive lv, h => (h.looksActive lv, h)
  | .activate lv, h =>
    if (h.volumes.get? lv).isSome then (true, { h with volumes := h.volumes.set lv true }) else (false, h)
  | .mkdir lv, h =>
    let subdirs := (h.dirs.get? (uuidOf lv)).getD []
    ((), { h with dirs := h.dirs.set (uuidOf lv) ((subdirs ++ [subdirOf lv]).eraseDups) })
  | .isMounted lv, h => (h.mounted lv, h)
  | .mount lv, h =>
    if h.active lv && !h.mounted lv then (true, { h with mounted := update h.mounted lv true }) else (false, h)
  | .listDirs, h => (h.dirs.keys, h)
  | .rmdir uuid subdir, h =>
    ((), if h.mounted (volume uuid subdir) then h else { h with dirs := h.dirs.modify uuid (·.filter (· ≠ subdir)) })
  | .rmdirEmpty uuid, h => ((), if h.dirs.get? uuid = some [] then { h with dirs := h.dirs.erase uuid } else h)

abbrev Io := Prog Cmd Cmd.Answer

abbrev ask (cmd : Cmd) : Io cmd.Answer := perform cmd

/-! ### The scripts -/

/-- The commands after which the job gives up if they fail. -/
structure Outcomes where
  touch : Bool
  sync : Bool
  removeDir : Bool
  unmark : Bool
  deriving DecidableEq, Repr

/-- `umount ... || umount -l ... || true` -/
def unmount (lv : String) : Io Unit := do
  let ok : Bool ← ask (.umount lv false)
  if !ok then
    let _ ← ask (.umount lv true)

/-- The script of the cleanup job. -/
def cleanup (uuid : String) (outcomes : Outcomes) : Io Unit := do
  let ok : Bool ← ask (.touch uuid outcomes.touch)
  if !ok then return ()
  unmount (volume uuid "data")
  unmount (volume uuid "config")
  let _ ← ask (.deactivate (volume uuid "data"))
  let _ ← ask (.deactivate (volume uuid "config"))
  let ok : Bool ← ask (.sync outcomes.sync)
  if !ok then return ()
  let _ ← ask (.lvremove (volume uuid "data"))
  let _ ← ask (.lvremove (volume uuid "config"))
  let ok : Bool ← ask (.removeDir uuid outcomes.removeDir)
  if !ok then return ()
  let _ ← ask (.unmark uuid outcomes.unmark)

/-- A volume is mounted unless it is. -/
def attach (lv : String) : Io Unit := do
  ask (.mkdir lv)
  let mounted : Bool ← ask (.isMounted lv)
  if !mounted then
    let _ ← ask (.mount lv)

def mountVolume (lv : String) : Io Unit := do
  let marked : Bool ← ask (.isMarked lv)
  if marked then return ()
  let there : Bool ← ask (.hasNode lv)
  if !there then return ()
  let active : Bool ← ask (.isActive lv)
  if !active then
    let _ ← ask (.activate lv)
  attach lv

/-- A directory without a volume is unmounted and removed. -/
def sweepSubdir (uuid subdir : String) : Io Unit := do
  let there : Bool ← ask (.hasNode (volume uuid subdir))
  if there then return ()
  let mounted : Bool ← ask (.isMounted (volume uuid subdir))
  if mounted then
    let _ ← ask (.umount (volume uuid subdir) true)
  ask (.rmdir uuid subdir)

def sweep (uuid : String) : Io Unit := do
  each ["data", "config"] (sweepSubdir uuid)
  ask (.rmdirEmpty uuid)

def iteration : Io Unit := do
  let lvs : List String ← ask .lvs
  each lvs mountVolume
  let uuids : List String ← ask .listDirs
  each uuids sweep

inductive Op where
  | cleanup (uuid : String) (outcomes : Outcomes)
  | iteration
  deriving DecidableEq, Repr

def program : Op → Io Unit
  | .cleanup uuid outcomes => cleanup uuid outcomes
  | .iteration => iteration

inductive Change where
  | node (lv : String) (present : Bool)
  | use (lv : String) (inUse : Bool)
  | look (lv : String) (active : Bool)
  deriving DecidableEq, Repr

def Host.change (h : Host) : Change → Host
  | .node lv present => { h with node := update h.node lv present }
  | .use lv inUse => { h with inUse := update h.inUse lv inUse }
  | .look lv active => { h with looksActive := update h.looksActive lv active }

abbrev System := Pool Host Op Cmd Cmd.Answer Unit

abbrev step : System → Action Op Change → System := Pool.step program exec Host.change

def System.start (h : Host) : System := ⟨h, []⟩

/-! ### How far a script has come -/

inductive Stage where
  | idle
  /-- An iteration has found no marker for the volume, and has not come to the end of what it does for it. -/
  | past (lv : String)
  /-- A job has set the marker and not taken it away; it has unmounted and deactivated these volumes. -/
  | cleaning (unmounted inactive : List String)
  deriving DecidableEq, Repr

def Stage.ahead : Stage → Option String
  | .past lv => some lv
  | _ => none

def Stage.unmounting : Stage → Bool
  | .cleaning unmounted _ => unmounted ≠ []
  | _ => false

def jobProtocol (uuid : String) : Protocol Cmd Cmd.Answer Stage where
  allowed
    | .idle, .touch marker _ => marker = uuid
    | .cleaning _ _, .umount lv _ => lv ∈ volumesOf uuid
    | .cleaning unmounted _, .deactivate lv => lv ∈ unmounted
    | .cleaning _ _, .sync _ => True
    | .cleaning _ inactive, .lvremove lv => lv ∈ inactive
    | .cleaning _ _, .removeDir dir _ => dir = uuid
    | .cleaning _ _, .unmark marker _ => marker = uuid
    | _, _ => False
  after
    | .idle, .touch _ _, true => .cleaning [] []
    | .cleaning unmounted inactive, .umount lv lazy, ok =>
      if lazy || ok then .cleaning (lv :: unmounted) inactive else .cleaning unmounted inactive
    | .cleaning unmounted inactive, .deactivate lv, _ => .cleaning unmounted (lv :: inactive)
    | .cleaning _ _, .unmark _ _, _ => .idle
    | stage, _, _ => stage

def loopProtocol : Protocol Cmd Cmd.Answer Stage where
  allowed
    | .idle, .lvs | .idle, .isMarked _ | .idle, .listDirs => True
    | .idle, .hasNode _ | .idle, .isMounted _ | .idle, .rmdir .. | .idle, .rmdirEmpty _ => True
    | .idle, .umount _ lazy => lazy = true
    | .past lv, .hasNode other => other = lv
    | .past lv, .isActive other => other = lv
    | .past lv, .activate other => other = lv
    | .past lv, .mkdir other => other = lv
    | .past lv, .isMounted other => other = lv
    | .past lv, .mount other => other = lv
    | _, _ => False
  after
    | .idle, .isMarked lv, false => .past lv
    | .past _, .hasNode _, false => .idle
    | .past _, .isMounted _, true => .idle
    | .past _, .mount _, _ => .idle
    | stage, _, _ => stage

def protocol : Op → Protocol Cmd Cmd.Answer Stage
  | .cleanup uuid _ => jobProtocol uuid
  | .iteration => loopProtocol

abbrev stage (task : Task Op Cmd Cmd.Answer Unit) : Stage := Pool.stage protocol .idle task

theorem unmount_follows {uuid lv : String} (hlv : lv ∈ volumesOf uuid) (unmounted inactive : List String) :
    (unmount lv).Follows (jobProtocol uuid) (fun _ stage => stage = .cleaning (lv :: unmounted) inactive)
      (.cleaning unmounted inactive) := by
  refine .perform_bind hlv fun ok => ?_
  cases ok with
  | true => exact rfl
  | false => exact .perform_bind hlv fun _ => rfl

theorem cleanup_follows (uuid : String) (outcomes : Outcomes) :
    (cleanup uuid outcomes).Follows (jobProtocol uuid) (fun _ _ => True) .idle := by
  have hdata : volume uuid "data" ∈ volumesOf uuid := by simp [volumesOf]
  have hconfig : volume uuid "config" ∈ volumesOf uuid := by simp [volumesOf]
  refine .perform_bind rfl fun ok => ?_
  cases ok with
  | false => trivial
  | true =>
    refine (unmount_follows hdata [] []).bind fun _ _ hstage => ?_
    subst hstage
    refine (unmount_follows hconfig _ []).bind fun _ _ hstage => ?_
    subst hstage
    refine .perform_bind (by simp [jobProtocol]) fun _ => .perform_bind (by simp [jobProtocol]) fun _ => ?_
    refine .perform_bind trivial fun ok => ?_
    cases ok with
    | false => trivial
    | true =>
      refine .perform_bind (by simp [jobProtocol]) fun _ => .perform_bind (by simp [jobProtocol]) fun _ => ?_
      refine .perform_bind rfl fun ok => ?_
      cases ok with
      | false => trivial
      | true => exact .perform_bind rfl fun _ => trivial

theorem attach_follows (lv : String) : (attach lv).Follows loopProtocol (fun _ stage => stage = .idle) (.past lv) := by
  refine .perform_bind rfl fun _ => .perform_bind rfl fun mounted => ?_
  cases mounted with
  | true => rfl
  | false => exact .perform_bind rfl fun _ => rfl

theorem mountVolume_follows (lv : String) :
    (mountVolume lv).Follows loopProtocol (fun _ stage => stage = .idle) .idle := by
  refine .perform_bind trivial fun marked => ?_
  cases marked with
  | true => rfl
  | false =>
    refine .perform_bind rfl fun there => ?_
    cases there with
    | false => rfl
    | true =>
      refine .perform_bind rfl fun active => ?_
      cases active with
      | true => exact attach_follows lv
      | false => exact .perform_bind rfl fun _ => attach_follows lv

theorem sweepSubdir_follows (uuid subdir : String) :
    (sweepSubdir uuid subdir).Follows loopProtocol (fun _ stage => stage = .idle) .idle := by
  refine .perform_bind trivial fun there => ?_
  cases there with
  | true => rfl
  | false =>
    refine .perform_bind trivial fun mounted => ?_
    cases mounted with
    | true => exact .perform_bind rfl fun _ => .perform_bind trivial fun _ => rfl
    | false => exact .perform_bind trivial fun _ => rfl

theorem iteration_follows : iteration.Follows loopProtocol (fun _ _ => True) .idle := by
  refine .perform_bind trivial fun lvs => ?_
  refine (Follows.each fun lv _ => mountVolume_follows lv).bind fun _ _ hstage => ?_
  subst hstage
  refine .perform_bind trivial fun uuids => ?_
  have hsweep : ∀ uuid ∈ uuids, (sweep uuid).Follows loopProtocol (fun _ stage => stage = .idle) .idle := by
    intro uuid _
    refine (Follows.each fun subdir _ => sweepSubdir_follows uuid subdir).bind fun _ _ hstage => ?_
    subst hstage
    exact .perform_bind trivial fun _ => rfl
  exact Follows.mono (fun _ _ _ => trivial) (Follows.each hsweep)

theorem program_follows (op : Op) : (program op).Follows (protocol op) (fun _ _ => True) .idle := by
  cases op with
  | cleanup uuid outcomes => exact cleanup_follows uuid outcomes
  | iteration => exact iteration_follows

/-! ### What the stages say -/

/-- What a stage says of the node. -/
def meaning (h : Host) : Op → Stage → Prop
  | .iteration, .past lv => h.marked (uuidOf lv) = false
  | .cleanup uuid _, .cleaning unmounted inactive =>
    h.marked uuid = true ∧ (∀ lv ∈ unmounted, lv ∈ volumesOf uuid ∧ h.mounted lv = false) ∧
      ∀ lv ∈ inactive, lv ∈ unmounted ∧ h.active lv = false
  | _, _ => True

def Running (task : Task Op Cmd Cmd.Answer Unit) : Prop := task.prog.head?.isSome = true
  deriving Decidable

def Op.cleans (uuid : String) : Op → Bool
  | .cleanup other _ => other = uuid
  | .iteration => false

variable (pool : System)

/-- One job of a uuid at a time. -/
def Solo : Prop :=
  ∀ (i j : Nat) task other uuid, pool.tasks[i]? = some task → pool.tasks[j]? = some other → Running task → Running other →
    task.op.cleans uuid = true → other.op.cleans uuid = true → i = j

/-- No other job of the uuid is running. -/
def Op.Admitted : Op → Prop
  | .cleanup uuid _ => ∀ task ∈ pool.tasks, task.op.cleans uuid = true → ¬Running task
  | .iteration => True

/-- A marker is set when no iteration is in the middle of something with a volume of the workspace, and a volume is
deactivated when nothing keeps it open. -/
def Cmd.Timely : Cmd → Prop
  | .touch uuid _ => ∀ task ∈ pool.tasks, ∀ lv ∈ (stage task).ahead, uuidOf lv ≠ uuid
  | .deactivate lv => pool.shared.inUse lv = false
  | _ => True

def Careful : Action Op Change → Prop
  | .spawn op => op.Admitted pool
  | .resume i => ∀ next ∈ pool.next? i, next.2.Timely pool
  | .outside _ => True

instance (pool : System) (op : Op) : Decidable (op.Admitted pool) := by
  cases op <;> (unfold Op.Admitted; infer_instance)

instance (pool : System) (cmd : Cmd) : Decidable (cmd.Timely pool) := by
  cases cmd <;> (unfold Cmd.Timely; infer_instance)

instance (pool : System) (action : Action Op Change) : Decidable (Careful pool action) := by
  cases action <;> (unfold Careful; infer_instance)

/-- A job for the workspace has unmounted something and is still running. -/
def BeingRemoved (uuid : String) : Prop :=
  ∃ task ∈ pool.tasks, task.op.cleans uuid = true ∧ Running task ∧ (stage task).unmounting = true

instance (pool : System) (uuid : String) : Decidable (BeingRemoved pool uuid) := by
  unfold BeingRemoved
  infer_instance

/-- The loop does not activate or mount a volume that is being removed, and a volume that is removed is neither
mounted nor active. -/
def StaysDeleted : Action Op Change → Prop
  | .resume i =>
    (∀ next ∈ pool.next? i, ∀ lv uuid, next.1 = .iteration → next.2 = .activate lv ∨ next.2 = .mount lv →
      lv ∈ volumesOf uuid → ¬BeingRemoved pool uuid) ∧
    ∀ next ∈ pool.next? i, ∀ lv, next.2 = .lvremove lv → pool.shared.mounted lv = false ∧ pool.shared.active lv = false
  | _ => True

section

variable {h : Host} {s : Stage} {e : Cmd}

theorem meaning_own_iteration (hallowed : loopProtocol.allowed s e) (hmeaning : meaning h .iteration s) :
    meaning (exec e h).2 .iteration (loopProtocol.after s e (exec e h).1) := by
  cases s with
  | cleaning unmounted inactive => exact hallowed.elim
  | idle =>
    cases e with
    | isMarked lv =>
      cases hmarked : h.marked (uuidOf lv) with
      | true | false => simp [exec, hmarked, loopProtocol, meaning]
    | _ => trivial
  | past lv =>
    cases e with
    | hasNode other =>
      cases hnode : h.node other with
      | true => simpa [exec, hnode, loopProtocol, meaning] using hmeaning
      | false => simp [exec, hnode, loopProtocol, meaning]
    | isMounted other =>
      cases hmounted : h.mounted other with
      | true => simp [exec, hmounted, loopProtocol, meaning]
      | false => simpa [exec, hmounted, loopProtocol, meaning] using hmeaning
    | activate other =>
      simp only [exec]
      split <;> exact hmeaning
    | isActive other => exact hmeaning
    | mkdir other => exact hmeaning
    | mount other => trivial
    | _ => exact hallowed.elim

variable {lv : String}

theorem mounted_umount {lazy : Bool} (hdone : (lazy || (exec (.umount lv lazy) h).1) = true) :
    (exec (.umount lv lazy) h).2.mounted lv = false := by
  simp only [exec] at hdone ⊢
  split at hdone
  · rename_i hcan
    rw [if_pos hcan]
    simp
  · rename_i hcannot
    rw [if_neg hcannot]
    simp only [Bool.or_false] at hdone
    simpa [hdone] using hcannot

theorem mounted_umount_of_false {lv other : String} (lazy : Bool) (hother : h.mounted other = false) :
    (exec (.umount lv lazy) h).2.mounted other = false := by
  simp only [exec]
  split
  · simp only [update_apply]
    split_ifs
    · rfl
    · exact hother
  · exact hother

theorem active_exec_of_false (hactive : h.active lv = false) (hnot : e ≠ .activate lv) :
    (exec e h).2.active lv = false := by
  have hset (other : String) (value : Bool) (hvalue : other = lv → value = false) :
      (h.volumes.set other value).get? lv ≠ some true := by
    rw [Dict.get?_set]
    split_ifs with hsame
    · simp [hvalue hsame.symm]
    · simpa [Host.active] using hactive
  cases e with
  | activate other =>
    simp only [exec]
    split
    · have hne : other ≠ lv := fun hsame => hnot (by rw [hsame])
      simpa [Host.active] using hset other true fun hsame => absurd hsame hne
    · exact hactive
  | deactivate other =>
    simp only [exec]
    split
    · simpa [Host.active] using hset other false fun _ => rfl
    · exact hactive
  | lvremove other =>
    simp only [exec]
    split
    · simp only [Host.active, Dict.get?_erase, decide_eq_false_iff_not]
      split_ifs
      · simp
      · simpa [Host.active] using hactive
    · exact hactive
  | umount | removeDir | mount | touch | unmark | rmdir | rmdirEmpty =>
    simp only [exec]
    split <;> exact hactive
  | sync _ | lvs | isMarked _ | hasNode _ | isActive _ | mkdir _ | isMounted _ | listDirs => exact hactive

theorem mounted_exec_of_false (hmounted : h.mounted lv = false) (hnot : e ≠ .mount lv) :
    (exec e h).2.mounted lv = false := by
  cases e with
  | mount other =>
    simp only [exec]
    split
    · have hne : lv ≠ other := fun hsame => hnot (by rw [hsame])
      exact (update_of_ne hne ..).trans hmounted
    · exact hmounted
  | umount other lazy => exact mounted_umount_of_false lazy hmounted
  | deactivate | lvremove | removeDir | activate | touch | unmark | rmdir | rmdirEmpty =>
    simp only [exec]
    split <;> exact hmounted
  | sync _ | lvs | isMarked _ | hasNode _ | isActive _ | mkdir _ | isMounted _ | listDirs => exact hmounted

theorem marked_exec {uuid : String} (htouch : ∀ ok, e ≠ .touch uuid ok) (hunmark : ∀ ok, e ≠ .unmark uuid ok) :
    (exec e h).2.marked uuid = h.marked uuid := by
  cases e with
  | touch other ok =>
    simp only [exec]
    split
    · have hne : uuid ≠ other := fun hsame => htouch ok (by rw [hsame])
      exact update_of_ne hne ..
    · rfl
  | unmark other ok =>
    simp only [exec]
    split
    · have hne : uuid ≠ other := fun hsame => hunmark ok (by rw [hsame])
      exact update_of_ne hne ..
    · rfl
  | umount | deactivate | lvremove | removeDir | activate | mount | rmdir | rmdirEmpty =>
    simp only [exec]
    split <;> rfl
  | sync _ | lvs | isMarked _ | hasNode _ | isActive _ | mkdir _ | isMounted _ | listDirs => rfl

variable {uuid : String} {outcomes : Outcomes} {unmounted inactive : List String}

theorem meaning_cleaning_exec (hmeaning : meaning h (.cleanup uuid outcomes) (.cleaning unmounted inactive))
    (hmarked : (exec e h).2.marked uuid = h.marked uuid)
    (hnot : ∀ lv ∈ volumesOf uuid, e ≠ .activate lv ∧ e ≠ .mount lv) :
    meaning (exec e h).2 (.cleanup uuid outcomes) (.cleaning unmounted inactive) := by
  obtain ⟨hmark, hunmounted, hinactive⟩ := hmeaning
  refine ⟨hmarked.trans hmark, fun lv hlv => ?_, fun lv hlv => ?_⟩
  · obtain ⟨hof, hmounted⟩ := hunmounted lv hlv
    exact ⟨hof, mounted_exec_of_false hmounted (hnot lv hof).2⟩
  · obtain ⟨hmem, hactive⟩ := hinactive lv hlv
    exact ⟨hmem, active_exec_of_false hactive (hnot lv (hunmounted lv hmem).1).1⟩

theorem active_deactivate (hmounted : h.mounted lv = false) (hfree : h.inUse lv = false) :
    (exec (.deactivate lv) h).2.active lv = false := by
  simp only [exec]
  split
  · simp [Host.active, Dict.get?_set]
  · rename_i hnot
    have hnone : h.volumes.get? lv = none := by simpa [Host.free, hmounted, hfree] using hnot
    simp [Host.active, hnone]

theorem meaning_own_cleanup (hallowed : (jobProtocol uuid).allowed s e) (hmeaning : meaning h (.cleanup uuid outcomes) s)
    (hfree : ∀ lv, e = .deactivate lv → h.inUse lv = false) :
    meaning (exec e h).2 (.cleanup uuid outcomes) ((jobProtocol uuid).after s e (exec e h).1) := by
  cases s with
  | past lv => exact hallowed.elim
  | idle =>
    cases e with
    | touch marker ok =>
      obtain rfl : marker = uuid := hallowed
      cases ok with
      | false => trivial
      | true => simp [exec, jobProtocol, meaning]
    | _ => exact hallowed.elim
  | cleaning unmounted inactive =>
    cases e with
    | umount lv lazy =>
      have hkept := meaning_cleaning_exec hmeaning (marked_exec (e := .umount lv lazy) (by simp) (by simp)) (by simp)
      cases hdone : (lazy || (exec (.umount lv lazy) h).1) with
      | false =>
        simp only [jobProtocol, hdone]
        exact hkept
      | true =>
        simp only [jobProtocol, hdone, if_true]
        refine ⟨hkept.1, List.forall_mem_cons.mpr ⟨⟨hallowed, mounted_umount hdone⟩, hkept.2.1⟩, fun lv hlv => ?_⟩
        exact ⟨List.mem_cons_of_mem _ (hkept.2.2 lv hlv).1, (hkept.2.2 lv hlv).2⟩
    | deactivate lv =>
      have hkept := meaning_cleaning_exec hmeaning (marked_exec (e := .deactivate lv) (by simp) (by simp)) (by simp)
      have hmounted := (hmeaning.2.1 lv hallowed).2
      exact ⟨hkept.1, hkept.2.1,
        List.forall_mem_cons.mpr ⟨⟨hallowed, active_deactivate hmounted (hfree lv rfl)⟩, hkept.2.2⟩⟩
    | sync ok => exact hmeaning
    | lvremove | removeDir => exact meaning_cleaning_exec hmeaning (marked_exec (by simp) (by simp)) (by simp)
    | unmark marker ok => trivial
    | _ => exact hallowed.elim

variable {op : Op}

/-- What a stage says is right after a command of its own task. -/
theorem meaning_own (hallowed : (protocol op).allowed s e) (hmeaning : meaning h op s)
    (hfree : ∀ lv, e = .deactivate lv → h.inUse lv = false) :
    meaning (exec e h).2 op ((protocol op).after s e (exec e h).1) := by
  cases op with
  | iteration => exact meaning_own_iteration hallowed hmeaning
  | cleanup uuid outcomes => exact meaning_own_cleanup hallowed hmeaning hfree

theorem marked_exec_of_false (hmarked : h.marked uuid = false) (htouch : ∀ ok, e ≠ .touch uuid ok) :
    (exec e h).2.marked uuid = false := by
  by_cases hunmark : ∃ ok, e = .unmark uuid ok
  · obtain ⟨ok, rfl⟩ := hunmark
    cases ok with
    | true => simp [exec]
    | false => exact hmarked
  · rw [marked_exec htouch fun ok hsame => hunmark ⟨ok, hsame⟩]
    exact hmarked

theorem cleans_of_allowed (hallowed : (protocol op).allowed s e)
    (hmarker : (∃ ok, e = .touch uuid ok) ∨ ∃ ok, e = .unmark uuid ok) : op.cleans uuid = true := by
  cases op with
  | iteration => rcases hmarker with ⟨ok, rfl⟩ | ⟨ok, rfl⟩ <;> cases s <;> exact hallowed.elim
  | cleanup other outcomes =>
    rcases hmarker with ⟨ok, rfl⟩ | ⟨ok, rfl⟩
    · cases s with
      | idle => exact decide_eq_true (Eq.symm hallowed)
      | past lv | cleaning unmounted inactive => exact hallowed.elim
    · cases s with
      | cleaning unmounted inactive => exact decide_eq_true (Eq.symm hallowed)
      | idle | past lv => exact hallowed.elim

theorem past_of_allowed (hallowed : (protocol op).allowed s e)
    (hmount : e = .activate lv ∨ e = .mount lv) : op = .iteration ∧ s = .past lv := by
  cases op with
  | cleanup uuid outcomes => rcases hmount with rfl | rfl <;> cases s <;> exact hallowed.elim
  | iteration =>
    rcases hmount with rfl | rfl
    · cases s with
      | past other => exact ⟨rfl, congrArg Stage.past (Eq.symm hallowed)⟩
      | idle | cleaning unmounted inactive => exact hallowed.elim
    · cases s with
      | past other => exact ⟨rfl, congrArg Stage.past (Eq.symm hallowed)⟩
      | idle | cleaning unmounted inactive => exact hallowed.elim

theorem not_of_volume (hlv : lv ∈ volumesOf uuid) (hallowed : (protocol op).allowed s e)
    (hmeaning : meaning h op s) (hmarked : h.marked uuid = true) : e ≠ .activate lv ∧ e ≠ .mount lv := by
  rw [← not_or]
  intro hmount
  obtain ⟨rfl, rfl⟩ := past_of_allowed hallowed hmount
  simp only [meaning, uuidOf_volume hlv, hmarked] at hmeaning
  cases hmeaning

theorem marked_of_unmounting (hmeaning : meaning h op s) (hcleans : op.cleans uuid = true)
    (hunmounting : s.unmounting = true) : h.marked uuid = true := by
  cases s with
  | idle | past lv => cases hunmounting
  | cleaning unmounted inactive =>
    cases op with
    | iteration => cases hcleans
    | cleanup other outcomes =>
      rw [← of_decide_eq_true hcleans]
      exact hmeaning.1

theorem released_of_allowed (hallowed : (protocol op).allowed s (.lvremove lv))
    (hmeaning : meaning h op s) : h.mounted lv = false ∧ h.active lv = false := by
  cases op with
  | iteration => cases s <;> exact hallowed.elim
  | cleanup uuid outcomes =>
    cases s with
    | idle | past lv => exact hallowed.elim
    | cleaning unmounted inactive =>
      obtain ⟨hmem, hactive⟩ := hmeaning.2.2 lv hallowed
      exact ⟨(hmeaning.2.1 lv hmem).2, hactive⟩

/-- No other task makes it wrong. -/
theorem meaning_others {op op' : Op} {s' : Stage} (hallowed : (protocol op').allowed s' e) (hmeaning' : meaning h op' s')
    (hmeaning : meaning h op s) (hsolo : ∀ uuid, op.cleans uuid = true → op'.cleans uuid = false)
    (htouch : ∀ uuid ok, e = .touch uuid ok → ∀ lv ∈ s.ahead, uuidOf lv ≠ uuid) : meaning (exec e h).2 op s := by
  cases op with
  | iteration =>
    cases s with
    | past lv => exact marked_exec_of_false hmeaning fun ok hsame => htouch _ ok hsame lv rfl rfl
    | idle | cleaning unmounted inactive => trivial
  | cleanup uuid outcomes =>
    cases s with
    | cleaning unmounted inactive =>
      have hother : op'.cleans uuid ≠ true := by
        rw [hsolo uuid (decide_eq_true rfl)]
        exact Bool.false_ne_true
      refine meaning_cleaning_exec hmeaning (marked_exec ?_ ?_) fun lv hlv => ?_
      · exact fun ok hsame => hother (cleans_of_allowed hallowed (.inl ⟨ok, hsame⟩))
      · exact fun ok hsame => hother (cleans_of_allowed hallowed (.inr ⟨ok, hsame⟩))
      · exact not_of_volume hlv hallowed hmeaning' hmeaning.1
    | idle | past lv => trivial

end

section

variable {pool : System} {action : Action Op Change}

structure Sound (pool : System) : Prop where
  keeps : pool.Keeps protocol .idle
  means : pool.Means protocol .idle meaning
  solo : Solo pool

theorem sound_start (h : Host) : Sound (.start h) where
  keeps task htask := by cases htask
  means task htask := by cases htask
  solo i j task other uuid htask := by cases htask

theorem not_running_of_admitted {op : Op} (hadmitted : op.Admitted pool) {uuid : String} (hcleans : op.cleans uuid = true) :
    ∀ task ∈ pool.tasks, task.op.cleans uuid = true → ¬Running task := by
  cases op with
  | iteration => cases hcleans
  | cleanup other outcomes =>
    rw [← of_decide_eq_true hcleans]
    exact hadmitted

theorem solo_step (h : Solo pool) (hcareful : Careful pool action) : Solo (step pool action) := by
  -- a running job after the step was running before, unless it has just been started
  have hbefore {i : Nat} {task : Task Op Cmd Cmd.Answer Unit} {uuid : String} (hi : (step pool action).tasks[i]? = some task)
      (hrunning : Running task) (hcleans : task.op.cleans uuid = true) :
      (∃ before, pool.tasks[i]? = some before ∧ Running before ∧ before.op.cleans uuid = true) ∨
        i = pool.tasks.length ∧ ∀ before ∈ pool.tasks, before.op.cleans uuid = true → ¬Running before := by
    rcases Pool.step_task_cases program exec Host.change hi with hold | ⟨op, rfl, hlast, rfl⟩ |
      ⟨before, e, next, rfl, hold, hprog, rfl⟩
    · exact .inl ⟨task, hold, hrunning, hcleans⟩
    · exact .inr ⟨hlast, not_running_of_admitted hcareful hcleans⟩
    · refine .inl ⟨before, hold, ?_, hcleans⟩
      rw [Running, hprog]
      rfl
  intro i j task other uuid hi hj hrunning hrunning' hcleans hcleans'
  rcases hbefore hi hrunning hcleans with ⟨before, hold, hran, hcleaned⟩ | ⟨hlast, hnone⟩
  · rcases hbefore hj hrunning' hcleans' with ⟨before', hold', hran', hcleaned'⟩ | ⟨-, hnone⟩
    · exact h i j before before' uuid hold hold' hran hran' hcleaned hcleaned'
    · exact absurd hran (hnone before (List.mem_of_getElem? hold) hcleaned)
  · rcases hbefore hj hrunning' hcleans' with ⟨before', hold', hran', hcleaned'⟩ | ⟨hlast', -⟩
    · exact absurd hran' (hnone before' (List.mem_of_getElem? hold') hcleaned')
    · rw [hlast, hlast']

theorem next?_of_await {i : Nat} {task : Task Op Cmd Cmd.Answer Unit} {e : Cmd} {next : e.Answer → Io Unit}
    (htask : pool.tasks[i]? = some task) (hprog : task.prog = .await e next) : pool.next? i = some (task.op, e) := by
  simp [Pool.next?, htask, hprog, head?]

theorem sound_step (h : Sound pool) (hcareful : Careful pool action) : Sound (step pool action) where
  keeps := Pool.keeps_step h.keeps program_follows action
  solo := solo_step h.solo hcareful
  means := by
    apply Pool.means_step h.means
    · intro op _
      cases op <;> trivial
    · intro i task e next haction htask hprog hmeaning
      subst haction
      have htimely := hcareful _ (next?_of_await htask hprog)
      refine meaning_own (h.keeps.allowed htask hprog) hmeaning fun lv hsame => ?_
      subst hsame
      exact htimely
    · intro i j task other e next hij htask hahead haction hother hprog hmeaning' hmeaning
      subst haction
      have htimely := hcareful _ (next?_of_await hother hprog)
      refine meaning_others (h.keeps.allowed hother hprog) hmeaning' hmeaning (fun uuid hcleans => ?_) ?_
      · by_contra hcleans'
        refine hij (h.solo i j task other uuid htask hother hahead ?_ hcleans (by simpa using hcleans'))
        rw [Running, hprog]
        rfl
      · intro uuid ok htouch lv hlv
        subst htouch
        exact htimely task (List.mem_of_getElem? htask) lv hlv
    · intro a op s _ hmeaning
      cases a <;> exact hmeaning

theorem staysDeleted_of_sound (h : Sound pool) (action : Action Op Change) : StaysDeleted pool action := by
  cases action with
  | spawn op | outside a => trivial
  | resume i =>
    constructor
    · rintro ⟨op, e⟩ hnext lv uuid - hmount hlv ⟨job, hjob, hcleans, hrunning, hunmounting⟩
      obtain ⟨task, rest, htask, rfl, hprog⟩ := Pool.next?_eq_some hnext
      have hmeaning := h.means task (List.mem_of_getElem? htask) (by rw [hprog]; rfl)
      have hmarked := marked_of_unmounting (h.means job hjob hrunning) hcleans hunmounting
      have hnot := not_of_volume hlv (h.keeps.allowed htask hprog) hmeaning hmarked
      exact hmount.elim hnot.1 hnot.2
    · rintro ⟨op, e⟩ hnext lv rfl
      obtain ⟨task, rest, htask, rfl, hprog⟩ := Pool.next?_eq_some hnext
      have hmeaning := h.means task (List.mem_of_getElem? htask) (by rw [hprog]; rfl)
      exact released_of_allowed (h.keeps.allowed htask hprog) hmeaning

end

/-- From any state of the node, in every interleaving of iterations and jobs in which each marker is set while no
iteration is busy with a volume of the workspace, volumes stay deleted. -/
theorem staysDeleted_of_careful (h : Host) (actions : List (Action Op Change))
    (hcareful : Along step Careful (.start h) actions) : Along step StaysDeleted (.start h) actions := by
  apply along_of_invariant (fun _ _ => sound_step) _ (sound_start h) hcareful
  intro pool action hsound _
  exact staysDeleted_of_sound hsound action

/-- The volumes in the order of their names, as `lvs` lists them; the line of attributes starts with two blanks. -/
def oneWorkspace : Host where
  marked _ := false
  volumes := (Dict.empty.set "w1-config" true).set "w1-data" true
  node _ := true
  mounted lv := lv == "w1-data" || lv == "w1-config"
  inUse _ := false
  looksActive _ := false
  dirs := Dict.empty.set "w1" ["data", "config"]

def smooth : Outcomes := ⟨true, true, true, true⟩

def inTime : List (Action Op Change) :=
  [.spawn .iteration, .spawn (.cleanup "w1" smooth), .resume 0] ++ List.replicate 4 (.resume 1) ++
    List.replicate 3 (.resume 0) ++ List.replicate 6 (.resume 1)

theorem staysDeleted_inTime :
    Along step Careful (.start oneWorkspace) inTime ∧ Along step StaysDeleted (.start oneWorkspace) inTime ∧
      (run step (.start oneWorkspace) inTime).shared.volumes.entries = [] := by
  have hcareful : Along step Careful (.start oneWorkspace) inTime := by decide +kernel
  exact ⟨hcareful, staysDeleted_of_careful oneWorkspace inTime hcareful, by decide +kernel⟩

def tooLate : List (Action Op Change) :=
  [.spawn .iteration, .spawn (.cleanup "w1" smooth), .resume 0, .resume 0] ++ List.replicate 3 (.resume 1) ++
    List.replicate 5 (.resume 0)

/-- When the job comes to remove the volume, it is mounted and active. -/
theorem mounted_while_removed :
    ¬Along step StaysDeleted (.start oneWorkspace) (tooLate ++ [.resume 0]) ∧
      let pool := run step (.start oneWorkspace) (tooLate ++ [.resume 0] ++ List.replicate 4 (.resume 1))
      pool.next? 1 = some (.cleanup "w1" smooth, .lvremove "w1-config") ∧
        pool.shared.mounted "w1-config" = true ∧ pool.shared.active "w1-config" = true := by
  refine ⟨fun hdeleted => ?_, by decide +kernel⟩
  obtain ⟨-, ⟨hmounts, -⟩, -⟩ := (along_append step StaysDeleted _ tooLate _).mp hdeleted
  refine hmounts (.iteration, .mount "w1-config") ?_ "w1-config" "w1" rfl (.inr rfl) ?_ ?_ <;> decide +kernel

end HideServer.Provisioner.Mounter
