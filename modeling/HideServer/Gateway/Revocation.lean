import HideServer.Gateway.Membership
import HideServer.Async.Pool

/-!
# Revoking a membership

Checks and membership events of any number of gateways, interleaved at every command. A workspace stays
out of the user's map unless a routine writes back an older copy or an older answer.
-/

namespace HideServer.Gateway

open Async Async.Prog Cache Trace Dict List

namespace Revocation

variable (uids : List String) {found : Dict String (Option CachedMembership)}

inductive Op where
  | check (uid uuid : String) (served : Bool)
  | modified (added removed : List String) (uuid : String)
  | deleted (uuid : String) (members : List String)
  deriving DecidableEq, Repr

/-- Only a check has a result. -/
def program : Op → Io (Option Bool)
  | .check uid uuid served => checkMembership uid uuid served
  | .modified added removed uuid => do
    handleMembersModified added removed uuid
    return none
  | .deleted uuid members => do
    handleWorkspaceDeleted uuid members
    return none

abbrev State := Pool World Op Cmd Cmd.Answer (Option Bool)

abbrev Step := Action Op Change

abbrev step : State → Step → State := Pool.step program exec World.change

variable (uid uuid : String)

/-- The event removes the user. -/
def Op.Removes : Op → Prop
  | .modified _ removed uuid' => uuid' = uuid ∧ uid ∈ removed
  | .deleted uuid' members => uuid' = uuid ∧ uid ∈ members
  | .check .. => False

instance (uid uuid : String) : DecidablePred (Op.Removes uid uuid) := fun op => by
  cases op <;> (unfold Op.Removes; infer_instance)

/-- The event adds the user. -/
def Op.Adds (uid : String) : Op → Prop
  | .modified added _ _ => uid ∈ added
  | _ => False

instance (uid : String) : DecidablePred (Op.Adds uid) := fun op => by
  cases op <;> (unfold Op.Adds; infer_instance)

def Finished (task : Task Op Cmd Cmd.Answer (Option Bool)) : Prop := ∃ value, task.prog = .ret value

instance (task : Task Op Cmd Cmd.Answer (Option Bool)) : Decidable (Finished task) :=
  match h : task.prog with
  | .ret value => .isTrue ⟨value, h⟩
  | .await _ _ => .isFalse fun ⟨_, hvalue⟩ => nomatch h.symm.trans hvalue

/-- An answer that lets a routine list the workspace in the user's map: a copy that lists it, or that the user is a
member. -/
def Outdated : (cmd : Cmd) → cmd.Answer → Prop
  | .getMembership uid', cache => uid' = uid ∧ cache.bind (·.get? uuid) ≠ none
  | .membershipCheck uid' uuid' _, isMember => uid' = uid ∧ uuid' = uuid ∧ isMember = true
  | _, _ => False

instance (uid uuid : String) (cmd : Cmd) (answer : cmd.Answer) : Decidable (Outdated uid uuid cmd answer) := by
  cases cmd <;> (unfold Outdated; infer_instance)

/-- Beside task `r` no routine is under way that has an outdated answer, unless it handles a removal of the user
itself. -/
def Undisturbed (r : Nat) (pool : State) : Prop :=
  ∀ entry ∈ pool.tasks.zipIdx, entry.2 ≠ r → ¬Finished entry.1 →
    ¬(entry.1.op.Removes uid uuid ∧ ¬entry.1.op.Adds uid) → ∀ x ∈ entry.1.seen, ¬Outdated uid uuid x.1 x.2

instance (uid uuid : String) (r : Nat) : DecidablePred (Undisturbed uid uuid r) := fun pool => by
  unfold Undisturbed
  infer_instance

/-- After `before`, the handling of a removal starts; `during` lasts until it is over and the row is gone, and then
`later` follows. -/
structure Course where
  start : World
  before : List Step
  removal : Op
  during : List Step
  later : List Step

namespace Course

variable (c : Course)

def removed : State := step (run step ⟨c.start, []⟩ c.before) (.spawn c.removal)

def handler : Nat := (run step ⟨c.start, []⟩ c.before).tasks.length

def handled : State := run step c.removed c.during

def final : State := run step c.handled c.later

end Course

/-- The removal has been handled, and the row is gone and does not come back. -/
structure Revoked (uid uuid : String) (c : Course) : Prop where
  lists : c.removal.Removes uid uuid
  gone : Always step (fun pool => pool.shared.rows uid uuid = false) c.handled c.later
  finished : ∃ task, c.handled.tasks[c.handler]? = some task ∧ Finished task

/-- No check of the membership that starts later finds the user to be a member. -/
def StaysOut (c : Course) : Prop :=
  ∀ i task served, c.handled.tasks.length ≤ i → c.final.tasks[i]? = some task → task.op = .check uid uuid served →
    task.prog ≠ .ret (some true)

/-! ### What a routine with current answers writes -/

def Unlisting : Cmd → Prop
  | .setMembership uid' map => uid' = uid → map.get? uuid = none
  | _ => True

/-- A routine that lists it only after an outdated answer. -/
abbrev Harmless {α : Type} (post : α → Prop) (p : Io α) : Prop :=
  p.Safe (Unlisting uid uuid) (fun cmd answer => ¬Outdated uid uuid cmd answer) post

section

variable {uid uuid : String}

theorem get?_of_current {cache : Option CachedMembership} (h : ¬Outdated uid uuid (.getMembership uid) cache) :
    cache.bind (·.get? uuid) = none := by
  by_contra hlisted
  exact h ⟨rfl, hlisted⟩

theorem harmless_checkMembership (uid' uuid' : String) (served : Bool) :
    Harmless uid uuid (fun _ => True) (checkMembership uid' uuid' served) := by
  apply Safe.perform_bind trivial
  intro cache hcache
  split
  · trivial
  · apply Safe.perform_bind trivial
    intro isMember hreply
    apply Safe.ite
    · exact fun _ => trivial
    · intro hmember
      refine ⟨fun hsame => ?_, fun _ _ => trivial⟩
      subst hsame
      have hother : uuid ≠ uuid' := by
        rintro rfl
        exact hreply ⟨rfl, rfl, by simpa using hmember⟩
      rw [get?_set, if_neg hother]
      have hunlisted := get?_of_current hcache
      cases cache with
      | none => rfl
      | some map => exact hunlisted

theorem harmless_checkMembership_self (served : Bool) :
    Harmless uid uuid (fun value => value ≠ some true) (checkMembership uid uuid served) := by
  apply Safe.perform_bind trivial
  intro cache hcache
  rw [get?_of_current hcache]
  apply Safe.perform_bind trivial
  intro isMember hreply
  apply Safe.ite
  · exact nofun
  · intro hmember
    exact absurd ⟨rfl, rfl, by simpa using hmember⟩ hreply

theorem safe_cachedMemberships {ok : Cmd → Prop} {good : (cmd : Cmd) → cmd.Answer → Prop}
    {Q : Dict String (Option CachedMembership) → Prop} (hok : ∀ uid, ok (.getMembership uid)) (hfound : Q found)
    (hset : ∀ uid ∈ uids, ∀ cache, good (.getMembership uid) cache → ∀ found, Q found → Q (found.set uid cache)) :
    (cachedMemberships uids found).Safe ok good Q := by
  induction uids generalizing found with
  | nil => exact hfound
  | cons uid uids ih =>
    apply Safe.perform_bind (hok uid)
    intro cache hcache
    apply ih
    · exact hset uid mem_cons_self cache hcache found hfound
    · intro other hother
      exact hset other (mem_cons_of_mem _ hother)

def Current (uid uuid : String) (found : Dict String (Option CachedMembership)) : Prop :=
  ∀ map, found.get? uid = some (some map) → map.get? uuid = none

theorem harmless_cachedMemberships (hfound : Current uid uuid found) :
    Harmless uid uuid (Current uid uuid) (cachedMemberships uids found) := by
  apply safe_cachedMemberships uids (fun _ => trivial) hfound
  intro uid' _ cache hcache found hfound map hmap
  rw [get?_set] at hmap
  split_ifs at hmap with hsame
  · subst hsame
    cases hmap
    exact get?_of_current hcache
  · exact hfound map hmap

theorem harmless_amend {uuid' : String} {change : CachedMembership → CachedMembership} {uids : List String}
    (hchange : ∀ map, map.get? uuid = none → (map.get? uuid').isSome → (change map).get? uuid = none) :
    Harmless uid uuid (fun _ => True)
      (cachedMemberships uids .empty >>= fun found => each found.entries (amendMembership uuid' change)) := by
  have hempty : Current uid uuid .empty := by
    intro map hmap
    cases hmap
  apply (harmless_cachedMemberships uids hempty).bind
  intro found hfound
  apply Safe.each
  rintro ⟨uid', cache⟩ hentry
  unfold amendMembership
  split
  · trivial
  · rename_i map hcache
    apply Safe.ite
    · intro hlisted
      refine ⟨fun hsame => hchange map ?_ hlisted, fun _ _ => trivial⟩
      apply hfound map
      subst hsame hcache
      exact mem_entries.mp hentry
    · exact fun _ => trivial

theorem harmless_invalidate (uuid' : String) :
    Harmless uid uuid (fun _ => True) (invalidateRemovedMembers uids uuid') := by
  apply harmless_amend
  intro map hmap _
  rw [get?_erase]
  split_ifs
  · rfl
  · exact hmap

theorem harmless_update (uuid' : String) : Harmless uid uuid (fun _ => True) (updateAddedMembers uids uuid') := by
  apply harmless_amend
  intro map hmap hlisted
  rw [get?_set]
  split_ifs with hsame
  · rw [← hsame, hmap] at hlisted
    cases hlisted
  · exact hmap

theorem harmless_program (op : Op) : Harmless uid uuid (fun _ => True) (program op) := by
  cases op with
  | check uid' uuid' served => exact harmless_checkMembership ..
  | modified added removed uuid' =>
    have hevent : Harmless uid uuid (fun _ => True) (handleMembersModified added removed uuid') :=
      (harmless_invalidate removed uuid').bind fun _ _ => harmless_update added uuid'
    exact hevent.bind fun _ _ => trivial
  | deleted uuid' members => exact (harmless_invalidate members uuid').bind fun _ _ => trivial

end

section

variable {uid uuid : String}

theorem only_amend (entry : String × Option CachedMembership) :
    (amendMembership uuid (·.erase uuid) entry).Only (Unlisting uid uuid) := by
  unfold amendMembership
  split
  · trivial
  · apply Only.ite
    · refine .single (fun _ => ?_)
      rw [get?_erase, if_pos rfl]
    · trivial

theorem only_invalidate_from (found : Dict String (Option CachedMembership)) :
    (cachedMemberships uids found >>= fun found => each found.entries (amendMembership uuid (·.erase uuid))).Only
      (Unlisting uid uuid) := by
  have hread : (cachedMemberships uids found).Safe (Unlisting uid uuid) (fun _ _ => True) fun _ => True :=
    safe_cachedMemberships uids (fun _ => trivial) trivial fun _ _ _ _ _ _ => trivial
  exact hread.only.bind fun found => .each _ fun entry _ => only_amend entry

theorem only_update {uids : List String} (huid : uid ∉ uids) (uuid' : String) :
    (updateAddedMembers uids uuid').Only (Unlisting uid uuid) := by
  suffices hsafe : (updateAddedMembers uids uuid').Safe (Unlisting uid uuid) (fun _ _ => True) fun _ => True from hsafe.only
  have hread : (cachedMemberships uids .empty).Safe (Unlisting uid uuid) (fun _ _ => True)
      fun found => ∀ listed, found.get? listed ≠ none → listed ∈ uids := by
    apply safe_cachedMemberships uids (fun _ => trivial)
    · intro listed hlisted
      exact absurd rfl hlisted
    · intro read hread cache _ found hfound listed hlisted
      rw [get?_set] at hlisted
      split_ifs at hlisted with hsame
      · rw [hsame]
        exact hread
      · exact hfound listed hlisted
  apply hread.bind
  intro found hfound
  apply Safe.each
  rintro ⟨listed, cache⟩ hentry
  have hne : listed ≠ uid := by
    rintro rfl
    exact huid (hfound listed (by simp [mem_entries.mp hentry]))
  unfold amendMembership
  split
  · trivial
  · apply Safe.ite
    · exact fun _ => ⟨fun hsame => absurd hsame hne, fun _ _ => trivial⟩
    · exact fun _ => trivial

theorem only_removal {op : Op} (hremoves : op.Removes uid uuid) (hadds : ¬op.Adds uid) :
    (program op).Only (Unlisting uid uuid) := by
  cases op with
  | check uid' uuid' served => exact hremoves.elim
  | modified added removed uuid' =>
    obtain ⟨rfl, -⟩ := hremoves
    refine .bind ?_ fun _ => trivial
    exact (only_invalidate_from removed .empty).bind fun _ => only_update hadds uuid'
  | deleted uuid' members =>
    obtain ⟨rfl, -⟩ := hremoves
    exact (only_invalidate_from members .empty).bind fun _ => trivial

/-- What a routine has seen or written after the removal. -/
def Settled (uid uuid : String) : (cmd : Cmd) → cmd.Answer → Prop
  | .getMembership uid', cache => uid' = uid ∧ cache.bind (·.get? uuid) = none
  | .setMembership uid' map, _ => uid' = uid ∧ map.get? uuid = none
  | _, _ => False

/-- The routine comes to a point after which it is harmless. -/
abbrev Settles {α : Type} (uid uuid : String) (p : Io α) : Prop :=
  p.Until (Unlisting uid uuid) (Settled uid uuid) (Harmless uid uuid fun _ => True)

theorem settles_each {entries : List (String × Option CachedMembership)} {map : CachedMembership}
    (hentry : (uid, some map) ∈ entries) (hlisted : (map.get? uuid).isSome) :
    Settles uid uuid (each entries (amendMembership uuid (·.erase uuid))) := by
  induction entries with
  | nil => cases hentry
  | cons entry entries ih =>
    rcases mem_cons.mp hentry with rfl | hentry
    · have hrest : (each entries (amendMembership uuid (·.erase uuid))).Only (Unlisting uid uuid) :=
        .each _ fun entry _ => only_amend entry
      have hamend : amendMembership uuid (·.erase uuid) (uid, some map) = ask (.setMembership uid (map.erase uuid)) :=
        if_pos hlisted
      have hunlisted : (map.erase uuid).get? uuid = none := by rw [get?_erase, if_pos rfl]
      show Settles uid uuid (amendMembership uuid (·.erase uuid) (uid, some map) >>= fun _ => each entries _)
      rw [hamend]
      exact .perform_bind (fun _ => hunlisted) fun _ => .inl ⟨⟨rfl, hunlisted⟩, hrest.safe⟩
    · exact .bind_right (only_amend entry) fun _ => ih hentry

theorem settles_read (h : uid ∈ uids ∨ ∃ map, found.get? uid = some (some map) ∧ (map.get? uuid).isSome) :
    Settles uid uuid
      (cachedMemberships uids found >>= fun found => each found.entries (amendMembership uuid (·.erase uuid))) := by
  induction uids generalizing found with
  | nil =>
    obtain hnil | ⟨map, hmap, hlisted⟩ := h
    · cases hnil
    · exact settles_each (mem_entries.mpr hmap) hlisted
  | cons read uids ih =>
    refine .perform_bind trivial fun cache => ?_
    by_cases hread : read = uid
    · subst hread
      by_cases hlisted : cache.bind (·.get? uuid) = none
      · exact .inl ⟨⟨rfl, hlisted⟩, (only_invalidate_from uids _).safe⟩
      · right
        apply ih
        obtain ⟨value, hvalue⟩ := Option.ne_none_iff_exists'.mp hlisted
        obtain ⟨map, rfl, hmap⟩ := Option.bind_eq_some_iff.mp hvalue
        exact .inr ⟨map, by simp [get?_set], by simp [hmap]⟩
    · right
      apply ih
      rcases h with hmem | ⟨map, hmap, hlisted⟩
      · exact .inl ((mem_cons.mp hmem).resolve_left fun h => hread h.symm)
      · exact .inr ⟨map, by rw [get?_set, if_neg fun h => hread h.symm, hmap], hlisted⟩

theorem settles_removal {op : Op} (hremoves : op.Removes uid uuid) : Settles uid uuid (program op) := by
  cases op with
  | check uid' uuid' served => exact hremoves.elim
  | modified added removed uuid' =>
    obtain ⟨rfl, huid⟩ := hremoves
    have hinvalidate : Settles uid uuid' (invalidateRemovedMembers removed uuid') := settles_read removed (.inl huid)
    have hevent : Settles uid uuid' (handleMembersModified added removed uuid') :=
      hinvalidate.bind fun _ hleft => hleft.bind fun _ _ => harmless_update added uuid'
    exact hevent.bind fun _ hleft => hleft.bind fun _ _ => trivial
  | deleted uuid' members =>
    obtain ⟨rfl, huid⟩ := hremoves
    have hinvalidate : Settles uid uuid' (invalidateRemovedMembers members uuid') := settles_read members (.inl huid)
    exact hinvalidate.bind fun _ hleft => hleft.bind fun _ _ => trivial

def Local : Cmd → Prop
  | .membershipCheck .. => False
  | _ => True

theorem local_amended (change : CachedMembership → CachedMembership) :
    (cachedMemberships uids .empty >>= fun found => each found.entries (amendMembership uuid change)).Only Local := by
  have hread : (cachedMemberships uids .empty).Safe Local (fun _ _ => True) fun _ => True :=
    safe_cachedMemberships uids (fun _ => trivial) trivial fun _ _ _ _ _ _ => trivial
  refine hread.only.bind fun found => .each _ fun entry _ => ?_
  unfold amendMembership
  split
  · trivial
  · exact .ite (.single trivial) trivial

theorem local_removal {op : Op} (hremoves : op.Removes uid uuid) : (program op).Only Local := by
  cases op with
  | check uid' uuid' served => exact hremoves.elim
  | modified added removed uuid' =>
    have hevent : (handleMembersModified added removed uuid').Only Local :=
      (local_amended removed _).bind fun _ => local_amended added _
    exact hevent.bind fun _ => trivial
  | deleted uuid' members => exact .bind (local_amended members _) fun _ => trivial

end

/-! ### The user's map while the removal is handled -/

/-- The map does not list the workspace. -/
def Clean (w : World) : Prop := (w.membership uid).bind (·.get? uuid) = none

section

variable {uid uuid : String} {w : World} {cmd : Cmd}

theorem clean_exec (hclean : Clean uid uuid w) (hcmd : Unlisting uid uuid cmd) : Clean uid uuid (exec cmd w).2 := by
  cases cmd with
  | setMembership uid' map =>
    unfold Clean
    simp only [exec, Function.update_apply]
    split_ifs with hsame
    · exact hcmd hsame.symm
    · exact hclean
  | delMembership uid' =>
    unfold Clean
    simp only [exec, Function.update_apply]
    split_ifs
    · rfl
    · exact hclean
  | acquire | release =>
    simp only [exec]
    split
    · exact hclean
    · exact hclean
  | _ => exact hclean

theorem clean_change (hclean : Clean uid uuid w) (change : Change) : Clean uid uuid (w.change change) := by
  unfold Clean
  rw [World.change_membership]
  exact hclean

theorem current_of_clean (hclean : Clean uid uuid w) (hcmd : Local cmd ∨ w.rows uid uuid = false) :
    ¬Outdated uid uuid cmd (exec cmd w).1 := by
  intro houtdated
  cases cmd with
  | getMembership uid' =>
    obtain ⟨rfl, hlisted⟩ := houtdated
    exact hlisted hclean
  | membershipCheck uid' uuid' served =>
    obtain ⟨rfl, rfl, htrue⟩ := houtdated
    rcases hcmd with hlocal | hgone
    · exact hlocal
    · simp [exec, hgone] at htrue
  | _ => exact houtdated

theorem clean_of_settled (hsettled : Settled uid uuid cmd (exec cmd w).1) : Clean uid uuid (exec cmd w).2 := by
  cases cmd with
  | getMembership uid' =>
    obtain ⟨rfl, hunlisted⟩ := hsettled
    exact hunlisted
  | setMembership uid' map =>
    obtain ⟨rfl, hunlisted⟩ := hsettled
    simpa [Clean, exec] using hunlisted
  | _ => exact hsettled.elim

end

section

variable {uid uuid : String} {r : Nat} {pool : State}

theorem harmless_of_undisturbed (hgenuine : Pool.Genuine program pool)
    (hquiet : Undisturbed uid uuid r pool) {i : Nat} {task : Task Op Cmd Cmd.Answer (Option Bool)}
    (htask : pool.tasks[i]? = some task) (hne : i ≠ r) : Harmless uid uuid (fun _ => True) task.prog := by
  have hresidue := hgenuine task (mem_of_getElem? htask)
  by_cases hfinished : Finished task
  · obtain ⟨value, hvalue⟩ := hfinished
    rw [hvalue]
    trivial
  by_cases hremoves : task.op.Removes uid uuid ∧ ¬task.op.Adds uid
  · exact (hresidue.only (only_removal hremoves.1 hremoves.2)).safe
  · exact hresidue.safe (harmless_program task.op) (hquiet (task, i) (mem_zipIdx_iff_getElem?.mpr htask) hne hfinished hremoves)

/-- The handler has the user's map settled before it is over. -/
structure Handling (uid uuid : String) (r : Nat) (pool : State) : Prop where
  genuine : Pool.Genuine program pool
  handler : ∃ task, pool.tasks[r]? = some task ∧ task.op.Removes uid uuid ∧
    (Settles uid uuid task.prog ∨ Clean uid uuid pool.shared ∧ Harmless uid uuid (fun _ => True) task.prog)

theorem settles_resume {task : Task Op Cmd Cmd.Answer (Option Bool)} {cmd : Cmd}
    {next : cmd.Answer → Io (Option Bool)} {w : World}
    (hresidue : Residue (program task.op) task.seen (.await cmd next)) (hremoves : task.op.Removes uid uuid)
    (h : Settles uid uuid (.await cmd next) ∨
      Clean uid uuid w ∧ Harmless uid uuid (fun _ => True) (.await cmd next)) :
    Settles uid uuid (next (exec cmd w).1) ∨
      Clean uid uuid (exec cmd w).2 ∧ Harmless uid uuid (fun _ => True) (next (exec cmd w).1) := by
  rcases h with hsettles | ⟨hclean, hharmless⟩
  · rcases hsettles.2 (exec cmd w).1 with ⟨hsettled, hnext⟩ | hnext
    · exact .inr ⟨clean_of_settled hsettled, hnext⟩
    · exact .inl hnext
  · have hlocal : Local cmd := (hresidue.only (local_removal hremoves)).1
    exact .inr ⟨clean_exec hclean hharmless.1, hharmless.2 _ (current_of_clean hclean (.inl hlocal))⟩

theorem handling_step (hpool : Handling uid uuid r pool) (hquiet : Undisturbed uid uuid r pool) (label : Step) :
    Handling uid uuid r (step pool label) := by
  refine ⟨Pool.genuine_step _ _ _ hpool.genuine label, ?_⟩
  obtain ⟨task, htask, hremoves, hstate⟩ := hpool.handler
  cases label with
  | spawn op =>
    refine ⟨task, ?_, hremoves, hstate⟩
    exact List.getElem?_append_left (List.getElem?_eq_some_iff.mp htask).1 ▸ htask
  | outside change => exact ⟨task, htask, hremoves, hstate.imp_right fun h => ⟨clean_change h.1 change, h.2⟩⟩
  | resume i =>
    rcases Pool.step_resume_cases program exec World.change pool i with hsame | ⟨other, cmd, next, hother, hprog, hstep⟩
    · rw [step, hsame]
      exact ⟨task, htask, hremoves, hstate⟩
    rw [step, hstep]
    by_cases hi : i = r
    · subst hi
      cases hother.symm.trans htask
      have hresidue := hpool.genuine task (mem_of_getElem? htask)
      rw [hprog] at hresidue hstate
      refine ⟨_, List.getElem?_set_self (List.getElem?_eq_some_iff.mp htask).1, hremoves, ?_⟩
      exact settles_resume hresidue hremoves hstate
    · refine ⟨task, (List.getElem?_set_ne hi).trans htask, hremoves, hstate.imp_right ?_⟩
      rintro ⟨hclean, hharmless⟩
      have hcmd := harmless_of_undisturbed hpool.genuine hquiet hother hi
      rw [hprog] at hcmd
      exact ⟨clean_exec hclean hcmd.1, hharmless⟩

end

section

variable {uid uuid : String} {n : Nat} {pool : State}

/-- A later check does not find a member. -/
def Denied (uid uuid : String) (n i : Nat) (op : Op) (value : Option Bool) : Prop :=
  n ≤ i → ∀ served, op = .check uid uuid served → value ≠ some true

structure Excluded (uid uuid : String) (n : Nat) (pool : State) : Prop where
  clean : Clean uid uuid pool.shared
  tasks : ∀ i task, pool.tasks[i]? = some task → Harmless uid uuid (Denied uid uuid n i task.op) task.prog

theorem harmless_spawn (i : Nat) (op : Op) : Harmless uid uuid (Denied uid uuid n i op) (program op) := by
  by_cases hself : ∃ served, op = .check uid uuid served
  · obtain ⟨served, rfl⟩ := hself
    exact (harmless_checkMembership_self served).mono fun value hvalue _ _ _ => hvalue
  · exact (harmless_program op).mono fun value _ _ served hop => absurd ⟨served, hop⟩ hself

/-- Once the row is gone, no routine lists the workspace again. -/
theorem excluded_step (hpool : Excluded uid uuid n pool) (hgone : pool.shared.rows uid uuid = false) (label : Step) :
    Excluded uid uuid n (step pool label) where
  clean := by
    cases label with
    | spawn op => exact hpool.clean
    | outside change => exact clean_change hpool.clean change
    | resume i =>
      rcases Pool.step_resume_cases program exec World.change pool i with hsame | ⟨task, cmd, next, htask, hprog, hstep⟩
      · rw [step, hsame]
        exact hpool.clean
      · have hcmd := hpool.tasks i task htask
        rw [hprog] at hcmd
        rw [step, hstep]
        exact clean_exec hpool.clean hcmd.1
  tasks := by
    intro i task htask
    rcases Pool.step_task_cases program exec World.change htask with
      hsame | ⟨op, -, -, rfl⟩ | ⟨before, cmd, next, -, hbefore, hprog, rfl⟩
    · exact hpool.tasks i task hsame
    · exact harmless_spawn i op
    · have hcmd := hpool.tasks i before hbefore
      rw [hprog] at hcmd
      exact hcmd.2 _ (current_of_clean hpool.clean (.inr hgone))

theorem excluded_of_handling {r : Nat} (hpool : Handling uid uuid r pool) (hquiet : Undisturbed uid uuid r pool)
    (hfinished : ∃ task, pool.tasks[r]? = some task ∧ Finished task) : Excluded uid uuid pool.tasks.length pool := by
  obtain ⟨task, htask, -, hstate⟩ := hpool.handler
  obtain ⟨same, hsame, value, hvalue⟩ := hfinished
  cases hsame.symm.trans htask
  rw [hvalue] at hstate
  obtain hover | ⟨hclean, -⟩ := hstate
  · exact hover.elim
  refine ⟨hclean, fun i other hother => ?_⟩
  have hlt : i < pool.tasks.length := (List.getElem?_eq_some_iff.mp hother).1
  have hpost : ∀ value, True → Denied uid uuid pool.tasks.length i other.op value :=
    fun value _ hle => absurd hlt (by omega)
  by_cases hi : i = r
  · subst hi
    cases hother.symm.trans hsame
    rw [hvalue]
    exact hpost value trivial
  · exact (harmless_of_undisturbed hpool.genuine hquiet hother hi).mono hpost

end

theorem handling_removed {uid uuid : String} {c : Course} (hlists : c.removal.Removes uid uuid) :
    Handling uid uuid c.handler c.removed := by
  constructor
  · show Pool.Genuine program (step _ (.spawn c.removal))
    have hstep (pool : State) (label : Step) : Pool.Genuine program pool → Pool.Genuine program (step pool label) :=
      fun hpool => Pool.genuine_step _ _ _ hpool label
    have hstart : Pool.Genuine program (⟨c.start, []⟩ : State) := by
      intro task htask
      cases htask
    exact hstep _ _ (run_preserves hstep hstart c.before)
  · refine ⟨⟨c.removal, [], program c.removal⟩, ?_, hlists, .inl (settles_removal hlists)⟩
    exact getElem?_concat_length

/-- A revocation is permanent if, until it has been handled and the row is gone, no other routine is under way that
has read a copy of the user's map with the workspace or has been told that the user is a member. -/
theorem staysOut_of_undisturbed {uid uuid : String} {c : Course} (hrevoked : Revoked uid uuid c)
    (hquiet : Always step (Undisturbed uid uuid c.handler) c.removed c.during) : StaysOut uid uuid c := by
  have hhandling (pool : State) (label : Step) :
      Handling uid uuid c.handler pool → Undisturbed uid uuid c.handler pool → Handling uid uuid c.handler (step pool label) :=
    fun hpool hquiet => handling_step hpool hquiet label
  have hhandled : Handling uid uuid c.handler c.handled :=
    run_invariant hhandling (handling_removed hrevoked.lists) hquiet.along
  have hexcluded : Excluded uid uuid c.handled.tasks.length c.handled :=
    excluded_of_handling hhandled (hquiet c.during prefix_rfl) hrevoked.finished
  have hexcluding (pool : State) (label : Step) : Excluded uid uuid c.handled.tasks.length pool →
      pool.shared.rows uid uuid = false → Excluded uid uuid c.handled.tasks.length (step pool label) :=
    fun hpool hgone => excluded_step hpool hgone label
  have hfinal : Excluded uid uuid c.handled.tasks.length c.final :=
    run_invariant hexcluding hexcluded hrevoked.gone.along
  intro i task served hlater htask hop hvalue
  have hdenied := hfinal.tasks i task htask
  rw [hvalue] at hdenied
  exact hdenied hlater served hop rfl

def settledCourse : Course where
  start := .empty
  before :=
    [.outside (.setRow "alice" "w1" true), .spawn (.check "alice" "w1" true), .resume 0, .resume 0, .resume 0,
      .outside (.setRow "alice" "w2" true), .outside (.setRow "bob" "w1" true), .outside (.setRow "alice" "w1" false),
      .spawn (.check "bob" "w1" true), .resume 1]
  removal := .modified [] ["alice"] "w1"
  during :=
    [.resume 1, .resume 2, .spawn (.check "alice" "w2" true), .resume 1, .resume 2, .resume 3]
  later := [.resume 3, .spawn (.check "alice" "w1" true), .resume 3, .resume 4, .resume 4]

theorem staysOut_settledCourse :
    settledCourse.final.tasks[4]?.map Task.op = some (.check "alice" "w1" true) ∧
      StaysOut "alice" "w1" settledCourse := by
  refine ⟨rfl, staysOut_of_undisturbed ⟨⟨rfl, mem_singleton_self _⟩, ?_, ⟨_, rfl, _, rfl⟩⟩ ?_⟩
  · exact always_iff.mpr (by decide +kernel)
  · exact always_iff.mpr (by decide +kernel)

def overlappingCourse : Course where
  start := .empty
  before :=
    [.outside (.setRow "alice" "w1" true), .spawn (.check "alice" "w1" true), .resume 0, .resume 0, .resume 0,
      .outside (.setRow "alice" "w2" true), .outside (.setRow "alice" "w1" false), .spawn (.check "alice" "w2" true), .resume 1]
  removal := .modified [] ["alice"] "w1"
  during := [.resume 2, .resume 2]
  later := [.resume 1, .resume 1, .spawn (.check "alice" "w1" true), .resume 3]

/-- A revoked membership comes back. -/
theorem readmitted_overlappingCourse :
    Revoked "alice" "w1" overlappingCourse ∧ ¬StaysOut "alice" "w1" overlappingCourse := by
  constructor
  · refine ⟨⟨rfl, mem_singleton_self _⟩, ?_, ⟨_, rfl, _, rfl⟩⟩
    exact always_iff.mpr (by decide +kernel)
  · intro hout
    exact hout 3 _ true (by decide) rfl rfl rfl

end Revocation

end HideServer.Gateway
