import HideServer.Async.Protocol
import HideServer.Env.Workspace

/-!
# Sessions bound to a workspace

`handleEnvReady` takes a workspace from the sessions bound to it under the lock of the workspace, and
binds the session after that. Any number of runs of one user are interleaved at every command.
-/

namespace HideServer.Env.Binding

open Async Cache Trace List

structure Op where
  instanceId : String
  sessionId : String
  uuid : String
  ready : Bool
  affine : Bool

def program (uid : String) (op : Op) : Io Unit :=
  handleEnvReady op.instanceId uid op.sessionId op.uuid op.ready op.affine

abbrev Service := Pool World Op Cmd Cmd.Answer Unit

/-- Anything that leaves the presence of the user alone. -/
def outside (uid : String) (w after : World) : World :=
  { after with presence := Function.update after.presence uid (w.presence uid) }

def step (uid : String) : Service → Action Op World → Service := Pool.step (program uid) exec (outside uid)

def Bound (presence : CachedPresence) (sessionId uuid : String) : Prop :=
  ∃ session, presence.get? sessionId = some session ∧ session.wsUuid = some uuid

def Single (uid : String) (w : World) : Prop :=
  ∀ presence ∈ w.presence uid, ∀ uuid left right, Bound presence left uuid → Bound presence right uuid → left = right

inductive Stage where
  | idle
  /-- It has read the presence, to take the workspace from the sessions. -/
  | taking (presence : CachedPresence)
  /-- It has written the presence back, or there was none. -/
  | cleared
  /-- It has read the presence again, to bind the session. -/
  | binding (presence : CachedPresence)
  | done

namespace Stage

def read : Stage → Option CachedPresence → Stage
  | .idle, some presence => .taking presence
  | .idle, none => .cleared
  | .cleared, some presence => .binding presence
  | .cleared, none => .done
  | stage, _ => stage

def write : Stage → Stage
  | .taking _ => .cleared
  | .binding _ => .done
  | stage => stage

/-- The presence that the run has read. -/
def found : Stage → Option CachedPresence
  | .taking presence | .binding presence => some presence
  | _ => none

/-- The old bindings are gone and the new one is not there. -/
def Clear : Stage → Bool
  | .cleared | .binding _ => true
  | _ => false

/-- What the run makes of the presence. -/
def change (op : Op) : Stage → CachedPresence → CachedPresence
  | .binding _, presence => presence.modify op.sessionId ({ · with wsUuid := some op.uuid })
  | _, presence => unbound presence op.uuid

end Stage

def after (uid : String) (stage : Stage) : (cmd : Cmd) → cmd.Answer → Stage
  | .getPresence other, cached => if other = uid then stage.read cached else stage
  | .setPresence other _, _ => if other = uid then stage.write else stage
  | _, _ => stage

def stage (uid : String) (task : Task Op Cmd Cmd.Answer Unit) : Stage :=
  task.seen.foldl (fun stage x => after uid stage x.1 x.2) .idle

/-- The run has cleared and not bound yet. -/
def Pending (uid : String) (task : Task Op Cmd Cmd.Answer Unit) : Prop :=
  task.prog.head?.isSome ∧ (stage uid task).Clear
  deriving Decidable

def Writes (uid : String) (task : Task Op Cmd Cmd.Answer Unit) : Bool :=
  match task.prog.head? with
  | some (.setPresence other _) => other = uid
  | _ => false

/-- A run that writes the presence finds it as it was read, and it binds a session only while no other run for the
workspace is between its two writings. -/
def Exclusive (uid : String) (pool : Service) : Action Op World → Prop
  | .resume i => ∀ task ∈ pool.tasks[i]?, Writes uid task → (stage uid task).found = pool.shared.presence uid ∧
      ((stage uid task).Clear → ∀ other ∈ pool.tasks.eraseIdx i, Pending uid other → other.op.uuid ≠ task.op.uuid)
  | _ => True

instance (uid : String) (pool : Service) : (action : Action Op World) → Decidable (Exclusive uid pool action)
  | .resume i => inferInstanceAs (Decidable (∀ task ∈ pool.tasks[i]?, Writes uid task →
      (stage uid task).found = pool.shared.presence uid ∧
      ((stage uid task).Clear → ∀ other ∈ pool.tasks.eraseIdx i, Pending uid other → other.op.uuid ≠ task.op.uuid)))
  | .spawn _ => .isTrue trivial
  | .outside _ => .isTrue trivial

section

variable {presence : CachedPresence} {sessionId uuid other : String}

theorem bound_unbound : Bound (unbound presence uuid) sessionId other ↔ other ≠ uuid ∧ Bound presence sessionId other := by
  simp only [Bound, unbound, Dict.get?_mapValues, Option.map_eq_some_iff]
  constructor
  · rintro ⟨session, ⟨old, hold, rfl⟩, hbound⟩
    split_ifs at hbound with huuid
    refine ⟨fun heq => huuid (hbound.trans (congrArg some heq)), old, hold, hbound⟩
  · rintro ⟨hother, session, hget, hbound⟩
    refine ⟨session, ⟨session, hget, if_neg fun huuid => hother ?_⟩, hbound⟩
    exact Option.some.inj (hbound.symm.trans huuid)

theorem bound_bind {bindsId : String}
    (h : Bound (presence.modify bindsId ({ · with wsUuid := some uuid })) sessionId other) :
    sessionId = bindsId ∧ other = uuid ∨ Bound presence sessionId other := by
  obtain ⟨session, hget, hbound⟩ := h
  rw [Dict.get?_modify] at hget
  split_ifs at hget with hid
  · obtain ⟨old, -, rfl⟩ := Option.map_eq_some_iff.mp hget
    exact .inl ⟨hid, (Option.some.inj hbound).symm⟩
  · exact .inr ⟨session, hget, hbound⟩

end

section

variable {uid : String} {op : Op}

/-- A run writes only what it makes of what it has read. -/
def protocol (uid : String) (op : Op) : Protocol Cmd Cmd.Answer Stage where
  allowed stage
    | .setPresence other presence => other = uid ∧ stage.found.map (stage.change op) = some presence
    | .delPresence _ => False
    | _ => True
  after := after uid

def Apart : Cmd → Prop
  | .getPresence _ | .setPresence .. | .delPresence _ => False
  | _ => True

theorem after_apart {cmd : Cmd} (h : Apart cmd) (stage : Stage) (answer : cmd.Answer) : after uid stage cmd answer = stage := by
  cases cmd with
  | getPresence | setPresence | delPresence => cases h
  | _ => rfl

theorem allowed_apart {cmd : Cmd} (h : Apart cmd) (stage : Stage) : (protocol uid op).allowed stage cmd := by
  cases cmd with
  | setPresence | delPresence => cases h
  | _ => trivial

theorem presence_apart {cmd : Cmd} (h : Apart cmd) (w : World) : (exec cmd w).2.presence = w.presence := by
  cases cmd with
  | setPresence | delPresence => cases h
  | acquire | release =>
    simp only [exec]
    split <;> rfl
  | _ => rfl

theorem follows_apart {α : Type} {p : Io α} (hp : p.Only Apart) (q : Stage) :
    p.Follows (protocol uid op) (fun _ q' => q' = q) q :=
  Prog.Only.follows_same (hp.mono fun _ hcmd => ⟨allowed_apart hcmd q, after_apart hcmd q⟩)

theorem apart_closeDirs (paths : List String) (workspace : CachedWorkspace) :
    (FSService.closeDirs uid op.uuid paths workspace).Only Apart := by
  induction paths generalizing workspace with
  | nil => trivial
  | cons path paths ih => exact .bind (.ite (.single trivial) trivial) fun _ => ih _

@[simp] theorem after_get (q : Stage) (cached : Option CachedPresence) :
    (protocol uid op).after q (.getPresence uid) cached = q.read cached := if_pos rfl

@[simp] theorem after_set (q : Stage) (presence : CachedPresence) :
    (protocol uid op).after q (.setPresence uid presence) () = q.write := if_pos rfl

theorem follows_invalidatePreviousSessions :
    (invalidatePreviousSessions uid op.uuid).Follows (protocol uid op) (fun _ q => q = .cleared) .idle := by
  refine .perform_bind trivial fun cached => ?_
  rw [after_get]
  cases cached with
  | none => rfl
  | some presence =>
    have htimers : (Prog.each (boundTo presence op.uuid) fun sessionId =>
        ask (.delTimer (presenceWorkspace uid sessionId op.uuid))).Only Apart :=
      .each _ fun _ _ => .single trivial
    refine .bind (follows_apart htimers (.taking presence)) ?_
    rintro _ _ rfl
    refine .perform_bind ⟨rfl, rfl⟩ fun _ => ?_
    rw [after_set]
    apply follows_apart
    refine .perform_bind trivial fun cached => ?_
    cases cached with
    | none => trivial
    | some workspace => exact .bind (apart_closeDirs _ workspace) fun _ => .single trivial

theorem follows_claimWorkspace : (claimWorkspace op.instanceId uid op.uuid op.affine).Follows (protocol uid op)
    (fun _ q => q = .cleared) .idle := by
  refine .bind follows_invalidatePreviousSessions ?_
  rintro _ _ rfl
  apply follows_apart
  refine .perform_bind trivial fun cached => ?_
  split
  · trivial
  · exact ⟨trivial, fun _ => .ite trivial (.single trivial)⟩

theorem follows_bindSession :
    (bindSession uid op.sessionId op.uuid).Follows (protocol uid op) (fun _ _ => True) .cleared := by
  refine .perform_bind trivial fun cached => ?_
  rw [after_get]
  cases cached with
  | none => trivial
  | some presence =>
    simp only
    split
    · trivial
    · exact ⟨⟨rfl, rfl⟩, fun _ => trivial⟩

theorem follows_program : (program uid op).Follows (protocol uid op) (fun _ _ => True) .idle := by
  refine .perform_bind trivial fun reachable => ?_
  split
  · trivial
  refine .perform_bind trivial fun lock => ?_
  cases lock with
  | none => trivial
  | some token =>
    refine .bind follows_claimWorkspace ?_
    rintro claimed _ rfl
    refine .perform_bind trivial fun _ => ?_
    split
    · trivial
    refine .bind follows_bindSession fun bound q _ => ?_
    split
    · trivial
    · exact ⟨trivial, fun _ => trivial⟩

end

def Vacant (uid uuid : String) (w : World) : Prop :=
  ∀ presence ∈ w.presence uid, ∀ sessionId, ¬Bound presence sessionId uuid

structure Orderly (uid : String) (pool : Service) : Prop where
  keeps : pool.Keeps (protocol uid) .idle
  single : Single uid pool.shared
  vacant : ∀ task ∈ pool.tasks, Pending uid task → Vacant uid task.op.uuid pool.shared

section

variable {uid : String} {pool : Service}

theorem orderly_start {w : World} (h : Single uid w) : Orderly uid ⟨w, []⟩ where
  keeps := by simp [Pool.Keeps]
  single := h
  vacant := by simp

theorem Orderly.spawn (h : Orderly uid pool) (op : Op) : Orderly uid (step uid pool (.spawn op)) where
  keeps := Pool.keeps_step h.keeps (fun _ => follows_program) _
  single := h.single
  vacant := by
    intro task htask hpending
    rcases mem_append.mp htask with htask | htask
    · exact h.vacant task htask hpending
    · cases mem_singleton.mp htask
      cases hpending.2

theorem Vacant.congr {w w' : World} {uuid : String} (hpresence : w'.presence uid = w.presence uid) (h : Vacant uid uuid w) :
    Vacant uid uuid w' := by
  unfold Vacant
  rw [hpresence]
  exact h

theorem Single.congr {w w' : World} (hpresence : w'.presence uid = w.presence uid) (h : Single uid w) : Single uid w' := by
  unfold Single
  rw [hpresence]
  exact h

theorem Orderly.outside (h : Orderly uid pool) (w : World) : Orderly uid (step uid pool (.outside w)) := by
  have hpresence : (step uid pool (.outside w)).shared.presence uid = pool.shared.presence uid := by
    simp [step, Binding.outside]
  refine ⟨Pool.keeps_step h.keeps (fun _ => follows_program) _, h.single.congr hpresence, ?_⟩
  exact fun task htask hpending => (h.vacant task htask hpending).congr hpresence

section

variable {i : Nat} {task : Task Op Cmd Cmd.Answer Unit} {cmd : Cmd} {next : cmd.Answer → Io Unit}

theorem Orderly.resumed (h : Orderly uid pool) (htask : pool.tasks[i]? = some task) (hprog : task.prog = .await cmd next)
    (hsingle : Single uid (exec cmd pool.shared).2)
    (hown : (after uid (stage uid task) cmd (exec cmd pool.shared).1).Clear → Vacant uid task.op.uuid (exec cmd pool.shared).2)
    (hothers : ∀ other ∈ pool.tasks.eraseIdx i, Pending uid other → Vacant uid other.op.uuid (exec cmd pool.shared).2) :
    Orderly uid (step uid pool (.resume i)) := by
  have hkeeps : (step uid pool (.resume i)).Keeps (protocol uid) .idle :=
    Pool.keeps_step h.keeps (fun _ => follows_program) (.resume i)
  unfold step at hkeeps ⊢
  rw [Pool.step_resume_of_await _ _ _ htask hprog] at hkeeps ⊢
  refine ⟨hkeeps, hsingle, fun other hother hpending => ?_⟩
  obtain ⟨j, hj⟩ := getElem?_of_mem hother
  rw [getElem?_set] at hj
  split_ifs at hj with hij
  · cases hj
    apply hown
    simpa [stage] using hpending.2
  · exact hothers other (mem_eraseIdx_iff_getElem?.mpr ⟨j, fun heq => hij heq.symm, hj⟩) hpending

theorem pending_of_clear (hprog : task.prog = .await cmd next) (hclear : (stage uid task).Clear) : Pending uid task := by
  refine ⟨?_, hclear⟩
  rw [hprog]
  rfl

theorem Orderly.reads (h : Orderly uid pool) (htask : pool.tasks[i]? = some task) (hprog : task.prog = .await cmd next)
    (hpresence : (exec cmd pool.shared).2.presence uid = pool.shared.presence uid)
    (hstage : (after uid (stage uid task) cmd (exec cmd pool.shared).1).Clear →
      (stage uid task).Clear ∨ pool.shared.presence uid = none) : Orderly uid (step uid pool (.resume i)) := by
  refine h.resumed htask hprog (h.single.congr hpresence) (fun hclear => Vacant.congr hpresence ?_) fun other hother hpending => ?_
  · rcases hstage hclear with hclear | hnone
    · exact h.vacant task (mem_of_getElem? htask) (pending_of_clear hprog hclear)
    · intro presence hcached
      rw [hnone] at hcached
      cases hcached
  · exact (h.vacant other (mem_of_mem_eraseIdx hother) hpending).congr hpresence

theorem Orderly.apart (h : Orderly uid pool) (htask : pool.tasks[i]? = some task) (hprog : task.prog = .await cmd next)
    (hcmd : Apart cmd) : Orderly uid (step uid pool (.resume i)) := by
  refine h.reads htask hprog (congrFun (presence_apart hcmd _) uid) fun hclear => .inl ?_
  rwa [after_apart hcmd] at hclear

theorem clear_read {q : Stage} {cached : Option CachedPresence} (h : (q.read cached).Clear) : q.Clear ∨ cached = none := by
  cases q <;> cases cached <;> simp_all [Stage.read, Stage.Clear]

theorem cached_set {presence : CachedPresence} {w : World} {found : CachedPresence}
    (h : found ∈ (exec (.setPresence uid presence) w).2.presence uid) : found = presence := by
  simpa [exec] using h.symm

theorem Orderly.takes (h : Orderly uid pool) {presence : CachedPresence} {next : Unit → Io Unit}
    (htask : pool.tasks[i]? = some task)
    (hprog : task.prog = .await (.setPresence uid (unbound presence task.op.uuid)) next)
    (hcached : pool.shared.presence uid = some presence) : Orderly uid (step uid pool (.resume i)) := by
  refine h.resumed htask hprog ?_ (fun _ => ?_) fun other hother hpending => ?_
  · intro found hfound uuid left right hleft hright
    cases cached_set hfound
    exact h.single presence hcached uuid left right (bound_unbound.mp hleft).2 (bound_unbound.mp hright).2
  · intro found hfound sessionId hbound
    cases cached_set hfound
    exact (bound_unbound.mp hbound).1 rfl
  · intro found hfound sessionId hbound
    cases cached_set hfound
    exact h.vacant other (mem_of_mem_eraseIdx hother) hpending presence hcached sessionId (bound_unbound.mp hbound).2

theorem Orderly.binds (h : Orderly uid pool) {presence found : CachedPresence} {next : Unit → Io Unit}
    (htask : pool.tasks[i]? = some task) (hprog : task.prog = .await (.setPresence uid
      (presence.modify task.op.sessionId ({ · with wsUuid := some task.op.uuid }))) next)
    (hcached : pool.shared.presence uid = some presence) (hstage : stage uid task = .binding found)
    (hothers : ∀ other ∈ pool.tasks.eraseIdx i, Pending uid other → other.op.uuid ≠ task.op.uuid) :
    Orderly uid (step uid pool (.resume i)) := by
  have hvacant := h.vacant task (mem_of_getElem? htask) (pending_of_clear hprog (by rw [hstage]; rfl)) presence hcached
  refine h.resumed htask hprog ?_ (fun hclear => ?_) fun other hother hpending => ?_
  -- nobody was in the workspace, so two sessions in one workspace are both the new one or both old
  · intro written hwritten uuid left right hleft hright
    cases cached_set hwritten
    rcases bound_bind hleft with ⟨rfl, rfl⟩ | hleft
    · rcases bound_bind hright with ⟨rfl, -⟩ | hright
      · rfl
      · exact absurd hright (hvacant right)
    · rcases bound_bind hright with ⟨rfl, rfl⟩ | hright
      · exact absurd hleft (hvacant left)
      · exact h.single presence hcached uuid left right hleft hright
  · simp [after, hstage, Stage.write, Stage.Clear] at hclear
  · intro written hwritten sessionId hbound
    cases cached_set hwritten
    rcases bound_bind hbound with ⟨-, huuid⟩ | hbound
    · exact hothers other hother hpending huuid
    · exact h.vacant other (mem_of_mem_eraseIdx hother) hpending presence hcached sessionId hbound

theorem Orderly.resume (h : Orderly uid pool) (htask : pool.tasks[i]? = some task) (hprog : task.prog = .await cmd next)
    (hexclusive : Exclusive uid pool (.resume i)) : Orderly uid (step uid pool (.resume i)) := by
  have hallowed : (protocol uid task.op).allowed (stage uid task) cmd := by
    have hfollows := h.keeps task (mem_of_getElem? htask)
    rw [hprog] at hfollows
    exact hfollows.1
  cases cmd with
  | delPresence other => exact hallowed.elim
  | getPresence other =>
    refine h.reads htask hprog rfl fun hclear => ?_
    simp only [after] at hclear
    split_ifs at hclear with huid
    · subst huid
      exact clear_read hclear
    · exact .inl hclear
  | setPresence other written =>
    obtain ⟨rfl, hwritten⟩ := hallowed
    obtain ⟨hfound, hothers⟩ := hexclusive task htask (by simp [Writes, hprog, Prog.head?])
    cases hstage : stage other task with
    | idle | cleared | done => simp [hstage, Stage.found] at hwritten
    | taking presence =>
      rw [hstage] at hfound hwritten
      cases hwritten
      exact h.takes htask hprog hfound.symm
    | binding presence =>
      rw [hstage] at hfound hwritten hothers
      cases hwritten
      exact h.binds htask hprog hfound.symm hstage (hothers rfl)
  | _ => exact h.apart htask hprog trivial

end

theorem Orderly.step (h : Orderly uid pool) {action : Action Op World} (hexclusive : Exclusive uid pool action) :
    Orderly uid (step uid pool action) := by
  cases action with
  | spawn op => exact h.spawn op
  | outside w => exact h.outside w
  | resume i =>
    cases hnext : pool.next? i with
    | none =>
      unfold Binding.step
      rw [Pool.next?_eq_none hnext]
      exact h
    | some next =>
      obtain ⟨task, rest, htask, -, hprog⟩ := Pool.next?_eq_some hnext
      exact h.resume htask hprog hexclusive

end

/-- If every writing of the presence is exclusive, no two sessions of the user are ever in one workspace. -/
theorem single_of_exclusive {uid : String} {w : World} (hsingle : Single uid w) {actions : List (Action Op World)}
    (hexclusive : Along (step uid) (Exclusive uid) ⟨w, []⟩ actions) :
    Always (step uid) (fun pool => Single uid pool.shared) ⟨w, []⟩ actions := by
  refine always_of_invariant (C := Exclusive uid) ?_ ?_ (orderly_start hsingle) hexclusive
  · exact fun pool action h hexclusive => h.step hexclusive
  · exact fun pool h => h.single

def session (uuid : Option String) : CachedSession := ⟨.active, "c", "g1", uuid⟩

def sessions (uuid : Option String) : CachedPresence :=
  ((Dict.empty.set "s1" (session uuid)).set "s2" (session none)).set "s3" (session none)

def signedIn (uuid : Option String) : World := { World.empty with presence := fun _ => some (sessions uuid) }

theorem eq_of_bound {uuid : Option String} {sessionId other : String} (h : Bound (sessions uuid) sessionId other) :
    sessionId = "s1" := by
  obtain ⟨found, hget, hbound⟩ := h
  simp only [sessions, Dict.get?_set, Dict.get?_empty] at hget
  split_ifs at hget with hthird hsecond hfirst
  · cases hget
    cases hbound
  · cases hget
    cases hbound
  · exact hfirst

theorem single_signedIn (uuid : Option String) : Single "alice" (signedIn uuid) := by
  intro presence hpresence other left right hleft hright
  cases hpresence
  exact (eq_of_bound hleft).trans (eq_of_bound hright).symm

def opens (instanceId sessionId uuid : String) : Action Op World := .spawn ⟨instanceId, sessionId, uuid, true, true⟩

def inTurn : List (Action Op World) :=
  opens "e1" "s1" "w1" :: replicate 12 (.resume 0) ++ opens "e1" "s2" "w1" :: replicate 14 (.resume 1)

theorem single_inTurn : Always (step "alice") (fun pool => Single "alice" pool.shared) ⟨signedIn none, []⟩ inTurn :=
  single_of_exclusive (single_signedIn none) (by decide)

/-- Both runs are over with the lock before either binds its session. -/
def overlapping : List (Action Op World) :=
  [opens "e1" "s1" "w1", opens "e1" "s2" "w1"] ++ replicate 9 (.resume 0) ++ replicate 10 (.resume 1) ++
    replicate 3 (.resume 0) ++ replicate 3 (.resume 1)

/-- The runs are on two instances; the one for the other workspace writes back what it has read. -/
def restored : List (Action Op World) :=
  [opens "e1" "s2" "w1", opens "e2" "s3" "w2"] ++ replicate 3 (.resume 1) ++ replicate 5 (.resume 0) ++ [.resume 1] ++
    replicate 8 (.resume 0) ++ replicate 8 (.resume 1)

/-- All runs are over, and two sessions are in the workspace. -/
theorem doubled_runs :
    ((∀ task ∈ (run (step "alice") ⟨signedIn none, []⟩ overlapping).tasks, task.prog.head? = none) ∧
      ¬Single "alice" (run (step "alice") ⟨signedIn none, []⟩ overlapping).shared) ∧
    (∀ task ∈ (run (step "alice") ⟨signedIn (some "w1"), []⟩ restored).tasks, task.prog.head? = none) ∧
      ¬Single "alice" (run (step "alice") ⟨signedIn (some "w1"), []⟩ restored).shared := by
  refine ⟨⟨by decide, fun h => ?_⟩, by decide, fun h => ?_⟩
  · exact absurd (h _ rfl "w1" "s1" "s2" ⟨_, rfl, rfl⟩ ⟨_, rfl, rfl⟩) (by decide)
  · exact absurd (h _ rfl "w1" "s1" "s2" ⟨_, rfl, rfl⟩ ⟨_, rfl, rfl⟩) (by decide)

end HideServer.Env.Binding
