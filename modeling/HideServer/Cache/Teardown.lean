import HideServer.Cache.Disposal

/-!
# What a workspace leaves behind

An expiry removes a workspace from the cache and drops a key of each user that watches a directory; a
deletion unbinds one session of each member. Nothing points to the workspace afterwards exactly if
nothing else did before.
-/

namespace HideServer.Cache.Teardown

open Async Async.Prog Gateway Function List

inductive Event where
  | cache (event : Cache.Event)
  /-- `deleteWorkspace`, of a workspace with these members. -/
  | delete (members : List String) (wsUuid : String)
  deriving DecidableEq, Repr

variable (c : Settings)

def program (w : World) : Event → Io Unit
  | .cache event => Cache.program c w event
  | .delete members wsUuid => clearCacheOnDelete members wsUuid

def pass (w : World) : Event → World
  | .cache event => w.pass event
  | .delete .. => w

def step (w : World) (event : Event) : World := (run exec (program c w event) (pass w event)).2

def removed (w : World) (event : Event) : List String :=
  (calls exec (program c w event) (pass w event)).filterMap fun call =>
    match call.2 with
    | .delWorkspace wsUuid => some wsUuid
    | _ => none

variable {wsUuid : String} {event : Event}

theorem mem_removed {c : Settings} {w : World} :
    wsUuid ∈ removed c w event ↔
      ∃ call ∈ calls exec (program c w event) (pass w event), call.2 = .delWorkspace wsUuid := by
  simp only [removed, mem_filterMap]
  refine exists_congr fun call => and_congr_right fun _ => ?_
  cases call.2 <;> simp

def Bound (w : World) (uid sessionId wsUuid : String) : Prop :=
  ∃ session, w.session uid sessionId = some session ∧ session.wsUuid = some wsUuid

/-- No session is bound to the workspace, and no key of a session and the workspace is left. -/
structure Dead (w : World) (wsUuid : String) : Prop where
  unbound : ∀ uid sessionId, ¬Bound w uid sessionId wsUuid
  keyless : ∀ uid sessionId, w.timers (presenceWorkspace uid sessionId wsUuid) = none

def LeavesDead (w : World) (event : Event) : Prop :=
  ∀ wsUuid ∈ removed c w event, Dead (step c w event) wsUuid

/-! ### What has to be the case before -/

def Watches (w : World) (wsUuid uid : String) : Prop :=
  ∃ workspace, w.workspace wsUuid = some workspace ∧ uid ∈ workspace.dirs.entries.flatMap Prod.snd

/-- The expiry is handled. -/
def TakenUp (w : World) (key : String) : Prop :=
  key ∈ w.announced ∧ ∀ lease ∈ w.locks ("locks:" ++ key), lease.expires ≤ w.now

/-- Only this session is in the workspace, and its key is the only one. -/
structure LastOne (w : World) (uid sessionId wsUuid : String) : Prop where
  only : ∀ other sessionId', Bound w other sessionId' wsUuid → other = uid ∧ sessionId' = sessionId
  keys : ∀ other sessionId', w.timers (presenceWorkspace other sessionId' wsUuid) ≠ none →
    presenceWorkspace other sessionId' wsUuid = presenceWorkspace uid sessionId wsUuid ∧ sessionId ≠ "" ∧ Watches w wsUuid uid

structure OneEach (w : World) (members : List String) (wsUuid : String) : Prop where
  listed : ∀ uid sessionId, Bound w uid sessionId wsUuid → uid ∈ members ∧ sessionId ≠ ""
  only : ∀ uid sessionId sessionId', Bound w uid sessionId wsUuid → Bound w uid sessionId' wsUuid → sessionId' = sessionId
  keys : ∀ uid sessionId, w.timers (presenceWorkspace uid sessionId wsUuid) ≠ none →
    ∃ other sessionId', Bound w other sessionId' wsUuid ∧
      presenceWorkspace uid sessionId wsUuid = presenceWorkspace other sessionId' wsUuid

/-- Whatever else points to a workspace that is torn down has gone before. -/
def GoneBefore (w : World) : Event → Prop
  | .delete members wsUuid => OneEach w members wsUuid
  | .cache (.expiry key disposed) => TakenUp w key → ∀ wsUuid, disposal w key = some wsUuid →
      if (given (split key).tail[2]?).isSome then Dead w wsUuid
      else disposed = true ∧ LastOne w (keySession key).1 (keySession key).2 wsUuid
  | .cache _ => True

/-! ### The first session of a user -/

/-- The session that a look-up by workspace finds. -/
def first (w : World) (uid wsUuid : String) : Option String := (w.presence uid).bind (boundSession · wsUuid)

section

variable {w : World} {uid sessionId wsUuid : String}

theorem first_some (h : first w uid wsUuid = some sessionId) : sessionId ≠ "" ∧ Bound w uid sessionId wsUuid := by
  obtain ⟨presence, hpresence, hfirst⟩ := Option.bind_eq_some_iff.mp h
  obtain ⟨hne, session, hfound, hws⟩ := boundSession_some hfirst
  refine ⟨hne, session, ?_, hws⟩
  rw [World.session, hpresence]
  exact hfound

theorem first_of_only (hbound : Bound w uid sessionId wsUuid) (hne : sessionId ≠ "")
    (honly : ∀ other, Bound w uid other wsUuid → other = sessionId) : first w uid wsUuid = some sessionId := by
  obtain ⟨session, hsession, hws⟩ := hbound
  obtain ⟨presence, hpresence, hfound⟩ := Option.bind_eq_some_iff.mp hsession
  have hsome : (presence.entries.find? fun entry => entry.2.wsUuid = some wsUuid).isSome := by
    rw [find?_isSome]
    exact ⟨(sessionId, session), Dict.mem_entries.mpr hfound, by simpa using hws⟩
  obtain ⟨entry, hentry⟩ := Option.isSome_iff_exists.mp hsome
  have hsame : entry.1 = sessionId := by
    refine honly entry.1 ⟨entry.2, ?_, by simpa using find?_some hentry⟩
    rw [World.session, hpresence]
    exact Dict.mem_entries.mp (mem_of_find?_eq_some hentry)
  rw [first, hpresence]
  simp [boundSession, hentry, given, hsame, hne]

/-- The key of a first session. -/
def Picked (among : String → Prop) (w : World) (wsUuid key : String) : Prop :=
  ∃ uid sessionId, among uid ∧ first w uid wsUuid = some sessionId ∧ key = presenceWorkspace uid sessionId wsUuid

end

variable (disposed : Bool)

section

variable {w after : World} {wsUuid : String}

theorem run_boundSessions (wsUuid : String) (uids : List String) (w : World) :
    run exec (boundSessions wsUuid uids) w = (uids.filterMap fun uid => (first w uid wsUuid).map (Prod.mk uid), w) := by
  induction uids with
  | nil => rfl
  | cons uid uids ih =>
    rw [boundSessions, run_bind, run_bind, run_perform, exec, ih, filterMap_cons, first]
    cases (w.presence uid).bind (boundSession · wsUuid) <;> rfl

theorem timers_each {ι : Type} (xs : List ι) (f : ι → String) (w : World) (key : String) :
    (run exec (each xs fun x => ask (.delTimer (f x))) w).2.timers key = none ↔
      (∃ x ∈ xs, key = f x) ∨ w.timers key = none := by
  induction xs generalizing w with
  | nil => simp [each]
  | cons x xs ih =>
    have hdel : (run exec (ask (.delTimer (f x))) w).2.timers key = none ↔ key = f x ∨ w.timers key = none := by
      rw [run_perform, exec]
      by_cases hkey : key = f x <;> simp [hkey]
    rw [each, run_bind, ih, hdel, exists_mem_cons_iff, or_assoc, or_left_comm]

theorem emit_timers {ι : Type} (xs : List ι) (f : ι → Message) (w : World) :
    (run exec (each xs fun x => ask (.emit (f x))) w).2.timers = w.timers := by
  induction xs generalizing w with
  | nil => rfl
  | cons x xs ih => exact ih _

theorem timers_handleWorkspaceExpiry (key : String) :
    (run exec (handleWorkspaceExpiry wsUuid disposed) w).2.timers key = none ↔
      Picked (Watches w wsUuid) w wsUuid key ∨ w.timers key = none := by
  have hlast : (run exec (handleWorkspaceExpiry wsUuid disposed) w).2.timers =
      (run exec (notifyExpiry wsUuid (w.workspace wsUuid)) w).2.timers := by
    rw [handleWorkspaceExpiry, run_bind, run_bind]
    rfl
  rw [hlast]
  cases hworkspace : w.workspace wsUuid with
  | none =>
    have hnobody : ¬Picked (Watches w wsUuid) w wsUuid key := by
      rintro ⟨uid, sessionId, ⟨workspace, hfound, -⟩, -⟩
      rw [hworkspace] at hfound
      cases hfound
    simp [notifyExpiry, hnobody]
  | some workspace =>
    rw [notifyExpiry, run_bind, run_boundSessions, run_bind, emit_timers, timers_each]
    refine or_congr_left ?_
    simp only [mem_filterMap, mem_eraseDups, Option.map_eq_some_iff, Picked, Watches, hworkspace]
    constructor
    · rintro ⟨_, ⟨uid, huid, sessionId, hfirst, rfl⟩, rfl⟩
      exact ⟨uid, sessionId, ⟨workspace, rfl, huid⟩, hfirst, rfl⟩
    · rintro ⟨uid, sessionId, ⟨_, ⟨⟩, huid⟩, hfirst, rfl⟩
      exact ⟨(uid, sessionId), ⟨uid, huid, sessionId, hfirst, rfl⟩, rfl⟩

theorem dels_handleWorkspaceExpiry (wsUuid : String) (disposed : Bool) (w : World) :
    ∃ call ∈ calls exec (handleWorkspaceExpiry wsUuid disposed) w, call.2 = .delWorkspace wsUuid := by
  simp [handleWorkspaceExpiry]

theorem dead_of_kept {among : String → Prop} (hpresence : after.presence = w.presence)
    (htimers : ∀ key, after.timers key = none ↔ Picked among w wsUuid key ∨ w.timers key = none) :
    Dead after wsUuid ↔ Dead w wsUuid := by
  have hbound : ∀ uid sessionId, Bound after uid sessionId wsUuid ↔ Bound w uid sessionId wsUuid := by
    intro uid sessionId
    rw [Bound, World.session, hpresence]
    exact Iff.rfl
  constructor
  · intro hdead
    have hunbound := fun uid sessionId => mt (hbound uid sessionId).mpr (hdead.unbound uid sessionId)
    refine ⟨hunbound, fun uid sessionId => ?_⟩
    rcases (htimers _).mp (hdead.keyless uid sessionId) with ⟨other, sessionId', -, hfirst, -⟩ | hnone
    · exact absurd (first_some hfirst).2 (hunbound other sessionId')
    · exact hnone
  · intro hdead
    refine ⟨fun uid sessionId => mt (hbound uid sessionId).mp (hdead.unbound uid sessionId), fun uid sessionId => ?_⟩
    exact (htimers _).mpr (.inr (hdead.keyless uid sessionId))

theorem dead_of_dropped {uid sessionId : String} (hbound : Bound w uid sessionId wsUuid)
    (hsession : ∀ other sessionId', after.session other sessionId' =
      if other = uid ∧ sessionId' = sessionId then none else w.session other sessionId')
    (htimers : ∀ key, after.timers key = none ↔ Picked (Watches w wsUuid) w wsUuid key ∨ w.timers key = none) :
    Dead after wsUuid ↔ LastOne w uid sessionId wsUuid := by
  constructor
  · intro hdead
    have honly : ∀ other sessionId', Bound w other sessionId' wsUuid → other = uid ∧ sessionId' = sessionId := by
      rintro other sessionId' ⟨session, hfound, hws⟩
      by_contra hne
      exact hdead.unbound other sessionId' ⟨session, (hsession other sessionId').trans ((if_neg hne).trans hfound), hws⟩
    refine ⟨honly, fun other sessionId' hkey => ?_⟩
    rcases (htimers _).mp (hdead.keyless other sessionId') with ⟨picked, first, hwatches, hfirst, hsame⟩ | hnone
    · obtain ⟨hne, hfirst⟩ := first_some hfirst
      obtain ⟨rfl, rfl⟩ := honly picked first hfirst
      exact ⟨hsame, hne, hwatches⟩
    · exact absurd hnone hkey
  · intro hlast
    constructor
    · rintro other sessionId' ⟨session, hfound, hws⟩
      rw [hsession] at hfound
      split_ifs at hfound with hsame
      exact hsame (hlast.only other sessionId' ⟨session, hfound, hws⟩)
    · intro other sessionId'
      rw [htimers, or_iff_not_imp_right]
      intro hkey
      obtain ⟨hsame, hne, hwatches⟩ := hlast.keys other sessionId' hkey
      refine ⟨uid, sessionId, hwatches, first_of_only hbound hne fun sessionId' hother => ?_, hsame⟩
      exact (hlast.only uid sessionId' hother).2

end

section

variable {w w' : World} {key wsUuid : String}

theorem disposal_cases (h : disposal w key = some wsUuid) : (split key).head? = some "presence" ∧
    (given (split key).tail[2]? = some wsUuid ∧
        (∃ workspace, w.workspace wsUuid = some workspace ∧ workspace.state = .inactive) ∨
      given (split key).tail[2]? = none ∧ ∃ session, w.session (keySession key).1 (keySession key).2 = some session ∧
        session.state = .inactive ∧ given session.wsUuid = some wsUuid) := by
  unfold disposal at h
  split_ifs at h with hpresence
  refine ⟨hpresence, ?_⟩
  cases hgiven : given (split key).tail[2]? with
  | none =>
    rw [hgiven] at h
    obtain ⟨session, hsession, hws⟩ := Option.bind_eq_some_iff.mp h
    obtain ⟨hfound, hinactive⟩ := Option.filter_eq_some_iff.mp hsession
    exact .inr ⟨rfl, session, hfound, of_decide_eq_true hinactive, hws⟩
  | some found =>
    rw [hgiven] at h
    obtain ⟨workspace, hworkspace, rfl⟩ := Option.map_eq_some_iff.mp h
    obtain ⟨hfound, hinactive⟩ := Option.filter_eq_some_iff.mp hworkspace
    exact .inl ⟨rfl, workspace, hfound, of_decide_eq_true hinactive⟩

theorem stale_workspace (t : Timeouts) (disposed : Bool) (hpresence : (split key).head? = some "presence")
    (hgiven : given (split key).tail[2]? = some wsUuid) {workspace : CachedWorkspace}
    (hfound : w.workspace wsUuid = some workspace) (hinactive : workspace.state = .inactive) :
    run exec (handleStaleKey t key disposed) w = run exec (handleWorkspaceExpiry wsUuid disposed) w ∧
      calls exec (handleStaleKey t key disposed) w =
        (w, .getWorkspace wsUuid) :: calls exec (handleWorkspaceExpiry wsUuid disposed) w := by
  rw [handleStaleKey, if_pos hpresence, handleStalePresence, hgiven]
  simp [handleStaleWorkspace, exec, hfound, hinactive]

theorem stale_session (t : Timeouts) (disposed : Bool) (hpresence : (split key).head? = some "presence")
    (hgiven : given (split key).tail[2]? = none) {presence : CachedPresence} {session : CachedSession}
    (hcached : w.presence (keySession key).1 = some presence) (hfound : presence.get? (keySession key).2 = some session)
    (hinactive : session.state = .inactive) :
    run exec (handleStaleKey t key disposed) w =
        run exec (handleSessionExpiry presence (keySession key).1 (keySession key).2 session disposed) w ∧
      calls exec (handleStaleKey t key disposed) w = (w, .getPresence (keySession key).1) ::
        calls exec (handleSessionExpiry presence (keySession key).1 (keySession key).2 session disposed) w := by
  have hstale : handleStaleKey t key disposed = handleStaleSession t (keySession key).1 (keySession key).2 disposed := by
    rw [handleStaleKey, if_pos hpresence, handleStalePresence, hgiven]
    rfl
  rw [hstale]
  simp [handleStaleSession, exec, hcached, hfound, hinactive]

theorem run_handleSessionExpiry {presence : CachedPresence} {uid : String} {session : CachedSession} (sessionId : String)
    (disposed : Bool) (hws : given session.wsUuid = some wsUuid) (hcached : w.presence uid = some presence) :
    (∀ key, (run exec (handleSessionExpiry presence uid sessionId session disposed) w).2.timers key = none ↔
        Picked (Watches w wsUuid) w wsUuid key ∨ w.timers key = none) ∧
      ∀ other sessionId',
        (run exec (handleSessionExpiry presence uid sessionId session disposed) w).2.session other sessionId' =
          if disposed = true ∧ other = uid ∧ sessionId' = sessionId then none else w.session other sessionId' := by
  let told : World := (exec (.emit (.socketClose session.gatewayId session.socketId)) w).2
  let expired : World := (run exec (handleWorkspaceExpiry wsUuid disposed) told).2
  have htimers : ∀ key, expired.timers key = none ↔ Picked (Watches w wsUuid) w wsUuid key ∨ w.timers key = none :=
    timers_handleWorkspaceExpiry disposed
  have hpresence : expired.presence = w.presence := (handleWorkspaceExpiry_tame wsUuid disposed).run_eq presence_exec_tame told
  rw [handleSessionExpiry, run_bind, hws, run_perform, run_bind, handleWorkspaceExpiry_answer]
  cases disposed with
  | false =>
    refine ⟨htimers, fun other sessionId' => ?_⟩
    exact congrArg (fun presence => (presence other).bind (Dict.get? · sessionId')) hpresence
  | true =>
    simp only [Bool.not_true, Bool.false_eq_true, if_false, true_and, run_bind]
    constructor
    · intro key
      exact (iff_of_eq (congrArg (fun timers => timers key = none) (timers_dropSession presence expired))).trans (htimers key)
    · intro other sessionId'
      refine (session_dropSession (hpresence ▸ hcached) other sessionId').trans ?_
      rw [World.session, hpresence]
      rfl

/-- Two worlds with the same records and keys. -/
structure Alike (w w' : World) : Prop where
  presence : w.presence = w'.presence
  workspace : w.workspace = w'.workspace
  timers : w.timers = w'.timers

theorem alike_acquire (w : World) (lock : String) (duration : Nat) : Alike (exec (.acquire lock duration) w).2 w := by
  simp only [exec]
  split <;> exact ⟨rfl, rfl, rfl⟩

theorem alike_release (w : World) (lock : String) (token : Nat) (ok : Bool) :
    Alike (run exec (if ok then ask (.release lock token) else pure () : Io Unit) w).2 w := by
  cases ok with
  | false => exact ⟨rfl, rfl, rfl⟩
  | true =>
    simp only [if_true, run_perform, exec]
    split <;> exact ⟨rfl, rfl, rfl⟩

theorem step_taken (htaken : TakenUp w key) :
    ∃ held : World, Alike held w ∧
      Alike (step c w (.cache (.expiry key disposed))) (run exec (handleStaleKey c.timeouts key disposed) held).2 ∧
      ∀ call ∈ calls exec (handleStaleKey c.timeouts key disposed) held,
        call ∈ calls exec (program c w (.cache (.expiry key disposed))) (pass w (.cache (.expiry key disposed))) := by
  refine ⟨(exec (.acquire ("locks:" ++ key) lockDuration) w).2, alike_acquire .., ?_⟩
  have hprogram : program c w (.cache (.expiry key disposed)) = handleCacheExpiry c.timeouts key disposed := if_pos htaken.1
  rw [step, hprogram, handleCacheExpiry, run_bind, calls_bind, run_perform]
  simp only [pass, World.pass, acquired htaken.2, run_bind, calls_bind]
  refine ⟨alike_release .., fun call hcall => ?_⟩
  exact mem_append_right _ (mem_append_left _ hcall)

theorem removed_untaken (huntaken : ¬TakenUp w key) : removed c w (.cache (.expiry key disposed)) = [] := by
  by_cases hannounced : key ∈ w.announced
  · have hheld : (w.locks ("locks:" ++ key)).any (fun lease => w.now < lease.expires) = true := by
      by_contra hfree
      refine huntaken ⟨hannounced, fun lease hlease => ?_⟩
      have hlock : w.locks ("locks:" ++ key) = some lease := hlease
      simpa [hlock] using hfree
    have hacquire : exec (.acquire ("locks:" ++ key) lockDuration) w = (none, w) := if_pos hheld
    simp [removed, program, pass, Cache.program, World.pass, if_pos hannounced, handleCacheExpiry, hacquire]
  · simp [removed, program, Cache.program, if_neg hannounced]

theorem removed_taken (htaken : TakenUp w key) :
    wsUuid ∈ removed c w (.cache (.expiry key disposed)) ↔ disposal w key = some wsUuid := by
  rw [mem_removed]
  constructor
  · rintro ⟨call, hcall, hdel⟩
    have hprogram : program c w (.cache (.expiry key disposed)) = handleCacheExpiry c.timeouts key disposed := if_pos htaken.1
    rw [hprogram] at hcall
    exact (justified_handleCacheExpiry c.timeouts key disposed call hcall wsUuid (by rw [hdel]; rfl)).2
  · intro hdisposal
    obtain ⟨held, ⟨hpresence, hworkspace, -⟩, -, hcalls⟩ := step_taken c disposed htaken
    suffices hdels : ∃ call ∈ calls exec (handleStaleKey c.timeouts key disposed) held, call.2 = .delWorkspace wsUuid by
      obtain ⟨call, hcall, hdel⟩ := hdels
      exact ⟨call, hcalls call hcall, hdel⟩
    obtain ⟨hkey, ⟨hgiven, workspace, hfound, hinactive⟩ | ⟨hgiven, session, hsession, hinactive, hws⟩⟩ :=
      disposal_cases hdisposal
    · rw [(stale_workspace c.timeouts disposed hkey hgiven (hworkspace ▸ hfound) hinactive).2]
      obtain ⟨call, hcall, hdel⟩ := dels_handleWorkspaceExpiry wsUuid disposed held
      exact ⟨call, mem_cons_of_mem _ hcall, hdel⟩
    · obtain ⟨presence, hcached, hfound⟩ := Option.bind_eq_some_iff.mp hsession
      rw [(stale_session c.timeouts disposed hkey hgiven (hpresence ▸ hcached) hfound hinactive).2, handleSessionExpiry, hws]
      obtain ⟨call, hcall, hdel⟩ := dels_handleWorkspaceExpiry wsUuid disposed _
      simp only [calls_bind]
      exact ⟨call, mem_cons_of_mem _ (mem_append_right _ (mem_append_left _ hcall)), hdel⟩

theorem step_disposes (htaken : TakenUp w key) (hdisposal : disposal w key = some wsUuid) :
    ∃ held : World, Alike held w ∧ (given (split key).tail[2]? = some wsUuid ∧
          Alike (step c w (.cache (.expiry key disposed))) (run exec (handleWorkspaceExpiry wsUuid disposed) held).2 ∨
        given (split key).tail[2]? = none ∧ ∃ presence session, held.presence (keySession key).1 = some presence ∧
          w.session (keySession key).1 (keySession key).2 = some session ∧ given session.wsUuid = some wsUuid ∧
          Alike (step c w (.cache (.expiry key disposed)))
            (run exec (handleSessionExpiry presence (keySession key).1 (keySession key).2 session disposed) held).2) := by
  obtain ⟨held, hheld, hafter, -⟩ := step_taken c disposed htaken
  refine ⟨held, hheld, ?_⟩
  obtain ⟨hkey, ⟨hgiven, workspace, hfound, hinactive⟩ | ⟨hgiven, session, hsession, hinactive, hws⟩⟩ :=
    disposal_cases hdisposal
  · rw [(stale_workspace c.timeouts disposed hkey hgiven (hheld.workspace ▸ hfound) hinactive).1] at hafter
    exact .inl ⟨hgiven, hafter⟩
  · obtain ⟨presence, hcached, hfound⟩ := Option.bind_eq_some_iff.mp hsession
    rw [← hheld.presence] at hcached
    rw [(stale_session c.timeouts disposed hkey hgiven hcached hfound hinactive).1] at hafter
    exact .inr ⟨hgiven, presence, session, hcached, hsession, hws, hafter⟩

theorem dead_congr (h : Alike w w') : Dead w wsUuid ↔ Dead w' wsUuid := by
  have hnobody : ∀ key, w.timers key = none ↔ Picked (fun _ => False) w' wsUuid key ∨ w'.timers key = none := by
    rw [h.timers]
    simp [Picked]
  exact dead_of_kept h.presence hnobody

theorem picked_congr (h : Alike w w') (key : String) :
    Picked (Watches w wsUuid) w wsUuid key ∨ w.timers key = none ↔
      Picked (Watches w' wsUuid) w' wsUuid key ∨ w'.timers key = none := by
  simp only [Picked, Watches, first, h.presence, h.workspace, h.timers]

theorem dead_expiry (htaken : TakenUp w key) (hdisposal : disposal w key = some wsUuid) :
    Dead (step c w (.cache (.expiry key disposed))) wsUuid ↔
      if (given (split key).tail[2]?).isSome then Dead w wsUuid
      else disposed = true ∧ LastOne w (keySession key).1 (keySession key).2 wsUuid := by
  obtain ⟨held, hheld, ⟨hgiven, hafter⟩ | ⟨hgiven, presence, session, hcached, hsession, hws, hafter⟩⟩ :=
    step_disposes c disposed htaken hdisposal
  · rw [dead_congr hafter, hgiven, if_pos Option.isSome_some]
    refine dead_of_kept ?_ fun key => (timers_handleWorkspaceExpiry disposed key).trans (picked_congr hheld key)
    exact ((handleWorkspaceExpiry_tame wsUuid disposed).run_eq presence_exec_tame held).trans hheld.presence
  · obtain ⟨hkeys, hsessions⟩ := run_handleSessionExpiry (keySession key).2 disposed hws hcached
    rw [dead_congr hafter, hgiven, if_neg (by simp)]
    have hbound : Bound w (keySession key).1 (keySession key).2 wsUuid :=
      ⟨session, hsession, (Option.filter_eq_some_iff.mp hws).1⟩
    have hsame : ∀ other sessionId, held.session other sessionId = w.session other sessionId := by
      intro other sessionId
      rw [World.session, hheld.presence]
      rfl
    cases disposed with
    | true =>
      rw [dead_of_dropped hbound ?_ fun key => (hkeys key).trans (picked_congr hheld key)]
      · simp
      · intro other sessionId'
        rw [hsessions, hsame]
        simp only [true_and]
    | false =>
      -- the request fails, and the session stays bound to the workspace
      refine iff_of_false (fun hdead => ?_) (by simp)
      refine hdead.unbound (keySession key).1 (keySession key).2 ⟨session, ?_, (Option.filter_eq_some_iff.mp hws).1⟩
      rw [hsessions, hsame, if_neg (by simp), hsession]

theorem workspace_handleWorkspaceExpiry (wsUuid : String) (disposed : Bool) (w : World) :
    (run exec (handleWorkspaceExpiry wsUuid disposed) w).2.workspace wsUuid = none := by
  simp [handleWorkspaceExpiry, exec]

theorem uncached_expiry (htaken : TakenUp w key) (hdisposal : disposal w key = some wsUuid) :
    (step c w (.cache (.expiry key disposed))).workspace wsUuid = none := by
  have hexpired := workspace_handleWorkspaceExpiry wsUuid disposed
  obtain ⟨held, -, ⟨-, hafter⟩ | ⟨-, presence, session, -, -, hws, hafter⟩⟩ := step_disposes c disposed htaken hdisposal
  · rw [hafter.workspace]
    exact hexpired held
  · rw [hafter.workspace, handleSessionExpiry, run_bind, hws, run_bind]
    split_ifs
    · exact hexpired _
    · rw [run_bind, dropSession]
      split_ifs <;> exact hexpired _

theorem leavesDead_expiry :
    LeavesDead c w (.cache (.expiry key disposed)) ↔ GoneBefore w (.cache (.expiry key disposed)) := by
  by_cases htaken : TakenUp w key
  · simp only [LeavesDead, GoneBefore, htaken, forall_const, removed_taken c disposed htaken]
    exact forall₂_congr fun wsUuid hdisposal => dead_expiry c disposed htaken hdisposal
  · simp [LeavesDead, GoneBefore, htaken, removed_untaken c disposed htaken]

end

section

variable {w : World} {wsUuid : String}

variable (members : List String)

/-- The presence without its first binding. -/
def released (wsUuid : String) (presence : CachedPresence) : CachedPresence :=
  match boundSession presence wsUuid with
  | none => presence
  | some sessionId => presence.modify sessionId ({ · with wsUuid := none })

/-- Some presences are released already. -/
def Underway (wsUuid : String) (w w' : World) : Prop :=
  ∀ uid, w'.presence uid = w.presence uid ∨ w'.presence uid = (w.presence uid).map (released wsUuid)

theorem presence_unbindFirst {w' : World} (h : Underway wsUuid w w') {entry : String × CachedPresence}
    (hentry : w.presence entry.1 = some entry.2) :
    (run exec (unbindFirst wsUuid entry) w').2.presence =
      update w'.presence entry.1 (some (released wsUuid entry.2)) := by
  unfold unbindFirst
  cases hbound : boundSession entry.2 wsUuid with
  | some sessionId =>
    rw [released, hbound]
    rfl
  | none =>
    have hreleased : released wsUuid entry.2 = entry.2 := by rw [released, hbound]
    have hsame : w'.presence entry.1 = some entry.2 := by
      rcases h entry.1 with hread | hwritten
      · rw [hread, hentry]
      · rw [hwritten, hentry, Option.map_some, hreleased]
    rw [hreleased, ← hsame, update_eq_self]
    rfl

theorem presence_each {w' : World} (h : Underway wsUuid w w') (entries : List (String × CachedPresence))
    (hentries : ∀ entry ∈ entries, w.presence entry.1 = some entry.2) (uid : String) :
    (run exec (each entries (unbindFirst wsUuid)) w').2.presence uid =
      if uid ∈ entries.map Prod.fst then (w.presence uid).map (released wsUuid) else w'.presence uid := by
  induction entries generalizing w' with
  | nil => simp [each]
  | cons entry entries ih =>
    obtain ⟨hentry, hentries⟩ := forall_mem_cons.mp hentries
    have hwritten := presence_unbindFirst h hentry
    have hunderway : Underway wsUuid w (run exec (unbindFirst wsUuid entry) w').2 := by
      intro uid
      rw [hwritten, update_apply]
      split_ifs with hsame
      · rw [hsame, hentry]
        exact .inr rfl
      · exact h uid
    rw [each, run_bind, ih hunderway hentries, hwritten, update_apply]
    by_cases hsame : uid = entry.1
    · rw [hsame, hentry]
      simp
    · simp only [map_cons, mem_cons, hsame, false_or, if_false]

theorem timers_unbind (entries : List (String × CachedPresence)) (w : World) (key : String) :
    (run exec (each entries (unbindFirst wsUuid)) w).2.timers key = none ↔
      (∃ entry ∈ entries, ∃ sessionId, boundSession entry.2 wsUuid = some sessionId ∧
        key = presenceWorkspace entry.1 sessionId wsUuid) ∨ w.timers key = none := by
  induction entries generalizing w with
  | nil => simp [each]
  | cons entry entries ih =>
    have hfirst : (run exec (unbindFirst wsUuid entry) w).2.timers key = none ↔
        (∃ sessionId, boundSession entry.2 wsUuid = some sessionId ∧ key = presenceWorkspace entry.1 sessionId wsUuid) ∨
          w.timers key = none := by
      unfold unbindFirst
      cases hbound : boundSession entry.2 wsUuid with
      | none => simp
      | some sessionId =>
        by_cases hkey : key = presenceWorkspace entry.1 sessionId wsUuid <;> simp [exec, hkey]
    rw [each, run_bind, ih, hfirst, exists_mem_cons_iff, or_assoc, or_left_comm]

theorem run_clearCacheOnDelete (wsUuid : String) (w : World) :
    (∀ uid, (run exec (clearCacheOnDelete members wsUuid) w).2.presence uid =
        if uid ∈ members then (w.presence uid).map (released wsUuid) else w.presence uid) ∧
      ∀ key, (run exec (clearCacheOnDelete members wsUuid) w).2.timers key = none ↔
        Picked (· ∈ members) w wsUuid key ∨ w.timers key = none := by
  let entries := members.filterMap fun uid => (w.presence uid).map (Prod.mk uid)
  have hentries : ∀ entry, entry ∈ entries ↔ entry.1 ∈ members ∧ w.presence entry.1 = some entry.2 := by
    intro entry
    simp only [entries, mem_filterMap, Option.map_eq_some_iff]
    constructor
    · rintro ⟨uid, huid, presence, hpresence, rfl⟩
      exact ⟨huid, hpresence⟩
    · rintro ⟨huid, hpresence⟩
      exact ⟨entry.1, huid, entry.2, hpresence, rfl⟩
  rw [clearCacheOnDelete, run_bind, run_presencesOf, run_bind]
  constructor
  · intro uid
    have hread : Underway wsUuid w w := fun _ => .inl rfl
    refine (presence_each hread entries (fun entry hentry => ((hentries entry).mp hentry).2) uid).trans ?_
    by_cases huid : uid ∈ members
    · cases hpresence : w.presence uid with
      | none => simp
      | some presence =>
        have hmem : uid ∈ entries.map Prod.fst :=
          mem_map.mpr ⟨(uid, presence), (hentries _).mpr ⟨huid, hpresence⟩, rfl⟩
        rw [if_pos hmem, if_pos huid]
    · have hmem : uid ∉ entries.map Prod.fst := by
        rintro hmem
        obtain ⟨entry, hentry, rfl⟩ := mem_map.mp hmem
        exact huid ((hentries entry).mp hentry).1
      rw [if_neg hmem, if_neg huid]
  · intro key
    refine (timers_unbind entries w key).trans (or_congr_left ?_)
    constructor
    · rintro ⟨entry, hentry, sessionId, hbound, hkey⟩
      obtain ⟨huid, hpresence⟩ := (hentries entry).mp hentry
      exact ⟨entry.1, sessionId, huid, by rw [first, hpresence]; exact hbound, hkey⟩
    · rintro ⟨uid, sessionId, huid, hfirst, hkey⟩
      obtain ⟨presence, hpresence, hbound⟩ := Option.bind_eq_some_iff.mp hfirst
      exact ⟨(uid, presence), (hentries _).mpr ⟨huid, hpresence⟩, sessionId, hbound, hkey⟩

theorem bound_released (presence : CachedPresence) (sessionId : String) :
    (∃ session, (released wsUuid presence).get? sessionId = some session ∧ session.wsUuid = some wsUuid) ↔
      (∃ session, presence.get? sessionId = some session ∧ session.wsUuid = some wsUuid) ∧
        boundSession presence wsUuid ≠ some sessionId := by
  unfold released
  cases boundSession presence wsUuid with
  | none => simp
  | some bound =>
    simp only [Dict.get?_modify]
    by_cases hsame : sessionId = bound
    · simp [hsame]
    · simp [hsame, Ne.symm hsame]

theorem bound_clearCacheOnDelete (w : World) (members : List String) (wsUuid uid sessionId : String) :
    Bound (run exec (clearCacheOnDelete members wsUuid) w).2 uid sessionId wsUuid ↔
      Bound w uid sessionId wsUuid ∧ ¬(uid ∈ members ∧ first w uid wsUuid = some sessionId) := by
  rw [Bound, World.session, (run_clearCacheOnDelete members wsUuid w).1 uid]
  by_cases huid : uid ∈ members
  · rw [if_pos huid, Bound, World.session, first]
    cases w.presence uid with
    | none => simp
    | some presence => simpa [huid] using bound_released presence sessionId
  · simp only [huid, false_and, not_false_eq_true, and_true]
    exact Iff.rfl

theorem dead_deletion : Dead (run exec (clearCacheOnDelete members wsUuid) w).2 wsUuid ↔ OneEach w members wsUuid := by
  have hbound := bound_clearCacheOnDelete w members wsUuid
  have htimers := (run_clearCacheOnDelete members wsUuid w).2
  constructor
  · intro hdead
    have hfirst : ∀ uid sessionId, Bound w uid sessionId wsUuid → uid ∈ members ∧ first w uid wsUuid = some sessionId := by
      intro uid sessionId hw
      by_contra hother
      exact hdead.unbound uid sessionId ((hbound uid sessionId).mpr ⟨hw, hother⟩)
    refine ⟨fun uid sessionId hw => ?_, fun uid sessionId sessionId' hw hw' => ?_, fun uid sessionId hkey => ?_⟩
    · exact ⟨(hfirst uid sessionId hw).1, (first_some (hfirst uid sessionId hw).2).1⟩
    · exact Option.some.inj ((hfirst uid sessionId' hw').2.symm.trans (hfirst uid sessionId hw).2)
    · rcases (htimers _).mp (hdead.keyless uid sessionId) with ⟨other, sessionId', -, hpicked, hsame⟩ | hnone
      · exact ⟨other, sessionId', (first_some hpicked).2, hsame⟩
      · exact absurd hnone hkey
  · intro hone
    have hfirst : ∀ uid sessionId, Bound w uid sessionId wsUuid → uid ∈ members ∧ first w uid wsUuid = some sessionId := by
      intro uid sessionId hw
      obtain ⟨huid, hne⟩ := hone.listed uid sessionId hw
      exact ⟨huid, first_of_only hw hne fun other hother => hone.only uid sessionId other hw hother⟩
    constructor
    · intro uid sessionId hafter
      obtain ⟨hw, hother⟩ := (hbound uid sessionId).mp hafter
      exact hother (hfirst uid sessionId hw)
    · intro uid sessionId
      rw [htimers, or_iff_not_imp_right]
      intro hkey
      obtain ⟨other, sessionId', hw, hsame⟩ := hone.keys uid sessionId hkey
      exact ⟨other, sessionId', (hfirst other sessionId' hw).1, (hfirst other sessionId' hw).2, hsame⟩

theorem presencesOf_sparing (uids : List String) : (presencesOf uids).Only Cmd.Sparing := by
  induction uids with
  | nil => trivial
  | cons uid uids ih =>
    refine .perform_bind trivial fun cached => ih.bind fun rest => ?_
    cases cached <;> trivial

theorem unbindFirst_sparing (wsUuid : String) (entry : String × CachedPresence) :
    (unbindFirst wsUuid entry).Only Cmd.Sparing := by
  unfold unbindFirst
  split
  · trivial
  · exact ⟨trivial, fun _ => ⟨trivial, fun _ => .single trivial⟩⟩

theorem removed_deletion {other : String} : other ∈ removed c w (.delete members wsUuid) ↔ other = wsUuid := by
  rw [mem_removed, program, clearCacheOnDelete, calls_bind, calls_bind, calls_perform]
  constructor
  · rintro ⟨call, hcall, hdel⟩
    have hnot : ¬call.2.Sparing := by
      rw [hdel]
      exact id
    rcases mem_append.mp hcall with hread | hcall
    · exact absurd ((presencesOf_sparing members).of_mem_calls hread) hnot
    rcases mem_append.mp hcall with hunbind | hlast
    · exact absurd ((Only.each _ fun entry _ => unbindFirst_sparing wsUuid entry).of_mem_calls hunbind) hnot
    · rw [mem_singleton.mp hlast] at hdel
      exact (Cmd.delWorkspace.inj hdel).symm
  · rintro rfl
    exact ⟨_, mem_append_right _ (mem_append_right _ (mem_singleton.mpr rfl)), rfl⟩

theorem leavesDead_deletion : LeavesDead c w (.delete members wsUuid) ↔ GoneBefore w (.delete members wsUuid) := by
  simp only [LeavesDead, removed_deletion, forall_eq]
  exact dead_deletion members

end

theorem removed_cases {c : Settings} {w : World} (h : wsUuid ∈ removed c w event) :
    (∃ members, event = .delete members wsUuid) ∨
      ∃ key disposed, event = .cache (.expiry key disposed) ∧ TakenUp w key ∧ disposal w key = some wsUuid := by
  cases event with
  | delete members uuid =>
    obtain rfl := (removed_deletion c members).mp h
    exact .inl ⟨members, rfl⟩
  | cache event =>
    by_cases hexpiry : ∃ key disposed, event = .expiry key disposed
    · obtain ⟨key, disposed, rfl⟩ := hexpiry
      by_cases htaken : TakenUp w key
      · exact .inr ⟨key, disposed, rfl, htaken, (removed_taken c disposed htaken).mp h⟩
      · rw [removed_untaken c disposed htaken] at h
        cases h
    · obtain ⟨call, hcall, hdel⟩ := mem_removed.mp h
      have hevent : ∀ key disposed, event ≠ .expiry key disposed := fun key disposed heq => hexpiry ⟨key, disposed, heq⟩
      have hsparing := (program_sparing c w hevent).of_mem_calls hcall
      rw [hdel] at hsparing
      exact hsparing.elim

theorem uncached_removed {c : Settings} {w : World} (h : wsUuid ∈ removed c w event) :
    (step c w event).workspace wsUuid = none := by
  obtain ⟨members, rfl⟩ | ⟨key, disposed, rfl, htaken, hdisposal⟩ := removed_cases h
  · simp [step, program, clearCacheOnDelete, exec]
  · exact uncached_expiry c disposed htaken hdisposal

/-- The case of one event. -/
theorem leavesDead_iff (w : World) (event : Event) : LeavesDead c w event ↔ GoneBefore w event := by
  have hspares : (∀ wsUuid, wsUuid ∉ removed c w event) → LeavesDead c w event := fun hnone wsUuid h => absurd h (hnone wsUuid)
  cases event with
  | delete members wsUuid => exact leavesDead_deletion c members
  | cache event =>
    cases event with
    | expiry key disposed => exact leavesDead_expiry c disposed
    | _ =>
      refine iff_of_true (hspares fun wsUuid h => ?_) trivial
      obtain ⟨members, hevent⟩ | ⟨key, disposed, hevent, -⟩ := removed_cases h <;> cases hevent

end HideServer.Cache.Teardown
