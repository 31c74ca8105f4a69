import HideServer.Cache.Flags
import HideServer.Async.Trace

/-!
# When a workspace is disposed of

The expiry of an inactive session disposes of the workspace it is bound to, and that of a session and
a workspace does so if the workspace is flagged inactive. Neither looks at the other sessions.
-/

namespace HideServer.Cache

open Async Async.Prog Gateway Function Trace Option

variable {w : World} (t : Timeouts)

/-- The session is refreshed in time. -/
def Active (w : World) (uid sessionId : String) : Prop :=
  ∃ timer, w.timers (presenceSession uid sessionId) = some timer ∧ timer.value = 1 ∧ w.now < timer.expires

def Idle (w : World) (wsUuid : String) : Prop :=
  ∀ uid sessionId session, w.session uid sessionId = some session → session.wsUuid = some wsUuid → ¬Active w uid sessionId

/-- While the event is handled, only idle workspaces are disposed of. -/
def DisposesIdle (c : Settings) (w : World) (event : Event) : Prop :=
  ∀ call ∈ issued c w event, ∀ wsUuid ok, call.2 = .fetch (.dispose wsUuid) ok → Idle call.1 wsUuid

def keySession (key : String) : String × String :=
  (rendered (split key).tail[0]?, rendered (split key).tail[1]?)

def disposal (w : World) (key : String) : Option String :=
  if (split key).head? = some "presence" then
    match given (split key).tail[2]? with
    | none =>
      ((w.session (keySession key).1 (keySession key).2).filter (·.state = .inactive)).bind fun session => given session.wsUuid
    | some wsUuid => ((w.workspace wsUuid).filter (·.state = .inactive)).map fun _ => wsUuid
  else none

/-- Every session bound to the workspace is flagged inactive, and has ids that a key tells apart. -/
def Vacant (w : World) (wsUuid : String) : Prop :=
  ∀ uid sessionId session, w.session uid sessionId = some session → session.wsUuid = some wsUuid →
    Plain uid ∧ Plain sessionId ∧ session.state = .inactive

/-- An expiry disposes of a workspace only if it is vacant. -/
def SparesUsed (w : World) : Event → Prop
  | .expiry key _ => ∀ wsUuid, disposal w key = some wsUuid → Vacant w wsUuid
  | _ => True

/-- Keys may be gone, and presences are as before. -/
structure Wanes (w w' : World) : Prop where
  now : w'.now = w.now
  presence : w'.presence = w.presence
  timers : ∀ key timer, w'.timers key = some timer → w.timers key = some timer

def Cmd.Waning : Cmd → Prop
  | .setPresence .. | .delPresence _ | .setTimer .. => False
  | _ => True

theorem Wanes.refl (w : World) : Wanes w w := ⟨rfl, rfl, fun _ _ h => h⟩

theorem wanes_exec (cmd : Cmd) (w' : World) (hcmd : cmd.Waning) (hw : Wanes w w') : Wanes w (exec cmd w').2 := by
  cases cmd with
  | setPresence uid presence | delPresence uid | setTimer key value ttl => exact hcmd.elim
  | delTimer key =>
    refine ⟨hw.now, hw.presence, fun other timer htimer => hw.timers other timer ?_⟩
    simp only [exec, update_apply] at htimer
    split_ifs at htimer
    exact htimer
  | acquire key duration | release key token =>
    simp only [exec]
    split <;> exact ⟨hw.now, hw.presence, hw.timers⟩
  | _ => exact ⟨hw.now, hw.presence, hw.timers⟩

theorem idle_of_wanes {w' : World} {wsUuid : String} (hw : Wanes w w') (hidle : Idle w wsUuid) : Idle w' wsUuid := by
  rintro uid sessionId session hsession hbound ⟨timer, htimer, hvalue, hexpires⟩
  apply hidle uid sessionId session _ hbound
  · exact ⟨timer, hw.timers _ _ htimer, hvalue, hw.now ▸ hexpires⟩
  · rw [World.session, ← hw.presence]
    exact hsession

def Cmd.tears : Cmd → Option String
  | .delWorkspace wsUuid | .fetch (.dispose wsUuid) _ => some wsUuid
  | _ => none

theorem Cmd.Sparing.tears {cmd : Cmd} (h : cmd.Sparing) : cmd.tears = none := by
  cases cmd with
  | delWorkspace wsUuid => exact h.elim
  | fetch request ok =>
    cases request with
    | dispose wsUuid => exact h.elim
    | _ => rfl
  | _ => rfl

/-- What is torn down has a reason. -/
def Justified (w : World) (reason : String → Prop) (call : World × Cmd) : Prop :=
  ∀ wsUuid, call.2.tears = some wsUuid → Wanes w call.1 ∧ reason wsUuid

theorem sparing : Rules Cmd.Sparing (fun _ _ => True) (fun _ _ => True) fun _ => True where
  toRecordRules := by
    refine .free (fun cmd h => ?_) (fun _ _ => trivial) fun _ _ _ _ _ => trivial
    cases cmd with
    | fetch request => cases request <;> exact h
    | _ => first | exact h.elim | trivial
  getPresence _ := trivial
  within _ _ _ _ _ _ := trivial
  lift _ _ _ := trivial

section

variable {w w' : World} {reason : String → Prop}

theorem justified_of_sparing {α : Type} {p : Io α} (hp : p.Only Cmd.Sparing) :
    ∀ call ∈ calls exec p w', Justified w reason call := by
  intro call hcall wsUuid htears
  rw [(hp.of_mem_calls hcall).tears] at htears
  cases htears

theorem Cmd.Winding.waning {cmd : Cmd} (h : cmd.Winding) : cmd.Waning := by
  cases cmd <;> trivial

theorem handleWorkspaceExpiry_waning (wsUuid : String) (disposed : Bool) :
    (handleWorkspaceExpiry wsUuid disposed).Only Cmd.Waning := by
  apply Only.perform_bind trivial
  intro workspace
  apply ((notifyExpiry_winding ..).mono fun _ h => h.waning).bind
  intro _
  exact ⟨trivial, fun _ => .single trivial⟩

theorem Cmd.Winding.sparing {cmd : Cmd} (h : cmd.Winding) : cmd.Sparing := by
  cases cmd with
  | getPresence _ | delTimer _ | emit _ => trivial
  | _ => cases h

theorem handleWorkspaceExpiry_tears (wsUuid : String) (disposed : Bool) :
    (handleWorkspaceExpiry wsUuid disposed).Only fun cmd => ∀ other, cmd.tears = some other → other = wsUuid := by
  refine .perform_bind (fun other hnone => ?_) fun workspace => ?_
  · cases hnone
  refine ((notifyExpiry_winding ..).mono fun cmd h other htears => ?_).bind fun _ => ?_
  · rw [h.sparing.tears] at htears
    cases htears
  · exact ⟨fun other htears => (some.inj htears).symm,
      fun _ => .single (fun other htears => (some.inj htears).symm)⟩

theorem justified_handleWorkspaceExpiry {wsUuid : String} (disposed : Bool) (hw : Wanes w w')
    (hreason : reason wsUuid) :
    ∀ call ∈ calls exec (handleWorkspaceExpiry wsUuid disposed) w', Justified w reason call := by
  intro call hcall other htears
  have hwanes := (handleWorkspaceExpiry_waning wsUuid disposed).calls_inv wanes_exec hw call hcall
  obtain rfl := (handleWorkspaceExpiry_tears wsUuid disposed).of_mem_calls hcall other htears
  exact ⟨hwanes, hreason⟩

theorem justified_handleSessionExpiry {presence : CachedPresence} {uid sessionId : String}
    {session : CachedSession} (disposed : Bool) (hw : Wanes w w')
    (hreason : ∀ wsUuid, given session.wsUuid = some wsUuid → reason wsUuid) :
    ∀ call ∈ calls exec (handleSessionExpiry presence uid sessionId session disposed) w',
        Justified w reason call := by
  have hdrop : (dropSession presence uid sessionId >>= fun _ => pure true).Only Cmd.Sparing :=
    .bind (.ite (.single trivial) (.single trivial)) fun _ => trivial
  unfold handleSessionExpiry
  rw [forall_calls_bind]
  constructor
  · exact justified_of_sparing (.single trivial)
  · cases hbound : given session.wsUuid with
    | none => exact justified_of_sparing hdrop
    | some wsUuid =>
      rw [forall_calls_bind]
      constructor
      · exact justified_handleWorkspaceExpiry disposed (wanes_exec _ _ trivial hw) (hreason wsUuid hbound)
      · exact justified_of_sparing (.ite trivial hdrop)

theorem justified_handleStaleSession {uid sessionId : String} (disposed : Bool) (hw : Wanes w w')
    (hreason : ∀ session wsUuid, w.session uid sessionId = some session → session.state = .inactive →
      given session.wsUuid = some wsUuid → reason wsUuid) :
    ∀ call ∈ calls exec (handleStaleSession t uid sessionId disposed) w', Justified w reason call := by
  unfold handleStaleSession
  rw [forall_calls_bind]
  constructor
  · exact justified_of_sparing (.single trivial)
  · simp only [run_perform, exec]
    cases hpresence : w'.presence uid with
    | none => simp
    | some presence =>
      dsimp only
      cases hsession : presence.get? sessionId with
      | none => simp
      | some session =>
        have hfound : w.session uid sessionId = some session := by
          rw [World.session, ← hw.presence, hpresence]
          exact hsession
        dsimp only
        cases hstate : session.state with
        | active =>
          refine justified_of_sparing (.bind (sparing.idleWorkspace _ _ _ fun _ _ => trivial).only fun _ => ?_)
          exact ⟨trivial, fun _ => .single trivial⟩
        | inactive => exact justified_handleSessionExpiry disposed hw fun wsUuid => hreason session wsUuid hfound hstate

theorem justified_handleStaleWorkspace {uid sessionId wsUuid : String} (disposed : Bool) (hw : Wanes w w')
    (hreason : ∀ workspace, w'.workspace wsUuid = some workspace → workspace.state = .inactive → reason wsUuid) :
    ∀ call ∈ calls exec (handleStaleWorkspace t uid sessionId wsUuid disposed) w', Justified w reason call := by
  unfold handleStaleWorkspace
  rw [forall_calls_bind]
  constructor
  · exact justified_of_sparing (.single trivial)
  · simp only [run_perform, exec]
    cases hworkspace : w'.workspace wsUuid with
    | none => simp
    | some workspace =>
      dsimp only
      cases hstate : workspace.state with
      | active =>
        refine justified_of_sparing (.bind (Safe.only (sparing.setWorkspaceState _ _ _ ?_ _)) fun _ => trivial)
        exact fun _ _ => ⟨trivial, fun _ _ => trivial⟩
      | inactive => exact justified_handleWorkspaceExpiry disposed hw (hreason workspace hworkspace hstate)

theorem justified_handleStaleKey (key : String) (disposed : Bool) (hw : Wanes w w')
    (hworkspace : w'.workspace = w.workspace) :
    ∀ call ∈ calls exec (handleStaleKey t key disposed) w', Justified w
      (fun wsUuid => disposal w key = some wsUuid) call := by
  unfold handleStaleKey
  split_ifs with hpresence
  · unfold handleStalePresence
    cases hgiven : given (split key).tail[2]? with
    | none =>
      apply justified_handleStaleSession t disposed hw
      intro session wsUuid hsession hinactive hbound
      simp only [disposal, if_pos hpresence, hgiven, keySession, hsession]
      rw [filter_some_pos (by simp [hinactive]), bind_some, hbound]
    | some wsUuid =>
      apply justified_handleStaleWorkspace t disposed hw
      intro workspace hfound hinactive
      rw [hworkspace] at hfound
      simp only [disposal, if_pos hpresence, hgiven, hfound]
      rw [filter_some_pos (by simp [hinactive]), map_some]
  · simp

theorem justified_handleCacheExpiry (key : String) (disposed : Bool) :
    ∀ call ∈ calls exec (handleCacheExpiry t key disposed) w, Justified w
      (fun wsUuid => disposal w key = some wsUuid) call := by
  unfold handleCacheExpiry
  rw [forall_calls_bind]
  constructor
  · exact justified_of_sparing (.single trivial)
  · have hw := wanes_exec (.acquire ("locks:" ++ key) lockDuration) w trivial (Wanes.refl w)
    have hworkspace : (exec (.acquire ("locks:" ++ key) lockDuration) w).2.workspace = w.workspace := by
      simp only [exec]
      split <;> rfl
    rw [run_perform]
    generalize exec (.acquire ("locks:" ++ key) lockDuration) w = acquired at hw hworkspace ⊢
    cases hlock : acquired.1 with
    | none => simp
    | some token =>
      rw [forall_calls_bind]
      constructor
      · exact justified_handleStaleKey t key disposed hw hworkspace
      · exact justified_of_sparing (.ite (.single trivial) trivial)

end

variable {event : Event}

theorem program_sparing (c : Settings) (w : World) (hevent : ∀ key disposed, event ≠ .expiry key disposed) :
    (program c w event).Only Cmd.Sparing := by
  cases event with
  | connect => exact (sparing.handleConnection _ (fun _ _ => trivial) (fun _ _ => trivial) _ _).only
  | disconnect => exact (sparing.handleDisconnect _ (fun _ _ => trivial) fun _ _ => trivial).only
  | ping => exact (sparing.handlePing _ (fun _ _ => trivial) (fun _ _ => trivial) _ _).only
  | expiry key disposed => exact absurd rfl (hevent key disposed)
  | envReady => exact (sparing.handleEnvReady (fun _ _ => trivial) trivial trivial _ _ _).only
  | envClose => exact (sparing.handleEnvClose (fun _ _ => trivial) _ _ _ _).only
  | openDir => exact (sparing.openDir _ _ _ _).only
  | closeDir => exact (sparing.updateCache _ _ _ _).only
  | change change | announce key => trivial

theorem idle_of_vacant (hagree : Agree w) {wsUuid : String} (hvacant : Vacant w wsUuid) : Idle w wsUuid := by
  rintro uid sessionId session hsession hbound ⟨timer, htimer, hvalue, -⟩
  obtain ⟨huid, hplain, hinactive⟩ := hvacant uid sessionId session hsession hbound
  obtain ⟨flagged, hflagged, hactive⟩ := hagree _ _ huid hplain timer htimer hvalue
  have hsame : some session = some flagged := hsession.symm.trans hflagged
  cases hsame
  rw [hinactive] at hactive
  cases hactive

theorem disposesIdle_of_sparing {c : Settings} (h : (program c w event).Only Cmd.Sparing) : DisposesIdle c w event := by
  intro call hcall wsUuid ok hdispose
  have hsparing := h.of_mem_calls hcall
  rw [hdispose] at hsparing
  exact hsparing.elim

theorem disposesIdle_of_sparesUsed (c : Settings) (hagree : Agree w) (hspares : SparesUsed w event) :
    DisposesIdle c w event := by
  cases event with
  | expiry key disposed =>
    intro call hcall wsUuid ok hdispose
    simp only [issued, program, World.pass] at hcall
    split_ifs at hcall
    · obtain ⟨hwanes, hdisposal⟩ :=
        justified_handleCacheExpiry c.timeouts key disposed call hcall wsUuid (by rw [hdispose]; rfl)
      exact idle_of_wanes hwanes (idle_of_vacant hagree (hspares wsUuid hdisposal))
    · simp at hcall
  | _ => exact disposesIdle_of_sparing (program_sparing c w (by simp))

/-- In every run in which expiries dispose of vacant workspaces only, every workspace disposed of is idle at that
moment. -/
theorem disposesIdle_run (c : Settings) (events : List Event) (hspares : Along (step c) SparesUsed .empty events) :
    Along (step c) (DisposesIdle c) .empty events := by
  apply along_of_invariant _ _ agree_empty hspares
  · intro w event hagree _
    exact agree_step c hagree event
  · intro w event hagree hspares
    exact disposesIdle_of_sparesUsed c hagree hspares

/-- Alice leaves a workspace that nobody else is in. -/
def deserted : List Event :=
  [.connect "alice" "s1" "k1" "g1", .envReady "e1" "alice" "s1" "w1" true true, .disconnect "alice" "s1",
    .change (.wait 300000), .announce "presence:alice:s1:w1"]

def sparesUsedAmong (users : List String) (w : World) (key : String) : Bool :=
  (disposal w key).all fun wsUuid => users.all fun uid => ((w.presence uid).elim [] (·.entries)).all fun entry =>
    decide (entry.2.wsUuid = some wsUuid → Plain uid ∧ Plain entry.1 ∧ entry.2.state = .inactive)

theorem sparesUsed_of_among (users : List String) {key : String} {disposed : Bool}
    (husers : ∀ uid, uid ∉ users → w.presence uid = none) (h : sparesUsedAmong users w key = true) :
    SparesUsed w (.expiry key disposed) := by
  intro wsUuid hdisposal uid sessionId session hsession hbound
  obtain ⟨presence, hpresence, hfound⟩ := bind_eq_some_iff.mp hsession
  have huid : uid ∈ users := by
    by_contra habsent
    rw [husers uid habsent] at hpresence
    cases hpresence
  simp only [sparesUsedAmong, hdisposal, all_some, List.all_eq_true, decide_eq_true_eq] at h
  apply h uid huid (sessionId, session) _ hbound
  rw [hpresence]
  exact Dict.mem_entries.mpr hfound

theorem disposesIdle_deserted :
    (issued .default (run (step .default) .empty deserted) (.expiry "presence:alice:s1:w1" true)).any
        (fun call => decide (call.2 = .fetch (.dispose "w1") true)) = true ∧
      Along (step .default) (DisposesIdle .default) .empty (deserted ++ [.expiry "presence:alice:s1:w1" true]) := by
  refine ⟨by decide +kernel, ?_⟩
  apply disposesIdle_run
  rw [along_append]
  refine ⟨⟨trivial, trivial, trivial, trivial, trivial, trivial⟩, ?_, trivial⟩
  have hwritten : ∃ p q r s, (run (step .default) .empty deserted).presence = update (update
      (update (update (fun _ => none) "alice" p) "alice" q) "alice" r) "alice" s := ⟨_, _, _, _, rfl⟩
  obtain ⟨p, q, r, s, hwritten⟩ := hwritten
  refine sparesUsed_of_among ["alice"] ?_ (by decide +kernel)
  intro uid huid
  have hother : uid ≠ "alice" := by simpa using huid
  rw [hwritten]
  simp [update_of_ne hother]

/-- Bob opens the workspace before Alice's session expires. -/
def reopened : List Event :=
  [.connect "alice" "s1" "k1" "g1", .envReady "e1" "alice" "s1" "w1" true true, .disconnect "alice" "s1",
    .change (.wait 300000), .announce "presence:alice:s1:w1", .expiry "presence:alice:s1:w1" true,
    .change (.wait 50000), .connect "bob" "s2" "k2" "g1", .envReady "e1" "bob" "s2" "w1" true true,
    .change (.wait 10000), .announce "presence:alice:s1"]

def disposesUnder (uid sessionId wsUuid : String) (call : World × Cmd) : Bool :=
  decide (call.2 = .fetch (.dispose wsUuid) true) &&
    (call.1.session uid sessionId).any (fun session => decide (session.wsUuid = some wsUuid)) &&
    (call.1.timers (presenceSession uid sessionId)).any fun timer => timer.value = 1 && call.1.now < timer.expires

theorem not_disposesIdle (uid sessionId : String) {c : Settings} (wsUuid : String)
    (h : (issued c w event).any (disposesUnder uid sessionId wsUuid) = true) : ¬DisposesIdle c w event := by
  intro hidle
  obtain ⟨call, hcall, hunder⟩ := List.any_eq_true.mp h
  simp only [disposesUnder, Bool.and_eq_true, decide_eq_true_eq, any_eq_true] at hunder
  obtain ⟨⟨hdispose, session, hsession, hbound⟩, timer, htimer, hvalue, hexpires⟩ := hunder
  exact hidle call hcall wsUuid true hdispose uid sessionId session hsession hbound ⟨timer, htimer, hvalue, hexpires⟩

theorem disposed_in_use :
    ¬Along (step .default) (DisposesIdle .default) .empty (reopened ++ [.expiry "presence:alice:s1" true]) := by
  intro h
  have hlast := ((along_append _ _ _ _ _).mp h).2.1
  exact not_disposesIdle "bob" "s2" "w1" (by decide +kernel) hlast

end HideServer.Cache
