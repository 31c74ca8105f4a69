import HideServer.Cache.Conduct
import HideServer.Cache.Keys
import HideServer.Cache.Machine
import HideServer.Async.Triple

/-!
# How sessions and their keys change

The flag of a session is written and then its key, to match; an inactive session is removed and its
key stays; everything else leaves both alone. A condition on the flag and the value is kept by every
handler if it survives these.
-/

namespace HideServer.Cache

open Async Async.Prog Gateway Function Dict Option World

variable {sessionId : String} (uid wsUuid : String) {α : Type}

def Cmd.Tame : Cmd → Prop
  | .setPresence .. | .delPresence _ => False
  | .setTimer key _ _ | .delTimer key => ∀ uid sessionId, Plain uid → Plain sessionId → key ≠ presenceSession uid sessionId
  | _ => True

theorem presence_exec_tame (cmd : Cmd) (w : World) (htame : cmd.Tame) : (exec cmd w).2.presence = w.presence := by
  cases cmd with
  | setPresence uid presence | delPresence uid => exact htame.elim
  | acquire key duration | release key token =>
    simp only [exec]
    split <;> rfl
  | _ => rfl

theorem timers_exec_tame (cmd : Cmd) (w : World) (htame : cmd.Tame) {uid : String} (huid : Plain uid)
    (hsession : Plain sessionId) :
    (exec cmd w).2.timers (presenceSession uid sessionId) = w.timers (presenceSession uid sessionId) := by
  cases cmd with
  | setTimer key value ttl | delTimer key => exact update_of_ne (htame uid sessionId huid hsession).symm _ _
  | acquire key duration | release key token =>
    simp only [exec]
    split <;> rfl
  | _ => rfl

theorem acquired {key : String} {duration : Nat} {w : World} (hfree : ∀ lease ∈ w.locks key, lease.expires ≤ w.now) :
    (exec (.acquire key duration) w).1 = some w.token := by
  have hnone : ¬((w.locks key).any fun lease => w.now < lease.expires) = true := by
    rw [any_eq_true]
    rintro ⟨lease, hlease, hheld⟩
    exact absurd (hfree lease hlease) (by simpa using hheld)
  simp only [exec, if_neg hnone]

theorem emit_tame (message : Message) : (ask (.emit message)).Only Cmd.Tame :=
  .single trivial

def Cmd.Sparing : Cmd → Prop
  | .delWorkspace _ | .fetch (.dispose _) _ => False
  | _ => True

theorem tame : Rules Cmd.Tame (fun _ _ => True) (fun _ _ => True) fun _ => True where
  toRecordRules := by
    refine .free (fun cmd h => ?_) (fun _ _ => trivial) fun _ _ _ _ _ _ _ => presenceWorkspace_ne
    cases cmd <;> first | exact h.elim | trivial
  getPresence _ := trivial
  within _ _ _ _ _ _ := trivial
  lift _ _ _ _ _ := presenceWorkspace_ne

def Cmd.Winding : Cmd → Prop
  | .getPresence _ | .emit _ => True
  | .delTimer key => ∃ uid sessionId wsUuid, key = presenceWorkspace uid sessionId wsUuid
  | _ => False

theorem boundSessions_winding (uids : List String) : (boundSessions wsUuid uids).Only Cmd.Winding := by
  induction uids with
  | nil => trivial
  | cons uid uids ih =>
    apply Only.perform_bind trivial
    intro presence
    apply ih.bind
    intro rest
    split <;> trivial

theorem notifyExpiry_winding (workspace : Option CachedWorkspace) :
    (notifyExpiry wsUuid workspace).Only Cmd.Winding := by
  cases workspace with
  | none => trivial
  | some workspace =>
    refine (boundSessions_winding ..).bind fun sessions => ?_
    refine .bind (Only.each _ fun _ _ => ?_) fun _ => .each _ fun _ _ => ?_
    · exact ⟨⟨_, _, _, rfl⟩, fun _ => trivial⟩
    · exact .single trivial

theorem handleWorkspaceExpiry_tame (disposed : Bool) : (handleWorkspaceExpiry wsUuid disposed).Only Cmd.Tame :=
  (tame.handleWorkspaceExpiry ⟨trivial, trivial⟩).only

theorem handleWorkspaceExpiry_answer (disposed : Bool) (w : World) :
    (run exec (handleWorkspaceExpiry wsUuid disposed) w).1 = disposed := by
  simp only [handleWorkspaceExpiry, run_bind, run_perform]
  rfl

def flag : Liveness → Nat
  | .active => 1
  | .inactive => 0

/-- A condition on the flag of a session and the value of its key. -/
abbrev Condition := String → String → Option Liveness → Option Nat → Prop

/-- The condition holds of the flag of every session and the value of its key. Only ids without a colon count: the key
of another session may be the key of something else as well. -/
def Watched (Q : Condition) (w : World) : Prop :=
  ∀ uid sessionId, Plain uid → Plain sessionId →
    Q uid sessionId ((w.session uid sessionId).map (·.state)) ((w.timers (presenceSession uid sessionId)).map (·.value))

/-- A condition that survives what handlers do to a session. -/
structure Kept (Q : Condition) : Prop where
  set : ∀ uid sessionId state, Q uid sessionId (some state) (some (flag state))
  drop : ∀ uid sessionId value, Q uid sessionId (some .inactive) value → Q uid sessionId none value

def Besides (uid sessionId : String) (Q : Condition) : Condition :=
  fun other sessionId' state value => ¬(other = uid ∧ sessionId' = sessionId) → Q other sessionId' state value

theorem session_update (w : World) (uid : String) (presence : Option CachedPresence) (other sessionId : String) :
    session { w with presence := update w.presence uid presence } other sessionId =
      if other = uid then presence.bind (·.get? sessionId) else w.session other sessionId := by
  simp only [session, update_apply]
  split_ifs <;> rfl

/-- The key that goes with a flag. -/
def sessionTimer (t : Timeouts) (now : Nat) : Liveness → Timer
  | .active => ⟨1, now + t.sessionPing⟩
  | .inactive => ⟨0, now + t.sessionActivity⟩

theorem run_setSessionState (t : Timeouts) (presence : CachedPresence) (uid sessionId : String)
    (state : Liveness) (w : World) :
    run exec (setSessionState t presence uid sessionId state) w =
      (presence.modify sessionId ({ · with state := state }),
        { w with
          presence := update w.presence uid (some (presence.modify sessionId ({ · with state := state })))
          timers := update w.timers (presenceSession uid sessionId) (some (sessionTimer t w.now state)) }) := by
  cases state <;> rfl

theorem value_sessionTimer (t : Timeouts) (now : Nat) (state : Liveness) : (sessionTimer t now state).value = flag state := by
  cases state <;> rfl

section

variable {Q : Condition} {w : World} {uid sessionId : String}

theorem Watched.besides (hw : Watched Q w) (uid sessionId : String) : Watched (Besides uid sessionId Q) w :=
  fun other sessionId' hother hplain _ => hw other sessionId' hother hplain

theorem watched_exec_tame (cmd : Cmd) (w : World) (htame : cmd.Tame) (hw : Watched Q w) : Watched Q (exec cmd w).2 := by
  intro uid sessionId huid hsession
  rw [session, presence_exec_tame cmd w htame, timers_exec_tame cmd w htame huid hsession]
  exact hw uid sessionId huid hsession

theorem watched_rebind (hw : Watched Q w) {old presence : CachedPresence} (hold : w.presence uid = some old)
    (hflags : ∀ sessionId, (presence.get? sessionId).map (·.state) = (old.get? sessionId).map (·.state)) :
    Watched Q (exec (.setPresence uid presence) w).2 := by
  intro other sessionId hother hsession
  have hstate : ((exec (.setPresence uid presence) w).2.session other sessionId).map (·.state) =
      (w.session other sessionId).map (·.state) := by
    rw [exec, session_update]
    split_ifs with hsame
    · rw [hsame, session, hold]
      exact hflags sessionId
    · rfl
  rw [hstate]
  exact hw other sessionId hother hsession

theorem watched_setSessionState (h : Kept Q) (t : Timeouts) {presence : CachedPresence} (state : Liveness)
    (hw : Watched (Besides uid sessionId Q) w) (hsession : (presence.get? sessionId).isSome)
    (hothers : ∀ other, other ≠ sessionId → presence.get? other = (w.presence uid).bind (·.get? other)) :
    Watched Q (run exec (setSessionState t presence uid sessionId state) w).2 := by
  rw [run_setSessionState]
  intro other sessionId' hother hplain
  dsimp only
  by_cases hsame : other = uid ∧ sessionId' = sessionId
  · obtain ⟨rfl, rfl⟩ := hsame
    obtain ⟨session, hfound⟩ := isSome_iff_exists.mp hsession
    have hstate : (presence.modify sessionId' ({ · with state := state })).get? sessionId' =
        some { session with state := state } := by
      simp [get?_modify, hfound]
    simp only [World.session, update_self, bind_some, hstate, map_some, value_sessionTimer]
    exact h.set other sessionId' state
  · have hkey : presenceSession other sessionId' ≠ presenceSession uid sessionId := by
      intro heq
      obtain ⟨rfl, rfl⟩ := presenceSession_inj hother hplain heq.symm
      exact hsame ⟨rfl, rfl⟩
    have hkept := hw other sessionId' hother hplain hsame
    rw [update_of_ne hkey]
    by_cases huid : other = uid
    · subst huid
      have hne : sessionId' ≠ sessionId := fun heq => hsame ⟨rfl, heq⟩
      have hfound : (presence.modify sessionId ({ · with state := state })).get? sessionId' = w.session other sessionId' := by
        rw [get?_modify, if_neg hne, hothers sessionId' hne]
        rfl
      simp only [session, update_self, bind_some]
      rw [hfound]
      exact hkept
    · simp only [session, update_of_ne huid]
      exact hkept

theorem session_dropSession {presence : CachedPresence} (hcached : w.presence uid = some presence) (other sessionId' : String) :
    (run exec (dropSession presence uid sessionId) w).2.session other sessionId' =
      if other = uid ∧ sessionId' = sessionId then none else w.session other sessionId' := by
  have hsession : ∀ after, after.bind (·.get? sessionId') = (presence.erase sessionId).get? sessionId' →
      session { w with presence := update w.presence uid after } other sessionId' =
        if other = uid ∧ sessionId' = sessionId then none else w.session other sessionId' := by
    intro after hafter
    rw [session_update]
    by_cases huid : other = uid
    · subst huid
      rw [if_pos rfl, hafter, get?_erase, session, hcached]
      simp
    · rw [if_neg huid, if_neg fun hboth => huid hboth.1]
  unfold dropSession
  by_cases hempty : (presence.erase sessionId).entries = []
  · rw [if_pos hempty]
    refine hsession none ?_
    cases hfound : (presence.erase sessionId).get? sessionId' with
    | none => rfl
    | some session => simpa [hempty] using mem_entries.mpr hfound
  · rw [if_neg hempty]
    exact hsession (some (presence.erase sessionId)) rfl

theorem timers_dropSession (presence : CachedPresence) (w : World) :
    (run exec (dropSession presence uid sessionId) w).2.timers = w.timers := by
  unfold dropSession
  dsimp only
  split_ifs <;> rfl

theorem watched_dropSession {presence : CachedPresence} (hw : Watched (Besides uid sessionId Q) w)
    (hcached : w.presence uid = some presence) (hgone : Plain uid → Plain sessionId →
      Q uid sessionId none ((w.timers (presenceSession uid sessionId)).map (·.value))) :
    Watched Q (run exec (dropSession presence uid sessionId) w).2 := by
  intro other sessionId' hother hplain
  rw [session_dropSession hcached, timers_dropSession]
  split_ifs with hsame
  · obtain ⟨rfl, rfl⟩ := hsame
    exact hgone hother hplain
  · exact hw other sessionId' hother hplain hsame

end

abbrev Keeps (Q : Condition) (p : Io α) : Prop := Triple exec (Watched Q) p fun _ => Watched Q

/-- The condition is kept from where the presence of the user has been read. -/
abbrev KeepsFrom (Q : Condition) (uid : String) (cached : Option CachedPresence) (p : Io α) : Prop :=
  Triple exec (fun w => Watched Q w ∧ w.presence uid = cached) p fun _ => Watched Q

section

variable {Q : Condition} (h : Kept Q)

theorem triple_tame {p : Io α} (hp : p.Only Cmd.Tame) : Keeps Q p :=
  hp.triple watched_exec_tame

theorem triple_tame_read {p : Io α} (hp : p.Only Cmd.Tame) (uid : String) (cached : Option CachedPresence) :
    Triple exec (fun w => Watched Q w ∧ w.presence uid = cached) p fun _ w => Watched Q w ∧ w.presence uid = cached := by
  apply hp.triple
  intro cmd w htame hw
  rw [presence_exec_tame cmd w htame]
  exact ⟨watched_exec_tame cmd w htame hw.1, hw.2⟩

theorem triple_read :
    Triple exec (Watched Q) (ask (.getPresence uid)) fun cached w => Watched Q w ∧ w.presence uid = cached :=
  .perform fun _ hw => ⟨hw, rfl⟩

theorem triple_return {value : α} : Keeps Q (pure value) :=
  fun _ hw => hw

theorem triple_presence {uid : String} {f : Option CachedPresence → Io α} {post : α → World → Prop}
    (hnone : Triple exec (Watched Q) (f none) post)
    (hsome : ∀ presence, Triple exec (fun w => Watched Q w ∧ w.presence uid = some presence) (f (some presence)) post) :
    Triple exec (Watched Q) (ask (.getPresence uid) >>= f) post := by
  refine .bind (triple_read uid) fun cached => ?_
  cases cached with
  | none => exact .strengthen hnone fun _ hw => hw.1
  | some presence => exact hsome presence

theorem triple_acquire {key : String} {duration : Nat} {f : Option Nat → Io α} {post : α → World → Prop}
    (hnone : Triple exec (Watched Q) (f none) post) (hsome : ∀ token, Triple exec (Watched Q) (f (some token)) post) :
    Triple exec (Watched Q) (ask (.acquire key duration) >>= f) post := by
  refine .bind (triple_tame (.single trivial)) fun lock => ?_
  cases lock with
  | none => exact hnone
  | some token => exact hsome token

theorem triple_release {key : String} {token : Nat} : Keeps Q (ask (.release key token)) :=
  triple_tame (.single trivial)

theorem triple_rebind {uid : String} {old presence : CachedPresence}
    (hflags : ∀ sessionId, (presence.get? sessionId).map (·.state) = (old.get? sessionId).map (·.state)) :
    KeepsFrom Q uid (some old) (ask (.setPresence uid presence)) :=
  fun _ hw => watched_rebind hw.1 hw.2 hflags

theorem state_modify_wsUuid (presence : CachedPresence) (sessionId : String) (wsUuid : Option String) (other : String) :
    ((presence.modify sessionId ({ · with wsUuid := wsUuid })).get? other).map (·.state) =
      (presence.get? other).map (·.state) := by
  rw [get?_modify]
  split_ifs
  · rw [map_map]
    rfl
  · rfl

theorem state_unbound (presence : CachedPresence) (uuid sessionId : String) :
    ((Env.unbound presence uuid).get? sessionId).map (·.state) = (presence.get? sessionId).map
    (·.state) := by
  rw [Env.unbound, get?_mapValues, map_map]
  congr 1
  funext session
  simp only [comp_apply]
  split_ifs <;> rfl

theorem watched_invalidatePreviousSessions (uuid : String) : Keeps Q (Env.invalidatePreviousSessions uid uuid) := by
  refine triple_presence triple_return fun presence => ?_
  have hdel : (each (Env.boundTo presence uuid) fun sessionId =>
      ask (.delTimer (presenceWorkspace uid sessionId uuid))).Only Cmd.Tame :=
    .each _ fun sessionId _ => .single (tame.lift uid sessionId uuid)
  refine .bind (triple_tame_read hdel uid (some presence)) fun _ => ?_
  refine .bind (triple_rebind (state_unbound presence uuid)) fun _ => triple_tame (Safe.only (tame.read trivial ?_))
  exact fun _ _ => .bind (tame.closeDirs uid _ trivial) fun _ hafter => tame.store hafter

theorem watched_claimWorkspace (instanceId uid uuid : String) (affine : Bool) :
    Keeps Q (Env.claimWorkspace instanceId uid uuid affine) := by
  refine .bind (watched_invalidatePreviousSessions uid uuid) fun _ => triple_tame ?_
  apply Only.perform_bind trivial
  intro cached
  split
  · trivial
  · apply Only.perform_bind trivial
    intro ok
    apply Only.ite
    · trivial
    · exact .single trivial

theorem watched_bindSession (sessionId uuid : String) : Keeps Q (Env.bindSession uid sessionId uuid) := by
  refine triple_presence triple_return fun presence => ?_
  refine .ite (fun _ _ hw => hw.1) fun _ => ?_
  exact .bind (triple_rebind (state_modify_wsUuid presence sessionId (some uuid))) fun _ => triple_return

theorem watched_handleEnvReady (instanceId uid sessionId uuid : String) (ready affine : Bool) :
    Keeps Q (Env.handleEnvReady instanceId uid sessionId uuid ready affine) := by
  refine .bind (triple_tame (.single trivial)) fun reachable => ?_
  refine .ite (fun _ => triple_return) fun _ => ?_
  refine triple_acquire triple_return fun token => ?_
  refine .bind (watched_claimWorkspace instanceId uid uuid affine) fun claimed => ?_
  refine .bind triple_release fun _ => ?_
  refine .ite (fun _ => triple_return) fun _ => ?_
  refine .bind (watched_bindSession uid sessionId uuid) fun bound => ?_
  refine .ite (fun _ => triple_return) fun _ => ?_
  exact triple_tame (.single (tame.key uid sessionId 1 20000 trivial))

theorem watched_leaveWorkspace (wsActivity : Nat) (instanceId uid uuid : String) :
    Keeps Q (Env.leaveWorkspace wsActivity instanceId uid uuid) := by
  refine triple_presence triple_return fun presence => ?_
  dsimp only
  split
  · exact fun _ hw => hw.1
  · rename_i sessionId _
    refine .bind (triple_rebind (state_modify_wsUuid presence sessionId none)) fun _ => ?_
    refine .bind (triple_tame (.single (tame.lift uid sessionId uuid))) fun _ => ?_
    exact triple_tame (tame.closeAll uid sessionId wsActivity instanceId trivial).only

theorem watched_handleEnvClose (wsActivity : Nat) (instanceId uid uuid : String) (served : Bool) :
    Keeps Q (Env.handleEnvClose wsActivity instanceId uid uuid served) := by
  refine .bind (triple_tame (.single trivial)) fun isMember => ?_
  refine .ite (fun _ => triple_return) fun _ => ?_
  refine triple_acquire triple_return fun token => ?_
  exact .bind (watched_leaveWorkspace wsActivity instanceId uid uuid) fun _ => triple_release

include h

variable {presence : CachedPresence}

theorem triple_setSessionState (t : Timeouts) {cached : Option CachedPresence}
    {uid : String} (state : Liveness) (hsession : (presence.get? sessionId).isSome)
    (hothers : ∀ other, other ≠ sessionId → presence.get? other = cached.bind (·.get? other)) :
    KeepsFrom Q uid cached (setSessionState t presence uid sessionId state) := by
  rintro w ⟨hw, rfl⟩
  exact watched_setSessionState h t state (hw.besides uid sessionId) hsession hothers

theorem triple_dropSession {uid : String} {session : CachedSession}
    (hfound : presence.get? sessionId = some session) (hinactive : session.state = .inactive) :
    KeepsFrom Q uid (some presence) (dropSession presence uid sessionId) := by
  rintro w ⟨hw, hcached⟩
  refine watched_dropSession (hw.besides uid sessionId) hcached fun huid hsession => ?_
  have hstate := hw uid sessionId huid hsession
  rw [World.session, hcached, bind_some, hfound, map_some, hinactive] at hstate
  exact h.drop uid sessionId _ hstate

theorem watched_handleConnection (t : Timeouts) (uid sessionId socketId gatewayId : String) :
    Keeps Q (handleConnection t uid sessionId socketId gatewayId) := by
  refine triple_acquire triple_return fun token => ?_
  refine .bind (triple_read uid) fun cached => ?_
  refine .bind (triple_tame_read (tame.replaceSocket _).only uid cached) fun _ => ?_
  refine .bind (triple_setSessionState h t .active ?_ ?_) fun _ => ?_
  · simp [get?_set]
  · intro other hother
    rw [get?_set, if_neg hother]
    cases cached <;> rfl
  · exact .bind (triple_tame (tame.touchWorkspace _ _ _ (fun _ _ => trivial) _).only) fun _ => triple_release

theorem watched_handleDisconnect (t : Timeouts) (uid sessionId : String) :
    Keeps Q (handleDisconnect t uid sessionId) := by
  refine triple_acquire triple_return fun token => ?_
  refine triple_presence triple_return fun presence => ?_
  dsimp only
  cases hsession : presence.get? sessionId with
  | none => exact fun _ hw => hw.1
  | some session =>
    refine .bind (triple_setSessionState h t .inactive (by simp [hsession]) fun _ _ => rfl) fun _ => ?_
    exact .bind (triple_tame (tame.touchWorkspace _ _ _ (fun _ _ => trivial) _).only) fun _ => triple_release

theorem watched_handlePresenceMessage (t : Timeouts) {uid : String} (uuid : Option String)
    (served : Bool) (hsession : (presence.get? sessionId).isSome) :
    KeepsFrom Q uid (some presence) (handlePresenceMessage t uid sessionId presence uuid served) :=
  .bind (triple_setSessionState h t .active hsession fun _ _ => rfl) fun _ =>
    triple_tame (tame.refreshWorkspace _ _ _ (fun _ _ => trivial) _ _).only

theorem watched_handlePing (t : Timeouts) (uid sessionId : String) (uuid : Option String) (served : Bool) :
    Keeps Q (handlePing t uid sessionId uuid served) := by
  have hrefused : ∀ cached, Triple exec (fun w => Watched Q w ∧ w.presence uid = cached)
      (ask (.emit (.socketError "NO_SESSION"))) fun _ => Watched Q := fun _ _ hw => hw.1
  refine .bind (triple_read uid) fun cached => ?_
  cases cached with
  | none => exact hrefused none
  | some presence =>
    refine .ite (fun _ => hrefused _) fun hnone => ?_
    have hsession : (presence.get? sessionId).isSome := by simpa [isSome_iff_ne_none] using hnone
    refine .bind (watched_handlePresenceMessage h t uuid served hsession) fun awareness => ?_
    cases awareness with
    | none => exact triple_return
    | some uids => exact triple_tame (.single trivial)

theorem watched_handleSessionExpiry {uid : String} {session : CachedSession}
    (disposed : Bool) (hfound : presence.get? sessionId = some session) (hinactive : session.state = .inactive) :
    KeepsFrom Q uid (some presence) (handleSessionExpiry presence uid sessionId session disposed) := by
  refine .bind (triple_tame_read (emit_tame _) uid (some presence)) fun _ => ?_
  split
  · exact .bind (triple_dropSession h hfound hinactive) fun _ => triple_return
  · refine .bind (triple_tame_read (handleWorkspaceExpiry_tame ..) uid (some presence)) fun ok => ?_
    refine .ite (fun _ _ hw => hw.1) fun _ => ?_
    exact .bind (triple_dropSession h hfound hinactive) fun _ => triple_return

theorem watched_handleStaleSession (t : Timeouts) (uid sessionId : String) (disposed : Bool) :
    Keeps Q (handleStaleSession t uid sessionId disposed) := by
  refine triple_presence triple_return fun presence => ?_
  dsimp only
  cases hsession : presence.get? sessionId with
  | none => exact fun _ hw => hw.1
  | some session =>
    dsimp only
    cases hstate : session.state with
    | active =>
      refine .bind (triple_tame_read (tame.idleWorkspace _ _ _ fun _ _ => trivial).only uid (some presence)) fun _ => ?_
      exact .bind (triple_setSessionState h t .inactive (by simp [hsession]) fun _ _ => rfl) fun _ => triple_return
    | inactive => exact watched_handleSessionExpiry h disposed hsession hstate

theorem watched_handleCacheExpiry (t : Timeouts) (key : String) (disposed : Bool) :
    Keeps Q (handleCacheExpiry t key disposed) := by
  have hstale : Keeps Q (handleStaleKey t key disposed) := by
    refine .ite (fun _ => ?_) fun _ => triple_return
    unfold handleStalePresence
    split
    · exact watched_handleStaleSession h t _ _ disposed
    · exact triple_tame (tame.handleStaleWorkspace t _ _ fun _ _ => ⟨trivial, trivial, trivial⟩).only
  exact triple_acquire triple_return fun token => .bind hstale fun ok => .ite (fun _ => triple_release) fun _ => triple_return

theorem watched_program (c : Settings) (w : World) (event : Event) : Keeps Q (program c w event) := by
  cases event with
  | connect uid sessionId socketId gatewayId => exact watched_handleConnection h c.timeouts uid sessionId socketId gatewayId
  | disconnect uid sessionId => exact watched_handleDisconnect h c.timeouts uid sessionId
  | ping uid sessionId uuid served => exact watched_handlePing h c.timeouts uid sessionId uuid served
  | expiry key disposed =>
    exact .ite (fun _ => watched_handleCacheExpiry h c.timeouts key disposed) fun _ => triple_return
  | envReady instanceId uid sessionId uuid ready affine =>
    exact watched_handleEnvReady instanceId uid sessionId uuid ready affine
  | envClose instanceId uid uuid served => exact watched_handleEnvClose c.envWsActivity instanceId uid uuid served
  | openDir uid uuid path listed => exact triple_tame (tame.openDir uid uuid path listed).only
  | closeDir uid uuid path => exact triple_tame (tame.updateCache uid uuid path false).only
  | change change | announce key => exact triple_return

end

end HideServer.Cache
