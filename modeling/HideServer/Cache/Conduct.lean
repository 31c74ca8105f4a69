import HideServer.Cache.Clearing
import HideServer.Env.Workspace
import HideServer.Gateway.Socket

/-!
# What the handlers do with the cache

A handler writes a record that it has read, hardly changed; it sets keys of workspaces that a session
is bound to; and it writes a presence that it has read, with sessions bound to nothing else.
-/

namespace HideServer.Cache

open Async Gateway Env

def Cmd.Minor : Cmd → Prop
  | .getWorkspace _ | .getMembership _ | .setMembership .. | .membershipCheck .. | .acquire .. | .release .. | .emit _ => True
  | .fetch (.dispose _) _ => False
  | .fetch .. => True
  | _ => False

/-- Every binding in a presence is to such a workspace. -/
def Within (B : String → Prop) (presence : CachedPresence) : Prop :=
  ∀ sessionId session, presence.get? sessionId = some session → ∀ wsUuid ∈ session.wsUuid, B wsUuid

structure RecordRules (ok : Cmd → Prop) (good : (cmd : Cmd) → cmd.Answer → Prop) (R : String → CachedWorkspace → Prop)
    (B : String → Prop) : Prop where
  minor {cmd : Cmd} : cmd.Minor → ok cmd
  found {uuid : String} {workspace : CachedWorkspace} : good (.getWorkspace uuid) (some workspace) → R uuid workspace
  write {uuid : String} {workspace : CachedWorkspace} : R uuid workspace → ok (.setWorkspace uuid workspace)
  same {uuid : String} {workspace after : CachedWorkspace} : R uuid workspace → after.dirs = workspace.dirs → R uuid after
  watching {uuid : String} {workspace : CachedWorkspace} (uid path : String) :
    R uuid workspace → R uuid (watching workspace uid path)
  splice {uuid : String} {workspace : CachedWorkspace} (uid path : String) :
    R uuid workspace → R uuid (setWatchers workspace path (splice ((workspace.dirs.get? path).getD []) uid))
  key (uid sessionId : String) {wsUuid : String} (value ttl : Nat) :
    B wsUuid → ok (.setTimer (presenceWorkspace uid sessionId wsUuid) value ttl)

structure Rules (ok : Cmd → Prop) (good : (cmd : Cmd) → cmd.Answer → Prop) (R : String → CachedWorkspace → Prop)
    (B : String → Prop) : Prop extends RecordRules ok good R B where
  getPresence (uid : String) : ok (.getPresence uid)
  within {uid : String} {presence : CachedPresence} : good (.getPresence uid) (some presence) → Within B presence
  lift (uid sessionId wsUuid : String) : ok (.delTimer (presenceWorkspace uid sessionId wsUuid))

/-- Every command is in the class if the answers are good. -/
abbrev Heeds (ok : Cmd → Prop) (good : (cmd : Cmd) → cmd.Answer → Prop) {α : Type} (p : Io α) : Prop :=
  p.Safe ok good fun _ => True

variable {ok : Cmd → Prop} {good : (cmd : Cmd) → cmd.Answer → Prop} {R : String → CachedWorkspace → Prop}
  {B : String → Prop} {α : Type}

theorem RecordRules.free (hminor : ∀ cmd : Cmd, cmd.Minor → ok cmd) (hwrite : ∀ uuid workspace, ok (.setWorkspace uuid workspace))
    (hkey : ∀ uid sessionId wsUuid value ttl, ok (.setTimer (presenceWorkspace uid sessionId wsUuid) value ttl)) :
    RecordRules ok (fun _ _ => True) (fun _ _ => True) fun _ => True where
  minor h := hminor _ h
  found _ := trivial
  write _ := hwrite _ _
  same _ _ := trivial
  watching _ _ _ := trivial
  splice _ _ _ := trivial
  key uid sessionId _ value ttl _ := hkey uid sessionId _ value ttl

theorem given_bound {bound : Option String} (hbound : ∀ wsUuid ∈ bound, B wsUuid) {wsUuid : String}
    (hgiven : given bound = some wsUuid) : ∀ other ∈ some wsUuid, B other := by
  rintro _ ⟨⟩
  exact hbound wsUuid (Option.filter_eq_some_iff.mp hgiven).1

namespace RecordRules

variable (h : RecordRules ok good R B) (t : Timeouts) (uid sessionId : String)
include h

theorem ask {cmd : Cmd} (hcmd : cmd.Minor) : Heeds ok good (ask cmd) := .single (h.minor hcmd)

theorem emitIf {c : Prop} [Decidable c] (message : Message) : Heeds ok good (if c then Cache.ask (.emit message) else pure ()) :=
  .ite (fun _ => h.ask trivial) fun _ => trivial

variable {workspace : CachedWorkspace} {uuid : String}

theorem store (hworkspace : R uuid workspace) : Heeds ok good (Cache.ask (.setWorkspace uuid workspace)) :=
  .single (h.write hworkspace)

theorem read {f : Option CachedWorkspace → Io α} (hnone : Heeds ok good (f none))
    (hsome : ∀ workspace, R uuid workspace → Heeds ok good (f (some workspace))) :
    Heeds ok good (Cache.ask (.getWorkspace uuid) >>= f) := by
  refine .perform_bind (h.minor trivial) fun cached hcached => ?_
  cases cached with
  | none => exact hnone
  | some workspace => exact hsome workspace (h.found hcached)

variable {wsUuid : Option String}

theorem setWorkspaceState {cached : Option CachedWorkspace}
    (hbound : ∀ bound ∈ wsUuid, B bound ∧ ∀ workspace ∈ cached, R bound workspace) (state : Liveness) :
    Heeds ok good (setWorkspaceState t cached uid sessionId wsUuid state) := by
  unfold Gateway.setWorkspaceState
  split
  · rename_i workspace bound hgiven
    obtain ⟨hkey, hworkspace⟩ := hbound bound (Option.filter_eq_some_iff.mp hgiven).1
    refine .perform_bind (h.write (h.same (hworkspace workspace rfl) rfl)) fun _ _ => ?_
    cases state <;> exact .single (h.key uid sessionId _ _ hkey)
  · trivial

theorem cached {cached : Option CachedWorkspace} (hbound : ∀ bound ∈ wsUuid, B bound)
    (hcached : good (.getWorkspace (rendered wsUuid)) cached) :
    ∀ bound ∈ wsUuid, B bound ∧ ∀ workspace ∈ cached, R bound workspace := by
  rintro bound rfl
  refine ⟨hbound bound rfl, ?_⟩
  rintro workspace rfl
  exact h.found hcached

theorem touchWorkspace (hbound : ∀ bound ∈ wsUuid, B bound) (state : Liveness) :
    Heeds ok good (touchWorkspace t uid sessionId wsUuid state) :=
  .perform_bind (h.minor trivial) fun _ hcached => h.setWorkspaceState t uid sessionId (h.cached hbound hcached) state

theorem replaceSocket (session : Option CachedSession) : Heeds ok good (replaceSocket session) := by
  cases session with
  | none => trivial
  | some session => exact h.emitIf _

theorem checkMembership (wsUuid : String) (served : Bool) : Heeds ok good (checkMembership uid wsUuid served) := by
  refine .perform_bind (h.minor trivial) fun cached _ => ?_
  split
  · trivial
  · refine .perform_bind (h.minor trivial) fun isMember _ => .ite (fun _ => trivial) fun _ => ?_
    exact .bind (h.ask trivial) fun _ _ => trivial

theorem refreshWorkspace {bound : Option String} (hbound : ∀ wsUuid ∈ bound, B wsUuid) (uuid : Option String) (served : Bool) :
    Heeds ok good (refreshWorkspace t uid sessionId bound uuid served) := by
  unfold Gateway.refreshWorkspace
  cases hgiven : given bound with
  | none => trivial
  | some wsUuid =>
    refine .ite (fun _ => trivial) fun _ => .bind (h.checkMembership uid wsUuid served) fun isMember _ => ?_
    split
    · refine .perform_bind (h.minor trivial) fun cached hcached => ?_
      exact .bind (h.setWorkspaceState t uid sessionId (h.cached (given_bound hbound hgiven) hcached) .active) fun _ _ => trivial
    · trivial

theorem idleWorkspace (hbound : ∀ bound ∈ wsUuid, B bound) : Heeds ok good (idleWorkspace t uid sessionId wsUuid) := by
  unfold Gateway.idleWorkspace
  cases hgiven : given wsUuid with
  | none => trivial
  | some bound =>
    refine .perform_bind (h.minor trivial) fun cached hcached => ?_
    exact h.setWorkspaceState t uid sessionId (h.cached (given_bound hbound hgiven) hcached) .inactive

theorem updated (hworkspace : R uuid workspace) (uid path : String) (add : Bool) :
    R uuid (FSService.updated uid path add workspace) := by
  cases add with
  | true => exact h.watching uid path hworkspace
  | false =>
    simp only [FSService.updated, Bool.false_eq_true, if_false, unwatching]
    cases hpath : workspace.dirs.get? path with
    | none => exact hworkspace
    | some watchers =>
      have hspliced := h.splice uid path hworkspace
      rw [hpath] at hspliced
      dsimp only
      split_ifs
      · exact hspliced
      · exact hworkspace

theorem updateCache (wsUuid path : String) (add : Bool) : Heeds ok good (FSService.updateCache uid wsUuid path add) :=
  h.read trivial fun _ hworkspace => .bind (h.emitIf _) fun _ _ => h.store (h.updated hworkspace uid path add)

theorem openDir (uuid path : String) (listed : Bool) : Heeds ok good (FSService.openDir uid uuid path listed) := by
  refine .perform_bind (h.minor trivial) fun _ _ => .perform_bind (h.minor trivial) fun ok _ => ?_
  exact .ite (fun _ => h.updateCache uid uuid path true) fun _ => trivial

theorem closeDirs {wsUuid : String} (paths : List String) (hworkspace : R wsUuid workspace) :
    (FSService.closeDirs uid wsUuid paths workspace).Safe ok good (R wsUuid) := by
  induction paths generalizing workspace with
  | nil => exact hworkspace
  | cons path paths ih => exact .bind (h.emitIf _) fun _ _ => ih (h.splice uid path hworkspace)

theorem updateConnCache (instanceId sessionId wsUuid : String) (add : Bool) :
    Heeds ok good (SSHProxyService.updateConnCache instanceId sessionId wsUuid add) :=
  h.read trivial fun _ hworkspace => h.store (h.same hworkspace rfl)

theorem handleSSHClose (instanceId sessionId wsUuid : String) :
    Heeds ok good (SSHProxyService.handleSSHClose instanceId uid sessionId wsUuid) :=
  .bind (h.ask trivial) fun _ _ => h.updateConnCache instanceId sessionId wsUuid false

theorem closeAll (wsActivity : Nat) (instanceId : String) (hbound : B uuid) :
    Heeds ok good (closeAll wsActivity instanceId uid sessionId uuid) := by
  have hidle : Heeds ok good (markIdle wsActivity uid sessionId uuid) := by
    refine h.read trivial fun workspace hworkspace => .ite (fun _ => ?_) fun _ => trivial
    exact .perform_bind (h.write (h.same hworkspace rfl)) fun _ _ => .single (h.key uid sessionId _ _ hbound)
  refine h.read trivial fun workspace _ => .bind (h.handleSSHClose uid instanceId sessionId uuid) fun _ _ => ?_
  exact .bind (.each _ fun path _ => h.updateCache uid uuid path false) fun _ _ => hidle

end RecordRules

namespace Within

variable {presence : CachedPresence} (h : Within B presence) (sessionId : String)

theorem empty : Within B (.empty : CachedPresence) := by
  rintro sessionId session ⟨⟩

include h

theorem modify {f : CachedSession → CachedSession}
    (hf : ∀ session, (∀ wsUuid ∈ session.wsUuid, B wsUuid) → ∀ wsUuid ∈ (f session).wsUuid, B wsUuid) :
    Within B (presence.modify sessionId f) := by
  intro other session hfound
  rw [Dict.get?_modify] at hfound
  split_ifs at hfound
  · obtain ⟨old, hold, rfl⟩ := Option.map_eq_some_iff.mp hfound
    exact hf old (h other old hold)
  · exact h other session hfound

theorem unbind : Within B (presence.modify sessionId ({ · with wsUuid := none })) := by
  refine h.modify sessionId fun session _ => ?_
  rintro wsUuid ⟨⟩

theorem erase : Within B (presence.erase sessionId) := by
  intro other session hfound
  rw [Dict.get?_erase] at hfound
  split_ifs at hfound
  exact h other session hfound

theorem bound : ∀ wsUuid ∈ (presence.get? sessionId).bind (·.wsUuid), B wsUuid := by
  intro wsUuid hws
  obtain ⟨session, hfound, hws⟩ := Option.bind_eq_some_iff.mp hws
  exact h sessionId session hfound wsUuid hws

theorem connected (socketId gatewayId : String) :
    Within B (presence.set sessionId (connected (presence.get? sessionId) socketId gatewayId)) := by
  intro other found hfound
  rw [Dict.get?_set] at hfound
  split_ifs at hfound
  · cases hfound
    exact h.bound sessionId
  · exact h other found hfound

theorem unbound (uuid : String) : Within B (unbound presence uuid) := by
  intro sessionId session hfound
  rw [Env.unbound, Dict.get?_mapValues] at hfound
  obtain ⟨old, hold, rfl⟩ := Option.map_eq_some_iff.mp hfound
  split_ifs
  · rintro wsUuid ⟨⟩
  · exact h sessionId old hold

section

variable {uid : String} (hset : ∀ presence, Within B presence → ok (.setPresence uid presence))
include hset

theorem dropSession (hdel : ok (.delPresence uid)) : Heeds ok good (dropSession presence uid sessionId) :=
  .ite (fun _ => .single hdel) fun _ => .single (hset _ (h.erase sessionId))

theorem setSessionState (t : Timeouts) {sessionId : String}
    (hkey : ∀ value ttl, ok (.setTimer (presenceSession uid sessionId) value ttl)) (state : Liveness) :
    (setSessionState t presence uid sessionId state).Safe ok good (Within B) := by
  have hmodified : Within B (presence.modify sessionId ({ · with state := state })) := h.modify sessionId fun _ h => h
  refine .perform_bind (hset _ hmodified) fun _ _ => ?_
  cases state <;> exact .perform_bind (hkey _ _) fun _ _ => hmodified

end

end Within

namespace Rules

variable (h : Rules ok good R B) (t : Timeouts) {uid sessionId : String}
include h

theorem presence {f : Option CachedPresence → Io α} (hnone : Heeds ok good (f none))
    (hsome : ∀ presence, Within B presence → Heeds ok good (f (some presence))) :
    Heeds ok good (Cache.ask (.getPresence uid) >>= f) := by
  refine .perform_bind (h.getPresence uid) fun cached hcached => ?_
  cases cached with
  | none => exact hnone
  | some presence => exact hsome presence (h.within hcached)

theorem lifts (wsUuid : String) (sessions : List (String × String)) :
    Heeds ok good (Prog.each sessions fun session => Cache.ask (.delTimer (presenceWorkspace session.1 session.2 wsUuid))) :=
  .each _ fun session _ => .single (h.lift session.1 session.2 wsUuid)

theorem notifyExpiry (wsUuid : String) (cached : Option CachedWorkspace) : Heeds ok good (notifyExpiry wsUuid cached) := by
  have hbound (uids : List String) : Heeds ok good (boundSessions wsUuid uids) := by
    induction uids with
    | nil => trivial
    | cons uid uids ih =>
      refine .perform_bind (h.getPresence uid) fun presence _ => .bind ih fun rest _ => ?_
      split <;> trivial
  cases cached with
  | none => trivial
  | some workspace =>
    refine .bind (hbound _) fun sessions _ => .bind (h.lifts wsUuid sessions) fun _ _ => ?_
    exact .each _ fun _ _ => h.ask trivial

variable {disposed : Bool} {wsUuid : String}

theorem handleWorkspaceExpiry (htear : ok (.delWorkspace wsUuid) ∧ ok (.fetch (.dispose wsUuid) disposed)) :
    Heeds ok good (handleWorkspaceExpiry wsUuid disposed) := by
  refine .perform_bind (h.minor trivial) fun cached _ => .bind (h.notifyExpiry wsUuid cached) fun _ _ => ?_
  exact .perform_bind htear.1 fun _ _ => .single htear.2

theorem handleStaleWorkspace (uid sessionId : String) (hbound : ∀ workspace, R wsUuid workspace →
      B wsUuid ∧ ok (.delWorkspace wsUuid) ∧ ok (.fetch (.dispose wsUuid) disposed)) :
    Heeds ok good (handleStaleWorkspace t uid sessionId wsUuid disposed) := by
  refine h.read trivial fun workspace hworkspace => ?_
  obtain ⟨hbound, htear⟩ := hbound workspace hworkspace
  dsimp only
  split
  · refine .bind (h.setWorkspaceState t uid sessionId ?_ .inactive) fun _ _ => trivial
    rintro _ ⟨⟩
    refine ⟨hbound, ?_⟩
    rintro _ ⟨⟩
    exact hworkspace
  · exact h.handleWorkspaceExpiry htear

section

variable (hset : ∀ presence, Within B presence → ok (.setPresence uid presence))
include hset

theorem invalidatePreviousSessions (uuid : String) : Heeds ok good (invalidatePreviousSessions uid uuid) := by
  refine h.presence trivial fun presence hpresence => ?_
  refine .bind (.each _ fun sessionId _ => .single (h.lift uid sessionId uuid)) fun _ _ => ?_
  refine .perform_bind (hset _ (hpresence.unbound uuid)) fun _ _ => h.read trivial fun workspace hworkspace => ?_
  exact .bind (h.closeDirs uid _ hworkspace) fun _ hafter => h.store hafter

theorem claimWorkspace {instanceId uuid : String} (hnew : R uuid ⟨.active, instanceId, .empty, .empty, .empty⟩) (affine : Bool) :
    Heeds ok good (claimWorkspace instanceId uid uuid affine) := by
  refine .bind (h.invalidatePreviousSessions hset uuid) fun _ _ => .perform_bind (h.minor trivial) fun cached hcached => ?_
  have hreadied : ∀ workspace, readied instanceId cached = some workspace → R uuid workspace := by
    intro workspace hworkspace
    cases cached with
    | none =>
      cases hworkspace
      exact hnew
    | some found =>
      simp only [readied] at hworkspace
      split_ifs at hworkspace
      cases hworkspace
      exact h.same (h.found hcached) rfl
  split
  · trivial
  · rename_i workspace hworkspace
    refine .perform_bind (h.minor trivial) fun ok _ => .ite (fun _ => trivial) fun _ => ?_
    exact .perform_bind (h.write (hreadied workspace hworkspace)) fun _ _ => trivial

theorem handleEnvReady {instanceId uuid : String} (hnew : R uuid ⟨.active, instanceId, .empty, .empty, .empty⟩)
    (hbound : B uuid) (sessionId : String) (ready affine : Bool) :
    Heeds ok good (handleEnvReady instanceId uid sessionId uuid ready affine) := by
  have hbind : Heeds ok good (bindSession uid sessionId uuid) := by
    refine h.presence trivial fun presence hpresence => .ite (fun _ => trivial) fun _ => ?_
    refine .perform_bind (hset _ (hpresence.modify sessionId fun session _ => ?_)) fun _ _ => trivial
    rintro wsUuid ⟨⟩
    exact hbound
  refine .perform_bind (h.minor trivial) fun reachable _ => .ite (fun _ => trivial) fun _ => ?_
  refine safe_acquire (h.minor trivial) trivial fun token => .bind (h.claimWorkspace hset hnew affine) fun claimed _ => ?_
  refine .perform_bind (h.minor trivial) fun _ _ => .ite (fun _ => trivial) fun _ => .bind hbind fun bound _ => ?_
  exact .ite (fun _ => trivial) fun _ => .single (h.key uid sessionId _ _ hbound)

theorem handleEnvClose (wsActivity : Nat) (instanceId uuid : String) (served : Bool) :
    Heeds ok good (handleEnvClose wsActivity instanceId uid uuid served) := by
  have hleave : Heeds ok good (leaveWorkspace wsActivity instanceId uid uuid) := by
    refine h.presence trivial fun presence hpresence => ?_
    dsimp only
    cases hbound : boundSession presence uuid with
    | none => trivial
    | some sessionId =>
      obtain ⟨-, session, hsession, hws⟩ := boundSession_some hbound
      refine .perform_bind (hset _ (hpresence.unbind sessionId)) fun _ _ => .perform_bind (h.lift ..) fun _ _ => ?_
      exact h.closeAll uid sessionId wsActivity instanceId (hpresence sessionId session hsession uuid hws)
  refine .perform_bind (h.minor trivial) fun isMember _ => .ite (fun _ => trivial) fun _ => ?_
  exact safe_acquire (h.minor trivial) trivial fun token => .bind hleave fun _ _ => h.ask trivial

variable (hkey : ∀ value ttl, ok (.setTimer (presenceSession uid sessionId) value ttl))
include hkey

theorem handleConnection (socketId gatewayId : String) : Heeds ok good (handleConnection t uid sessionId socketId gatewayId) := by
  refine safe_acquire (h.minor trivial) trivial fun token => .perform_bind (h.getPresence uid) fun cached hcached => ?_
  have hwithin : Within B (cached.getD .empty) := by
    cases cached with
    | none => exact .empty
    | some presence => exact h.within hcached
  refine .bind (h.replaceSocket _) fun _ _ => ?_
  refine .bind ((hwithin.connected sessionId socketId gatewayId).setSessionState hset t hkey .active) fun _ _ => ?_
  exact .bind (h.touchWorkspace t uid sessionId (hwithin.bound sessionId) .active) fun _ _ => h.ask trivial

theorem handleDisconnect : Heeds ok good (handleDisconnect t uid sessionId) := by
  refine safe_acquire (h.minor trivial) trivial fun token => h.presence trivial fun presence hpresence => ?_
  dsimp only
  cases hfound : presence.get? sessionId with
  | none => trivial
  | some session =>
    refine .bind (hpresence.setSessionState hset t hkey .inactive) fun _ _ => ?_
    exact .bind (h.touchWorkspace t uid sessionId (hpresence sessionId session hfound) .inactive) fun _ _ => h.ask trivial

theorem handlePing (uuid : Option String) (served : Bool) : Heeds ok good (handlePing t uid sessionId uuid served) := by
  refine h.presence (h.ask trivial) fun presence hpresence => .ite (fun _ => h.ask trivial) fun _ => ?_
  have hmessage : Heeds ok good (handlePresenceMessage t uid sessionId presence uuid served) :=
    .bind (hpresence.setSessionState hset t hkey .active) fun after hafter =>
      h.refreshWorkspace t uid sessionId (hafter.bound sessionId) uuid served
  refine .bind hmessage fun uids _ => ?_
  cases uids with
  | none => trivial
  | some uids => exact h.ask trivial

theorem handleStaleSession (hdel : ok (.delPresence uid)) {disposed : Bool}
    (htear : ∀ wsUuid, B wsUuid → ok (.delWorkspace wsUuid) ∧ ok (.fetch (.dispose wsUuid) disposed)) :
    Heeds ok good (handleStaleSession t uid sessionId disposed) := by
  refine h.presence trivial fun presence hpresence => ?_
  dsimp only
  cases hfound : presence.get? sessionId with
  | none => trivial
  | some session =>
    have hbound := hpresence sessionId session hfound
    have hdrop : Heeds ok good (dropSession presence uid sessionId) := hpresence.dropSession sessionId hset hdel
    dsimp only
    split
    · refine .bind (h.idleWorkspace t uid sessionId hbound) fun _ _ => ?_
      exact .bind (hpresence.setSessionState hset t hkey .inactive) fun _ _ => trivial
    · refine .perform_bind (h.minor trivial) fun _ _ => ?_
      cases hgiven : given session.wsUuid with
      | none => exact .bind hdrop fun _ _ => trivial
      | some wsUuid =>
        refine .bind (h.handleWorkspaceExpiry (htear wsUuid (given_bound hbound hgiven wsUuid rfl))) fun ok _ => ?_
        exact .ite (fun _ => trivial) fun _ => .bind hdrop fun _ _ => trivial

end

theorem handleCacheExpiry {key : String}
    (hsession : (split key).head? = some "presence" → given (split key).tail[2]? = none → Heeds ok good
      (Gateway.handleStaleSession t (rendered (split key).tail[0]?) (rendered (split key).tail[1]?) disposed))
    (hworkspace : ∀ wsUuid ∈ (split key).tail[2]?, Heeds ok good
      (Gateway.handleStaleWorkspace t (rendered (split key).tail[0]?) (rendered (split key).tail[1]?) wsUuid disposed)) :
    Heeds ok good (handleCacheExpiry t key disposed) := by
  have hstale : Heeds ok good (handleStaleKey t key disposed) := by
    refine .ite (fun hhead => ?_) fun _ => trivial
    unfold handleStalePresence
    cases hgiven : given (split key).tail[2]? with
    | none => exact hsession hhead hgiven
    | some wsUuid => exact hworkspace wsUuid (Option.filter_eq_some_iff.mp hgiven).1
  refine safe_acquire (h.minor trivial) trivial fun token => .bind hstale fun ok _ => ?_
  exact .ite (fun _ => h.ask trivial) fun _ => trivial

theorem clearCacheOnDelete (hset : ∀ uid presence, Within B presence → ok (.setPresence uid presence))
    (hdel : ok (.delWorkspace wsUuid)) (members : List String) : Heeds ok good (clearCacheOnDelete members wsUuid) := by
  have hpresences (uids : List String) :
      (presencesOf uids).Safe ok good fun entries => ∀ entry ∈ entries, Within B entry.2 := by
    induction uids with
    | nil => simp [presencesOf]
    | cons uid uids ih =>
      refine .perform_bind (h.getPresence uid) fun cached hcached => .bind ih fun rest hrest => ?_
      cases cached with
      | none => exact hrest
      | some presence => exact List.forall_mem_cons.mpr ⟨h.within hcached, hrest⟩
  refine .bind (hpresences members) fun entries hentries => .bind (.each _ fun entry hentry => ?_) fun _ _ => ?_
  · unfold unbindFirst
    split
    · trivial
    · refine .perform_bind (h.minor trivial) fun _ _ => .perform_bind (h.lift ..) fun _ _ => ?_
      exact .single (hset entry.1 _ ((hentries entry hentry).unbind _))
  · exact .single hdel

end Rules

end HideServer.Cache
