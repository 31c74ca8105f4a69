import HideServer.Async.Trace
import HideServer.Cache.Upkeep

/-!
# Every session is on a clock

The key of a session is running, or its expiry is still to be handled. The operations that write
presences run one after the other here; an expiry is handled once, at any later point. Keys run out
at all only if their timeouts are positive: keyv keeps a key with the timeout 0 for ever.
-/

namespace HideServer.Cache.Clock

open Async Async.Prog Gateway Trace

inductive Event where
  | connect (uid sessionId socketId gatewayId : String)
  | disconnect (uid sessionId : String)
  | ping (uid sessionId : String) (uuid : Option String) (served : Bool)
  | expire (key : String)
  /-- The handler of an expiry that is still to be handled. -/
  | handle (key : String) (disposed : Bool)
  | envReady (instanceId uid sessionId uuid : String) (ready affine : Bool)
  | envClose (instanceId uid uuid : String) (served : Bool)
  | invalidate (uid uuid : String)
  | clearCacheOnDelete (members : List String) (wsUuid : String)
  | removeCaches (uid : String)
  | change (change : Change)
  deriving DecidableEq, Repr

def program (c : Settings) (w : World) : Event → Io Unit
  | .connect uid sessionId socketId gatewayId => handleConnection c.timeouts uid sessionId socketId gatewayId
  | .disconnect uid sessionId => handleDisconnect c.timeouts uid sessionId
  | .ping uid sessionId uuid served => handlePing c.timeouts uid sessionId uuid served
  | .handle key disposed => if key ∈ w.announced then handleCacheExpiry c.timeouts key disposed else return ()
  | .envReady instanceId uid sessionId uuid ready affine => Env.handleEnvReady instanceId uid sessionId uuid ready affine
  | .envClose instanceId uid uuid served => Env.handleEnvClose c.envWsActivity instanceId uid uuid served
  | .invalidate uid uuid => Env.invalidatePreviousSessions uid uuid
  | .clearCacheOnDelete members wsUuid => Cache.clearCacheOnDelete members wsUuid
  | .removeCaches uid => Cache.removeCaches uid
  | .expire _ | .change _ => return ()

def pass (w : World) : Event → World
  | .expire key => w.announce key
  | .handle key _ => { w with announced := w.announced.erase key }
  | .change change => w.change change
  | _ => w

def step (c : Settings) (w : World) (event : Event) : World := (run exec (program c w event) (pass w event)).2

/-- The handler of an expiry gets its lock and its pod is disposed of. -/
def Completes (w : World) : Event → Prop
  | .handle key disposed => disposed = true ∧ ∀ lease ∈ w.locks ("locks:" ++ key), lease.expires ≤ w.now
  | _ => True

instance (w : World) : (event : Event) → Decidable (Completes w event)
  | .handle key disposed =>
    inferInstanceAs (Decidable (disposed = true ∧ ∀ lease ∈ w.locks ("locks:" ++ key), lease.expires ≤ w.now))
  | .connect .. | .disconnect .. | .ping .. | .expire _ | .envReady .. | .envClose .. => .isTrue trivial
  | .invalidate .. | .clearCacheOnDelete .. | .removeCaches _ | .change _ => .isTrue trivial

/-- The value of a key goes with the flag of its session. -/
def Matches (timer : Timer) (session : CachedSession) : Prop :=
  (timer.value = 1 ↔ session.state = .active) ∧ (timer.value = 0 ↔ session.state = .inactive)

/-- Every session has a matching key, or its expiry is to be handled. -/
def OnClock (w : World) : Prop :=
  ∀ uid sessionId session, Plain uid → Plain sessionId → w.session uid sessionId = some session →
    (∃ timer, w.timers (presenceSession uid sessionId) = some timer ∧ Matches timer session) ∨
      presenceSession uid sessionId ∈ w.announced

def Running (pending : List String) (uid sessionId : String) (state : Option Liveness) (value : Option Nat) : Prop :=
  ∀ flagged, state = some flagged → value = some (flag flagged) ∨ presenceSession uid sessionId ∈ pending

theorem kept_running (pending : List String) : Kept (Running pending) := by
  constructor
  · rintro uid sessionId state _ ⟨⟩
    exact .inl rfl
  · rintro uid sessionId value - flagged hnone
    cases hnone

theorem matches_iff (timer : Timer) (session : CachedSession) : Matches timer session ↔ timer.value = flag session.state := by
  unfold Matches
  cases session.state with
  | active | inactive => simp +contextual [flag]

theorem onClock_iff (w : World) : OnClock w ↔ Watched (Running w.announced) w := by
  simp only [OnClock, Watched, Running, Option.map_eq_some_iff, matches_iff]
  constructor
  · rintro hclock uid sessionId huid hplain _ ⟨session, hsession, rfl⟩
    exact hclock uid sessionId session huid hplain hsession
  · intro hwatched uid sessionId session huid hplain hsession
    exact hwatched uid sessionId huid hplain session.state ⟨session, hsession, rfl⟩

theorem announced_exec (cmd : Cmd) (w : World) : (exec cmd w).2.announced = w.announced := by
  cases cmd with
  | acquire key duration | release key token =>
    simp only [exec]
    split <;> rfl
  | _ => rfl

theorem announced_run {α : Type} (p : Io α) (w : World) : (run exec p w).2.announced = w.announced := by
  have hkeeps : ∀ cmd (after : World), after.announced = w.announced → (exec cmd after).2.announced = w.announced := by
    intro cmd after hafter
    rw [announced_exec, hafter]
  exact run_preserves hkeeps p rfl

section

variable {Q : String → String → Option Liveness → Option Nat → Prop}

def Current (entry : String × CachedPresence) (w : World) : Prop :=
  ∃ presence, w.presence entry.1 = some presence ∧
    ∀ sessionId, (entry.2.get? sessionId).map (·.state) = (presence.get? sessionId).map (·.state)

theorem current_of_tame {entry : String × CachedPresence} {w : World} {cmd : Cmd} (htame : cmd.Tame) (h : Current entry w) :
    Current entry (exec cmd w).2 := by
  rw [Current, presence_exec_tame cmd w htame]
  exact h

theorem watched_unbindFirst (wsUuid : String) {entries : List (String × CachedPresence)} {entry : String × CachedPresence}
    (hentry : entry ∈ entries) :
    Triple exec (fun w => Watched Q w ∧ ∀ other ∈ entries, Current other w) (unbindFirst wsUuid entry)
      fun _ w => Watched Q w ∧ ∀ other ∈ entries, Current other w := by
  unfold unbindFirst
  cases boundSession entry.2 wsUuid with
  | none => exact fun _ hw => hw
  | some sessionId =>
    have htame : ∀ cmd : Cmd, cmd.Tame → Triple exec (fun w => Watched Q w ∧ ∀ other ∈ entries, Current other w)
        (ask cmd) fun _ w => Watched Q w ∧ ∀ other ∈ entries, Current other w := fun cmd htame w hw =>
      ⟨watched_exec_tame cmd w htame hw.1, fun other hother => current_of_tame htame (hw.2 other hother)⟩
    refine .bind (htame _ trivial) fun _ => .bind (htame _ ?_) fun _ => ?_
    · exact fun _ _ huid hsession => presenceWorkspace_ne huid hsession
    rintro w ⟨hw, hcurrent⟩
    obtain ⟨presence, hpresence, hflags⟩ := hcurrent entry hentry
    have hwritten := fun other => (state_modify_wsUuid entry.2 sessionId none other).trans (hflags other)
    refine ⟨watched_rebind hw hpresence hwritten, fun other hother => ?_⟩
    by_cases hsame : other.1 = entry.1
    · obtain ⟨found, hfound, hother⟩ := hcurrent other hother
      obtain rfl : found = presence := by
        rw [hsame, hpresence] at hfound
        exact (Option.some.inj hfound).symm
      refine ⟨entry.2.modify sessionId ({ · with wsUuid := none }), ?_, fun sessionId' => ?_⟩
      · simp [exec, hsame]
      · exact (hother sessionId').trans (hwritten sessionId').symm
    · obtain ⟨found, hfound, hother⟩ := hcurrent other hother
      refine ⟨found, ?_, hother⟩
      simp [exec, hsame, hfound]

theorem watched_clearCacheOnDelete (members : List String) (wsUuid : String) :
    Triple exec (Watched Q) (clearCacheOnDelete members wsUuid) fun _ => Watched Q := by
  intro w hw
  have hcurrent : ∀ entry ∈ members.filterMap fun uid => (w.presence uid).map (Prod.mk uid), Current entry w := by
    intro entry hentry
    obtain ⟨uid, -, hfound⟩ := List.mem_filterMap.mp hentry
    obtain ⟨presence, hpresence, rfl⟩ := Option.map_eq_some_iff.mp hfound
    exact ⟨presence, hpresence, fun _ => rfl⟩
  have hunbound := Triple.each _ (fun entry hentry => watched_unbindFirst wsUuid hentry) w ⟨hw, hcurrent⟩
  rw [clearCacheOnDelete, run_bind, run_presencesOf, run_bind]
  exact watched_exec_tame (.delWorkspace wsUuid) _ trivial hunbound.1

theorem watched_removeCaches (uid : String) (hnone : ∀ sessionId value, Q uid sessionId none value) :
    Triple exec (Watched Q) (removeCaches uid) fun _ => Watched Q := by
  let others : String → String → Option Liveness → Option Nat → Prop :=
    fun other sessionId state value => other ≠ uid → Q other sessionId state value
  refine .bind (triple_tame (.single trivial)) fun _ => .bind (triple_read uid) fun cached => ?_
  cases cached with
  | none => exact fun _ hw => hw.1
  | some presence =>
    have hkeys : ∀ sessionId, Triple exec (Watched others) (ask (.delTimer (presenceSession uid sessionId)))
        fun _ => Watched others := by
      intro sessionId w hw other sessionId' hother hplain hne
      have hkey : presenceSession other sessionId' ≠ presenceSession uid sessionId := fun heq =>
        hne (presenceSession_inj hother hplain heq.symm).1.symm
      simp only [run_perform, exec, Function.update_of_ne hkey]
      exact hw other sessionId' hother hplain hne
    have hdel : Triple exec (Watched others) (ask (.delPresence uid)) fun _ => Watched Q := by
      intro w hw other sessionId hother hplain
      rw [run_perform, exec, session_update]
      split_ifs with hsame
      · rw [hsame]
        exact hnone sessionId _
      · exact hw other sessionId hother hplain hsame
    refine Triple.strengthen (.bind (.each _ fun sessionId _ => hkeys sessionId) fun _ => hdel) ?_
    intro w hw other sessionId hother hplain _
    exact hw.1 other sessionId hother hplain

end

variable (t : Timeouts) (c : Settings)

section

variable {pending : List String} {uid sessionId : String} {w : World}

theorem watched_of_absent (hw : Watched (Besides uid sessionId (Running pending)) w)
    (habsent : w.session uid sessionId = none) : Watched (Running pending) w := by
  intro other sessionId' hother hplain
  by_cases hsame : other = uid ∧ sessionId' = sessionId
  · obtain ⟨rfl, rfl⟩ := hsame
    rintro flagged hflagged
    rw [habsent] at hflagged
    cases hflagged
  · exact hw other sessionId' hother hplain hsame

theorem watched_drop {presence : CachedPresence} :
    Triple exec (fun w => Watched (Besides uid sessionId (Running pending)) w ∧ w.presence uid = some presence)
      (dropSession presence uid sessionId) fun _ => Watched (Running pending) := by
  rintro w ⟨hw, hcached⟩
  refine watched_dropSession hw hcached fun _ _ => ?_
  rintro flagged ⟨⟩

theorem watched_handleStaleSession :
    Triple exec (Watched (Besides uid sessionId (Running pending))) (handleStaleSession t uid sessionId true)
      fun _ => Watched (Running pending) := by
  refine .bind (triple_read uid) fun cached => ?_
  cases cached with
  | none =>
    rintro w ⟨hw, hcached⟩
    exact watched_of_absent hw (by simp [World.session, hcached])
  | some presence =>
    dsimp only
    cases hsession : presence.get? sessionId with
    | none =>
      rintro w ⟨hw, hcached⟩
      exact watched_of_absent hw (by simp [World.session, hcached, hsession])
    | some session =>
      dsimp only
      cases hstate : session.state with
      | active =>
        refine .bind (triple_tame_read (tame.idleWorkspace _ _ _ fun _ _ => trivial).only uid (some presence)) fun _ => ?_
        rintro w ⟨hw, hcached⟩
        refine watched_setSessionState (kept_running pending) t .inactive hw (by simp [hsession]) fun other _ => ?_
        rw [hcached]
        rfl
      | inactive =>
        refine .bind (triple_tame_read (emit_tame _) uid (some presence)) fun _ => ?_
        cases given session.wsUuid with
        | none => exact .bind watched_drop fun _ => triple_return
        | some wsUuid =>
          have hexpiry : Triple exec
              (fun w => Watched (Besides uid sessionId (Running pending)) w ∧ w.presence uid = some presence)
              (handleWorkspaceExpiry wsUuid true) fun ok w =>
                (Watched (Besides uid sessionId (Running pending)) w ∧ w.presence uid = some presence) ∧ ok = true :=
            fun w hw => ⟨triple_tame_read (handleWorkspaceExpiry_tame ..) uid (some presence) w hw,
              handleWorkspaceExpiry_answer wsUuid true w⟩
          refine .bind hexpiry fun ok => .ite_of_not (fun _ hw => by simp [hw.2]) ?_
          exact .bind (.strengthen watched_drop fun _ hw => hw.1) fun _ => triple_return

theorem watched_handleCacheExpiry (huid : Plain uid) (hplain : Plain sessionId)
    (hfree : ∀ lease ∈ w.locks ("locks:" ++ presenceSession uid sessionId), lease.expires ≤ w.now)
    (hw : Watched (Besides uid sessionId (Running pending)) w) :
    Watched (Running pending) (run exec (handleCacheExpiry t (presenceSession uid sessionId) true) w).2 := by
  have hacquired : Watched (Besides uid sessionId (Running pending)) _ :=
    watched_exec_tame (.acquire ("locks:" ++ presenceSession uid sessionId) lockDuration) w trivial hw
  rw [handleCacheExpiry, run_bind, run_perform, acquired hfree,
    (decodes_session_iff t true uid sessionId).mpr ⟨huid, hplain⟩]
  have hstale : Triple exec (Watched (Besides uid sessionId (Running pending)))
      (handleStaleSession t uid sessionId true >>= fun ok =>
        if ok then ask (.release ("locks:" ++ presenceSession uid sessionId) w.token) else pure ())
      fun _ => Watched (Running pending) :=
    .bind (watched_handleStaleSession t) fun _ => .ite (fun _ => triple_release) fun _ => triple_return
  exact hstale _ hacquired

theorem running_erase {key : String} {state : Option Liveness} {value : Option Nat} (hkey : presenceSession uid sessionId ≠ key)
    (h : Running pending uid sessionId state value) : Running (pending.erase key) uid sessionId state value := by
  intro flagged hflagged
  refine (h flagged hflagged).imp_right fun hmem => ?_
  exact (List.mem_erase_of_ne hkey).mpr hmem

theorem onClock_handle (h : OnClock w) {key : String} {disposed : Bool}
    (hcompletes : Completes w (.handle key disposed)) : OnClock (step c w (.handle key disposed)) := by
  obtain ⟨rfl, hfree⟩ := hcompletes
  rw [onClock_iff] at h ⊢
  rw [step, announced_run]
  change Watched (Running (w.announced.erase key)) _
  by_cases hpending : key ∈ w.announced
  · rw [program, if_pos hpending]
    by_cases hkey : ∃ uid sessionId, Plain uid ∧ Plain sessionId ∧ key = presenceSession uid sessionId
    · obtain ⟨uid, sessionId, huid, hplain, rfl⟩ := hkey
      refine watched_handleCacheExpiry c.timeouts huid hplain hfree fun other sessionId' hother hplain' hne => ?_
      refine running_erase (fun heq => hne ?_) (h other sessionId' hother hplain')
      exact presenceSession_inj huid hplain heq
    · refine Cache.watched_handleCacheExpiry (kept_running _) c.timeouts key true _ fun uid sessionId huid hplain => ?_
      exact running_erase (fun heq => hkey ⟨uid, sessionId, huid, hplain, heq.symm⟩) (h uid sessionId huid hplain)
  · rw [program, if_neg hpending, List.erase_of_not_mem hpending]
    exact h

theorem onClock_expire (h : OnClock w) (key : String) : OnClock (w.announce key) := by
  unfold World.announce
  split_ifs
  · intro uid sessionId session huid hplain hsession
    by_cases hkey : presenceSession uid sessionId = key
    · exact .inr (hkey ▸ List.mem_cons_self)
    · refine (h uid sessionId session huid hplain hsession).imp ?_ (List.mem_cons_of_mem key)
      rintro ⟨timer, htimer, hmatches⟩
      exact ⟨timer, (Function.update_of_ne hkey _ _).trans htimer, hmatches⟩
  · exact h

end

theorem onClock_step (w : World) (event : Event) (h : OnClock w) (hcompletes : Completes w event) :
    OnClock (step c w event) := by
  have hrun : ∀ p : Io Unit, Triple exec (Watched (Running w.announced)) p (fun _ => Watched (Running w.announced)) →
      OnClock (run exec p w).2 := by
    intro p hp
    rw [onClock_iff, announced_run]
    exact hp w ((onClock_iff w).mp h)
  have hkept := kept_running w.announced
  cases event with
  | connect uid sessionId socketId gatewayId =>
    exact hrun _ (watched_handleConnection hkept c.timeouts uid sessionId socketId gatewayId)
  | disconnect uid sessionId => exact hrun _ (watched_handleDisconnect hkept c.timeouts uid sessionId)
  | ping uid sessionId uuid served => exact hrun _ (watched_handlePing hkept c.timeouts uid sessionId uuid served)
  | expire key => exact onClock_expire h key
  | handle key disposed => exact onClock_handle c h hcompletes
  | envReady instanceId uid sessionId uuid ready affine =>
    exact hrun _ (watched_handleEnvReady instanceId uid sessionId uuid ready affine)
  | envClose instanceId uid uuid served => exact hrun _ (watched_handleEnvClose c.envWsActivity instanceId uid uuid served)
  | invalidate uid uuid => exact hrun _ (watched_invalidatePreviousSessions uid uuid)
  | clearCacheOnDelete members wsUuid => exact hrun _ (watched_clearCacheOnDelete members wsUuid)
  | removeCaches uid =>
    refine hrun _ (watched_removeCaches uid fun sessionId value => ?_)
    rintro flagged ⟨⟩
  | change change =>
    cases change with
    | wait ms => exact h
    | setRow uid uuid member => exact h

/-- Time passes, and the key expires and is handled. -/
def Elapsing (key : String) : Event → Prop
  | .change (.wait _) => True
  | .expire other | .handle other _ => other = key
  | _ => False

/-- The keys of sessions are set to run out. To the cache, a timeout of zero means that a key is kept for ever. -/
def KeysExpire : Prop := 0 < c.timeouts.sessionPing ∧ 0 < c.timeouts.sessionActivity
  deriving Decidable

/-- A session that nobody refreshes is gone some time later. -/
def Lapses (w : World) : Prop :=
  ∀ uid sessionId, Plain uid → Plain sessionId → ∃ events, (∀ event ∈ events, Elapsing (presenceSession uid sessionId) event) ∧
    Along (step c) Completes w events ∧ (run (step c) w events).session uid sessionId = none

/-- A session after an expiry of its key. -/
def lapsed (session : CachedSession) : Option CachedSession :=
  match session.state with
  | .active => some { session with state := .inactive }
  | .inactive => none

section

variable {uid sessionId : String} {w : World} {session : CachedSession}

theorem session_handleSessionExpiry {presence : CachedPresence} (hcached : w.presence uid = some presence) :
    (run exec (handleSessionExpiry presence uid sessionId session true) w).2.session uid sessionId = none := by
  have hdrop : ∀ after : World, after.presence = w.presence →
      (run exec (dropSession presence uid sessionId) after).2.session uid sessionId = none := by
    intro after hafter
    rw [session_dropSession (hafter ▸ hcached), if_pos ⟨rfl, rfl⟩]
  rw [handleSessionExpiry, run_bind]
  cases given session.wsUuid with
  | none =>
    rw [run_bind]
    exact hdrop _ rfl
  | some wsUuid =>
    rw [run_bind, handleWorkspaceExpiry_answer, if_neg (by decide), run_bind]
    exact hdrop _ ((handleWorkspaceExpiry_tame wsUuid true).run_eq presence_exec_tame _)

theorem session_handleStaleSession (hsession : w.session uid sessionId = some session) :
    (run exec (handleStaleSession t uid sessionId true) w).2.session uid sessionId = lapsed session := by
  obtain ⟨presence, hcached, hfound⟩ := Option.bind_eq_some_iff.mp hsession
  rw [handleStaleSession, run_bind, run_perform]
  simp only [exec, hcached, hfound]
  cases hstate : session.state with
  | active =>
    simp only [lapsed, hstate, run_bind, run_setSessionState]
    simp [World.session, Dict.get?_modify, hfound]
  | inactive =>
    rw [lapsed, hstate]
    exact session_handleSessionExpiry hcached

theorem session_handleCacheExpiry (huid : Plain uid) (hplain : Plain sessionId)
    (hfree : ∀ lease ∈ w.locks ("locks:" ++ presenceSession uid sessionId), lease.expires ≤ w.now)
    (hsession : w.session uid sessionId = some session) :
    (run exec (handleCacheExpiry t (presenceSession uid sessionId) true) w).2.session uid sessionId = lapsed session := by
  let lock := "locks:" ++ presenceSession uid sessionId
  have hacquired : (exec (.acquire lock lockDuration) w).2.session uid sessionId = some session := by
    rw [World.session, presence_exec_tame (.acquire lock lockDuration) w trivial]
    exact hsession
  have hrelease : ∀ ok : Bool, (if ok then ask (.release lock w.token) else pure () : Io Unit).Only Cmd.Tame := fun _ =>
    .ite (.single trivial) trivial
  rw [handleCacheExpiry, run_bind, run_perform, acquired hfree,
    (decodes_session_iff t true uid sessionId).mpr ⟨huid, hplain⟩]
  rw [run_bind, World.session, (hrelease _).run_eq presence_exec_tame]
  exact session_handleStaleSession t hacquired

/-- A time after which the key and the lock have run out. -/
def patience (w : World) (key : String) : Nat :=
  ((w.timers key).map (·.expires)).getD 0 + ((w.locks ("locks:" ++ key)).map (·.expires)).getD 0

/-- One expiry of the key. -/
def round (w : World) (key : String) : List Event := [.change (.wait (patience w key)), .expire key, .handle key true]

theorem announce_eq (w : World) (key : String) :
    (w.announce key).presence = w.presence ∧ (w.announce key).locks = w.locks ∧ (w.announce key).now = w.now := by
  unfold World.announce
  split_ifs <;> exact ⟨rfl, rfl, rfl⟩

theorem mem_announce (h : OnClock w) (huid : Plain uid) (hplain : Plain sessionId)
    (hsession : w.session uid sessionId = some session) {now : Nat}
    (hdue : ∀ timer ∈ w.timers (presenceSession uid sessionId), timer.expires ≤ now) :
    presenceSession uid sessionId ∈ (World.announce { w with now := now } (presenceSession uid sessionId)).announced := by
  unfold World.announce
  rcases h uid sessionId session huid hplain hsession with ⟨timer, htimer, -⟩ | hpending
  · rw [if_pos (by simpa [htimer] using hdue timer htimer)]
    exact List.mem_cons_self
  · split_ifs
    · exact List.mem_cons_self
    · exact hpending

theorem round_session (h : OnClock w) (huid : Plain uid) (hplain : Plain sessionId)
    (hsession : w.session uid sessionId = some session) :
    Along (step c) Completes w (round w (presenceSession uid sessionId)) ∧
      (run (step c) w (round w (presenceSession uid sessionId))).session uid sessionId = lapsed session := by
  let key := presenceSession uid sessionId
  let waited : World := { w with now := w.now + patience w key }
  obtain ⟨hpresence, hlocks, hnow⟩ := announce_eq waited key
  have hfree : ∀ lease ∈ (waited.announce key).locks ("locks:" ++ key), lease.expires ≤ (waited.announce key).now := by
    rw [hlocks, hnow]
    intro lease hlease
    have hpatience : lease.expires ≤ patience w key := by
      simp [patience, show w.locks ("locks:" ++ key) = some lease from hlease]
    exact Nat.le_trans hpatience (Nat.le_add_left ..)
  have hpending : key ∈ (waited.announce key).announced := by
    refine mem_announce h huid hplain hsession fun timer htimer => ?_
    have hpatience : timer.expires ≤ patience w key := by simp [patience, show w.timers key = some timer from htimer]
    exact Nat.le_trans hpatience (Nat.le_add_left ..)
  refine ⟨⟨trivial, trivial, ⟨rfl, hfree⟩, trivial⟩, ?_⟩
  have hprogram : program c (waited.announce key) (.handle key true) = handleCacheExpiry c.timeouts key true := if_pos hpending
  have hheld : (pass (waited.announce key) (.handle key true)).session uid sessionId = some session := by
    change ((waited.announce key).presence uid).bind _ = _
    rw [hpresence]
    exact hsession
  change (run exec (program c (waited.announce key) (.handle key true)) _).2.session uid sessionId = _
  rw [hprogram]
  exact session_handleCacheExpiry c.timeouts huid hplain hfree hheld

theorem elapsing_round (w : World) (key : String) : ∀ event ∈ round w key, Elapsing key event := by
  simp [round, Elapsing]

theorem lapses_of_onClock (h : OnClock w) : Lapses c w := by
  intro uid sessionId huid hplain
  let key := presenceSession uid sessionId
  have hinactive : ∀ {w session}, OnClock w → w.session uid sessionId = some session → session.state = .inactive →
      Along (step c) Completes w (round w key) ∧ (run (step c) w (round w key)).session uid sessionId = none := by
    intro w session h hsession hstate
    have hround := round_session c h huid hplain hsession
    rwa [lapsed, hstate] at hround
  cases hsession : w.session uid sessionId with
  | none => exact ⟨[], by simp, trivial, hsession⟩
  | some session =>
    cases hstate : session.state with
    | inactive => exact ⟨round w key, elapsing_round w key, hinactive h hsession hstate⟩
    | active =>
      -- the first expiry makes the session inactive, the second removes it
      obtain ⟨hfirst, hlater⟩ := round_session c h huid hplain hsession
      rw [lapsed, hstate] at hlater
      let later := run (step c) w (round w key)
      have hclock : OnClock later := run_invariant (onClock_step c) h hfirst
      obtain ⟨hsecond, hgone⟩ := hinactive hclock hlater rfl
      refine ⟨round w key ++ round later key, ?_, ?_, ?_⟩
      · intro event hevent
        exact (List.mem_append.mp hevent).elim (elapsing_round w key event) (elapsing_round later key event)
      · exact (along_append ..).mpr ⟨hfirst, hsecond⟩
      · exact hgone

end

/-- In every state that operations lead to, every session is on the clock, and goes in the end unless it is
refreshed. -/
theorem onClock_run (c : Settings) (w : World) (hstart : OnClock w) (events : List Event)
    (hcompletes : Along (step c) Completes w events) :
    Always (step c) (fun w => OnClock w ∧ (KeysExpire c → Lapses c w)) w events :=
  always_of_invariant (onClock_step c) (fun _ h => ⟨h, fun _ => lapses_of_onClock c h⟩) hstart hcompletes

theorem onClock_empty : OnClock .empty := by
  intro uid sessionId session _ _ hsession
  cases hsession

def silent : List Event :=
  [.connect "alice" "s1" "socket" "gateway", .envReady "env" "alice" "s1" "w1" true true, .change (.wait 20000),
    .expire (presenceSession "alice" "s1"), .clearCacheOnDelete ["alice"] "w1", .handle (presenceSession "alice" "s1") true]

theorem onClock_silent :
    (run (step .default) .empty silent).session "alice" "s1" = some ⟨.inactive, "socket", "gateway", none⟩ ∧
      KeysExpire .default ∧
      Always (step .default) (fun w => OnClock w ∧ (KeysExpire .default → Lapses .default w)) .empty silent :=
  ⟨by decide, by decide, onClock_run .default .empty onClock_empty silent (by decide)⟩

end HideServer.Cache.Clock
