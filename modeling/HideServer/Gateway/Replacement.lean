import HideServer.Gateway.Sessions

/-!
# Sockets that were replaced

A new socket takes over its session, and the disconnection of the old one is handled whenever it comes,
without asking which socket the session has now. The handlers run one after the other, and the machine
remembers the socket whose connection was the last to get the lock.
-/

namespace HideServer.Gateway.Replacement

open Async Cache Function Trace Sessions

variable {w : World} {uid sessionId : String}

inductive Event where
  | connect (uid sessionId socketId gatewayId : String)
  | disconnect (uid sessionId socketId : String)
  | ping (uid sessionId : String) (uuid : Option String) (served : Bool)
  | expiry (key : String) (disposed : Bool)
  | change (change : Change)
  | announce (key : String)
  deriving DecidableEq, Repr

/-- What the gateways see of an event: the id of a socket that disconnects is not looked at. -/
def Event.seen : Event → Cache.Event
  | .connect uid sessionId socketId gatewayId => .connect uid sessionId socketId gatewayId
  | .disconnect uid sessionId _ => .disconnect uid sessionId
  | .ping uid sessionId uuid served => .ping uid sessionId uuid served
  | .expiry key disposed => .expiry key disposed
  | .change a => .change a
  | .announce key => .announce key

/-- The lock is taken. -/
def held (w : World) (key : String) : Bool := (w.locks key).any fun lease => w.now < lease.expires

/-- The cache, and the last socket of each session. -/
structure State where
  world : World
  /-- The socket of a session that connected last. -/
  last : String → String → Option String

def start : State := ⟨.empty, fun _ _ => none⟩

def noted (s : State) (event : Event) (uid sessionId : String) : Option String :=
  match event with
  | .connect connecting connectingId socketId _ =>
    if connecting = uid ∧ connectingId = sessionId ∧ held s.world (sessionLock uid sessionId) = false then
      some socketId
    else s.last uid sessionId
  | _ => s.last uid sessionId

def step (c : Settings) (s : State) (event : Event) : State where
  world := Cache.step c s.world event.seen
  last := noted s event

def Marks (uid sessionId : String) : Cmd → Prop
  | .setPresence other presence =>
    other = uid ∧ (presence.get? sessionId).any (fun session => session.state = .inactive) = true
  | .setWorkspace _ workspace => workspace.state = .inactive
  | _ => False

/-- A disconnection marks a session, and its workspace, only while the session has the socket that disconnected. -/
def Harmless (c : Settings) (s : State) : Event → Prop
  | .disconnect uid sessionId socketId =>
    ∀ call ∈ issued c s.world (.disconnect uid sessionId), Marks uid sessionId call.2 →
      (call.1.session uid sessionId).map (·.socketId) = some socketId
  | _ => True

/-- A disconnection that gets its lock, and whose session is there, is that of the socket that connected last. -/
def InTurn (s : State) : Event → Prop
  | .disconnect uid sessionId socketId =>
    held s.world (sessionLock uid sessionId) = false → s.world.session uid sessionId ≠ none →
      s.last uid sessionId = some socketId
  | _ => True

/-- The presence records the last socket. -/
def Recorded (s : State) : Prop :=
  ∀ uid sessionId socket, socketOf (s.world.presence uid) sessionId = some socket →
    s.last uid sessionId = some socket.1

theorem exec_acquire_held {key : String} (duration : Nat) (h : held w key = true) :
    exec (.acquire key duration) w = (none, w) := if_pos h

theorem exec_acquire_free {key : String} (duration : Nat) (h : held w key = false) :
    exec (.acquire key duration) w = (some w.token,
      { w with locks := update w.locks key (some ⟨w.token, w.now + duration⟩), token := w.token + 1 }) :=
  if_neg (by rw [← Bool.not_eq_true] at h; exact h)

theorem presence_run_tame {α : Type} {p : Io α} (hp : p.Only Cmd.Tame) (w : World) :
    (Prog.run exec p w).2.presence = w.presence :=
  hp.run_eq presence_exec_tame w

variable (t : Timeouts) (c : Settings)

theorem presence_connect (socketId gatewayId : String) (hfree : held w (sessionLock uid sessionId) = false) :
    (Prog.run exec (handleConnection t uid sessionId socketId gatewayId) w).2.presence = update w.presence uid
        (effect (.connect uid sessionId socketId gatewayId) (w.presence uid)) := by
  have hrelease (key : String) (token : Nat) (w : World) : (exec (.release key token) w).2.presence = w.presence :=
    presence_exec_tame (.release key token) w trivial
  simp only [handleConnection, Prog.run_bind, Prog.run_perform, exec_acquire_free lockDuration hfree]
  rw [hrelease, presence_run_tame (tame.touchWorkspace _ _ _ (fun _ _ => trivial) _).only, run_setSessionState]
  rw [presence_run_tame (tame.replaceSocket _).only]
  rfl

theorem presence_connect_held (socketId gatewayId : String) (hheld : held w (sessionLock uid sessionId) = true) :
    (Prog.run exec (handleConnection t uid sessionId socketId gatewayId) w).2 = w := by
  simp [handleConnection, exec_acquire_held lockDuration hheld]

theorem socketOf_lapsed {cached : Option CachedPresence} (hlapses : Sessions.Lapses cached sessionId = true) :
    socketOf (cached.bind (expired sessionId)) sessionId = none := by
  cases cached with
  | none => rfl
  | some presence =>
    simp only [Sessions.Lapses, Option.bind_some] at hlapses
    cases hsession : presence.get? sessionId with
    | none => simp [socketOf, expired, hsession]
    | some session =>
      have hstate : session.state = .inactive := by simpa [hsession] using hlapses
      simp only [socketOf, expired, Option.bind_some, hsession, hstate, dropped]
      split_ifs
      · rfl
      · simp [Dict.get?_erase]

def connects : Sessions.Op → Bool
  | .connect .. => true
  | _ => false

theorem socketOf_effect {op : Sessions.Op} (hop : connects op = false) {cached : Option CachedPresence}
    {socket : String × String} (hsocket : socketOf (effect op cached) sessionId = some socket) :
    socketOf cached sessionId = some socket := by
  cases op with
  | connect _ _ _ _ => cases hop
  | disconnect uid leaving => exact (socketOf_modify cached leaving .inactive sessionId).symm.trans hsocket
  | ping uid pinging uuid served => exact (socketOf_modify cached pinging .active sessionId).symm.trans hsocket
  | expiry key disposed =>
    simp only [effect] at hsocket
    split at hsocket
    · exact hsocket
    · rename_i stale hstale
      rcases socketOf_expired cached stale sessionId with hsame | ⟨rfl, hlapses⟩
      · rw [← hsame]
        exact hsocket
      · cases (socketOf_lapsed hlapses).symm.trans hsocket

theorem socketOf_run (op : Sessions.Op) (hop : connects op = false) {socket : String × String}
    (hsocket : socketOf ((Prog.run exec (program t op) w).2.presence uid) sessionId = some socket) :
    socketOf (w.presence uid) sessionId = some socket := by
  have hview : (Prog.run exec (program t op) w).2.presence uid = w.presence uid ∨
      (Prog.run exec (program t op) w).2.presence uid = effect op (w.presence uid) :=
    Cell.Updates.view_run (updates_program t op) w
  rcases hview with hview | hview
  · rw [← hview]
    exact hsocket
  · rw [hview] at hsocket
    exact socketOf_effect hop hsocket

variable {s : State}

theorem recorded_mono (hrecorded : Recorded s)
    (hsockets : ∀ uid sessionId socket, socketOf (w.presence uid) sessionId = some socket →
      socketOf (s.world.presence uid) sessionId = some socket) : Recorded ⟨w, s.last⟩ :=
  fun uid sessionId socket hsocket => hrecorded uid sessionId socket (hsockets uid sessionId socket hsocket)

theorem recorded_connect (hrecorded : Recorded s)
    (uid sessionId socketId gatewayId : String) : Recorded (step c s (.connect uid sessionId socketId gatewayId)) := by
  intro uid' sessionId' socket hsocket
  show noted s (.connect uid sessionId socketId gatewayId) uid' sessionId' = _
  change socketOf ((Prog.run exec (handleConnection c.timeouts uid sessionId socketId gatewayId) s.world).2.presence
    uid') sessionId' = _ at hsocket
  cases hheld : held s.world (sessionLock uid sessionId) with
  | true =>
    rw [presence_connect_held c.timeouts socketId gatewayId hheld] at hsocket
    rw [noted, if_neg]
    · exact hrecorded uid' sessionId' socket hsocket
    · rintro ⟨rfl, rfl, hfree⟩
      cases hheld.symm.trans hfree
  | false =>
    rw [presence_connect c.timeouts socketId gatewayId hheld, update_apply] at hsocket
    rw [noted]
    split_ifs at hsocket with huid
    · subst huid
      rw [socketOf_connect] at hsocket
      split_ifs at hsocket with hsession
      · cases hsocket
        rw [hsession, if_pos ⟨rfl, rfl, hheld⟩]
      · rw [if_neg fun h => hsession h.2.1.symm]
        exact hrecorded uid' sessionId' socket hsocket
    · rw [if_neg fun h => huid h.1.symm]
      exact hrecorded uid' sessionId' socket hsocket

theorem recorded_start : Recorded start := fun _ _ _ hsocket => nomatch hsocket

/-- The record names the socket that connected last, whatever happens. -/
theorem recorded_step (hrecorded : Recorded s) (event : Event) : Recorded (step c s event) := by
  cases event with
  | connect uid sessionId socketId gatewayId => exact recorded_connect c hrecorded uid sessionId socketId gatewayId
  | disconnect uid sessionId socketId =>
    exact recorded_mono hrecorded fun _ _ _ => socketOf_run c.timeouts (.disconnect uid sessionId) rfl
  | ping uid sessionId uuid served =>
    exact recorded_mono hrecorded fun _ _ _ => socketOf_run c.timeouts (.ping uid sessionId uuid served) rfl
  | expiry key disposed =>
    refine recorded_mono hrecorded fun uid sessionId socket hsocket => ?_
    simp only [Event.seen, Cache.step, Cache.program] at hsocket
    split_ifs at hsocket
    · exact socketOf_run c.timeouts (.expiry key disposed) rfl hsocket
    · exact hsocket
  | change a =>
    refine recorded_mono hrecorded fun uid sessionId socket hsocket => ?_
    rwa [show (Cache.step c s.world (Event.change a).seen).presence = _ from World.change_presence s.world a] at hsocket
  | announce key =>
    refine recorded_mono hrecorded fun uid sessionId socket hsocket => ?_
    simp only [Event.seen, Cache.step, Cache.program, World.pass, World.announce] at hsocket
    split_ifs at hsocket <;> exact hsocket

theorem issued_disconnect_held (hheld : held w (sessionLock uid sessionId) = true) :
    issued c w (.disconnect uid sessionId) = [(w, .acquire (sessionLock uid sessionId) lockDuration)] := by
  simp [issued, Cache.program, World.pass, handleDisconnect, exec_acquire_held lockDuration hheld]

/-- The world once the lock is taken. -/
def locked (w : World) (uid sessionId : String) : World :=
  { w with
    locks := update w.locks (sessionLock uid sessionId) (some ⟨w.token, w.now + lockDuration⟩)
    token := w.token + 1 }

theorem issued_disconnect_absent (hfree : held w (sessionLock uid sessionId) = false)
    (hnone : w.session uid sessionId = none) :
    issued c w (.disconnect uid sessionId) =
      [(w, .acquire (sessionLock uid sessionId) lockDuration), (locked w uid sessionId, .getPresence uid)] := by
  simp only [issued, Cache.program, World.pass, handleDisconnect, Prog.calls_bind, Prog.calls_perform,
    Prog.run_perform, exec_acquire_free lockDuration hfree]
  simp only [exec]
  cases hcached : w.presence uid with
  | none => simp [locked]
  | some presence =>
    have hsession : presence.get? sessionId = none := by simpa [World.session, hcached] using hnone
    simp [hsession, locked]

/-- `handleDisconnect`, once the session is found. -/
def mark (presence : CachedPresence) (uid sessionId : String) (session : CachedSession) (token : Nat) : Io Unit := do
  let _ ← setSessionState t presence uid sessionId .inactive
  touchWorkspace t uid sessionId session.wsUuid .inactive
  ask (.release (sessionLock uid sessionId) token)

def Keeps (uid sessionId socketId : String) : Cmd → Prop
  | .setPresence other presence => other = uid → (presence.get? sessionId).map (·.socketId) = some socketId
  | .delPresence _ => False
  | _ => True

theorem keeps_of_tame {socketId : String} {cmd : Cmd} (htame : cmd.Tame) : Keeps uid sessionId socketId cmd := by
  cases cmd with
  | setPresence _ _ | delPresence _ => exact htame.elim
  | _ => trivial

theorem keeps_exec {socketId : String} (cmd : Cmd) (w : World) (hkeeps : Keeps uid sessionId socketId cmd)
    (hsocket : (w.session uid sessionId).map (·.socketId) = some socketId) :
    ((exec cmd w).2.session uid sessionId).map (·.socketId) = some socketId := by
  cases cmd with
  | setPresence other presence =>
    simp only [exec, session_update]
    split_ifs with hother
    · exact hkeeps hother.symm
    · exact hsocket
  | delPresence _ => exact hkeeps.elim
  | acquire key duration | release key token =>
    simp only [exec]
    split <;> exact hsocket
  | _ => exact hsocket

section

variable (c : Settings) {w : World} {uid sessionId : String} {presence : CachedPresence}
  {session : CachedSession} (hfree : held w (sessionLock uid sessionId) = false)
  (hpresence : w.presence uid = some presence) (hsession : presence.get? sessionId = some session)

include hfree hpresence hsession

theorem issued_disconnect :
    issued c w (.disconnect uid sessionId) =
      [(w, .acquire (sessionLock uid sessionId) lockDuration), (locked w uid sessionId, .getPresence uid)] ++
        Prog.calls exec (mark c.timeouts presence uid sessionId session w.token) (locked w uid sessionId) := by
  simp only [issued, Cache.program, World.pass, handleDisconnect, Prog.calls_bind, Prog.calls_perform,
    Prog.run_perform, exec_acquire_free lockDuration hfree]
  simp only [exec, hpresence, hsession]
  rfl

theorem marks_disconnect :
    (locked w uid sessionId, Cmd.setPresence uid (presence.modify sessionId ({ · with state := .inactive }))) ∈
      issued c w (.disconnect uid sessionId) := by
  rw [issued_disconnect c hfree hpresence hsession]
  exact List.mem_append_right _ List.mem_cons_self

theorem socket_disconnect :
    ∀ call ∈ issued c w (.disconnect uid sessionId),
      (call.1.session uid sessionId).map (·.socketId) = some session.socketId := by
  have hbefore : (w.session uid sessionId).map (·.socketId) = some session.socketId := by
    simp [World.session, hpresence, hsession]
  have hmark : (mark c.timeouts presence uid sessionId session w.token).Only (Keeps uid sessionId session.socketId) := by
    refine .bind (Prog.Only.perform_bind ?_ fun _ => ?_) fun _ => ?_
    · intro _
      simp [Dict.get?_modify, hsession]
    · exact .single trivial
    · refine ((tame.touchWorkspace _ _ _ (fun _ _ => trivial) _).only.mono fun _ => keeps_of_tame).bind fun _ => ?_
      exact .single trivial
  rw [issued_disconnect c hfree hpresence hsession, List.forall_mem_append]
  refine ⟨List.forall_mem_cons.mpr ⟨hbefore, List.forall_mem_singleton.mpr hbefore⟩, ?_⟩
  exact hmark.calls_inv keeps_exec hbefore

end

theorem harmless_iff (hrecorded : Recorded s) (event : Event) : Harmless c s event ↔ InTurn s event := by
  cases event with
  | connect _ _ _ _ | ping _ _ _ _ | expiry _ _ | change _ | announce _ => exact Iff.rfl
  | disconnect uid sessionId socketId =>
    simp only [Harmless, InTurn]
    cases hheld : held s.world (sessionLock uid sessionId) with
    | true => simp [issued_disconnect_held c hheld, Marks]
    | false =>
      cases hsession : s.world.session uid sessionId with
      | none => simp [issued_disconnect_absent c hheld hsession, Marks]
      | some session =>
        obtain ⟨presence, hpresence, hfound⟩ := Option.bind_eq_some_iff.mp hsession
        have hlast : s.last uid sessionId = some session.socketId :=
          hrecorded uid sessionId (session.socketId, session.gatewayId) (by simp [socketOf, hpresence, hfound])
        have hsocket := socket_disconnect c hheld hpresence hfound
        simp only [hlast, ne_eq, reduceCtorEq, not_false_eq_true, forall_const]
        constructor
        · intro hharmless
          have hmarks := marks_disconnect c hheld hpresence hfound
          rw [← hsocket _ hmarks]
          exact hharmless _ hmarks ⟨rfl, by simp [Dict.get?_modify, hfound]⟩
        · intro hsame call hcall _
          rw [hsocket call hcall, hsame]

/-- In every run of the gateways, late disconnections are harmless exactly if every one that takes effect is that
of the socket that connected last. -/
theorem harmless_run_iff (c : Settings) (events : List Event) :
    Along (step c) (Harmless c) start events ↔ Along (step c) InTurn start events := by
  have hstep (s : State) (event : Event) (hs : Recorded s) (_ : InTurn s event) :
      Recorded (step c s event) := recorded_step c hs event
  exact along_iff_of_invariant hstep (fun s event hs => harmless_iff c hs event) recorded_start

def reconnected : List Event := [.connect "alice" "s1" "k1" "g1", .connect "alice" "s1" "k2" "g2"]

/-- The disconnection of k1, handled late, makes the session inactive, whose socket is k2. -/
theorem marked_by_late_disconnect :
    ¬Along (step .default) (Harmless .default) start (reconnected ++ [.disconnect "alice" "s1" "k1"]) := by
  intro hharmless
  have hstep (s : State) (event : Event) (hs : Recorded s) : Recorded (step .default s event) :=
    recorded_step .default hs event
  have hrecorded := run_preserves hstep recorded_start reconnected
  have hlast := ((along_append ..).mp hharmless).2.1
  have hturn := (harmless_iff .default hrecorded _).mp hlast
  exact absurd (hturn (by decide +kernel) (by decide +kernel)) (by decide +kernel)

end HideServer.Gateway.Replacement
