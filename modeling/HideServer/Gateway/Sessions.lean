import HideServer.Async.Cell
import HideServer.Cache.Flags

/-!
# Sessions of one user

The handlers that write the presence of a user, on any gateways, interleaved at every command, with
their locks. A ledger notes the sockets as connections write them; the presence agrees with it as long
as each handler finds, when it writes, what it has read.
-/

namespace HideServer.Gateway.Sessions

open Async Async.Prog Cache Function Trace Option

variable (presence : CachedPresence)

inductive Op where
  | connect (uid sessionId socketId gatewayId : String)
  | disconnect (uid sessionId : String)
  | ping (uid sessionId : String) (uuid : Option String) (served : Bool)
  | expiry (key : String) (disposed : Bool)
  deriving DecidableEq, Repr

def program (t : Timeouts) : Op → Io Unit
  | .connect uid sessionId socketId gatewayId => handleConnection t uid sessionId socketId gatewayId
  | .disconnect uid sessionId => handleDisconnect t uid sessionId
  | .ping uid sessionId uuid served => handlePing t uid sessionId uuid served
  | .expiry key disposed => handleCacheExpiry t key disposed

abbrev State := Pool World Op Cmd Cmd.Answer Unit

abbrev Step := Action Op Change

/-- The session whose key has expired. -/
def staleSession (key : String) : Option (String × String) :=
  if (split key).head? = some "presence" then
    match given (split key).tail[2]? with
    | none => some (rendered (split key).tail[0]?, rendered (split key).tail[1]?)
    | some _ => none
  else none

/-- The presence without the session. -/
def dropped (sessionId : String) (presence : CachedPresence) : Option CachedPresence :=
  if (presence.erase sessionId).entries = [] then none else some (presence.erase sessionId)

/-- The presence after an expiry. -/
def expired (sessionId : String) (presence : CachedPresence) : Option CachedPresence :=
  match presence.get? sessionId with
  | none => some presence
  | some session =>
    match session.state with
    | .active => some (presence.modify sessionId ({ · with state := .inactive }))
    | .inactive => dropped sessionId presence

def effect : Op → Option CachedPresence → Option CachedPresence
  | .connect _ sessionId socketId gatewayId, cached =>
    let presence := cached.getD .empty
    some ((presence.set sessionId (connected (presence.get? sessionId) socketId gatewayId)).modify sessionId
      ({ · with state := .active }))
  | .disconnect _ sessionId, cached => cached.map (·.modify sessionId ({ · with state := .inactive }))
  | .ping _ sessionId _ _, cached => cached.map (·.modify sessionId ({ · with state := .active }))
  | .expiry key _, cached =>
    match staleSession key with
    | none => cached
    | some (_, sessionId) => cached.bind (expired sessionId)

/-- The presence of a user as a cell. -/
def record (uid : String) : Cell exec (Option CachedPresence) where
  view w := w.presence uid
  read
    | .getPresence other, answer => if other = uid then some answer else none
    | _, _ => none
  write
    | .setPresence other presence => if other = uid then some (some presence) else none
    | .delPresence other => if other = uid then some none else none
    | _ => none
  view_of_read := by
    intro cmd w content h
    cases cmd with
    | getPresence other =>
      simp only [ite_none_right_eq_some] at h
      obtain ⟨rfl, h⟩ := h
      exact some.inj h
    | _ => cases h
  view_exec := by
    intro cmd w
    cases cmd with
    | setPresence | delPresence =>
      simp only [exec, update_apply, eq_comm]
      split <;> rfl
    | acquire | release =>
      simp only [exec]
      split <;> rfl
    | _ => rfl

section

variable {uid other : String}

variable (t : Timeouts)

theorem idle_of_tame {α : Type} {p : Io α} (hp : p.Only Cmd.Tame) : (record uid).Idle p := by
  apply hp.mono
  intro cmd htame
  cases cmd with
  | setPresence other presence => exact htame.elim
  | delPresence other => exact htame.elim
  | _ => rfl

theorem updates_get {α : Type} {change : Option CachedPresence → Option CachedPresence}
    {f : Option CachedPresence → Io α} (hown : other = uid → ∀ cached, (record uid).Owes (change cached) (f cached))
    (hother : other ≠ uid → ∀ cached, (record uid).Idle (f cached)) :
    (record uid).Updates change (ask (.getPresence other) >>= f) := by
  by_cases hsame : other = uid
  · exact Cell.Updates.fetch rfl fun cached => ⟨cached, if_pos hsame, hown hsame cached⟩
  · exact Cell.Idle.updates ⟨rfl, hother hsame⟩

theorem updates_acquire {change : Option CachedPresence → Option CachedPresence} {key : String}
    {duration : Nat} {f : Nat → Io Unit} (hf : ∀ token, (record uid).Updates change (f token)) :
    (record uid).Updates change (do
      let lock : Option Nat ← ask (.acquire key duration)
      match lock with
      | none => return ()
      | some token => f token) := by
  refine ⟨rfl, fun lock => ?_⟩
  cases lock with
  | none => trivial
  | some token => exact hf token

theorem owes_setSessionState (presence : CachedPresence) (sessionId : String) (state : Liveness) :
    (record uid).Owes (some (presence.modify sessionId ({ · with state := state })))
      (setSessionState t presence uid sessionId state) := by
  refine .inl ⟨if_pos rfl, fun _ => ?_⟩
  cases state with
  | active | inactive => exact ⟨rfl, fun _ => trivial⟩

theorem idle_setSessionState (presence : CachedPresence) (hother : other ≠ uid) (sessionId : String) (state : Liveness) :
    (record uid).Idle (setSessionState t presence other sessionId state) := by
  refine ⟨if_neg hother, fun _ => ?_⟩
  cases state with
  | active | inactive => exact ⟨rfl, fun _ => trivial⟩

theorem idle_touchWorkspace_release (sessionId : String) (wsUuid : Option String) (state : Liveness) (token : Nat) :
    (record uid).Idle (do
      touchWorkspace t other sessionId wsUuid state
      ask (.release (sessionLock other sessionId) token)) :=
  (idle_of_tame (tame.touchWorkspace _ _ _ (fun _ _ => trivial) _).only).bind fun _ => .single rfl

theorem updates_connect (sessionId socketId gatewayId : String) :
    (record uid).Updates (effect (.connect other sessionId socketId gatewayId))
      (handleConnection t other sessionId socketId gatewayId) := by
  apply updates_acquire
  intro token
  apply updates_get
  · rintro rfl cached
    refine .bind_left (idle_of_tame (tame.replaceSocket _).only) fun _ => ?_
    exact (owes_setSessionState t _ sessionId .active).bind_right fun _ => idle_touchWorkspace_release ..
  · intro hother cached
    refine (idle_of_tame (tame.replaceSocket _).only).bind fun _ => ?_
    exact (idle_setSessionState t _ hother sessionId .active).bind fun _ => idle_touchWorkspace_release ..

theorem updates_disconnect (sessionId : String) :
    (record uid).Updates (effect (.disconnect other sessionId)) (handleDisconnect t other sessionId) := by
  apply updates_acquire
  intro token
  apply updates_get
  · rintro rfl cached
    split
    · trivial
    · split
      · trivial
      · exact (owes_setSessionState t _ sessionId .inactive).bind_right fun _ => idle_touchWorkspace_release ..
  · intro hother cached
    split
    · trivial
    · split
      · trivial
      · exact (idle_setSessionState t _ hother sessionId .inactive).bind fun _ => idle_touchWorkspace_release ..

theorem updates_ping (sessionId : String) (uuid : Option String) (served : Bool) :
    (record uid).Updates (effect (.ping other sessionId uuid served)) (handlePing t other sessionId uuid served) := by
  apply updates_get
  · rintro rfl cached
    split
    · exact .inr ⟨rfl, fun _ => trivial⟩
    · refine .ite (.inr ⟨rfl, fun _ => trivial⟩) (.bind_right ?_ fun awareness => ?_)
      · exact (owes_setSessionState t _ sessionId .active).bind_right fun _ =>
          idle_of_tame (tame.refreshWorkspace _ _ _ (fun _ _ => trivial) _ _).only
      · cases awareness with
        | none => trivial
        | some uids => exact .single rfl
  · intro hother cached
    split
    · exact .single rfl
    · refine .ite (.single rfl) (Only.bind ?_ fun awareness => ?_)
      · exact (idle_setSessionState t _ hother sessionId .active).bind fun _ =>
          idle_of_tame (tame.refreshWorkspace _ _ _ (fun _ _ => trivial) _ _).only
      · cases awareness with
        | none => trivial
        | some uids => exact .single rfl

theorem owes_dropSession (sessionId : String) :
    (record uid).Owes (dropped sessionId presence) (dropSession presence uid sessionId) := by
  unfold dropSession dropped
  dsimp only
  split
  · exact .inl ⟨if_pos rfl, fun _ => trivial⟩
  · exact .inl ⟨if_pos rfl, fun _ => trivial⟩

theorem idle_dropSession (hother : other ≠ uid) (sessionId : String) :
    (record uid).Idle (dropSession presence other sessionId) :=
  .ite (.single (if_neg hother)) (.single (if_neg hother))

theorem owes_handleSessionExpiry (sessionId : String) (session : CachedSession) (disposed : Bool) :
    (record uid).Owes (dropped sessionId presence) (handleSessionExpiry presence uid sessionId session disposed) := by
  have hdrop : (record uid).Owes (dropped sessionId presence) (do
      dropSession presence uid sessionId
      return true) := (owes_dropSession presence sessionId).bind_right fun _ => trivial
  refine .bind_left (.single rfl) fun _ => ?_
  split
  · exact hdrop
  · refine .bind_left (idle_of_tame (handleWorkspaceExpiry_tame ..)) fun ok => ?_
    split
    · trivial
    · exact hdrop

theorem idle_handleSessionExpiry (hother : other ≠ uid) (sessionId : String) (session : CachedSession) (disposed : Bool) :
    (record uid).Idle (handleSessionExpiry presence other sessionId session disposed) := by
  refine .bind (.single rfl) fun _ => ?_
  split
  · exact (idle_dropSession presence hother sessionId).bind fun _ => trivial
  · refine .bind (idle_of_tame (handleWorkspaceExpiry_tame ..)) fun ok => .ite trivial ?_
    exact (idle_dropSession presence hother sessionId).bind fun _ => trivial

theorem updates_stale (sessionId : String) (disposed : Bool) :
    (record uid).Updates (Option.bind · (expired sessionId)) (handleStaleSession t other sessionId disposed) := by
  apply updates_get
  · rintro rfl cached
    cases cached with
    | none => trivial
    | some presence =>
      simp only [Option.bind_some, expired]
      cases hsession : presence.get? sessionId with
      | none => trivial
      | some session =>
        simp only
        cases hstate : session.state with
        | active =>
          refine .bind_left (idle_of_tame (tame.idleWorkspace _ _ _ fun _ _ => trivial).only) fun _ => ?_
          exact (owes_setSessionState t presence sessionId .inactive).bind_right fun _ => trivial
        | inactive => exact owes_handleSessionExpiry presence sessionId session disposed
  · intro hother cached
    split
    · trivial
    · split
      · trivial
      · split
        · refine (idle_of_tame (tame.idleWorkspace _ _ _ fun _ _ => trivial).only).bind fun _ => ?_
          exact (idle_setSessionState t _ hother sessionId .inactive).bind fun _ => trivial
        · exact idle_handleSessionExpiry _ hother sessionId _ disposed

theorem updates_expiry (key : String) (disposed : Bool) :
    (record uid).Updates (effect (.expiry key disposed)) (handleCacheExpiry t key disposed) := by
  apply updates_acquire
  intro token
  refine .bind_right ?_ fun ok => .ite (.single rfl) trivial
  by_cases hhead : (split key).head? = some "presence"
  · rw [handleStaleKey, if_pos hhead, handleStalePresence]
    cases hparts : given (split key).tail[2]? with
    | none =>
      have heffect : effect (.expiry key disposed) = (Option.bind · (expired (rendered (split key).tail[1]?))) := by
        funext cached
        simp only [effect, staleSession, if_pos hhead, hparts]
      rw [heffect]
      exact updates_stale t _ disposed
    | some wsUuid => exact (idle_of_tame (tame.handleStaleWorkspace _ _ _ fun _ _ => ⟨trivial, trivial, trivial⟩).only).updates
  · rw [handleStaleKey, if_neg hhead]
    trivial

theorem updates_program (op : Op) : (record uid).Updates (effect op) (program t op) := by
  cases op with
  | connect other sessionId socketId gatewayId => exact updates_connect t sessionId socketId gatewayId
  | disconnect other sessionId => exact updates_disconnect t sessionId
  | ping other sessionId uuid served => exact updates_ping t sessionId uuid served
  | expiry key disposed => exact updates_expiry t key disposed

end

def socketOf (cached : Option CachedPresence) (sessionId : String) : Option (String × String) :=
  (cached.bind (·.get? sessionId)).map fun session => (session.socketId, session.gatewayId)

/-- The session is inactive. -/
def Lapses (cached : Option CachedPresence) (sessionId : String) : Bool :=
  (cached.bind (·.get? sessionId)).any fun session => session.state = .inactive

abbrev Ledger := String → Option (String × String)

def noted (op : Op) (cached : Option CachedPresence) (ledger : Ledger) : Ledger :=
  match op with
  | .connect _ sessionId socketId gatewayId => update ledger sessionId (some (socketId, gatewayId))
  | .expiry key _ =>
    match staleSession key with
    | none => ledger
    | some (_, sessionId) => if Lapses cached sessionId then update ledger sessionId none else ledger
  | _ => ledger

structure Tracked where
  pool : State
  ledger : Ledger

def start (w : World) : Tracked := ⟨⟨w, []⟩, fun _ => none⟩

def step (t : Timeouts) (uid : String) (s : Tracked) (label : Step) : Tracked where
  pool := Pool.step (program t) exec World.change s.pool label
  ledger :=
    match (record uid).storing s.pool label with
    | none => s.ledger
    | some task => noted task.op ((record uid).firstRead task.seen).join s.ledger

/-- Every session of the ledger is in the presence, with its socket. -/
def Kept (uid : String) (s : Tracked) : Prop :=
  ∀ sessionId socket, s.ledger sessionId = some socket → socketOf (s.pool.shared.presence uid) sessionId = some socket

section

variable (cached : Option CachedPresence)

theorem socketOf_modify (sessionId : String) (state : Liveness) (other : String) :
    socketOf (cached.map (·.modify sessionId ({ · with state := state }))) other = socketOf cached other := by
  cases cached with
  | none => rfl
  | some presence =>
    simp only [socketOf, map_some, bind_some, Dict.get?_modify]
    split
    · cases presence.get? other <;> rfl
    · rfl

theorem socketOf_connect (uid sessionId socketId gatewayId other : String) :
    socketOf (effect (.connect uid sessionId socketId gatewayId) cached) other =
      if other = sessionId then some (socketId, gatewayId) else socketOf cached other := by
  simp only [effect, socketOf, bind_some, Dict.get?_modify, Dict.get?_set]
  split_ifs
  · rfl
  · cases cached <;> rfl

theorem socketOf_dropped {sessionId other : String} (hne : other ≠ sessionId) :
    socketOf (dropped sessionId presence) other = socketOf (some presence) other := by
  have herase : (presence.erase sessionId).get? other = presence.get? other := by
    rw [Dict.get?_erase, if_neg hne]
  unfold dropped
  split
  · rename_i hempty
    cases hget : presence.get? other with
    | none => simp [socketOf, hget]
    | some session =>
      have hentry := Dict.mem_entries.mpr (herase.trans hget)
      rw [hempty] at hentry
      cases hentry
  · simp [socketOf, herase]

theorem socketOf_expired (sessionId other : String) :
    socketOf (cached.bind (expired sessionId)) other = socketOf cached other ∨
      other = sessionId ∧ Lapses cached sessionId := by
  cases cached with
  | none => exact .inl rfl
  | some presence =>
    simp only [bind_some, expired]
    cases hsession : presence.get? sessionId with
    | none => exact .inl rfl
    | some session =>
      simp only
      cases hstate : session.state with
      | active => exact .inl (socketOf_modify (some presence) sessionId .inactive other)
      | inactive =>
        by_cases hsame : other = sessionId
        · exact .inr ⟨hsame, by simp [Lapses, hsession, hstate]⟩
        · exact .inl (socketOf_dropped presence hsame)

end

theorem kept_effect {cached : Option CachedPresence} {ledger : Ledger} (op : Op)
    (hkept : ∀ sessionId socket, ledger sessionId = some socket → socketOf cached sessionId = some socket) :
    ∀ sessionId socket, noted op cached ledger sessionId = some socket →
      socketOf (effect op cached) sessionId = some socket := by
  intro sessionId socket hledger
  cases op with
  | connect uid connecting socketId gatewayId =>
    rw [socketOf_connect]
    simp only [noted, update_apply] at hledger
    split_ifs at hledger ⊢
    · exact hledger
    · exact hkept sessionId socket hledger
  | disconnect uid leaving => exact (socketOf_modify cached leaving .inactive sessionId).trans (hkept sessionId socket hledger)
  | ping uid pinging uuid served =>
    exact (socketOf_modify cached pinging .active sessionId).trans (hkept sessionId socket hledger)
  | expiry key disposed =>
    simp only [noted, effect] at hledger ⊢
    cases hstale : staleSession key with
    | none =>
      rw [hstale] at hledger
      exact hkept sessionId socket hledger
    | some stale =>
      simp only [hstale] at hledger ⊢
      rcases socketOf_expired cached stale.2 sessionId with hsame | ⟨rfl, hlapses⟩
      · rw [hsame]
        split_ifs at hledger with hlapses
        · rw [update_apply] at hledger
          split_ifs at hledger
          exact hkept sessionId socket hledger
        · exact hkept sessionId socket hledger
      · simp [hlapses] at hledger

section

variable {t : Timeouts} {uid : String}

theorem view_change (w : World) (change : Change) : (record uid).view (w.change change) = (record uid).view w :=
  congrFun (World.change_presence w change) uid

theorem kept_step {s : Tracked} (hupdating : (record uid).Updating effect s.pool)
    (hkept : Kept uid s) {label : Step} (hfresh : (record uid).Fresh s.pool label) : Kept uid (step t uid s label) := by
  have hview : (step t uid s label).pool.shared.presence uid =
      ((record uid).storing s.pool label).elim (s.pool.shared.presence uid)
        fun task => effect task.op (s.pool.shared.presence uid) := Cell.view_step hupdating view_change hfresh
  unfold Kept
  rw [hview]
  cases hstoring : (record uid).storing s.pool label with
  | none =>
    simp only [step, hstoring]
    exact hkept
  | some task =>
    simp only [step, hstoring]
    rw [hfresh task hstoring]
    exact kept_effect task.op hkept

/-- Handlers that are fresh whenever they write the presence of the user do not erase each other's sessions. -/
theorem kept_of_fresh {w : World} {labels : List Step}
    (hfresh : Along (step t uid) (fun s label => (record uid).Fresh s.pool label) (start w) labels) :
    Always (step t uid) (Kept uid) (start w) labels := by
  have hstart : (record uid).Updating effect (start w).pool := fun task htask => nomatch htask
  have hkept : Kept uid (start w) := fun sessionId socket hledger => nomatch hledger
  have hstep (s : Tracked) (label : Step) : (record uid).Updating effect s.pool ∧ Kept uid s →
      (record uid).Fresh s.pool label →
      (record uid).Updating effect (step t uid s label).pool ∧ Kept uid (step t uid s label) :=
    fun hs hfresh => ⟨Cell.updating_step (updates_program t) hs.1 label, kept_step hs.1 hs.2 hfresh⟩
  refine always_iff.mpr ⟨hkept, ?_⟩
  exact along_of_invariant hstep (fun s label hs hfresh => kept_step hs.1 hs.2 hfresh) ⟨hstart, hkept⟩ hfresh

end

def inTurn : List Step :=
  [.spawn (.connect "alice" "s1" "k1" "g1"), .resume 0, .resume 0, .resume 0, .spawn (.connect "alice" "s2" "k2" "g2"),
    .resume 1, .resume 1, .resume 0, .resume 1, .resume 1, .resume 0, .resume 0, .resume 1, .resume 1,
    .spawn (.disconnect "alice" "s1"), .resume 2, .resume 2, .resume 2]

theorem kept_inTurn : Always (step .default "alice") (Kept "alice") (start .empty) inTurn :=
  kept_of_fresh (by decide +kernel)

def overlapping : List Step :=
  [.spawn (.connect "alice" "s1" "k1" "g1"), .spawn (.connect "alice" "s2" "k2" "g2"), .resume 0, .resume 0, .resume 1,
    .resume 1, .resume 0, .resume 0, .resume 0, .resume 0, .resume 1, .resume 1, .resume 1, .resume 1]

/-- Both connections are complete, and the first session is not in the presence. -/
theorem erased_overlapping :
    (∀ task ∈ (run (step .default "alice") (start .empty) overlapping).pool.tasks, task.prog.head? = none) ∧
      ¬Kept "alice" (run (step .default "alice") (start .empty) overlapping) := by
  refine ⟨by decide +kernel, fun hkept => ?_⟩
  exact absurd (hkept "s1" ("k1", "g1") (by decide +kernel)) (by decide +kernel)

end HideServer.Gateway.Sessions
