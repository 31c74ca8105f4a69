import HideServer.Gateway.Presence

/-!
# Messages to sockets

In `send` a record without the session is as good as no record. In `broadcast` it is an error, and
nobody gets the message.
-/

namespace HideServer.Gateway.Broadcast

open Async Async.Prog Cache List

variable {M : Type}

inductive Cmd (M : Type) where
  | getPresence (uid : String)
  /-- `server.to(socketId).emit(pattern, msg)` -/
  | emit (socketId pattern : String) (msg : M)

abbrev Cmd.Answer : Cmd M → Type
  | .getPresence _ => Option CachedPresence
  | .emit .. => Unit

structure Sockets (M : Type) where
  presence : String → Option CachedPresence
  emitted : List (String × String × M)

def exec : (cmd : Cmd M) → Sockets M → cmd.Answer × Sockets M
  | .getPresence uid, s => (s.presence uid, s)
  | .emit socketId pattern msg, s => ((), { s with emitted := s.emitted ++ [(socketId, pattern, msg)] })

abbrev Io (M : Type) := Prog (Cmd M) Cmd.Answer

abbrev ask (cmd : Cmd M) : Io M cmd.Answer := perform cmd

/-- Nothing is emitted without a socket id. -/
def deliver (pattern : String) (msg : M) (socketId : Option String) : Io M Unit :=
  match given socketId with
  | none => return ()
  | some socketId => ask (.emit socketId pattern msg)

/-- `send` of `socket.gateway.ts`. -/
def send (uid sessionId pattern : String) (msg : M) : Io M Unit := do
  let presence : Option CachedPresence ← ask (.getPresence uid)
  deliver pattern msg ((presence.bind (·.get? sessionId)).map (·.socketId))

def presenceAll : List String → Io M (List (Option CachedPresence))
  | [] => return []
  | uid :: uids => do
    let presence : Option CachedPresence ← ask (.getPresence uid)
    let rest ← presenceAll uids
    return presence :: rest

/-- `presence?.[sessionId].socketId` -/
def socketId (presence : Option CachedPresence) (sessionId : Option String) : Except String (Option String) :=
  match presence with
  | none => .ok none
  | some presence =>
    match presence.get? (rendered sessionId) with
    | none => .error "Cannot read properties of undefined (reading 'socketId')"
    | some session => .ok (some session.socketId)

def socketIds : List (Option CachedPresence) → List String → Except String (List (Option String))
  | [], _ => .ok []
  | presence :: presences, sessionIds => do
    let id ← socketId presence sessionIds.head?
    let rest ← socketIds presences sessionIds.tail
    return id :: rest

/-- `broadcast` of `socket.gateway.ts`; `false` if it throws. -/
def broadcast (uids sessionIds : List String) (pattern : String) (msg : M) : Io M Bool := do
  let presences ← presenceAll uids
  match socketIds presences sessionIds with
  | .error _ => return false
  | .ok ids =>
    each ids (deliver pattern msg)
    return true

def sendEach (pairs : List (String × String)) (pattern : String) (msg : M) : Io M Unit :=
  each pairs fun pair => send pair.1 pair.2 pattern msg

def Sockets.socket? (s : Sockets M) (pair : String × String) : Option String :=
  ((s.presence pair.1).bind (·.get? pair.2)).map (·.socketId)

/-- A user with a record has the session. -/
def Sockets.Knows (s : Sockets M) (pair : String × String) : Prop :=
  ∀ presence ∈ s.presence pair.1, (presence.get? pair.2).isSome = true
  deriving Decidable

def Sockets.told (s : Sockets M) (pattern : String) (msg : M) (ids : List (Option String)) : Sockets M :=
  { s with emitted := s.emitted ++ (ids.filterMap given).map fun id => (id, pattern, msg) }

section

variable (s : Sockets M) (pattern : String) (msg : M)

theorem run_deliver (id : Option String) : run exec (deliver pattern msg id) s = ((), s.told pattern msg [id]) := by
  unfold deliver Sockets.told
  cases hid : given id with
  | none => simp [hid]
  | some id => simp [hid, exec]

theorem told_told (ids ids' : List (Option String)) :
    (s.told pattern msg ids).told pattern msg ids' = s.told pattern msg (ids ++ ids') := by
  simp [Sockets.told]

theorem told_emitted_eq_iff (ids : List (Option String)) :
    (s.told pattern msg ids).emitted = s.emitted ↔ ∀ id ∈ ids, given id = none := by
  simp [Sockets.told]

theorem run_each_deliver (ids : List (Option String)) :
    run exec (each ids (deliver pattern msg)) s = ((), s.told pattern msg ids) := by
  induction ids generalizing s with
  | nil => simp [each, Sockets.told]
  | cons id ids ih =>
    simp only [each, run_bind, run_deliver, ih, told_told]
    rfl

theorem run_sendEach (pairs : List (String × String)) :
    run exec (sendEach pairs pattern msg) s = ((), s.told pattern msg (pairs.map s.socket?)) := by
  induction pairs generalizing s with
  | nil => simp [sendEach, each, Sockets.told]
  | cons pair pairs ih =>
    have hsend : run exec (send pair.1 pair.2 pattern msg) s = ((), s.told pattern msg [s.socket? pair]) := by
      simp only [send, run_bind, run_perform, exec, run_deliver]
      rfl
    unfold sendEach at ih
    simp only [sendEach, each, run_bind, hsend, ih, told_told]
    rfl

theorem run_presenceAll (uids : List String) : run exec (presenceAll uids) s = (uids.map s.presence, s) := by
  induction uids with
  | nil => rfl
  | cons uid uids ih => simp [presenceAll, exec, ih]

end

section

variable {s : Sockets M}

theorem socketId_of_knows {uid sessionId : String} (h : s.Knows (uid, sessionId)) :
    socketId (s.presence uid) (some sessionId) = .ok (s.socket? (uid, sessionId)) := by
  unfold socketId Sockets.socket?
  cases hpresence : s.presence uid with
  | none => rfl
  | some presence =>
    obtain ⟨session, hsession⟩ := Option.isSome_iff_exists.mp (h presence hpresence)
    simp [rendered, hsession]

theorem socketId_of_not_knows {uid sessionId : String} (h : ¬s.Knows (uid, sessionId)) :
    ∃ err, socketId (s.presence uid) (some sessionId) = .error err := by
  simp only [Sockets.Knows, not_forall] at h
  obtain ⟨presence, hpresence, hnone⟩ := h
  have hsession : presence.get? sessionId = none := by simpa using hnone
  rw [show s.presence uid = some presence from hpresence]
  simp [socketId, rendered, hsession]

theorem socketIds_of_knows {uids sessionIds : List String} (hlength : uids.length = sessionIds.length)
    (h : ∀ pair ∈ uids.zip sessionIds, s.Knows pair) :
    socketIds (uids.map s.presence) sessionIds = .ok ((uids.zip sessionIds).map s.socket?) := by
  induction uids generalizing sessionIds with
  | nil => rfl
  | cons uid uids ih =>
    cases sessionIds with
    | nil => cases hlength
    | cons sessionId sessionIds =>
      have hfirst := socketId_of_knows (h (uid, sessionId) (by simp))
      have hrest := ih (by simpa using hlength) fun pair hpair => h pair (by simp [hpair])
      simp only [map_cons, socketIds, head?_cons, tail_cons, hfirst, hrest]
      rfl

theorem socketIds_of_not_knows {uids sessionIds : List String} (hlength : uids.length = sessionIds.length)
    {pair : String × String} (hpair : pair ∈ uids.zip sessionIds) (h : ¬s.Knows pair) :
    ∃ err, socketIds (uids.map s.presence) sessionIds = .error err := by
  induction uids generalizing sessionIds with
  | nil => cases hpair
  | cons uid uids ih =>
    cases sessionIds with
    | nil => cases hlength
    | cons sessionId sessionIds =>
      simp only [map_cons, socketIds, head?_cons, tail_cons]
      rcases mem_cons.mp hpair with rfl | hpair
      · obtain ⟨err, herr⟩ := socketId_of_not_knows h
        exact ⟨err, by rw [herr]; rfl⟩
      · obtain ⟨err, herr⟩ := ih (by simpa using hlength) hpair
        rw [herr]
        cases socketId (s.presence uid) (some sessionId) with
        | error err' => exact ⟨err', rfl⟩
        | ok id => exact ⟨err, rfl⟩

end

/-- A broadcast emits what the sends would if and only if every user who has a record has the session in it, or none of
the sends would emit anything. -/
theorem broadcast_eq_sends_iff (s : Sockets M) (uids sessionIds : List String) (pattern : String) (msg : M)
    (hlength : uids.length = sessionIds.length) :
    (run exec (broadcast uids sessionIds pattern msg) s).2.emitted =
        (run exec (sendEach (uids.zip sessionIds) pattern msg) s).2.emitted ↔
      (∀ pair ∈ uids.zip sessionIds, s.Knows pair) ∨ ∀ pair ∈ uids.zip sessionIds, given (s.socket? pair) = none := by
  simp only [broadcast, run_bind, run_presenceAll, run_sendEach]
  by_cases hknows : ∀ pair ∈ uids.zip sessionIds, s.Knows pair
  · rw [socketIds_of_knows hlength hknows]
    simp only [run_bind, run_each_deliver]
    exact iff_of_true rfl (.inl hknows)
  · simp only [not_forall] at hknows
    obtain ⟨pair, hpair, hunknown⟩ := hknows
    obtain ⟨err, herr⟩ := socketIds_of_not_knows hlength hpair hunknown
    have hsome : ¬∀ pair ∈ uids.zip sessionIds, s.Knows pair := fun h => hunknown (h pair hpair)
    rw [herr, or_iff_right hsome]
    rw [eq_comm, pure_eq, run_ret, told_emitted_eq_iff, forall_mem_map]

def twoUsers : Sockets String where
  presence uid :=
    if uid = "u1" then some (Dict.empty.set "s1" ⟨.active, "socket1", "g1", some "w1"⟩)
    else if uid = "u2" then some (Dict.empty.set "s3" ⟨.active, "socket3", "g1", none⟩)
    else none
  emitted := []

theorem broadcast_eq_sends_online :
    (run exec (broadcast ["u1", "u3"] ["s1", "s3"] "fs" "edit") twoUsers).2.emitted =
      (run exec (sendEach [("u1", "s1"), ("u3", "s3")] "fs" "edit") twoUsers).2.emitted :=
  (broadcast_eq_sends_iff twoUsers ["u1", "u3"] ["s1", "s3"] "fs" "edit" rfl).mpr (.inl (by decide))

/-- The session of the second user is missing, and the first one gets nothing either. -/
theorem broadcast_undelivered :
    (run exec (broadcast ["u1", "u2"] ["s1", "s2"] "fs" "edit") twoUsers).2.emitted = [] ∧
      (run exec (sendEach [("u1", "s1"), ("u2", "s2")] "fs" "edit") twoUsers).2.emitted =
        [("socket1", "fs", "edit")] := by
  decide

/-- The users with the session each of them has in the workspace, as `SyncService.broadcast` looks them up. -/
def Sockets.active (s : Sockets M) (uuid : String) (uids : List String) : List (String × String) :=
  uids.filterMap fun uid => ((s.presence uid).bind (boundSession · uuid)).map fun sessionId => (uid, sessionId)

theorem knows_of_mem_active {s : Sockets M} {uuid : String} {uids : List String} {pair : String × String}
    (h : pair ∈ s.active uuid uids) : s.Knows pair := by
  obtain ⟨uid, -, hpair⟩ := mem_filterMap.mp h
  obtain ⟨sessionId, hbound, rfl⟩ := Option.map_eq_some_iff.mp hpair
  intro presence hpresence
  rw [show s.presence uid = some presence from hpresence, Option.bind_some] at hbound
  obtain ⟨-, session, hsession, -⟩ := boundSession_some hbound
  simp [hsession]

theorem broadcast_active (s : Sockets M) (uuid : String) (uids : List String) (pattern : String) (msg : M) :
    (run exec (broadcast ((s.active uuid uids).map Prod.fst) ((s.active uuid uids).map Prod.snd) pattern msg) s).2 =
      s.told pattern msg ((s.active uuid uids).map s.socket?) := by
  have hzip : s.active uuid uids = ((s.active uuid uids).map Prod.fst).zip ((s.active uuid uids).map Prod.snd) :=
    zip_of_prod rfl rfl
  have hknows : ∀ pair ∈ s.active uuid uids, s.Knows pair := fun _ => knows_of_mem_active
  rw [hzip] at hknows
  simp only [broadcast, run_bind, run_presenceAll]
  rw [socketIds_of_knows (by simp) hknows, ← hzip]
  simp only [run_bind, run_each_deliver]
  rfl

end HideServer.Gateway.Broadcast
