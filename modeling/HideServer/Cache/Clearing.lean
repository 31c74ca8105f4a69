import HideServer.Gateway.Presence

/-!
# What deletions clear

The deletion of a workspace unbinds one session of each member the database had; that of a user
removes what a gateway has cached of them.
-/

namespace HideServer.Cache

open Async Async.Prog Gateway

/-- The presences of the users that have one, all of them read before anything is written. -/
def presencesOf (uids : List String) : Io (List (String × CachedPresence)) :=
  match uids with
  | [] => return []
  | uid :: uids => do
    let cached : Option CachedPresence ← ask (.getPresence uid)
    let rest ← presencesOf uids
    match cached with
    | none => return rest
    | some presence => return (uid, presence) :: rest

theorem run_presencesOf (uids : List String) (w : World) :
    run exec (presencesOf uids) w = (uids.filterMap fun uid => (w.presence uid).map (Prod.mk uid), w) := by
  induction uids with
  | nil => rfl
  | cons uid uids ih =>
    rw [presencesOf, run_bind, run_bind, run_perform, exec, ih, List.filterMap_cons]
    cases w.presence uid <;> rfl

/-- One session of a user is unbound. -/
def unbindFirst (wsUuid : String) (entry : String × CachedPresence) : Io Unit :=
  match boundSession entry.2 wsUuid with
  | none => return ()
  | some sessionId => do
    ask (.emit (.workspaceDeleted entry.1 sessionId))
    ask (.delTimer (presenceWorkspace entry.1 sessionId wsUuid))
    ask (.setPresence entry.1 (entry.2.modify sessionId ({ · with wsUuid := none })))

def clearCacheOnDelete (members : List String) (wsUuid : String) : Io Unit := do
  let presences ← presencesOf members
  each presences (unbindFirst wsUuid)
  ask (.delWorkspace wsUuid)

def removeCaches (uid : String) : Io Unit := do
  ask (.delMembership uid)
  let cached : Option CachedPresence ← ask (.getPresence uid)
  match cached with
  | none => return ()
  | some presence =>
    each presence.keys fun sessionId => ask (.delTimer (presenceSession uid sessionId))
    ask (.delPresence uid)

end HideServer.Cache
