import HideServer.Cache.World

/-!
# The membership service of a gateway

A gateway keeps the answers of the workspace service in a cached map for each user, which is read and
written back as a whole.
-/

namespace HideServer.Gateway

open Async Cache

def cacheMembership (uid workspaceUUID : String) (isMember : Bool) (cache : Option CachedMembership) : Io Unit :=
  ask (.setMembership uid ((cache.getD .empty).set workspaceUUID isMember))

def fetchMembership (uid workspaceUUID : String) (cache : Option CachedMembership) (served : Bool) :
    Io (Option Bool) := do
  let isMember : Bool ← ask (.membershipCheck uid workspaceUUID served)
  if !isMember then return none
  cacheMembership uid workspaceUUID isMember cache
  return some isMember

def checkMembership (uid workspaceUUID : String) (served : Bool) : Io (Option Bool) := do
  let cachedMemberships : Option CachedMembership ← ask (.getMembership uid)
  match cachedMemberships.bind (·.get? workspaceUUID) with
  | some isMember => return some isMember
  | none => fetchMembership uid workspaceUUID cachedMemberships served

/-- The cached maps of some users. A user listed twice is read twice, and the later copy is kept. -/
def cachedMemberships (uids : List String) (found : Dict String (Option CachedMembership)) :
    Io (Dict String (Option CachedMembership)) :=
  match uids with
  | [] => return found
  | uid :: uids => do
    let cache : Option CachedMembership ← ask (.getMembership uid)
    cachedMemberships uids (found.set uid cache)

/-- Write the map of one user back with the entry of the workspace changed, if there is such an entry. -/
def amendMembership (uuid : String) (change : CachedMembership → CachedMembership)
    (entry : String × Option CachedMembership) : Io Unit :=
  match entry.2 with
  | none => return ()
  | some cache => if (cache.get? uuid).isSome then ask (.setMembership entry.1 (change cache)) else return ()

def invalidateRemovedMembers (uids : List String) (uuid : String) : Io Unit := do
  let removed ← cachedMemberships uids .empty
  Prog.each removed.entries (amendMembership uuid (·.erase uuid))

def updateAddedMembers (uids : List String) (uuid : String) : Io Unit := do
  let added ← cachedMemberships uids .empty
  Prog.each added.entries (amendMembership uuid (·.set uuid true))

def handleMembersModified (added removed : List String) (uuid : String) : Io Unit := do
  invalidateRemovedMembers removed uuid
  updateAddedMembers added uuid

def handleWorkspaceDeleted (uuid : String) (members : List String) : Io Unit :=
  invalidateRemovedMembers members uuid

end HideServer.Gateway
