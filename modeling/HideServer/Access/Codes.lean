import HideServer.Async.Pool
import HideServer.Db.Table

/-!
# Access codes

The five endpoints that create, approve, consume, reset and delete the codes of dedicated workspaces.
Each is a program over its requests to the database and the message broker.
-/

namespace HideServer.Access

open Async

inductive AccessStatus where
  | new
  | unused
  | used
  deriving DecidableEq, Repr

/-- A row of `access_code`, without its key. -/
structure AccessCode where
  code : String
  uid : String
  uuid : String
  status : AccessStatus
  ntfnId : Option String
  expiresAt : Int
  deriving DecidableEq, Repr

/-- A condition on the columns; `some none` is a column that is named but compared with an undefined value. -/
structure Where where
  uid : Option (Option String)
  uuid : Option (Option String)
  code : Option (Option String)
  ntfnId : Option (Option String)
  deriving DecidableEq, Repr

/-- In a find condition an undefined value is not compared. -/
def found (value : Option (Option String)) (column : Option String) : Bool :=
  value.all fun value => value.all (some · = column)

/-- In a delete condition nothing equals an undefined value. -/
def deleted (value : Option (Option String)) (column : Option String) : Bool :=
  value.all fun value => value.any (some · = column)

/-- A row meets every condition of a find or delete option. -/
def Where.test (compare : Option (Option String) → Option String → Bool) (w : Where) (row : AccessCode) : Bool :=
  compare w.uid row.uid && compare w.uuid row.uuid && compare w.code row.code && compare w.ntfnId row.ntfnId

/-- A list of conditions is their disjunction. -/
def finds (wheres : List Where) (row : AccessCode) : Bool := wheres.any (·.test found row)

def deletes (wheres : List Where) (row : AccessCode) : Bool := wheres.any (·.test deleted row)

structure Notification where
  uid : Option String
  id : String
  success : Bool
  code : String
  reqId : Option String
  deriving DecidableEq, Repr

inductive Call where
  | countActive (uid : String)
  | findOne (wheres : List Where) (choice : Nat)
  | insert (row : AccessCode)
  | save (id : Nat) (row : AccessCode)
  | delete (wheres : List Where)
  /-- `UPDATE ... SET status = 'USED' WHERE uid = :uid AND code = :code`. -/
  | markUsed (uid : String) (code : Option String)
  | notify (message : Notification)
  | notificationRead (uid : String) (id : String)
  deriving DecidableEq, Repr

/-- A write is answered by whether it was accepted, the bulk update by the number of rows it affected. -/
abbrev Call.Answer : Call → Type
  | .countActive _ | .markUsed .. => Nat
  | .findOne .. => Option (Nat × AccessCode)
  | .insert _ | .save .. => Bool
  | .delete _ | .notify _ | .notificationRead .. => Unit

abbrev Codes := Db.Table AccessCode

/-- The rows the bulk update is about: a parameter that is undefined is `NULL` there, and nothing equals it. -/
def isCode (uid : String) (code : Option String) (row : AccessCode) : Bool :=
  row.uid = uid && code = some row.code

def status (codes : Codes) (id : Nat) : Option AccessStatus := (codes.rows id).map (·.status)

/-- The column `code` is unique. -/
def codeTaken (codes : Codes) (id : Nat) (code : String) : Bool :=
  codes.others id fun row => row.code = code

def exec : (call : Call) → Codes → call.Answer × Codes
  | .countActive uid, codes =>
    (codes.count fun row => row.uid = uid && (row.status = .unused || row.status = .new), codes)
  | .findOne wheres choice, codes => (codes.find? (finds wheres) choice, codes)
  | .insert row, codes =>
    if codeTaken codes codes.next row.code then (false, codes) else (true, codes.insert row)
  | .save id row, codes =>
    if codeTaken codes id row.code then (false, codes) else (true, codes.save id row)
  | .delete wheres, codes => ((), codes.delete (deletes wheres))
  | .markUsed uid code, codes =>
    (codes.count (isCode uid code), codes.modify (isCode uid code) fun row => { row with status := .used })
  | .notify _, codes => ((), codes)
  | .notificationRead .., codes => ((), codes)

abbrev Io := Prog Call Call.Answer

abbrev ask (call : Call) : Io call.Answer := Prog.perform call

/-- `canProvision` and `mailed` are what the capacity check and the mail to the administrator come to. -/
def createAccessRequest (uid uuid code : String) (expiresAt : Int) (canProvision mailed : Bool) :
    Io (Except String Unit) := do
  let activeCount : Nat ← ask (.countActive uid)
  if activeCount ≠ 0 then return .error "ACCESS_CODE_LIMIT"
  if !canProvision then return .error "NO_CAPACITY"
  if !mailed then return .error "mail failed"
  let saved : Bool ← ask (.insert ⟨code, uid, uuid, .new, none, expiresAt⟩)
  return if saved then .ok () else .error "duplicate code"

inductive FulfillAction where
  | approve
  | reject
  deriving DecidableEq, Repr

/-- What is read of the payload of a token: whom it is for, and the uuid of the code. A token of another kind
verifies too, and has neither. -/
structure AccessToken where
  uid : Option String
  uuid : Option String
  deriving DecidableEq, Repr

/-- Approving: the entity is saved twice, first with its status and then with the id of the notification. -/
def approve (token : AccessToken) (notificationId : String) (choice : Nat) : Io (Except String Unit) := do
  let row : Option (Nat × AccessCode) ← ask (.findOne [⟨none, some token.uuid, none, none⟩] choice)
  match row with
  | none => return .error "NOT_FOUND"
  | some (id, accessCode) =>
    let saved : Bool ← ask (.save id { accessCode with status := .unused })
    if !saved then return .error "save failed"
    ask (.notify ⟨token.uid, notificationId, true, accessCode.code, token.uuid⟩)
    let saved : Bool ← ask (.save id { accessCode with status := .unused, ntfnId := some notificationId })
    return if saved then .ok () else .error "save failed"

def reject (token : AccessToken) (notificationId : String) : Io (Except String Unit) := do
  ask (.delete [⟨none, some token.uuid, none, none⟩])
  ask (.notify ⟨token.uid, notificationId, false, "", token.uuid⟩)
  return .ok ()

/-- A token that does not verify is `none`. -/
def fulfillAccessRequest (action : FulfillAction) (token : Option AccessToken)
    (notificationId : String) (choice : Nat) : Io (Except String Unit) :=
  match token, action with
  | none, _ => return .error "BAD_TOKEN"
  | some token, .reject => reject token notificationId
  | some token, .approve => approve token notificationId choice

/-- `now` is the time at which the expiry is checked. -/
def consumeAccessCode (uid : String) (code : Option String) (now : Int) (choice : Nat) : Io (Except String Unit) := do
  let row : Option (Nat × AccessCode) ← ask (.findOne [⟨some (some uid), none, some code, none⟩] choice)
  match row with
  | none => return .error "ACCESS_CODE_INVALID"
  | some (_, accessCode) =>
    if accessCode.status = .used then return .error "ACCESS_CODE_ALREADY_USED"
    if accessCode.expiresAt < now then return .error "ACCESS_CODE_EXPIRED"
    let affected : Nat ← ask (.markUsed uid code)
    return if affected ≠ 0 then .ok () else .error "ACCESS_CODE_IN_USE"

def resetAccessCode (uid : String) (code : Option String) (choice : Nat) : Io (Except String Unit) := do
  let row : Option (Nat × AccessCode) ← ask (.findOne [⟨some (some uid), none, some code, none⟩] choice)
  match row with
  | none => return .error "ACCESS_CODE_INVALID"
  | some (id, accessCode) =>
    if accessCode.status ≠ .used then return .error "ACCESS_CODE_NOT_IN_USE"
    let saved : Bool ← ask (.save id { accessCode with status := .unused })
    return if saved then .ok () else .error "save failed"

/-- The three find options of `deleteAccessCode`. -/
def identifiers (uid : String) (uuid ntfnId code : Option String) : List Where :=
  [⟨some (some uid), some uuid, none, none⟩, ⟨some (some uid), none, some code, none⟩, ⟨some (some uid), none, none, some ntfnId⟩]

/-- The notification id of the code that was found, if one was, takes the place of the one given. -/
def deleteAccessCode (uid : String) (uuid ntfnId code : Option String) (choice : Nat) : Io (Except String Unit) := do
  let row : Option (Nat × AccessCode) ← ask (.findOne (identifiers uid uuid ntfnId code) choice)
  let ntfnId := match row with
    | some (_, accessCode) => accessCode.ntfnId
    | none => ntfnId
  ask (.delete (identifiers uid uuid ntfnId code))
  match ntfnId with
  | some ntfnId =>
    if ntfnId ≠ "" then ask (.notificationRead uid ntfnId)
    return .ok ()
  | none => return .ok ()

inductive Op where
  | create (uid uuid code : String) (expiresAt : Int) (canProvision mailed : Bool)
  | fulfill (action : FulfillAction) (token : Option AccessToken) (notificationId : String) (choice : Nat)
  | consume (uid : String) (code : Option String) (now : Int) (choice : Nat)
  | reset (uid : String) (code : Option String) (choice : Nat)
  | delete (uid : String) (uuid ntfnId code : Option String) (choice : Nat)
  deriving DecidableEq, Repr

def program : Op → Io (Except String Unit)
  | .create uid uuid code expiresAt canProvision mailed => createAccessRequest uid uuid code expiresAt canProvision mailed
  | .fulfill action token notificationId choice => fulfillAccessRequest action token notificationId choice
  | .consume uid code now choice => consumeAccessCode uid code now choice
  | .reset uid code choice => resetAccessCode uid code choice
  | .delete uid uuid ntfnId code choice => deleteAccessCode uid uuid ntfnId code choice

end HideServer.Access
