import HideServer.Manage.Service
import HideServer.Cache.World

/-!
# Profiles

A profile is a document of the collection `users`, looked up by the field `uid` and written under the
username. What the other services answer is part of a call.
-/

namespace HideServer.User

open Async Cache

structure Profile where
  uid : String
  name : String
  username : String
  email : String
  picture : String
  issuer : String
  expireAt : Option String
  deriving DecidableEq, Repr

/-- The collection, by id. -/
abbrev Users := Dict String Profile

structure Store where
  users : Users
  profiles : String → Option Profile

def Store.empty : Store := ⟨.empty, fun _ => none⟩

/-- The documents whose field `uid` is this. -/
def Users.of (users : Users) (uid : String) : List Profile :=
  (users.entries.filter fun entry => entry.2.uid = uid).map Prod.snd

structure Changes where
  name : Option String
  username : Option String
  email : Option String
  picture : Option String
  deriving DecidableEq, Repr

def Changes.apply (changes : Changes) (profile : Profile) : Profile :=
  { profile with
    name := changes.name.getD profile.name
    username := changes.username.getD profile.username
    email := changes.email.getD profile.email
    picture := changes.picture.getD profile.picture }

inductive Call where
  | countUsers (uid : String)
  /-- Whether the account has a provider, if it can be looked up. -/
  | getUser (uid : String) (provided : Option Bool)
  /-- The first of the documents found; `choice` stands for what decides their order. -/
  | findUser (uid : String) (choice : Nat)
  /-- `stored` says whether the database carries out the write. -/
  | set (id : String) (profile : Profile) (stored : Bool)
  | update (id : String) (changes : Changes) (stored : Bool)
  | delete (id : String) (stored : Bool)
  | cacheProfile (uid : String) (profile : Profile)
  deriving DecidableEq, Repr

abbrev Call.Answer : Call → Type
  | .countUsers _ => Nat
  | .getUser .. => Option Bool
  | .findUser .. => Option Profile
  | .set .. | .update .. | .delete .. => Bool
  | .cacheProfile .. => Unit

/-- A document that is not there cannot be updated; it can be deleted. -/
def exec : (call : Call) → Store → call.Answer × Store
  | .countUsers uid, s => ((s.users.of uid).length, s)
  | .getUser _ provided, s => (provided, s)
  | .findUser uid choice, s => ((s.users.of uid)[choice % (s.users.of uid).length]?, s)
  | .set id profile stored, s => (stored, if stored then { s with users := s.users.set id profile } else s)
  | .update id changes stored, s =>
    if stored && (s.users.get? id).isSome then (true, { s with users := s.users.modify id changes.apply }) else (false, s)
  | .delete id stored, s => (stored, if stored then { s with users := s.users.erase id } else s)
  | .cacheProfile uid profile, s => ((), { s with profiles := Function.update s.profiles uid (some profile) })

abbrev Io := Prog Call Call.Answer

abbrev ask (call : Call) : Io call.Answer := Prog.perform call

/-- The characters that `\s` stands for. -/
def isSpace (char : Char) : Bool :=
  [0x9, 0xa, 0xb, 0xc, 0xd, 0x20, 0xa0, 0x1680, 0x2028, 0x2029, 0x202f, 0x205f, 0x3000, 0xfeff].contains char.toNat ||
    (0x2000 ≤ char.toNat && char.toNat ≤ 0x200a)

/-- `usernameRegex`: at least three characters, none of them a space or one of the listed signs. -/
def validUsername (username : String) : Bool :=
  3 ≤ Manage.units username.toList &&
    username.toList.all fun char => !isSpace char && !"!@#$%^&*()+=\x7b\x7d[]`~:;\"?/<>".toList.contains char

/-- `emailRegex`: one `@` with something before it, and after it a dot that is neither first nor last. -/
def validEmail (email : String) : Bool :=
  match email.toList.splitOn '@' with
  | [mailbox, domain] =>
    mailbox ≠ [] && (mailbox ++ domain).all (!isSpace ·) && domain.tail.dropLast.contains '.'
  | _ => false

/-- The body of a registration. -/
structure CreateData where
  name : Option String
  username : Option String
  picture : Option String
  deriving DecidableEq, Repr

structure UpdateData where
  uid : Option String
  name : Option String
  username : Option String
  email : Option String
  picture : Option String
  expireAt : Option String
  deriving DecidableEq, Repr

def validateCreateUser (data : CreateData) : Except String (String × String) :=
  match given data.name, given data.username with
  | some name, some username =>
    if !Manage.validName name then .error "INVALID_USER_NAME"
    else if !validUsername username then .error "INVALID_USER_USERNAME"
    else .ok (name, username)
  | _, _ => .error "USER_DETAILS_MISSING"

/-- The error, if there is one. A field that is not given is not checked. -/
def validateUpdateUser (uid : String) (data : UpdateData) : Option String :=
  if (given data.name).any (!Manage.validName ·) then some "INVALID_USER_NAME"
  else if (given data.username).any (!validUsername ·) then some "INVALID_USER_USERNAME"
  else if (given data.email).any (!validEmail ·) then some "INVALID_EMAIL"
  else if data.uid ≠ some uid then some "INVALID_USER_IDENTITY"
  else if (given data.expireAt).isSome then some "UPDATE_USER_FORBIDDEN"
  else none

def UpdateData.changes (data : UpdateData) : Changes :=
  ⟨given data.name, given data.username, given data.email, given data.picture⟩

def Changes.isEmpty (changes : Changes) : Bool :=
  changes.name.isNone && changes.username.isNone && changes.email.isNone && changes.picture.isNone

/-- An account without a provider is a guest's, and its profile has an end. -/
def registered (user : Profile) (name username : String) (data : CreateData) (provided : Bool)
    (expiry : String) : Profile :=
  { user with
    name := name
    username := username
    picture := data.picture.getD ""
    expireAt := if provided then given user.expireAt else some expiry }

/-- It is the user as the request names them that is cached, not the profile. -/
def createUser (user : Profile) (data : CreateData) (provided : Option Bool) (expiry : String)
    (stored : Bool) : Io (Except String Unit) :=
  match validateCreateUser data with
  | .error err => return .error err
  | .ok (name, username) => do
    let count : Nat ← ask (.countUsers user.uid)
    if count ≠ 0 then return .error "USER_ALREADY_REGISTERED"
    let account : Option Bool ← ask (.getUser user.uid provided)
    match account with
    | none => return .error "no account"
    | some provided =>
      let ok : Bool ← ask (.set username (registered user name username data provided expiry) stored)
      if !ok then return .error "not stored"
      ask (.cacheProfile user.uid user)
      return .ok ()

/-- `deleteUser` of `profile.service.ts`. -/
def deleteUser (uid : String) (choice : Nat) (stored : Bool) : Io (Except String Unit) := do
  let found : Option Profile ← ask (.findUser uid choice)
  match found with
  | none => return .error "USER_NOT_FOUND"
  | some profile =>
    let ok : Bool ← ask (.delete profile.username stored)
    return if ok then .ok () else .error "not stored"

/-- Another username makes another document. -/
def writeChanges (old : Profile) (changes : Changes) (stored : Bool) : Io Bool :=
  if changes.username.any (· ≠ old.username) then
    ask (.set (changes.apply old).username (changes.apply old) stored)
  else ask (.update old.username changes stored)

/-- `updateUser` of `profile.service.ts`. -/
def updateUser (uid : String) (data : UpdateData) (choice : Nat) (stored : Bool) : Io (Except String Unit) :=
  match validateUpdateUser uid data with
  | some err => return .error err
  | none =>
    if data.changes.isEmpty then return .ok ()
    else do
      let found : Option Profile ← ask (.findUser uid choice)
      match found with
      | none => return .error "USER_NOT_FOUND"
      | some old =>
        let ok ← writeChanges old data.changes stored
        return if ok then .ok () else .error "not stored"

inductive Op where
  | create (user : Profile) (data : CreateData) (provided : Option Bool) (expiry : String) (stored : Bool)
  | update (uid : String) (data : UpdateData) (choice : Nat) (stored : Bool)
  | delete (uid : String) (choice : Nat) (stored : Bool)
  deriving DecidableEq, Repr

def Op.uid : Op → String
  | .create user .. => user.uid
  | .update uid .. | .delete uid .. => uid

def program : Op → Io (Except String Unit)
  | .create user data provided expiry stored => createUser user data provided expiry stored
  | .update uid data choice stored => updateUser uid data choice stored
  | .delete uid choice stored => deleteUser uid choice stored

def step (s : Store) (op : Op) : Store := (Prog.run exec (program op) s).2

end HideServer.User
