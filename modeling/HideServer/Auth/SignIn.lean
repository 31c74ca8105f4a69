import HideServer.Async.Triple
import HideServer.Async.Trace

/-!
# Signing in by a mailed PIN

An address has one record in the cache: how often a PIN was requested and submitted, and the PIN. A
call reads it, changes it and writes it back. Beside the record the world keeps how the comparisons
turned out and which PINs were mailed.
-/

namespace HideServer.Auth

open Async

/-- The record of an address. -/
structure CacheEmailSignIn where
  reqAttemptCount : Int32
  verifyAttemptCount : Int32
  pin : String
  deriving DecidableEq, Repr

def maxAttemptCount : Int32 := 3

inductive Lookup where
  | found (uid : String)
  | notFound
  | failed
  deriving DecidableEq, Repr

inductive Call where
  | hasKey
  | get
  | set (record : CacheEmailSignIn) (ttlSeconds : Nat)
  | delete
  | compare (stored : String) (pin : Option String)
  | sendPinEmail (pin : String) (sent : Bool)
  | getUserByEmail (lookup : Lookup)
  | createUser (uid : Option String)
  | createCustomToken (uid : String) (token : Option String)
  deriving DecidableEq, Repr

abbrev Call.Answer : Call → Type
  | .hasKey | .compare .. | .sendPinEmail .. => Bool
  | .get => Option CacheEmailSignIn
  | .set .. | .delete => Unit
  | .getUserByEmail _ => Lookup
  | .createUser _ | .createCustomToken .. => Option String

structure World where
  cached : Option CacheEmailSignIn
  /-- Whether the PINs compared since there is a record were right, the latest first. -/
  compared : List Bool
  /-- The latest first. -/
  mailed : List String
  deriving DecidableEq, Repr

def World.empty : World := ⟨none, [], []⟩

def exec : (call : Call) → World → call.Answer × World
  | .hasKey, w => (w.cached.isSome, w)
  | .get, w => (w.cached, w)
  | .set record _, w => ((), { w with cached := some record, compared := if w.cached.isSome then w.compared else [] })
  | .delete, w => ((), { w with cached := none })
  | .compare stored pin, w => (pin = some stored, { w with compared := decide (pin = some stored) :: w.compared })
  | .sendPinEmail pin sent, w => (sent, if sent then { w with mailed := pin :: w.mailed } else w)
  | .getUserByEmail lookup, w => (lookup, w)
  | .createUser uid, w => (uid, w)
  | .createCustomToken _ token, w => (token, w)

abbrev Io := Prog Call Call.Answer

abbrev ask (call : Call) : Io call.Answer := Prog.perform call

/-- `EMAIL_REGEX`: the last dot of the domain is followed by two letters or more. -/
def validateEmail (email : String) : Bool :=
  match email.toList.splitOn '@' with
  | [mailbox, domain] =>
    let tld := domain.reverse.takeWhile (· ≠ '.')
    let host := (domain.reverse.dropWhile (· ≠ '.')).tail
    mailbox ≠ [] && mailbox.all (fun char => char.isAlphanum || "._%+-".toList.contains char) &&
      host ≠ [] && host.all (fun char => char.isAlphanum || char = '.' || char = '-') &&
      2 ≤ tld.length && tld.all Char.isAlpha
  | _ => false

def cachedOrNew (pin : String) (found : Bool) : Io (Option CacheEmailSignIn) :=
  if found then ask .get else return some ⟨0, 0, pin⟩

def registerEmail (email pin : String) (sent : Bool) : Io (Except String Unit) := do
  if !validateEmail email then return .error "INVALID_EMAIL"
  let found : Bool ← ask .hasKey
  let cachedPin ← cachedOrNew pin found
  match cachedPin with
  | none => return .error "NullPointerException"
  | some cachedPin =>
    let cachedPin := { cachedPin with reqAttemptCount := cachedPin.reqAttemptCount + 1, pin := pin }
    if cachedPin.verifyAttemptCount > maxAttemptCount then
      ask (.set cachedPin 900)
      return .error "EMAIL_VERIFY_CODE_MAX_ATTEMPTS_REACHED"
    if cachedPin.reqAttemptCount > maxAttemptCount then
      ask (.set cachedPin 900)
      return .error "EMAIL_REQUEST_CODE_MAX_ATTEMPTS_REACHED"
    ask (.set cachedPin 300)
    let ok : Bool ← ask (.sendPinEmail pin sent)
    return if ok then .ok () else .error "MessagingException"

structure Account where
  lookup : Lookup
  created : Option String
  token : Option String
  deriving DecidableEq, Repr

def createCustomToken (uid : String) (token : Option String) : Io (Except String String) := do
  let token : Option String ← ask (.createCustomToken uid token)
  match token with
  | none => return .error "FirebaseAuthException"
  | some token => return .ok token

/-- The end of `verifyEmail` for a right PIN. -/
def signIn (account : Account) : Io (Except String String) := do
  let lookup : Lookup ← ask (.getUserByEmail account.lookup)
  match lookup with
  | .failed => return .error "UNKNOWN"
  | .found uid => createCustomToken uid account.token
  | .notFound =>
    let created : Option String ← ask (.createUser account.created)
    match created with
    | none => return .error "FirebaseAuthException"
    | some uid => createCustomToken uid account.token

/-- A PIN that is missing from the request is `none`, and equals none that is stored. -/
def verifyEmail (pin : Option String) (account : Account) : Io (Except String String) := do
  let found : Bool ← ask .hasKey
  if !found then return .error "PIN_EXPIRED"
  let cachedPin : Option CacheEmailSignIn ← ask .get
  match cachedPin with
  | none => return .error "NullPointerException"
  | some cachedPin =>
    if cachedPin.verifyAttemptCount > maxAttemptCount then
      ask (.set cachedPin 900)
      return .error "EMAIL_VERIFY_CODE_MAX_ATTEMPTS_REACHED"
    let attempted := { cachedPin with verifyAttemptCount := cachedPin.verifyAttemptCount + 1 }
    let right : Bool ← ask (.compare attempted.pin pin)
    if !right then
      ask (.set attempted 300)
      return .error "EMAIL_VERIFY_CODE_WRONG"
    ask .delete
    signIn account

inductive Op where
  | register (pin : String) (sent : Bool)
  | verify (pin : Option String) (account : Account)
  deriving DecidableEq, Repr

def program (email : String) : Op → Io (Except String (Option String))
  | .register pin sent => (·.map fun _ => none) <$> registerEmail email pin sent
  | .verify pin account => (·.map some) <$> verifyEmail pin account

def step (email : String) (w : World) (op : Op) : World := (Prog.run exec (program email op) w).2

end HideServer.Auth
