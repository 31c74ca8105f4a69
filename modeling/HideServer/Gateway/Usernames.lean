import HideServer.Async.Trace
import HideServer.User.Profile
import Mathlib.Data.Finset.Card

/-!
# Usernames that are taken

Availability is read off a cuckoo filter first. Names are added, removed and looked up in lower case,
but the seed at start-up adds ids as they are. Of the filter only its promise is used: a value added
more often than deleted is never reported absent.
-/

namespace HideServer.Gateway

open Async Function Trace

abbrev Username := { username : String // User.validUsername username }

/-- `toLowerCase`. -/
structure LowerCase where
  lower : String → String
  idempotent : ∀ s, lower (lower s) = lower s

/-- The ids in the collection `users`, and how often each value was added to the filter and deleted from it. -/
structure Usernames where
  users : Finset Username
  added : String → Nat
  deleted : String → Nat

namespace Usernames

def cuckooAdd (s : Usernames) (value : String) : Usernames :=
  { s with added := update s.added value (s.added value + 1) }

def cuckooRemove (s : Usernames) (value : String) : Usernames :=
  { s with deleted := update s.deleted value (s.deleted value + 1) }

def seed (s : Usernames) : Usernames :=
  { s with added := fun value => s.added value + (s.users.filter (·.1 = value)).card }

variable (lowerCase : LowerCase)

/-- `addUsername`, in lower case. -/
def addUsername (s : Usernames) (username : String) : Usernames := s.cuckooAdd (lowerCase.lower username)

def removeUsername (s : Usernames) (username : String) : Usernames := s.cuckooRemove (lowerCase.lower username)

/-- `existsInFilter` is what the filter reports. -/
def checkUsernameExistence (existsInFilter : String → Bool) (s : Usernames) (username : String) : Except String Bool :=
  if !User.validUsername username then .error "INVALID_USER_USERNAME"
  else if !existsInFilter (lowerCase.lower username) then .ok true
  else .ok (!decide (∃ user ∈ s.users, user.1 = username))

/-- A start of the gateway, a document that is created and one that is deleted, with the call each leads to. -/
inductive Event where
  | seed
  | registered (username : Username)
  | deleted (username : Username)

def step (s : Usernames) : Event → Usernames
  | .seed => s.seed
  | .registered username => { s with users := insert username s.users }.addUsername lowerCase username
  | .deleted username =>
    if username ∈ s.users then { s with users := s.users.erase username }.removeUsername lowerCase username else s

def start (registered : Finset Username) : Usernames := seed ⟨registered, fun _ => 0, fun _ => 0⟩

/-- The promise of the filter. -/
def Reports (s : Usernames) (existsInFilter : String → Bool) : Prop :=
  ∀ value, s.deleted value < s.added value → existsInFilter value = true

/-- No username whose document exists is ever said to be available. -/
def NeverOffered (registered : Finset Username) : Prop :=
  ∀ events existsInFilter, (run (step lowerCase) (start registered) events).Reports existsInFilter →
    ∀ user ∈ (run (step lowerCase) (start registered) events).users,
      checkUsernameExistence lowerCase existsInFilter (run (step lowerCase) (start registered) events) user = .ok false

variable {lowerCase} {s : Usernames}

/-- The filter has each value at least as often as it is the lower case of an id. -/
def Covered (lowerCase : LowerCase) (s : Usernames) : Prop :=
  ∀ value, (s.users.filter (lowerCase.lower ·.1 = value)).card + s.deleted value ≤ s.added value

theorem covered_step (event : Event) (h : s.Covered lowerCase) : (s.step lowerCase event).Covered lowerCase := by
  intro value
  have hvalue := h value
  cases event with
  | seed => exact hvalue.trans (Nat.le_add_right ..)
  | registered username =>
    simp only [step, addUsername, cuckooAdd, Finset.filter_insert, update_apply]
    split_ifs with hlower hadded hadded <;> grind
  | deleted username =>
    simp only [step]
    split_ifs with hmem
    · simp only [removeUsername, cuckooRemove, Finset.filter_erase, update_apply]
      by_cases hlower : value = lowerCase.lower username
      · have hpos : 0 < (s.users.filter (lowerCase.lower ·.1 = value)).card :=
          Finset.card_pos.mpr ⟨username, Finset.mem_filter.mpr ⟨hmem, hlower.symm⟩⟩
        rw [Finset.card_erase_of_mem (Finset.mem_filter.mpr ⟨hmem, hlower.symm⟩), if_pos hlower, ← hlower]
        omega
      · rw [Finset.erase_eq_of_notMem fun h => hlower (Finset.mem_filter.mp h).2.symm, if_neg hlower]
        exact hvalue
    · exact hvalue

theorem covered_run {registered : Finset Username} (h : ∀ user ∈ registered, lowerCase.lower user = user)
    (events : List Event) : (run (step lowerCase) (start registered) events).Covered lowerCase := by
  refine run_preserves (fun s event hcovered => covered_step event hcovered) (fun value => ?_) events
  have hsame : registered.filter (lowerCase.lower ·.1 = value) = registered.filter (·.1 = value) :=
    Finset.filter_congr fun user huser => by rw [h user huser]
  change (registered.filter (lowerCase.lower ·.1 = value)).card + 0 ≤ 0 + (registered.filter (·.1 = value)).card
  rw [hsame]
  omega

variable {user : Username}

theorem check_of_covered (h : s.Covered lowerCase) {existsInFilter : String → Bool} (hreports : s.Reports existsInFilter)
    (huser : user ∈ s.users) : checkUsernameExistence lowerCase existsInFilter s user = .ok false := by
  have hpos : 0 < (s.users.filter (lowerCase.lower ·.1 = lowerCase.lower user)).card :=
    Finset.card_pos.mpr ⟨user, Finset.mem_filter.mpr ⟨huser, rfl⟩⟩
  have hreported := hreports (lowerCase.lower user) (by have := h (lowerCase.lower user); omega)
  simp [checkUsernameExistence, user.2, hreported, huser]

theorem offered_of_le (h : s.added (lowerCase.lower user) ≤ s.deleted (lowerCase.lower user)) :
    ∃ existsInFilter, s.Reports existsInFilter ∧ checkUsernameExistence lowerCase existsInFilter s user = .ok true := by
  refine ⟨fun value => decide (s.deleted value < s.added value), fun value hvalue => decide_eq_true hvalue, ?_⟩
  simp [checkUsernameExistence, user.2, h]

theorem NeverOffered.lt {registered : Finset Username} (h : NeverOffered lowerCase registered) (events : List Event)
    (huser : user ∈ (run (step lowerCase) (start registered) events).users) :
    (run (step lowerCase) (start registered) events).deleted (lowerCase.lower user) <
      (run (step lowerCase) (start registered) events).added (lowerCase.lower user) := by
  by_contra hle
  obtain ⟨existsInFilter, hreports, hoffered⟩ := offered_of_le (not_lt.mp hle)
  have hfalse := h events existsInFilter hreports user huser
  rw [hoffered] at hfalse
  cases hfalse

end Usernames

open Usernames

/-- A taken username is never offered, whatever the filter reports within its promise, if and only if the usernames that
were registered when the gateway was first started are in lower case. -/
theorem neverOffered_iff (lowerCase : LowerCase) (registered : Finset Username) :
    NeverOffered lowerCase registered ↔ ∀ user ∈ registered, lowerCase.lower user = user := by
  constructor
  · intro h user huser
    by_contra hne
    -- the seed has added the lower case of the name only if that is a name itself
    have hseeded : 0 < 0 + (registered.filter (·.1 = lowerCase.lower user)).card := h.lt [] huser
    obtain ⟨other, hother⟩ := Finset.card_pos.mp (Nat.zero_add _ ▸ hseeded)
    obtain ⟨hregistered, hspelled⟩ := Finset.mem_filter.mp hother
    -- and no more once that one is deleted
    have hrun : run (step lowerCase) (start registered) [.deleted other] =
        { start registered with users := registered.erase other }.removeUsername lowerCase other := if_pos hregistered
    have hkept : user ∈ (run (step lowerCase) (start registered) [.deleted other]).users := by
      rw [hrun]
      exact Finset.mem_erase.mpr ⟨fun hsame => hne (hsame ▸ hspelled.symm), huser⟩
    have hlt := h.lt [.deleted other] hkept
    have hone : (registered.filter (·.1 = lowerCase.lower user)).card ≤ 1 :=
      Finset.card_le_one.mpr fun left hleft right hright =>
        Subtype.ext ((Finset.mem_filter.mp hleft).2.trans (Finset.mem_filter.mp hright).2.symm)
    rw [hrun, removeUsername, hspelled, lowerCase.idempotent] at hlt
    simp only [cuckooRemove, start, seed, update_self] at hlt
    omega
  · intro h events existsInFilter hreports user huser
    exact check_of_covered (covered_run h events) hreports huser

theorem toLower_toLower (c : Char) : c.toLower.toLower = c.toLower := by
  unfold Char.toLower
  split_ifs with hupper hagain
  · have hshift : ('a'.val - 'A'.val).toNat = 32 := rfl
    have hfirst : 'A'.val.toNat = 65 := rfl
    have hlast : 'Z'.val.toNat = 90 := rfl
    simp only [ge_iff_le, UInt32.le_iff_toNat_le, UInt32.toNat_add] at hupper hagain
    omega
  · rfl
  · rfl

def ascii : LowerCase where
  lower s := .ofList (s.toList.map Char.toLower)
  idempotent s := by
    rw [String.toList_ofList, List.map_map]
    exact congrArg String.ofList (List.map_congr_left fun c _ => toLower_toLower c)

def alice : Username := ⟨"Alice", by decide⟩

/-- Right after the start of the gateway, the name of a registered user is offered. -/
theorem alice_offered :
    alice ∈ (start {alice}).users ∧ (start {alice}).Reports (· == "Alice") ∧
      checkUsernameExistence ascii (· == "Alice") (start {alice}) "Alice" = .ok true := by
  refine ⟨by decide, fun value hvalue => ?_, by decide⟩
  have hseeded : 0 < 0 + (({alice} : Finset Username).filter (·.1 = value)).card := hvalue
  obtain ⟨user, huser⟩ := Finset.card_pos.mp (Nat.zero_add _ ▸ hseeded)
  obtain ⟨hsame, hvalue⟩ := Finset.mem_filter.mp huser
  rw [← hvalue, Finset.mem_singleton.mp hsame]
  rfl

end HideServer.Gateway
