import HideServer.Env.Site

/-!
# Cursors

A message brings the awareness states of some clients, and the document keeps for every user the
clients that their messages have added, to remove their states when the file is closed. The awareness
protocol is a library: a `Protocol` with the laws the results rest on, of which `yProtocols` is one.
-/

namespace HideServer.Env.Cursors

open Function Trace List Option

/-! ### Awareness states -/

/-- What a message says of a client: the clock of its state, and whether it has one. -/
structure Entry where
  clientID : Nat
  clock : Nat
  present : Bool
  deriving DecidableEq, Repr

structure AwarenessUpdate where
  added : List Nat
  updated : List Nat
  removed : List Nat
  deriving DecidableEq, Repr

structure Awareness where
  clientID : Nat
  states : List Nat
  /-- The clock of every client there has been. -/
  clocks : Nat → Option Nat
  /-- Who sent the message that the state of a client came with. -/
  introducedBy : Nat → Option String

namespace Awareness

/-- No states, and the document's own client is known. -/
def new (clientID : Nat) : Awareness :=
  ⟨clientID, [], update (fun _ => none) clientID (some 1), fun _ => none⟩

end Awareness

/-- The message brings a state of the client. -/
def Brings (entries : List Entry) (client : Nat) : Prop :=
  ∃ entry ∈ entries, entry.clientID = client ∧ entry.present = true

/-- What a message that names no client twice does. A client that has a state afterwards had it before, or the message
brings it; one that was not known is reported as added then, and one that is reported as removed has no state. -/
structure Applied (a : Awareness) (entries : List Entry) (uid : String) (after : Awareness) (update : AwarenessUpdate) :
    Prop where
  clientID : after.clientID = a.clientID
  known : ∀ client, a.clocks client ≠ none → after.clocks client ≠ none
  added : ∀ client ∈ update.added, a.clocks client = none
  removed : ∀ client ∈ update.removed, client ∉ after.states
  live : ∀ client ∈ after.states, (client ∈ a.states ∧ after.introducedBy client = a.introducedBy client) ∨
    (client ∉ a.states ∧ Brings entries client ∧ after.introducedBy client = some uid ∧
      (a.clocks client = none → client ∈ update.added))

/-- The states of some clients are removed, and no other client is reported. -/
structure Removed (a : Awareness) (clients : List Nat) (after : Awareness) (removed : List Nat) : Prop where
  clientID : after.clientID = a.clientID
  known : a.clocks a.clientID ≠ none → after.clocks a.clientID ≠ none
  states : ∀ client, client ∈ after.states ↔ client ∈ a.states ∧ client ∉ clients
  introducedBy : after.introducedBy = a.introducedBy
  removed : removed ⊆ clients

/-- What a document uses of the awareness protocol. -/
structure Protocol where
  applyAwarenessUpdate (a : Awareness) (entries : List Entry) (uid : String) : Awareness × AwarenessUpdate
  removeAwarenessStates (a : Awareness) (clients : List Nat) : Awareness × List Nat
  /-- The document's own state, if it has one, is set again from time to time. -/
  renewed (a : Awareness) : Awareness
  applied (a : Awareness) (entries : List Entry) (uid : String) : a.clientID ∉ a.states →
    (entries.map Entry.clientID).Nodup →
    Applied a entries uid (applyAwarenessUpdate a entries uid).1 (applyAwarenessUpdate a entries uid).2
  removed (a : Awareness) (clients : List Nat) :
    Removed a clients (removeAwarenessStates a clients).1 (removeAwarenessStates a clients).2
  renewed_silent (a : Awareness) : a.clientID ∉ a.states → renewed a = a

/-! ### The document -/

structure Doc where
  users : List String
  /-- `users.get(uid)` for those who are users. -/
  clients : String → List Nat
  awareness : Awareness

namespace Doc

def new (clientID : Nat) : Doc := ⟨[], fun _ => [], .new clientID⟩

variable (protocol : Protocol) (doc : Doc)

/-- `_awarenessChangeHandler`, as far as the clients of the users are concerned. -/
def awarenessChangeHandler (update : AwarenessUpdate) (uid : Option String) : Doc :=
  { doc with clients := Site.controlled doc.users doc.clients update.added update.removed uid }

/-- `openFile`: the user starts with no clients. -/
def openFile (uid : String) : Doc :=
  { doc with
    users := if uid ∈ doc.users then doc.users else doc.users ++ [uid]
    clients := update doc.clients uid [] }

/-- An awareness message. If it cannot be read to its end, what was read has been applied, and nobody hears of it. -/
def handleSync (uid : String) (entries : List Entry) (complete : Bool) : Doc :=
  let applied := protocol.applyAwarenessUpdate doc.awareness entries uid
  let doc := { doc with awareness := applied.1 }
  if complete then doc.awarenessChangeHandler applied.2 (some uid) else doc

/-- The states of clients that have not been heard of for too long are removed. -/
def checkInterval (renews : Bool) (outdated : List Nat) : Doc :=
  let awareness := if renews then protocol.renewed doc.awareness else doc.awareness
  let removal := protocol.removeAwarenessStates awareness (outdated.filter (· ≠ awareness.clientID))
  { doc with awareness := removal.1 }.awarenessChangeHandler ⟨[], [], removal.2⟩ (some "timeout")

/-- `closeFile`: the states of the user's clients go, and the document with its last user. -/
def closeFile (uid : String) : Option Doc :=
  if uid ∉ doc.users then some doc
  else
    let removal := protocol.removeAwarenessStates doc.awareness (doc.clients uid)
    let doc := { doc with users := doc.users.erase uid, awareness := removal.1 }
    let doc := doc.awarenessChangeHandler ⟨[], [], removal.2⟩ none
    if doc.users = [] then none else some doc

end Doc

inductive Event where
  /-- `clientID` is the document's own, if one has to be made. -/
  | openFile (uid : String) (clientID : Nat)
  | handleSync (uid : String) (entries : List Entry) (complete : Bool)
  | checkInterval (renews : Bool) (outdated : List Nat)
  | closeFile (uid : String)
  deriving DecidableEq, Repr

def step (protocol : Protocol) (s : Option Doc) : Event → Option Doc
  | .openFile uid clientID => some ((s.getD (.new clientID)).openFile uid)
  | .handleSync uid entries complete => s.map fun doc => doc.handleSync protocol uid entries complete
  | .checkInterval renews outdated => s.map fun doc => doc.checkInterval protocol renews outdated
  | .closeFile uid => s.bind fun doc => doc.closeFile protocol uid

/-! ### The property and the condition -/

/-- Every user is known to control the clients whose states came with their messages. -/
def Doc.Tracks (doc : Doc) : Prop :=
  ∀ client ∈ doc.awareness.states, ∀ uid, doc.awareness.introducedBy client = some uid →
    uid ∈ doc.users ∧ client ∈ doc.clients uid

/-- There is no state that came with a message of the user. -/
def Doc.Lacks (doc : Doc) (uid : String) : Prop :=
  ∀ client ∈ doc.awareness.states, doc.awareness.introducedBy client ≠ some uid
  deriving Decidable

/-- Who closes the file leaves no state. -/
def Clears (protocol : Protocol) (s : Option Doc) : Event → Prop
  | .closeFile uid => ∀ doc ∈ step protocol s (.closeFile uid), doc.Lacks uid
  | _ => True

/-- A state that the entry sets anew is one of a user's own client. -/
def Doc.Admits (doc : Doc) (uid : String) (entry : Entry) : Prop :=
  entry.present = true → entry.clientID ∉ doc.awareness.states →
    uid ∈ doc.users ∧ (doc.awareness.clocks entry.clientID = none ∨ entry.clientID ∈ doc.clients uid)
  deriving Decidable

/-- A user opens the file when there is no state of theirs; a message can be read, names no client twice and brings
states of the sender's own clients only. -/
def Careful (s : Option Doc) : Event → Prop
  | .openFile uid _ => ∀ doc ∈ s, doc.Lacks uid
  | .handleSync uid entries complete => ∀ doc ∈ s, complete = true ∧
      (entries.map Entry.clientID).Nodup ∧ ∀ entry ∈ entries, doc.Admits uid entry
  | .checkInterval .. | .closeFile _ => True

instance (s : Option Doc) : DecidablePred (Careful s)
  | .openFile uid _ => inferInstanceAs (Decidable (∀ doc ∈ s, doc.Lacks uid))
  | .handleSync uid entries _ =>
    inferInstanceAs (Decidable (∀ doc ∈ s, _ ∧ _ ∧ ∀ entry ∈ entries, doc.Admits uid entry))
  | .checkInterval .. | .closeFile _ => inferInstanceAs (Decidable True)

/-- The document's own client is known, has no state and is nobody's. -/
structure Doc.Reserved (doc : Doc) : Prop where
  known : doc.awareness.clocks doc.awareness.clientID ≠ none
  silent : doc.awareness.clientID ∉ doc.awareness.states
  foreign : ∀ uid, doc.awareness.clientID ∉ doc.clients uid

/-! ### Runs -/

variable (protocol : Protocol) {doc : Doc} {uid : String} {entry : Entry}

structure Doc.Sound (doc : Doc) : Prop where
  reserved : doc.Reserved
  tracks : doc.Tracks

theorem mem_controlled {users : List String} {clients : String → List Nat} {added removed : List Nat} {client : Nat}
    (uid user : String) : client ∈ Site.controlled users clients added removed (some uid) user ↔
      if uid ∈ users ∧ user = uid then (client ∈ clients user ∨ client ∈ added) ∧ client ∉ removed
      else client ∈ clients user := by
  simp only [Site.controlled]
  by_cases huid : uid ∈ users
  · by_cases heq : user = uid
    · simp [huid, heq, or_and_right]
    · simp [huid, heq]
  · simp [huid]

theorem Doc.Reserved.absent (h : doc.Reserved) (hadmits : doc.Admits uid entry)
    (hown : doc.awareness.clientID = entry.clientID) : entry.present = false := by
  rw [← Bool.not_eq_true]
  intro hpresent
  obtain ⟨-, hclocks | hclient⟩ := hadmits hpresent (hown ▸ h.silent)
  · exact h.known (hown ▸ hclocks)
  · exact h.foreign uid (hown ▸ hclient)

theorem Doc.Sound.handleSync (h : doc.Sound) {entries : List Entry}
    (hadmits : ∀ entry ∈ entries, doc.Admits uid entry) (hnodup : (entries.map Entry.clientID).Nodup) :
    (doc.handleSync protocol uid entries true).Sound := by
  have happlied := protocol.applied doc.awareness entries uid h.reserved.silent hnodup
  simp only [Doc.handleSync, if_true, Doc.awarenessChangeHandler]
  generalize protocol.applyAwarenessUpdate doc.awareness entries uid = applied at happlied ⊢
  refine ⟨⟨?_, ?_, ?_⟩, ?_⟩
  · rw [happlied.clientID]
    exact happlied.known _ h.reserved.known
  · rw [happlied.clientID]
    intro hmem
    obtain ⟨-, ⟨entry, hentry, hown, hpresent⟩, -⟩ :=
      (happlied.live _ hmem).resolve_left fun hold => h.reserved.silent hold.1
    rw [h.reserved.absent (hadmits entry hentry) hown.symm] at hpresent
    cases hpresent
  · intro user hmem
    rw [happlied.clientID, mem_controlled] at hmem
    split at hmem
    · exact hmem.1.elim (h.reserved.foreign user) fun hadded => h.reserved.known (happlied.added _ hadded)
    · exact h.reserved.foreign user hmem
  · intro client hclient user hby
    rw [mem_controlled]
    have hkept : client ∉ applied.2.removed := fun hremoved => happlied.removed client hremoved hclient
    rcases happlied.live client hclient with ⟨hstate, hsame⟩ | ⟨hnew, ⟨entry, hentry, rfl, hpresent⟩, hsame, hadded⟩
    · obtain ⟨huser, hold⟩ := h.tracks client hstate user (hsame ▸ hby)
      refine ⟨huser, ?_⟩
      split
      · exact ⟨.inl hold, hkept⟩
      · exact hold
    · obtain rfl : uid = user := some.inj (hsame.symm.trans hby)
      obtain ⟨huser, hclocks | hclients⟩ := hadmits entry hentry hpresent hnew
      · rw [if_pos ⟨huser, rfl⟩]
        exact ⟨huser, .inr (hadded hclocks), hkept⟩
      · rw [if_pos ⟨huser, rfl⟩]
        exact ⟨huser, .inl hclients, hkept⟩

theorem Doc.Sound.of_subset (h : doc.Sound) {after : Doc}
    (hclientID : after.awareness.clientID = doc.awareness.clientID)
    (hknown : after.awareness.clocks doc.awareness.clientID ≠ none)
    (hstates : after.awareness.states ⊆ doc.awareness.states)
    (hby : after.awareness.introducedBy = doc.awareness.introducedBy)
    (hclients : ∀ user, after.clients user ⊆ doc.clients user)
    (hkeeps : ∀ client ∈ after.awareness.states, ∀ user, doc.awareness.introducedBy client = some user →
      user ∈ doc.users → client ∈ doc.clients user → user ∈ after.users ∧ client ∈ after.clients user) :
    after.Sound := by
  refine ⟨⟨hclientID ▸ hknown, ?_, ?_⟩, ?_⟩
  · rw [hclientID]
    exact fun hmem => h.reserved.silent (hstates hmem)
  · rw [hclientID]
    exact fun user hmem => h.reserved.foreign user (hclients user hmem)
  · intro client hclient user huser
    rw [hby] at huser
    obtain ⟨hmem, hold⟩ := h.tracks client (hstates hclient) user huser
    exact hkeeps client hclient user huser hmem hold

theorem Doc.Sound.openFile (h : doc.Sound) (hlacks : doc.Lacks uid) : (doc.openFile uid).Sound := by
  have hclients : ∀ user, user ≠ uid → (doc.openFile uid).clients user = doc.clients user := by
    intro user hne
    simp [Doc.openFile, hne]
  refine h.of_subset rfl h.reserved.known (Subset.refl _) rfl ?_ ?_
  · intro user
    by_cases heq : user = uid
    · simp [Doc.openFile, heq]
    · rw [hclients user heq]
      exact Subset.refl _
  · intro client hclient user huser hmem hold
    have hne : user ≠ uid := fun heq => hlacks client hclient (heq ▸ huser)
    rw [hclients user hne]
    refine ⟨?_, hold⟩
    simp only [Doc.openFile]
    split
    · exact hmem
    · exact mem_append_left _ hmem

theorem sound_new (clientID : Nat) : (Doc.new clientID).Sound := by
  refine ⟨⟨?_, not_mem_nil, fun _ => not_mem_nil⟩, fun _ hmem => absurd hmem not_mem_nil⟩
  simp [Doc.new, Awareness.new]

theorem Doc.Sound.closeFile (h : doc.Sound) {after : Doc} (hafter : after ∈ doc.closeFile protocol uid) :
    after.Sound ∧ after.Lacks uid := by
  unfold Doc.closeFile at hafter
  split at hafter
  case isTrue huid =>
    obtain rfl := some.inj hafter
    exact ⟨h, fun client hclient hby => huid (h.tracks client hclient uid hby).1⟩
  case isFalse huid =>
    simp only at hafter
    split at hafter
    · cases hafter
    · obtain rfl := some.inj hafter
      have hremoved := protocol.removed doc.awareness (doc.clients uid)
      refine ⟨h.of_subset hremoved.clientID (hremoved.known h.reserved.known)
        (fun client hclient => ((hremoved.states client).1 hclient).1) hremoved.introducedBy (fun _ => Subset.refl _) ?_, ?_⟩
      · intro client hclient user _ hmem hold
        have hne : user ≠ uid := fun heq => ((hremoved.states client).1 hclient).2 (heq ▸ hold)
        exact ⟨(mem_erase_of_ne hne).2 hmem, hold⟩
      · intro client hclient hby
        obtain ⟨hstate, hnot⟩ := (hremoved.states client).1 hclient
        exact hnot (h.tracks client hstate uid (hremoved.introducedBy ▸ hby)).2

theorem Doc.Sound.checkInterval (h : doc.Sound) (renews : Bool) (outdated : List Nat) :
    (doc.checkInterval protocol renews outdated).Sound := by
  -- the document has no state of its own, so there is none to set again
  have hsame : (if renews then protocol.renewed doc.awareness else doc.awareness) = doc.awareness := by
    split
    · exact protocol.renewed_silent doc.awareness h.reserved.silent
    · rfl
  simp only [Doc.checkInterval, Doc.awarenessChangeHandler, hsame]
  generalize outdated.filter (· ≠ doc.awareness.clientID) = outdated
  have hremoved := protocol.removed doc.awareness outdated
  refine h.of_subset hremoved.clientID (hremoved.known h.reserved.known)
    (fun client hclient => ((hremoved.states client).1 hclient).1) hremoved.introducedBy ?_ ?_
  · intro user client hclient
    rw [mem_controlled] at hclient
    split at hclient
    · exact hclient.1.resolve_right not_mem_nil
    · exact hclient
  · intro client hclient user _ hmem hold
    rw [mem_controlled]
    refine ⟨hmem, ?_⟩
    split
    · exact ⟨.inl hold, fun hreported => ((hremoved.states client).1 hclient).2 (hremoved.removed hreported)⟩
    · exact hold

theorem sound_step (s : Option Doc) (event : Event) (h : ∀ doc ∈ s, doc.Sound) (hcareful : Careful s event) :
    ∀ doc ∈ step protocol s event, doc.Sound := by
  intro after hafter
  cases event with
  | openFile uid clientID =>
    obtain rfl := some.inj hafter
    cases s with
    | none => exact (sound_new clientID).openFile fun _ hmem => absurd hmem not_mem_nil
    | some doc => exact (h doc rfl).openFile (hcareful doc rfl)
  | handleSync uid entries complete =>
    obtain ⟨doc, rfl, rfl⟩ := map_eq_some_iff.1 hafter
    obtain ⟨rfl, hnodup, hadmits⟩ := hcareful doc rfl
    exact (h doc rfl).handleSync protocol hadmits hnodup
  | checkInterval renews outdated =>
    obtain ⟨doc, rfl, rfl⟩ := map_eq_some_iff.1 hafter
    exact (h doc rfl).checkInterval protocol renews outdated
  | closeFile uid =>
    obtain ⟨doc, rfl, hafter⟩ := bind_eq_some_iff.1 hafter
    exact ((h doc rfl).closeFile protocol hafter).1

theorem clears_of_sound (s : Option Doc) (event : Event) (h : ∀ doc ∈ s, doc.Sound) : Clears protocol s event := by
  cases event with
  | closeFile uid =>
    intro after hafter
    obtain ⟨doc, rfl, hafter⟩ := bind_eq_some_iff.1 hafter
    exact ((h doc rfl).closeFile protocol hafter).2
  | _ => trivial

/-- As long as nobody opens the file while there are states of theirs, and the messages can be read and bring no states
but of the sender's own clients, every user is known to control the clients they brought and closing the file leaves
no state of theirs. -/
theorem noGhosts_run (protocol : Protocol) (events : List Event) (h : Along (step protocol) Careful none events) :
    Always (step protocol) (fun s => ∀ doc ∈ s, doc.Tracks) none events ∧
      Along (step protocol) (Clears protocol) none events := by
  have hstart : ∀ doc ∈ (none : Option Doc), doc.Sound := fun _ hdoc => absurd hdoc (not_mem_none _)
  exact ⟨always_of_invariant (sound_step protocol) (fun _ hsound doc hdoc => (hsound doc hdoc).tracks) hstart h,
    along_of_invariant (sound_step protocol) (fun s event hsound _ => clears_of_sound protocol s event hsound) hstart h⟩

/-! ### The protocol in use -/

namespace Awareness

variable (a : Awareness)

/-- An entry counts if its clock is new, or if it takes away a state of the same clock. -/
def accepts (entry : Entry) : Bool :=
  let clock := (a.clocks entry.clientID).getD 0
  clock < entry.clock || (clock = entry.clock && !entry.present && a.states.contains entry.clientID)

/-- The state of a client is set or removed; nobody else removes the document's own. -/
def received (uid : String) (entry : Entry) : Awareness :=
  if entry.present then
    { a with
      states := if entry.clientID ∈ a.states then a.states else a.states ++ [entry.clientID]
      clocks := update a.clocks entry.clientID (some entry.clock)
      introducedBy :=
        if entry.clientID ∈ a.states then a.introducedBy else update a.introducedBy entry.clientID (some uid) }
  else if entry.clientID = a.clientID ∧ a.clientID ∈ a.states then
    { a with clocks := update a.clocks entry.clientID (some (entry.clock + 1)) }
  else
    { a with
      states := a.states.filter (· ≠ entry.clientID)
      clocks := update a.clocks entry.clientID (some entry.clock) }

/-- The document's own state, if there is one, is set again. -/
def renewed : Awareness :=
  if a.clientID ∈ a.states then
    { a with clocks := update a.clocks a.clientID ((a.clocks a.clientID).map (· + 1)) }
  else a

def removeAwarenessStates (clients : List Nat) : Awareness × List Nat :=
  ({ a with
      states := a.states.filter (· ∉ clients)
      clocks :=
        if a.clientID ∈ clients ∧ a.clientID ∈ a.states then
          update a.clocks a.clientID ((a.clocks a.clientID).map (· + 1))
        else a.clocks },
    clients.filter (· ∈ a.states))

end Awareness

/-- A client that was not known is added, whatever becomes of its state later. -/
def AwarenessUpdate.noted (update : AwarenessUpdate) (known : Bool) (entry : Entry) : AwarenessUpdate :=
  match known, entry.present with
  | false, true => { update with added := update.added ++ [entry.clientID] }
  | true, false => { update with removed := update.removed ++ [entry.clientID] }
  | true, true => { update with updated := update.updated ++ [entry.clientID] }
  | false, false => update

def receive (uid : String) (progress : Awareness × AwarenessUpdate) (entry : Entry) : Awareness × AwarenessUpdate :=
  if progress.1.accepts entry then
    (progress.1.received uid entry, progress.2.noted (progress.1.clocks entry.clientID).isSome entry)
  else progress

def applyAwarenessUpdate (a : Awareness) (entries : List Entry) (uid : String) : Awareness × AwarenessUpdate :=
  entries.foldl (receive uid) (a, ⟨[], [], []⟩)

namespace Awareness

variable (a : Awareness) (uid : String) (entry : Entry)

theorem received_clientID : (a.received uid entry).clientID = a.clientID := by
  unfold received
  split
  · rfl
  · split <;> rfl

theorem received_clocks : ∃ clock, (a.received uid entry).clocks = update a.clocks entry.clientID (some clock) := by
  unfold received
  split
  · exact ⟨_, rfl⟩
  · split <;> exact ⟨_, rfl⟩

variable {a} {uid} {entry}

theorem mem_states_received {client : Nat} (hne : client ≠ entry.clientID) :
    client ∈ (a.received uid entry).states ↔ client ∈ a.states := by
  unfold received
  split
  · by_cases hlive : entry.clientID ∈ a.states <;> simp [hlive, hne]
  · split
    · exact Iff.rfl
    · simp [hne]

theorem not_mem_received (hpresent : entry.present = false) (hsilent : entry.clientID = a.clientID → a.clientID ∉ a.states) :
    entry.clientID ∉ (a.received uid entry).states := by
  have hforeign : ¬(entry.clientID = a.clientID ∧ a.clientID ∈ a.states) := fun h => hsilent h.1 h.2
  simp [received, hpresent, hforeign]

theorem received_introducedBy_of_mem {client : Nat} (hmem : client ∈ a.states) :
    (a.received uid entry).introducedBy client = a.introducedBy client := by
  unfold received
  split
  · by_cases hlive : entry.clientID ∈ a.states
    · simp [hlive]
    · have hne : client ≠ entry.clientID := fun heq => hlive (heq ▸ hmem)
      simp [hlive, hne]
  · split <;> rfl

theorem received_introducedBy_self (hpresent : entry.present = true) (hnew : entry.clientID ∉ a.states) :
    (a.received uid entry).introducedBy entry.clientID = some uid := by
  simp [received, hpresent, hnew]

end Awareness

theorem AwarenessUpdate.mem_added_noted {update : AwarenessUpdate} {known : Bool} {entry : Entry} {client : Nat} :
    client ∈ (update.noted known entry).added ↔
      client ∈ update.added ∨ (client = entry.clientID ∧ known = false ∧ entry.present = true) := by
  cases known <;> cases hpresent : entry.present <;> simp [noted, hpresent]

theorem AwarenessUpdate.mem_removed_noted {update : AwarenessUpdate} {known : Bool} {entry : Entry} {client : Nat} :
    client ∈ (update.noted known entry).removed ↔
      client ∈ update.removed ∨ (client = entry.clientID ∧ known = true ∧ entry.present = false) := by
  cases known <;> cases hpresent : entry.present <;> simp [noted, hpresent]

/-! ### One message -/

/-- How far a message has been read: what the entries seen so far have done. -/
structure Progress (a : Awareness) (uid : String) (seen : List Entry) (progress : Awareness × AwarenessUpdate) : Prop where
  clientID : progress.1.clientID = a.clientID
  known : ∀ client, a.clocks client ≠ none → progress.1.clocks client ≠ none
  clocks : ∀ client ∉ seen.map Entry.clientID, progress.1.clocks client = a.clocks client
  states : ∀ client ∉ seen.map Entry.clientID, client ∈ progress.1.states ↔ client ∈ a.states
  added : ∀ client ∈ progress.2.added, a.clocks client = none
  removed : ∀ client ∈ progress.2.removed, client ∈ seen.map Entry.clientID ∧ client ∉ progress.1.states
  live : ∀ client ∈ progress.1.states, (client ∈ a.states ∧ progress.1.introducedBy client = a.introducedBy client) ∨
    (client ∉ a.states ∧ Brings seen client ∧ progress.1.introducedBy client = some uid ∧
      (a.clocks client = none → client ∈ progress.2.added))

section

variable {a : Awareness} {uid : String} {seen : List Entry} {progress : Awareness × AwarenessUpdate} {entry : Entry}

theorem Brings.append {client : Nat} (h : Brings seen client) (entry : Entry) : Brings (seen ++ [entry]) client := by
  obtain ⟨other, hother, hbrings⟩ := h
  exact ⟨other, mem_append_left _ hother, hbrings⟩

theorem mem_clientIDs_append {client : Nat} : client ∈ (seen ++ [entry]).map Entry.clientID ↔
    client ∈ seen.map Entry.clientID ∨ client = entry.clientID := by
  rw [map_append, mem_append, map_singleton, mem_singleton]

theorem Progress.seeing (h : Progress a uid seen progress) (entry : Entry) :
    Progress a uid (seen ++ [entry]) progress :=
  { h with
    clocks := fun client hclient => h.clocks client fun hseen => hclient (mem_clientIDs_append.2 (.inl hseen))
    states := fun client hclient => h.states client fun hseen => hclient (mem_clientIDs_append.2 (.inl hseen))
    removed := fun client hclient =>
      ⟨mem_clientIDs_append.2 (.inl (h.removed client hclient).1), (h.removed client hclient).2⟩
    live := fun client hclient => (h.live client hclient).imp id fun hnew =>
      ⟨hnew.1, hnew.2.1.append entry, hnew.2.2⟩ }

theorem Progress.received (h : Progress a uid seen progress) (hsilent : a.clientID ∉ a.states)
    (hfirst : entry.clientID ∉ seen.map Entry.clientID) :
    Progress a uid (seen ++ [entry])
      (progress.1.received uid entry, progress.2.noted (progress.1.clocks entry.clientID).isSome entry) := by
  obtain ⟨clock, hclocks⟩ := progress.1.received_clocks uid entry
  have hgone : entry.present = false → entry.clientID ∉ (progress.1.received uid entry).states := by
    refine fun hpresent => Awareness.not_mem_received hpresent fun hown => ?_
    rw [hown, h.clientID] at hfirst
    rw [h.clientID, h.states _ hfirst]
    exact hsilent
  constructor
  case clientID => exact (progress.1.received_clientID uid entry).trans h.clientID
  case known =>
    intro client hclient
    rw [hclocks, update_apply]
    split
    · exact some_ne_none clock
    · exact h.known client hclient
  case clocks =>
    intro client hclient
    obtain ⟨hclient, hne⟩ := not_or.1 (mem_clientIDs_append.not.1 hclient)
    rw [hclocks, update_of_ne hne]
    exact h.clocks client hclient
  case states =>
    intro client hclient
    obtain ⟨hclient, hne⟩ := not_or.1 (mem_clientIDs_append.not.1 hclient)
    rw [Awareness.mem_states_received hne]
    exact h.states client hclient
  case added =>
    intro client hmem
    rcases AwarenessUpdate.mem_added_noted.1 hmem with hmem | ⟨rfl, hunknown, -⟩
    · exact h.added client hmem
    · rw [← h.clocks _ hfirst]
      simpa using hunknown
  case removed =>
    intro client hmem
    rcases AwarenessUpdate.mem_removed_noted.1 hmem with hmem | ⟨rfl, -, hpresent⟩
    · obtain ⟨hseen, hnot⟩ := h.removed client hmem
      have hne : client ≠ entry.clientID := fun heq => hfirst (heq ▸ hseen)
      exact ⟨mem_clientIDs_append.2 (.inl hseen), fun hmem => hnot ((Awareness.mem_states_received hne).1 hmem)⟩
    · exact ⟨mem_clientIDs_append.2 (.inr rfl), hgone hpresent⟩
  case live =>
    intro client hmem
    by_cases hbefore : client ∈ progress.1.states
    · rw [Awareness.received_introducedBy_of_mem hbefore]
      refine (h.live client hbefore).imp id ?_
      rintro ⟨hnew, hbrings, hby, hadded⟩
      exact ⟨hnew, hbrings.append entry, hby, fun hclock => AwarenessUpdate.mem_added_noted.2 (.inl (hadded hclock))⟩
    -- a client without a state has got one: it is that of the entry
    · obtain rfl : client = entry.clientID := by
        by_contra hne
        exact hbefore ((Awareness.mem_states_received hne).1 hmem)
      have hpresent : entry.present = true := by
        rw [← Bool.not_eq_false]
        exact fun habsent => hgone habsent hmem
      refine .inr ⟨fun hstate => hbefore ((h.states _ hfirst).2 hstate), ⟨entry, by simp, rfl, hpresent⟩,
        Awareness.received_introducedBy_self hpresent hbefore, fun hclock => ?_⟩
      have hunknown : (progress.1.clocks entry.clientID).isSome = false := by rw [h.clocks _ hfirst, hclock]; rfl
      exact AwarenessUpdate.mem_added_noted.2 (.inr ⟨rfl, hunknown, hpresent⟩)

theorem Progress.receive (h : Progress a uid seen progress) (hsilent : a.clientID ∉ a.states)
    (hfirst : entry.clientID ∉ seen.map Entry.clientID) :
    Progress a uid (seen ++ [entry]) (receive uid progress entry) := by
  unfold Cursors.receive
  split
  · exact h.received hsilent hfirst
  · exact h.seeing entry

theorem Progress.foldl (h : Progress a uid seen progress) (hsilent : a.clientID ∉ a.states) (entries : List Entry)
    (hnodup : ((seen ++ entries).map Entry.clientID).Nodup) :
    Progress a uid (seen ++ entries) (entries.foldl (Cursors.receive uid) progress) := by
  induction entries generalizing seen progress with
  | nil =>
    rw [append_nil]
    exact h
  | cons entry entries ih =>
    have hfirst : entry.clientID ∉ seen.map Entry.clientID := by
      rw [map_append, map_cons] at hnodup
      exact fun hseen => (nodup_append.1 hnodup).2.2 _ hseen _ mem_cons_self rfl
    rw [append_cons] at hnodup ⊢
    exact ih (h.receive hsilent hfirst) hnodup

theorem applied_applyAwarenessUpdate (hsilent : a.clientID ∉ a.states) (entries : List Entry)
    (hnodup : (entries.map Entry.clientID).Nodup) :
    Applied a entries uid (applyAwarenessUpdate a entries uid).1 (applyAwarenessUpdate a entries uid).2 := by
  have hstart : Progress a uid [] (a, ⟨[], [], []⟩) := {
    clientID := rfl
    known := fun _ hknown => hknown
    clocks := fun _ _ => rfl
    states := fun _ _ => Iff.rfl
    added := fun _ hmem => absurd hmem not_mem_nil
    removed := fun _ hmem => absurd hmem not_mem_nil
    live := fun _ hmem => .inl ⟨hmem, rfl⟩ }
  have hdone := hstart.foldl hsilent entries hnodup
  exact ⟨hdone.clientID, hdone.known, hdone.added, fun client hclient => (hdone.removed client hclient).2, hdone.live⟩

theorem removed_removeAwarenessStates (a : Awareness) (clients : List Nat) :
    Removed a clients (a.removeAwarenessStates clients).1 (a.removeAwarenessStates clients).2 where
  clientID := rfl
  known hknown := by
    simp only [Awareness.removeAwarenessStates]
    split
    · simpa using hknown
    · exact hknown
  states client := by simp [Awareness.removeAwarenessStates]
  introducedBy := rfl
  removed client hclient := by
    simp only [Awareness.removeAwarenessStates, mem_filter] at hclient
    exact hclient.1

end

/-- The protocol in use. -/
def yProtocols : Protocol where
  applyAwarenessUpdate := applyAwarenessUpdate
  removeAwarenessStates := Awareness.removeAwarenessStates
  renewed := Awareness.renewed
  applied _ entries _ hsilent hnodup := applied_applyAwarenessUpdate hsilent entries hnodup
  removed := removed_removeAwarenessStates
  renewed_silent _ hsilent := if_neg hsilent

def comingAndGoing : List Event :=
  [.openFile "u1" 7, .openFile "u2" 8, .handleSync "u1" [⟨1, 1, true⟩] true, .handleSync "u2" [⟨2, 1, true⟩] true,
    .handleSync "u1" [⟨1, 2, true⟩] true, .closeFile "u1", .openFile "u1" 9,
    .handleSync "u1" [⟨3, 1, true⟩] true, .closeFile "u1"]

theorem noGhosts_comingAndGoing : Along (step yProtocols) Careful none comingAndGoing ∧
    Always (step yProtocols) (fun s => ∀ doc ∈ s, doc.Tracks) none comingAndGoing ∧
    Along (step yProtocols) (Clears yProtocols) none comingAndGoing :=
  have hcareful : Along (step yProtocols) Careful none comingAndGoing := by decide
  ⟨hcareful, noGhosts_run yProtocols comingAndGoing hcareful⟩

/-- The page of a user is loaded again, and opens the file before it was closed. -/
def reloadedPage : List Event :=
  [.openFile "u1" 7, .openFile "u2" 8, .handleSync "u1" [⟨1, 1, true⟩] true, .openFile "u1" 9, .closeFile "u1"]

/-- The cursor of the first page stays. -/
theorem ghost_reloadedPage :
    ((run (step yProtocols) none reloadedPage).map fun doc => (doc.users, doc.awareness.states, doc.awareness.introducedBy 1)) =
      some (["u2"], [1], some "u1") ∧
    ¬ Along (step yProtocols) (Clears yProtocols) none reloadedPage := by
  refine ⟨rfl, ?_⟩
  rintro ⟨-, -, -, -, hclears, -⟩
  exact hclears _ rfl 1 mem_cons_self rfl

end HideServer.Env.Cursors
