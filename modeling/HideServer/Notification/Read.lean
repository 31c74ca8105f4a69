import Mathlib.Data.List.Basic
import Mathlib.Data.Option.Basic

/-!
# Reading notifications

Reading one notification deletes its document unless it is persistent. Reading a list deletes the
documents in one batch, without looking at them.
-/

namespace HideServer.Notification

inductive NotificationType where
  | workspaceInvite
  | workspaceMembershipRemoved
  | workspaceAccessCode
  | workspaceDowngraded
  | notificationDelete
  deriving DecidableEq, Repr

/-- What is read of a stored notification; only access code notifications have `success`. -/
structure UserNotification where
  type : NotificationType
  success : Option Bool
  deriving DecidableEq, Repr

def persistentNtfnTypes : List NotificationType := [.workspaceInvite, .workspaceAccessCode]

def persistentNtfnTypesChecks : NotificationType → Option (UserNotification → Option Bool)
  | .workspaceAccessCode => some (·.success)
  | _ => none

def isNotificationPersistent (ntfn : UserNotification) : Bool :=
  persistentNtfnTypes.contains ntfn.type && ((persistentNtfnTypesChecks ntfn.type).bind (· ntfn)).getD true

structure SocketSend where
  uid : String
  sessionId : String
  id : String
  deriving DecidableEq, Repr

/-- The messages of each user, by reference, the sessions of those who are present, and what was sent to them. -/
structure World (ρ : Type) where
  messages : String → ρ → Option UserNotification
  presence : String → Option (List String)
  sent : List SocketSend

variable {ρ : Type} [DecidableEq ρ]

/-- The document goes. -/
def World.delete (uid : String) (w : World ρ) (ref : ρ) : World ρ :=
  { w with messages := fun user key => if user = uid ∧ key = ref then none else w.messages user key }

section

variable (doc : String → Option ρ) (uid : String)

/-- `none` is a call that throws. -/
def handleReadNotification (ntfnId : String) (ignorePersistent systemRead : Bool) (w : World ρ) : Option (World ρ) := do
  let docRef ← doc ntfnId
  let read := match w.messages uid docRef with
    | some ntfn => if !ignorePersistent || !isNotificationPersistent ntfn then w.delete uid docRef else w
    | none => w
  if systemRead then
    match read.presence uid with
    | none => return read
    | some sessions => return { read with sent := read.sent ++ sessions.map fun sessionId => ⟨uid, sessionId, ntfnId⟩ }
  return read

def handleReadAllNotifications (ntfnIds : List String) (w : World ρ) : Option (World ρ) := do
  let batch ← ntfnIds.mapM doc
  return batch.foldl (World.delete uid) w

def readNotification (w : World ρ) (id : String) : World ρ := (handleReadNotification doc uid id true false w).getD w

def readAllNotifications (w : World ρ) (ids : List String) : World ρ := (handleReadAllNotifications doc uid ids w).getD w

/-- One call for each id. -/
def readEach (w : World ρ) (ids : List String) : World ρ := ids.foldl (readNotification doc uid) w

/-- Reading all leaves what reading each leaves; persistent notifications and those of others are left by both. -/
def ReadAlike (w : World ρ) (ids : List String) : Prop :=
  (readAllNotifications doc uid w ids).messages = (readEach doc uid w ids).messages ∧
    (∀ ref ntfn, w.messages uid ref = some ntfn → isNotificationPersistent ntfn →
      (readAllNotifications doc uid w ids).messages uid ref = some ntfn ∧
        (readEach doc uid w ids).messages uid ref = some ntfn) ∧
    ∀ user, user ≠ uid → (readAllNotifications doc uid w ids).messages user = w.messages user ∧
      (readEach doc uid w ids).messages user = w.messages user

end

variable {doc : String → Option ρ} {uid user : String} {w : World ρ} {ref : ρ} {ntfn : UserNotification}

theorem messages_delete (key : ρ) :
    (w.delete uid key).messages user ref = some ntfn ↔
      w.messages user ref = some ntfn ∧ ¬(user = uid ∧ ref = key) := by
  unfold World.delete
  grind

theorem messages_readNotification (id : String) :
    (readNotification doc uid w id).messages user ref = some ntfn ↔
      w.messages user ref = some ntfn ∧ ¬(user = uid ∧ doc id = some ref ∧ isNotificationPersistent ntfn = false) := by
  cases hdoc : doc id with
  | none => simp [readNotification, handleReadNotification, hdoc]
  | some key =>
    cases hstored : w.messages uid key with
    | none =>
      simp only [readNotification, handleReadNotification, hdoc]
      grind
    | some stored =>
      cases hpersistent : isNotificationPersistent stored with
      | true =>
        simp [readNotification, handleReadNotification, hdoc, hstored, hpersistent]
        grind
      | false =>
        simp [readNotification, handleReadNotification, hdoc, hstored, hpersistent, messages_delete]
        grind

theorem messages_readEach (ids : List String) :
    (readEach doc uid w ids).messages user ref = some ntfn ↔ w.messages user ref = some ntfn ∧
        ¬(user = uid ∧ (∃ id ∈ ids, doc id = some ref) ∧ isNotificationPersistent ntfn = false) := by
  induction ids generalizing w with
  | nil => simp [readEach]
  | cons id ids ih =>
    rw [readEach, List.foldl_cons, ← readEach, ih, messages_readNotification]
    grind

theorem handleReadAllNotifications_cons (id : String) (ids : List String) (w : World ρ) :
    handleReadAllNotifications doc uid (id :: ids) w =
      (doc id).bind fun ref => handleReadAllNotifications doc uid ids (w.delete uid ref) := by
  unfold handleReadAllNotifications
  cases hdoc : doc id with
  | none => simp [hdoc]
  | some ref => cases hrest : ids.mapM doc <;> simp [hdoc, hrest]

theorem handleReadAllNotifications_eq_none {ids : List String} :
    handleReadAllNotifications doc uid ids w = none ↔ ∃ id ∈ ids, doc id = none := by
  induction ids generalizing w with
  | nil => simp [handleReadAllNotifications]
  | cons id ids ih =>
    rw [handleReadAllNotifications_cons]
    cases hdoc : doc id <;> simp [hdoc, ih]

theorem messages_handleReadAllNotifications {ids : List String} {after : World ρ}
    (h : handleReadAllNotifications doc uid ids w = some after) :
    after.messages user ref = some ntfn ↔
      w.messages user ref = some ntfn ∧ ¬(user = uid ∧ ∃ id ∈ ids, doc id = some ref) := by
  induction ids generalizing w with
  | nil =>
    cases h
    simp
  | cons id ids ih =>
    rw [handleReadAllNotifications_cons] at h
    obtain ⟨key, hdoc, hrest⟩ := Option.bind_eq_some_iff.mp h
    rw [ih hrest, messages_delete]
    grind

theorem messages_readAllNotifications (ids : List String) :
    (readAllNotifications doc uid w ids).messages user ref = some ntfn ↔ w.messages user ref = some ntfn ∧
        ¬(user = uid ∧ (∃ id ∈ ids, doc id = some ref) ∧ ¬∃ id ∈ ids, doc id = none) := by
  unfold readAllNotifications
  cases hafter : handleReadAllNotifications doc uid ids w with
  | none => simp [handleReadAllNotifications_eq_none.mp hafter]
  | some after =>
    have hall : ¬∃ id ∈ ids, doc id = none := by
      intro hnone
      rw [handleReadAllNotifications_eq_none.mpr hnone] at hafter
      simp at hafter
    rw [Option.getD_some, messages_handleReadAllNotifications hafter]
    simp only [hall, not_false_eq_true, and_true]

/-- Reading all is like reading each if and only if every notification of the list that is stored is persistent exactly
when a reference of the list is refused. -/
theorem readAlike_iff (doc : String → Option ρ) (uid : String) (w : World ρ) (ids : List String) :
    ReadAlike doc uid w ids ↔ ∀ id ∈ ids, ∀ ref ntfn, doc id = some ref → w.messages uid ref = some ntfn →
        (isNotificationPersistent ntfn ↔ ∃ id ∈ ids, doc id = none) := by
  constructor
  · intro ⟨hsame, _, _⟩ id hid ref ntfn hdoc hstored
    have hafter : (readAllNotifications doc uid w ids).messages uid ref = some ntfn ↔
        (readEach doc uid w ids).messages uid ref = some ntfn := by rw [hsame]
    rw [messages_readAllNotifications, messages_readEach] at hafter
    grind
  · intro h
    have hsurvives (user : String) (ref : ρ) (ntfn : UserNotification) :
        (readAllNotifications doc uid w ids).messages user ref = some ntfn ↔
          (readEach doc uid w ids).messages user ref = some ntfn := by
      rw [messages_readAllNotifications, messages_readEach]
      grind
    refine ⟨?_, ?_, ?_⟩
    · ext user ref ntfn
      exact hsurvives user ref ntfn
    · intro ref ntfn hstored hpersistent
      have heach : (readEach doc uid w ids).messages uid ref = some ntfn :=
        (messages_readEach ids).mpr ⟨hstored, by simp [hpersistent]⟩
      exact ⟨(hsurvives uid ref ntfn).mpr heach, heach⟩
    · intro user huser
      constructor
      · ext ref ntfn
        rw [messages_readAllNotifications]
        simp [huser]
      · ext ref ntfn
        rw [messages_readEach]
        simp [huser]

def pendingInvite : UserNotification := ⟨.workspaceInvite, none⟩

def invited : World String where
  messages user ref := if user = "u" ∧ ref = "n" then some pendingInvite else none
  presence _ := none
  sent := []

/-- An invitation survives when it is read, and is deleted when all are read. -/
theorem invite_read_away :
    isNotificationPersistent pendingInvite ∧ (readEach some "u" invited ["n"]).messages "u" "n" = some pendingInvite ∧
      (readAllNotifications some "u" invited ["n"]).messages "u" "n" = none ∧ ¬ReadAlike some "u" invited ["n"] := by
  have heach : (readEach some "u" invited ["n"]).messages "u" "n" = some pendingInvite := by decide
  have hall : (readAllNotifications some "u" invited ["n"]).messages "u" "n" = none := by decide
  refine ⟨rfl, heach, hall, fun h => ?_⟩
  rw [h.1, heach] at hall
  simp at hall

end HideServer.Notification
