import HideServer.Tokens.Payload

/-!
# How often and how long an invitation admits

Accepting and ignoring check the signature and whom an invitation is for; its date is never read. `Desk`
adds the time and the tokens signed, accepted and ignored.
-/

namespace HideServer.Tokens

open Async Trace Manage

def ignoreInvitation (inviteeId : String) (token : Option InvitationToken) : Io (Except String Unit) :=
  match token with
  | none => return .error "JsonWebTokenError"
  | some token =>
    if some inviteeId ≠ token.inviteeId then return .error "INVALID_INVITATION_TOKEN"
    else do
      ask (.emit (.notificationRead inviteeId (token.notificationId.getD "")))
      return .ok ()

/-- The records, the time and the tokens. -/
structure Desk where
  store : Store
  now : Int
  signed : List Token
  spent : List Token

def Desk.empty : Desk := ⟨.empty, 0, [], []⟩

def accepts : Op → Bool
  | .accept .. => true
  | _ => false

inductive Act where
  /-- An operation of the service in which no invitation is accepted. -/
  | call (op : {op : Op // accepts op = false})
  | createAccessRequest (payload : AccessRequestPayload)
  | accept (inviteeId : String) (token : Token) (sessions : Sessions) (choice choice' : Nat)
      (commits : Bool)
  | ignore (inviteeId : String) (token : Token)
  | wait (ms : Nat)

def week : Int := 7 * 24 * 3600 * 1000

def invitations (now : Int) (messages : List Message) : List Token :=
  messages.filterMap fun message =>
    match message with
    | .invite inviteeId inviterId workspaceUUID notificationId =>
      some (invitationToken ⟨notificationId, inviterId, inviteeId, workspaceUUID, now + week⟩)
    | _ => none

variable (d : Desk)

/-- What the service reads of a token: only one that it has signed verifies. -/
def Desk.presented (token : Token) : Option InvitationToken :=
  if token ∈ d.signed then asInvitation token else none

/-- The token is accepted or ignored. -/
def Desk.spend (token : Token) : Except String Unit → List Token
  | .ok _ => token :: d.spent
  | .error _ => d.spent

/-- One call, with its tokens. -/
def Desk.step : Act → Desk
  | .call op =>
    let after := perform d.store op.1
    { d with
      store := after
      signed := d.signed ++ invitations d.now (after.sent.drop d.store.sent.length) }
  | .createAccessRequest payload => { d with signed := d.signed ++ [accessToken payload] }
  | .accept inviteeId token sessions choice choice' commits =>
    let result := Prog.run exec
      (acceptInvitation inviteeId (d.presented token) sessions choice choice' commits) d.store
    { d with store := result.2, spent := d.spend token result.1 }
  | .ignore inviteeId token =>
    let result := Prog.run exec (ignoreInvitation inviteeId (d.presented token)) d.store
    { d with store := result.2, spent := d.spend token result.1 }
  | .wait ms => { d with now := d.now + ms }

/-- The date in the payload. -/
def validTill : Token → Option Int
  | .signed ⟨_, _, _, .invitation payload⟩ => some payload.validTill
  | _ => none

/-- The date of the token has not passed, and nobody has accepted or ignored it. -/
def Desk.Good (token : Token) : Prop :=
  ((validTill token).any fun till => decide (d.now ≤ till)) = true ∧ token ∉ d.spent
  deriving Decidable

/-- A membership is created only from a good token. -/
def Admission (act : Act) : Prop :=
  match act with
  | .accept _ token _ _ _ _ =>
    ∀ id uid, d.store.roster.role id uid = none → (d.step act).store.roster.role id uid ≠ none → d.Good token
  | _ => True

/-- Where the invitee may join, and is not a member yet, the token is good. -/
def Timely : Act → Prop
  | .accept inviteeId token _ _ choice' commits =>
    ∀ id, joining d.store inviteeId (d.presented token) choice' = some id →
      commits = true → inviteeId ≠ "" → d.store.roster.role id inviteeId = none → d.Good token
  | _ => True

theorem store_step_accept (inviteeId : String) (token : Token)
    (sessions : Sessions) (choice choice' : Nat) (commits : Bool) :
    (d.step (.accept inviteeId token sessions choice choice' commits)).store = perform d.store
        (.accept inviteeId (d.presented token) sessions choice choice' commits) :=
  rfl

variable {token : Token}

theorem admitted_iff {d : Desk} {inviteeId : String} {sessions : Sessions}
    {choice choice' : Nat} {commits : Bool} {id : Nat} {uid : String} (hnone : d.store.roster.role id uid = none) :
    (d.step (.accept inviteeId token sessions choice choice' commits)).store.roster.role id uid ≠ none ↔
      joining d.store inviteeId (d.presented token) choice' = some id ∧ commits = true ∧
        inviteeId ≠ "" ∧ uid = inviteeId := by
  rw [store_step_accept, roster_accept]
  cases hjoining : joining d.store inviteeId (d.presented token) choice' with
  | none => simp [hnone]
  | some joined =>
    split_ifs with hsaved
    · simp only [Roster.join, Option.some.injEq]
      split_ifs with hkey
      · simp [hkey, hsaved]
      · rw [hnone]
        refine iff_of_false (fun h => h rfl) ?_
        rintro ⟨rfl, -, -, rfl⟩
        exact hkey ⟨rfl, rfl⟩
    · refine iff_of_false (fun h => h hnone) ?_
      rintro ⟨-, hcommits, hnamed, -⟩
      exact hsaved ⟨hcommits, hnamed⟩

theorem admission_iff (act : Act) : Admission d act ↔ Timely d act := by
  cases act with
  | call _ | createAccessRequest _ | ignore _ _ | wait _ => exact Iff.rfl
  | accept inviteeId token sessions choice choice' commits =>
    constructor
    · intro hadmission id hjoining hcommits hnamed hnone
      exact hadmission id inviteeId hnone ((admitted_iff hnone).mpr ⟨hjoining, hcommits, hnamed, rfl⟩)
    · intro htimely id uid hnone hadmitted
      obtain ⟨hjoining, hcommits, hnamed, rfl⟩ := (admitted_iff hnone).mp hadmitted
      exact htimely id hjoining hcommits hnamed hnone

/-- Invitations admit once and while they are valid exactly in the runs in which nobody who could join presents one
that is not good. -/
theorem admission_run_iff (d : Desk) (acts : List Act) :
    Along Desk.step Admission d acts ↔ Along Desk.step Timely d acts := by
  refine ⟨Along.mono fun d act => ?_, Along.mono fun d act => ?_⟩
  · exact (admission_iff d act).mp
  · exact (admission_iff d act).mpr

def spaceUuid : String := "6ba7b810-9dad-11d1-80b4-00c04fd430c8"

def invited : List Act :=
  [.call ⟨.create "alice" ⟨some "demo", "d", "node", false⟩ spaceUuid true true, rfl⟩,
    .call ⟨.invite "alice" spaceUuid ("bob", "n1") 0, rfl⟩]

def bobsToken : Token := invitationToken ⟨"n1", "alice", "bob", spaceUuid, week⟩

def bobAccepts : Act := .accept "bob" bobsToken (fun _ => none) 0 0 true

def belated : List Act := invited ++ [.wait 691200000]

def removed : List Act :=
  invited ++ [bobAccepts,
    .call ⟨.update "alice" ⟨some 1, none, none, some ["alice"]⟩ id (fun _ => none) 0 true true, rfl⟩]

/-- In both cases bob is let in. -/
theorem admitted_again : ¬Along Desk.step Admission .empty (belated ++ [bobAccepts]) ∧
    ¬Along Desk.step Admission .empty (removed ++ [bobAccepts]) := by
  constructor
  · intro halong
    have hlast := ((along_append ..).mp halong).2.1
    exact absurd (hlast 1 "bob" (by decide) (by decide)) (by decide)
  · intro halong
    have hlast := ((along_append ..).mp halong).2.1
    exact absurd (hlast 1 "bob" (by decide) (by decide)) (by decide)

end HideServer.Tokens
