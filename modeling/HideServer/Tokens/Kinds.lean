import HideServer.Tokens.Payload

/-!
# One kind of token in the place of the other

An invitation passes for a request for a code, with an undefined uuid. A find condition does not compare
an undefined value; in a delete condition nothing equals one.
-/

namespace HideServer.Tokens

open Async Trace Db.Table Manage Access

/-- `GET access-fulfill` at the gateway: the codes after the guard and the request it lets through. A request that
is throttled, or does not get to the workspace service, is not `reached`. -/
def accessFulfill (action : Access.FulfillAction) (token : Option Token) (reached : Bool)
    (notificationId : String) (choice : Nat) (codes : Access.Codes) : Access.Codes :=
  match canActivate token with
  | .ok true =>
    if reached then perform codes (.fulfill action (token.bind asAccess) notificationId choice)
    else codes
  | _ => codes

/-- No invitation changes an access code, and no request for an access code makes a member. -/
structure KindsApart (codes : Access.Codes) (action : Access.FulfillAction) (reached : Bool)
    (notificationId : String) (choice : Nat) : Prop where
  codes_kept : ∀ invitation id,
    (accessFulfill action (some (invitationToken invitation)) reached notificationId choice codes).rows id =
      codes.rows id
  members_kept : ∀ (s : Store) request uid sessions first second commits,
    (perform s (.accept uid (asInvitation (accessToken request)) sessions first second commits)).roster = s.roster

/-- There is no code to approve, or the one that is found is as the approval would leave it. -/
def NothingToApprove (codes : Access.Codes) (notificationId : String) (choice : Nat) : Prop :=
  ∀ id row, codes.find? (fun _ => true) choice = some (id, row) →
    row.status = .unused ∧ row.ntfnId = some notificationId

theorem byUuid_none : byUuid none = fun _ => true := by
  funext row
  simp [finds, Access.Where.test, found]

theorem accessFulfill_invitation (action : Access.FulfillAction) (invitation : InvitationPayload)
    (reached : Bool) (notificationId : String) (choice : Nat) (codes : Access.Codes) :
    accessFulfill action (some (invitationToken invitation)) reached notificationId choice codes =
      if reached then perform codes (.fulfill action (some ⟨none, none⟩) notificationId choice)
      else codes := rfl

theorem rows_reject_undefined (codes : Access.Codes) (notificationId : String) (choice id : Nat) :
    (perform codes (.fulfill .reject (some ⟨none, none⟩) notificationId choice)).rows id = codes.rows id := by
  rw [perform_reject, rows_delete]
  cases codes.rows id with
  | none => rfl
  | some row => simp [deletes, Access.Where.test, deleted]

theorem rows_approve_undefined_iff {codes : Access.Codes} (hunique : Access.UniqueCodes codes)
    (notificationId : String) (choice : Nat) :
    (∀ id, (perform codes (.fulfill .approve (some ⟨none, none⟩) notificationId choice)).rows id =
      codes.rows id) ↔ NothingToApprove codes notificationId choice := by
  unfold NothingToApprove
  rw [← byUuid_none]
  cases hfound : codes.find? (byUuid none) choice with
  | none =>
    have hsame : perform codes (.fulfill .approve (some ⟨none, none⟩) notificationId choice) = codes :=
      perform_approve_none notificationId hfound
    simp [hsame]
  | some found =>
    obtain ⟨id, row⟩ := found
    have hrow := (find?_some hfound).1
    have hsaves : perform codes (.fulfill .approve (some ⟨none, none⟩) notificationId choice) = _ :=
      perform_approve_some hunique notificationId hfound
    rw [hsaves]
    constructor
    · intro hsame id' row' hfound'
      cases hfound'
      have hsaved := hsame id
      rw [rows_save, if_pos rfl, hrow, Option.some.injEq] at hsaved
      rw [← hsaved]
      exact ⟨rfl, rfl⟩
    · intro happroved key
      obtain ⟨hstatus, hntfn⟩ := happroved id row rfl
      rw [rows_save, rows_save]
      split_ifs with hkey
      · rw [hkey, hrow, ← hstatus, ← hntfn]
      · rfl

theorem roster_accept_access (s : Store) (request : AccessRequestPayload) (uid : String)
    (sessions : Sessions) (first second : Nat) (commits : Bool) :
    (perform s (.accept uid (asInvitation (accessToken request)) sessions first second commits)).roster =
      s.roster := by
  rfl

theorem uniqueCodes_run (ops : List Access.Op) : Access.UniqueCodes (run perform .empty ops) := by
  have hstep (codes : Access.Codes) (op : Access.Op) :
      Access.UniqueCodes codes → Access.UniqueCodes (perform codes op) :=
    fun hunique => uniqueCodes_perform hunique op
  have hempty : Access.UniqueCodes .empty := fun id id' row row' hrow => nomatch hrow
  exact run_preserves hstep hempty ops

/-- On every table of codes that calls can lead to, the kinds of tokens stay apart exactly if the token is not used
for an approval, or there is nothing to approve. -/
theorem kindsApart_iff (ops : List Access.Op) (action : Access.FulfillAction) (reached : Bool)
    (notificationId : String) (choice : Nat) :
    KindsApart (run perform .empty ops) action reached notificationId choice ↔ (action = .approve → reached = true →
        NothingToApprove (run perform .empty ops) notificationId choice) := by
  have hunique := uniqueCodes_run ops
  constructor
  · rintro ⟨hkept, -⟩ rfl rfl
    apply (rows_approve_undefined_iff hunique notificationId choice).mp
    intro id
    have hsame := hkept ⟨"", "", "", "", 0⟩ id
    exact hsame
  · intro hcondition
    refine ⟨fun invitation id => ?_, roster_accept_access⟩
    rw [accessFulfill_invitation]
    split_ifs with hreached
    · cases action with
      | reject => exact rows_reject_undefined _ notificationId choice id
      | approve =>
        have hnothing := hcondition rfl hreached
        exact (rows_approve_undefined_iff hunique notificationId choice).mpr hnothing id
    · rfl

def requested : List Access.Op := [.create "mallory" "u1" "c1" 1000 true true]

/-- An invitation to any workspace approves the code. -/
theorem approved_by_invitation : ¬KindsApart (run perform .empty requested) .approve true "n2" 0 := by
  intro hapart
  have hkept := hapart.codes_kept ⟨"n1", "alice", "mallory", "w1", 604800000⟩ 1
  exact absurd (congrArg (Option.map (·.status)) hkept) (by decide)

end HideServer.Tokens
