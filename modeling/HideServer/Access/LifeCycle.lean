import HideServer.Access.Codes
import Mathlib.Data.List.Induction

/-!
# The life cycle of a code

The endpoints run one after the other. A code is meant to go from `NEW` to `UNUSED` by approval, to
`USED` by consumption and back by a reset. `Changes` says once what a call does to a status.
-/

namespace HideServer.Access

open Async Async.Prog Trace Db.Table

variable {codes : Codes} {id : Nat} {row : AccessCode} {choice : Nat} {code : Option String}

def perform (codes : Codes) (op : Op) : Codes := (run exec (program op) codes).2

abbrev byUuid (uuid : Option String) : AccessCode → Bool := finds [⟨none, some uuid, none, none⟩]

abbrev byCode (uid : String) (code : Option String) : AccessCode → Bool :=
  finds [⟨some (some uid), none, some code, none⟩]

/-- The call changes the status of the row to the one given. -/
inductive Changes (codes : Codes) : Op → Nat → AccessCode → AccessStatus → Prop where
  | approve {token : AccessToken} {notificationId : String} {choice id : Nat} {row : AccessCode}
      (hfound : codes.find? (byUuid token.uuid) choice = some (id, row)) :
      Changes codes (.fulfill .approve (some token) notificationId choice) id row .unused
  | consume {uid code : String} {now : Int} {choice id : Nat} {row : AccessCode}
      (hfound : codes.find? (byCode uid (some code)) choice = some (id, row))
      (hstatus : row.status ≠ .used) (hexpiry : ¬row.expiresAt < now) :
      Changes codes (.consume uid (some code) now choice) id row .used
  | reset {uid : String} {code : Option String} {choice id : Nat} {row : AccessCode}
      (hfound : codes.find? (byCode uid code) choice = some (id, row)) (hstatus : row.status = .used) :
      Changes codes (.reset uid code choice) id row .unused

/-- No two rows have one code. -/
def UniqueCodes (codes : Codes) : Prop :=
  ∀ id id' row row', codes.rows id = some row → codes.rows id' = some row' → row.code = row'.code → id = id'

theorem codeTaken_eq_false {code : String} :
    codeTaken codes id code = false ↔ ∀ key row, codes.rows key = some row → row.code = code → key = id := by
  simp [codeTaken, others_eq_false]

theorem codeTaken_of_row (hunique : UniqueCodes codes) (hrow : codes.rows id = some row) :
    codeTaken codes id row.code = false :=
  codeTaken_eq_false.mpr fun key row' hrow' hcode => hunique key id row' row hrow' hrow hcode

theorem codeTaken_save {code : String} (h : codeTaken codes id code = false) :
    codeTaken (codes.save id row) id code = false := by
  rw [codeTaken_eq_false] at h ⊢
  intro key saved hsaved hcode
  rw [rows_save] at hsaved
  split_ifs at hsaved with hkey
  · exact hkey
  · exact h key saved hsaved hcode

theorem uniqueCodes_write {after : Codes} (hunique : UniqueCodes codes) {key : Nat}
    (htaken : codeTaken codes key row.code = false)
    (hafter : ∀ id, after.rows id = if id = key then some row else codes.rows id) : UniqueCodes after := by
  rw [codeTaken_eq_false] at htaken
  intro id id' left right hleft hright hcode
  rw [hafter] at hleft hright
  split_ifs at hleft hright with hid hid' hid'
  · rw [hid, hid']
  · cases hleft
    rw [hid, htaken id' right hright hcode.symm]
  · cases hright
    rw [hid', htaken id left hleft hcode]
  · exact hunique id id' left right hleft hright hcode

theorem uniqueCodes_exec (call : Call) (hunique : UniqueCodes codes) : UniqueCodes (exec call codes).2 := by
  cases call with
  | countActive _ | findOne _ _ | notify _ | notificationRead _ _ => exact hunique
  | insert row =>
    simp only [exec]
    split_ifs with htaken
    · exact hunique
    · rw [Bool.not_eq_true] at htaken
      exact uniqueCodes_write hunique htaken (rows_insert codes row)
  | save key row =>
    simp only [exec]
    split_ifs with htaken
    · exact hunique
    · rw [Bool.not_eq_true] at htaken
      exact uniqueCodes_write hunique htaken (rows_save codes key row)
  | delete wheres =>
    intro id id' left right hleft hright hcode
    exact hunique id id' left right (of_rows_delete hleft) (of_rows_delete hright) hcode
  | markUsed uid code =>
    intro id id' left right hleft hright hcode
    simp only [exec, rows_modify, Option.map_eq_some_iff] at hleft hright
    obtain ⟨before, hbefore, rfl⟩ := hleft
    obtain ⟨before', hbefore', rfl⟩ := hright
    have hkept : ∀ row : AccessCode, (if isCode uid code row then { row with status := .used } else row).code = row.code := by
      intro row
      split <;> rfl
    rw [hkept, hkept] at hcode
    exact hunique id id' before before' hbefore hbefore' hcode

theorem uniqueCodes_perform (hunique : UniqueCodes codes) (op : Op) : UniqueCodes (perform codes op) :=
  run_preserves (fun call _ => uniqueCodes_exec call) (program op) hunique

section

variable {codes : Codes}

theorem perform_create (codes : Codes) (uid uuid code : String) (expiresAt : Int) (canProvision mailed : Bool) :
    perform codes (.create uid uuid code expiresAt canProvision mailed) = codes ∨
      perform codes (.create uid uuid code expiresAt canProvision mailed) =
        codes.insert ⟨code, uid, uuid, .new, none, expiresAt⟩ := by
  unfold perform program createAccessRequest
  simp only [perform_bind, run_await]
  split_ifs
  · exact .inl rfl
  · exact .inl rfl
  · exact .inl rfl
  · simp only [run_await, exec, pure_eq, run_ret]
    split_ifs
    · exact .inl rfl
    · exact .inr rfl

theorem perform_reject (token : AccessToken) (notificationId : String) (choice : Nat) :
    perform codes (.fulfill .reject (some token) notificationId choice) =
      codes.delete (deletes [⟨none, some token.uuid, none, none⟩]) := rfl

theorem perform_approve_none {token : AccessToken} (notificationId : String)
    (hfound : codes.find? (byUuid token.uuid) choice = none) :
    perform codes (.fulfill .approve (some token) notificationId choice) = codes := by
  simp [perform, program, fulfillAccessRequest, approve, exec, hfound]

theorem perform_approve_some (hunique : UniqueCodes codes) {token : AccessToken} (notificationId : String)
    (hfound : codes.find? (byUuid token.uuid) choice = some (id, row)) :
    perform codes (.fulfill .approve (some token) notificationId choice) =
      (codes.save id { row with status := .unused }).save id { row with status := .unused, ntfnId := some notificationId } := by
  have hfree := codeTaken_of_row hunique (find?_some hfound).1
  have hfree' : codeTaken (codes.save id { row with status := .unused }) id row.code = false := codeTaken_save hfree
  simp [perform, program, fulfillAccessRequest, approve, exec, hfound, hfree, hfree']

theorem perform_consume_none {uid : String} (now : Int) (hfound : codes.find? (byCode uid code) choice = none) :
    perform codes (.consume uid code now choice) = codes := by
  simp [perform, program, consumeAccessCode, exec, hfound]

theorem perform_consume_some {uid : String} (now : Int) (hfound : codes.find? (byCode uid code) choice = some (id, row)) :
    perform codes (.consume uid code now choice) =
      if row.status = .used ∨ row.expiresAt < now then codes
      else codes.modify (isCode uid code) fun row => { row with status := .used } := by
  simp only [perform, program, consumeAccessCode, perform_bind, run_await, exec, hfound]
  by_cases hused : row.status = .used
  · simp [hused]
  by_cases hexpired : row.expiresAt < now
  · simp [hused, hexpired]
  · simp [hused, hexpired, exec]

theorem perform_reset_none {uid : String} (hfound : codes.find? (byCode uid code) choice = none) :
    perform codes (.reset uid code choice) = codes := by
  simp [perform, program, resetAccessCode, exec, hfound]

theorem perform_reset_some (hunique : UniqueCodes codes) {uid : String}
    (hfound : codes.find? (byCode uid code) choice = some (id, row)) :
    perform codes (.reset uid code choice) =
      if row.status = .used then codes.save id { row with status := .unused } else codes := by
  have hfree := codeTaken_of_row hunique (find?_some hfound).1
  simp only [perform, program, resetAccessCode, perform_bind, run_await, exec, hfound]
  by_cases hused : row.status = .used
  · simp [hused, exec, hfree]
  · simp [hused]

theorem perform_delete (codes : Codes) (uid : String) (uuid ntfnId code : Option String) (choice : Nat) :
    ∃ p, perform codes (.delete uid uuid ntfnId code choice) = codes.delete p := by
  simp only [perform, program, deleteAccessCode, perform_bind, run_await]
  split
  · split_ifs
    · exact ⟨_, rfl⟩
    · exact ⟨_, rfl⟩
  · exact ⟨_, rfl⟩

end

section

variable {codes : Codes} (hunique : UniqueCodes codes) {op : Op} {id : Nat}

theorem byCode_some (uid code : String) (row : AccessCode) :
    byCode uid (some code) row = isCode uid (some code) row := by
  have huid : decide (uid = row.uid) = decide (row.uid = uid) := decide_eq_decide.mpr eq_comm
  simp [finds, Where.test, found, isCode, huid]

theorem status_eq_of_rows {after : Codes} (h : after.rows id = codes.rows id) : status after id = status codes id := by
  unfold status
  rw [h]

theorem status_delete (codes : Codes) (p : AccessCode → Bool) (id : Nat) :
    status (codes.delete p) id = status codes id ∨ status (codes.delete p) id = none := by
  cases hafter : (codes.delete p).rows id with
  | none =>
    simp [status, hafter]
  | some row =>
    left
    exact status_eq_of_rows (hafter.trans (of_rows_delete hafter).symm)

include hunique

theorem status_of_changes {after : AccessStatus} (h : Changes codes op id row after) :
    status (perform codes op) id = some after := by
  cases h with
  | approve hfound =>
    rw [perform_approve_some hunique _ hfound]
    simp [status, rows_save]
  | consume hfound hstatus hexpiry =>
    obtain ⟨hrow, hcode⟩ := find?_some hfound
    rw [byCode_some] at hcode
    rw [perform_consume_some _ hfound, if_neg (not_or.mpr ⟨hstatus, hexpiry⟩)]
    simp [status, rows_modify, hrow, hcode]
  | reset hfound hstatus =>
    rw [perform_reset_some hunique hfound, if_pos hstatus]
    simp [status, rows_save]

theorem eq_of_isCode {uid : String} {key : Nat} {other : AccessCode}
    (hfound : codes.find? (byCode uid code) choice = some (key, row)) (hother : codes.rows id = some other)
    (hcode : isCode uid code other) : id = key := by
  obtain ⟨hrow, hmatch⟩ := find?_some hfound
  simp only [isCode, Bool.and_eq_true, decide_eq_true_eq] at hcode
  rw [hcode.2, byCode_some] at hmatch
  simp only [isCode, Bool.and_eq_true, decide_eq_true_eq, Option.some.injEq] at hmatch
  exact hunique id key other row hother hrow hmatch.2

theorem status_of_not_changes (h : ∀ row after, codes.rows id = some row → ¬Changes codes op id row after) :
    status (perform codes op) id = status codes id ∨ status (perform codes op) id = none ∨
      (status codes id = none ∧ status (perform codes op) id = some .new) := by
  cases op with
  | create uid uuid code expiresAt canProvision mailed =>
    obtain hsame | hinsert := perform_create codes uid uuid code expiresAt canProvision mailed
    · left
      rw [hsame]
    · rw [hinsert]
      by_cases hid : id = codes.next
      · right
        simp [status, rows_insert, hid, codes.absent]
      · left
        apply status_eq_of_rows
        rw [rows_insert, if_neg hid]
  | fulfill action token notificationId choice =>
    match token, action with
    | none, action => exact .inl rfl
    | some token, .reject =>
      exact (status_delete codes _ id).imp_right .inl
    | some token, .approve =>
      left
      match hfound : codes.find? (byUuid token.uuid) choice with
      | none => rw [perform_approve_none notificationId hfound]
      | some (key, row) =>
        rw [perform_approve_some hunique notificationId hfound]
        have hne : id ≠ key := by
          rintro rfl
          exact h row .unused (find?_some hfound).1 (.approve hfound)
        apply status_eq_of_rows
        rw [rows_save, if_neg hne, rows_save, if_neg hne]
  | consume uid code now choice =>
    left
    match hfound : codes.find? (byCode uid code) choice with
    | none => rw [perform_consume_none now hfound]
    | some (key, row) =>
      rw [perform_consume_some now hfound]
      split_ifs with hrefused
      · rfl
      apply status_eq_of_rows
      rw [rows_modify]
      cases hother : codes.rows id with
      | none => rfl
      | some other =>
        have hnot : ¬isCode uid code other = true := by
          intro hcode
          obtain rfl := eq_of_isCode hunique hfound hother hcode
          rw [not_or] at hrefused
          simp only [isCode, Bool.and_eq_true, decide_eq_true_eq] at hcode
          obtain ⟨-, rfl⟩ := hcode
          exact h row .used (find?_some hfound).1 (.consume hfound hrefused.1 hrefused.2)
        simp [hnot]
  | reset uid code choice =>
    left
    match hfound : codes.find? (byCode uid code) choice with
    | none => rw [perform_reset_none hfound]
    | some (key, row) =>
      rw [perform_reset_some hunique hfound]
      split_ifs with hused
      · have hne : id ≠ key := by
          rintro rfl
          exact h row .unused (find?_some hfound).1 (.reset hfound hused)
        apply status_eq_of_rows
        rw [rows_save, if_neg hne]
      · rfl
  | delete uid uuid ntfnId code choice =>
    obtain ⟨p, hdelete⟩ := perform_delete codes uid uuid ntfnId code choice
    rw [hdelete]
    exact (status_delete codes p id).imp_right .inl

end

/-- The three changes of status there are meant to be, each with the call that makes it. -/
inductive Lawful : Op → AccessStatus → AccessStatus → Prop where
  | approve (token : AccessToken) (notificationId : String) (choice : Nat) :
      Lawful (.fulfill .approve (some token) notificationId choice) .new .unused
  | consume (uid : String) (code : Option String) (now : Int) (choice : Nat) : Lawful (.consume uid code now choice) .unused .used
  | reset (uid : String) (code : Option String) (choice : Nat) : Lawful (.reset uid code choice) .used .unused

/-- Every change of a status is one of the life cycle. -/
def LawfulStep (codes : Codes) (op : Op) : Prop :=
  ∀ id before after, status codes id = some before → status (perform codes op) id = some after → before ≠ after →
    Lawful op before after

/-- The two endpoints that do not look at the status as they should meet a code they are meant for: approval none
that is `USED`, consumption none that is still `NEW`, unless it has expired. -/
def InOrder (codes : Codes) : Op → Prop
  | .fulfill .approve (some token) _ choice =>
    ∀ id row, codes.find? (byUuid token.uuid) choice = some (id, row) → row.status ≠ .used
  | .consume uid (some code) now choice =>
    ∀ id row, codes.find? (byCode uid (some code)) choice = some (id, row) → row.status = .new → row.expiresAt < now
  | _ => True

theorem lawful_of_changes {op : Op} {after : AccessStatus} (hchanges : Changes codes op id row after)
    (horder : InOrder codes op) (hne : row.status ≠ after) : Lawful op row.status after := by
  cases hchanges with
  | approve hfound =>
    have hused := horder id row hfound
    have hnew : row.status = .new := by
      cases hstatus : row.status <;> simp_all
    rw [hnew]
    exact .approve _ _ _
  | consume hfound hstatus hexpiry =>
    have hnew : row.status ≠ .new := fun hnew => hexpiry (horder id row hfound hnew)
    have hunused : row.status = .unused := by
      cases hcase : row.status <;> simp_all
    rw [hunused]
    exact .consume _ _ _ _
  | reset hfound hstatus =>
    rw [hstatus]
    exact .reset _ _ _

/-- One call changes statuses lawfully exactly if it is in order. -/
theorem lawfulStep_iff (hunique : UniqueCodes codes) (op : Op) : LawfulStep codes op ↔ InOrder codes op := by
  constructor
  · intro hlawful
    have hchanges : ∀ {id row after}, Changes codes op id row after → codes.rows id = some row →
        row.status ≠ after → Lawful op row.status after := by
      intro id row after hchanges hrow hne
      apply hlawful id _ _ _ (status_of_changes hunique hchanges) hne
      rw [status, hrow]
      rfl
    unfold InOrder
    split
    · intro id row hfound hused
      have h := hchanges (.approve hfound) (find?_some hfound).1 (by simp [hused])
      rw [hused] at h
      cases h
    · intro id row hfound hnew
      by_contra hexpiry
      have h := hchanges (.consume hfound (by simp [hnew]) hexpiry) (find?_some hfound).1 (by simp [hnew])
      rw [hnew] at h
      cases h
    · trivial
  · intro horder id before after hbefore hafter hne
    obtain ⟨row, hrow, rfl⟩ := Option.map_eq_some_iff.mp hbefore
    by_cases hchanges : ∃ after, Changes codes op id row after
    · obtain ⟨after', hchanges⟩ := hchanges
      have hsame := (status_of_changes hunique hchanges).symm.trans hafter
      cases hsame
      exact lawful_of_changes hchanges horder hne
    · have hnone : ∀ row after, codes.rows id = some row → ¬Changes codes op id row after := by
        intro row' after' hrow' h
        rw [hrow] at hrow'
        cases hrow'
        exact hchanges ⟨after', h⟩
      obtain hsame | hgone | ⟨habsent, -⟩ := status_of_not_changes hunique hnone
      · rw [hsame, hbefore] at hafter
        cases hafter
        exact absurd rfl hne
      · rw [hgone] at hafter
        cases hafter
      · rw [habsent] at hbefore
        cases hbefore

abbrev after (ops : List Op) : Codes := run perform .empty ops

theorem uniqueCodes_empty : UniqueCodes .empty := by
  intro id id' row row' hrow
  cases hrow

theorem uniqueCodes_after (ops : List Op) : UniqueCodes (after ops) := by
  apply run_preserves _ uniqueCodes_empty
  intro codes op hunique
  exact uniqueCodes_perform hunique op

/-- In the course of the calls the code was approved: a call took it from `NEW` to `UNUSED` by its token. -/
def ApprovedDuring (ops : List Op) (id : Nat) : Prop :=
  ∃ done token notificationId choice rest, ops = done ++ .fulfill .approve (some token) notificationId choice :: rest ∧
    status (after done) id = some .new ∧
    status (after (done ++ [.fulfill .approve (some token) notificationId choice])) id = some .unused

theorem ApprovedDuring.append {ops : List Op} (h : ApprovedDuring ops id) (more : List Op) :
    ApprovedDuring (ops ++ more) id := by
  obtain ⟨done, token, notificationId, choice, rest, rfl, hnew, hunused⟩ := h
  refine ⟨done, token, notificationId, choice, rest ++ more, ?_, hnew, hunused⟩
  rw [List.append_assoc, List.cons_append]

theorem after_append_singleton (ops : List Op) (op : Op) : after (ops ++ [op]) = perform (after ops) op :=
  run_append perform .empty ops [op]

theorem approvedDuring_of_lawful (ops : List Op) (hlawful : Along perform LawfulStep .empty ops)
    {now : AccessStatus} (hnow : status (after ops) id = some now) (hne : now ≠ .new) : ApprovedDuring ops id := by
  induction ops using List.reverseRecOn generalizing now with
  | nil => cases hnow
  | append_singleton ops op ih =>
    obtain ⟨hops, hop, -⟩ := (along_append perform LawfulStep .empty ops [op]).mp hlawful
    rw [after_append_singleton] at hnow
    cases hbefore : status (after ops) id with
    | none =>
      exfalso
      have hrow : (after ops).rows id = none := by simpa [status] using hbefore
      have hnone : ∀ row after', (after ops).rows id = some row → ¬Changes (after ops) op id row after' := by
        simp [hrow]
      obtain hsame | hgone | ⟨-, hnew⟩ := status_of_not_changes (uniqueCodes_after ops) hnone
      · rw [hsame, hbefore] at hnow
        cases hnow
      · rw [hgone] at hnow
        cases hnow
      · rw [hnew] at hnow
        cases hnow
        exact hne rfl
    | some before =>
      by_cases hsame : before = now
      · subst hsame
        exact (ih hops hbefore hne).append [op]
      · cases hop id before now hbefore hnow hsame with
        | approve token notificationId choice =>
          refine ⟨ops, token, notificationId, choice, [], rfl, hbefore, ?_⟩
          rw [after_append_singleton]
          exact hnow
        | consume | reset => exact (ih hops hbefore (by simp)).append _

/-- An approval link that is used again leaves a `USED` code `USED`. -/
def ApprovalKeepsUsed (codes : Codes) (op : Op) : Prop :=
  ∀ token notificationId choice, op = .fulfill .approve (some token) notificationId choice →
    ∀ id, status codes id = some .used → status (perform codes op) id ∈ [some .used, none]

theorem approvalKeepsUsed_of_lawful {op : Op} (hlawful : LawfulStep codes op) : ApprovalKeepsUsed codes op := by
  rintro token notificationId choice rfl id hused
  cases hafter : status (perform codes (.fulfill .approve (some token) notificationId choice)) id with
  | none => simp
  | some after =>
    by_cases hsame : .used = after
    · simp [← hsame]
    · cases hlawful id .used after hused hafter hsame

/-- Along the calls every change of status is one of the three, no code is used that was not approved, and no
approval link revives a used one. -/
structure LifeCycle (ops : List Op) : Prop where
  lawful : Along perform LawfulStep .empty ops
  approved : ∀ done, done <+: ops → ∀ id, status (after done) id = some .used → ApprovedDuring done id
  keepsUsed : Along perform ApprovalKeepsUsed .empty ops

theorem lawful_run_iff (ops : List Op) : Along perform LawfulStep .empty ops ↔ Along perform InOrder .empty ops := by
  refine along_iff_of_invariant ?_ ?_ uniqueCodes_empty
  · intro codes op hunique _
    exact uniqueCodes_perform hunique op
  · intro codes op hunique
    exact lawfulStep_iff hunique op

/-- The life cycle is kept exactly as long as approval meets no `USED` code and consumption no `NEW` one that has
not expired. -/
theorem lifeCycle_iff (ops : List Op) : LifeCycle ops ↔ Along perform InOrder .empty ops := by
  rw [← lawful_run_iff]
  constructor
  · intro h
    exact h.lawful
  · intro hlawful
    refine ⟨hlawful, ?_, hlawful.mono fun _ _ => approvalKeepsUsed_of_lawful⟩
    rintro done ⟨rest, rfl⟩ id hused
    have hdone := ((along_append perform LawfulStep .empty done rest).mp hlawful).1
    exact approvedDuring_of_lawful done hdone hused (by simp)

/-- A code is consumed before it is approved, and a used code is revived by its old approval link. -/
theorem lifeCycle_broken :
    ¬LifeCycle [.create "alice" "u1" "c1" 1000 true true, .consume "alice" (some "c1") 1 0] ∧
    ¬LifeCycle [.create "alice" "u1" "c1" 1000 true true, .fulfill .approve (some ⟨some "alice", some "u1"⟩) "n1" 0,
      .consume "alice" (some "c1") 1 0, .fulfill .approve (some ⟨some "alice", some "u1"⟩) "n2" 0] := by
  constructor
  · intro h
    obtain ⟨-, hconsume, -⟩ := h.lawful
    cases hconsume 1 .new .used (by decide) (by decide) (by decide)
  · intro h
    obtain ⟨-, -, -, happrove, -⟩ := h.lawful
    cases happrove 1 .used .unused (by decide) (by decide) (by decide)

end HideServer.Access
