import HideServer.Access.LifeCycle

/-!
# Deleting a code

`deleteAccessCode` looks a code up by any of three identifiers, and deletes by the same three with
the notification of the code it has found.
-/

namespace HideServer.Access

open Async Async.Prog Db.Table

/-- One of the identifiers given is that of the row. -/
def Matches (uuid ntfnId code : Option String) (row : AccessCode) : Prop :=
  uuid = some row.uuid ∨ code = some row.code ∨ ntfnId ≠ none ∧ ntfnId = row.ntfnId

/-- Only codes of the user that match are deleted, and only the notification of a deleted code is marked as read. -/
def Spares (codes : Codes) (uid : String) (uuid ntfnId code : Option String) (choice : Nat) : Prop :=
  (∀ id row, codes.rows id = some row → (row.uid = uid → ¬Matches uuid ntfnId code row) →
    (perform codes (.delete uid uuid ntfnId code choice)).rows id = some row) ∧
  ∀ user ntfn,
    .notificationRead user ntfn ∈ (calls exec (deleteAccessCode uid uuid ntfnId code choice) codes).map Prod.snd →
    ∃ id row, codes.rows id = some row ∧ row.ntfnId = some ntfn ∧
      (perform codes (.delete uid uuid ntfnId code choice)).rows id = none

def selected (codes : Codes) (uid : String) (uuid ntfnId code : Option String) (choice : Nat) : Option String :=
  (codes.find? (finds (identifiers uid uuid ntfnId code)) choice).elim ntfnId (·.2.ntfnId)

variable {codes : Codes} {uid : String} {uuid ntfnId code : Option String} {choice id : Nat} {row : AccessCode}

theorem deletes_identifiers :
    deletes (identifiers uid uuid ntfnId code) row = true ↔ row.uid = uid ∧ Matches uuid ntfnId code row := by
  have hcolumn (value : Option String) (column : String) : value.any (· = column) = decide (value = some column) := by
    cases value <;> simp
  have hntfn : ntfnId.any (some · = row.ntfnId) = decide (ntfnId ≠ none ∧ ntfnId = row.ntfnId) := by
    cases ntfnId <;> simp
  have huid : decide (uid = row.uid) = decide (row.uid = uid) := decide_eq_decide.mpr eq_comm
  simp [deletes, identifiers, Where.test, deleted, Matches, hcolumn, hntfn, huid, and_or_left]

theorem uid_of_finds (h : finds (identifiers uid uuid ntfnId code) row = true) : row.uid = uid := by
  simp only [finds, identifiers, Where.test, found, List.any_cons, List.any_nil, Option.all_some, Bool.or_eq_true,
    Bool.and_eq_true, decide_eq_true_eq] at h
  grind

theorem finds_of_deletes (h : deletes (identifiers uid uuid ntfnId code) row = true) :
    finds (identifiers uid uuid ntfnId code) row = true := by
  have hfound (value : Option (Option String)) (column : Option String) (h : deleted value column = true) :
      found value column = true := by
    cases value with
    | none => rfl
    | some value =>
      obtain ⟨given, rfl, hgiven⟩ := (Option.any_eq_true ..).mp h
      exact hgiven
  obtain ⟨w, hw, htest⟩ := List.any_eq_true.mp h
  refine List.any_eq_true.mpr ⟨w, hw, ?_⟩
  simp only [Where.test, Bool.and_eq_true] at htest ⊢
  exact ⟨⟨⟨hfound _ _ htest.1.1.1, hfound _ _ htest.1.1.2⟩, hfound _ _ htest.1.2⟩, hfound _ _ htest.2⟩

def markRead (uid : String) : Option String → Io (Except String Unit)
  | none => return .ok ()
  | some ntfn => do
    if ntfn ≠ "" then ask (.notificationRead uid ntfn)
    return .ok ()

theorem run_markRead (uid : String) (ntfn : Option String) (codes : Codes) :
    (run exec (markRead uid ntfn) codes).2 = codes := by
  cases ntfn with
  | none => rfl
  | some ntfn => by_cases hempty : ntfn = "" <;> simp [markRead, hempty, exec]

theorem calls_markRead (uid : String) (ntfn : Option String) (codes : Codes) :
    (calls exec (markRead uid ntfn) codes).map Prod.snd =
      (ntfn.filter (· ≠ "")).toList.map (Call.notificationRead uid) := by
  cases ntfn with
  | none => rfl
  | some ntfn => by_cases hempty : ntfn = "" <;> simp [markRead, hempty, Option.filter]

theorem deleteAccessCode_eq (uid : String) (uuid ntfnId code : Option String) (choice : Nat) :
    deleteAccessCode uid uuid ntfnId code choice =
      .await (.findOne (identifiers uid uuid ntfnId code) choice) fun row : Option (Nat × AccessCode) =>
        .await (.delete (identifiers uid uuid (row.elim ntfnId (·.2.ntfnId)) code)) fun _ =>
          markRead uid (row.elim ntfnId (·.2.ntfnId)) := by
  refine congrArg (await _) (funext fun row => ?_)
  cases row with
  | none =>
    refine congrArg (await _) (funext fun _ => ?_)
    cases ntfnId <;> rfl
  | some row =>
    obtain ⟨_, _, _, _, _, ntfn, _⟩ := row
    refine congrArg (await _) (funext fun _ => ?_)
    cases ntfn <;> rfl

theorem perform_deleteAccessCode :
    perform codes (.delete uid uuid ntfnId code choice) =
      codes.delete (deletes (identifiers uid uuid (selected codes uid uuid ntfnId code choice) code)) := by
  rw [perform, program, deleteAccessCode_eq, run_await, run_await, run_markRead]
  rfl

theorem mem_calls_deleteAccessCode {user ntfn : String} :
    .notificationRead user ntfn ∈ (calls exec (deleteAccessCode uid uuid ntfnId code choice) codes).map Prod.snd ↔
      uid = user ∧ selected codes uid uuid ntfnId code choice = some ntfn ∧ ntfn ≠ "" := by
  rw [deleteAccessCode_eq, calls_await, calls_await, List.map_cons, List.map_cons, calls_markRead]
  change _ ↔ uid = user ∧ Option.elim (exec (.findOne _ _) _).1 _ _ = _ ∧ _
  simp [Option.filter_eq_some_iff]
  grind

theorem rows_deleteAccessCode (hrow : codes.rows id = some row) :
    ((perform codes (.delete uid uuid ntfnId code choice)).rows id = none ↔
      row.uid = uid ∧ Matches uuid (selected codes uid uuid ntfnId code choice) code row) ∧
    ((perform codes (.delete uid uuid ntfnId code choice)).rows id = some row ↔
      ¬(row.uid = uid ∧ Matches uuid (selected codes uid uuid ntfnId code choice) code row)) := by
  rw [perform_deleteAccessCode, rows_delete, hrow, ← deletes_identifiers]
  cases hdeletes : deletes (identifiers uid uuid (selected codes uid uuid ntfnId code choice) code) row <;>
    simp [Option.filter, hdeletes]

theorem spares_of_found {found : AccessCode}
    (hfound : codes.find? (finds (identifiers uid uuid ntfnId code)) choice = some (id, found))
    (hshared : found.ntfnId ≠ none → ∀ id row, codes.rows id = some row → row.uid = uid → row.ntfnId = found.ntfnId →
      Matches uuid ntfnId code row) :
    Spares codes uid uuid ntfnId code choice := by
  have hselected : selected codes uid uuid ntfnId code choice = found.ntfnId := by rw [selected, hfound, Option.elim]
  obtain ⟨hrow, hfinds⟩ := find?_some hfound
  constructor
  · intro key row hkey hno
    refine (rows_deleteAccessCode hkey).2.mpr fun ⟨huid, hmatches⟩ => hno huid ?_
    rw [hselected] at hmatches
    obtain huuid | hcode | ⟨hsome, hntfn⟩ := hmatches
    · exact .inl huuid
    · exact .inr (.inl hcode)
    · exact hshared hsome key row hkey huid hntfn.symm
  · intro user ntfn hread
    obtain ⟨-, hntfn, -⟩ := mem_calls_deleteAccessCode.mp hread
    refine ⟨id, found, hrow, hselected.symm.trans hntfn, (rows_deleteAccessCode hrow).1.mpr ⟨uid_of_finds hfinds, ?_⟩⟩
    exact .inr (.inr ⟨by simp [hntfn], hselected⟩)

theorem spares_of_not_found (hfound : codes.find? (finds (identifiers uid uuid ntfnId code)) choice = none)
    (hgiven : ntfnId.getD "" = "") : Spares codes uid uuid ntfnId code choice := by
  have hselected : selected codes uid uuid ntfnId code choice = ntfnId := by rw [selected, hfound, Option.elim]
  constructor
  · intro key row hkey hno
    refine (rows_deleteAccessCode hkey).2.mpr fun ⟨huid, hmatches⟩ => hno huid ?_
    rwa [hselected] at hmatches
  · intro user ntfn hread
    obtain ⟨-, hntfn, hne⟩ := mem_calls_deleteAccessCode.mp hread
    rw [hselected.symm.trans hntfn] at hgiven
    exact absurd hgiven hne

theorem found_of_spares (h : Spares codes uid uuid ntfnId code choice) (hgiven : ntfnId.getD "" ≠ "") :
    ∃ id row, codes.rows id = some row ∧ finds (identifiers uid uuid ntfnId code) row = true := by
  cases hfound : codes.find? (finds (identifiers uid uuid ntfnId code)) choice with
  | some found => exact ⟨found.1, found.2, find?_some hfound⟩
  | none =>
    -- the notification given is marked as read, so a row that the look-up missed would have been deleted for it
    have hselected : selected codes uid uuid ntfnId code choice = ntfnId := by rw [selected, hfound, Option.elim]
    obtain ⟨ntfn, hntfn, hne⟩ : ∃ ntfn, ntfnId = some ntfn ∧ ntfn ≠ "" := by cases ntfnId <;> simp_all
    obtain ⟨id, row, hrow, -, hgone⟩ := h.2 uid ntfn (mem_calls_deleteAccessCode.mpr ⟨rfl, hselected.trans hntfn, hne⟩)
    have hdeleted := (rows_deleteAccessCode hrow).1.mp hgone
    rw [hselected] at hdeleted
    exact ⟨id, row, hrow, finds_of_deletes (deletes_identifiers.mpr hdeleted)⟩

/-- A code of another user, or one that no identifier matches, outlives a call whatever the look-up returns, and only the
notification of a deleted code is marked as read, if and only if a notification is given only when a code is found, and
each code that can be found has no notification in common with one that does not match. -/
theorem spares_iff (codes : Codes) (uid : String) (uuid ntfnId code : Option String) :
    (∀ choice, Spares codes uid uuid ntfnId code choice) ↔
      (ntfnId.getD "" ≠ "" → ∃ id row, codes.rows id = some row ∧ finds (identifiers uid uuid ntfnId code) row) ∧
        ∀ id found, codes.rows id = some found → finds (identifiers uid uuid ntfnId code) found → found.ntfnId ≠ none →
          ∀ id row, codes.rows id = some row → row.uid = uid → row.ntfnId = found.ntfnId → Matches uuid ntfnId code row := by
  constructor
  · intro h
    refine ⟨found_of_spares (h 0), fun id found hfound hfinds hntfn key row hrow huid hsame => ?_⟩
    obtain ⟨choice, hchoice⟩ := exists_find? hfound hfinds
    have hselected : selected codes uid uuid ntfnId code choice = found.ntfnId := by rw [selected, hchoice, Option.elim]
    by_contra hno
    refine (rows_deleteAccessCode hrow).2.mp ((h choice).1 key row hrow fun _ => hno) ⟨huid, .inr (.inr ?_)⟩
    rw [hselected]
    exact ⟨hntfn, hsame.symm⟩
  · intro ⟨hgiven, hshared⟩ choice
    cases hfound : codes.find? (finds (identifiers uid uuid ntfnId code)) choice with
    | some found =>
      obtain ⟨hrow, hfinds⟩ := find?_some hfound
      exact spares_of_found hfound fun hntfn => hshared found.1 found.2 hrow hfinds hntfn
    | none =>
      refine spares_of_not_found hfound ?_
      by_contra hne
      obtain ⟨id, row, hrow, hfinds⟩ := hgiven hne
      exact Bool.noConfusion (hfinds.symm.trans (find?_none hfound hrow))

def usedCode : AccessCode := ⟨"A", "u", "r1", .used, some "n1", 100⟩

def unusedCode : AccessCode := ⟨"B", "u", "r2", .unused, some "n2", 100⟩

/-- A used and an unused code of one user. -/
def twoCodes : Codes := (empty.insert usedCode).insert unusedCode

/-- A code that has been used is deleted by its code. The look-up, with two identifiers absent, returns the user's other
code, and both are deleted. -/
theorem unused_code_deleted :
    twoCodes.rows 2 = some unusedCode ∧ ¬Matches none none (some "A") unusedCode ∧
      (perform twoCodes (.delete "u" none none (some "A") 1)).rows 2 = none ∧
      ¬Spares twoCodes "u" none none (some "A") 1 := by
  have hrow : twoCodes.rows 2 = some unusedCode := rfl
  have hno : ¬Matches none none (some "A") unusedCode := by simp [Matches, unusedCode]
  have hgone : (perform twoCodes (.delete "u" none none (some "A") 1)).rows 2 = none := by decide
  refine ⟨hrow, hno, hgone, fun h => ?_⟩
  have hkept := h.1 2 unusedCode hrow fun _ => hno
  simp [hgone] at hkept

end HideServer.Access
