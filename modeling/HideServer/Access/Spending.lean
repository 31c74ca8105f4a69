import HideServer.Access.Codes

/-!
# A code is spent once

Requests are interleaved at every call to the database. `consumeAccessCode` checks the status of a
code and then marks it without another look. `spent` counts the successes since a row was `UNUSED`.
-/

namespace HideServer.Access

open Async Trace Db.Table

abbrev Requests := Pool Codes Op Call Call.Answer (Except String Unit)

/-- The requests, and how often each row was spent. -/
structure Ledger where
  pool : Requests
  spent : Nat → Nat

abbrev Step := Action Op Empty

/-- The row becomes `UNUSED` in this step. -/
def madeUnused (before after : Codes) (id : Nat) : Bool :=
  status after id = some .unused && status before id ≠ some .unused

abbrev Request := Task Op Call Call.Answer (Except String Unit)

/-- The user and the code of a consume request that returns success between the two moments. -/
def returned (before after : Request) : Option (String × Option String) :=
  match before.op, before.prog, after.prog with
  | .consume uid code _ _, .await _ _, .ret (.ok _) => some (uid, code)
  | _, _, _ => none

/-- The code whose consumption succeeds in this step. -/
def success (before after : Requests) : Step → Option (String × Option String)
  | .resume i => do returned (← before.tasks[i]?) (← after.tasks[i]?)
  | _ => none

def noOutside (codes : Codes) (_ : Empty) : Codes := codes

def poolStep : Requests → Step → Requests := Pool.step program exec noOutside

def ledgerStep (w : Ledger) (action : Step) : Ledger where
  pool := poolStep w.pool action
  spent id :=
    (if madeUnused w.pool.shared (poolStep w.pool action).shared id then 0 else w.spent id) +
      if (success w.pool (poolStep w.pool action) action).any fun request =>
        ((poolStep w.pool action).shared.rows id).any (isCode request.1 request.2) then 1 else 0

def Ledger.start : Ledger := ⟨⟨.empty, []⟩, fun _ => 0⟩

/-- The step marks this row. -/
def Marks (requests : Requests) (action : Step) (row : AccessCode) : Prop :=
  ∃ i task uid code next, action = .resume i ∧ requests.tasks[i]? = some task ∧
    task.prog = .await (.markUsed uid code) next ∧ isCode uid code row

/-- A mark meets no row that is `USED` already. -/
def MarkFindsUnspent (w : Ledger) (action : Step) : Prop :=
  ∀ id row, w.pool.shared.rows id = some row → Marks w.pool action row → row.status ≠ .used

def Op.Issues (op : Op) : Call → Prop
  | .insert row => row.status = .new
  | .save _ row => row.status = .unused
  | .markUsed uid code => ∃ now choice, op = .consume uid code now choice
  | _ => True

theorem program_issues (op : Op) : (program op).Only op.Issues := by
  cases op with
  | create uid uuid code expiresAt canProvision mailed =>
    apply Prog.Only.perform_bind trivial
    simp [Op.Issues]
  | fulfill action token notificationId choice =>
    match token, action with
    | none, _ => trivial
    | some token, .reject => simp [program, fulfillAccessRequest, reject, Op.Issues]
    | some token, .approve =>
      apply Prog.Only.perform_bind trivial
      intro found
      cases found with
      | none => trivial
      | some row => simp [Op.Issues]
  | consume | reset =>
    apply Prog.Only.perform_bind trivial
    intro found
    cases found with
    | none => trivial
    | some row => simp [Op.Issues]
  | delete uid uuid ntfnId code choice =>
    apply Prog.Only.perform_bind trivial
    intro found
    apply Prog.Only.perform_bind trivial
    intro _
    split
    · simp [Op.Issues]
    · trivial

def mark (uid : String) (code : Option String) : Io (Except String Unit) :=
  .await (.markUsed uid code) fun affected => .ret (if affected ≠ 0 then .ok () else .error "ACCESS_CODE_IN_USE")

variable {code : Option String}

theorem consume_residue {uid : String} {now : Int} {choice : Nat}
    {seen : Exchange Call Call.Answer} {q : Io (Except String Unit)}
    (h : Residue (consumeAccessCode uid code now choice) seen q) :
    q = consumeAccessCode uid code now choice ∨ q = mark uid code ∨ ∃ value, q = .ret value := by
  unfold consumeAccessCode at h
  rw [Prog.perform_bind, Residue.of_await] at h
  obtain ⟨-, rfl⟩ | ⟨found, rest, -, h⟩ := h
  · exact .inl rfl
  right
  cases found with
  | none => exact .inr ⟨_, (Residue.of_ret.mp h).2⟩
  | some found =>
    dsimp only at h
    split at h
    · exact .inr ⟨_, (Residue.of_ret.mp h).2⟩
    split at h
    · exact .inr ⟨_, (Residue.of_ret.mp h).2⟩
    rw [Prog.perform_bind, Residue.of_await] at h
    obtain ⟨-, rfl⟩ | ⟨affected, rest, -, h⟩ := h
    · exact .inl rfl
    · exact .inr ⟨_, (Residue.of_ret.mp h).2⟩

theorem consume_findOne_ne_ok {uid : String} {now : Int} {choice : Nat}
    {e : Call} {next : e.Answer → Io (Except String Unit)}
    (h : consumeAccessCode uid code now choice = .await e next) (answer : e.Answer) (value : Unit) :
    next answer ≠ .ret (.ok value) := by
  unfold consumeAccessCode at h
  rw [Prog.perform_bind] at h
  cases h
  intro hok
  cases answer with
  | none => simp at hok
  | some found =>
    dsimp only at hok
    split at hok
    · simp at hok
    split at hok <;> simp at hok

theorem returned_eq_some {before after : Request} {uid : String} (h : returned before after = some (uid, code)) :
    ∃ now choice e next value, before.op = .consume uid code now choice ∧
      before.prog = .await e next ∧ after.prog = .ret (.ok value) := by
  unfold returned at h
  split at h
  case h_1 hop hprog hvalue =>
    cases h
    exact ⟨_, _, _, _, _, hop, hprog, hvalue⟩
  case h_2 => cases h

theorem next_le_exec (call : Call) (codes : Codes) : codes.next ≤ (exec call codes).2.next := by
  cases call with
  | insert row =>
    simp only [exec]
    split
    · exact Nat.le_refl _
    · exact Nat.le_succ _
  | save id row =>
    simp only [exec]
    split
    · exact Nat.le_refl _
    · exact Nat.le_max_left _ _
  | countActive _ | findOne _ _ | delete _ | markUsed _ _ | notify _ | notificationRead _ _ => exact Nat.le_refl _

theorem next_le_poolStep (pool : Requests) (action : Step) : pool.shared.next ≤ (poolStep pool action).shared.next := by
  cases action with
  | spawn | outside => exact Nat.le_refl _
  | resume i =>
    obtain hsame | ⟨task, e, next, -, -, hstep⟩ := Pool.step_resume_cases program exec noOutside pool i
    · exact Nat.le_of_eq (by rw [poolStep, hsame])
    · rw [poolStep, hstep]
      exact next_le_exec e pool.shared

section

variable {pool : Requests} (hgenuine : Pool.Genuine program pool)

include hgenuine

theorem mark_of_genuine {task : Request} (htask : task ∈ pool.tasks) {uid : String}
    {code : Option String} {next : Nat → Io (Except String Unit)}
    (hprog : task.prog = .await (.markUsed uid code) next) :
    (∃ now choice, task.op = .consume uid code now choice) ∧ next =
        fun affected => .ret (if affected ≠ 0 then .ok () else .error "ACCESS_CODE_IN_USE") := by
  have hresidue := hgenuine task htask
  have honly := hresidue.only (program_issues task.op)
  rw [hprog] at hresidue honly
  obtain ⟨now, choice, hop⟩ := honly.1
  refine ⟨⟨now, choice, hop⟩, ?_⟩
  rw [hop] at hresidue
  obtain hall | hmark | ⟨value, hvalue⟩ := consume_residue hresidue
  · simp [consumeAccessCode] at hall
  · cases hmark
    rfl
  · cases hvalue

variable {action : Step}

theorem success_cases {uid : String} {code : Option String}
    (h : success pool (poolStep pool action) action = some (uid, code)) :
    ∃ i task next, action = .resume i ∧ pool.tasks[i]? = some task ∧
      task.prog = .await (.markUsed uid code) next := by
  cases action with
  | spawn | outside => simp [success] at h
  | resume i =>
    simp only [success, bind, Option.bind_eq_some_iff] at h
    obtain ⟨task, htask, after, hafter, hreturned⟩ := h
    obtain ⟨now, choice, e, next, value, hop, hprog, hvalue⟩ := returned_eq_some hreturned
    have hresidue := hgenuine task (List.mem_of_getElem? htask)
    rw [hop, hprog] at hresidue
    refine ⟨i, task, fun affected => .ret (if affected ≠ 0 then .ok () else .error "ACCESS_CODE_IN_USE"), rfl, htask, ?_⟩
    obtain hall | hmark | ⟨value, hret⟩ := consume_residue hresidue
    · exfalso
      rw [poolStep, Pool.step_resume_of_await program exec noOutside htask hprog] at hafter
      simp only [List.getElem?_set_self (List.getElem?_eq_some_iff.mp htask).1, Option.some.injEq] at hafter
      rw [← hafter] at hvalue
      exact consume_findOne_ne_ok hall.symm _ value hvalue
    · rw [hprog, hmark]
      rfl
    · cases hret

theorem poolStep_marked {id : Nat} {row : AccessCode}
    (hrow : pool.shared.rows id = some row) (hmarks : Marks pool action row) :
    (poolStep pool action).shared.rows id = some { row with status := .used } ∧
      ∃ request, success pool (poolStep pool action) action = some request ∧ isCode request.1 request.2 row := by
  obtain ⟨i, task, uid, code, next, rfl, htask, hprog, hcode⟩ := hmarks
  obtain ⟨⟨now, choice, hop⟩, hnext⟩ := mark_of_genuine hgenuine (List.mem_of_getElem? htask) hprog
  have haffected : pool.shared.count (isCode uid code) ≠ 0 := by
    intro hzero
    have hnot := count_eq_zero.mp hzero id row hrow
    rw [hcode] at hnot
    cases hnot
  have hlt : i < pool.tasks.length := (List.getElem?_eq_some_iff.mp htask).1
  have hstep := Pool.step_resume_of_await program exec noOutside htask hprog
  refine ⟨?_, (uid, code), ?_, hcode⟩
  · rw [poolStep, hstep]
    simp [exec, rows_modify, hrow, hcode]
  · simp only [success, poolStep, hstep, htask, List.getElem?_set_self hlt, bind, Option.bind_some]
    simp [returned, hop, hprog, hnext, exec, haffected]

theorem poolStep_unmarked {id : Nat} (hunmarked : ∀ row, pool.shared.rows id = some row → ¬Marks pool action row) :
    (poolStep pool action).shared.rows id = pool.shared.rows id ∨
    (id = pool.shared.next ∧ ∃ row, (poolStep pool action).shared.rows id = some row ∧ row.status = .new) ∨
    (∃ row, (poolStep pool action).shared.rows id = some row ∧ row.status = .unused) ∨
    (poolStep pool action).shared.rows id = none := by
  cases action with
  | spawn op => exact .inl rfl
  | outside a => exact .inl rfl
  | resume i =>
    obtain hsame | ⟨task, e, next, htask, hprog, hstep⟩ := Pool.step_resume_cases program exec noOutside pool i
    · left
      rw [poolStep, hsame]
    have hmem := List.mem_of_getElem? htask
    have hissues := (hgenuine task hmem).only (program_issues task.op)
    rw [hprog] at hissues
    rw [poolStep, hstep]
    cases e with
    | countActive uid => exact .inl rfl
    | findOne wheres choice => exact .inl rfl
    | notify message => exact .inl rfl
    | notificationRead uid ntfnId => exact .inl rfl
    | insert row =>
      simp only [exec]
      split
      · exact .inl rfl
      · rw [rows_insert]
        split_ifs with hid
        · exact .inr (.inl ⟨hid, row, rfl, hissues.1⟩)
        · exact .inl rfl
    | save key row =>
      simp only [exec]
      split
      · exact .inl rfl
      · rw [rows_save]
        split_ifs with hid
        · exact .inr (.inr (.inl ⟨row, rfl, hissues.1⟩))
        · exact .inl rfl
    | delete wheres =>
      simp only [exec]
      cases hafter : (pool.shared.delete (deletes wheres)).rows id with
      | none => exact .inr (.inr (.inr rfl))
      | some row =>
        left
        rw [of_rows_delete hafter]
    | markUsed uid code =>
      left
      simp only [exec, rows_modify]
      cases hrow : pool.shared.rows id with
      | none => rfl
      | some row =>
        have hnot : isCode uid code row = false := by
          by_contra hcode
          exact hunmarked row hrow ⟨i, task, uid, code, next, rfl, htask, hprog, by simpa using hcode⟩
        simp [hnot]

theorem marks_of_success {id : Nat} {request : String × Option String}
    {after : AccessCode} (hsuccess : success pool (poolStep pool action) action = some request)
    (hafter : (poolStep pool action).shared.rows id = some after) (hcode : isCode request.1 request.2 after) :
    ∃ row, pool.shared.rows id = some row ∧ Marks pool action row := by
  obtain ⟨i, task, next, rfl, htask, hprog⟩ := success_cases hgenuine hsuccess
  rw [poolStep, Pool.step_resume_of_await program exec noOutside htask hprog] at hafter
  simp only [exec, rows_modify, Option.map_eq_some_iff] at hafter
  obtain ⟨row, hrow, rfl⟩ := hafter
  refine ⟨row, hrow, i, task, request.1, request.2, next, rfl, htask, hprog, ?_⟩
  split at hcode
  · exact hcode
  · exact hcode

end

section

variable {w : Ledger} {action : Step} {id : Nat}

theorem spent_of_marks (hgenuine : Pool.Genuine program w.pool) {row : AccessCode}
    (hrow : w.pool.shared.rows id = some row) (hmarks : Marks w.pool action row) :
    (ledgerStep w action).spent id = w.spent id + 1 := by
  obtain ⟨hafter, request, hsuccess, hcode⟩ := poolStep_marked hgenuine hrow hmarks
  have hcode' : isCode request.1 request.2 { row with status := .used } = true := hcode
  simp [ledgerStep, madeUnused, status, hafter, hsuccess, hcode']

theorem spent_of_not_marks (hgenuine : Pool.Genuine program w.pool)
    (hunmarked : ∀ row, w.pool.shared.rows id = some row → ¬Marks w.pool action row) :
    (ledgerStep w action).spent id =
      if madeUnused w.pool.shared (ledgerStep w action).pool.shared id then 0 else w.spent id := by
  have hnone : ((success w.pool (poolStep w.pool action) action).any fun request =>
      ((poolStep w.pool action).shared.rows id).any (isCode request.1 request.2)) = false := by
    by_contra hany
    simp only [Bool.not_eq_false, Option.any_eq_true] at hany
    obtain ⟨request, hsuccess, after, hafter, hcode⟩ := hany
    obtain ⟨row, hrow, hmarks⟩ := marks_of_success hgenuine hsuccess hafter hcode
    exact hunmarked row hrow hmarks
  change _ + (if _ then 1 else 0) = _
  rw [hnone]
  rfl

def RowBalanced (row : Option AccessCode) (spent : Nat) : Prop :=
  match row with
  | some row => spent = if row.status = .used then 1 else 0
  | none => spent ≤ 1

theorem RowBalanced.le_one {row : Option AccessCode} {spent : Nat} (h : RowBalanced row spent) : spent ≤ 1 := by
  cases row with
  | none => exact h
  | some row =>
    simp only [RowBalanced] at h
    split_ifs at h <;> omega

structure Balanced (w : Ledger) : Prop where
  genuine : Pool.Genuine program w.pool
  rows : ∀ id, RowBalanced (w.pool.shared.rows id) (w.spent id)
  beyond : ∀ id, w.pool.shared.next ≤ id → w.spent id = 0

theorem balanced_start : Balanced .start := by
  constructor <;> simp [Ledger.start, Pool.Genuine, RowBalanced]

theorem rowBalanced_of_not_marks (hbalanced : Balanced w)
    (hunmarked : ∀ row, w.pool.shared.rows id = some row → ¬Marks w.pool action row) :
    RowBalanced ((ledgerStep w action).pool.shared.rows id) ((ledgerStep w action).spent id) := by
  have hbefore := hbalanced.rows id
  rw [spent_of_not_marks hbalanced.genuine hunmarked]
  obtain hsame | ⟨hnext, row, hnew, hstatus⟩ | ⟨row, hunused, hstatus⟩ | hgone :=
    poolStep_unmarked hbalanced.genuine hunmarked
  · change (ledgerStep w action).pool.shared.rows id = w.pool.shared.rows id at hsame
    rw [hsame, if_neg (by simp [madeUnused, status, hsame])]
    exact hbefore
  · change (ledgerStep w action).pool.shared.rows id = some row at hnew
    have hspent : w.spent id = 0 := hbalanced.beyond id (by omega)
    rw [hnew, if_neg (by simp [madeUnused, status, hnew, hstatus]), hspent]
    simp [RowBalanced, hstatus]
  · change (ledgerStep w action).pool.shared.rows id = some row at hunused
    rw [hunused]
    split_ifs with hmade
    · simp [RowBalanced, hstatus]
    · have hwas : status w.pool.shared id = some .unused := by
        simpa [madeUnused, status, hunused, hstatus] using hmade
      obtain ⟨before, hrow, hstatus'⟩ := Option.map_eq_some_iff.mp hwas
      rw [hrow] at hbefore
      simpa [RowBalanced, hstatus, hstatus'] using hbefore
  · change (ledgerStep w action).pool.shared.rows id = none at hgone
    rw [hgone, if_neg (by simp [madeUnused, status, hgone])]
    exact hbefore.le_one

theorem spent_le_of_not_marks (hgenuine : Pool.Genuine program w.pool)
    (hunmarked : ∀ row, w.pool.shared.rows id = some row → ¬Marks w.pool action row) :
    (ledgerStep w action).spent id ≤ w.spent id := by
  rw [spent_of_not_marks hgenuine hunmarked]
  split_ifs
  · exact Nat.zero_le _
  · exact Nat.le_refl _

theorem marks_or_not (w : Ledger) (action : Step) (id : Nat) :
    (∃ row, w.pool.shared.rows id = some row ∧ Marks w.pool action row) ∨
      ∀ row, w.pool.shared.rows id = some row → ¬Marks w.pool action row := by
  by_contra! hcases
  obtain ⟨hnone, row, hrow, hmarks⟩ := hcases
  exact hnone row hrow hmarks

theorem balanced_step (hbalanced : Balanced w) (hmark : MarkFindsUnspent w action) :
    Balanced (ledgerStep w action) := by
  refine ⟨Pool.genuine_step program exec noOutside hbalanced.genuine action, fun id => ?_, fun id hid => ?_⟩
  · obtain ⟨row, hrow, hmarks⟩ | hunmarked := marks_or_not w action id
    · have hbefore := hbalanced.rows id
      rw [hrow] at hbefore
      have hzero : w.spent id = 0 := by simpa [RowBalanced, hmark id row hrow hmarks] using hbefore
      have hafter : (ledgerStep w action).pool.shared.rows id = some { row with status := .used } :=
        (poolStep_marked hbalanced.genuine hrow hmarks).1
      rw [hafter, spent_of_marks hbalanced.genuine hrow hmarks, hzero]
      simp [RowBalanced]
    · exact rowBalanced_of_not_marks hbalanced hunmarked
  · have hnext : w.pool.shared.next ≤ id := Nat.le_trans (next_le_poolStep w.pool action) hid
    have hunmarked : ∀ row, w.pool.shared.rows id = some row → ¬Marks w.pool action row := by
      intro row hrow
      rw [w.pool.shared.absent id hnext] at hrow
      cases hrow
    have hle := spent_le_of_not_marks hbalanced.genuine hunmarked
    rw [hbalanced.beyond id hnext] at hle
    omega

theorem spent_step_iff (hbalanced : Balanced w) :
    (∀ id, (ledgerStep w action).spent id ≤ 1) ↔ MarkFindsUnspent w action := by
  constructor
  · intro hspent id row hrow hmarks hused
    have hbefore := hbalanced.rows id
    rw [hrow] at hbefore
    have hone : w.spent id = 1 := by simpa [RowBalanced, hused] using hbefore
    have hle := hspent id
    rw [spent_of_marks hbalanced.genuine hrow hmarks, hone] at hle
    omega
  · intro hmark id
    exact ((balanced_step hbalanced hmark).rows id).le_one

/-- In every interleaving, between two moments at which a code is made `UNUSED` at most one request succeeds,
exactly as long as no mark meets a row that is `USED` already. -/
theorem spent_once_iff (actions : List Step) :
    Always ledgerStep (fun w => ∀ id, w.spent id ≤ 1) .start actions ↔
      Along ledgerStep MarkFindsUnspent .start actions := by
  rw [always_iff]
  have hsteps : Along ledgerStep (fun w action => ∀ id, (ledgerStep w action).spent id ≤ 1) .start actions ↔
      Along ledgerStep MarkFindsUnspent .start actions :=
    along_iff_of_invariant (fun _ _ => balanced_step) (fun _ _ => spent_step_iff) balanced_start
  rw [hsteps]
  exact and_iff_right fun id => Nat.zero_le 1

/-- Two requests for one code pass the check before either marks. -/
def doubleSpend : List Step :=
  [.spawn (.create "alice" "u1" "c1" 1000 true true), .resume 0, .resume 0,
    .spawn (.fulfill .approve (some ⟨some "alice", some "u1"⟩) "n1" 0), .resume 1, .resume 1, .resume 1, .resume 1,
    .spawn (.consume "alice" (some "c1") 1 0), .spawn (.consume "alice" (some "c1") 1 0),
    .resume 2, .resume 3, .resume 2, .resume 3]

theorem spent_twice : ¬Always ledgerStep (fun w => ∀ id, w.spent id ≤ 1) .start doubleSpend := by
  intro hspent
  have hle := hspent doubleSpend List.prefix_rfl 1
  revert hle
  decide

end

end HideServer.Access
