import HideServer.Async.Pool

/-!
# Programs that keep to a protocol

A protocol is an automaton over commands and their answers, and a program `Follows` it if it issues
only what is allowed. `meaning` says what a state of the protocol tells about the shared state; it
has to survive the steps of everybody else.
-/

namespace Async

open List

variable {S Op A E Q : Type} {R : E → Type} {α β : Type}

/-- What is allowed in each state, and where an answer leads. -/
structure Protocol (E : Type) (R : E → Type) (Q : Type) where
  allowed : Q → E → Prop
  after : Q → (e : E) → R e → Q

namespace Prog

variable (P : Protocol E R Q)

/-- From a state of the protocol the program issues allowed commands only, and `post` holds of the state it ends in. -/
def Follows (post : α → Q → Prop) : Prog E R α → Q → Prop
  | .ret value, q => post value q
  | .await e next, q => P.allowed q e ∧ ∀ answer, Follows post (next answer) (P.after q e answer)

variable {P} {post : α → Q → Prop} {q : Q} {p : Prog E R α}

theorem Follows.bind {final : β → Q → Prop} {f : α → Prog E R β}
    (hp : p.Follows P post q) (hf : ∀ value q, post value q → (f value).Follows P final q) :
    (p >>= f).Follows P final q := by
  induction p generalizing q with
  | ret value => exact hf value q hp
  | await e next ih => exact ⟨hp.1, fun answer => ih answer (hp.2 answer)⟩

theorem Follows.perform_bind {e : E} {f : R e → Prog E R β} {final : β → Q → Prop}
    (he : P.allowed q e) (hf : ∀ answer, (f answer).Follows P final (P.after q e answer)) :
    (perform e >>= f).Follows P final q := ⟨he, hf⟩

theorem Follows.mono {post' : α → Q → Prop} (himp : ∀ value q, post value q → post' value q)
    (hp : p.Follows P post q) : p.Follows P post' q := by
  induction p generalizing q with
  | ret value => exact himp value q hp
  | await e next ih => exact ⟨hp.1, fun answer => ih answer (hp.2 answer)⟩

theorem Follows.ite {c : Prop} [Decidable c] {p p' : Prog E R α} (hp : c → p.Follows P post q)
    (hp' : ¬c → p'.Follows P post q) : (if c then p else p').Follows P post q := by
  split_ifs with hc
  · exact hp hc
  · exact hp' hc

theorem Follows.each {ι : Type} {xs : List ι} {f : ι → Prog E R Unit}
    (hf : ∀ x ∈ xs, (f x).Follows P (fun _ q' => q' = q) q) : (each xs f).Follows P (fun _ q' => q' = q) q := by
  induction xs with
  | nil => rfl
  | cons x xs ih =>
    obtain ⟨hx, hxs⟩ := forall_mem_cons.mp hf
    refine hx.bind fun _ q' hq => ?_
    subst hq
    exact ih hxs

theorem Only.follows (hp : p.Only fun e => ∀ q, P.allowed q e) (q : Q) : p.Follows P (fun _ _ => True) q := by
  induction p generalizing q with
  | ret value => trivial
  | await e next ih => exact ⟨hp.1 q, fun answer => ih answer (hp.2 answer) _⟩

theorem Only.follows_same {q : Q}
    (hp : p.Only fun e => P.allowed q e ∧ ∀ answer, P.after q e answer = q) : p.Follows P (fun _ q' => q' = q) q := by
  induction p with
  | ret value => rfl
  | await e next ih =>
    refine ⟨hp.1.1, fun answer => ?_⟩
    rw [hp.1.2 answer]
    exact ih answer (hp.2 answer)

end Prog

namespace Protocol

/-- The state after an exchange. -/
def reached (P : Protocol E R Q) (q : Q) (seen : Exchange E R) : Q := seen.foldl (fun q x => P.after q x.1 x.2) q

@[simp] theorem reached_nil (P : Protocol E R Q) (q : Q) : P.reached q [] = q := rfl

@[simp] theorem reached_snoc (P : Protocol E R Q) (q : Q) (seen : Exchange E R) (e : E) (answer : R e) :
    P.reached q (seen ++ [⟨e, answer⟩]) = P.after (P.reached q seen) e answer := by
  simp [reached]

end Protocol

theorem Prog.Follows.dialogue {P : Protocol E R Q} {post : α → Q → Prop} {p : Prog E R α} {q : Q} {said : Exchange E R}
    (hp : p.Follows P post (P.reached q said)) (env : Environment E R) :
    post (Prog.dialogue env p said).1 (P.reached q (Prog.dialogue env p said).2) := by
  induction p generalizing said with
  | ret value => exact hp
  | await e next ih =>
    have hnext := hp.2 (env said e)
    rw [← Protocol.reached_snoc] at hnext
    exact ih (env said e) hnext

namespace Pool

section

variable {P : Op → Protocol E R Q} {q : Q} {program : Op → Prog E R α} {exec : (e : E) → S → R e × S}
  {outside : S → A → S} {pool : Pool S Op E R α}

/-- Every task follows its protocol from where it stands. -/
def Keeps (P : Op → Protocol E R Q) (q : Q) (pool : Pool S Op E R α) : Prop :=
  ∀ task ∈ pool.tasks, task.prog.Follows (P task.op) (fun _ _ => True) ((P task.op).reached q task.seen)

theorem keeps_step (h : pool.Keeps P q) (hstart : ∀ op, (program op).Follows (P op) (fun _ _ => True) q)
    (action : Action Op A) : (step program exec outside pool action).Keeps P q := by
  apply forall_tasks_step program exec outside h fun op _ => hstart op
  intro task e next hprog hfollows
  rw [hprog] at hfollows
  rw [Protocol.reached_snoc]
  exact hfollows.2 _

def stage (P : Op → Protocol E R Q) (q : Q) (task : Task Op E R α) : Q := (P task.op).reached q task.seen

/-- What the states reached say is true, for every task that has something ahead. -/
def Means (P : Op → Protocol E R Q) (q : Q) (meaning : S → Op → Q → Prop) (pool : Pool S Op E R α) : Prop :=
  ∀ task ∈ pool.tasks, task.prog.head?.isSome = true → meaning pool.shared task.op (stage P q task)

theorem Keeps.allowed (h : pool.Keeps P q) {i : Nat} {task : Task Op E R α} {e : E} {next : R e → Prog E R α}
    (htask : pool.tasks[i]? = some task) (hprog : task.prog = .await e next) :
    (P task.op).allowed (stage P q task) e := by
  have hfollows := h task (mem_of_getElem? htask)
  rw [hprog] at hfollows
  exact hfollows.1

theorem means_step {meaning : S → Op → Q → Prop} {action : Action Op A} (h : pool.Means P q meaning)
    (hstart : ∀ op, action = .spawn op → meaning pool.shared op q)
    (hown : ∀ i task e next, action = .resume i → pool.tasks[i]? = some task → task.prog = .await e next →
      meaning pool.shared task.op (stage P q task) →
        meaning (exec e pool.shared).2 task.op ((P task.op).after (stage P q task) e (exec e pool.shared).1))
    (hothers : ∀ i j task other e next, i ≠ j → pool.tasks[i]? = some task → task.prog.head?.isSome = true →
      action = .resume j → pool.tasks[j]? = some other → other.prog = .await e next →
        meaning pool.shared other.op (stage P q other) → meaning pool.shared task.op (stage P q task) →
          meaning (exec e pool.shared).2 task.op (stage P q task))
    (houtside : ∀ a op stage, action = .outside a → meaning pool.shared op stage →
      meaning (outside pool.shared a) op stage) :
    (step program exec outside pool action).Means P q meaning := by
  intro task htask hahead
  obtain ⟨i, hi⟩ := getElem?_of_mem htask
  rcases step_task_cases program exec outside hi with
    hold | ⟨op, rfl, -, rfl⟩ | ⟨before, e, next, rfl, hbefore, hprog, rfl⟩
  · have hmeaning := h task (mem_of_getElem? hold) hahead
    rcases step_shared_cases program exec outside pool action with
      hsame | ⟨j, op, e, rfl, hnext, hshared⟩ | ⟨a, rfl, hshared⟩
    · rw [hsame]
      exact hmeaning
    · obtain ⟨other, next, hother, -, hprog⟩ := next?_eq_some hnext
      obtain ⟨e', he'⟩ := Option.isSome_iff_exists.mp hahead
      have hij : i ≠ j := by
        rintro rfl
        exact ne_resume_of_same hold hi he' rfl
      have hbusy : other.prog.head?.isSome = true := by
        rw [hprog]
        rfl
      rw [hshared]
      exact hothers i j task other e next hij hold hahead rfl hother hprog (h other (mem_of_getElem? hother) hbusy)
        hmeaning
    · exact houtside a task.op (stage P q task) rfl hmeaning
  · exact hstart op rfl
  · have hbusy : before.prog.head?.isSome = true := by
      rw [hprog]
      rfl
    have hmeaning := hown i before e next rfl hbefore hprog (h before (mem_of_getElem? hbefore) hbusy)
    rw [step_resume_of_await program exec outside hbefore hprog]
    simpa only [stage, Protocol.reached_snoc] using hmeaning

end

/-- Every task is at a state whose meaning holds. -/
def Heeds (P : Protocol E R Q) (meaning : S → Q → E → Prop) (pool : Pool S Op E R α) : Prop :=
  ∀ task ∈ pool.tasks, ∃ q, task.prog.Follows P (fun _ _ => True) q ∧ ∀ e ∈ task.prog.head?, meaning pool.shared q e

variable {P : Protocol E R Q} {meaning : S → Q → E → Prop} {program : Op → Prog E R α}
  {exec : (e : E) → S → R e × S} {outside : S → A → S} {pool : Pool S Op E R α}

theorem Heeds.next (h : pool.Heeds P meaning) {i : Nat} {op : Op} {e : E}
    (hnext : pool.next? i = some (op, e)) : ∃ q, P.allowed q e ∧ meaning pool.shared q e := by
  obtain ⟨task, next, htask, -, hprog⟩ := next?_eq_some hnext
  obtain ⟨q, hfollows, hmeaning⟩ := h task (mem_of_getElem? htask)
  rw [hprog] at hfollows hmeaning
  exact ⟨q, hfollows.1, hmeaning e rfl⟩

theorem heeds_step {action : Action Op A} (h : pool.Heeds P meaning)
    (hstart : ∀ op, ∃ q, (program op).Follows P (fun _ _ => True) q ∧ ∀ s e, meaning s q e)
    (hown : ∀ i op e, action = .resume i → pool.next? i = some (op, e) → ∀ q, P.allowed q e →
      meaning pool.shared q e → ∀ e', meaning (exec e pool.shared).2 (P.after q e (exec e pool.shared).1) e')
    (hothers : ∀ i task, pool.tasks[i]? = some task → action ≠ .resume i → ∀ e ∈ task.prog.head?, ∀ q, P.allowed q e →
      meaning pool.shared q e → meaning (step program exec outside pool action).shared q e) :
    (step program exec outside pool action).Heeds P meaning := by
  intro task htask
  obtain ⟨i, hi⟩ := getElem?_of_mem htask
  rcases step_task_cases program exec outside hi with
    hold | ⟨op, rfl, -, rfl⟩ | ⟨before, e, next, rfl, hbefore, hprog, rfl⟩
  · obtain ⟨q, hfollows, hmeaning⟩ := h task (mem_of_getElem? hold)
    refine ⟨q, hfollows, fun e he => hothers i task hold (ne_resume_of_same hold hi he) e he q ?_ (hmeaning e he)⟩
    cases hprog : task.prog with
    | ret value =>
      rw [hprog] at he
      cases he
    | await e' next =>
      rw [hprog] at he hfollows
      cases he
      exact hfollows.1
  · obtain ⟨q, hfollows, hmeaning⟩ := hstart op
    exact ⟨q, hfollows, fun e _ => hmeaning _ e⟩
  · obtain ⟨q, hfollows, hmeaning⟩ := h before (mem_of_getElem? hbefore)
    rw [hprog] at hfollows hmeaning
    have hnext : pool.next? i = some (before.op, e) := by simp [next?, hbefore, hprog, Prog.head?]
    rw [step_resume_of_await program exec outside hbefore hprog]
    exact ⟨_, hfollows.2 _, fun e' _ => hown i before.op e rfl hnext q hfollows.1 (hmeaning e rfl) e'⟩

end Pool

end Async
