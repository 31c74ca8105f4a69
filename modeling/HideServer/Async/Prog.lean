import Mathlib.Logic.Basic
import Mathlib.Data.List.Basic

/-!
# Programs that await commands

A handler awaits a command `e : E`, is resumed with an answer in `R e`, and goes on. It is written
once over `Prog E R`, to be `run` alone or interleaved in a pool. `Only` bounds the commands it
issues, and `Safe` does so for answers of a given kind.
-/

namespace Async

/-- A program awaits commands until it returns. -/
inductive Prog (E : Type) (R : E → Type) (α : Type) : Type where
  | ret (value : α)
  | await (e : E) (next : R e → Prog E R α)

namespace Prog

variable {E : Type} {R : E → Type} {α β γ S : Type}

def bind : Prog E R α → (α → Prog E R β) → Prog E R β
  | .ret value, f => f value
  | .await e next, f => .await e fun answer => (next answer).bind f

instance : Monad (Prog E R) where
  pure := .ret
  bind := Prog.bind

/-- The program of one command. -/
def perform (e : E) : Prog E R (R e) := .await e .ret

/-- A program for every element, in order. -/
def each {ι : Type} (xs : List ι) (f : ι → Prog E R Unit) : Prog E R Unit :=
  match xs with
  | [] => return ()
  | x :: xs => do
    f x
    each xs f

/-- The command a program awaits. -/
def head? : Prog E R α → Option E
  | .ret _ => none
  | .await e _ => some e

variable {p : Prog E R α}

theorem eq_ret_of_head? (h : p.head? = none) : ∃ value, p = .ret value := by
  cases p with
  | ret value => exact ⟨value, rfl⟩
  | await e next => cases h

@[simp] theorem pure_eq (value : α) : (pure value : Prog E R α) = .ret value := rfl

@[simp] theorem ret_bind (value : α) (f : α → Prog E R β) : (Prog.ret value >>= f) = f value := rfl

@[simp] theorem await_bind (e : E) (next : R e → Prog E R α) (f : α → Prog E R β) :
    (Prog.await e next >>= f) = .await e fun answer => next answer >>= f := rfl

@[simp] theorem perform_bind (e : E) (f : R e → Prog E R β) : (perform e >>= f) = .await e f := rfl

theorem bind_assoc' (p : Prog E R α) (f : α → Prog E R β) (g : β → Prog E R γ) :
    p >>= f >>= g = p >>= fun value => f value >>= g := by
  induction p with
  | ret value => rfl
  | await e next ih =>
    exact congrArg _ (funext ih)

theorem bind_ret (p : Prog E R α) : p >>= Prog.ret = p := by
  induction p with
  | ret value => rfl
  | await e next ih =>
    exact congrArg _ (funext ih)

instance : LawfulMonad (Prog E R) := LawfulMonad.mk' _ bind_ret (fun _ _ => rfl) bind_assoc'

section

variable (exec : (e : E) → S → R e × S)

/-- The value and the state a program ends with when nothing else runs. -/
def run : Prog E R α → S → α × S
  | .ret value, s => (value, s)
  | .await e next, s => run (next (exec e s).1) (exec e s).2

/-- The commands a program issues when nothing else runs, each with the state it is issued in. -/
def calls : Prog E R α → S → List (S × E)
  | .ret _, _ => []
  | .await e next, s => (s, e) :: calls (next (exec e s).1) (exec e s).2

@[simp] theorem run_ret (value : α) (s : S) : run exec (.ret value : Prog E R α) s = (value, s) :=
  rfl

@[simp] theorem run_await (e : E) (next : R e → Prog E R α) (s : S) :
    run exec (.await e next) s = run exec (next (exec e s).1) (exec e s).2 := rfl

@[simp] theorem run_perform (e : E) (s : S) : run exec (perform e) s = exec e s := rfl

@[simp] theorem run_bind (p : Prog E R α) (f : α → Prog E R β) (s : S) :
    run exec (p >>= f) s = run exec (f (run exec p s).1) (run exec p s).2 := by
  induction p generalizing s with
  | ret value => rfl
  | await e next ih => exact ih (exec e s).1 (exec e s).2

@[simp] theorem run_map (f : α → β) (p : Prog E R α) (s : S) :
    run exec (f <$> p) s = (f (run exec p s).1, (run exec p s).2) :=
  run_bind exec p (fun value => .ret (f value)) s

@[simp] theorem calls_ret (value : α) (s : S) : calls exec (.ret value : Prog E R α) s = [] := rfl

@[simp] theorem calls_await (e : E) (next : R e → Prog E R α) (s : S) :
    calls exec (.await e next) s = (s, e) :: calls exec (next (exec e s).1) (exec e s).2 := rfl

@[simp] theorem calls_perform (e : E) (s : S) : calls exec (perform e) s = [(s, e)] := rfl

@[simp] theorem calls_bind (p : Prog E R α) (f : α → Prog E R β) (s : S) :
    calls exec (p >>= f) s = calls exec p s ++ calls exec (f (run exec p s).1) (run exec p s).2 := by
  induction p generalizing s with
  | ret value => rfl
  | await e next ih =>
    simp only [await_bind, calls_await, run_await, List.cons_append]
    rw [ih (exec e s).1 (exec e s).2]

@[simp] theorem calls_map (f : α → β) (p : Prog E R α) (s : S) : calls exec (f <$> p) s = calls exec p s :=
  (calls_bind exec p (fun value => .ret (f value)) s).trans (List.append_nil _)

theorem run_preserves {exec : (e : E) → S → R e × S} {inv : S → Prop}
    (hexec : ∀ e s, inv s → inv (exec e s).2) (p : Prog E R α) {s : S} (hs : inv s) : inv (run exec p s).2 := by
  induction p generalizing s with
  | ret value => exact hs
  | await e next ih => exact ih _ (hexec e s hs)

end

/-- Every command the program can issue satisfies `ok`, whatever it is answered. -/
def Only (ok : E → Prop) : Prog E R α → Prop
  | .ret _ => True
  | .await e next => ok e ∧ ∀ answer, Only ok (next answer)

@[simp] theorem only_ret (ok : E → Prop) (value : α) : Only ok (.ret value : Prog E R α) := trivial

@[simp] theorem only_await (ok : E → Prop) (e : E) (next : R e → Prog E R α) :
    Only ok (.await e next) ↔ ok e ∧ ∀ answer, Only ok (next answer) := Iff.rfl

@[simp] theorem only_perform (ok : E → Prop) (e : E) : Only ok (perform e : Prog E R (R e)) ↔ ok e := by
  simp [perform]

@[simp] theorem only_ite (ok : E → Prop) (c : Prop) [Decidable c] (p q : Prog E R α) :
    Only ok (if c then p else q) ↔ (c → Only ok p) ∧ (¬c → Only ok q) := by
  by_cases hc : c <;> simp [hc]

variable {f : α → Prog E R β} {ok : E → Prop}

theorem Only.bind (hp : Only ok p) (hf : ∀ value, Only ok (f value)) : Only ok (p >>= f) := by
  induction p with
  | ret value => exact hf value
  | await e next ih => exact ⟨hp.1, fun answer => ih answer (hp.2 answer)⟩

theorem Only.single {e : E} (he : ok e) : Only ok (perform e : Prog E R (R e)) := ⟨he, fun _ => trivial⟩

theorem Only.perform_bind {e : E} {f : R e → Prog E R β} (he : ok e)
    (hf : ∀ answer, Only ok (f answer)) : Only ok (perform e >>= f) := ⟨he, hf⟩

theorem Only.each {ι : Type} (xs : List ι) {f : ι → Prog E R Unit} (hf : ∀ x ∈ xs, Only ok (f x)) :
    Only ok (each xs f) := by
  induction xs with
  | nil => trivial
  | cons x xs ih =>
    apply (hf x List.mem_cons_self).bind
    intro _
    apply ih
    intro x hx
    exact hf x (List.mem_cons_of_mem _ hx)

theorem Only.ite {c : Prop} [Decidable c] {q : Prog E R α} (hp : Only ok p) (hq : Only ok q) :
    Only ok (if c then p else q) :=
  (only_ite ok c p q).mpr ⟨fun _ => hp, fun _ => hq⟩

theorem Only.mono {ok ok' : E → Prop} (himp : ∀ e, ok e → ok' e) (hp : Only ok p) : Only ok' p := by
  induction p with
  | ret value => trivial
  | await e next ih => exact ⟨himp e hp.1, fun answer => ih answer (hp.2 answer)⟩

/-- What the commands leave alone is as before. -/
theorem Only.run_eq {exec : (e : E) → S → R e × S} {view : S → γ}
    (hview : ∀ e s, ok e → view (exec e s).2 = view s) (hp : Only ok p) (s : S) : view (run exec p s).2 = view s := by
  induction p generalizing s with
  | ret value => rfl
  | await e next ih => exact (ih _ (hp.2 _) _).trans (hview e s hp.1)

theorem Only.of_mem_calls {exec : (e : E) → S → R e × S} (hp : Only ok p) {s : S} {call : S × E}
    (hcall : call ∈ calls exec p s) : ok call.2 := by
  induction p generalizing s with
  | ret value => simp at hcall
  | await e next ih =>
    rcases List.mem_cons.mp hcall with rfl | hcall
    · exact hp.1
    · exact ih _ (hp.2 _) hcall

/-- As long as every answer satisfies `good`, every command satisfies `ok` and the value satisfies `post`. -/
def Safe (ok : E → Prop) (good : (e : E) → R e → Prop) (post : α → Prop) : Prog E R α → Prop
  | .ret value => post value
  | .await e next => ok e ∧ ∀ answer, good e answer → Safe ok good post (next answer)

variable {ok : E → Prop} {good : (e : E) → R e → Prop}

@[simp] theorem safe_ret (post : α → Prop) (value : α) :
    Safe ok good post (.ret value : Prog E R α) ↔ post value := Iff.rfl

@[simp] theorem safe_await (post : α → Prop) (e : E) (next : R e → Prog E R α) :
    Safe ok good post (.await e next) ↔ ok e ∧ ∀ answer, good e answer → Safe ok good post (next answer) :=
  Iff.rfl

variable {post : α → Prop}

theorem Safe.bind {post' : β → Prop} (hp : Safe ok good post p)
    (hf : ∀ value, post value → Safe ok good post' (f value)) : Safe ok good post' (p >>= f) := by
  induction p with
  | ret value => exact hf value hp
  | await e next ih => exact ⟨hp.1, fun answer hgood => ih answer (hp.2 answer hgood)⟩

theorem Safe.single {e : E} (he : ok e) : Safe ok good (fun _ => True) (perform e : Prog E R (R e)) :=
  ⟨he, fun _ _ => trivial⟩

theorem Safe.perform_bind {post : β → Prop} {e : E} {f : R e → Prog E R β} (he : ok e)
    (hf : ∀ answer, good e answer → Safe ok good post (f answer)) : Safe ok good post (perform e >>= f) :=
  ⟨he, hf⟩

theorem Safe.each {ι : Type} (xs : List ι) {f : ι → Prog E R Unit} (hf : ∀ x ∈ xs, Safe ok good (fun _ => True) (f x)) :
    Safe ok good (fun _ => True) (each xs f) := by
  induction xs with
  | nil => trivial
  | cons x xs ih =>
    apply (hf x List.mem_cons_self).bind
    intro _ _
    apply ih
    intro x hx
    exact hf x (List.mem_cons_of_mem _ hx)

theorem Safe.ite {c : Prop} [Decidable c] {q : Prog E R α} (hp : c → Safe ok good post p)
    (hq : ¬c → Safe ok good post q) : Safe ok good post (if c then p else q) := by
  split
  · exact hp ‹_›
  · exact hq ‹_›

theorem Safe.mono {post post' : α → Prop} (himp : ∀ value, post value → post' value) (hp : Safe ok good post p) :
    Safe ok good post' p := by
  induction p with
  | ret value => exact himp value hp
  | await e next ih => exact ⟨hp.1, fun answer hgood => ih answer (hp.2 answer hgood)⟩

theorem Safe.only (hp : Safe ok (fun _ _ => True) post p) : Only ok p := by
  induction p with
  | ret value => trivial
  | await e next ih => exact ⟨hp.1, fun answer => ih answer (hp.2 answer trivial)⟩

theorem Only.safe (hp : Only ok p) : Safe ok good (fun _ => True) p := by
  induction p with
  | ret value => trivial
  | await e next ih => exact ⟨hp.1, fun answer _ => ih answer (hp.2 answer)⟩

theorem Safe.any (p : Prog E R α) : Safe (fun _ => True) good (fun _ => True) p := by
  induction p with
  | ret value => trivial
  | await e next ih => exact ⟨trivial, fun answer _ => ih answer⟩

/-- The program does not end before an exchange that satisfies `done`; up to there its commands satisfy `ok`, and
what is left then satisfies `P`. -/
def Until (ok : E → Prop) (done : (e : E) → R e → Prop) (P : Prog E R α → Prop) : Prog E R α → Prop
  | .ret _ => False
  | .await e next => ok e ∧ ∀ answer, done e answer ∧ P (next answer) ∨ Until ok done P (next answer)

theorem Until.perform_bind {done : (e : E) → R e → Prop} {P : Prog E R β → Prop} {e : E}
    {f : R e → Prog E R β} (he : ok e) (hf : ∀ answer, done e answer ∧ P (f answer) ∨ Until ok done P (f answer)) :
    Until ok done P (perform e >>= f) :=
  ⟨he, hf⟩

theorem Until.bind {done : (e : E) → R e → Prop} {P : Prog E R α → Prop} {P' : Prog E R β → Prop}
    (hp : Until ok done P p) (hf : ∀ q, P q → P' (q >>= f)) : Until ok done P' (p >>= f) := by
  induction p with
  | ret value => exact hp.elim
  | await e next ih =>
    refine ⟨hp.1, fun answer => ?_⟩
    rcases hp.2 answer with ⟨hdone, hnext⟩ | hnext
    · exact .inl ⟨hdone, hf _ hnext⟩
    · exact .inr (ih answer hnext)

theorem Until.bind_right {done : (e : E) → R e → Prop} {P : Prog E R β → Prop} (hp : Only ok p)
    (hf : ∀ value, Until ok done P (f value)) : Until ok done P (p >>= f) := by
  induction p with
  | ret value => exact hf value
  | await e next ih => exact ⟨hp.1, fun answer => .inr (ih answer (hp.2 answer))⟩

end Prog

end Async
