import HideServer.Async.Prog

/-!
# Programs against an environment that answers

Nothing is known of the answers of services outside the model. An environment is a strategy that
answers a command knowing everything said before, and `dialogue` plays a program against one.
-/

namespace Async

open List

variable {E : Type} {R : E → Type} {α β : Type}

/-- Commands with their answers, in order. -/
abbrev Exchange (E : Type) (R : E → Type) := List (Σ e : E, R e)

/-- An answer to each command after each exchange. -/
abbrev Environment (E : Type) (R : E → Type) := Exchange E R → (e : E) → R e

namespace Prog

def answerWith (env : Environment E R) (e : E) (said : Exchange E R) : R e × Exchange E R :=
  (env said e, said ++ [⟨e, env said e⟩])

/-- The value a program ends with against an environment, and what was said. -/
def dialogue (env : Environment E R) (p : Prog E R α) (said : Exchange E R) : α × Exchange E R :=
  run (answerWith env) p said

def issued (env : Environment E R) (p : Prog E R α) : List E :=
  (dialogue env p []).2.map Sigma.fst

variable (env : Environment E R)

@[simp] theorem dialogue_ret (value : α) (said : Exchange E R) : dialogue env (.ret value) said = (value, said) := rfl

@[simp] theorem dialogue_await (e : E) (next : R e → Prog E R α) (said : Exchange E R) :
    dialogue env (.await e next) said = dialogue env (next (env said e)) (said ++ [⟨e, env said e⟩]) := rfl

@[simp] theorem dialogue_bind (p : Prog E R α) (f : α → Prog E R β) (said : Exchange E R) :
    dialogue env (p >>= f) said = dialogue env (f (dialogue env p said).1) (dialogue env p said).2 :=
  run_bind _ p f said

theorem mem_dialogue_of_mem (p : Prog E R α) {said : Exchange E R} {x : Σ e : E, R e} (hx : x ∈ said) :
    x ∈ (dialogue env p said).2 := by
  induction p generalizing said with
  | ret value => exact hx
  | await e next ih => exact ih _ (mem_append_left _ hx)

theorem answer_of_mem_dialogue (p : Prog E R α) {said : Exchange E R} {x : Σ e : E, R e}
    (hx : x ∈ (dialogue env p said).2) : x ∈ said ∨ ∃ before, x.2 = env before x.1 := by
  induction p generalizing said with
  | ret value => exact .inl hx
  | await e next ih =>
    rcases ih _ hx with hmem | hanswer
    · rcases mem_append.mp hmem with hmem | hlast
      · exact .inl hmem
      · rw [mem_singleton] at hlast
        subst hlast
        exact .inr ⟨said, rfl⟩
    · exact .inr hanswer

theorem comes_to_of_agree {odd : E → Prop} {env env' : Environment E R} (h : ∀ said e, ¬odd e → env said e = env' said e)
    (p : Prog E R α) {said : Exchange E R} (hodd : ∃ x ∈ (dialogue env p said).2, odd x.1) :
    ∃ x ∈ (dialogue env' p said).2, odd x.1 := by
  induction p generalizing said with
  | ret value => exact hodd
  | await e next ih =>
    by_cases he : odd e
    · rw [dialogue_await]
      refine ⟨⟨e, env' said e⟩, mem_dialogue_of_mem env' _ ?_, he⟩
      exact mem_append_right said (mem_singleton.mpr rfl)
    · rw [dialogue_await, h said e he] at hodd
      exact ih _ hodd

theorem Only.of_mem_dialogue {ok : E → Prop} {env : Environment E R} {p : Prog E R α}
    (hp : Only ok p) {said : Exchange E R} {x : Σ e : E, R e} (hx : x ∈ (dialogue env p said).2) :
    x ∈ said ∨ ok x.1 := by
  induction p generalizing said with
  | ret value => exact .inl hx
  | await e next ih =>
    rcases ih _ (hp.2 _) hx with hsaid | hok
    · rcases mem_append.mp hsaid with hsaid | hlast
      · exact .inl hsaid
      · rw [mem_singleton] at hlast
        subst hlast
        exact .inr hp.1
    · exact .inr hok

theorem Safe.dialogue {ok : E → Prop} {good : (e : E) → R e → Prop} {post : α → Prop}
    {p : Prog E R α} (hp : Safe ok good post p) (env : Environment E R)
    (henv : ∀ said e, good e (env said e)) (said : Exchange E R) :
    post (dialogue env p said).1 ∧ ∀ x ∈ (dialogue env p said).2, x ∈ said ∨ ok x.1 := by
  induction p generalizing said with
  | ret value => exact ⟨hp, fun x hx => .inl hx⟩
  | await e next ih =>
    obtain ⟨hpost, hsaid⟩ := ih _ (hp.2 _ (henv said e)) (said ++ [⟨e, env said e⟩])
    refine ⟨hpost, fun x hx => ?_⟩
    rcases hsaid x hx with hmem | hok
    · rcases mem_append.mp hmem with hmem | hlast
      · exact .inl hmem
      · rw [mem_singleton] at hlast
        subst hlast
        exact .inr hp.1
    · exact .inr hok

/-- The program issues the command, whatever was said before. -/
def Makes (env : Environment E R) (e : E) (p : Prog E R α) : Prop :=
  ∀ said, e ∈ (dialogue env p said).2.map Sigma.fst

theorem Makes.perform_bind (e : E) (f : R e → Prog E R β) : Makes env e (perform e >>= f) := by
  intro said
  rw [Prog.perform_bind, dialogue_await]
  refine mem_map.mpr ⟨⟨e, env said e⟩, mem_dialogue_of_mem env _ ?_, rfl⟩
  exact mem_append_right said (mem_singleton.mpr rfl)

theorem Makes.bind_left {env : Environment E R} {e : E} {p : Prog E R α} {f : α → Prog E R β} (hp : Makes env e p) :
    Makes env e (p >>= f) := by
  intro said
  obtain ⟨x, hx, rfl⟩ := mem_map.mp (hp said)
  rw [dialogue_bind]
  exact mem_map.mpr ⟨x, mem_dialogue_of_mem env _ hx, rfl⟩

theorem Makes.bind_right {env : Environment E R} {e : E} {p : Prog E R α} {f : α → Prog E R β}
    (hf : ∀ said, Makes env e (f (dialogue env p said).1)) : Makes env e (p >>= f) := by
  intro said
  rw [dialogue_bind]
  exact hf said _

end Prog

end Async
