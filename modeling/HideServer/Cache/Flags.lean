import HideServer.Cache.Upkeep

/-!
# Session keys and session flags

A session key that holds 1 belongs to a session that is flagged active. This holds between handlers.
-/

namespace HideServer.Cache

open Async Gateway

/-- The session is flagged active. -/
def Flagged (w : World) (uid sessionId : String) : Prop :=
  ∃ session, w.session uid sessionId = some session ∧ session.state = .active

/-- Only for ids without a colon: the key of another session may be the key of something else as well. -/
def Agree (w : World) : Prop :=
  ∀ uid sessionId, Plain uid → Plain sessionId → ∀ timer, w.timers (presenceSession uid sessionId) = some timer →
    timer.value = 1 → Flagged w uid sessionId

theorem agree_empty : Agree .empty := by
  intro uid sessionId _ _ timer htimer
  cases htimer

theorem agree_iff (w : World) : Agree w ↔ Watched (fun _ _ state value => value = some 1 → state = some .active) w := by
  simp only [Agree, Watched, Flagged, Option.map_eq_some_iff]
  constructor
  · rintro hagree uid sessionId huid hsession ⟨timer, htimer, hvalue⟩
    exact hagree uid sessionId huid hsession timer htimer hvalue
  · intro hwatched uid sessionId huid hsession timer htimer hvalue
    exact hwatched uid sessionId huid hsession ⟨timer, htimer, hvalue⟩

theorem kept_agree : Kept fun _ _ state value => value = some 1 → state = some .active := by
  constructor
  · intro uid sessionId state hvalue
    cases state with
    | active => rfl
    | inactive => cases hvalue
  · intro uid sessionId value hbefore hvalue
    cases hbefore hvalue

theorem agree_pass {w : World} (hagree : Agree w) (event : Event) : Agree (w.pass event) := by
  cases event with
  | announce key =>
    simp only [World.pass, World.announce]
    split_ifs
    · intro uid sessionId huid hsession timer htimer
      simp only [Function.update_apply] at htimer
      split_ifs at htimer
      exact hagree uid sessionId huid hsession timer htimer
    · exact hagree
  | change change =>
    cases change with
    | wait ms => exact hagree
    | setRow uid uuid member => exact hagree
  | _ => exact hagree

/-- After every event, a session whose key says active is flagged so. -/
theorem agree_step (c : Settings) {w : World} (hagree : Agree w) (event : Event) : Agree (step c w event) := by
  have hpass := agree_pass hagree event
  rw [agree_iff] at hpass ⊢
  exact watched_program kept_agree c w event _ hpass

end HideServer.Cache
