import HideServer.Async.Trace
import HideServer.Data.Runs
import Mathlib.Order.Lattice

/-!
# Debounced calls

`debounce` wraps a function so that a call only sets a timer, in the place of the one set before. A
timer fires when its time has come, before a call that is made at that time.
-/

namespace HideServer.Common

variable {T α : Type}

structure Timer (T α : Type) where
  handle : Nat
  due : T
  args : α

/-- The handle the closure keeps, the timers that are set, the next handle, and the invocations of the function. -/
structure Debounced (T α : Type) where
  timeout : Option Nat
  timers : List (Timer T α)
  next : Nat
  invoked : List (T × α)

namespace Debounced

def start : Debounced T α := ⟨none, [], 1, []⟩

def clearTimeout (s : Debounced T α) (handle : Nat) : Debounced T α :=
  { s with timers := s.timers.filter (·.handle ≠ handle) }

def setTimeout (s : Debounced T α) (due : T) (args : α) : Debounced T α :=
  { s with timeout := some s.next, timers := s.timers ++ [⟨s.next, due, args⟩], next := s.next + 1 }

def Timer.fire (timer : Timer T α) : T × α := (timer.due, timer.args)

section

variable [Add T] {wait : T} {s : Debounced T α}

def call (s : Debounced T α) (wait time : T) (args : α) : Debounced T α :=
  (s.timeout.elim s s.clearTimeout).setTimeout (time + wait) args

/-- The timer of the call is the only one that is set, and its handle is kept. -/
def Awaits (wait : T) (s : Debounced T α) (called : T × α) : Prop :=
  ∃ handle, s.timeout = some handle ∧ s.timers = [⟨handle, called.1 + wait, called.2⟩]

theorem invoked_call (s : Debounced T α) (time : T) (args : α) : (s.call wait time args).invoked = s.invoked := by
  unfold call
  cases s.timeout <;> rfl

theorem awaits_call (h : ∀ timer ∈ s.timers, s.timeout = some timer.handle) (called : T × α) :
    (s.call wait called.1 called.2).Awaits wait called := by
  have hcleared : (s.timeout.elim s s.clearTimeout).timers = [] := by
    refine List.eq_nil_iff_forall_not_mem.mpr fun timer htimer => ?_
    cases htimeout : s.timeout with
    | none =>
      rw [htimeout] at htimer
      cases htimeout.symm.trans (h timer htimer)
    | some handle =>
      rw [htimeout] at htimer
      obtain ⟨hset, hother⟩ := List.mem_filter.mp htimer
      cases htimeout.symm.trans (h timer hset)
      simp at hother
  refine ⟨_, rfl, ?_⟩
  rw [call, setTimeout, hcleared]
  rfl

end

variable [LinearOrder T]

/-- What is due by this time is invoked. -/
def elapse (s : Debounced T α) (time : T) : Debounced T α :=
  { s with
    timers := s.timers.filter (time < ·.due)
    invoked := s.invoked ++ (s.timers.filter (·.due ≤ time)).map Timer.fire }

/-- All invocations, with those of the timers that are still set. -/
def settled (s : Debounced T α) : List (T × α) := s.invoked ++ s.timers.map Timer.fire

variable [Add T] (wait : T)

def step (s : Debounced T α) (called : T × α) : Debounced T α := (s.elapse called.1).call wait called.1 called.2

/-- A call comes before the timer of the one before it is due. -/
def near (call next : T × α) : Bool := next.1 < call.1 + wait

/-- What a group of calls should lead to. -/
def outcome (group : List (T × α)) : Option (T × α) := group.getLast?.map fun call => (call.1 + wait, call.2)

variable {wait} {s : Debounced T α}

theorem Awaits.called {called : T × α} (h : s.Awaits wait called) (next : T × α) :
    (s.step wait next).Awaits wait next ∧ (s.step wait next).invoked =
        s.invoked ++ if near wait called next then [] else [(called.1 + wait, called.2)] := by
  obtain ⟨handle, htimeout, htimers⟩ := h
  refine ⟨awaits_call (fun timer htimer => ?_) next, (invoked_call ..).trans ?_⟩
  · have hmem := (List.mem_filter.mp htimer).1
    rw [htimers, List.mem_singleton] at hmem
    rw [hmem]
    exact htimeout
  · by_cases hnear : next.1 < called.1 + wait
    · simp [elapse, htimers, near, hnear]
    · simp [elapse, htimers, near, hnear, not_lt.mp hnear, Timer.fire]

theorem settled_run {called : T × α} (h : s.Awaits wait called) (calls : List (T × α)) :
    (Trace.run (step wait) s calls).settled.map some =
      s.invoked.map some ++ ((called :: calls).splitBy (near wait)).map (outcome wait) := by
  induction calls generalizing s called with
  | nil =>
    obtain ⟨handle, -, htimers⟩ := h
    simp only [Trace.run_nil, settled, htimers, List.map_append]
    rfl
  | cons next calls ih =>
    obtain ⟨hawaits, hinvoked⟩ := h.called next
    rw [Trace.run_cons, ih hawaits, hinvoked]
    cases hnear : near wait called next with
    | true =>
      obtain ⟨run, rest, hnext, hsplit⟩ := Runs.splitBy_cons_of_rel hnear calls
      rw [hnext, hsplit]
      simp [outcome]
    | false =>
      rw [Runs.splitBy_cons_of_not_rel hnear]
      simp [outcome]

theorem awaits_start (wait : T) (called : T × α) :
    (start.step wait called).Awaits wait called ∧ (start.step wait called).invoked = [] :=
  ⟨awaits_call (by simp [elapse, start]) called, invoked_call ..⟩

theorem Awaits.run {called : T × α} (h : s.Awaits wait called) (calls : List (T × α)) :
    ∃ last, (Trace.run (step wait) s calls).Awaits wait last := by
  induction calls generalizing s called with
  | nil => exact ⟨called, h⟩
  | cons next calls ih => exact ih (h.called next).1

theorem timers_run (calls : List (T × α)) : (Trace.run (step wait) start calls).timers.length ≤ 1 := by
  cases calls with
  | nil => exact Nat.zero_le 1
  | cons called calls =>
    obtain ⟨last, handle, -, htimers⟩ := (awaits_start wait called).1.run calls
    rw [Trace.run_cons, htimers]
    exact Nat.le_refl 1

end Debounced

open Debounced Trace

/-- The function is invoked once for each maximal group of calls that each come before the timer of the one before is
due, when the timer of the last of them is due, and with its arguments; and at no time is more than one timer set. -/
theorem debounce_once_per_burst [LinearOrder T] [Add T] (wait : T) (calls : List (T × α)) :
    (run (step wait) start calls).settled.map some = (calls.splitBy (near wait)).map (outcome wait) ∧
      ∀ done, done <+: calls → (run (step wait) start done).timers.length ≤ 1 ∧
        ∀ time, ((run (step wait) start done).elapse time).timers.length ≤ 1 := by
  refine ⟨?_, fun done _ => ⟨timers_run done, fun time => (List.length_filter_le ..).trans (timers_run done)⟩⟩
  cases calls with
  | nil => rfl
  | cons called calls =>
    obtain ⟨hawaits, hinvoked⟩ := awaits_start wait called
    rw [run_cons, settled_run hawaits, hinvoked]
    rfl

end HideServer.Common
