import KnxRs.Runs
import KnxRs.SlidingWindows
import Mathlib.Algebra.Order.Group.Int

set_option autoImplicit false

/-!
# The send limiter of routing

At most so many sends in a window of one second, and none while a pause is
pending. Instants are nanoseconds of the monotonic clock, durations natural numbers
of them; the difference of two instants saturates at zero, as the clock's own
subtraction does.
-/
namespace KnxRs.Router
open Runs SlidingWindows

def second : Int := 1000000000

def since (later earlier : Int) : Nat := (later - earlier).toNat

structure RateLimiter where
  timestamps : List Int
  maxPerSec : UInt32
  pausedUntil : Option Int

namespace RateLimiter

def new (maxPerSec : UInt32) : RateLimiter := ⟨[], maxPerSec, none⟩

/-- The timestamps left after those before `now - 1 s` are popped from the front. -/
def inWindow (l : RateLimiter) (now : Int) : List Int :=
  l.timestamps.dropWhile fun t => t < now - second

/-- The second half of `check`: the window, once no pause is pending. -/
def takeSlot (l : RateLimiter) (now : Int) : Option Nat × RateLimiter :=
  let timestamps := l.inWindow now
  if timestamps.length < l.maxPerSec.toNat then
    (none, { l with timestamps := timestamps ++ [now], pausedUntil := none })
  else
    (timestamps.head?.map fun oldest => since (oldest + second) now,
      { l with timestamps := timestamps, pausedUntil := none })

/-- `check` at the instant `now`: the duration to wait, or `none` for a send that is admitted. -/
def check (l : RateLimiter) (now : Int) : Option Nat × RateLimiter :=
  match l.pausedUntil with
  | some deadline => if now < deadline then (some (since deadline now), l) else l.takeSlot now
  | none => l.takeSlot now

def pause (l : RateLimiter) (now : Int) (duration : Nat) : RateLimiter :=
  { l with pausedUntil := some (now + duration) }

/-- A pause is pending at `now`, and ends at `deadline`. -/
def Pending (l : RateLimiter) (now deadline : Int) : Prop :=
  l.pausedUntil = some deadline ∧ now < deadline

variable {l : RateLimiter} {now : Int}

theorem check_pending {deadline : Int} (h : l.Pending now deadline) :
    l.check now = (some (since deadline now), l) := by
  unfold check
  rw [h.1]
  exact if_pos h.2

theorem check_free (h : ∀ deadline, ¬ l.Pending now deadline) : l.check now = l.takeSlot now := by
  unfold check
  cases hpaused : l.pausedUntil with
  | none => rfl
  | some deadline => exact if_neg fun hlt => h deadline ⟨hpaused, hlt⟩

/-- Either the check is answered by a pending pause, which it leaves as it is, or by the
    window, and no pause is left. -/
theorem check_cases (l : RateLimiter) (now : Int) :
    (∃ deadline, l.Pending now deadline ∧ l.check now = (some (since deadline now), l)) ∨
      ((∀ deadline, ¬ l.Pending now deadline) ∧ l.check now = l.takeSlot now) := by
  by_cases h : ∃ deadline, l.Pending now deadline
  · obtain ⟨deadline, h⟩ := h
    exact .inl ⟨deadline, h, check_pending h⟩
  · have hfree : ∀ deadline, ¬ l.Pending now deadline := not_exists.mp h
    exact .inr ⟨hfree, check_free hfree⟩

theorem takeSlot_timestamps (l : RateLimiter) (now : Int) :
    (l.takeSlot now).2.timestamps =
      if (l.inWindow now).length < l.maxPerSec.toNat then l.inWindow now ++ [now]
      else l.inWindow now := by
  unfold takeSlot
  dsimp only
  split_ifs <;> rfl

@[simp] theorem takeSlot_maxPerSec (l : RateLimiter) (now : Int) :
    (l.takeSlot now).2.maxPerSec = l.maxPerSec := by
  unfold takeSlot
  dsimp only
  split_ifs <;> rfl

theorem takeSlot_eq_none_iff (now : Int) (hmax : 0 < l.maxPerSec) :
    (l.takeSlot now).1 = none ↔ (l.inWindow now).length < l.maxPerSec.toNat := by
  unfold takeSlot
  dsimp only
  split_ifs with hlt
  · exact iff_of_true rfl hlt
  · refine iff_of_false ?_ hlt
    intro hnone
    have hempty : l.inWindow now = [] := by
      rw [Option.map_eq_none_iff, List.head?_eq_none_iff] at hnone
      exact hnone
    rw [hempty, List.length_nil] at hlt
    exact hlt (UInt32.lt_iff_toNat_lt.mp hmax)

end RateLimiter

/-! ## Checks and pauses over time -/

inductive Event where
  | check (now : Int)
  | pause (now : Int) (duration : Nat)

def Event.now : Event → Int
  | .check now => now
  | .pause now _ => now

def RateLimiter.apply (l : RateLimiter) : Event → RateLimiter
  | .check now => (l.check now).2
  | .pause now duration => l.pause now duration

/-- The limiter and the latest instant the clock has shown. -/
structure Clocked where
  clock : Int
  limiter : RateLimiter

/-- The clock never goes back. -/
def Clocked.Step (s : Clocked) (event : Event) (t : Clocked) : Prop :=
  s.clock ≤ event.now ∧ t = ⟨event.now, s.limiter.apply event⟩

abbrev LimiterRun (start : Int) (maxPerSec : UInt32)
    (tr : List (Transition Clocked Event)) (t : Clocked) : Prop :=
  Run Clocked.Step ⟨start, .new maxPerSec⟩ tr t

def Admits (x : Transition Clocked Event) : Prop :=
  ∃ now, x.event = .check now ∧ (x.source.limiter.check now).1 = none

/-! ## Pauses -/

/-- No send is admitted before the end of a pause made earlier. -/
def Honoured (tr : List (Transition Clocked Event)) : Prop :=
  ∀ past x between y rest, tr = past ++ x :: between ++ y :: rest →
    ∀ (now : Int) (duration : Nat), x.event = .pause now duration → Admits y →
      now + duration ≤ y.event.now

/-- A pause made while another is pending ends no earlier than that one. -/
def Extends (x : Transition Clocked Event) : Prop :=
  ∀ (now : Int) (duration : Nat) (deadline : Int), x.event = .pause now duration →
    x.source.limiter.Pending now deadline → deadline ≤ now + duration

/-- Each pause of the past is over, or the limiter still waits for its end. -/
def Kept (past : List (Transition Clocked Event)) (s : Clocked) : Prop :=
  ∀ x ∈ past, ∀ (now : Int) (duration : Nat), x.event = .pause now duration →
    now + duration ≤ s.clock ∨
      ∃ deadline, s.limiter.Pending s.clock deadline ∧ now + duration ≤ deadline

theorem apply_waits {s t : Clocked} {event : Event} (h : s.Step event t)
    (hextends : Extends ⟨s, event, t⟩) {deadline : Int}
    (hpending : s.limiter.Pending s.clock deadline) :
    deadline ≤ t.clock ∨ ∃ later, t.limiter.Pending t.clock later ∧ deadline ≤ later := by
  obtain ⟨_, rfl⟩ := h
  by_cases hlt : deadline ≤ event.now
  · exact .inl hlt
  have hahead : event.now < deadline := by omega
  have hnow : s.limiter.Pending event.now deadline := ⟨hpending.1, hahead⟩
  right
  cases event with
  | check now =>
    refine ⟨deadline, ?_, le_rfl⟩
    have hsame : s.limiter.apply (.check now) = s.limiter :=
      congrArg Prod.snd (RateLimiter.check_pending hnow)
    rw [hsame]
    exact hnow
  | pause now duration =>
    have hle := hextends now duration deadline rfl hnow
    exact ⟨now + duration, ⟨rfl, by simp only [Event.now] at *; omega⟩, hle⟩

theorem pause_waits (l : RateLimiter) (now : Int) (duration : Nat) :
    now + duration ≤ now ∨
      ∃ deadline, (l.pause now duration).Pending now deadline ∧ now + duration ≤ deadline := by
  by_cases hzero : (now : Int) + duration ≤ now
  · exact .inl hzero
  · exact .inr ⟨now + duration, ⟨rfl, by omega⟩, le_rfl⟩

theorem kept_extend {past : List (Transition Clocked Event)} {x : Transition Clocked Event}
    (hkept : Kept past x.source) (hextends : Extends x)
    (h : x.source.Step x.event x.target) : Kept (past ++ [x]) x.target := by
  intro y hy now duration hevent
  rcases List.mem_append.mp hy with hy | hy
  · rcases hkept y hy now duration hevent with hover | ⟨deadline, hpending, hle⟩
    · have hclock : x.source.clock ≤ x.target.clock := by
        rw [h.2]
        exact h.1
      exact .inl (hover.trans hclock)
    · rcases apply_waits h hextends hpending with hover | ⟨later, hlater, hle'⟩
      · exact .inl (hle.trans hover)
      · exact .inr ⟨later, hlater, hle.trans hle'⟩
  · rw [List.mem_singleton] at hy
    subst hy
    obtain ⟨_, htarget⟩ := h
    rw [htarget, hevent]
    exact pause_waits y.source.limiter now duration

theorem admits_free {x : Transition Clocked Event} (h : Admits x) {deadline : Int}
    (hpaused : x.source.limiter.pausedUntil = some deadline) : deadline ≤ x.event.now := by
  obtain ⟨now, hevent, hnone⟩ := h
  rw [hevent]
  by_contra hlt
  have hpending : x.source.limiter.Pending now deadline := ⟨hpaused, not_le.mp hlt⟩
  rw [RateLimiter.check_pending hpending] at hnone
  cases hnone

/-- Where no pause cuts a pending one short, every pause is honoured, whatever comes between
    it and a send. -/
theorem pauses_honoured {start : Int} {maxPerSec : UInt32}
    {tr : List (Transition Clocked Event)} {t : Clocked} (h : LimiterRun start maxPerSec tr t)
    (hextends : ∀ x ∈ tr, Extends x) : Honoured tr := by
  intro past x between y rest htr now duration hevent hadmits
  rw [htr] at h
  obtain ⟨u, hbefore, hafter⟩ := Run.split h
  obtain ⟨hsource, hstep, _⟩ := hafter.head
  have hkept : Kept (past ++ x :: between) u := by
    refine hbefore.history Extends ?_ ?_ fun _ _ => kept_extend
    · intro z hz
      cases hz
    · intro z hz
      exact hextends z (by rw [htr]; exact List.mem_append_left _ hz)
  rcases hkept x (by simp) now duration hevent with hover | ⟨deadline, hpending, hle⟩
  · exact hover.trans hstep.1
  · rw [← hsource] at hpending
    exact hle.trans (admits_free hadmits hpending.1)

def timed (s : Clocked) : List Event → List (Transition Clocked Event)
  | [] => []
  | event :: events =>
    let t : Clocked := ⟨event.now, s.limiter.apply event⟩
    ⟨s, event, t⟩ :: timed t events

theorem timed_run (s : Clocked) (events : List Event)
    (h : (s.clock :: events.map Event.now).Pairwise (fun a b => a ≤ b)) :
    ∃ t, Run Clocked.Step s (timed s events) t := by
  induction events generalizing s with
  | nil => exact ⟨s, .refl s⟩
  | cons event events ih =>
    rw [List.map_cons, List.pairwise_cons] at h
    obtain ⟨t, ht⟩ := ih ⟨event.now, s.limiter.apply event⟩ h.2
    exact ⟨t, .next ⟨h.1 _ List.mem_cons_self, rfl⟩ ht⟩

/-- A pause of 500 ns is made during one of 10 ns: a send after 20 ns waits for its end. -/
def overlapping : List Event := [.pause 0 10, .pause 4 500, .check 20, .check 504]

theorem overlapping_pauses_honoured :
    Honoured (timed ⟨0, .new 50⟩ overlapping) ∧
      (timed ⟨0, .new 50⟩ overlapping).map (fun x => x.source.limiter.pausedUntil) =
        [none, some 10, some 504, some 504] ∧
      ∃ y ∈ timed ⟨0, .new 50⟩ overlapping, y.event = .check 504 ∧ Admits y := by
  obtain ⟨t, ht⟩ := timed_run ⟨0, .new 50⟩ overlapping (by decide)
  refine ⟨pauses_honoured ht ?_, by decide, ?_⟩
  · intro x hx now duration deadline hevent hpending
    simp only [timed, overlapping, List.mem_cons, List.not_mem_nil, or_false] at hx
    rcases hx with rfl | rfl | rfl | rfl
    · cases hpending.1
    · cases hevent
      obtain rfl : 10 = deadline := Option.some.inj hpending.1
      decide
    · cases hevent
    · cases hevent
  · refine ⟨_, List.mem_cons_of_mem _ (List.mem_cons_of_mem _ (List.mem_cons_of_mem _
      List.mem_cons_self)), rfl, 504, rfl, by decide⟩

/-- A pause of 10 ns made during one of 500 ns: a send is admitted after 20 ns. -/
theorem shorter_pause :
    ¬ ∀ (start : Int) (maxPerSec : UInt32) (tr : List (Transition Clocked Event))
      (t : Clocked), LimiterRun start maxPerSec tr t → Honoured tr := by
  intro h
  obtain ⟨t, ht⟩ := timed_run ⟨0, .new 50⟩ [.pause 0 500, .pause 0 10, .check 20] (by decide)
  have hle := h 0 50 _ t ht [] _ [_] _ [] rfl 0 500 rfl ⟨20, rfl, rfl⟩
  exact absurd hle (by decide)

/-! ## The window -/

def admittedInstants (tr : List (Transition Clocked Event)) : List Int :=
  tr.flatMap fun x =>
    match x.event with
    | .check now => if (x.source.limiter.check now).1 = none then [now] else []
    | .pause _ _ => []

/-- The limiter keeps of the admitted sends those that its next decision depends on. -/
structure Limited (maxPerSec : UInt32) (past : List (Transition Clocked Event))
    (s : Clocked) : Prop where
  max : s.limiter.maxPerSec = maxPerSec
  covers : Covers second s.clock (admittedInstants past) s.limiter.timestamps
  length_le : s.limiter.timestamps.length ≤ maxPerSec.toNat
  rate : ∀ first, count second first (admittedInstants past) ≤ maxPerSec.toNat

variable {maxPerSec : UInt32} {past : List (Transition Clocked Event)}

theorem admittedInstants_snoc (past : List (Transition Clocked Event)) (s t : Clocked)
    (event : Event) : admittedInstants (past ++ [⟨s, event, t⟩]) = admittedInstants past ++
      match event with
      | .check now => if (s.limiter.check now).1 = none then [now] else []
      | .pause _ _ => [] := by
  unfold admittedInstants
  rw [List.flatMap_append, List.flatMap_singleton]

theorem inWindow_length_le (l : RateLimiter) (now : Int) :
    (l.inWindow now).length ≤ l.timestamps.length :=
  List.Sublist.length_le (List.dropWhile_sublist _)

theorem takeSlot_limited {s : Clocked} (h : Limited maxPerSec past s) (hmax : 0 < maxPerSec)
    {now : Int} (hnow : s.clock ≤ now) (hfree : s.limiter.check now = s.limiter.takeSlot now) :
    Limited maxPerSec (past ++ [⟨s, .check now, ⟨now, (s.limiter.check now).2⟩⟩])
      ⟨now, (s.limiter.check now).2⟩ := by
  have hkept := (h.covers.later hnow).expire
  change Covers second now _ (s.limiter.inWindow now) at hkept
  have hlen := (inWindow_length_le s.limiter now).trans h.length_le
  have hpos : 0 < s.limiter.maxPerSec := h.max.symm ▸ hmax
  have hslot := RateLimiter.takeSlot_eq_none_iff now hpos
  have hstamps := RateLimiter.takeSlot_timestamps s.limiter now
  have hlog := admittedInstants_snoc past s ⟨now, (s.limiter.check now).2⟩ (.check now)
  dsimp only at hlog
  rw [hfree] at hlog ⊢
  rw [h.max] at hslot hstamps
  by_cases hroom : (s.limiter.inWindow now).length < maxPerSec.toNat
  · rw [if_pos (hslot.mpr hroom)] at hlog
    rw [if_pos hroom] at hstamps
    constructor
    · rw [RateLimiter.takeSlot_maxPerSec, h.max]
    · rw [hlog, hstamps]
      exact hkept.push
    · rw [hstamps, List.length_append, List.length_singleton]
      exact hroom
    · rw [hlog]
      exact hkept.count_push_le h.rate hroom
  · rw [if_neg (fun hnone => hroom (hslot.mp hnone)), List.append_nil] at hlog
    rw [if_neg hroom] at hstamps
    constructor
    · rw [RateLimiter.takeSlot_maxPerSec, h.max]
    · rw [hlog, hstamps]
      exact hkept
    · rw [hstamps]
      exact hlen
    · rw [hlog]
      exact h.rate

theorem limited_extend {x : Transition Clocked Event} (hmax : 0 < maxPerSec)
    (h : Limited maxPerSec past x.source) (hstep : x.source.Step x.event x.target) :
    Limited maxPerSec (past ++ [x]) x.target := by
  obtain ⟨s, event, t⟩ := x
  change s.clock ≤ event.now ∧ t = ⟨event.now, s.limiter.apply event⟩ at hstep
  obtain ⟨hnow, rfl⟩ := hstep
  -- a step that admits nothing and keeps the timestamps
  have hidle : ∀ l : RateLimiter, l.timestamps = s.limiter.timestamps →
      l.maxPerSec = s.limiter.maxPerSec →
      admittedInstants (past ++ [⟨s, event, ⟨event.now, l⟩⟩]) = admittedInstants past →
      Limited maxPerSec (past ++ [⟨s, event, ⟨event.now, l⟩⟩]) ⟨event.now, l⟩ := by
    intro l hstamps hsame hlog
    constructor
    · rw [hsame, h.max]
    · rw [hlog, hstamps]
      exact h.covers.later hnow
    · rw [hstamps]
      exact h.length_le
    · rw [hlog]
      exact h.rate
  cases event with
  | pause now duration =>
    refine hidle _ rfl rfl ?_
    rw [admittedInstants_snoc, List.append_nil]
  | check now =>
    rcases s.limiter.check_cases now with ⟨deadline, _, hcheck⟩ | ⟨_, hcheck⟩
    · have hsame : s.limiter.apply (.check now) = s.limiter := congrArg Prod.snd hcheck
      refine hidle _ (congrArg _ hsame) (congrArg _ hsame) ?_
      rw [admittedInstants_snoc]
      dsimp only
      rw [hcheck, if_neg (Option.some_ne_none _), List.append_nil]
    · exact takeSlot_limited h hmax hnow hcheck

theorem run_limited {start : Int} {tr : List (Transition Clocked Event)} {t : Clocked}
    (hmax : 0 < maxPerSec) (h : LimiterRun start maxPerSec tr t) : Limited maxPerSec tr t := by
  refine h.history (fun _ => True) ?_ (fun _ _ => trivial)
    fun _ _ hlimited _ hstep => limited_extend hmax hlimited hstep
  constructor
  · rfl
  · exact covers_nil _ _
  · exact Nat.zero_le _
  · intro first
    exact Nat.zero_le _

/-- The instant a refused check waits for: the end of the pause, or the one at which the
    oldest send leaves the window. -/
def Awaited (l : RateLimiter) (now deadline : Int) : Prop :=
  l.Pending now deadline ∨
    ∃ oldest, (l.inWindow now).head? = some oldest ∧ deadline = oldest + second

theorem inWindow_head {l : RateLimiter} {now oldest : Int}
    (h : (l.inWindow now).head? = some oldest) : now ≤ oldest + second := by
  have hhead := List.head?_dropWhile_not (fun t => decide (t < now - second)) l.timestamps
  unfold RateLimiter.inWindow at h
  rw [h] at hhead
  have := of_decide_eq_false hhead
  omega

theorem check_awaited {l : RateLimiter} {now : Int} {wait : Nat}
    (h : (l.check now).1 = some wait) :
    ∃ deadline, Awaited l now deadline ∧ now ≤ deadline ∧ wait = since deadline now := by
  rcases l.check_cases now with ⟨deadline, hpending, hcheck⟩ | ⟨_, hcheck⟩
  · rw [hcheck] at h
    exact ⟨deadline, .inl hpending, hpending.2.le, (Option.some.inj h).symm⟩
  · rw [hcheck] at h
    unfold RateLimiter.takeSlot at h
    dsimp only at h
    split_ifs at h
    rw [Option.map_eq_some_iff] at h
    obtain ⟨oldest, hhead, hwait⟩ := h
    exact ⟨oldest + second, .inr ⟨oldest, hhead, rfl⟩, inWindow_head hhead, hwait.symm⟩

/-- In any second no more sends are admitted than the maximum, the timestamps are sorted and
    no more than it, and what a refused check waits for still lies ahead. -/
theorem sends_limited {start : Int} {tr : List (Transition Clocked Event)} {t : Clocked}
    (h : LimiterRun start maxPerSec tr t) (hmax : 0 < maxPerSec) :
    (∀ first, count second first (admittedInstants tr) ≤ maxPerSec.toNat) ∧
      t.limiter.timestamps.Pairwise (fun a b => a ≤ b) ∧
      t.limiter.timestamps.length ≤ maxPerSec.toNat ∧
      ∀ now wait, (t.limiter.check now).1 = some wait →
        ∃ deadline, Awaited t.limiter now deadline ∧ now + (wait : Int) = deadline := by
  have hlimited := run_limited hmax h
  refine ⟨hlimited.rate, hlimited.covers.kept_sorted, hlimited.length_le, ?_⟩
  intro now wait hwait
  obtain ⟨deadline, hawaited, hle, rfl⟩ := check_awaited hwait
  refine ⟨deadline, hawaited, ?_⟩
  unfold since
  omega

/-- Three checks within a second, of which one is admitted. -/
theorem single_send_limited : ∃ t : Clocked,
    LimiterRun 0 1 (timed ⟨0, .new 1⟩ [.check 5, .check 7, .check 1000000005]) t ∧
      t.limiter.timestamps.Pairwise (fun a b => a ≤ b) ∧
      admittedInstants (timed ⟨0, .new 1⟩ [.check 5, .check 7, .check 1000000005]) = [5] := by
  obtain ⟨t, ht⟩ := timed_run ⟨0, .new 1⟩ [.check 5, .check 7, .check 1000000005]
    (by decide)
  exact ⟨t, ht, (sends_limited ht (by decide)).2.1, by decide⟩

end KnxRs.Router
