import SkadiCore.Common.InstantRange
import SkadiCore.Server.AuthRateLimit

/-!
# Bans

What the limiter of `crates/skadi-server/src/auth_rate_limit.rs` does to an address over a run
of calls at non-decreasing times. The entry of an address is changed by its own calls and
cleaned up by everybody's: `EntryStep` says all that can happen to it.

`Window` is what an address has on its account by its failures alone: when the current window
began and how many failures were counted since. It knows neither the table nor its cleanup,
and the entry agrees with it (`Agrees.run`).

**Defects.** A ban that ends out of range panics with the lock held, and `is_blocked`
panics from then on (`ban_lost_to_panic`). And `cleanup_expired` keeps every entry with
`failures > 0`, a counter that only the address itself resets: an address that failed fewer
than `max_failures` times and never again stays in the table for ever (`kept_for_ever`).
-/

namespace SkadiCore.Server

/-- The call records a failure of `ip`. -/
def AuthEvent.Fails (e : AuthEvent) (ip : IpAddr) : Prop := e.call = .recordFailure ∧ e.ip = ip

/-- The ban is not over at `now`. -/
def IpState.Banned (state : IpState) (now : Instant) : Prop :=
  ∃ till ∈ state.blockedUntil, now < till

/-- The calls are in the order of their times. -/
def Ordered (es : List AuthEvent) : Prop := es.Pairwise fun e e' => e.now ≤ e'.now

instance (es : List AuthEvent) : Decidable (Ordered es) :=
  inferInstanceAs (Decidable (es.Pairwise _))

/-! ## Durations of bans -/

namespace AuthRateLimiter

variable (l : AuthRateLimiter) {now : Instant} {state : IpState} {entry : Option IpState}

theorem nanos_ban (level : ℕ) :
    (l.ban level).nanos = min (l.banBase.nanos * 2 ^ min level 10) l.banMax.nanos := by
  have hmax := l.banMax.nanos_le_MAX
  simp only [ban, Duration.nanos_min, Duration.nanos_saturatingMul]
  show min (min _ _) _ = _
  omega

theorem ban_mono {level level' : ℕ} (h : level ≤ level') :
    (l.ban level).nanos ≤ (l.ban level').nanos := by
  have hpow : l.banBase.nanos * 2 ^ min level 10 ≤ l.banBase.nanos * 2 ^ min level' 10 :=
    Nat.mul_le_mul_left _ (Nat.pow_le_pow_right (by omega) (by omega))
  rw [nanos_ban, nanos_ban]
  exact min_le_min_right _ hpow

theorem ban_le (level : ℕ) : (l.ban level).nanos ≤ (l.ban 10).nanos := by
  have hlevel : min level 10 = min (min level 10) 10 := by omega
  have hsame : (l.ban level).nanos = (l.ban (min level 10)).nanos := by
    rw [nanos_ban, nanos_ban, ← hlevel]
  rw [hsame]
  exact l.ban_mono (by omega)

theorem le_nextLevel {level : ℕ} (h : level < 2 ^ 32) : level ≤ nextLevel level := by
  unfold nextLevel
  omega

theorem first_ban_le (level : ℕ) :
    min (l.banBase.nanos * 2) l.banMax.nanos ≤ (l.ban (nextLevel level)).nanos := by
  have hfirst : (l.ban 1).nanos = min (l.banBase.nanos * 2) l.banMax.nanos := l.nanos_ban 1
  rw [← hfirst]
  exact l.ban_mono (by unfold nextLevel; omega)

/-! ## The entry of an address -/

def banDue (state : IpState) : Option Duration :=
  if state.failures + 1 < l.maxFailures then none else some (l.ban (nextLevel state.banLevel))

variable {l}

theorem countFailure_eq_none_iff :
    l.countFailure now state = none ↔ ∃ d ∈ l.banDue state, now.add d = none := by
  unfold countFailure banDue
  dsimp only
  split_ifs <;> simp

def current (l : AuthRateLimiter) (now : Instant) (entry : Option IpState) : IpState :=
  l.rewound now ((entry.filter (l.alive now)).getD (fresh now))

theorem current_of_now (hwindow : 0 < l.window.nanos) (hstate : state.windowStart = now) :
    l.current now (some state) = state := by
  have hsince : now.durationSince state.windowStart < l.window := by
    show now.nanos - state.windowStart.nanos < l.window.nanos
    rwa [hstate, Nat.sub_self]
  simp [current, alive, rewound, Option.filter, hsince]

theorem current_cases (l : AuthRateLimiter) (now : Instant) (entry : Option IpState) :
    (∃ state, entry.filter (l.alive now) = some state ∧
      now.durationSince state.windowStart < l.window ∧ l.current now entry = state) ∨
    (∃ state, entry.filter (l.alive now) = some state ∧
      ¬ now.durationSince state.windowStart < l.window ∧
      l.current now entry = { state with windowStart := now, failures := 0 }) ∨
    (entry.filter (l.alive now) = none ∧ l.current now entry = fresh now) := by
  unfold current
  cases hentry : entry.filter (l.alive now) with
  | none =>
    refine .inr (.inr ⟨rfl, ?_⟩)
    simp only [Option.getD_none, rewound]
    split_ifs <;> rfl
  | some state =>
    by_cases hsince : now.durationSince state.windowStart < l.window
    · exact .inl ⟨state, rfl, hsince, if_pos hsince⟩
    · exact .inr (.inl ⟨state, rfl, hsince, if_neg hsince⟩)

theorem not_alive_iff : l.alive now state = false ↔
    ¬ now.durationSince state.windowStart < l.window ∧
      (∀ till ∈ state.blockedUntil, ¬ now < till) ∧ state.failures = 0 := by
  have hban : (state.blockedUntil.any fun till => decide (now < till)) = false ↔
      ∀ till ∈ state.blockedUntil, ¬ now < till := by
    cases state.blockedUntil <;> simp
  simp only [alive, Bool.or_eq_false_iff, decide_eq_false_iff_not, hban, Nat.not_lt, Nat.le_zero,
    and_assoc]

theorem alive_cases (h : l.alive now state = true) :
    now.durationSince state.windowStart < l.window ∨ state.Banned now ∨ 0 < state.failures := by
  by_contra! hnot
  obtain ⟨hwindow, hban, hfailures⟩ := hnot
  have hdead : l.alive now state = false :=
    not_alive_iff.mpr ⟨hwindow, fun till htill hlt => hban ⟨till, htill, hlt⟩, by omega⟩
  simp [hdead] at h

end AuthRateLimiter

/-- What a call can do to the entry `entry` of `ip`: it is cleaned up; a ban that is over is
    forgotten; a failure is counted, or leads to a ban. -/
inductive EntryStep (l : AuthRateLimiter) (ip : IpAddr) (e : AuthEvent)
    (entry : Option IpState) : Option IpState → Prop
  | kept (hquiet : ¬ e.Fails ip) : EntryStep l ip e entry (entry.filter (l.alive e.now))
  | unbanned (state : IpState) (hquiet : ¬ e.Fails ip)
      (hstate : entry.filter (l.alive e.now) = some state)
      (hover : ∀ till ∈ state.blockedUntil, ¬ e.now < till) :
      EntryStep l ip e entry (some { state with blockedUntil := none })
  | counted (hfails : e.Fails ip)
      (hlt : (l.current e.now entry).failures + 1 < l.maxFailures) :
      EntryStep l ip e entry (some { l.current e.now entry with
        failures := (l.current e.now entry).failures + 1 })
  | banned (till : Instant) (hfails : e.Fails ip)
      (hge : ¬ (l.current e.now entry).failures + 1 < l.maxFailures)
      (htill : e.now.add (l.ban (AuthRateLimiter.nextLevel (l.current e.now entry).banLevel)) =
        some till) :
      EntryStep l ip e entry (some ⟨0, e.now, some till,
        AuthRateLimiter.nextLevel (l.current e.now entry).banLevel⟩)

namespace AuthTable

open AuthRateLimiter

variable {l : AuthRateLimiter} {s t u : AuthTable} {e : AuthEvent} {es : List AuthEvent}
  {ip : IpAddr} {now : Instant}

def added (l : AuthRateLimiter) (s : AuthTable) (e : AuthEvent) : Option ℕ :=
  match e.call with
  | .isBlocked => none
  | .recordFailure => (l.banDue (l.current e.now (s.states e.ip))).map Duration.nanos

theorem step_eq_none_iff :
    s.step l e = none ↔ ∃ d ∈ added l s e, INSTANT_RANGE ≤ e.now.nanos + d := by
  obtain ⟨call, ip, now⟩ := e
  cases call with
  | isBlocked => simp [step, added]
  | recordFailure =>
    have hstep : s.step l ⟨.recordFailure, ip, now⟩ = none ↔
        l.countFailure now (l.current now (s.states ip)) = none := by
      simp [step, recordFailure, current, cleanupExpired]
    rw [hstep, countFailure_eq_none_iff]
    simp [added, Instant.add_eq_none_iff]

theorem entryStep_isBlocked (hquiet : ¬ e.Fails ip) {state : IpState}
    (hstate : (s.states ip).filter (l.alive e.now) = some state) :
    EntryStep l ip e (s.states ip) (some (blocked e.now state).2) := by
  unfold blocked
  cases hban : state.blockedUntil with
  | none =>
    rw [← hstate]
    exact .kept hquiet
  | some till =>
    dsimp only
    by_cases hlt : e.now < till
    · rw [if_pos hlt, ← hstate]
      exact .kept hquiet
    · rw [if_neg hlt]
      exact .unbanned state hquiet hstate (by simpa [hban] using hlt)

theorem entryStep_of_step (h : s.step l e = some t) (ip : IpAddr) :
    EntryStep l ip e (s.states ip) (t.states ip) := by
  by_cases hip : e.ip = ip
  · subst hip
    obtain ⟨entry, hentry, rfl⟩ := step_iff.mp h
    have hself : Function.update (l.cleanupExpired s.states e.now) e.ip entry e.ip = entry :=
      Function.update_self ..
    show EntryStep l e.ip e (s.states e.ip)
      (Function.update (l.cleanupExpired s.states e.now) e.ip entry e.ip)
    rw [hself]
    cases hcall : e.call with
    | isBlocked =>
      have hquiet : ¬ e.Fails e.ip := by simp [AuthEvent.Fails, hcall]
      rw [hcall] at hentry
      cases hstate : (s.states e.ip).filter (l.alive e.now) with
      | none =>
        rw [hstate] at hentry
        cases hentry
        rw [Option.map_none, ← hstate]
        exact .kept hquiet
      | some state =>
        rw [hstate] at hentry
        cases hentry
        exact entryStep_isBlocked hquiet hstate
    | recordFailure =>
      rw [hcall] at hentry
      obtain ⟨state, hcount, heq⟩ := Option.map_eq_some_iff.mp hentry
      cases heq
      unfold countFailure at hcount
      dsimp only at hcount
      split_ifs at hcount with hlt
      · cases hcount
        exact .counted ⟨hcall, rfl⟩ hlt
      · obtain ⟨till, htill, rfl⟩ := Option.map_eq_some_iff.mp hcount
        exact .banned till ⟨hcall, rfl⟩ hlt htill
  · rw [states_of_other h (Ne.symm hip)]
    exact .kept fun hfails => hip hfails.2

end AuthTable

/-! ## Windows -/

structure Window where
  start : Instant
  count : ℕ
  deriving DecidableEq

namespace Window

variable {l : AuthRateLimiter} {ip : IpAddr} {es : List AuthEvent} {e : AuthEvent}

def current (l : AuthRateLimiter) (now : Instant) (w : Option Window) : Window :=
  match w with
  | some w => if now.durationSince w.start < l.window then w else ⟨now, 0⟩
  | none => ⟨now, 0⟩

def next (l : AuthRateLimiter) (now : Instant) (w : Option Window) : Window :=
  if (current l now w).count + 1 < l.maxFailures then
    ⟨(current l now w).start, (current l now w).count + 1⟩
  else ⟨now, 0⟩

def of (l : AuthRateLimiter) (ip : IpAddr) (es : List AuthEvent) : Option Window :=
  es.foldl (fun w e => if e.call = .recordFailure ∧ e.ip = ip then some (next l e.now w) else w)
    none

theorem of_snoc_fails (h : e.Fails ip) :
    of l ip (es ++ [e]) = some (next l e.now (of l ip es)) := by
  rw [of, List.foldl_append]
  exact if_pos h

theorem of_snoc_quiet (h : ¬ e.Fails ip) : of l ip (es ++ [e]) = of l ip es := by
  rw [of, List.foldl_append]
  exact if_neg h

/-- A failure of `ip` at `now` is the one that fills its window. -/
def Fills (l : AuthRateLimiter) (ip : IpAddr) (es : List AuthEvent) (now : Instant) : Prop :=
  (current l now (of l ip es)).count + 1 = l.maxFailures ∧
    now.durationSince (current l now (of l ip es)).start < l.window

instance (now : Instant) : Decidable (Fills l ip es now) := inferInstanceAs (Decidable (_ ∧ _))

end Window

structure Grounded (l : AuthRateLimiter) (ip : IpAddr) (es : List AuthEvent)
    (state : IpState) : Prop where
  /-- Windows begin with failures. -/
  started : ∃ e ∈ es, e.Fails ip ∧ e.now = state.windowStart
  /-- A ban began no later than the window. -/
  ends : ∀ till ∈ state.blockedUntil,
    till.nanos ≤ state.windowStart.nanos + (l.ban state.banLevel).nanos
  level : state.banLevel < 2 ^ 32

/-- The entry of `ip` behind the calls `es` agrees with its window. The entry is missing only
    if there is nothing to know: no failure is counted, and the window is over. -/
structure Agrees (l : AuthRateLimiter) (ip : IpAddr) (es : List AuthEvent)
    (entry : Option IpState) : Prop where
  window : ∀ state ∈ entry, Window.of l ip es = some ⟨state.windowStart, state.failures⟩
  missing : entry = none → ∀ w ∈ Window.of l ip es, w.count = 0 ∧
    ∃ e ∈ es, ¬ e.now.durationSince w.start < l.window
  grounded : ∀ state ∈ entry, Grounded l ip es state

section Entries

open AuthRateLimiter

variable {l : AuthRateLimiter} {s t : AuthTable} {e : AuthEvent} {es : List AuthEvent}
  {ip : IpAddr} {now till : Instant} {entry entry' : Option IpState} {state : IpState}

theorem Grounded.snoc (h : Grounded l ip es state) (e : AuthEvent) :
    Grounded l ip (es ++ [e]) state := by
  obtain ⟨f, hf, hfails⟩ := h.started
  exact { h with started := ⟨f, List.mem_append_left _ hf, hfails⟩ }

theorem Grounded.rewound (h : Grounded l ip es state) (hnow : ∀ e' ∈ es, e'.now ≤ e.now)
    (hfails : e.Fails ip) (failures : ℕ) :
    Grounded l ip (es ++ [e]) { state with windowStart := e.now, failures := failures } := by
  obtain ⟨f, hf, -, hstart⟩ := h.started
  have hle : state.windowStart.nanos ≤ e.now.nanos := hstart ▸ hnow f hf
  refine ⟨⟨e, by simp, hfails, rfl⟩, fun till htill => ?_, h.level⟩
  exact (h.ends till htill).trans (Nat.add_le_add_right hle _)

namespace Agrees

theorem window_current (h : Agrees l ip es entry) (hnow : ∀ e ∈ es, e.now ≤ now) :
    Window.current l now (Window.of l ip es) =
      ⟨(l.current now entry).windowStart, (l.current now entry).failures⟩ := by
  obtain ⟨state, hstate, hsince, heq⟩ | ⟨state, hstate, hsince, heq⟩ | ⟨hnone, heq⟩ :=
    l.current_cases now entry
  · have hmem := (Option.filter_eq_some_iff.mp hstate).1
    rw [heq, h.window state hmem]
    exact if_pos hsince
  · have hmem := (Option.filter_eq_some_iff.mp hstate).1
    rw [heq, h.window state hmem]
    exact if_neg hsince
  · rw [heq]
    cases hw : Window.of l ip es with
    | none => rfl
    | some w =>
      -- the window is over, whether the entry is cleaned up now or was before
      have hover : ¬ now.durationSince w.start < l.window := by
        cases hentry : entry with
        | none =>
          obtain ⟨-, e, he, hover⟩ := h.missing hentry w hw
          exact Instant.durationSince_not_lt (hnow e he) hover
        | some state =>
          have hdead : l.alive now state = false := by
            simpa [hentry, Option.filter] using hnone
          have hsame := (h.window state hentry).symm.trans hw
          rw [← Option.some.inj hsame]
          exact (not_alive_iff.mp hdead).1
      exact if_neg hover

theorem grounded_current (h : Agrees l ip es entry) (hnow : ∀ e' ∈ es, e'.now ≤ e.now)
    (hfails : e.Fails ip) (failures : ℕ) :
    Grounded l ip (es ++ [e]) { l.current e.now entry with failures := failures } := by
  obtain ⟨state, hstate, -, heq⟩ | ⟨state, hstate, -, heq⟩ | ⟨-, heq⟩ :=
    l.current_cases e.now entry
  · have hground := h.grounded state (Option.filter_eq_some_iff.mp hstate).1
    rw [heq]
    exact ⟨(hground.snoc e).started, hground.ends, hground.level⟩
  · have hground := h.grounded state (Option.filter_eq_some_iff.mp hstate).1
    rw [heq]
    exact hground.rewound hnow hfails failures
  · rw [heq]
    exact ⟨⟨e, by simp, hfails, rfl⟩, by simp [fresh], by simp [fresh]⟩

theorem step (h : Agrees l ip es entry) (hnow : ∀ e' ∈ es, e'.now ≤ e.now)
    (hstep : EntryStep l ip e entry entry') : Agrees l ip (es ++ [e]) entry' := by
  cases hstep with
  | kept hquiet =>
    refine ⟨fun state hstate => ?_, fun hnone w hw => ?_, fun state hstate => ?_⟩
    · rw [Window.of_snoc_quiet hquiet]
      exact h.window state (Option.filter_eq_some_iff.mp hstate).1
    · rw [Window.of_snoc_quiet hquiet] at hw
      cases hentry : entry with
      | none =>
        obtain ⟨hcount, e', he', hover⟩ := h.missing hentry w hw
        exact ⟨hcount, e', List.mem_append_left _ he', hover⟩
      | some state =>
        have hdead : l.alive e.now state = false := by
          simpa [hentry, Option.filter] using hnone
        obtain ⟨hover, -, hzero⟩ := not_alive_iff.mp hdead
        have hsame := (h.window state hentry).symm.trans hw
        rw [← Option.some.inj hsame]
        exact ⟨hzero, e, by simp, hover⟩
    · exact (h.grounded state (Option.filter_eq_some_iff.mp hstate).1).snoc e
  | unbanned state hquiet hstate _ =>
    have hmem := (Option.filter_eq_some_iff.mp hstate).1
    have hground := (h.grounded state hmem).snoc e
    refine ⟨?_, by simp, ?_⟩
    · rintro _ ⟨⟩
      rw [Window.of_snoc_quiet hquiet]
      exact h.window state hmem
    · rintro _ ⟨⟩
      exact ⟨hground.started, by simp, hground.level⟩
  | counted hfails hlt =>
    have hcurrent := h.window_current hnow
    refine ⟨?_, by simp, ?_⟩
    · rintro _ ⟨⟩
      rw [Window.of_snoc_fails hfails, Window.next, hcurrent]
      exact congrArg some (if_pos hlt)
    · rintro _ ⟨⟩
      exact h.grounded_current hnow hfails _
  | banned till hfails hge htill =>
    have hcurrent := h.window_current hnow
    refine ⟨?_, by simp, ?_⟩
    · rintro _ ⟨⟩
      rw [Window.of_snoc_fails hfails, Window.next, hcurrent]
      exact congrArg some (if_neg hge)
    · rintro _ ⟨⟩
      refine ⟨⟨e, by simp, hfails, rfl⟩, ?_, ?_⟩
      · rintro _ ⟨⟩
        exact (Instant.nanos_of_add htill).le
      · show nextLevel _ < 2 ^ 32
        unfold nextLevel
        omega

theorem run (hrun : Run (AuthTable.step l) Any .new es s) (hes : Ordered es) (ip : IpAddr) :
    Agrees l ip es (s.states ip) := by
  induction hrun with
  | nil => exact ⟨by simp [AuthTable.new], by simp [Window.of], by simp [AuthTable.new]⟩
  | @snoc s t es e _ _ hstep ih =>
    obtain ⟨hes, -, hnow⟩ := List.pairwise_append.mp hes
    exact (ih hes).step (fun e' he' => hnow e' he' e (by simp))
      (AuthTable.entryStep_of_step hstep ip)

theorem ban_kept (h : Agrees l ip es (some state)) (hnow : ∀ e' ∈ es, e'.now ≤ e.now)
    (hstep : EntryStep l ip e (some state) entry') (htill : till ∈ state.blockedUntil)
    (hlt : e.now < till) :
    ∃ state' ∈ entry', ∃ till' ∈ state'.blockedUntil, till ≤ till' := by
  have hground := h.grounded state rfl
  have halive : (some state).filter (l.alive e.now) = some state := by
    simp [Option.filter, alive, show state.blockedUntil = some till from htill, hlt]
  -- the failure counts for the entry with the ban, its window begun anew or not
  have hcurrent : (l.current e.now (some state)).blockedUntil = some till ∧
      (l.current e.now (some state)).banLevel = state.banLevel := by
    simp only [current, halive, Option.getD_some, AuthRateLimiter.rewound]
    split_ifs <;> exact ⟨htill, rfl⟩
  cases hstep with
  | kept _ =>
    rw [halive]
    exact ⟨state, rfl, till, htill, Instant.le_refl till⟩
  | unbanned state' _ hstate' hover =>
    rw [halive] at hstate'
    cases hstate'
    exact absurd hlt (hover till htill)
  | counted _ _ => exact ⟨_, rfl, till, hcurrent.1, Instant.le_refl till⟩
  | banned till' _ _ htill' =>
    refine ⟨_, rfl, till', rfl, ?_⟩
    obtain ⟨f, hf, -, hstart⟩ := hground.started
    have hle : state.windowStart.nanos ≤ e.now.nanos := hstart ▸ hnow f hf
    have hban := l.ban_mono (le_nextLevel hground.level)
    rw [hcurrent.2] at htill'
    calc till.nanos ≤ state.windowStart.nanos + (l.ban state.banLevel).nanos :=
          hground.ends till htill
      _ ≤ e.now.nanos + (l.ban (nextLevel state.banLevel)).nanos := Nat.add_le_add hle hban
      _ = till'.nanos := (Instant.nanos_of_add htill').symm

end Agrees

end Entries

/-! ## The lock -/

/-- The table behind its lock. A call that panics poisons the lock (`none`), and every later
    call panics then (`expect`, lines 49, 68); where a panic aborts the process, there is none. -/
abbrev AuthLock := Option AuthTable

namespace AuthLock

open AuthRateLimiter

variable {l : AuthRateLimiter} {s s' t : AuthLock} {table : AuthTable} {e : AuthEvent}
  {es : List AuthEvent} {ip : IpAddr} {now till : Instant} {state : IpState}

def new : AuthLock := some .new

def step (l : AuthRateLimiter) (s : AuthLock) (e : AuthEvent) : Option AuthLock :=
  some (s.bind fun table => table.step l e)

def isBlocked (l : AuthRateLimiter) (s : AuthLock) (now : Instant) (ip : IpAddr) : Option Bool :=
  s.map fun table => (l.isBlocked table.states now ip).1

def bannedUntil (s : AuthLock) (ip : IpAddr) : Option Instant :=
  (s.bind fun table => table.states ip).bind (·.blockedUntil)

/-- The additions to the clock in this call stay in range. -/
def Fits (l : AuthRateLimiter) (s : AuthLock) (e : AuthEvent) : Prop :=
  ∀ table ∈ s, ∀ d ∈ table.added l e, e.now.nanos + d < INSTANT_RANGE

instance (s : AuthLock) (e : AuthEvent) : Decidable (Fits l s e) :=
  inferInstanceAs (Decidable (∀ table ∈ s, ∀ d ∈ AuthTable.added l table e, _ < _))

/-- An address whose failures filled a window is blocked for the time of a first ban. -/
def Enforced (l : AuthRateLimiter) (es : List AuthEvent) (s : AuthLock) : Prop :=
  ∀ (ip : IpAddr) (before after : List AuthEvent) (e : AuthEvent) (now : Instant),
    es = before ++ e :: after → e.Fails ip → Window.Fills l ip before e.now →
    (∀ e' ∈ es, e'.now ≤ now) →
    now.nanos < e.now.nanos + min (l.banBase.nanos * 2) l.banMax.nanos →
    s.isBlocked l now ip = some true

/-- No ban that still runs at `now` ends earlier in `t`. -/
def Unshortened (now : Instant) (s t : AuthLock) : Prop :=
  ∀ (ip : IpAddr), ∀ till ∈ s.bannedUntil ip, now < till → ∃ till' ∈ t.bannedUntil ip, till ≤ till'

theorem step_isSome (h : Fits l (some table) e) : ∃ table', table.step l e = some table' := by
  rw [← Option.ne_none_iff_exists', Ne, AuthTable.step_eq_none_iff]
  rintro ⟨d, hd, hout⟩
  exact absurd (h table rfl d hd) (Nat.not_lt.mpr hout)

theorem exists_table_of_run (hrun : Run (step l) (Fits l) new es s) :
    ∃ table, s = some table ∧ Run (AuthTable.step l) Any .new es table := by
  induction hrun with
  | nil => exact ⟨.new, rfl, .nil _⟩
  | snoc _ hfits hstep ih =>
    obtain ⟨table, rfl, hrun⟩ := ih
    obtain ⟨table', htable'⟩ := step_isSome hfits
    obtain rfl := Option.some.inj hstep
    exact ⟨table', htable', hrun.snoc trivial htable'⟩

/-! ## Isolation of addresses -/

/-- The calls of other addresses do not panic. -/
def OthersFit (l : AuthRateLimiter) (ip : IpAddr) (s : AuthLock) (e : AuthEvent) : Prop :=
  e.ip ≠ ip → Fits l s e

instance (s : AuthLock) (e : AuthEvent) : Decidable (OthersFit l ip s e) :=
  inferInstanceAs (Decidable (_ → _))

/-- At all times of the run `es`, `is_blocked` gives for `ip` what it gives in the run without
    the calls of other addresses: an answer, or a panic. -/
def Isolated (l : AuthRateLimiter) (ip : IpAddr) (es : List AuthEvent) : Prop :=
  ∀ past s, past <+: es → Run (step l) Any new past s →
    ∃ s', Run (step l) Any new (past.filter (·.ip = ip)) s' ∧
      ∀ now, (∀ e ∈ past, e.now ≤ now) → s.isBlocked l now ip = s'.isBlocked l now ip

/-- Both locks are poisoned, or the entries of `ip` differ only by what the next call removes. -/
def Alike (l : AuthRateLimiter) (ip : IpAddr) (now : Instant) : AuthLock → AuthLock → Prop :=
  Option.Rel fun table table' => l.Alike now (table.states ip) (table'.states ip)

theorem Alike.isBlocked_eq (h : Alike l ip now s s') :
    s.isBlocked l now ip = s'.isBlocked l now ip := by
  cases h with
  | none => rfl
  | some hlike =>
    simp only [isBlocked, Option.map_some, isBlocked_fst, hlike now (Instant.le_refl now)]

theorem Alike.own (h : Alike l e.ip e.now s s') (now : Instant) :
    Alike l e.ip now (s.bind fun table => table.step l e)
      (s'.bind fun table => table.step l e) := by
  cases h with
  | none => exact .none
  | some hlike =>
    have hstep := AuthTable.step_alike hlike
    simp only [Option.bind_some]
    generalize AuthTable.step l _ e = t at hstep ⊢
    generalize AuthTable.step l _ e = t' at hstep ⊢
    cases hstep with
    | none => exact .none
    | some hsame => exact .some (hsame ▸ .refl _)

theorem Alike.other (h : Alike l ip e.now s s') (hne : e.ip ≠ ip) (hfits : Fits l s e)
    (hle : e.now ≤ now) : Alike l ip now (s.bind fun table => table.step l e) s' := by
  cases h with
  | none => exact .none
  | @some table table' hlike =>
    obtain ⟨t, ht⟩ := step_isSome hfits
    rw [Option.bind_some, ht]
    refine .some ?_
    rw [AuthTable.states_of_other ht hne.symm]
    exact hlike.cleanup.later hle

theorem exists_run_alike (hrun : Run (step l) (OthersFit l ip) new es s) (hes : Ordered es) :
    ∃ s', Run (step l) Any new (es.filter (·.ip = ip)) s' ∧
      ∀ now, (∀ e ∈ es, e.now ≤ now) → Alike l ip now s s' := by
  induction hrun with
  | nil => exact ⟨new, .nil _, fun _ _ => .some (.refl _)⟩
  | @snoc s t es e _ hothers hstep ih =>
    obtain ⟨hes, -, hnow⟩ := List.pairwise_append.mp hes
    obtain ⟨s', hrun', hlike⟩ := ih hes
    replace hlike := hlike e.now fun e' he' => hnow e' he' e (by simp)
    obtain rfl := Option.some.inj hstep
    rw [List.filter_append]
    by_cases hip : e.ip = ip
    · subst hip
      refine ⟨_, by simpa using hrun'.snoc (by trivial) rfl, fun now _ => ?_⟩
      exact hlike.own now
    · refine ⟨s', by simpa [hip] using hrun', fun now hall => ?_⟩
      exact hlike.other hip (hothers hip) (hall e (by simp))

theorem fits_of_isolated (hrun : Run (step l) Any new es s) (hes : Ordered (es ++ [e]))
    (h : Isolated l ip (es ++ [e])) (hne : e.ip ≠ ip) : Fits l s e := by
  obtain ⟨-, -, hnow⟩ := List.pairwise_append.mp hes
  obtain ⟨s', hrun', hsame⟩ := h es s (List.prefix_append _ _) hrun
  obtain ⟨t', hrun'', hsame'⟩ := h _ _ List.prefix_rfl (hrun.snoc (by trivial) rfl)
  rw [List.filter_append, List.filter_singleton, decide_eq_false hne, cond_false,
    List.append_nil] at hrun''
  cases hrun'.unique hrun''
  replace hsame := hsame e.now fun e' he' => hnow e' he' e (by simp)
  replace hsame' := hsame' e.now fun e' he' => ?_
  · rw [← hsame] at hsame'
    rintro table rfl d hd
    by_contra hout
    have hpanics : table.step l e = none :=
      AuthTable.step_eq_none_iff.mpr ⟨d, hd, Nat.not_lt.mp hout⟩
    simp [isBlocked, hpanics] at hsame'
  · rcases List.mem_append.mp he' with he' | he'
    · exact hnow e' he' e (by simp)
    · rw [List.mem_singleton.mp he']
      exact Instant.le_refl _

/-- In every run at non-decreasing times an address is isolated from all others if and only if
    no call of another address panics, and so poisons the lock. -/
theorem auth_isolation (l : AuthRateLimiter) (ip : IpAddr)
    (hrun : Run (step l) Any new es s) (hes : Ordered es) :
    Isolated l ip es ↔ Run (step l) (OthersFit l ip) new es s := by
  induction hrun with
  | nil =>
    refine ⟨fun _ => .nil _, fun _ past s hpast hrun => ?_⟩
    cases List.prefix_nil.mp hpast
    exact ⟨s, hrun, fun _ _ => rfl⟩
  | @snoc s t es e hrun _ hstep ih =>
    have hes' := (List.pairwise_append.mp hes).1
    rw [hrun.snoc_iff hstep, ← ih hes']
    constructor
    · intro h
      exact ⟨fun past u hpast => h past u (hpast.trans (List.prefix_append _ _)),
        fits_of_isolated hrun hes h⟩
    · rintro ⟨h, hothers⟩ past u hpast hpastrun
      rcases List.prefix_concat_iff.mp hpast with rfl | hpast
      · cases hpastrun.unique (hrun.snoc (C := Any) trivial hstep)
        obtain ⟨s', hrun', hlike⟩ := exists_run_alike (((ih hes').mp h).snoc hothers hstep) hes
        exact ⟨s', hrun', fun now hnow => (hlike now hnow).isBlocked_eq⟩
      · exact h past u hpast hpastrun

theorem auth_isolation_two :
    let l : AuthRateLimiter := ⟨2, .fromSecs 600, .fromSecs 60, .fromSecs 3600⟩
    let a : IpAddr := .v4 (ipv4Addr 203 0 113 1)
    let b : IpAddr := .v4 (ipv4Addr 203 0 113 2)
    let es : List AuthEvent := [⟨.recordFailure, a, .ofSecs 1⟩,
      ⟨.recordFailure, b, .ofSecs 2⟩, ⟨.recordFailure, a, .ofSecs 3⟩,
      ⟨.isBlocked, b, .ofSecs 100⟩]
    ∃ s, Run (step l) (OthersFit l a) new es s ∧ Isolated l a es ∧
      s.isBlocked l (.ofSecs 101) a = some true ∧
      s.isBlocked l (.ofSecs 701) a = some false := by
  intro l a b es
  have hanswers : (exec (step l) (fun s e => decide (OthersFit l a s e)) new es).map (fun s =>
      (s.isBlocked l (.ofSecs 101) a, s.isBlocked l (.ofSecs 701) a)) =
      some (some true, some false) := by decide +kernel
  obtain ⟨s, hexec, hanswers⟩ := Option.map_eq_some_iff.mp hanswers
  obtain ⟨hbanned, hover⟩ := Prod.mk.inj hanswers
  have hrun := exec_run (C := OthersFit l a) (fun s e h => of_decide_eq_true h) hexec
  exact ⟨s, hrun, (auth_isolation l a hrun.any (by decide)).mpr hrun, hbanned, hover⟩

theorem isolation_lost_to_panic :
    let l : AuthRateLimiter :=
      ⟨1, .fromSecs 600, .fromSecs 0x8000000000000000, .fromSecs 0x8000000000000000⟩
    let a : IpAddr := .v4 (ipv4Addr 203 0 113 1)
    let b : IpAddr := .v4 (ipv4Addr 203 0 113 2)
    let es : List AuthEvent := [⟨.recordFailure, b, .ofSecs 1⟩]
    ¬ Isolated l a es ∧ es.filter (·.ip = a) = [] ∧
      new.isBlocked l (.ofSecs 2) a = some false ∧
      ∃ s, Run (step l) Any new es s ∧ s.isBlocked l (.ofSecs 2) a = none := by
  intro l a b es
  have hnone : es.filter (·.ip = a) = [] := by decide
  have hpanic : (exec (step l) (fun _ _ => true) new es).map Option.isNone = some true := by
    decide +kernel
  obtain ⟨s, hexec, hpanic⟩ := Option.map_eq_some_iff.mp hpanic
  obtain rfl := Option.isNone_iff_eq_none.mp hpanic
  have hrun : Run (step l) Any new es none := exec_any hexec
  refine ⟨fun h => ?_, hnone, rfl, none, hrun, rfl⟩
  obtain ⟨s', hrun', hsame⟩ := h es none List.prefix_rfl hrun
  rw [hnone] at hrun'
  cases hrun'.unique (.nil (C := Any) new)
  exact absurd (hsame (.ofSecs 2) (by decide)) (by simp [isBlocked, new])

/-! ## Enforcement -/

theorem isBlocked_of_ban (hstate : table.states ip = some state)
    (htill : till ∈ state.blockedUntil) (hlt : now < till) :
    isBlocked l (some table) now ip = some true := by
  have htill : state.blockedUntil = some till := htill
  have halive : l.cleanupExpired table.states now ip = some state := by
    simp [cleanupExpired, hstate, Option.filter, alive, htill, hlt]
  simp [isBlocked, AuthRateLimiter.isBlocked, halive, blocked, htill, hlt]

theorem banned_of_fills {entry entry' : Option IpState} (h : Agrees l ip es entry)
    (hnow : ∀ e' ∈ es, e'.now ≤ e.now) (hstep : EntryStep l ip e entry entry')
    (hfails : e.Fails ip) (hfills : Window.Fills l ip es e.now) :
    ∃ state ∈ entry', ∃ till ∈ state.blockedUntil,
      e.now.nanos + min (l.banBase.nanos * 2) l.banMax.nanos ≤ till.nanos := by
  have hcount := hfills.1
  rw [h.window_current hnow] at hcount
  cases hstep with
  | kept hquiet => exact absurd hfails hquiet
  | unbanned _ hquiet _ _ => exact absurd hfails hquiet
  | counted _ hlt => exact absurd hcount hlt.ne
  | banned till _ _ htill =>
    refine ⟨_, rfl, till, rfl, ?_⟩
    rw [Instant.nanos_of_add htill]
    exact Nat.add_le_add_left (l.first_ban_le _) _

theorem ban_of_run (hrun : Run (AuthTable.step l) Any .new es table) (hes : Ordered es)
    {before after : List AuthEvent} (hsplit : es = before ++ e :: after) (hfails : e.Fails ip)
    (hfills : Window.Fills l ip before e.now) (hnow : ∀ e' ∈ es, e'.now ≤ now)
    (hlt : now.nanos < e.now.nanos + min (l.banBase.nanos * 2) l.banMax.nanos) :
    ∃ state ∈ table.states ip, ∃ till ∈ state.blockedUntil,
      e.now.nanos + min (l.banBase.nanos * 2) l.banMax.nanos ≤ till.nanos := by
  -- on the calls behind the failure, which all come before the ban is over
  induction hrun generalizing now after with
  | nil => simp at hsplit
  | @snoc s t es e' hrun _ hstep ih =>
    obtain ⟨hes', -, hlast⟩ := List.pairwise_append.mp hes
    have hagrees := Agrees.run hrun hes' ip
    have hlast : ∀ f ∈ es, f.now ≤ e'.now := fun f hf => hlast f hf e' (by simp)
    have hentry := AuthTable.entryStep_of_step hstep ip
    rcases List.eq_nil_or_concat after with rfl | ⟨after, e'', rfl⟩
    · obtain ⟨rfl, rfl⟩ : es = before ∧ e' = e := by simpa using List.append_inj' hsplit rfl
      exact banned_of_fills hagrees hlast hentry hfails hfills
    · obtain ⟨rfl, rfl⟩ : es = before ++ e :: after ∧ e' = e'' := by
        have hcut : es ++ [e'] = (before ++ e :: after) ++ [e''] := by simpa using hsplit
        simpa using List.append_inj' hcut rfl
      have hle : e'.now.nanos ≤ now.nanos := hnow e' (by simp)
      obtain ⟨state, hstate, till, htill, hbound⟩ := ih hes' rfl hlast (by omega)
      have hin : e'.now < till := show e'.now.nanos < till.nanos by omega
      rw [show s.states ip = some state from hstate] at hagrees hentry
      obtain ⟨state', hstate', till', htill', hmore⟩ := hagrees.ban_kept hlast hentry htill hin
      exact ⟨state', hstate', till', htill', Nat.le_trans hbound hmore⟩

/-- In every run at non-decreasing times in which no ban ends beyond the range of `Instant`,
    the failure that fills the window of an address leads to a ban, and no call shortens a
    ban that is in force. -/
theorem ban_enforced (l : AuthRateLimiter) (hrun : Run (step l) (Fits l) new es s)
    (hes : Ordered es) :
    Enforced l es s ∧
      ∀ e t, Fits l s e → step l s e = some t → (∀ e' ∈ es, e'.now ≤ e.now) →
        Unshortened e.now s t := by
  obtain ⟨table, rfl, htable⟩ := exists_table_of_run hrun
  constructor
  · intro ip before after e now hsplit hfails hfills hnow hlt
    obtain ⟨state, hstate, till, htill, hbound⟩ :=
      ban_of_run htable hes hsplit hfails hfills hnow hlt
    exact isBlocked_of_ban hstate htill (Nat.lt_of_lt_of_le hlt hbound)
  · intro e t hfits hstep hnow ip till htill hlt
    obtain ⟨table', htable'⟩ := step_isSome hfits
    obtain rfl : table.step l e = t := Option.some.inj hstep
    obtain ⟨state, hstate, htill⟩ := Option.bind_eq_some_iff.mp htill
    have hagrees := Agrees.run htable hes ip
    have hentry := AuthTable.entryStep_of_step htable' ip
    rw [show table.states ip = some state from hstate] at hagrees hentry
    obtain ⟨state', hstate', till', htill', hmore⟩ := hagrees.ban_kept hnow hentry htill hlt
    refine ⟨till', Option.bind_eq_some_iff.mpr ⟨state', ?_, htill'⟩, hmore⟩
    rw [htable']
    exact hstate'

theorem ban_enforced_two :
    let l : AuthRateLimiter := ⟨2, .fromSecs 600, .fromSecs 60, .fromSecs 3600⟩
    let a : IpAddr := .v4 (ipv4Addr 203 0 113 1)
    let b : IpAddr := .v4 (ipv4Addr 203 0 113 2)
    let es : List AuthEvent := [⟨.recordFailure, a, .ofSecs 1⟩,
      ⟨.recordFailure, b, .ofSecs 2⟩, ⟨.recordFailure, a, .ofSecs 3⟩,
      ⟨.isBlocked, b, .ofSecs 100⟩]
    ∃ s, Run (step l) (Fits l) new es s ∧
      s.isBlocked l (.ofSecs 122) a = some true := by
  intro l a b es
  have hexec : (exec (step l) (fun s e => decide (Fits l s e)) new es).isSome = true := by
    decide +kernel
  obtain ⟨s, hexec⟩ := Option.isSome_iff_exists.mp hexec
  have hrun := exec_run (C := Fits l) (fun s e h => of_decide_eq_true h) hexec
  refine ⟨s, hrun, (ban_enforced l hrun (by decide)).1 a
    [⟨.recordFailure, a, .ofSecs 1⟩, ⟨.recordFailure, b, .ofSecs 2⟩]
    [⟨.isBlocked, b, .ofSecs 100⟩] ⟨.recordFailure, a, .ofSecs 3⟩ _
    rfl ⟨rfl, rfl⟩ (by decide +kernel) (by decide) (by decide)⟩

theorem ban_lost_to_panic :
    let l : AuthRateLimiter :=
      ⟨1, .fromSecs 600, .fromSecs 0x8000000000000000, .fromSecs 0x8000000000000000⟩
    let a : IpAddr := .v4 (ipv4Addr 203 0 113 1)
    let es : List AuthEvent := [⟨.recordFailure, a, .ofSecs 1⟩]
    Window.Fills l a [] (.ofSecs 1) ∧
      ∃ s, Run (step l) Any new es s ∧ ¬ Enforced l es s ∧
        s.isBlocked l (.ofSecs 2) a = none := by
  intro l a es
  have hfills : Window.Fills l a [] (.ofSecs 1) := by decide +kernel
  have hpanic : (exec (step l) (fun _ _ => true) new es).map Option.isNone = some true := by
    decide +kernel
  obtain ⟨s, hexec, hnone⟩ := Option.map_eq_some_iff.mp hpanic
  obtain rfl := Option.isNone_iff_eq_none.mp hnone
  refine ⟨hfills, none, exec_any hexec, fun h => ?_, rfl⟩
  have hblocked := h a [] [] ⟨.recordFailure, a, .ofSecs 1⟩ (.ofSecs 2) rfl
    ⟨rfl, rfl⟩ hfills (by decide) (by decide +kernel)
  simp [isBlocked] at hblocked

end AuthLock

/-! ## What stays in the table -/

/-- `ip` failed within the window before `now`. -/
def Recent (l : AuthRateLimiter) (es : List AuthEvent) (ip : IpAddr) (now : Instant) : Prop :=
  ∃ e ∈ es, e.Fails ip ∧ now.durationSince e.now < l.window

namespace AuthTable

open AuthRateLimiter

variable {l : AuthRateLimiter} {s t : AuthTable} {e : AuthEvent} {es : List AuthEvent}
  {ip : IpAddr} {state : IpState}

theorem recent_snoc (h : ¬ e.Fails ip) {now : Instant} :
    Recent l (es ++ [e]) ip now ↔ Recent l es ip now := by
  simp only [Recent, List.mem_append, List.mem_singleton]
  constructor
  · rintro ⟨f, hf | rfl, hfails, hsince⟩
    · exact ⟨f, hf, hfails, hsince⟩
    · exact absurd hfails h
  · rintro ⟨f, hf, hrest⟩
    exact ⟨f, .inl hf, hrest⟩

theorem entryStep_quiet {entry entry' : Option IpState} (h : EntryStep l ip e entry entry')
    (hquiet : ¬ e.Fails ip) :
    (∀ state' ∈ entry', ∃ state ∈ entry, l.alive e.now state = true ∧
      (state.Banned e.now → state'.Banned e.now)) ∧
    (∀ state ∈ entry, l.alive e.now state = true → ∃ state' ∈ entry',
      state'.failures = state.failures ∧ (state'.Banned e.now → state.Banned e.now)) := by
  cases h with
  | kept _ =>
    constructor
    · intro state hstate
      obtain ⟨hmem, halive⟩ := Option.filter_eq_some_iff.mp hstate
      exact ⟨state, hmem, halive, id⟩
    · intro state hstate halive
      exact ⟨state, Option.filter_eq_some_iff.mpr ⟨hstate, halive⟩, rfl, id⟩
  | unbanned state _ hstate hover =>
    obtain ⟨hmem, halive⟩ := Option.filter_eq_some_iff.mp hstate
    constructor
    · rintro _ ⟨⟩
      refine ⟨state, hmem, halive, ?_⟩
      rintro ⟨till, htill, hlt⟩
      exact absurd hlt (hover till htill)
    · intro state' hstate' _
      obtain rfl : state = state' := Option.some.inj (hmem.symm.trans hstate')
      refine ⟨_, rfl, rfl, ?_⟩
      rintro ⟨till, htill, -⟩
      cases htill
  | counted hfails _ => exact absurd hfails hquiet
  | banned _ hfails _ _ => exact absurd hfails hquiet

/-- Behind a call, the table holds only addresses that failed within the window or are banned,
    apart from the one that the call recorded, if and only if this was so of those addresses
    that had failures on their counter. -/
theorem recent_iff (hrun : Run (step l) Any new es s) (hes : Ordered es)
    (hstep : s.step l e = some t) :
    (∀ ip, ∀ state ∈ t.states ip, ¬ e.Fails ip →
      Recent l (es ++ [e]) ip e.now ∨ state.Banned e.now) ↔
    ∀ ip, ∀ state ∈ s.states ip, ¬ e.Fails ip → 0 < state.failures →
      Recent l es ip e.now ∨ state.Banned e.now := by
  constructor
  · intro h ip state hstate hquiet hpos
    obtain ⟨-, hkept⟩ := entryStep_quiet (entryStep_of_step hstep ip) hquiet
    have halive : l.alive e.now state = true := by simp [alive, hpos]
    obtain ⟨state', hstate', -, hbanned⟩ := hkept state hstate halive
    rcases h ip state' hstate' hquiet with hrecent | hban
    · exact .inl ((recent_snoc hquiet).mp hrecent)
    · exact .inr (hbanned hban)
  · intro h ip state' hstate' hquiet
    obtain ⟨hold, -⟩ := entryStep_quiet (entryStep_of_step hstep ip) hquiet
    obtain ⟨state, hstate, halive, hbanned⟩ := hold state' hstate'
    have hthis : Recent l es ip e.now ∨ state.Banned e.now := by
      rcases alive_cases halive with hwindow | hban | hpos
      · obtain ⟨f, hf, hfails, hstart⟩ := ((Agrees.run hrun hes ip).grounded state hstate).started
        exact .inl ⟨f, hf, hfails, hstart ▸ hwindow⟩
      · exact .inr hban
      · exact h ip state hstate hquiet hpos
    rw [recent_snoc hquiet]
    exact hthis.imp_right hbanned

theorem recent_iff_two :
    let l : AuthRateLimiter := ⟨10, .fromSecs 600, .fromSecs 60, .fromSecs 3600⟩
    let es : List AuthEvent :=
      [⟨.recordFailure, .v4 (ipv4Addr 203 0 113 1), .ofSecs 1⟩]
    let e : AuthEvent := ⟨.isBlocked, .v4 (ipv4Addr 203 0 113 2), .ofSecs 2⟩
    ∃ s t, Run (step l) Any new es s ∧ s.step l e = some t ∧
      ∀ ip, ∀ state ∈ t.states ip, ¬ e.Fails ip →
        Recent l (es ++ [e]) ip e.now ∨ state.Banned e.now := by
  intro l es e
  have hexec : (exec (step l) (fun _ _ => true) new es).isSome = true := by decide +kernel
  obtain ⟨s, hs⟩ := Option.isSome_iff_exists.mp hexec
  have hrun : Run (step l) Any new es s := exec_any hs
  refine ⟨s, _, hrun, rfl, (recent_iff hrun (by decide) rfl).mpr ?_⟩
  intro ip state hstate _ _
  obtain ⟨f, hf, hfails, -⟩ := ((Agrees.run hrun (by decide) ip).grounded state hstate).started
  obtain rfl : f = _ := List.mem_singleton.mp hf
  exact .inl ⟨_, hf, hfails, by decide⟩

/-- An address with a failure on its account keeps it, and its entry, as long as it does not
    fail again, however late the calls of others come. -/
theorem kept_for_ever (hstate : state ∈ s.states ip) (hpos : 0 < state.failures)
    (hrun : Run (step l) Any s es t) (hquiet : ∀ e ∈ es, ¬ e.Fails ip) :
    ∃ state' ∈ t.states ip, state'.failures = state.failures := by
  induction hrun with
  | nil => exact ⟨state, hstate, rfl⟩
  | @snoc t u es e _ _ hstep ih =>
    obtain ⟨state', hstate', hsame⟩ := ih fun e' he' => hquiet e' (by simp [he'])
    obtain ⟨-, hkept⟩ := entryStep_quiet (entryStep_of_step hstep ip) (hquiet e (by simp))
    have halive : l.alive e.now state' = true := by simp [alive, hsame, hpos]
    obtain ⟨state'', hstate'', hsame', -⟩ := hkept state' hstate' halive
    exact ⟨state'', hstate'', hsame'.trans hsame⟩

theorem kept_for_ever_century :
    let l : AuthRateLimiter := ⟨10, .fromSecs 600, .fromSecs 60, .fromSecs 3600⟩
    let a : IpAddr := .v4 (ipv4Addr 203 0 113 1)
    let e : AuthEvent := ⟨.isBlocked, .v4 (ipv4Addr 203 0 113 2), .ofSecs 3153600000⟩
    ∃ s t, Run (step l) Any s [e] t ∧ ∃ state' ∈ t.states a, state'.failures = 1 := by
  intro l a e
  let state : IpState := ⟨1, .ofSecs 1, none, 0⟩
  let s : AuthTable := ⟨fun ip => if ip = a then some state else none⟩
  have hrun : Run (step l) Any s [e] _ := Run.single trivial rfl
  have hquiet : ∀ e' ∈ [e], ¬ e'.Fails a := by simp [AuthEvent.Fails, e]
  have hstate : state ∈ s.states a := by simp [s]
  exact ⟨s, _, hrun, kept_for_ever hstate (by decide) hrun hquiet⟩

theorem kept_for_a_year :
    let l : AuthRateLimiter := ⟨10, .fromSecs 600, .fromSecs 60, .fromSecs 3600⟩
    let a : IpAddr := .v4 (ipv4Addr 203 0 113 1)
    let b : IpAddr := .v4 (ipv4Addr 203 0 113 2)
    let es : List AuthEvent := [⟨.recordFailure, a, .ofSecs 1⟩]
    let e : AuthEvent := ⟨.isBlocked, b, .ofSecs 31536000⟩
    ∃ s t, Run (step l) Any new es s ∧ s.step l e = some t ∧
      ∃ state ∈ t.states a, ¬ Recent l (es ++ [e]) a e.now ∧ ¬ state.Banned e.now := by
  intro l a b es e
  have hkept : ((exec (step l) (fun _ _ => true) new es).bind fun s => s.step l e).bind
      (fun t => t.states a) = some ⟨1, .ofSecs 1, none, 0⟩ := by decide +kernel
  obtain ⟨t, ht, hstate⟩ := Option.bind_eq_some_iff.mp hkept
  obtain ⟨s, hs, hstep⟩ := Option.bind_eq_some_iff.mp ht
  refine ⟨s, t, exec_any hs, hstep, _, hstate, ?_, ?_⟩
  · rintro ⟨f, hf, hfails, hsince⟩
    obtain rfl | rfl : f = _ ∨ f = e := by simpa [es] using hf
    · exact absurd hsince (by decide)
    · exact absurd hfails.1 (by simp [e])
  · rintro ⟨till, htill, -⟩
    cases htill

end AuthTable

end SkadiCore.Server
