import SkadiCore.Config.Validate
import SkadiCore.Server.AuthBans

/-!
# Escalation of bans

What becomes of the ban level (`crates/skadi-server/src/auth_rate_limit.rs`, lines 87-98) of an
address that fails again the moment its ban is over. The limiter behind its lock is watched:
`Watch` notes the bans of one address.

The level lives in the entry. When the ban is over, the entry is kept only because its window
is not, and this window began with the ban. So the level is carried to the next ban if the
ban was shorter than the window, and is forgotten otherwise (`carried`).

* `Good.step`: the `k`-th ban has the level that this rule gives it, `levelOf l k`.
* `Counted.step`: every `max_failures` failures lead to a ban.

**Defect.** With the default configuration the fourth ban is longer than the window, and the
fifth one is as short as the first (`escalation_reset`).
-/

namespace SkadiCore.Server

/-! ## The levels of consecutive bans -/

namespace AuthRateLimiter

variable {l : AuthRateLimiter} {k : ℕ}

/-- The level that a failure at the end of a ban of level `level` finds (lines 78-82, 108-114). -/
def carried (l : AuthRateLimiter) (level : ℕ) : ℕ :=
  if (l.ban level).nanos < l.window.nanos then level else 0

/-- The level of the `k`-th ban. -/
def levelOf (l : AuthRateLimiter) : ℕ → ℕ
  | 0 => 0
  | k + 1 => nextLevel (l.carried (levelOf l k))

theorem ban_min (l : AuthRateLimiter) (k : ℕ) :
    (l.ban (min k (2 ^ 32 - 1))).nanos = min (l.banBase.nanos * 2 ^ min k 10) l.banMax.nanos := by
  have hlevel : min (min k (2 ^ 32 - 1)) 10 = min k 10 := by omega
  rw [nanos_ban, hlevel]

theorem levelOf_of_lt (h : ∀ j, 1 ≤ j → j < k → (l.ban j).nanos < l.window.nanos) :
    l.levelOf k = min k (2 ^ 32 - 1) := by
  induction k with
  | zero => rfl
  | succ k ih =>
    have hlevel := ih fun j hj hlt => h j hj (by omega)
    have hcarried : l.carried (l.levelOf k) = l.levelOf k := by
      rcases Nat.eq_zero_or_pos k with rfl | hpos
      · exact ite_self 0
      · have hban := h k hpos (by omega)
        rw [nanos_ban, ← ban_min, ← hlevel] at hban
        exact if_pos hban
    show nextLevel (l.carried (l.levelOf k)) = _
    rw [hcarried, hlevel, nextLevel]
    omega

theorem levelOf_le {j : ℕ} (hj : 1 ≤ j) (hlong : ¬ (l.ban j).nanos < l.window.nanos) (k : ℕ) :
    l.levelOf k ≤ j := by
  induction k with
  | zero => exact Nat.zero_le j
  | succ k ih =>
    show min (l.carried (l.levelOf k) + 1) _ ≤ j
    rcases Nat.eq_or_lt_of_le ih with heq | hlt
    · have hcarried : l.carried (l.levelOf k) = 0 := by
        rw [heq]
        exact if_neg hlong
      omega
    · have hcarried : l.carried (l.levelOf k) ≤ l.levelOf k := by
        unfold carried
        split_ifs <;> omega
      omega

theorem levelOf_eq_iff : l.levelOf k = min k (2 ^ 32 - 1) ↔
    ∀ j, 1 ≤ j → j < k → (l.ban j).nanos < l.window.nanos := by
  refine ⟨fun h j hj hlt => ?_, levelOf_of_lt⟩
  by_contra hlong
  -- from level 10 on all bans are alike, so that one of the first ten is too long already
  have hsame : (l.ban (min j 10)).nanos = (l.ban j).nanos := by
    rw [nanos_ban, nanos_ban, show min (min j 10) 10 = min j 10 by omega]
  have hle := levelOf_le (j := min j 10) (by omega) (hsame ▸ hlong) k
  omega

/-! ## The level of the entry -/

variable {now till : Instant} {state : IpState} {entry : Option IpState} {failures : ℕ}

theorem banLevel_rewound : (l.rewound now state).banLevel = state.banLevel := by
  unfold rewound
  split_ifs <;> rfl

theorem current_filter {t : Instant} (h : t ≤ now) :
    l.current now (entry.filter (l.alive t)) = l.current now entry := by
  rw [current, filter_alive_alive h]
  rfl

theorem banLevel_unbanned (hover : ∀ till ∈ state.blockedUntil, ¬ now < till) :
    (l.current now (some { state with blockedUntil := none })).banLevel =
      (l.current now (some state)).banLevel := by
  have halive : l.alive now { state with blockedUntil := none } = l.alive now state := by
    cases hban : state.blockedUntil with
    | none => simp [alive, hban]
    | some till => simp [alive, hban, hover till hban]
  simp only [current, banLevel_rewound, Option.filter, halive]
  split_ifs <;> rfl

theorem banLevel_counted :
    (l.current now (some { state with failures := failures + 1 })).banLevel = state.banLevel := by
  simp [current, banLevel_rewound, Option.filter, alive]

theorem banLevel_banned {level : ℕ} (htill : now.add (l.ban level) = some till) :
    (l.current till (some ⟨0, now, some till, level⟩)).banLevel = l.carried level := by
  have hsince : till.durationSince now < l.window ↔ (l.ban level).nanos < l.window.nanos := by
    show till.nanos - now.nanos < l.window.nanos ↔ _
    rw [Instant.nanos_of_add htill, Nat.add_sub_cancel_left]
  have hover : ¬ till < till := Nat.lt_irrefl till.nanos
  by_cases hlt : (l.ban level).nanos < l.window.nanos
  · simp [current, banLevel_rewound, Option.filter, alive, hsince, hlt, carried]
  · simp [current, banLevel_rewound, Option.filter, alive, hsince, hlt, carried, hover, fresh]

/-! ## The failures of the entry -/

theorem since_current (hwindow : 0 < l.window.nanos) (now : Instant) (entry : Option IpState) :
    now.durationSince (l.current now entry).windowStart < l.window := by
  have hself : now.durationSince now < l.window := by
    show now.nanos - now.nanos < l.window.nanos
    rwa [Nat.sub_self]
  obtain ⟨state, -, hsince, heq⟩ | ⟨state, -, -, heq⟩ | ⟨-, heq⟩ := l.current_cases now entry <;>
    rw [heq]
  · exact hsince
  · exact hself
  · exact hself

theorem failures_current (h : ∀ state ∈ entry, 0 < state.failures →
      now.durationSince state.windowStart < l.window) :
    (l.current now entry).failures = entry.elim 0 (·.failures) := by
  obtain ⟨state, hstate, -, heq⟩ | ⟨state, hstate, hsince, heq⟩ | ⟨hnone, heq⟩ :=
    l.current_cases now entry
  · obtain rfl := (Option.filter_eq_some_iff.mp hstate).1
    rw [heq]
    rfl
  · obtain rfl := (Option.filter_eq_some_iff.mp hstate).1
    rw [heq]
    exact (Nat.eq_zero_of_not_pos fun hpos => hsince (h state rfl hpos)).symm
  · rw [heq]
    cases entry with
    | none => rfl
    | some state =>
      have hdead : l.alive now state = false := by simpa [Option.filter] using hnone
      exact (not_alive_iff.mp hdead).2.2.symm

theorem failures_filter (now : Instant) (entry : Option IpState) :
    (entry.filter (l.alive now)).elim 0 (·.failures) = entry.elim 0 (·.failures) := by
  cases entry with
  | none => rfl
  | some state =>
    cases halive : l.alive now state with
    | true => simp [Option.filter, halive]
    | false => simp [Option.filter, halive, (not_alive_iff.mp halive).2.2]

end AuthRateLimiter

/-! ## The bans of an address -/

structure Ban where
  start : Instant
  till : Instant
  level : ℕ
  deriving DecidableEq

structure Watch where
  lock : AuthLock
  bans : List Ban

namespace Watch

open AuthRateLimiter

variable {l : AuthRateLimiter} {w : Watch} {table table' : AuthTable} {bans : List Ban}
  {e : AuthEvent} {es : List AuthEvent} {ip : IpAddr} {k : ℕ}

def new : Watch := ⟨.new, []⟩

/-- The ban that a failure has led to: `record_failure` resets the counter (line 89) and sets
    the end of the ban (line 98). -/
def newBan (now : Instant) (state : IpState) : Option Ban :=
  if state.failures = 0 then state.blockedUntil.map fun till => ⟨now, till, state.banLevel⟩
  else none

def noted (ip : IpAddr) (bans : List Ban) (e : AuthEvent) (lock : AuthLock) : List Ban :=
  if e.call = .recordFailure ∧ e.ip = ip then
    bans ++ ((lock.bind fun table => table.states ip).bind (newBan e.now)).toList
  else bans

def step (l : AuthRateLimiter) (ip : IpAddr) (w : Watch) (e : AuthEvent) : Option Watch :=
  (AuthLock.step l w.lock e).map fun lock => ⟨lock, noted ip w.bans e lock⟩

/-- The address fails at the moment its last ban is over; before its first ban, within the
    window that its first failure began. -/
def Immediate (l : AuthRateLimiter) (ip : IpAddr) (w : Watch) (e : AuthEvent) : Prop :=
  e.call = .recordFailure ∧ e.ip = ip →
    (∀ b ∈ w.bans.getLast?, e.now = b.till) ∧
    (w.bans = [] → ∀ table ∈ w.lock, ∀ state ∈ table.states ip,
      e.now.durationSince state.windowStart < l.window)

/-- Moreover no ban, of this address or another, ends out of the range of `Instant`. -/
def Escalating (l : AuthRateLimiter) (ip : IpAddr) (w : Watch) (e : AuthEvent) : Prop :=
  Immediate l ip w e ∧ AuthLock.Fits l w.lock e

instance (w : Watch) (e : AuthEvent) : Decidable (Immediate l ip w e) :=
  inferInstanceAs (Decidable (_ → _ ∧ (_ → ∀ table ∈ w.lock, ∀ state ∈ table.states ip, _ < _)))

instance (w : Watch) (e : AuthEvent) : Decidable (Escalating l ip w e) :=
  inferInstanceAs (Decidable (_ ∧ _))

def failuresOf (ip : IpAddr) (es : List AuthEvent) : List AuthEvent :=
  es.filter fun e => e.call = .recordFailure ∧ e.ip = ip

/-! ## Levels -/

structure Good (l : AuthRateLimiter) (ip : IpAddr) (es : List AuthEvent) (table : AuthTable)
    (bans : List Ban) : Prop where
  each : ∀ k b, bans[k]? = some b → b.level = l.levelOf (k + 1) ∧
    b.till.nanos = b.start.nanos + (l.ban b.level).nanos
  next : ∀ now, (∀ e ∈ es, e.now ≤ now) → (∀ b ∈ bans.getLast?, now = b.till) →
    (l.current now (table.states ip)).banLevel = l.carried (l.levelOf bans.length)

theorem Good.bans_snoc (h : Good l ip es table bans) {start till : Instant}
    (htill : start.add (l.ban (l.levelOf (bans.length + 1))) = some till) (k : ℕ) (b : Ban)
    (hb : (bans ++ [⟨start, till, l.levelOf (bans.length + 1)⟩])[k]? = some b) :
    b.level = l.levelOf (k + 1) ∧ b.till.nanos = b.start.nanos + (l.ban b.level).nanos := by
  rw [List.getElem?_append] at hb
  split_ifs at hb with hlt
  · exact h.each k b hb
  · rw [List.getElem?_singleton, Option.ite_none_right_eq_some] at hb
    obtain ⟨hk, heq⟩ := hb
    obtain rfl : k = bans.length := by omega
    rw [← Option.some.inj heq]
    exact ⟨rfl, Instant.nanos_of_add htill⟩

theorem Good.of_same (h : Good l ip es table bans)
    (hsame : noted ip bans e (some table') = bans)
    (hnext : ∀ now, (∀ e' ∈ es, e'.now ≤ now) → e.now ≤ now →
      (∀ b ∈ bans.getLast?, now = b.till) →
      (l.current now (table'.states ip)).banLevel = l.carried (l.levelOf bans.length)) :
    Good l ip (es ++ [e]) table' (noted ip bans e (some table')) := by
  rw [hsame]
  refine ⟨h.each, fun now hall hlast => hnext now (fun e' he' => ?_) ?_ hlast⟩
  · exact hall e' (List.mem_append_left _ he')
  · exact hall e (List.mem_append_right _ (List.mem_singleton_self e))

theorem noted_counted {failures : ℕ} {state : IpState}
    (hafter : table'.states ip = some { state with failures := failures + 1 }) :
    noted ip bans e (some table') = bans := by
  simp [noted, hafter, newBan]

theorem noted_banned {till : Instant} {level : ℕ} (hfails : e.Fails ip)
    (hafter : table'.states ip = some ⟨0, e.now, some till, level⟩) :
    noted ip bans e (some table') = bans ++ [⟨e.now, till, level⟩] := by
  simp only [noted, hfails.1, hfails.2, and_self, if_true, Option.bind_some, hafter]
  rfl

theorem Good.step (h : Good l ip es table bans) (hnow : ∀ e' ∈ es, e'.now ≤ e.now)
    (himm : e.Fails ip → ∀ b ∈ bans.getLast?, e.now = b.till)
    (hstep : table.step l e = some table') :
    Good l ip (es ++ [e]) table' (noted ip bans e (some table')) := by
  have hentry := AuthTable.entryStep_of_step hstep ip
  generalize hafter : table'.states ip = after at hentry
  cases hentry with
  | kept hquiet =>
    refine h.of_same (if_neg hquiet) fun now hall hle hlast => ?_
    rw [hafter, current_filter hle]
    exact h.next now hall hlast
  | unbanned state hquiet hstate hover =>
    refine h.of_same (if_neg hquiet) fun now hall hle hlast => ?_
    rw [hafter, banLevel_unbanned fun till htill => Instant.not_lt_of_le hle (hover till htill),
      ← hstate, current_filter hle]
    exact h.next now hall hlast
  | counted hfails _ =>
    refine h.of_same (noted_counted hafter) fun now _ _ _ => ?_
    rw [hafter, banLevel_counted]
    exact h.next e.now hnow (himm hfails)
  | banned till hfails _ htill =>
    have hlevel := h.next e.now hnow (himm hfails)
    rw [hlevel] at htill hafter
    rw [noted_banned hfails hafter]
    refine ⟨h.bans_snoc htill, fun now _ hlast => ?_⟩
    obtain rfl : now = till := hlast _ List.getLast?_concat
    rw [hafter, List.length_append]
    exact banLevel_banned htill

/-! ## Bans come about -/

structure Counted (l : AuthRateLimiter) (ip : IpAddr) (es : List AuthEvent) (table : AuthTable)
    (bans : List Ban) : Prop where
  total : bans.length * l.maxFailures + (table.states ip).elim 0 (·.failures) =
    (failuresOf ip es).length
  inside : ∀ state ∈ table.states ip, 0 < state.failures →
    ∀ b ∈ bans.getLast?, b.till.durationSince state.windowStart < l.window

theorem failuresOf_fails (h : e.Fails ip) :
    (failuresOf ip (es ++ [e])).length = (failuresOf ip es).length + 1 := by
  have hthis : decide (e.call = .recordFailure ∧ e.ip = ip) = true := decide_eq_true h
  simp only [failuresOf, List.filter_append, List.filter_singleton, hthis, cond_true,
    List.length_append, List.length_singleton]

theorem failuresOf_quiet (h : ¬ e.Fails ip) : failuresOf ip (es ++ [e]) = failuresOf ip es := by
  have hthis : decide (e.call = .recordFailure ∧ e.ip = ip) = false := decide_eq_false h
  simp only [failuresOf, List.filter_append, List.filter_singleton, hthis, cond_false,
    List.append_nil]

/-- No failure is lost: where some are on the counter, their window is not over. -/
theorem Counted.current (h : Counted l ip es table bans) (hfails : e.Fails ip)
    (himm : Immediate l ip ⟨some table, bans⟩ e) :
    (l.current e.now (table.states ip)).failures = (table.states ip).elim 0 (·.failures) := by
  obtain ⟨hlast, hfirst⟩ := himm hfails
  refine failures_current fun state hstate hpos => ?_
  cases hb : bans.getLast? with
  | none => exact hfirst (List.getLast?_eq_none_iff.mp hb) table rfl state hstate
  | some b =>
    rw [hlast b hb]
    exact h.inside state hstate hpos b hb

theorem Counted.step (h : Counted l ip es table bans) (hwindow : 0 < l.window.nanos)
    (hbelow : l.BelowLimit (table.states ip)) (hmax : 0 < l.maxFailures)
    (himm : Immediate l ip ⟨some table, bans⟩ e) (hstep : table.step l e = some table') :
    Counted l ip (es ++ [e]) table' (noted ip bans e (some table')) := by
  have hentry := AuthTable.entryStep_of_step hstep ip
  generalize hafter : table'.states ip = after at hentry
  cases hentry with
  | kept hquiet =>
    rw [show noted ip bans e (some table') = bans from if_neg hquiet]
    refine ⟨?_, fun state hstate => ?_⟩
    · rw [hafter, failures_filter, failuresOf_quiet hquiet]
      exact h.total
    · rw [hafter] at hstate
      exact h.inside state (Option.filter_eq_some_iff.mp hstate).1
  | unbanned state hquiet hstate _ =>
    have hmem : table.states ip = some state := (Option.filter_eq_some_iff.mp hstate).1
    rw [show noted ip bans e (some table') = bans from if_neg hquiet]
    refine ⟨?_, ?_⟩
    · rw [hafter, failuresOf_quiet hquiet, ← h.total, hmem]
      rfl
    · rw [hafter]
      rintro _ ⟨⟩
      exact h.inside state hmem
  | counted hfails _ =>
    have hcurrent := h.current hfails himm
    rw [noted_counted hafter]
    refine ⟨?_, ?_⟩
    · rw [hafter, failuresOf_fails hfails, ← h.total, ← hcurrent]
      rfl
    · rw [hafter]
      rintro _ ⟨⟩ - b hb
      rw [← (himm hfails).1 b hb]
      exact since_current hwindow e.now _
  | banned till hfails hge _ =>
    have hcurrent := h.current hfails himm
    have hlt : (table.states ip).elim 0 (·.failures) < l.maxFailures := by
      cases hentry : table.states ip with
      | none => exact hmax
      | some state => exact hbelow state hentry
    rw [noted_banned hfails hafter]
    refine ⟨?_, ?_⟩
    · rw [hafter, failuresOf_fails hfails, ← h.total, ← hcurrent, List.length_append,
        Nat.add_mul]
      show _ + 1 * l.maxFailures + 0 = _
      omega
    · rw [hafter]
      rintro _ ⟨⟩ hpos
      exact absurd hpos (Nat.lt_irrefl 0)

theorem inv_run (hmax : 0 < l.maxFailures) (hwindow : 0 < l.window.nanos)
    (hrun : Run (Watch.step l ip) (Escalating l ip) new es w) (hes : Ordered es) :
    ∃ table, w.lock = some table ∧ Run (AuthTable.step l) Any .new es table ∧
      Good l ip es table w.bans ∧ Counted l ip es table w.bans := by
  induction hrun with
  | nil =>
    refine ⟨.new, rfl, .nil _, ⟨by simp [new], fun now _ _ => ?_⟩,
      by simp [new, AuthTable.new, failuresOf], by simp [AuthTable.new]⟩
    show (l.current now none).banLevel = l.carried 0
    rw [AuthRateLimiter.current, banLevel_rewound]
    exact (ite_self 0).symm
  | @snoc w w' es e _ hC hstep ih =>
    obtain ⟨hes, -, hnow⟩ := List.pairwise_append.mp hes
    obtain ⟨table, hlock, htable, hgood, hcounted⟩ := ih hes
    obtain ⟨lock, bans⟩ := w
    subst hlock
    obtain ⟨table', htable'⟩ := AuthLock.step_isSome hC.2
    have hw' : (⟨some table', noted ip bans e (some table')⟩ : Watch) = w' := by
      simpa [Watch.step, AuthLock.step, htable'] using hstep
    subst hw'
    refine ⟨table', rfl, htable.snoc trivial htable', ?_, ?_⟩
    · exact hgood.step (fun e' he' => hnow e' he' e (by simp)) (fun h => (hC.1 h).1) htable'
    · exact hcounted.step hwindow (AuthTable.failures_lt_run hmax htable ip) hmax hC.1 htable'

/-- In every run at non-decreasing times in which an address fails again the moment its ban is
    over, and no ban ends out of range: once it has failed `k * max_failures` times there is a
    `k`-th ban, and this has the duration and the level of a `k`-th ban if and only if all bans
    of lower levels are shorter than the window. -/
theorem escalates_iff (l : AuthRateLimiter) (hmax : 0 < l.maxFailures)
    (hwindow : 0 < l.window.nanos) (hrun : Run (step l ip) (Escalating l ip) new es w)
    (hes : Ordered es) (hk : 1 ≤ k) (hcount : k * l.maxFailures ≤ (failuresOf ip es).length) :
    ∃ b, w.bans[k - 1]? = some b ∧
      ((b.till.nanos = b.start.nanos + min (l.banBase.nanos * 2 ^ min k 10) l.banMax.nanos ∧
        b.level = min k (2 ^ 32 - 1)) ↔
      ∀ j, 1 ≤ j → j < k →
        min (l.banBase.nanos * 2 ^ min j 10) l.banMax.nanos < l.window.nanos) := by
  obtain ⟨table, -, htable, hgood, hcounted⟩ := inv_run hmax hwindow hrun hes
  have hbans : k ≤ w.bans.length := by
    have hlt : (table.states ip).elim 0 (·.failures) < l.maxFailures := by
      cases hentry : table.states ip with
      | none => exact hmax
      | some state => exact AuthTable.failures_lt_run hmax htable ip state hentry
    have htotal := hcounted.total
    have hprod : k * l.maxFailures < (w.bans.length + 1) * l.maxFailures := by
      rw [Nat.add_mul]
      omega
    exact Nat.lt_succ_iff.mp (Nat.lt_of_mul_lt_mul_right hprod)
  obtain ⟨b, hb⟩ : ∃ b, w.bans[k - 1]? = some b :=
    ⟨_, List.getElem?_eq_getElem (by omega : k - 1 < w.bans.length)⟩
  obtain ⟨hlevel, htill⟩ := hgood.each (k - 1) b hb
  rw [Nat.sub_add_cancel hk] at hlevel
  refine ⟨b, hb, ?_⟩
  simp only [← nanos_ban]
  rw [← levelOf_eq_iff, ← hlevel]
  refine ⟨And.right, fun hmin => ⟨?_, hmin⟩⟩
  rw [htill, hmin, ban_min, nanos_ban]

def burst (ip : IpAddr) (now : Instant) : List AuthEvent :=
  List.replicate 10 ⟨.recordFailure, ip, now⟩

theorem escalates_iff_two :
    let l : AuthRateLimiter := ⟨10, .fromSecs 600, .fromSecs 60, .fromSecs 3600⟩
    let a : IpAddr := .v4 (ipv4Addr 203 0 113 1)
    ∃ es w b, Run (step l a) (Escalating l a) new es w ∧ w.bans[1]? = some b ∧
      b.till.nanos = b.start.nanos + 240 * NANOS_PER_SEC ∧ b.level = 2 := by
  intro l a
  let es := burst a (.ofSecs 1) ++ burst a (.ofSecs 121)
  have hexec : (exec (step l a) (fun w e => decide (Escalating l a w e)) new es).isSome = true := by
    decide +kernel
  obtain ⟨w, hexec⟩ := Option.isSome_iff_exists.mp hexec
  have hrun := exec_run (C := Escalating l a) (fun w e h => of_decide_eq_true h) hexec
  have hshort (j : ℕ) (hj : 1 ≤ j) (hlt : j < 2) :
      min (l.banBase.nanos * 2 ^ min j 10) l.banMax.nanos < l.window.nanos := by
    obtain rfl : j = 1 := by omega
    decide
  have hban : min (l.banBase.nanos * 2 ^ min 2 10) l.banMax.nanos = 240 * NANOS_PER_SEC := by
    decide
  obtain ⟨b, hb, hiff⟩ := escalates_iff (k := 2) l (by decide) (by decide) hrun
    (by decide +kernel) (by decide) (by decide)
  obtain ⟨htill, hlevel⟩ := hiff.mpr hshort
  exact ⟨es, w, b, hrun, hb, hban ▸ htill, hlevel.trans (by decide)⟩

theorem escalation_reset :
    let config : Config :=
      { protocol := { Config.defaultProtocol with socks5Enabled := true } }
    let a : IpAddr := .v4 (ipv4Addr 203 0 113 1)
    (∀ env, config.validate env = .ok ()) ∧
      ∃ l es w b, fromConfig config.server.authRateLimit = some l ∧
        Run (step l a) (Escalating l a) new es w ∧ Ordered es ∧ w.bans[4]? = some b ∧
        b.till.nanos = b.start.nanos + 120 * NANOS_PER_SEC ∧ b.level = 1 ∧
        min (l.banBase.nanos * 2 ^ min 5 10) l.banMax.nanos = 1920 * NANOS_PER_SEC := by
  intro config a
  let l : AuthRateLimiter := ⟨10, .fromSecs 600, .fromSecs 60, .fromSecs 3600⟩
  let es := burst a (.ofSecs 1) ++ burst a (.ofSecs 121) ++
    burst a (.ofSecs 361) ++ burst a (.ofSecs 841) ++
    burst a (.ofSecs 1801)
  have hbans : (exec (step l a) (fun w e => decide (Escalating l a w e)) new es).bind
      (fun w => w.bans[4]?) = some ⟨.ofSecs 1801, .ofSecs 1921, 1⟩ := by
    decide +kernel
  obtain ⟨w, hexec, hb⟩ := Option.bind_eq_some_iff.mp hbans
  have hrun := exec_run (C := Escalating l a) (fun w e h => of_decide_eq_true h) hexec
  exact ⟨Config.validate_default, l, es, w, _, rfl, hrun, by decide +kernel, hb, by decide, rfl,
    by decide⟩

end Watch

end SkadiCore.Server
