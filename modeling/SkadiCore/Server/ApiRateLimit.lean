import SkadiCore.Common.FixedWindow
import SkadiCore.Common.Run
import SkadiCore.Common.Time

/-!
# The rate limit of the API

Model of `crates/skadi-server/src/api/rate_limit.rs`. The limiter has one window of a second,
which a call restarts if it finds it expired. A call holds the lock from the reading of the
clock to its end, so a run is a sequence of calls at non-decreasing times.

**Abstraction.** No call panics while it holds the lock, so the lock is never poisoned, and the
answer `rate limiter unavailable` does not appear.
-/

namespace SkadiCore.Server

structure WindowState where
  start : Instant
  count : ℕ
  deriving DecidableEq

structure ApiRateLimiter where
  limit : UInt32
  window : Duration

inductive RateStatus
  | resourceExhausted (message : String)
  deriving DecidableEq

namespace ApiRateLimiter

/-- `new` (lines 25-37), called at `now`. -/
def new (limitPerSec : Option UInt32) (now : Instant) : Option (ApiRateLimiter × WindowState) :=
  (limitPerSec.filter (0 < ·)).map fun limit => (⟨limit, .fromSecs 1⟩, ⟨now, 0⟩)

def rewound (l : ApiRateLimiter) (guard : WindowState) (now : Instant) : WindowState :=
  if now.durationSince guard.start < l.window then guard else ⟨now, 0⟩

/-- `check` (lines 39-55): the answer, and the state behind it. -/
def check (l : ApiRateLimiter) (guard : WindowState) (now : Instant) :
    Except RateStatus Unit × WindowState :=
  let guard := l.rewound guard now
  if l.limit.toNat ≤ guard.count then (.error (.resourceExhausted "rate limit exceeded"), guard)
  else (.ok (), { guard with count := guard.count + 1 })

end ApiRateLimiter

/-! ## Runs -/

structure ApiCalls where
  guard : WindowState
  clock : Instant
  admitted : List Instant

namespace ApiCalls

variable {l : ApiRateLimiter} {s t : ApiCalls} {now : Instant}

def step (l : ApiRateLimiter) (s : ApiCalls) (now : Instant) : Option ApiCalls :=
  if s.clock ≤ now then
    let (answer, guard) := l.check s.guard now
    some ⟨guard, now, s.admitted ++ if answer.isOk then [now] else []⟩
  else none

def okSince (s : ApiCalls) (start : Instant) : ℕ :=
  s.admitted.countP (start ≤ ·)

def okWithin (s : ApiCalls) (a : ℕ) : ℕ :=
  s.admitted.countP fun t => a ≤ t.nanos ∧ t.nanos < a + NANOS_PER_SEC

/-- The invariant: the last call found its window current, the counter counts the calls of
    the window, and the calls keep to what fixed windows allow. -/
structure Inv (l : ApiRateLimiter) (s : ApiCalls) : Prop where
  started : s.guard.start ≤ s.clock
  current : s.clock.nanos < s.guard.start.nanos + NANOS_PER_SEC
  past : ∀ t ∈ s.admitted, t ≤ s.clock
  counted : s.okSince s.guard.start = s.guard.count
  windows : FixedWindow NANOS_PER_SEC l.limit.toNat s.guard.start.nanos
    (s.admitted.map Instant.nanos)

theorem okSince_eq (s : ApiCalls) (start : Instant) :
    s.okSince start = (s.admitted.map Instant.nanos).countP (start.nanos ≤ ·) := by
  rw [okSince, List.countP_map]
  rfl

theorem okWithin_eq (s : ApiCalls) (a : ℕ) : s.okWithin a =
    (s.admitted.map Instant.nanos).countP (fun t => a ≤ t ∧ t < a + NANOS_PER_SEC) := by
  rw [okWithin, List.countP_map]
  rfl

theorem alive_iff (hwindow : l.window = .fromSecs 1) (start now : Instant) :
    now.durationSince start < l.window ↔ now.nanos < start.nanos + NANOS_PER_SEC := by
  rw [hwindow]
  show now.nanos - start.nanos < 1 * NANOS_PER_SEC ↔ _
  unfold NANOS_PER_SEC
  omega

theorem Inv.rewound (h : Inv l s) (hwindow : l.window = .fromSecs 1) (hnow : s.clock ≤ now) :
    Inv l ⟨l.rewound s.guard now, now, s.admitted⟩ := by
  have hpast : ∀ t ∈ s.admitted, t ≤ now := fun t ht => Instant.le_trans (h.past t ht) hnow
  unfold ApiRateLimiter.rewound
  split_ifs with halive
  · rw [alive_iff hwindow] at halive
    exact ⟨Instant.le_trans h.started hnow, halive, hpast, h.counted, h.windows⟩
  · rw [alive_iff hwindow, not_lt] at halive
    -- the calls so far lie in the window that has expired
    have hbefore : ∀ t ∈ s.admitted, t.nanos < now.nanos := by
      intro t ht
      have hclock : t.nanos ≤ s.clock.nanos := h.past t ht
      have hcurrent := h.current
      omega
    have hnone : okSince ⟨⟨now, 0⟩, now, s.admitted⟩ now = 0 := by
      rw [okSince, List.countP_eq_zero]
      intro t ht hle
      exact absurd (hbefore t ht) (not_lt.mpr (of_decide_eq_true hle))
    have hwidth : now.nanos < now.nanos + NANOS_PER_SEC := by
      unfold NANOS_PER_SEC
      omega
    refine ⟨Instant.le_refl now, hwidth, hpast, hnone, h.windows.restart halive ?_⟩
    simpa using hbefore

theorem step_cases (h : s.step l now = some t) : s.clock ≤ now ∧
    ((l.limit.toNat ≤ (l.rewound s.guard now).count ∧
        t = ⟨l.rewound s.guard now, now, s.admitted⟩) ∨
      ((l.rewound s.guard now).count < l.limit.toNat ∧
        t = ⟨⟨(l.rewound s.guard now).start, (l.rewound s.guard now).count + 1⟩, now,
          s.admitted ++ [now]⟩)) := by
  simp only [step, Option.ite_none_right_eq_some, Option.some.injEq] at h
  obtain ⟨hnow, rfl⟩ := h
  refine ⟨hnow, ?_⟩
  by_cases hfull : l.limit.toNat ≤ (l.rewound s.guard now).count
  · refine .inl ⟨hfull, ?_⟩
    simp [ApiRateLimiter.check, hfull, Except.isOk, Except.toBool]
  · refine .inr ⟨not_le.mp hfull, ?_⟩
    simp [ApiRateLimiter.check, hfull, Except.isOk, Except.toBool]

theorem Inv.step (h : Inv l s) (hwindow : l.window = .fromSecs 1)
    (hstep : s.step l now = some t) : Inv l t := by
  obtain ⟨hnow, ⟨-, rfl⟩ | ⟨hroom, rfl⟩⟩ := step_cases hstep
  · exact h.rewound hwindow hnow
  · have hrewound := h.rewound hwindow hnow
    have hcounted : s.okSince (l.rewound s.guard now).start = (l.rewound s.guard now).count :=
      hrewound.counted
    have hstarted : (l.rewound s.guard now).start ≤ now := hrewound.started
    refine ⟨hstarted, hrewound.current, ?_, ?_, ?_⟩
    · intro t ht
      rcases List.mem_append.mp ht with hold | hlast
      · exact hrewound.past t hold
      · rw [List.mem_singleton.mp hlast]
        exact Instant.le_refl now
    · rw [okSince] at hcounted ⊢
      simp [List.countP_append, hcounted, hstarted]
    · rw [List.map_append]
      rw [← hcounted, okSince_eq] at hroom
      exact hrewound.windows.allow hstarted hroom

def init (guard : WindowState) : ApiCalls := ⟨guard, guard.start, []⟩

theorem inv_run {limitPerSec : Option UInt32} {created : Instant} {guard : WindowState}
    {nows : List Instant} (hnew : ApiRateLimiter.new limitPerSec created = some (l, guard))
    (hrun : Run (step l) Any (init guard) nows s) : Inv l s := by
  obtain ⟨limit, -, hlimiter⟩ := Option.map_eq_some_iff.mp hnew
  cases hlimiter
  refine hrun.invariant (fun s now t hs _ hstep => hs.step rfl hstep) ?_
  refine ⟨Instant.le_refl created, ?_, by simp [init], rfl, .empty _ _ _⟩
  show created.nanos < created.nanos + NANOS_PER_SEC
  unfold NANOS_PER_SEC
  omega

/-- After any calls at non-decreasing times, at most twice the limit of them have returned
    `Ok` in a half-open interval of one second; and the next call returns `Ok` if fewer calls
    than the limit have done so since the start of the window it counts in. -/
theorem check_burst {n : UInt32} {created : Instant} {guard : WindowState} {nows : List Instant}
    (hnew : ApiRateLimiter.new (some n) created = some (l, guard))
    (hrun : Run (step l) Any (init guard) nows s) :
    (∀ a, s.okWithin a ≤ 2 * n.toNat) ∧
      ∀ now, s.clock ≤ now → s.okSince (l.rewound s.guard now).start < n.toNat →
        (l.check s.guard now).1 = .ok () := by
  have hinv := inv_run hnew hrun
  obtain ⟨limit, hlimit, hlimiter⟩ := Option.map_eq_some_iff.mp hnew
  obtain ⟨hn, -⟩ := Option.filter_eq_some_iff.mp hlimit
  cases hn
  cases hlimiter
  constructor
  · intro a
    rw [okWithin_eq]
    exact hinv.windows.burst a
  · intro now hnow hroom
    have hcounted := (hinv.rewound rfl hnow).counted
    rw [ApiRateLimiter.check]
    exact congrArg Prod.fst (if_neg (not_le.mpr (hcounted.symm.trans_lt hroom)))

theorem check_burst_one :
    ∃ s l, Run (step l) Any (init ⟨.ofSecs 0, 0⟩) [.ofSecs 0,
        .ofSecs 0] s ∧ (∀ a, s.okWithin a ≤ 2) ∧
      (l.check s.guard (.ofSecs 0)).1 =
        .error (.resourceExhausted "rate limit exceeded") ∧
      (l.check s.guard (.ofSecs 1)).1 = .ok () := by
  have hrun : Run (step ⟨1, .fromSecs 1⟩) Any (init ⟨.ofSecs 0, 0⟩)
      [.ofSecs 0, .ofSecs 0] _ := exec_any rfl
  have hlimit := check_burst (show ApiRateLimiter.new (some 1) (.ofSecs 0) = _ from rfl)
    hrun
  exact ⟨_, _, hrun, hlimit.1, by rfl, hlimit.2 (.ofSecs 1) (by decide) (by decide)⟩

end ApiCalls

end SkadiCore.Server
