import SkadiCore.Common.Run
import SkadiCore.Common.Time
import SkadiCore.Core.Endpoint

/-!
# The limit on failed authentications

Model of `crates/skadi-server/src/auth_rate_limit.rs`. All clients share one table, and
every call first removes from it what has expired, whosever it is. A call holds the lock,
and reads the clock under it, so that a run is a list of calls in the order of their times.
-/

namespace SkadiCore.Server

structure AuthRateLimitConfig where
  enabled : Bool
  maxFailures : Option UInt32
  windowSecs : UInt64
  banBaseSecs : UInt64
  banMaxSecs : UInt64

structure IpState where
  failures : ℕ
  windowStart : Instant
  blockedUntil : Option Instant
  banLevel : ℕ
  deriving DecidableEq

abbrev IpStates := IpAddr → Option IpState

structure AuthRateLimiter where
  maxFailures : ℕ
  window : Duration
  banBase : Duration
  banMax : Duration

namespace AuthRateLimiter

/-- `from_config` (lines 32-46). -/
def fromConfig (config : AuthRateLimitConfig) : Option AuthRateLimiter :=
  if !config.enabled then none
  else
    match config.maxFailures with
    | none => none
    | some n =>
      if 0 < n then
        some ⟨n.toNat, .fromSecs config.windowSecs, .fromSecs config.banBaseSecs,
          .fromSecs config.banMaxSecs⟩
      else none

variable (l : AuthRateLimiter)

/-- What `cleanup_expired` keeps (lines 110-112). -/
def alive (now : Instant) (state : IpState) : Bool :=
  let windowAlive := decide (now.durationSince state.windowStart < l.window)
  let banActive := state.blockedUntil.any fun till => decide (now < till)
  windowAlive || banActive || decide (0 < state.failures)

/-- `cleanup_expired` (lines 108-114). -/
def cleanupExpired (states : IpStates) (now : Instant) : IpStates :=
  fun ip => (states ip).filter (l.alive now)

/-- The answer of `is_blocked` for an entry, and the entry behind the call (lines 54-61). -/
def blocked (now : Instant) (state : IpState) : Bool × IpState :=
  match state.blockedUntil with
  | some till => if now < till then (true, state) else (false, { state with blockedUntil := none })
  | none => (false, state)

/-- `is_blocked` (lines 48-65). -/
def isBlocked (states : IpStates) (now : Instant) (ip : IpAddr) :
    Bool × IpStates :=
  let states := l.cleanupExpired states now
  match states ip with
  | some state => ((blocked now state).1, Function.update states ip (some (blocked now state).2))
  | none => (false, states)

def nextLevel (banLevel : ℕ) : ℕ := min (banLevel + 1) (2 ^ 32 - 1)

def ban (banLevel : ℕ) : Duration :=
  (l.banBase.saturatingMul (2 ^ min banLevel 10)).min l.banMax

def fresh (now : Instant) : IpState := ⟨0, now, none, 0⟩

def rewound (now : Instant) (state : IpState) : IpState :=
  if now.durationSince state.windowStart < l.window then state
  else { state with windowStart := now, failures := 0 }

/-- One more failure of an entry (lines 84-98), `none` where `now + ban` panics. -/
def countFailure (now : Instant) (state : IpState) : Option IpState :=
  let failures := state.failures + 1
  if failures < l.maxFailures then some { state with failures := failures }
  else
    let banLevel := nextLevel state.banLevel
    (now.add (l.ban banLevel)).map fun till => ⟨0, now, some till, banLevel⟩

/-- `record_failure` (lines 67-106), `none` where it panics. -/
def recordFailure (states : IpStates) (now : Instant) (ip : IpAddr) :
    Option IpStates :=
  let states := l.cleanupExpired states now
  let state := (states ip).getD (fresh now)
  (l.countFailure now (l.rewound now state)).map fun state =>
    Function.update states ip (some state)

end AuthRateLimiter

/-! ## Runs -/

inductive AuthCall
  | isBlocked
  | recordFailure
  deriving DecidableEq

structure AuthEvent where
  call : AuthCall
  ip : IpAddr
  now : Instant

/-- What the lock guards. -/
structure AuthTable where
  states : IpStates

namespace AuthTable

def new : AuthTable := ⟨fun _ => none⟩

/-- The table behind a call, `none` where the call panics. -/
def step (l : AuthRateLimiter) (s : AuthTable) (e : AuthEvent) : Option AuthTable :=
  match e.call with
  | .isBlocked => some ⟨(l.isBlocked s.states e.now e.ip).2⟩
  | .recordFailure => (l.recordFailure s.states e.now e.ip).map AuthTable.mk

end AuthTable

/-! ## What a call does to one entry

A call changes the entry of its own address, by a function of this entry alone, and may
remove any other entry. -/

namespace AuthRateLimiter

variable {l : AuthRateLimiter} {now t u : Instant} {a b : Option IpState}

/-- The entry of the caller's address behind a call, given the entry that the cleanup left. -/
def onEntry (l : AuthRateLimiter) (call : AuthCall) (now : Instant) (entry : Option IpState) :
    Option (Option IpState) :=
  match call with
  | .isBlocked => some (entry.map fun state => (blocked now state).2)
  | .recordFailure => (l.countFailure now (l.rewound now (entry.getD (fresh now)))).map some

theorem isBlocked_fst (states : IpStates) (ip : IpAddr) :
    (l.isBlocked states now ip).1 =
      ((states ip).filter (l.alive now)).any fun state => (blocked now state).1 := by
  simp only [isBlocked, cleanupExpired]
  cases (states ip).filter (l.alive now) <;> rfl

theorem alive_antitone {state : IpState} (h : t ≤ u) (hu : l.alive u state = true) :
    l.alive t state = true := by
  contrapose! hu
  simp only [alive, Bool.not_eq_true, Bool.or_eq_false_iff, decide_eq_false_iff_not] at hu ⊢
  obtain ⟨⟨hwindow, hban⟩, hfailures⟩ := hu
  refine ⟨⟨Instant.durationSince_not_lt h hwindow, ?_⟩, hfailures⟩
  cases hb : state.blockedUntil with
  | none => rfl
  | some till =>
    simp only [hb, Option.any_some, decide_eq_false_iff_not] at hban ⊢
    exact Instant.not_lt_of_le h hban

theorem filter_alive_alive (h : t ≤ u) :
    (a.filter (l.alive t)).filter (l.alive u) = a.filter (l.alive u) := by
  cases a with
  | none => rfl
  | some state =>
    by_cases hu : l.alive u state = true
    · simp [Option.filter, alive_antitone h hu, hu]
    · by_cases ht : l.alive t state = true <;> simp [Option.filter, ht, hu]

def Alike (l : AuthRateLimiter) (now : Instant) (a b : Option IpState) : Prop :=
  ∀ t, now ≤ t → a.filter (l.alive t) = b.filter (l.alive t)

theorem Alike.refl (a : Option IpState) : l.Alike now a a := fun _ _ => rfl

theorem Alike.later (h : l.Alike t a b) (htu : t ≤ u) : l.Alike u a b :=
  fun v hv => h v (Nat.le_trans htu hv)

theorem Alike.cleanup (h : l.Alike now a b) : l.Alike now (a.filter (l.alive now)) b :=
  fun t ht => (filter_alive_alive ht).trans (h t ht)

def BelowLimit (l : AuthRateLimiter) (entry : Option IpState) : Prop :=
  ∀ state, entry = some state → state.failures < l.maxFailures

theorem BelowLimit.filter (h : l.BelowLimit a) (p : IpState → Bool) :
    l.BelowLimit (a.filter p) :=
  fun state hstate => h state (Option.filter_eq_some_iff.mp hstate).1

theorem countFailure_lt {state state' : IpState} (hl : 0 < l.maxFailures)
    (h : l.countFailure now state = some state') : state'.failures < l.maxFailures := by
  unfold countFailure at h
  dsimp only at h
  split_ifs at h with hlt
  · cases h
    exact hlt
  · obtain ⟨till, -, rfl⟩ := Option.map_eq_some_iff.mp h
    exact hl

theorem onEntry_belowLimit {call : AuthCall} (hl : 0 < l.maxFailures)
    (ha : l.BelowLimit a) (h : l.onEntry call now a = some b) : l.BelowLimit b := by
  cases call with
  | isBlocked =>
    cases a with
    | none => cases h; exact ha
    | some state =>
      cases h
      intro state' hstate
      obtain rfl := Option.some.inj hstate
      have hsame : (blocked now state).2.failures = state.failures := by
        unfold blocked
        split
        · split_ifs <;> rfl
        · rfl
      rw [hsame]
      exact ha state rfl
  | recordFailure =>
    obtain ⟨state, hcount, heq⟩ := Option.map_eq_some_iff.mp h
    cases heq
    intro state' hstate
    obtain rfl := Option.some.inj hstate
    exact countFailure_lt hl hcount

end AuthRateLimiter

namespace AuthTable

open AuthRateLimiter

variable {l : AuthRateLimiter} {s s' t : AuthTable} {e : AuthEvent} {ip : IpAddr}

theorem step_eq (l : AuthRateLimiter) (s : AuthTable) (e : AuthEvent) :
    s.step l e = (l.onEntry e.call e.now ((s.states e.ip).filter (l.alive e.now))).map fun entry =>
      ⟨Function.update (l.cleanupExpired s.states e.now) e.ip entry⟩ := by
  obtain ⟨call, ip, now⟩ := e
  cases call with
  | isBlocked =>
    simp only [step, isBlocked, onEntry, cleanupExpired]
    cases h : (s.states ip).filter (l.alive now) with
    | some state => rfl
    | none =>
      have hnone : Function.update (l.cleanupExpired s.states now) ip none =
          l.cleanupExpired s.states now := by
        rw [← h]
        exact Function.update_eq_self ip _
      exact congrArg (fun states => some (AuthTable.mk states)) hnone.symm
  | recordFailure =>
    simp only [step, recordFailure, onEntry, cleanupExpired, Option.map_map]
    rfl

theorem step_iff : s.step l e = some t ↔
    ∃ entry, l.onEntry e.call e.now ((s.states e.ip).filter (l.alive e.now)) = some entry ∧
      ⟨Function.update (l.cleanupExpired s.states e.now) e.ip entry⟩ = t := by
  rw [step_eq, Option.map_eq_some_iff]

theorem failures_lt_run {es : List AuthEvent} (hl : 0 < l.maxFailures)
    (hrun : Run (step l) Any new es s) (ip : IpAddr) : l.BelowLimit (s.states ip) := by
  have hnew : ∀ ip, l.BelowLimit (new.states ip) := by simp [new, BelowLimit]
  refine hrun.invariant (I := fun s => ∀ ip, l.BelowLimit (s.states ip)) ?_ hnew ip
  intro s e t hs _ hstep ip
  obtain ⟨entry, hentry, rfl⟩ := step_iff.mp hstep
  by_cases hip : ip = e.ip
  · subst hip
    simpa using onEntry_belowLimit hl ((hs e.ip).filter _) hentry
  · simpa [hip, cleanupExpired] using (hs ip).filter (l.alive e.now)

theorem maxFailures_of_fromConfig {config : AuthRateLimitConfig} (h : fromConfig config = some l) :
    0 < l.maxFailures ∧ l.maxFailures < 2 ^ 32 := by
  cases hmax : config.maxFailures with
  | none => simp [fromConfig, hmax] at h
  | some n =>
    simp only [fromConfig, hmax, Option.ite_none_left_eq_some, Option.ite_none_right_eq_some,
      Option.some.injEq] at h
    obtain ⟨-, hpos, rfl⟩ := h
    exact ⟨by simpa using UInt32.lt_iff_toNat_lt.mp hpos, n.toNat_lt⟩

/-- Over every run of a limiter as it is configured, no address has as many failures on its
    account as `max_failures`, and `failures += 1` never overflows. -/
theorem failures_no_overflow {config : AuthRateLimitConfig} (hl : fromConfig config = some l)
    {es : List AuthEvent} (hrun : Run (step l) Any new es s) {state : IpState}
    (hstate : state ∈ s.states ip) :
    state.failures < l.maxFailures ∧ state.failures + 1 < 2 ^ 32 := by
  obtain ⟨hpos, hmax⟩ := maxFailures_of_fromConfig hl
  have hlt := failures_lt_run hpos hrun ip state hstate
  omega

theorem failures_no_overflow_one :
    let l : AuthRateLimiter := ⟨2, .fromSecs 600, .fromSecs 60, .fromSecs 3600⟩
    let a : IpAddr := .v4 (ipv4Addr 203 0 113 1)
    ∃ s, Run (step l) Any new [⟨.recordFailure, a, .ofSecs 1⟩] s ∧
      ∃ state ∈ s.states a, state.failures < 2 ∧ state.failures + 1 < 2 ^ 32 := by
  intro l a
  have hexec : ((exec (step l) (fun _ _ => true) new
      [⟨.recordFailure, a, .ofSecs 1⟩]).bind fun s => s.states a).isSome = true := by
    decide +kernel
  obtain ⟨state, hbind⟩ := Option.isSome_iff_exists.mp hexec
  obtain ⟨s, hs, hstate⟩ := Option.bind_eq_some_iff.mp hbind
  have hrun := exec_any hs
  have hl : fromConfig ⟨true, some 2, 600, 60, 3600⟩ = some l := rfl
  exact ⟨s, hrun, state, hstate, failures_no_overflow hl hrun hstate⟩

theorem states_of_other (h : s.step l e = some t) (hip : ip ≠ e.ip) :
    t.states ip = (s.states ip).filter (l.alive e.now) := by
  obtain ⟨entry, -, rfl⟩ := step_iff.mp h
  exact Function.update_of_ne hip _ _

theorem step_alike (hlike : l.Alike e.now (s.states e.ip) (s'.states e.ip)) :
    Option.Rel (fun t t' => t.states e.ip = t'.states e.ip) (s.step l e) (s'.step l e) := by
  rw [step_eq, step_eq, hlike e.now (Instant.le_refl _)]
  cases l.onEntry e.call e.now ((s'.states e.ip).filter (l.alive e.now)) with
  | none => exact .none
  | some entry => exact .some (by simp)

end AuthTable

end SkadiCore.Server
