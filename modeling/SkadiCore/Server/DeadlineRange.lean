import SkadiCore.Common.InstantRange
import SkadiCore.Config.Start
import SkadiCore.Mux.Registry
import SkadiCore.Relay.IdleTimeout
import SkadiCore.Server.Associate
import SkadiCore.Server.AuthBans

/-!
# The range of the deadlines

Where the server computes `Instant + Duration`:

* the three relays, behind what they have carried (`relay.rs`, lines 84-103; `udp.rs`, lines
  98-114; `mux.rs`, line 144, all in `crates/skadi-transport/src`), if there is an idle timeout;
* the registry of XUDP sockets, for each socket that is detached (`xudp.rs`, line 110);
* `handle_socks5_udp_associate`, for each datagram and for what the control connection sends
  (`crates/skadi-server/src/socks5_relay.rs`, lines 85, 92), with `Duration::MAX` in place of
  an idle timeout that is not set;
* the limiter of failed authentications, for each ban (`auth_rate_limit.rs`, line 98).

`tokio::time::sleep` does not panic: it adds with `checked_add`.

**Defect.** `Config::validate` does not bound any duration from above, and UDP ASSOCIATE
adds `Duration::MAX`.
-/

namespace SkadiCore

open Relay

/-! ## The relays -/

namespace Relay.Copy

variable {c c' : Copy} {act : CopyAct} {limits : RelayLimits}

def added (c : Copy) : CopyAct → Option ℕ
  | .write d k =>
    if ((c.pipe d).write k).any fun p => decide (p.phase = .reading) then c.limits.idle else none
  | _ => none

def adder : Adder Copy CopyAct where
  step := Copy.step
  now c _ := c.now
  added c act := if (c.step act).isSome then c.added act else none

theorem idleDeadline_of_step (h : c.step act = some c') :
    c'.idleDeadline = ((c.added act).map (c.now + ·)).getD c.idleDeadline := by
  obtain ⟨-, ⟨dt, rfl, rfl⟩ | ⟨d, o, p, rfl, -, hp, rfl⟩ | ⟨e, hact, rfl⟩ | ⟨rfl, -, rfl⟩⟩ :=
    step_effect h
  · rfl
  · rw [idleDeadline_moved]
    cases o with
    | write k =>
      have hwrite : (c.pipe d).write k = some p := hp
      simp only [CopyAct.ofOp, added, hwrite, Option.any_some, decide_eq_true_eq]
      split_ifs <;> rfl
    | read _ | eof | close =>
      rw [if_neg (Pipe.not_reading_of_apply hp (by simp))]
      rfl
  · cases act <;> first | rfl | cases hact
  · rfl

theorem inRange {T : ℕ} (hidle : ∀ d ∈ limits.idle, T + d < INSTANT_RANGE) (now : ℕ)
    (fromA fromB : Bytes) : adder.InRange T (start limits now fromA fromB) := by
  refine Adder.inRange (fun c => c.limits = limits) rfl
    (fun c act c' hc hst => (step_limits hst).1.trans hc) ?_
  rintro c act d rfl hd
  obtain ⟨-, hd⟩ := Option.ite_none_right_eq_some.mp hd
  cases act with
  | write dir k => exact hidle d (Option.ite_none_right_eq_some.mp hd).2
  | _ => cases hd

theorem idle_of_inRange {T idle : ℕ} (hlim : limits.idle = some idle)
    (h : adder.InRange T (start limits T [0] [])) : T + idle < INSTANT_RANGE := by
  have hread : (start limits T [0] []).step (.read .aToB 1) =
      some ((start limits T [0] []).moved .aToB ⟨[], [], .writing [0] 1, 0⟩) :=
    step_read rfl rfl rfl
  have hrun : Run adder.step (adder.Until T) (start limits T [0] []) [.read .aToB 1] _ :=
    .single (le_refl T) hread
  have hadded : adder.added ((start limits T [0] []).moved .aToB ⟨[], [], .writing [0] 1, 0⟩)
      (.write .aToB 1) = some idle := by
    rw [← hlim]
    rfl
  exact h hrun (le_refl T) hadded

end Relay.Copy

namespace Mux.TimedRegistry

variable {η : Type*} {s t : TimedRegistry η}

def added (s : TimedRegistry η) : XudpOp η → Option ℕ
  | .detach id _ =>
    if (s.registry.entry id).any fun e => decide (e.status = .active) then some XUDP_EXPIRE_TTL
    else none
  | _ => none

def adder : Adder (TimedRegistry η) (ℕ × XudpOp η) where
  step := step
  now _ a := a.1
  added s a := if (s.step a).isSome then s.added a.2 else none

theorem expireAt_of_step {time now d : ℕ} {id : GlobalId}
    (h : s.step (time, .detach id now) = some t) (hd : s.added (.detach id now) = some d) :
    ∃ e, t.registry.entry id = some e ∧ e.expireAt = some (time + d) := by
  obtain ⟨⟨-, hat⟩, -⟩ := step_eq_some_iff.mp h
  have hat : now = time := by simpa [runsAt] using hat
  obtain ⟨hactive, hd⟩ := Option.ite_none_right_eq_some.mp hd
  cases hd
  rw [entry_of_step h]
  cases he : s.registry.entry id with
  | none => simp [he] at hactive
  | some e =>
    have hstatus : e.status = .active := by simpa [he] using hactive
    exact ⟨e.detached now, by simp [XudpOp.onEntry], by simp [XudpEntry.detached, hstatus, hat]⟩

theorem inRange {T : ℕ} (hT : T + XUDP_EXPIRE_TTL < INSTANT_RANGE) (s : TimedRegistry η) :
    adder.InRange T s := by
  refine Adder.inRange (fun _ => True) trivial (fun _ _ _ _ _ => trivial) ?_
  rintro s ⟨time, op⟩ d - hd
  obtain ⟨-, hd⟩ := Option.ite_none_right_eq_some.mp hd
  cases op with
  | detach id now =>
    obtain ⟨-, hd⟩ := Option.ite_none_right_eq_some.mp hd
    cases hd
    exact hT
  | _ => cases hd

theorem ttl_of_inRange {T : ℕ} (h : adder.InRange T (init : TimedRegistry η)) :
    T + XUDP_EXPIRE_TTL < INSTANT_RANGE := by
  have hacquire : (init : TimedRegistry η).step (T, .acquire sampleId (.ok 0)) = some
      ⟨(XudpManager.new.apply (.acquire sampleId (.ok 0))).1, T⟩ := if_pos ⟨Nat.zero_le T, rfl⟩
  have hdetach : (⟨(XudpManager.new.apply (.acquire sampleId (.ok 0))).1, T⟩ : TimedRegistry η).step
      (T, .detach sampleId T) = some ⟨_, T⟩ := if_pos ⟨Nat.le_refl T, by simp [runsAt]⟩
  have hrun : Run adder.step (adder.Until T) (init : TimedRegistry η)
      [(T, .acquire sampleId (.ok 0))] _ := .single (le_refl T) hacquire
  refine h hrun (a := (T, .detach sampleId T)) (le_refl T) ?_
  simp only [adder, hdetach, Option.isSome_some, if_true]
  rfl

end Mux.TimedRegistry

/-! ## UDP ASSOCIATE -/

namespace Server

open SkadiCore.Outbound (UdpTransport)

def AssociateAct.resets : AssociateAct → Bool
  | .datagram _ | .controlData => true
  | _ => false

namespace Associate

variable {udp : UdpTransport} {s t : Associate} {a : AssociateAct}

def added (s : Associate) (a : AssociateAct) : Option ℕ :=
  if a.resets && s.waits then some s.idle.nanos else none

def adder (udp : UdpTransport) : Adder Associate AssociateAct where
  step := step udp
  now s _ := s.now.nanos
  added := added

theorem status_receive (hs : s.status = .running) (d : Option Datagram) :
    (s.receive d).status = .panicked ↔ INSTANT_RANGE ≤ s.now.nanos + s.idle.nanos := by
  rw [← Instant.add_eq_none_iff]
  cases hadd : s.now.add s.idle with
  | none => simp [receive_of_none hadd]
  | some deadline => simp [receive_of_some hadd, hs]

/-- The loop panics where its addition leaves the range, and only there. -/
theorem panicked_iff (hs : s.status = .running) (h : s.step udp a = some t) :
    t.status = .panicked ↔ ∃ d ∈ s.added a, INSTANT_RANGE ≤ s.now.nanos + d := by
  cases a with
  | tick u =>
    obtain ⟨-, h⟩ := Option.ite_none_right_eq_some.mp h
    cases h
    simp only [pass, added, AssociateAct.resets]
    split_ifs <;> simp_all
  | datagram _ | controlData =>
    obtain ⟨hnot, -⟩ | ⟨-, hbusy, rfl⟩ := select_cases h
    · exact absurd hs hnot
    · rw [status_receive hs]
      simp [added, AssociateAct.resets, waits, hs, hbusy]
  | done source =>
    obtain ⟨-, rfl⟩ | ⟨d, -, -, -, rfl⟩ := finish_cases h <;> simp [added, AssociateAct.resets, hs]
  | controlEnd | recvError =>
    obtain ⟨hnot, -⟩ | ⟨-, -, rfl⟩ := select_cases h
    · exact absurd hs hnot
    · simp [added, AssociateAct.resets, close]

theorem inRange_iff {T : Instant} {idle lifetime : Option Duration} :
    (∀ now, (adder udp).InRange T.nanos (start now idle lifetime)) ↔
      T.nanos + (idle.getD .MAX).nanos < INSTANT_RANGE := by
  constructor
  · intro h
    exact h T (.nil _) (le_refl T.nanos) (a := .controlData) rfl
  · intro hT now
    refine Adder.inRange (fun s => s.idle = idle.getD .MAX) rfl
      (fun s a t hs hst => (step_spec hst).2.1.trans hs) ?_
    intro s a d hs hd
    obtain ⟨-, hd⟩ := Option.ite_none_right_eq_some.mp hd
    rwa [← Option.some.inj hd, hs]

end Associate

/-! ## The limiter -/

namespace AuthTable

open AuthRateLimiter

variable {l : AuthRateLimiter} {s : AuthTable} {e : AuthEvent} {T : Instant} {ip : IpAddr}

def adder (l : AuthRateLimiter) : Adder AuthTable AuthEvent where
  step := step l
  now _ e := e.now.nanos
  added := added l

theorem inRange (hT : T.nanos + (l.ban 10).nanos < INSTANT_RANGE) (s : AuthTable) :
    (adder l).InRange T.nanos s := by
  refine Adder.inRange (fun _ => True) trivial (fun _ _ _ _ _ => trivial) ?_
  rintro s ⟨call, ip, now⟩ d - hd
  cases call with
  | isBlocked => cases hd
  | recordFailure =>
    obtain ⟨ban, hban, rfl⟩ := Option.map_eq_some_iff.mp hd
    obtain ⟨-, hban⟩ := Option.ite_none_left_eq_some.mp hban
    rw [← Option.some.inj hban]
    exact lt_of_le_of_lt (Nat.add_le_add_left (l.ban_le _) _) hT

theorem until_now (call : AuthCall) : (adder l).Until T.nanos s ⟨call, ip, T⟩ := le_refl T.nanos

theorem add_lt_of_inRange {es : List AuthEvent} {d : ℕ} (hin : (adder l).InRange T.nanos new)
    (hrun : Run (adder l).step ((adder l).Until T.nanos) new es s)
    (hd : added l s ⟨.recordFailure, ip, T⟩ = some d) : T.nanos + d < INSTANT_RANGE :=
  hin hrun (until_now .recordFailure) hd

def Reaches (l : AuthRateLimiter) (T : Instant) (ip : IpAddr) (failures banLevel : ℕ) : Prop :=
  ∃ es s, Run (adder l).step ((adder l).Until T.nanos) new es s ∧
    (l.current T (s.states ip)).windowStart = T ∧
    (l.current T (s.states ip)).failures = failures ∧
    (l.current T (s.states ip)).banLevel = banLevel

theorem reaches_new : Reaches l T ip 0 0 := by
  have hcurrent : l.current T (new.states ip) = fresh T := by
    show l.rewound T (fresh T) = fresh T
    unfold rewound
    split_ifs <;> rfl
  refine ⟨[], new, .nil new, ?_⟩
  rw [hcurrent]
  exact ⟨rfl, rfl, rfl⟩

variable (hwindow : 0 < l.window.nanos) {n level : ℕ}
include hwindow

theorem exists_step_of_countFailure {state : IpState} (hstart : state.windowStart = T)
    (h : l.countFailure T (l.current T (s.states ip)) = some state) :
    ∃ t, s.step l ⟨.recordFailure, ip, T⟩ = some t ∧ l.current T (t.states ip) = state := by
  have hrecord : l.recordFailure s.states T ip =
      some (Function.update (l.cleanupExpired s.states T) ip (some state)) :=
    Option.map_eq_some_iff.mpr ⟨state, h, rfl⟩
  refine ⟨_, Option.map_eq_some_iff.mpr ⟨_, hrecord, rfl⟩, ?_⟩
  show l.current T (Function.update (l.cleanupExpired s.states T) ip (some state) ip) = state
  rw [Function.update_self, current_of_now hwindow hstart]

theorem Reaches.count (h : Reaches l T ip n level) (hlt : n + 1 < l.maxFailures) :
    Reaches l T ip (n + 1) level := by
  obtain ⟨es, s, hrun, hstart, rfl, rfl⟩ := h
  have hcount : l.countFailure T (l.current T (s.states ip)) = some
      { l.current T (s.states ip) with failures := (l.current T (s.states ip)).failures + 1 } :=
    if_pos hlt
  obtain ⟨t, hst, hstate⟩ := exists_step_of_countFailure hwindow (by exact hstart) hcount
  refine ⟨_, t, hrun.snoc (until_now .recordFailure) hst, ?_⟩
  rw [hstate]
  exact ⟨hstart, rfl, rfl⟩

theorem Reaches.ban (h : Reaches l T ip n level) (hge : ¬ n + 1 < l.maxFailures)
    (hin : (adder l).InRange T.nanos new) : Reaches l T ip 0 (nextLevel level) := by
  obtain ⟨es, s, hrun, hstart, rfl, rfl⟩ := h
  have hadded : added l s ⟨.recordFailure, ip, T⟩ =
      some (l.ban (nextLevel (l.current T (s.states ip)).banLevel)).nanos := by
    simp [added, banDue, hge]
  have hfit := Instant.add_isSome_iff.mpr (add_lt_of_inRange hin hrun hadded)
  obtain ⟨till, htill⟩ := Option.isSome_iff_exists.mp hfit
  have hcount : l.countFailure T (l.current T (s.states ip)) =
      some ⟨0, T, some till, nextLevel (l.current T (s.states ip)).banLevel⟩ := by
    simp [countFailure, hge, htill]
  obtain ⟨t, hst, hstate⟩ := exists_step_of_countFailure hwindow (by rfl) hcount
  refine ⟨_, t, hrun.snoc (until_now .recordFailure) hst, ?_⟩
  rw [hstate]
  exact ⟨rfl, rfl, rfl⟩

theorem Reaches.failures (h : Reaches l T ip 0 level) :
    ∀ n < l.maxFailures, Reaches l T ip n level := by
  intro n
  induction n with
  | zero => exact fun _ => h
  | succ n ih => exact fun hn => (ih (by omega)).count hwindow hn

theorem reaches_level (hmax : 0 < l.maxFailures) (hin : (adder l).InRange T.nanos new)
    (ip : IpAddr) : ∀ level ≤ 10, Reaches l T ip 0 level := by
  intro level
  induction level with
  | zero => exact fun _ => reaches_new
  | succ level ih =>
    intro hle
    have hlast : Reaches l T ip (l.maxFailures - 1) level :=
      (ih (by omega)).failures hwindow _ (by omega)
    have hnext : nextLevel level = level + 1 := by
      unfold nextLevel
      omega
    rw [← hnext]
    exact hlast.ban hwindow (by omega) hin

theorem ban_of_inRange (hmax : 0 < l.maxFailures) (hin : (adder l).InRange T.nanos new) :
    T.nanos + (l.ban 10).nanos < INSTANT_RANGE := by
  have hlast := (reaches_level hwindow hmax hin (.v4 (ipv4Addr 0 0 0 0)) 9 (by omega)).failures
    hwindow (l.maxFailures - 1) (by omega)
  obtain ⟨es, s, hrun, -, hfailures, hlevel⟩ := hlast
  have hge : ¬ l.maxFailures - 1 + 1 < l.maxFailures := by omega
  have hadded : added l s ⟨.recordFailure, .v4 (ipv4Addr 0 0 0 0), T⟩ =
      some (l.ban 10).nanos := by
    simp [added, banDue, hfailures, hlevel, hge, nextLevel]
  exact add_lt_of_inRange hin hrun hadded

end AuthTable

end Server

/-! ## The server -/

namespace Config

open SkadiCore.Server (Associate AssociateStatus AuthRateLimiter AuthTable)
open SkadiCore.Mux (TimedRegistry Handle XUDP_EXPIRE_TTL)

/-- The limits of the relays (`crates/skadi-server/src/lib.rs`, lines 105-108). -/
def relayLimits (config : Config) : RelayLimits :=
  ⟨config.idleTimeout.map Duration.nanos, config.maxSessionLifetime.map Duration.nanos⟩

/-- SOCKS5 or VLESS is served. -/
def proxyEnabled (config : Config) : Prop :=
  config.protocol.socks5Enabled = true ∨ config.protocol.vless.enabled = true

/-- UDP associations are served. -/
def associateEnabled (config : Config) : Prop :=
  config.protocol.socks5Enabled = true ∧ config.protocol.socks5.udpAssociate = true

/-- Whatever happens in the relays and in the limiter that run with a configuration, while the
    clock shows at most `T`: every `Instant + Duration` stays in range. -/
structure AdditionsInRange (config : Config) (T : Instant) : Prop where
  copy : config.proxyEnabled → ∀ now fromA fromB,
    Copy.adder.InRange T.nanos (.start config.relayLimits now fromA fromB)
  udp : config.protocol.vless.enabled = true → ∀ now stream,
    (Timed.adder (Udp.UdpRelay.step config.relayLimits)
      (Udp.UdpRelay.timers config.relayLimits)).InRange T.nanos
      (.start (Udp.UdpRelay.timers config.relayLimits) now (.init stream))
  mux : config.protocol.vless.enabled = true → ∀ now registry,
    (Timed.adder (Mux.Relay.step config.relayLimits)
      (Mux.Relay.timers config.relayLimits)).InRange T.nanos
      (.start (Mux.Relay.timers config.relayLimits) now (.init registry))
  xudp : config.protocol.vless.enabled = true →
    TimedRegistry.adder.InRange T.nanos (.init : TimedRegistry Handle)
  associate : config.associateEnabled → ∀ udp now,
    (Associate.adder udp).InRange T.nanos
      (.start now config.idleTimeout config.maxSessionLifetime)
  limiter : config.proxyEnabled → ∀ l ∈ AuthRateLimiter.fromConfig config.server.authRateLimit,
    (AuthTable.adder l).InRange T.nanos .new

/-- What keeps the additions to times up to `T` in range. -/
structure FitsBehind (config : Config) (T : Instant) : Prop where
  /-- The idle timeout, if it is set. -/
  idle : config.proxyEnabled → ∀ d ∈ config.idleTimeout, (T.add d).isSome
  /-- The idle timeout is set. -/
  associate : config.associateEnabled → config.idleTimeout.isSome
  /-- The 60 seconds of a detached XUDP socket. -/
  xudp : config.protocol.vless.enabled = true → T.nanos + XUDP_EXPIRE_TTL < INSTANT_RANGE
  /-- The longest ban. -/
  ban : config.proxyEnabled → ∀ l ∈ AuthRateLimiter.fromConfig config.server.authRateLimit,
    (T.add (l.ban 10)).isSome

variable {env : Env} {config : Config} {T : Instant}

theorem limiter_of_validate (h : config.validate env = .ok ()) {l : AuthRateLimiter}
    (hl : l ∈ AuthRateLimiter.fromConfig config.server.authRateLimit) :
    0 < l.maxFailures ∧ 0 < l.window.nanos := by
  simp only [validate, validateLimits, bind_eq_ok, exists_unit, checkIf_eq_ok, bailIf_eq_ok] at h
  obtain ⟨-, ⟨-, -, -, hlimit, -⟩, -⟩ := h
  obtain ⟨hon, hl⟩ := Option.ite_none_left_eq_some.mp hl
  obtain ⟨-, hwindow, -⟩ := hlimit (by simpa using hon)
  cases hmax : config.server.authRateLimit.maxFailures with
  | none => simp [hmax] at hl
  | some n =>
    simp only [hmax] at hl
    obtain ⟨hn, hl⟩ := Option.ite_none_right_eq_some.mp hl
    cases hl
    have hne : config.server.authRateLimit.windowSecs ≠ 0 := by simpa using hwindow
    have hpos : 0 < config.server.authRateLimit.windowSecs.toNat :=
      Nat.pos_of_ne_zero fun hzero => hne (UInt64.toNat_inj.mp hzero)
    exact ⟨UInt32.lt_iff_toNat_lt.mp hn, Nat.mul_pos hpos (by decide)⟩

/-- With a configuration that `Config::validate` accepts, all additions up to a time stay in range
    if and only if this time leaves room for the configured durations, and the idle timeout is
    set if UDP ASSOCIATE is enabled. -/
theorem additionsInRange_iff (h : config.validate env = .ok ()) :
    AdditionsInRange config T ↔ FitsBehind config T := by
  constructor
  · intro hin
    refine ⟨?_, ?_, ?_, ?_⟩
    · intro hon d hd
      have hlim : config.relayLimits.idle = some d.nanos := by
        rw [relayLimits, Option.mem_def.mp hd]
        rfl
      exact Instant.add_isSome_iff.mpr (Copy.idle_of_inRange hlim (hin.copy hon T.nanos [0] []))
    · intro hon
      by_contra hnone
      have hfit := Associate.inRange_iff.mp (hin.associate hon ⟨true⟩)
      rw [Option.not_isSome_iff_eq_none.mp hnone, ← Instant.add_isSome_iff] at hfit
      simp [Duration.add_MAX] at hfit
    · intro hon
      exact TimedRegistry.ttl_of_inRange (hin.xudp hon)
    · intro hon l hl
      obtain ⟨hmax, hwindow⟩ := limiter_of_validate h hl
      exact Instant.add_isSome_iff.mpr
        (AuthTable.ban_of_inRange hwindow hmax (hin.limiter hon l hl))
  · intro hfit
    have hidle (hon : config.proxyEnabled) :
        ∀ d ∈ config.relayLimits.idle, T.nanos + d < INSTANT_RANGE := by
      intro d hd
      obtain ⟨idle, hidle, rfl⟩ := Option.mem_map.mp hd
      exact Instant.add_isSome_iff.mp (hfit.idle hon idle hidle)
    refine ⟨?_, ?_, ?_, ?_, ?_, ?_⟩
    · intro hon now fromA fromB
      exact Copy.inRange (hidle hon) now fromA fromB
    · intro hon now stream
      exact Timed.inRange (hidle (.inr hon)) _
    · intro hon now registry
      exact Timed.inRange (hidle (.inr hon)) _
    · intro hon
      exact TimedRegistry.inRange (hfit.xudp hon) _
    · intro hon udp
      obtain ⟨idle, hidle⟩ := Option.isSome_iff_exists.mp (hfit.associate hon)
      rw [Associate.inRange_iff, hidle]
      exact Instant.add_isSome_iff.mp (hfit.idle (.inl hon.1) idle hidle)
    · intro hon l hl
      exact AuthTable.inRange (Instant.add_isSome_iff.mp (hfit.ban hon l hl)) .new

def associateConfig (idle : Option UInt64) (banMax : UInt64) : Config where
  server :=
    { timeouts := { idleTimeoutSecs := idle }
      authRateLimit := { defaultAuthRateLimit with
        maxFailures := some 1, banBaseSecs := banMax, banMaxSecs := banMax } }
  protocol :=
    { defaultProtocol with socks5Enabled := true, socks5 := ⟨.noAuth, [], false, true⟩ }

theorem additionsInRange_associate :
    (associateConfig (some 300) 3600).validate sampleEnv = .ok () ∧
      AdditionsInRange (associateConfig (some 300) 3600)
        (.ofSecs (1000 * 366 * 86400) (by decide)) := by
  have hvalid : (associateConfig (some 300) 3600).validate sampleEnv = .ok () := rfl
  have hfits : FitsBehind (associateConfig (some 300) 3600)
      (.ofSecs (1000 * 366 * 86400) (by decide)) := by
    constructor
    · intro _ d hd
      obtain rfl : Duration.fromSecs 300 = d := Option.some.inj hd
      decide
    · intro _
      rfl
    · intro hon
      cases hon
    · intro _ l hl
      have hl : (⟨1, .fromSecs 600, .fromSecs 3600, .fromSecs 3600⟩ : AuthRateLimiter) = l :=
        Option.some.inj hl
      rw [← hl]
      decide
  exact ⟨hvalid, (additionsInRange_iff hvalid).mpr hfits⟩

def afterDatagram (config : Config) : Option AssociateStatus :=
  let s := Associate.start (.ofSecs 1) config.idleTimeout config.maxSessionLifetime
  (s.step ⟨false⟩ (Associate.sampleDatagram Associate.sampleStranger [0])).map Associate.status

theorem accepted_panics :
    ((associateConfig none 3600).validate sampleEnv = .ok () ∧
      afterDatagram (associateConfig none 3600) = some .panicked) ∧
    ((associateConfig (some 0x8000000000000000) 3600).validate sampleEnv = .ok () ∧
      afterDatagram (associateConfig (some 0x8000000000000000) 3600) = some .panicked) ∧
    (associateConfig (some 300) 0x8000000000000000).validate sampleEnv = .ok () ∧
      ∃ l, AuthRateLimiter.fromConfig
          (associateConfig (some 300) 0x8000000000000000).server.authRateLimit = some l ∧
        AuthTable.new.step l
          ⟨.recordFailure, .v4 (ipv4Addr 203 0 113 9), .ofSecs 1⟩ = none := by
  have hnone : (associateConfig none 3600).validate sampleEnv = .ok () := rfl
  have hidle : (associateConfig (some 0x8000000000000000) 3600).validate sampleEnv = .ok () := rfl
  have hban : (associateConfig (some 300) 0x8000000000000000).validate sampleEnv = .ok () := rfl
  have hpanics : AuthTable.new.step
      ⟨1, .fromSecs 600, .fromSecs 0x8000000000000000, .fromSecs 0x8000000000000000⟩
      ⟨.recordFailure, .v4 (ipv4Addr 203 0 113 9), .ofSecs 1⟩ = none :=
    AuthTable.step_eq_none_iff.mpr ⟨_, rfl, by decide +kernel⟩
  exact ⟨⟨hnone, by decide +kernel⟩, ⟨hidle, by decide +kernel⟩, hban, _, rfl, hpanics⟩

end Config

end SkadiCore
