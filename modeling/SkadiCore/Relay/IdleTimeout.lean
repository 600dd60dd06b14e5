import SkadiCore.Common.IdleTimer
import SkadiCore.Mux.Counters
import SkadiCore.Relay.Deadlines
import SkadiCore.Udp.Relay

/-!
# What the idle timeout says

The three relays have an idle timer: `copy_bidirectional_with_limits` (`relay.rs`, lines
29-111), `relay_vless_udp_with_limits` (`udp.rs`, lines 58-122) and
`relay_vless_mux_with_limits` (`mux.rs`, lines 104-185), all in
`crates/skadi-transport/src`. When it fires they return `IDLE_TIMEOUT_MSG`.

The first two set the timer behind every buffer or datagram they have handed over. The
mux relay sets it when a frame of the client was read: before the payload of this frame
is written, and not at all for what its reader tasks write to the client.
-/

namespace SkadiCore

open Relay

/-! ## Copying between two streams -/

namespace Relay.Copy

variable {c c' : Copy} {act : CopyAct} {d : Dir} {p : Pipe Byte} {limits : RelayLimits}
  {now idle : ℕ} {fromA fromB : Bytes}

def Carrying (c : Copy) : Prop := ∃ d, (c.pipe d).pending ≠ []

/-- The call as a clocked system. The bytes of a buffer go out between the read and the
    end of the write, in pieces, so each step in between counts. -/
def clocked : Clocked Copy CopyAct where
  step := Copy.step
  now := Copy.now
  carries c _ := c.Carrying
  idles act := act = .idle

@[simp] theorem now_moved : (c.moved d p).now = c.now := by
  unfold moved
  split_ifs <;> cases d <;> rfl

theorem idleDeadline_moved : (c.moved d p).idleDeadline =
    if p.phase = .reading then (c.limits.idle.map (c.now + ·)).getD c.idleDeadline
    else c.idleDeadline := by
  unfold moved
  split_ifs <;> cases d <;> rfl

theorem not_carrying_of_selecting (h : c.selecting = true) : ¬c.Carrying := by
  rintro ⟨d, hd⟩
  have hfree := (selecting_iff.mp h).1 d
  rw [Pipe.busy_of_pending hd] at hfree
  cases hfree

theorem step_carrying (hlim : c.limits.idle = some idle) (hc : c.Carrying)
    (h : c.step act = some c') : c'.Carrying ∨ c.now + idle ≤ c'.idleDeadline := by
  obtain ⟨d, hd⟩ := hc
  obtain ⟨-, ⟨dt, -, rfl⟩ | ⟨d', o, p, -, -, hp, rfl⟩ | ⟨e, -, rfl⟩ | ⟨-, -, rfl⟩⟩ := step_effect h
  · refine .inl ⟨d, ?_⟩
    cases d <;> exact hd
  · by_cases hphase : p.phase = .reading
    · exact .inr (by simp [idleDeadline_moved, hphase, hlim])
    · refine .inl ⟨d, ?_⟩
      rw [pipe_moved]
      split_ifs with heq
      · exact (Pipe.pending_of_apply (heq ▸ hd) hp).resolve_left hphase
      · exact hd
  · exact .inl ⟨d, by simpa using hd⟩
  · exact .inl ⟨d, by simpa using hd⟩

theorem step_deadline (hlim : c.limits.idle = some idle) (h : c.step act = some c') :
    c'.idleDeadline = c.idleDeadline ∨ c.now + idle ≤ c'.idleDeadline := by
  obtain ⟨-, ⟨dt, -, rfl⟩ | ⟨d, p, -, -, rfl⟩ | ⟨e, -, rfl⟩ | ⟨-, -, rfl⟩⟩ := step_cases h
  · exact .inl rfl
  · rw [idleDeadline_moved]
    split_ifs
    · exact .inr (by simp [hlim])
    · exact .inl rfl
  · exact .inl rfl
  · exact .inl rfl

theorem step_now (h : c.step act = some c') : c.now ≤ c'.now := by
  obtain ⟨-, ⟨dt, -, rfl⟩ | ⟨d, p, -, -, rfl⟩ | ⟨e, -, rfl⟩ | ⟨-, -, rfl⟩⟩ := step_cases h
  · exact Nat.le_add_right _ _
  · exact now_moved.ge
  · exact le_rfl
  · exact le_rfl

theorem quietAtIdle (hlim : limits.idle = some idle) (now : ℕ) (fromA fromB : Bytes) :
    clocked.QuietAtIdle Any idle (start limits now fromA fromB) := by
  refine Clocked.quietAtIdle (fun c => c.limits = limits)
    (fun t c => t ≤ c.now ∧ (c.Carrying ∨ t + idle ≤ c.idleDeadline)) rfl
    (fun c act c' hc hst => (step_limits hst).1.trans hc)
    (fun c act _ _ hcarrying => ⟨le_rfl, .inl hcarrying⟩) ?_ ?_
  · rintro t c act c' hc ⟨hle, hcov⟩ (hst : c.step act = some c')
    refine ⟨hle.trans (step_now hst), ?_⟩
    rcases hcov with hcarrying | hcov
    · exact (step_carrying (hc ▸ hlim) hcarrying hst).imp_right
        (Nat.add_le_add_right hle idle).trans
    · rcases step_deadline (hc ▸ hlim) hst with hsame | hset
      · exact .inr (hsame ▸ hcov)
      · exact .inr ((Nat.add_le_add_right hle idle).trans hset)
  · rintro t c act c' - ⟨-, hcov⟩ rfl hst
    have hready : c.selecting = true ∧ c.idleDeadline ≤ c.now := by
      simp only [clocked, step, Option.ite_none_left_eq_some, Option.ite_none_right_eq_some] at hst
      exact ⟨hst.2.1.1, hst.2.1.2.2⟩
    exact (hcov.resolve_left (not_carrying_of_selecting hready.1)).trans hready.2

end Relay.Copy

/-! ## Datagrams -/

namespace Udp.UdpRelay

variable {s t : UdpRelay} {a : RelayAct} {limits : RelayLimits} {idle : ℕ}

/-- The timers of `relay_vless_udp_with_limits`: the idle deadline is set behind a datagram
    that was sent and behind a frame that was written (lines 93-97, 111-115). -/
def timers (limits : RelayLimits) : Timers UdpRelay RelayAct where
  idle := limits.idle
  lifetime := limits.maxLifetime
  resets s a := match s.pc, a with
    | .send _, .sendOk => true
    | .write data, .writeOk => (writeVlessUdpFrame data).isOk
    | _, _ => false
  onIdle
    | .idleTimeout => true
    | _ => false
  onLifetime
    | .lifetimeTimeout => true
    | _ => false

def Carrying (s : UdpRelay) : Prop := (∃ payload, s.pc = .send payload) ∨ ∃ data, s.pc = .write data

def clocked (limits : RelayLimits) : Clocked (Timed UdpRelay) (TimedAct RelayAct) :=
  Timed.clocked (step limits) (timers limits) fun s _ => s.Carrying

theorem step_back (hs : s.pc ≠ .select) (h : s.step limits a = some t) :
    t.pc ≠ .select ∨ (timers limits).resets s a = true := by
  cases hpc : s.pc with
  | select => exact absurd hpc hs
  | send payload =>
    cases a <;> simp only [step, hpc, reduceCtorEq, Option.some.injEq] at h
    case sendOk => exact .inr (by simp [timers, hpc])
    case sendFails => exact .inl (by simp [← h, finish])
  | write data =>
    cases a <;> simp only [step, hpc, reduceCtorEq, Option.some.injEq] at h
    case writeOk =>
      cases hw : writeVlessUdpFrame data with
      | error e =>
        simp only [hw, Option.some.injEq] at h
        exact .inl (by simp [← h, finish])
      | ok bytes => exact .inr (by simp [timers, hpc, hw, Except.isOk, Except.toBool])
    case writeFails => exact .inl (by simp [← h, finish])
  | returned result => cases a <;> simp [step, hpc] at h

theorem select_of_idle (ha : (timers limits).onIdle a = true) (h : s.step limits a = some t) :
    s.pc = .select := by
  cases a <;> simp only [timers, Bool.false_eq_true] at ha
  cases hpc : s.pc <;> first | rfl | simp [step, hpc] at h

theorem quietAtIdle (hlim : limits.idle = some idle) (s : Timed UdpRelay) :
    (clocked limits).QuietAtIdle Any idle s := by
  refine Timed.quietAtIdle (fun s => s.pc ≠ .select) hlim ?_
    (fun s a t => step_back) (fun s a t ha hst => not_not_intro (select_of_idle ha hst)) s
  rintro s a - (⟨payload, hpc⟩ | ⟨data, hpc⟩)
  · exact .inl (by simp [hpc])
  · exact .inl (by simp [hpc])

end Udp.UdpRelay

/-! ## The mux relay -/

namespace Mux.Relay

variable {limits : RelayLimits} {idle : ℕ}

/-- The timers of `relay_vless_mux_with_limits`: the idle deadline is set when a frame of
    the client was read, before it is handled (lines 141-145). -/
def timers (limits : RelayLimits) : Timers Relay Act where
  idle := limits.idle
  lifetime := limits.maxLifetime
  resets s a := match s.main, a with
    | .select, .main (.frame _ _) => true
    | _, _ => false
  onIdle
    | .main .idleTimeout => true
    | _ => false
  onLifetime
    | .main .lifetimeTimeout => true
    | _ => false

def carries (s : Relay) : TimedAct Act → Bool
  | .tick _ => false
  | .act a => decide (s.carried a ≠ (0, 0))

def clocked (limits : RelayLimits) : Clocked (Timed Relay) (TimedAct Act) :=
  Timed.clocked (step limits) (timers limits) fun s a => s.carries a = true

/-- Payload is carried only while the idle deadline is a whole timeout away. -/
def CarriesAtReset (idle : ℕ) (s : Timed Relay) (a : TimedAct Act) : Prop :=
  s.sys.carries a = true → s.now + idle ≤ s.idleDeadline

theorem quietAtIdle (hlim : limits.idle = some idle) (s : Timed Relay) :
    (clocked limits).QuietAtIdle (CarriesAtReset idle) idle s :=
  Timed.quietAtIdle (fun _ => False) hlim (fun _ _ hC hcarries => .inr (hC hcarries))
    (fun _ _ _ h => h.elim) (fun _ _ _ _ _ h => h) s

end Mux.Relay

/-! ## The three relays -/

namespace Relay

open Mux

/-- With an idle limit: if the timeout is reported at a time `t`, then no payload was
    carried between `t - idle` and `t`. For the mux relay this needs that payload is
    only carried at an instant at which the timer was set. -/
theorem idle_means_quiet {limits : RelayLimits} {idle : ℕ} (hlim : limits.idle = some idle) :
    (∀ now fromA fromB,
      Copy.clocked.QuietAtIdle Any idle (Copy.start limits now fromA fromB)) ∧
    (∀ now stream, (Udp.UdpRelay.clocked limits).QuietAtIdle Any idle
      (.start (Udp.UdpRelay.timers limits) now (.init stream))) ∧
    (∀ now registry, (Mux.Relay.clocked limits).QuietAtIdle (Mux.Relay.CarriesAtReset idle) idle
      (.start (Mux.Relay.timers limits) now (.init registry))) :=
  ⟨Copy.quietAtIdle hlim, fun _ _ => Udp.UdpRelay.quietAtIdle hlim _,
    fun _ _ => Mux.Relay.quietAtIdle hlim _⟩

theorem idle_means_quiet_upload :
    ∃ as bs s₁ s₂ s₃ s₄,
      Run (Mux.Relay.clocked ⟨some 100, none⟩).step (Mux.Relay.CarriesAtReset 100)
        (.start (Mux.Relay.timers ⟨some 100, none⟩) 0 (.init .new)) as s₁ ∧
      (Mux.Relay.clocked ⟨some 100, none⟩).step s₁ (.act (.main (.initialOk false))) = some s₂ ∧
      Run (Mux.Relay.clocked ⟨some 100, none⟩).step (Mux.Relay.CarriesAtReset 100) s₂ bs s₃ ∧
      (Mux.Relay.clocked ⟨some 100, none⟩).step s₃ (.act (.main .idleTimeout)) = some s₄ ∧
      ¬(s₃.now < s₁.now + 100 ∧ s₁.now < s₃.now) := by
  have hok : ∀ (s : Timed Mux.Relay) (a : TimedAct Act),
      (!s.sys.carries a || decide (s.now + 100 ≤ s.idleDeadline)) = true →
      Mux.Relay.CarriesAtReset 100 s a := by
    intro s a h hcarries
    simpa [hcarries] using h
  have hrun₁ : Run (Mux.Relay.clocked ⟨some 100, none⟩).step (Mux.Relay.CarriesAtReset 100)
      (.start (Mux.Relay.timers ⟨some 100, none⟩) 0 (.init .new))
      [.act (.main (.frame (newFrame 1 NETWORK_TCP (.ip (.v4 (ipv4Addr 1 1 1 1) 80)) none
        (some [5])) 0)), .act (.main (.connectOk false))] _ := exec_run hok rfl
  have hlim : (⟨some 100, none⟩ : RelayLimits).idle = some 100 := rfl
  have hrun₃ (s) : Run (Mux.Relay.clocked ⟨some 100, none⟩).step (Mux.Relay.CarriesAtReset 100) s
      [.tick 100] { s with now := s.now + 100 } := .single (fun h => by cases h) rfl
  have hquiet := (idle_means_quiet hlim).2.2 0 .new
  exact ⟨_, _, _, _, _, _, hrun₁, rfl, hrun₃ _, rfl, hquiet hrun₁
    (a := .act (.main (.initialOk false))) (fun _ => by decide) rfl rfl (hrun₃ _)
    (b := .act (.main .idleTimeout)) (fun h => by cases h) rfl ⟨_, rfl, rfl⟩⟩

theorem idle_despite_download :
    ¬(Mux.Relay.clocked ⟨some 100, none⟩).QuietAtIdle Any 100
      (.start (Mux.Relay.timers ⟨some 100, none⟩) 0 (.init .new)) := by
  have hrun : Run (Mux.Relay.clocked ⟨some 100, none⟩).step Any
      (.start (Mux.Relay.timers ⟨some 100, none⟩) 0 (.init .new))
      ((Mux.Relay.openTcp 1 false).map .act ++ [.act (.reader 0 .request),
        .act (.reader 0 .enter), .tick 90, .act (.arrive 0 [7]), .act (.reader 0 (.data 1)),
        .act (.write (.reader 0) .request), .act (.write (.reader 0) .enter)]) _ := exec_any rfl
  intro hquiet
  refine hquiet hrun (a := .act (.write (.reader 0) (.push 9))) trivial rfl rfl
    ((Run.single (a := .act (.write (.reader 0) .flushed)) trivial rfl).snoc (a := .tick 10)
      trivial rfl) (b := .act (.main .idleTimeout)) trivial rfl ⟨_, rfl, rfl⟩ ?_
  decide

end Relay

end SkadiCore
