import SkadiCore.Relay.Copy

/-!
# When a copy can meet its deadlines

In `copy_bidirectional_with_limits` (`crates/skadi-transport/src/relay.rs`, lines 58-110)
the deadlines are branches of `select!`, while `write_all` and `shutdown` are awaited inside
the other branches. A peer that stops reading keeps the loop in such an await.

* `oneBusy_run`: with a limit, at most one direction is busy.
-/

namespace SkadiCore.Relay

def CopyAct.ofSink (d : Dir) : CopyAct → Bool
  | write d' _ | writeFails d' _ | close d' | closeFails d' _ => decide (d' = d)
  | _ => false

@[simp] theorem Dir.other_other (d : Dir) : d.other.other = d := by cases d <;> rfl

theorem Dir.other_ne (d : Dir) : d.other ≠ d := by cases d <;> simp [Dir.other]

theorem Dir.eq_or_eq_other (d d' : Dir) : d' = d ∨ d' = d.other := by
  cases d <;> cases d' <;> simp [Dir.other]

namespace Copy

variable {c c' : Copy} {act : CopyAct} {as : List CopyAct} {d : Dir} {p : Pipe Byte}
  {limits : RelayLimits} {now : ℕ} {fromA fromB : Bytes} {C : Copy → CopyAct → Prop}

/-- The loop is at its `select!` and has something to read. -/
def Waits (c : Copy) : Prop := (∀ d, (c.pipe d).busy = false) ∧ ∃ d, (c.pipe d).readDone = false

theorem selecting_iff : c.selecting = true ↔ c.Waits := by
  have hall : (∀ d, (c.pipe d).busy = false) ↔ c.ab.busy = false ∧ c.ba.busy = false := by
    constructor
    · exact fun h => ⟨h .aToB, h .bToA⟩
    · rintro ⟨hab, hba⟩ (- | -)
      · exact hab
      · exact hba
  have hex : (∃ d, (c.pipe d).readDone = false) ↔
      c.ab.readDone = false ∨ c.ba.readDone = false := by
    constructor
    · rintro ⟨- | -, h⟩
      · exact .inl h
      · exact .inr h
    · rintro (h | h)
      · exact ⟨.aToB, h⟩
      · exact ⟨.bToA, h⟩
  simp only [Waits, hall, hex, selecting, Bool.and_eq_true, Bool.not_eq_true',
    Bool.and_eq_false_iff]

theorem not_selecting (hbusy : (c.pipe d).busy = true) : c.selecting = false := by
  rw [← Bool.not_eq_true, selecting_iff]
  exact fun h => by simp [h.1 d] at hbusy

/-! ## What stays -/

@[simp] theorem limits_moved : (c.moved d p).limits = c.limits := by
  unfold moved
  split_ifs <;> cases d <;> rfl

@[simp] theorem lifetimeDeadline_moved : (c.moved d p).lifetimeDeadline = c.lifetimeDeadline := by
  unfold moved
  split_ifs <;> cases d <;> rfl

@[simp] theorem limits_ret (r : Except IoError (ℕ × ℕ)) : (c.ret r).limits = c.limits := rfl

theorem step_limits (h : c.step act = some c') :
    c'.limits = c.limits ∧ c'.lifetimeDeadline = c.lifetimeDeadline := by
  obtain ⟨-, ⟨dt, -, rfl⟩ | ⟨d, p, -, -, rfl⟩ | ⟨e, -, rfl⟩ | ⟨-, -, rfl⟩⟩ := step_cases h
  · exact ⟨rfl, rfl⟩
  · exact ⟨limits_moved, lifetimeDeadline_moved⟩
  · exact ⟨rfl, rfl⟩
  · exact ⟨rfl, rfl⟩

theorem run_limits (h : Run Copy.step C (start limits now fromA fromB) as c) :
    c.limits = limits ∧ c.lifetimeDeadline = now + limits.maxLifetime.getD 0 := by
  refine h.invariant
    (I := fun c => c.limits = limits ∧ c.lifetimeDeadline = now + limits.maxLifetime.getD 0)
    (fun _ _ _ hI _ hst => ?_) ⟨rfl, rfl⟩
  obtain ⟨hl, hd⟩ := step_limits hst
  exact ⟨hl.trans hI.1, hd.trans hI.2⟩

/-! ## One direction at a time -/

def OneBusy (c : Copy) : Prop :=
  c.limits.hasLimits = true → ∀ d, (c.pipe d).busy = true → (c.pipe d.other).busy = false

theorem OneBusy.step (hc : c.OneBusy) (h : c.step act = some c') : c'.OneBusy := by
  obtain ⟨-, ⟨dt, -, rfl⟩ | ⟨d, o, p, -, hmay, hp, rfl⟩ | ⟨e, -, rfl⟩ | ⟨-, -, rfl⟩⟩ :=
    step_effect h
  · intro hlim d
    cases d
    · exact hc hlim .aToB
    · exact hc hlim .bToA
  · intro hlim
    rw [limits_moved] at hlim
    -- the direction that moves was busy, or reads while the other one is not busy
    have hfree : (c.pipe d.other).busy = false := by
      rcases Pipe.phase_of_apply hp with ⟨-, hphase⟩ | ⟨-, hbusy⟩
      · simpa [mayRead, hlim] using hmay hphase
      · exact hc hlim d hbusy
    intro d' hbusy
    rcases Dir.eq_or_eq_other d d' with rfl | rfl
    · simpa [Dir.other_ne] using hfree
    · simp [Dir.other_ne, hfree] at hbusy
  · simpa [OneBusy] using hc
  · simpa [OneBusy] using hc

theorem oneBusy_run (h : Run Copy.step C (start limits now fromA fromB) as c) : c.OneBusy := by
  refine h.invariant (fun _ _ _ hc _ hst => hc.step hst) ?_
  rintro - (- | -) hbusy <;> cases hbusy

theorem step_of_busy (hlim : c.limits.hasLimits = true) (hone : c.OneBusy)
    (hbusy : (c.pipe d).busy = true) (h : c.step act = some c') :
    (∃ dt, act = .tick dt) ∨ act.ofSink d = true := by
  -- neither stream is read, and nothing else is written or shut down
  have hread : ∀ d', (c.pipe d').phase = .reading → c.mayRead d' ≠ true := by
    intro d' hphase hmay
    rcases Dir.eq_or_eq_other d d' with rfl | rfl
    · simp [Pipe.busy, hphase] at hbusy
    · simp [mayRead, hlim, hbusy] at hmay
  have honly : ∀ d', (c.pipe d').busy = true → d' = d := by
    intro d' hbusy'
    rcases Dir.eq_or_eq_other d d' with rfl | rfl
    · rfl
    · simp [hone hlim d hbusy] at hbusy'
  obtain ⟨hres, ⟨dt, rfl, -⟩ | ⟨d', o, p, rfl, hmay, hp, -⟩ | ⟨e, hb, -⟩ | ⟨-, hdone, -⟩⟩ :=
    step_effect h
  · exact .inl ⟨dt, rfl⟩
  · rcases Pipe.phase_of_apply hp with ⟨-, hphase⟩ | ⟨ho, hbusy'⟩
    · exact absurd (hmay hphase) (hread d' hphase)
    · rw [honly d' hbusy']
      cases o <;> simp_all [Pipe.Op.isRead, CopyAct.ofOp, CopyAct.ofSink]
  · simp only [step, hres, Option.isSome_none, Bool.false_eq_true, if_false] at h
    cases act with
    | readFails d' e =>
      simp only [Option.ite_none_right_eq_some] at h
      exact absurd h.1.1 (hread d' h.1.2)
    | writeFails d' e =>
      simp only [Option.ite_none_right_eq_some] at h
      exact .inr (decide_eq_true (honly d' (Pipe.busy_of_pending h.1)))
    | closeFails d' e =>
      simp only [Option.ite_none_right_eq_some] at h
      exact .inr (decide_eq_true (honly d' (by simp [Pipe.busy, h.1])))
    | idle | lifetime => simp [not_selecting hbusy] at h
    | tick _ | read _ _ | eof _ | write _ _ | close _ | finish => cases hb
  · simp [Pipe.busy, hdone d] at hbusy

/-- In every run: behind a deadline, the step that returns its error is enabled iff the
    loop waits. While a direction is busy, nothing but its sink makes the call go on. -/
theorem deadline_enabled_iff (limits : RelayLimits) (now : ℕ) (fromA fromB : Bytes)
    (hrun : Run Copy.step Any (start limits now fromA fromB) as c) (hres : c.result = none) :
    (∀ lifetime, limits.maxLifetime = some lifetime → now + lifetime ≤ c.now →
      (c.step .lifetime = some (c.ret (.error ⟨.timedOut, SESSION_LIFETIME_MSG⟩)) ↔ c.Waits)) ∧
    (limits.idle.isSome = true → c.idleDeadline ≤ c.now →
      (c.step .idle = some (c.ret (.error ⟨.timedOut, IDLE_TIMEOUT_MSG⟩)) ↔ c.Waits)) ∧
    (limits.hasLimits = true → ∀ d, (c.pipe d).busy = true → ∀ act c', c.step act = some c' →
      (∃ dt, act = .tick dt) ∨ act.ofSink d = true) := by
  obtain ⟨hlimits, hdeadline⟩ := run_limits hrun
  refine ⟨fun lifetime hmax hpassed => ?_, fun hidle hpassed => ?_,
    fun hlim d hbusy act c' hst => ?_⟩
  · have hpassed' : c.lifetimeDeadline ≤ c.now := by simpa [hdeadline, hmax] using hpassed
    rw [← selecting_iff]
    simp [step, hres, hlimits, hmax, hpassed']
  · rw [← selecting_iff]
    simp [step, hres, hlimits, hidle, hpassed]
  · exact step_of_busy (hlimits ▸ hlim) (oneBusy_run hrun) hbusy hst

theorem deadline_stalled :
    ∃ as c, Run Copy.step Any (start ⟨some 10, some 50⟩ 0 [1] []) as c ∧ c.result = none ∧
      0 + 50 ≤ c.now ∧ c.idleDeadline ≤ c.now ∧ c.step .lifetime = none ∧ c.step .idle = none ∧
      ∀ act c', c.step act = some c' → (∃ dt, act = .tick dt) ∨ act.ofSink .aToB = true := by
  have hrun : Run Copy.step Any (start ⟨some 10, some 50⟩ 0 [1] []) [.read .aToB 1, .tick 1000] _ :=
    exec_any rfl
  exact ⟨_, _, hrun, rfl, by decide, by decide, rfl, rfl,
    fun act c' hst => step_of_busy rfl (oneBusy_run hrun) rfl hst⟩

theorem deadline_enabled_waiting :
    ∃ as c, Run Copy.step Any (start ⟨none, some 50⟩ 0 [1] []) as c ∧
      c.step .lifetime = some (c.ret (.error ⟨.timedOut, SESSION_LIFETIME_MSG⟩)) := by
  have hrun : Run Copy.step Any (start ⟨none, some 50⟩ 0 [1] [])
      [.read .aToB 1, .write .aToB 1, .tick 50] _ := exec_any rfl
  exact ⟨_, _, hrun, ((deadline_enabled_iff _ _ _ _ hrun rfl).1 50 rfl (by decide)).mpr
    (selecting_iff.mp rfl)⟩

end Copy

end SkadiCore.Relay
