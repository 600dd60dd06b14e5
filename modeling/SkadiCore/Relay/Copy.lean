import SkadiCore.Common.Bytes
import SkadiCore.Common.Pipe
import SkadiCore.Common.Run
import SkadiCore.Relay.Limits

/-!
# Copying between two streams

Model of `copy_bidirectional_with_limits` (`crates/skadi-transport/src/relay.rs`,
lines 29-111). With a limit it is one loop: a buffer that was read from one stream is
written to the other before anything else is read. Without limits the code calls
`tokio::io::copy_bidirectional`, which is taken to copy both directions independently.

* `Inv.run`: in every run each direction carries its stream, and the call returns `Ok`
  only when both have ended.
-/

namespace SkadiCore.Relay

/-- `RelayLimits::has_limits` (lines 21-23). -/
def RelayLimits.hasLimits (l : RelayLimits) : Bool := l.idle.isSome || l.maxLifetime.isSome

inductive Dir
  | aToB
  | bToA
  deriving DecidableEq

def Dir.other : Dir → Dir
  | aToB => bToA
  | bToA => aToB

structure Copy where
  limits : RelayLimits
  now : ℕ
  idleDeadline : ℕ
  lifetimeDeadline : ℕ
  ab : Pipe Byte
  ba : Pipe Byte
  result : Option (Except IoError (ℕ × ℕ))

inductive CopyAct
  | tick (dt : ℕ)
  | read (d : Dir) (n : ℕ)
  | eof (d : Dir)
  | readFails (d : Dir) (e : IoError)
  | write (d : Dir) (k : ℕ)
  | writeFails (d : Dir) (e : IoError)
  | close (d : Dir)
  | closeFails (d : Dir) (e : IoError)
  | idle
  | lifetime
  | finish

def CopyAct.ofOp (d : Dir) : Pipe.Op → CopyAct
  | .read n => read d n
  | .eof => eof d
  | .write k => write d k
  | .close => close d

def CopyAct.benign : CopyAct → Bool
  | readFails _ _ | writeFails _ _ | closeFails _ _ | idle | lifetime => false
  | _ => true

namespace Copy

def start (limits : RelayLimits) (now : ℕ) (fromA fromB : Bytes) : Copy :=
  { limits := limits
    now := now
    idleDeadline := now + limits.idle.getD 0
    lifetimeDeadline := now + limits.maxLifetime.getD 0
    ab := .start fromA
    ba := .start fromB
    result := none }

def pipe (c : Copy) : Dir → Pipe Byte
  | .aToB => c.ab
  | .bToA => c.ba

def setPipe (c : Copy) (d : Dir) (p : Pipe Byte) : Copy :=
  match d with
  | .aToB => { c with ab := p }
  | .bToA => { c with ba := p }

def mayRead (c : Copy) (d : Dir) : Bool := !c.limits.hasLimits || !(c.pipe d.other).busy

def selecting (c : Copy) : Bool :=
  !c.ab.busy && !c.ba.busy && !(c.ab.readDone && c.ba.readDone)

/-- Behind a buffer that was written the idle deadline is set anew (lines 84-88). -/
def resetIdle (c : Copy) : Copy :=
  { c with idleDeadline := (c.limits.idle.map (c.now + ·)).getD c.idleDeadline }

def moved (c : Copy) (d : Dir) (p : Pipe Byte) : Copy :=
  if p.phase = .reading then (c.setPipe d p).resetIdle else c.setPipe d p

def ret (c : Copy) (r : Except IoError (ℕ × ℕ)) : Copy := { c with result := some r }

def step (c : Copy) (act : CopyAct) : Option Copy :=
  if c.result.isSome then none
  else
    match act with
    | .tick dt => some { c with now := c.now + dt }
    | .read d n => if c.mayRead d then ((c.pipe d).read 8192 n).map (c.moved d) else none
    | .eof d => if c.mayRead d then (c.pipe d).eof.map (c.moved d) else none
    | .readFails d e =>
      if c.mayRead d ∧ (c.pipe d).phase = .reading then some (c.ret (.error e)) else none
    | .write d k => ((c.pipe d).write k).map (c.moved d)
    | .writeFails d e => if (c.pipe d).pending ≠ [] then some (c.ret (.error e)) else none
    | .close d => (c.pipe d).close.map (c.moved d)
    | .closeFails d e =>
      if (c.pipe d).phase = .closing then some (c.ret (.error e)) else none
    | .idle =>
      if c.selecting ∧ c.limits.idle.isSome ∧ c.idleDeadline ≤ c.now then
        some (c.ret (.error ⟨.timedOut, IDLE_TIMEOUT_MSG⟩))
      else none
    | .lifetime =>
      if c.selecting ∧ c.limits.maxLifetime.isSome ∧ c.lifetimeDeadline ≤ c.now then
        some (c.ret (.error ⟨.timedOut, SESSION_LIFETIME_MSG⟩))
      else none
    | .finish =>
      if c.ab.phase = .done ∧ c.ba.phase = .done then some (c.ret (.ok (c.ab.count, c.ba.count)))
      else none

/-! ## What a step does -/

variable {c c' : Copy} {act : CopyAct} {d d' : Dir} {p : Pipe Byte}

@[simp] theorem pipe_resetIdle : c.resetIdle.pipe d = c.pipe d := by cases d <;> rfl

@[simp] theorem pipe_ret (r : Except IoError (ℕ × ℕ)) : (c.ret r).pipe d = c.pipe d := by
  cases d <;> rfl

@[simp] theorem pipe_setPipe :
    (c.setPipe d p).pipe d' = if d' = d then p else c.pipe d' := by
  cases d <;> cases d' <;> rfl

@[simp] theorem pipe_moved : (c.moved d p).pipe d' = if d' = d then p else c.pipe d' := by
  unfold moved
  split_ifs <;> simp_all

@[simp] theorem result_moved : (c.moved d p).result = c.result := by
  unfold moved
  split_ifs <;> cases d <;> rfl

theorem step_effect (h : c.step act = some c') : c.result = none ∧
    ((∃ dt, act = .tick dt ∧ c' = { c with now := c.now + dt }) ∨
      (∃ d o p, act = .ofOp d o ∧ ((c.pipe d).phase = .reading → c.mayRead d = true) ∧
        (c.pipe d).apply 8192 o = some p ∧ c' = c.moved d p) ∨
      (∃ e, act.benign = false ∧ c' = c.ret (.error e)) ∨
      (act = .finish ∧ (∀ d, (c.pipe d).phase = .done) ∧
        c' = c.ret (.ok (c.ab.count, c.ba.count)))) := by
  unfold step at h
  by_cases hres : c.result.isSome = true
  · rw [if_pos hres] at h
    cases h
  rw [if_neg hres] at h
  refine ⟨by simpa using hres, ?_⟩
  cases act with
  | tick dt =>
    cases h
    exact .inl ⟨dt, rfl, rfl⟩
  | read d n =>
    simp only [Option.ite_none_right_eq_some, Option.map_eq_some_iff] at h
    obtain ⟨hmay, p, hp, rfl⟩ := h
    exact .inr (.inl ⟨d, .read n, p, rfl, fun _ => hmay, hp, rfl⟩)
  | eof d =>
    simp only [Option.ite_none_right_eq_some, Option.map_eq_some_iff] at h
    obtain ⟨hmay, p, hp, rfl⟩ := h
    exact .inr (.inl ⟨d, .eof, p, rfl, fun _ => hmay, hp, rfl⟩)
  | write d k =>
    simp only [Option.map_eq_some_iff] at h
    obtain ⟨p, hp, rfl⟩ := h
    refine .inr (.inl ⟨d, .write k, p, rfl, fun hphase => ?_, hp, rfl⟩)
    simp [Pipe.write, hphase] at hp
  | close d =>
    simp only [Option.map_eq_some_iff] at h
    obtain ⟨p, hp, rfl⟩ := h
    refine .inr (.inl ⟨d, .close, p, rfl, fun hphase => ?_, hp, rfl⟩)
    simp [Pipe.close, hphase] at hp
  | finish =>
    simp only [Option.ite_none_right_eq_some, Option.some.injEq] at h
    obtain ⟨⟨hab, hba⟩, rfl⟩ := h
    refine .inr (.inr (.inr ⟨rfl, ?_, rfl⟩))
    rintro (- | -)
    · exact hab
    · exact hba
  | readFails _ _ | writeFails _ _ | closeFails _ _ | idle | lifetime =>
    simp only [Option.ite_none_right_eq_some, Option.some.injEq] at h
    obtain ⟨-, rfl⟩ := h
    exact .inr (.inr (.inl ⟨_, rfl, rfl⟩))

theorem step_cases (h : c.step act = some c') : c.result = none ∧
    ((∃ dt, act = .tick dt ∧ c' = { c with now := c.now + dt }) ∨
      (∃ d p, Pipe.Moves 8192 (c.pipe d) p ∧ act.benign = true ∧ c' = c.moved d p) ∨
      (∃ e, act.benign = false ∧ c' = c.ret (.error e)) ∨
      (act = .finish ∧ (∀ d, (c.pipe d).phase = .done) ∧
        c' = c.ret (.ok (c.ab.count, c.ba.count)))) := by
  obtain ⟨hres, htick | ⟨d, o, p, rfl, -, hp, rfl⟩ | hrest⟩ := step_effect h
  · exact ⟨hres, .inl htick⟩
  · exact ⟨hres, .inr (.inl ⟨d, p, Pipe.moves_of_apply hp, by cases o <;> rfl, rfl⟩)⟩
  · exact ⟨hres, .inr (.inr hrest)⟩

/-! ## Runs -/

structure Inv (fromA fromB : Bytes) (c : Copy) : Prop where
  ab : c.ab.Carries fromA
  ba : c.ba.Carries fromB
  done : ∀ r, c.result = some (.ok r) → ∀ d, (c.pipe d).phase = .done

variable {fromA fromB : Bytes}

def stream (fromA fromB : Bytes) : Dir → Bytes
  | .aToB => fromA
  | .bToA => fromB

theorem inv_iff : Inv fromA fromB c ↔ (∀ d, (c.pipe d).Carries (stream fromA fromB d)) ∧
    ∀ r, c.result = some (.ok r) → ∀ d, (c.pipe d).phase = .done := by
  constructor
  · rintro ⟨hab, hba, hdone⟩
    refine ⟨?_, hdone⟩
    rintro (- | -)
    · exact hab
    · exact hba
  · exact fun ⟨hc, hdone⟩ => ⟨hc .aToB, hc .bToA, hdone⟩

theorem inv_start (limits : RelayLimits) (now : ℕ) (fromA fromB : Bytes) :
    Inv fromA fromB (start limits now fromA fromB) :=
  ⟨Pipe.carries_start fromA, Pipe.carries_start fromB, by simp [start]⟩

theorem Inv.step (hc : Inv fromA fromB c) (h : c.step act = some c') : Inv fromA fromB c' := by
  obtain ⟨hcarries, -⟩ := inv_iff.mp hc
  rw [inv_iff]
  obtain ⟨hres, ⟨dt, -, rfl⟩ | ⟨d, p, hp, -, rfl⟩ | ⟨e, -, rfl⟩ | ⟨-, hdone, rfl⟩⟩ := step_cases h
  · refine ⟨fun d => ?_, fun r hr => by simp [hres] at hr⟩
    cases d
    · exact hcarries .aToB
    · exact hcarries .bToA
  · refine ⟨fun d' => ?_, fun r hr => by simp [hres] at hr⟩
    rw [pipe_moved]
    split_ifs with hd
    · subst hd
      exact (hcarries d').moves hp
    · exact hcarries d'
  · exact ⟨by simpa using hcarries, fun r hr => by simp [ret] at hr⟩
  · exact ⟨by simpa using hcarries, fun r _ => by simpa using hdone⟩

theorem Inv.run {C : Copy → CopyAct → Prop} {as : List CopyAct} (hc : Inv fromA fromB c)
    (h : Run Copy.step C c as c') : Inv fromA fromB c' :=
  h.invariant (fun _ _ _ hi _ hst => hi.step hst) hc

/-- The step is not an error of a stream or a timeout. -/
def Benign (_ : Copy) (act : CopyAct) : Prop := act.benign = true

section Progress

variable (hres : c.result = none)
include hres

theorem step_write {k : ℕ} (h : (c.pipe d).write k = some p) :
    c.step (.write d k) = some (c.moved d p) := by
  simp [step, hres, h]

theorem step_close (h : (c.pipe d).close = some p) :
    c.step (.close d) = some (c.moved d p) := by
  simp [step, hres, h]

theorem step_read {n : ℕ} (hfree : (c.pipe d.other).busy = false)
    (h : (c.pipe d).read 8192 n = some p) : c.step (.read d n) = some (c.moved d p) := by
  simp [step, hres, h, mayRead, hfree]

theorem exists_run_free (hc : Inv fromA fromB c) (d : Dir) :
    ∃ as c', Run Copy.step Benign c as c' ∧ c'.result = none ∧ (c'.pipe d).busy = false := by
  by_cases hbusy : (c.pipe d).busy = true
  · obtain ⟨p, (⟨k, hp⟩ | hp), hfree⟩ := ((inv_iff.mp hc).1 d).exists_free hbusy
    · exact ⟨_, _, .single (by exact rfl) (step_write hres hp), by simp [hres], by simp [hfree]⟩
    · exact ⟨_, _, .single (by exact rfl) (step_close hres hp), by simp [hres], by simp [hfree]⟩
  · exact ⟨[], c, .nil c, hres, by simpa using hbusy⟩

theorem exists_step_left (hc : Inv fromA fromB c) (hfree : (c.pipe d.other).busy = false)
    (hne : (c.pipe d).written ≠ stream fromA fromB d) :
    ∃ act c', Benign c act ∧ c.step act = some c' ∧ c'.result = none ∧
      (c'.pipe d.other).busy = false ∧ (c'.pipe d).left < (c.pipe d).left := by
  have hother : d.other ≠ d := by cases d <;> simp [Dir.other]
  obtain ⟨p, (⟨k, hp⟩ | ⟨n, hp⟩), hleft⟩ :=
    ((inv_iff.mp hc).1 d).exists_left (show 0 < 8192 by omega) hne
  · exact ⟨.write d k, _, rfl, step_write hres hp, by simp [hres], by simp [hother, hfree],
      by simpa using hleft⟩
  · exact ⟨.read d n, _, rfl, step_read hres hfree hp, by simp [hres], by simp [hother, hfree],
      by simpa using hleft⟩

theorem exists_run_written_of_free (hc : Inv fromA fromB c)
    (hfree : (c.pipe d.other).busy = false) :
    ∃ as c', Run Copy.step Benign c as c' ∧ (c'.pipe d).written = stream fromA fromB d := by
  have hmove : ∀ c : Copy,
      (c.result = none ∧ Inv fromA fromB c ∧ (c.pipe d.other).busy = false) →
      (c.pipe d).written = stream fromA fromB d ∨ ∃ as c', Run Copy.step Benign c as c' ∧
        (c'.result = none ∧ Inv fromA fromB c' ∧ (c'.pipe d.other).busy = false) ∧
        (c'.pipe d).left < (c.pipe d).left := by
    rintro c ⟨hres, hc, hfree⟩
    by_cases hw : (c.pipe d).written = stream fromA fromB d
    · exact .inl hw
    · obtain ⟨act, c', hb, hst, hres', hfree', hlt⟩ := exists_step_left hres hc hfree hw
      exact .inr ⟨_, c', .single hb hst, ⟨hres', hc.step hst, hfree'⟩, hlt⟩
  obtain ⟨as, c', hrun, -, hw⟩ :=
    Run.exists_of_measure (fun c : Copy => (c.pipe d).left) hmove ⟨hres, hc, hfree⟩
  exact ⟨as, c', hrun, hw⟩

theorem exists_run_written (hc : Inv fromA fromB c) (d : Dir) :
    ∃ as c', Run Copy.step Benign c as c' ∧ (c'.pipe d).written = stream fromA fromB d := by
  obtain ⟨as, c₁, hrun, hres₁, hfree⟩ := exists_run_free hres hc d.other
  obtain ⟨bs, c₂, hrun', hw⟩ := exists_run_written_of_free hres₁ (hc.run hrun) hfree
  exact ⟨_, c₂, hrun.append hrun', hw⟩

end Progress

end Copy

end SkadiCore.Relay
