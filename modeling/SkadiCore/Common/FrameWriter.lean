import SkadiCore.Common.AsyncMutex

/-!
# Frames written by several parties to one byte stream

Parties of type `τ` share a byte stream behind an asynchronous mutex. To write a
frame a party locks the mutex, hands the encoded frame to the stream in as many
partial writes as the stream likes, flushes, and drops the guard. A party may be
dropped at every await point; its guard is dropped with it.

* `Inv`, `op_inv`: only the party that has the lock is inside a frame.
-/

namespace SkadiCore

inductive WritePc (φ β : Type*)
  | idle
  | lock (frame : φ)
  | write (frame : φ) (done rest : List β)
  | flush (frame : φ)
  deriving DecidableEq

def WritePc.frame {φ β : Type*} : WritePc φ β → Option φ
  | idle => none
  | lock f | write f _ _ | flush f => some f

def WritePc.pending {φ β : Type*} : WritePc φ β → List φ
  | lock f | write f _ _ => [f]
  | idle | flush _ => []

/-- What a party does: begin a frame, ask for the mutex, get past it, hand `k`
    bytes to the stream, see the write or the flush fail, complete the flush, be
    dropped. -/
inductive WriteOp (φ : Type*)
  | start (frame : φ)
  | request
  | enter
  | push (k : ℕ)
  | fail
  | flushed
  | cancel
  deriving DecidableEq

/-- The shared stream: `out` are the bytes it took, `sent` the frames completely
    written, each with its writer. A broken stream takes no more bytes. -/
structure FrameWriter (τ φ β : Type*) where
  mutex : AsyncMutex τ
  pc : τ → WritePc φ β
  out : List β
  sent : List (τ × φ)
  broken : Bool

namespace FrameWriter

variable {τ φ β : Type*}

def init : FrameWriter τ φ β := ⟨.free, fun _ => .idle, [], [], false⟩

def start [DecidableEq τ] (w : FrameWriter τ φ β) (p : τ) (f : φ) : FrameWriter τ φ β :=
  { w with pc := Function.update w.pc p (.lock f) }

def op [DecidableEq τ] (enc : φ → List β) (w : FrameWriter τ φ β) (p : τ) (o : WriteOp φ) :
    Option (FrameWriter τ φ β) :=
  match o, w.pc p with
  | .start f, .idle => some (w.start p f)
  | .request, .lock _ =>
    if p ∈ w.mutex.queue then none else some { w with mutex := w.mutex.lock p }
  | .enter, .lock f =>
    if w.mutex.holder = some p then
      some { w with pc := Function.update w.pc p (.write f [] (enc f)) }
    else none
  | .push k, .write f done rest =>
    if w.broken = false ∧ 0 < k ∧ k < rest.length then
      some { w with
        pc := Function.update w.pc p (.write f (done ++ rest.take k) (rest.drop k))
        out := w.out ++ rest.take k }
    else if w.broken = false ∧ k = rest.length then
      some { w with
        pc := Function.update w.pc p (.flush f)
        out := w.out ++ rest
        sent := w.sent ++ [(p, f)] }
    else none
  | .flushed, .flush _ =>
    if w.broken then none
    else some { w with pc := Function.update w.pc p .idle, mutex := w.mutex.leave p }
  | .fail, .write .. | .fail, .flush _ =>
    if w.broken then some { w with pc := Function.update w.pc p .idle, mutex := w.mutex.leave p }
    else none
  | .cancel, _ =>
    some { w with pc := Function.update w.pc p .idle, mutex := w.mutex.leave p }
  | _, _ => none

def break_ (w : FrameWriter τ φ β) : FrameWriter τ φ β := { w with broken := true }

def midFrame (w : FrameWriter τ φ β) (p : τ) : Bool :=
  match w.pc p with
  | .write _ (_ :: _) _ => true
  | _ => false

def issued [DecidableEq τ] (w : FrameWriter τ φ β) (p : τ) : List φ :=
  (w.sent.filterMap fun pf => if pf.1 = p then some pf.2 else none) ++ (w.pc p).pending

def Inside (w : FrameWriter τ φ β) (p : τ) : Prop :=
  (∃ f done rest, w.pc p = .write f done rest) ∨ ∃ f, w.pc p = .flush f

def complete (enc : φ → List β) (w : FrameWriter τ φ β) : List β :=
  (w.sent.map fun pf => enc pf.2).flatten

/-- Only the holder of the lock is inside a frame, the bytes of which are those
    already out followed by those still to write; every party at the mutex wants
    to write a frame. -/
structure Inv (enc : φ → List β) (w : FrameWriter τ φ β) : Prop where
  nodup : w.mutex.queue.Nodup
  waits : ∀ p ∈ w.mutex.queue, w.pc p ≠ .idle
  inside : ∀ p, w.Inside p → w.mutex.holder = some p
  parts : ∀ p f done rest, w.pc p = .write f done rest → done ++ rest = enc f ∧ rest ≠ []

structure Framed (enc : φ → List β) (w : FrameWriter τ φ β) : Prop where
  writing : ∀ p f done rest, w.pc p = .write f done rest → w.out = w.complete enc ++ done
  quiet : (∀ p f done rest, w.pc p ≠ .write f done rest) → w.out = w.complete enc

variable {enc : φ → List β} {w w' : FrameWriter τ φ β} {p : τ} {o : WriteOp φ}

theorem init_inv : (init : FrameWriter τ φ β).Inv enc :=
  ⟨by simp [init, AsyncMutex.free], by simp [init, AsyncMutex.free],
    fun p hp => by simp [Inside, init] at hp, fun p f done rest h => by simp [init] at h⟩

theorem Inv.break_ (hi : w.Inv enc) : w.break_.Inv enc :=
  ⟨hi.nodup, hi.waits, hi.inside, hi.parts⟩

theorem init_framed : (init : FrameWriter τ φ β).Framed enc :=
  ⟨fun p f done rest h => by simp [init] at h, fun _ => by simp [init, complete]⟩

variable {q : τ}

theorem Inv.inside_unique (hi : w.Inv enc) (hp : w.mutex.holder = some p) (hq : w.Inside q) :
    q = p := by
  have := hi.inside q hq
  rw [hp] at this
  exact (Option.some.inj this).symm

variable {w' : FrameWriter τ φ β}

theorem Framed.of_eq (hf : w.Framed enc) (hout : w'.out = w.out) (hsent : w'.sent = w.sent)
    (hpc : ∀ p f done rest, w'.pc p = .write f done rest ↔ w.pc p = .write f done rest) :
    w'.Framed enc := by
  have hc : w'.complete enc = w.complete enc := by simp [complete, hsent]
  refine ⟨fun p f done rest h => ?_, fun h => ?_⟩
  · rw [hout, hc]; exact hf.writing p f done rest ((hpc _ _ _ _).mp h)
  · rw [hout, hc]; exact hf.quiet fun p f done rest h' => h p f done rest ((hpc _ _ _ _).mpr h')

theorem Framed.out_of_holder (hf : w.Framed enc) (hi : w.Inv enc) (hp : w.mutex.holder = some p)
    (hpc : ∀ f done rest, w.pc p ≠ .write f done rest) : w.out = w.complete enc := by
  refine hf.quiet fun q f done rest hq => ?_
  have := hi.inside_unique hp (q := q) (.inl ⟨f, done, rest, hq⟩)
  exact hpc f done rest (this ▸ hq)

variable [DecidableEq τ]

theorem op_cases (h : w.op enc p o = some w') :
    (∃ f, o = .start f ∧ w.pc p = .idle ∧ w' = w.start p f) ∨
    (∃ f, o = .request ∧ w.pc p = .lock f ∧ p ∉ w.mutex.queue ∧
      w' = { w with mutex := w.mutex.lock p }) ∨
    (∃ f, o = .enter ∧ w.pc p = .lock f ∧ w.mutex.holder = some p ∧
      w' = { w with pc := Function.update w.pc p (.write f [] (enc f)) }) ∨
    (∃ k f done rest, o = .push k ∧ w.pc p = .write f done rest ∧ w.broken = false ∧ 0 < k ∧
      k < rest.length ∧ w' = { w with
        pc := Function.update w.pc p (.write f (done ++ rest.take k) (rest.drop k))
        out := w.out ++ rest.take k }) ∨
    (∃ f done rest, o = .push rest.length ∧ w.pc p = .write f done rest ∧ w.broken = false ∧
      w' = { w with
        pc := Function.update w.pc p (.flush f)
        out := w.out ++ rest
        sent := w.sent ++ [(p, f)] }) ∨
    (((o = .flushed ∧ w.broken = false ∧ ∃ f, w.pc p = .flush f) ∨
        (o = .fail ∧ w.broken = true ∧ w.Inside p) ∨ o = .cancel) ∧
      w' = { w with pc := Function.update w.pc p .idle, mutex := w.mutex.leave p }) := by
  cases o with
  | start f =>
    cases hpc : w.pc p <;> simp only [op, hpc, Option.some.injEq, reduceCtorEq] at h
    exact .inl ⟨f, rfl, rfl, h.symm⟩
  | request =>
    cases hpc : w.pc p <;> simp only [op, hpc, reduceCtorEq] at h
    split_ifs at h with hq
    exact .inr (.inl ⟨_, rfl, rfl, hq, by simpa using h.symm⟩)
  | enter =>
    cases hpc : w.pc p <;> simp only [op, hpc, reduceCtorEq] at h
    split_ifs at h with hq
    exact .inr (.inr (.inl ⟨_, rfl, rfl, hq, by simpa using h.symm⟩))
  | push k =>
    cases hpc : w.pc p <;> simp only [op, hpc, reduceCtorEq] at h
    split_ifs at h with h1 h2
    · exact .inr (.inr (.inr (.inl
        ⟨k, _, _, _, rfl, rfl, h1.1, h1.2.1, h1.2.2, by simpa using h.symm⟩)))
    · obtain ⟨hb, rfl⟩ := h2
      exact .inr (.inr (.inr (.inr (.inl ⟨_, _, _, rfl, rfl, hb, by simpa using h.symm⟩))))
  | fail =>
    cases hpc : w.pc p <;> simp only [op, hpc, reduceCtorEq] at h <;> split_ifs at h with hb
    · exact .inr (.inr (.inr (.inr (.inr
        ⟨.inr (.inl ⟨rfl, hb, .inl ⟨_, _, _, hpc⟩⟩), by simpa using h.symm⟩))))
    · exact .inr (.inr (.inr (.inr (.inr
        ⟨.inr (.inl ⟨rfl, hb, .inr ⟨_, hpc⟩⟩), by simpa using h.symm⟩))))
  | flushed =>
    cases hpc : w.pc p <;> simp only [op, hpc, reduceCtorEq] at h
    split_ifs at h with hb
    exact .inr (.inr (.inr (.inr (.inr
      ⟨.inl ⟨rfl, by simpa using hb, _, rfl⟩, by simpa using h.symm⟩))))
  | cancel =>
    refine .inr (.inr (.inr (.inr (.inr ⟨.inr (.inr rfl), ?_⟩))))
    simpa [op, eq_comm] using h

theorem start_issued (f : φ) (h : w.pc p = .idle) : (w.start p f).issued p = w.issued p ++ [f] := by
  simp [issued, start, h, WritePc.pending]

section Op

variable (h : w.op enc p o = some w')
include h

theorem op_pc_of_ne (hq : q ≠ p) : w'.pc q = w.pc q := by
  rcases op_cases h with ⟨f, -, -, rfl⟩ | ⟨f, -, -, -, rfl⟩ | ⟨f, -, -, -, rfl⟩ |
    ⟨k, f, done, rest, -, -, -, -, -, rfl⟩ | ⟨f, done, rest, -, -, -, rfl⟩ | ⟨-, rfl⟩ <;>
    simp [start, hq]

theorem op_frame_none (ho : ∀ f, o ≠ .start f)
    (hq : (w.pc q).frame = none) : (w'.pc q).frame = none := by
  by_cases hqp : q = p
  · subst hqp
    rcases op_cases h with ⟨f, rfl, -⟩ | ⟨f, -, hpc, -⟩ | ⟨f, -, hpc, -⟩ |
      ⟨k, f, done, rest, -, hpc, -⟩ | ⟨f, done, rest, -, hpc, -⟩ | ⟨-, rfl⟩
    case inl => exact absurd rfl (ho f)
    case inr.inr.inr.inr.inr => simp [WritePc.frame]
    all_goals rw [hpc] at hq; cases hq
  · rw [op_pc_of_ne h hqp]; exact hq

theorem op_broken : w'.broken = w.broken := by
  rcases op_cases h with ⟨f, -, -, rfl⟩ | ⟨f, -, -, -, rfl⟩ | ⟨f, -, -, -, rfl⟩ |
    ⟨k, f, done, rest, -, -, -, -, -, rfl⟩ | ⟨f, done, rest, -, -, -, rfl⟩ | ⟨-, rfl⟩ <;> rfl

theorem op_sent :
    w'.sent = w.sent ∨ ∃ f done rest, o = .push rest.length ∧ w.pc p = .write f done rest ∧
      w'.sent = w.sent ++ [(p, f)] ∧ w'.pc p = .flush f := by
  rcases op_cases h with ⟨f, -, -, rfl⟩ | ⟨f, -, -, -, rfl⟩ | ⟨f, -, -, -, rfl⟩ |
    ⟨k, f, done, rest, -, -, -, -, -, rfl⟩ | ⟨f, done, rest, ho, hpc, -, rfl⟩ | ⟨-, rfl⟩
  case inr.inr.inr.inr.inl => exact .inr ⟨f, done, rest, ho, hpc, rfl, by simp⟩
  all_goals exact .inl rfl

theorem op_issued_of_ne (hq : q ≠ p) : w'.issued q = w.issued q := by
  rw [issued, issued, op_pc_of_ne h hq]
  rcases op_sent h with h | ⟨f, done, rest, -, -, h, -⟩
  · rw [h]
  · simp [h, List.filterMap_append, hq.symm]

theorem op_issued (hstart : ∀ f, o ≠ .start f) (hfail : o ≠ .fail)
    (hcancel : o ≠ .cancel) : w'.issued p = w.issued p := by
  rcases op_cases h with ⟨f, rfl, -⟩ | ⟨f, -, -, -, rfl⟩ | ⟨f, -, hpc, -, rfl⟩ |
    ⟨k, f, done, rest, -, hpc, -, -, -, rfl⟩ | ⟨f, done, rest, -, hpc, -, rfl⟩ |
    ⟨⟨-, -, f, hpc⟩ | ⟨rfl, -⟩ | rfl, rfl⟩
  · exact absurd rfl (hstart f)
  · rfl
  all_goals first
    | exact absurd rfl hfail
    | exact absurd rfl hcancel
    | simp [issued, hpc, WritePc.pending, List.filterMap_append]

theorem op_frame (ho : o = .request ∨ o = .enter ∨ ∃ k, o = .push k) :
    (w'.pc p).frame = (w.pc p).frame := by
  rcases op_cases h with ⟨f, rfl, -⟩ | ⟨f, -, -, -, rfl⟩ | ⟨f, -, hpc, -, rfl⟩ |
    ⟨k, f, done, rest, -, hpc, -, -, -, rfl⟩ | ⟨f, done, rest, -, hpc, -, rfl⟩ |
    ⟨⟨rfl, -⟩ | ⟨rfl, -⟩ | rfl, -⟩
  case inr.inl => rfl
  all_goals first | simp [hpc, WritePc.frame] | simp at ho

theorem op_leave (ho : o = .flushed ∨ o = .fail ∨ o = .cancel) :
    w' = { w with pc := Function.update w.pc p .idle, mutex := w.mutex.leave p } ∧
      (o = .flushed → ∃ f, w.pc p = .flush f) ∧ (o = .fail → w.broken = true) := by
  rcases op_cases h with ⟨f, rfl, -⟩ | ⟨f, rfl, -⟩ | ⟨f, rfl, -⟩ | ⟨k, f, done, rest, rfl, -⟩ |
    ⟨f, done, rest, rfl, -⟩ | ⟨ho, hw⟩
  case inr.inr.inr.inr.inr =>
    refine ⟨hw, ?_, ?_⟩ <;> rintro rfl <;>
      rcases ho with ⟨ho, -, hf⟩ | ⟨ho, hb, -⟩ | ho <;> cases ho
    · exact hf
    · exact hb
  all_goals simp at ho

theorem op_pc_idle (ho : o = .flushed ∨ o = .fail ∨ o = .cancel) :
    w'.pc p = .idle := by
  rw [(op_leave h ho).1]
  exact Function.update_self ..

end Op

theorem Inv.update_pc (hi : w.Inv enc) {pc : WritePc φ β} (hpc : pc ≠ .idle)
    (hin : ((∃ f done rest, pc = .write f done rest) ∨ ∃ f, pc = .flush f) →
      w.mutex.holder = some p)
    (hparts : ∀ f done rest, pc = .write f done rest → done ++ rest = enc f ∧ rest ≠ [])
    (hw : w'.mutex = w.mutex) (hw' : w'.pc = Function.update w.pc p pc) : w'.Inv enc := by
  refine ⟨by rw [hw]; exact hi.nodup, ?_, ?_, ?_⟩
  · intro q hq
    rw [hw] at hq
    rw [hw']
    by_cases hqp : q = p
    · subst hqp; simpa using hpc
    · rw [Function.update_of_ne hqp]; exact hi.waits q hq
  · intro q hq
    rw [hw]
    by_cases hqp : q = p
    · subst hqp
      exact hin (by simpa [Inside, hw'] using hq)
    · exact hi.inside q (by simpa [Inside, hw', Function.update_of_ne hqp] using hq)
  · intro q f done rest hq
    rw [hw'] at hq
    by_cases hqp : q = p
    · subst hqp; exact hparts f done rest (by simpa using hq)
    · rw [Function.update_of_ne hqp] at hq; exact hi.parts q f done rest hq

theorem Inv.leave (hi : w.Inv enc) :
    ({ w with pc := Function.update w.pc p .idle, mutex := w.mutex.leave p } :
      FrameWriter τ φ β).Inv enc := by
  refine ⟨hi.nodup.erase p, ?_, ?_, ?_⟩
  · intro q hq
    obtain ⟨hne, hq⟩ := hi.nodup.mem_erase_iff.mp hq
    simpa [Function.update_of_ne hne] using hi.waits q hq
  · intro q hq
    have hne : q ≠ p := by rintro rfl; simp [Inside] at hq
    exact AsyncMutex.holder_leave_of_ne
      (hi.inside q (by simpa [Inside, Function.update_of_ne hne] using hq)) hne
  · intro q f done rest hq
    have hne : q ≠ p := by rintro rfl; simp at hq
    exact hi.parts q f done rest (by simpa [Function.update_of_ne hne] using hq)

theorem Inv.start (hi : w.Inv enc) (p : τ) (f : φ) : (w.start p f).Inv enc :=
  hi.update_pc (by simp) (by simp) (by simp) rfl rfl

theorem op_inv (henc : ∀ f, enc f ≠ []) (hi : w.Inv enc) (h : w.op enc p o = some w') :
    w'.Inv enc := by
  rcases op_cases h with ⟨f, rfl, hpc, rfl⟩ | ⟨f, rfl, hpc, hq, rfl⟩ | ⟨f, rfl, hpc, hh, rfl⟩ |
    ⟨k, f, done, rest, rfl, hpc, hb, hk, hk', rfl⟩ | ⟨f, done, rest, rfl, hpc, hb, rfl⟩ | ⟨-, rfl⟩
  · exact hi.start p f
  · refine ⟨?_, ?_, ?_, hi.parts⟩
    · simpa [AsyncMutex.lock, List.nodup_append] using
        ⟨hi.nodup, fun a ha e => hq (e ▸ ha)⟩
    · intro q hmem
      rcases List.mem_append.mp hmem with hmem | hmem
      · exact hi.waits q hmem
      · rw [List.mem_singleton.mp hmem, hpc]; simp
    · intro q hin
      exact AsyncMutex.holder_lock_of_holder p (hi.inside q hin)
  · refine hi.update_pc (by simp) (fun _ => hh) ?_ rfl rfl
    rintro f' done rest ⟨⟩
    exact ⟨by simp, henc f⟩
  · refine hi.update_pc (by simp) (fun _ => hi.inside p (.inl ⟨f, done, rest, hpc⟩)) ?_ rfl rfl
    rintro f' done' rest' ⟨⟩
    obtain ⟨heq, -⟩ := hi.parts p f done rest hpc
    refine ⟨by rw [List.append_assoc, List.take_append_drop, heq], ?_⟩
    intro hnil
    rw [List.drop_eq_nil_iff] at hnil
    omega
  · exact hi.update_pc (by simp) (fun _ => hi.inside p (.inl ⟨f, done, rest, hpc⟩)) (by simp) rfl
      rfl
  · exact hi.leave

theorem Framed.leave (hf : w.Framed enc) (hmid : w.midFrame p = false) :
    ({ w with pc := Function.update w.pc p .idle, mutex := w.mutex.leave p } :
      FrameWriter τ φ β).Framed enc := by
  have hne : ∀ q f done rest, Function.update w.pc p .idle q = .write f done rest →
      q ≠ p ∧ w.pc q = .write f done rest := by
    intro q f done rest hq
    have hqp : q ≠ p := by rintro rfl; simp at hq
    exact ⟨hqp, by rwa [Function.update_of_ne hqp] at hq⟩
  refine ⟨fun q f done rest hq => hf.writing q f done rest (hne q f done rest hq).2, fun hq => ?_⟩
  by_cases hpw : ∃ f done rest, w.pc p = .write f done rest
  · -- a frame of which nothing is out yet
    obtain ⟨f, done, rest, hpw⟩ := hpw
    have hdone : done = [] := by
      cases done with
      | nil => rfl
      | cons b done => simp [midFrame, hpw] at hmid
    have := hf.writing p f done rest hpw
    rwa [hdone, List.append_nil] at this
  · refine hf.quiet fun q f done rest hq' => ?_
    have hqp : q ≠ p := by rintro rfl; exact hpw ⟨f, done, rest, hq'⟩
    exact hq q f done rest (by simpa [Function.update_of_ne hqp] using hq')

theorem op_framed (hi : w.Inv enc) (hf : w.Framed enc) (hb : w.broken = false)
    (hmid : o = .cancel → w.midFrame p = false) (h : w.op enc p o = some w') : w'.Framed enc := by
  have hother : ∀ q f done rest, w.mutex.holder = some p → w.pc q = .write f done rest → q = p :=
    fun q f done rest hp hq => hi.inside_unique hp (.inl ⟨f, done, rest, hq⟩)
  rcases op_cases h with ⟨f, rfl, hpc, rfl⟩ | ⟨f, rfl, hpc, hq, rfl⟩ | ⟨f, rfl, hpc, hh, rfl⟩ |
    ⟨k, f, done, rest, rfl, hpc, -, hk, hk', rfl⟩ | ⟨f, done, rest, rfl, hpc, -, rfl⟩ | ⟨ho, rfl⟩
  · refine hf.of_eq rfl rfl fun q f' done rest => ?_
    by_cases hqp : q = p
    · subst hqp; simp [start, hpc]
    · simp [start, hqp]
  · exact hf.of_eq rfl rfl fun _ _ _ _ => Iff.rfl
  · have hout := hf.out_of_holder hi hh (by simp [hpc])
    refine ⟨fun q f' done rest hq => ?_, fun hq => absurd (by simp) (hq p f [] (enc f))⟩
    by_cases hqp : q = p
    · subst hqp
      simp only [Function.update_self, WritePc.write.injEq] at hq
      obtain ⟨-, rfl, -⟩ := hq
      simpa [complete] using hout
    · simp only [Function.update_of_ne hqp] at hq
      exact absurd (hother q f' done rest hh hq) hqp
  · have hh := hi.inside p (.inl ⟨f, done, rest, hpc⟩)
    have hout := hf.writing p f done rest hpc
    refine ⟨fun q f' done' rest' hq => ?_,
      fun hq => absurd (by simp) (hq p f (done ++ rest.take k) (rest.drop k))⟩
    by_cases hqp : q = p
    · subst hqp
      simp only [Function.update_self, WritePc.write.injEq] at hq
      obtain ⟨-, rfl, -⟩ := hq
      simp only [complete] at hout ⊢
      rw [hout, List.append_assoc]
    · simp only [Function.update_of_ne hqp] at hq
      exact absurd (hother q f' done' rest' hh hq) hqp
  · have hh := hi.inside p (.inl ⟨f, done, rest, hpc⟩)
    have hout := hf.writing p f done rest hpc
    obtain ⟨heq, -⟩ := hi.parts p f done rest hpc
    refine ⟨fun q f' done' rest' hq => ?_, fun _ => ?_⟩
    · by_cases hqp : q = p
      · subst hqp; simp at hq
      · simp only [Function.update_of_ne hqp] at hq
        exact absurd (hother q f' done' rest' hh hq) hqp
    · simp only [complete] at hout ⊢
      simp [hout, ← heq]
  · rcases ho with ⟨rfl, -, f, hpc⟩ | ⟨rfl, hb', -⟩ | rfl
    · exact hf.leave (by simp [midFrame, hpc])
    · rw [hb] at hb'; cases hb'
    · exact hf.leave (hmid rfl)

/-! ## Progress -/

def opStep (enc : φ → List β) (w : FrameWriter τ φ β) (po : τ × WriteOp φ) :
    Option (FrameWriter τ φ β) :=
  w.op enc po.1 po.2

def Serves (p : τ) : FrameWriter τ φ β → τ × WriteOp φ → Prop := fun _ po =>
  match po.2 with
  | .request | .enter | .push _ => True
  | .flushed => po.1 ≠ p
  | .start _ | .fail | .cancel => False

variable {ops : List (τ × WriteOp φ)}

theorem serves_inv (henc : ∀ f, enc f ≠ []) (hi : w.Inv enc)
    (h : Run (opStep enc) (Serves p) w ops w') : w'.Inv enc :=
  h.invariant (fun _ _ _ hi _ hst => op_inv henc hi hst) hi

theorem serves_broken (h : Run (opStep enc) (Serves p) w ops w') : w'.broken = w.broken :=
  h.invariant (I := fun v => v.broken = w.broken)
    (fun _ _ _ hv _ hst => (op_broken hst).trans hv) rfl

theorem holder_writes (hi : w.Inv enc) (hb : w.broken = false) (hq : w.mutex.holder = some q) :
    ∃ ops w' f, Run (opStep enc) (Serves p) w ops w' ∧ (w.pc q).frame = some f ∧
      w'.pc q = .flush f ∧ w'.mutex = w.mutex ∧ ∀ r, r ≠ q → w'.pc r = w.pc r := by
  -- the write of the bytes left, in one piece
  have hpush : ∀ {v : FrameWriter τ φ β} {f done rest}, v.broken = false →
      v.pc q = .write f done rest → ∃ v', opStep enc v (q, .push rest.length) = some v' ∧
        v'.pc q = .flush f ∧ v'.mutex = v.mutex ∧ ∀ r, r ≠ q → v'.pc r = v.pc r := by
    intro v f done rest hv hpc
    refine ⟨{ v with
      pc := Function.update v.pc q (.flush f), out := v.out ++ rest, sent := v.sent ++ [(q, f)] },
      by simp [opStep, op, hpc, hv], by simp, rfl, fun r hr => by simp [hr]⟩
  cases hpc : w.pc q with
  | idle => exact absurd hpc (hi.waits q (AsyncMutex.mem_of_holder hq))
  | flush f => exact ⟨[], w, f, .nil w, rfl, hpc, rfl, fun _ _ => rfl⟩
  | write f done rest =>
    obtain ⟨w', hst, hpc', hm, hother⟩ := hpush hb hpc
    exact ⟨_, w', f, .single (by trivial) hst, rfl, hpc', hm, hother⟩
  | lock f =>
    have hst : opStep enc w (q, .enter) =
        some { w with pc := Function.update w.pc q (.write f [] (enc f)) } := by
      simp [opStep, op, hpc, hq]
    obtain ⟨w', hst', hpc', hm, hother⟩ := hpush
      (v := { w with pc := Function.update w.pc q (.write f [] (enc f)) }) hb
      (Function.update_self ..)
    refine ⟨_, w', f, (Run.single (C := Serves p) (by trivial) hst).append
      (.single (by trivial) hst'), rfl, hpc', hm, fun r hr => ?_⟩
    rw [hother r hr]
    simp [hr]

theorem exists_flush_of_mem (henc : ∀ f, enc f ≠ []) (hi : w.Inv enc) (hb : w.broken = false)
    {f : φ} (hf : (w.pc p).frame = some f) (hp : p ∈ w.mutex.queue) :
    ∃ ops w', Run (opStep enc) (Serves p) w ops w' ∧ w'.pc p = .flush f := by
  obtain ⟨before, behind, hqueue⟩ := List.append_of_mem hp
  -- by induction on the parties before `p`
  induction before generalizing w with
  | nil =>
    have hh : w.mutex.holder = some p := by simp [AsyncMutex.holder, hqueue]
    obtain ⟨ops, w', f', hrun, hf', hpc, -, -⟩ := holder_writes (p := p) hi hb hh
    rw [hf] at hf'
    cases hf'
    exact ⟨ops, w', hrun, hpc⟩
  | cons q before ih =>
    have hh : w.mutex.holder = some q := by simp [AsyncMutex.holder, hqueue]
    have hpq : p ≠ q := by
      rintro rfl
      have := hi.nodup
      simp [hqueue] at this
    obtain ⟨ops, w₁, f', hrun, -, hpc, hm, hother⟩ := holder_writes (p := p) hi hb hh
    have hb₁ : w₁.broken = false := (serves_broken hrun).trans hb
    have hst : opStep enc w₁ (q, .flushed) =
        some { w₁ with pc := Function.update w₁.pc q .idle, mutex := w₁.mutex.leave q } := by
      simp [opStep, op, hpc, hb₁]
    have hrun₂ := hrun.snoc (a := (q, WriteOp.flushed)) hpq.symm hst
    have hqueue₂ : (w₁.mutex.leave q).queue = before ++ p :: behind := by
      rw [hm, AsyncMutex.queue_leave_holder hh, hqueue]
      rfl
    obtain ⟨ops', w', hrun', hpc'⟩ := ih (serves_inv henc hi hrun₂) hb₁
      (by simpa [hpq, hother p hpq] using hf) (by simp [hqueue₂]) hqueue₂
    exact ⟨_, w', hrun₂.append hrun', hpc'⟩

theorem exists_flush (henc : ∀ f, enc f ≠ []) (hi : w.Inv enc) (hb : w.broken = false) {f : φ}
    (hf : (w.pc p).frame = some f) :
    ∃ ops w', Run (opStep enc) (Serves p) w ops w' ∧ w'.pc p = .flush f := by
  by_cases hp : p ∈ w.mutex.queue
  · exact exists_flush_of_mem henc hi hb hf hp
  · have hpc : w.pc p = .lock f := by
      have hout : ¬ w.Inside p := fun h => hp (AsyncMutex.mem_of_holder (hi.inside p h))
      cases hpc : w.pc p with
      | idle => rw [hpc] at hf; cases hf
      | lock f' => rw [hpc] at hf; cases hf; rfl
      | write f' done rest => exact absurd (.inl ⟨f', done, rest, hpc⟩) hout
      | flush f' => exact absurd (.inr ⟨f', hpc⟩) hout
    have hst : opStep enc w (p, .request) = some { w with mutex := w.mutex.lock p } := by
      simp [opStep, op, hpc, hp]
    have hrun := Run.single (C := Serves p) (by trivial) hst
    obtain ⟨ops, w', hrun', hpc'⟩ := exists_flush_of_mem (p := p) henc (serves_inv henc hi hrun) hb
      hf (by simp [AsyncMutex.lock])
    exact ⟨_, w', hrun.append hrun', hpc'⟩

end FrameWriter

end SkadiCore
