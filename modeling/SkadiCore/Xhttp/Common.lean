import SkadiCore.Common.Bytes
import SkadiCore.Common.Channel
import SkadiCore.Common.Run
import SkadiCore.Core.Io

/-!
# The XHTTP downlink

Model of `ChannelWriter` (`crates/skadi-transport/src/xhttp/common.rs`, lines 80-151),
which writes the downlink into the body of an HTTP response through a bounded
channel. `XhttpIo` passes its calls on (`xhttp/accept.rs`, lines 54-70).
-/

namespace SkadiCore.Xhttp

inductive Poll (α : Type)
  | ready (a : α)
  | pending

structure ChannelWriter (capacity : ℕ) where
  tx : Channel Bytes capacity
  pending : Bytes

def bodyClosed : IoError := ⟨.brokenPipe, "xhttp response body closed"⟩

namespace ChannelWriter

variable {capacity : ℕ}

def new (tx : Channel Bytes capacity) : ChannelWriter capacity := ⟨tx, []⟩

variable (w : ChannelWriter capacity)

/-- `poll_flush` (lines 128-146). A send that succeeds empties `pending`, so the loop
    makes at most one. -/
def pollFlush : ChannelWriter capacity × Poll (Except IoError Unit) :=
  if w.pending.isEmpty then (w, .ready (.ok ()))
  else
    match w.tx.trySend w.pending with
    | .ok tx => (⟨tx, []⟩, .ready (.ok ()))
    | .error .full => (w, .pending)
    | .error .closed => (w, .ready (.error bodyClosed))

def sendBuf (buf : Bytes) :
    ChannelWriter capacity × Poll (Except IoError ℕ) :=
  match w.tx.trySend buf with
  | .ok tx => ({ w with tx := tx }, .ready (.ok buf.length))
  | .error .full => ({ w with pending := w.pending ++ buf }, .pending)
  | .error .closed => (w, .ready (.error bodyClosed))

/-- `poll_write` (lines 96-126). -/
def pollWrite (buf : Bytes) :
    ChannelWriter capacity × Poll (Except IoError ℕ) :=
  if buf.isEmpty then (w, .ready (.ok 0))
  else if !w.pending.isEmpty then
    match w.pollFlush with
    | (w, .ready (.ok ())) => w.sendBuf buf
    | (w, .ready (.error e)) => (w, .ready (.error e))
    | (w, .pending) => (w, .pending)
  else w.sendBuf buf

/-- `poll_shutdown` (lines 148-150). -/
def pollShutdown :
    ChannelWriter capacity × Poll (Except IoError Unit) := w.pollFlush

def produced : Bytes := w.tx.sent.flatten ++ w.pending

variable {w : ChannelWriter capacity} {buf : Bytes}

theorem pollFlush_cases (w : ChannelWriter capacity) :
    (w.pollFlush.1.pending = [] ∧ w.pollFlush.1.produced = w.produced ∧
        w.pollFlush.2 = .ready (.ok ())) ∨
      (w.pending ≠ [] ∧ w.pollFlush.1 = w ∧
        (w.pollFlush.2 = .ready (.error bodyClosed) ∨ w.pollFlush.2 = .pending)) := by
  unfold pollFlush
  split_ifs with hp
  · exact .inl ⟨List.isEmpty_iff.mp hp, rfl, rfl⟩
  rw [List.isEmpty_iff] at hp
  obtain ⟨-, h⟩ | ⟨-, h⟩ | ⟨tx, -, h, hq, hr⟩ := w.tx.trySend_cases w.pending <;> rw [h]
  · exact .inr ⟨hp, rfl, .inl rfl⟩
  · exact .inr ⟨hp, rfl, .inr rfl⟩
  · exact .inl ⟨rfl, by simp [produced, Channel.sent, hq, hr], rfl⟩

theorem pollFlush_produced (w : ChannelWriter capacity) : w.pollFlush.1.produced = w.produced := by
  obtain ⟨-, h, -⟩ | ⟨-, h, -⟩ := w.pollFlush_cases
  · exact h
  · rw [h]

theorem pollFlush_pending (hp : w.pending = []) : w.pollFlush.1.pending = [] := by
  obtain ⟨h, -, -⟩ | ⟨h, -, -⟩ := w.pollFlush_cases
  · exact h
  · exact absurd hp h

inductive Sends (w : ChannelWriter capacity) (buf : Bytes) :
    ChannelWriter capacity × Poll (Except IoError ℕ) → Prop
  | ok (tx : Channel Bytes capacity) : w.tx.free = true → tx.sent = w.tx.sent ++ [buf] →
      Sends w buf (⟨tx, w.pending⟩, .ready (.ok buf.length))
  | full : w.tx.free = false → Sends w buf (⟨w.tx, w.pending ++ buf⟩, .pending)
  | closed : w.tx.free = true → Sends w buf (w, .ready (.error bodyClosed))

theorem sendBuf_sends (w : ChannelWriter capacity) (buf : Bytes) :
    w.Sends buf (w.sendBuf buf) := by
  unfold sendBuf
  obtain ⟨hf, h⟩ | ⟨hf, h⟩ | ⟨tx, hf, h, hq, hr⟩ := w.tx.trySend_cases buf <;> rw [h]
  · exact .closed hf
  · exact .full hf
  · exact .ok tx hf (by simp [Channel.sent, hq, hr])

theorem pollWrite_cases (w : ChannelWriter capacity) (hbuf : buf ≠ []) :
    (∃ v : ChannelWriter capacity, v.pending = [] ∧ v.produced = w.produced ∧
        (w.pending = [] → v = w) ∧ v.Sends buf (w.pollWrite buf)) ∨
      (w.pending ≠ [] ∧ (w.pollWrite buf).1 = w ∧
        ((w.pollWrite buf).2 = .ready (.error bodyClosed) ∨ (w.pollWrite buf).2 = .pending)) := by
  unfold pollWrite
  rw [if_neg (by simpa using hbuf)]
  split_ifs with hp
  · have hne : w.pending ≠ [] := by simpa using hp
    obtain ⟨hv, hprod, h⟩ | ⟨-, hv, h | h⟩ := w.pollFlush_cases
    · left
      refine ⟨w.pollFlush.1, hv, hprod, fun he => absurd he hne, ?_⟩
      rw [← Prod.mk.eta (p := w.pollFlush), h]
      exact sendBuf_sends _ _
    · right
      rw [← Prod.mk.eta (p := w.pollFlush), hv, h]
      exact ⟨hne, rfl, .inl rfl⟩
    · right
      rw [← Prod.mk.eta (p := w.pollFlush), hv, h]
      exact ⟨hne, rfl, .inr rfl⟩
  · exact .inl ⟨w, by simpa using hp, rfl, fun _ => rfl, sendBuf_sends _ _⟩

end ChannelWriter

/-! ## A writer and its caller -/

structure Downlink (capacity : ℕ) where
  writer : ChannelWriter capacity
  accepted : List Bytes
  outstanding : Option Bytes

inductive DownlinkAct
  | write (buf : Bytes)
  | flush
  | shutdown
  | recv
  | close

namespace Downlink

variable {capacity : ℕ}

def init (capacity : ℕ) : Downlink capacity := ⟨.new (.new Bytes capacity), [], none⟩

variable (s : Downlink capacity)

def wrote (buf : Bytes)
    (r : ChannelWriter capacity × Poll (Except IoError ℕ)) : Downlink capacity :=
  match r.2 with
  | .ready (.ok n) => ⟨r.1, s.accepted ++ [buf.take n], none⟩
  | .ready (.error _) => ⟨r.1, s.accepted, none⟩
  | .pending => ⟨r.1, s.accepted, some buf⟩

def step : DownlinkAct → Option (Downlink capacity)
  | .write buf => some (s.wrote buf (s.writer.pollWrite buf))
  | .flush => some { s with writer := s.writer.pollFlush.1 }
  | .shutdown => some { s with writer := s.writer.pollShutdown.1 }
  | .recv => s.writer.tx.recv.map fun tx => { s with writer := { s.writer with tx := tx } }
  | .close => some { s with writer := { s.writer with tx := s.writer.tx.close } }

def retries : DownlinkAct → Bool
  | .write buf => s.outstanding.all fun old => old.isPrefixOf buf
  | _ => true

def findsRoom : DownlinkAct → Bool
  | .write buf => buf.isEmpty || s.writer.tx.free
  | _ => true

def produced : Bytes := s.writer.produced

/-- What the downlink produced is what its writer accepted. -/
def Exact : Prop := s.produced = s.accepted.flatten

structure Clean : Prop where
  pending_eq : s.writer.pending = []
  exact : s.Exact

def Excess : Prop := s.accepted.flatten.length < s.produced.length

variable {s t : Downlink capacity}

theorem Excess.not_exact (h : s.Excess) : ¬ s.Exact := by
  intro he
  rw [Excess, he] at h
  exact lt_irrefl _ h

/-! ## What a call does -/

variable {buf : Bytes}

theorem wrote_sends {v : ChannelWriter capacity}
    {r : ChannelWriter capacity × Poll (Except IoError ℕ)} (hv : v.pending = [])
    (hprod : v.produced = s.produced) (h : v.Sends buf r) :
    (v.tx.free = true ∧ (s.wrote buf r).writer.pending = [] ∧
        ∃ d, (s.wrote buf r).produced = s.produced ++ d ∧
          (s.wrote buf r).accepted.flatten = s.accepted.flatten ++ d) ∨
      (v.tx.free = false ∧ (s.wrote buf r).produced = s.produced ++ buf ∧
        (s.wrote buf r).accepted = s.accepted) := by
  cases h with
  | ok tx hf hsent =>
    refine .inl ⟨hf, hv, buf, ?_, by simp [wrote]⟩
    rw [← hprod]
    simp [wrote, produced, ChannelWriter.produced, hsent, hv]
  | full hf =>
    refine .inr ⟨hf, ?_, rfl⟩
    rw [← hprod]
    simp [wrote, produced, ChannelWriter.produced]
  | closed hf => exact .inl ⟨hf, hv, [], by simpa [wrote, produced] using hprod, by simp [wrote]⟩

theorem wrote_nil (s : Downlink capacity) :
    s.wrote [] (s.writer.pollWrite []) = ⟨s.writer, s.accepted ++ [[]], none⟩ := rfl

variable {a : DownlinkAct}

theorem step_produced (ha : ∀ buf, a ≠ .write buf) (h : s.step a = some t) :
    t.produced = s.produced ∧ t.accepted = s.accepted ∧
      (s.writer.pending = [] → t.writer.pending = []) := by
  cases a with
  | write buf => exact absurd rfl (ha buf)
  | flush | shutdown =>
    cases h
    exact ⟨s.writer.pollFlush_produced, rfl, ChannelWriter.pollFlush_pending⟩
  | recv =>
    obtain ⟨tx, htx, rfl⟩ := Option.map_eq_some_iff.mp h
    exact ⟨by simp [produced, ChannelWriter.produced, Channel.sent_recv htx], rfl, id⟩
  | close =>
    cases h
    exact ⟨rfl, rfl, id⟩

theorem Clean.write (hs : s.Clean) :
    if s.findsRoom (.write buf) then (s.wrote buf (s.writer.pollWrite buf)).Clean
    else (s.wrote buf (s.writer.pollWrite buf)).Excess := by
  obtain ⟨hp, he⟩ := hs
  obtain rfl | hbuf := eq_or_ne buf []
  · rw [wrote_nil, if_pos (by rfl)]
    exact ⟨hp, by simpa [Exact, produced] using he⟩
  obtain ⟨v, hv, hprod, hvw, h⟩ | ⟨hne, -⟩ := s.writer.pollWrite_cases hbuf
  swap; · exact absurd hp hne
  obtain ⟨hf, hp', d, hprod', hacc⟩ | ⟨hf, hprod', hacc⟩ := wrote_sends hv hprod h
  · rw [hvw hp] at hf
    rw [if_pos (by simp [findsRoom, hf])]
    exact ⟨hp', by rw [Exact, hprod', hacc, he]⟩
  · rw [hvw hp] at hf
    rw [if_neg (by simp [findsRoom, hf, hbuf])]
    have := List.length_pos_iff.mpr hbuf
    rw [Excess, hprod', hacc, he, List.length_append]
    omega

theorem Excess.write (hs : s.Excess) : (s.wrote buf (s.writer.pollWrite buf)).Excess := by
  obtain rfl | hbuf := eq_or_ne buf []
  · rw [wrote_nil]
    simpa [Excess, produced] using hs
  simp only [Excess] at hs ⊢
  obtain ⟨v, hv, hprod, -, h⟩ | ⟨-, hw, h⟩ := s.writer.pollWrite_cases hbuf
  · obtain ⟨-, -, d, hprod', hacc⟩ | ⟨-, hprod', hacc⟩ := wrote_sends hv hprod h <;>
      simp only [hprod', hacc, List.length_append] <;> omega
  · obtain h | h := h <;> simpa [wrote, h, produced, hw] using hs

/-! ## Whole runs -/

theorem Clean.step (hs : s.Clean) (h : s.step a = some t) :
    if s.findsRoom a then t.Clean else t.Excess := by
  by_cases ha : ∃ buf, a = .write buf
  · obtain ⟨buf, rfl⟩ := ha
    cases h
    exact hs.write
  · obtain ⟨hprod, hacc, hp⟩ := step_produced (not_exists.mp ha) h
    have hroom : s.findsRoom a = true := by cases a <;> simp_all [findsRoom]
    rw [if_pos hroom]
    exact ⟨hp hs.pending_eq, by rw [Exact, hprod, hacc, hs.exact]⟩

theorem Excess.step (hs : s.Excess) (h : s.step a = some t) : t.Excess := by
  by_cases ha : ∃ buf, a = .write buf
  · obtain ⟨buf, rfl⟩ := ha
    cases h
    exact hs.write
  · obtain ⟨hprod, hacc, -⟩ := step_produced (not_exists.mp ha) h
    rwa [Excess, hprod, hacc]

theorem init_clean (capacity : ℕ) : (init capacity).Clean := ⟨rfl, rfl⟩

theorem clean_of_run {as : List DownlinkAct}
    (h : Run step (findsRoom · ·) (init capacity) as s) : s.Clean :=
  h.invariant (fun _ _ _ hs hroom hst => by simpa [hroom] using hs.step hst) (init_clean capacity)

theorem findsRoom_or_excess {as : List DownlinkAct} (h : Run step Any (init capacity) as s) :
    Run step (findsRoom · ·) (init capacity) as s ∨ s.Excess := by
  induction h with
  | nil => exact .inl (.nil _)
  | @snoc t u as a _ _ hst ih =>
    obtain ih | ih := ih
    · have hstep := (clean_of_run ih).step hst
      by_cases hroom : t.findsRoom a = true
      · exact .inl (ih.snoc hroom hst)
      · exact .inr (by simpa [hroom] using hstep)
    · exact .inr (ih.step hst)

/-- In every run, of any caller: the downlink has neither duplicated nor lost a byte
    exactly if every `poll_write` of a non-empty buffer found the channel free. -/
theorem downlink_exact_iff {as : List DownlinkAct} (h : Run step Any (init capacity) as s) :
    s.Exact ↔ Run step (findsRoom · ·) (init capacity) as s := by
  constructor
  · intro he
    exact (findsRoom_or_excess h).resolve_right fun hx => hx.not_exact he
  · intro hrun
    exact (clean_of_run hrun).exact

theorem downlink_exact_iff_drained :
    ∃ s, Run step (findsRoom · ·) (init 2) [.write [1], .recv, .write [2, 3], .flush] s ∧
      s.accepted = [[1], [2, 3]] ∧ s.Exact := by
  have hrun : Run step (findsRoom · ·) (init 2) [.write [1], .recv, .write [2, 3], .flush] _ :=
    exec_run (fun _ _ h => h) rfl
  exact ⟨_, hrun, rfl, (downlink_exact_iff hrun.any).mpr hrun⟩

set_option maxRecDepth 4000 in
theorem downlink_duplicated :
    ∃ (as : List DownlinkAct) (s : Downlink 64), Run step (retries · ·) (init 64) as s ∧
      s.outstanding = none ∧ s.writer.pending = [] ∧
      s.accepted = List.replicate 64 [0] ++ [[1]] ∧
      s.writer.tx.sent = List.replicate 64 [0] ++ [[1], [1]] ∧ ¬ s.Exact := by
  obtain ⟨s, hs, hout, hp, hacc, hsent⟩ : ∃ s, exec step retries (init 64)
      (List.replicate 64 (.write [0]) ++ [.write [1], .recv, .recv, .write [1]]) = some s ∧
      s.outstanding = none ∧ s.writer.pending = [] ∧
      s.accepted = List.replicate 64 [0] ++ [[1]] ∧
      s.writer.tx.sent = List.replicate 64 [0] ++ [[1], [1]] := ⟨_, rfl, rfl, rfl, rfl, rfl⟩
  refine ⟨_, s, exec_run (fun _ _ h => h) hs, hout, hp, hacc, hsent, ?_⟩
  rw [Exact, produced, ChannelWriter.produced, hsent, hp, hacc]
  simp

end Downlink

end SkadiCore.Xhttp
