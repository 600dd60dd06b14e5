import SkadiCore.Reality.Server
import SkadiCore.Relay.Copy

/-!
# The REALITY fallback

Model of `fallback` (`crates/skadi-transport/src/reality/server.rs`, lines 266-285): the
server connects to `dest`, writes what it has read of the client and then copies in
both directions.

* `Inv.run`: in every run, what `dest` got, what is on its way and what the client still
  sends is the stream of the client.
-/

namespace SkadiCore.Reality

open SkadiCore.Relay

/-- Where `fallback` is: connecting; writing `left` of the prefix; copying; or it has
    returned before. `rest` is what was not read of the client. -/
inductive FallbackPhase
  | connecting (buffer rest : Bytes)
  | sending (left rest : Bytes)
  | relaying (copy : Copy)
  | failed (e : AcceptError)

structure Fallback where
  limits : RelayLimits
  answer : Bytes
  sent : Bytes
  phase : FallbackPhase

inductive FallbackAct
  | connect
  | connectFails (e : IoError)
  | connectTimeout
  | write (k : ℕ)
  | writeFails (e : IoError)
  | relay (now : ℕ)
  | copy (act : CopyAct)

def FallbackAct.benign : FallbackAct → Bool
  | connect | write _ | relay _ => true
  | copy act => act.benign
  | _ => false

namespace Fallback

def start (limits : RelayLimits) (answer buffer rest : Bytes) : Fallback :=
  ⟨limits, answer, [], .connecting buffer rest⟩

def toDest (f : Fallback) : Bytes :=
  match f.phase with
  | .relaying copy => f.sent ++ copy.ab.written
  | _ => f.sent

/-- The relay to the fallback server returned its counters. -/
def Succeeded (f : Fallback) : Prop :=
  ∃ copy r, f.phase = .relaying copy ∧ copy.result = some (.ok r)

def step (f : Fallback) (act : FallbackAct) : Option Fallback :=
  match f.phase, act with
  | .connecting buffer rest, .connect => some { f with phase := .sending buffer rest }
  | .connecting _ _, .connectFails e => some { f with phase := .failed (.io e) }
  | .connecting _ _, .connectTimeout =>
    some { f with phase := .failed (.msg "fallback connection timeout") }
  | .sending left rest, .write k =>
    if 0 < k ∧ k ≤ left.length then
      some { f with sent := f.sent ++ left.take k, phase := .sending (left.drop k) rest }
    else none
  | .sending left _, .writeFails e =>
    if left ≠ [] then some { f with phase := .failed (.io e) } else none
  | .sending left rest, .relay now =>
    if left = [] then some { f with phase := .relaying (.start f.limits now rest f.answer) }
    else none
  | .relaying copy, .copy act => (copy.step act).map fun copy => { f with phase := .relaying copy }
  | _, _ => none

/-! ## Runs -/

def Inv (stream : Bytes) (f : Fallback) : Prop :=
  match f.phase with
  | .connecting buffer rest => f.sent = [] ∧ buffer ++ rest = stream
  | .sending left rest => f.sent ++ left ++ rest = stream
  | .relaying copy => ∃ rest, f.sent ++ rest = stream ∧ Copy.Inv rest f.answer copy
  | .failed _ => f.sent <+: stream

variable {f f' : Fallback} {stream : Bytes} {act : FallbackAct}

theorem Inv.step (hf : Inv stream f) (h : f.step act = some f') : Inv stream f' := by
  obtain ⟨limits, answer, sent, phase⟩ := f
  cases phase with
  | connecting buffer rest =>
    obtain ⟨rfl, hstream⟩ := hf
    cases act <;> simp only [Fallback.step, reduceCtorEq, Option.some.injEq] at h
    · subst h
      simpa [Inv] using hstream
    · subst h
      exact List.nil_prefix
    · subst h
      exact List.nil_prefix
  | sending left rest =>
    replace hf : sent ++ left ++ rest = stream := hf
    cases act <;>
      simp only [Fallback.step, reduceCtorEq, Option.ite_none_right_eq_some, Option.some.injEq] at h
    · obtain ⟨-, rfl⟩ := h
      simpa [Inv] using hf
    · obtain ⟨-, rfl⟩ := h
      exact ⟨left ++ rest, by rw [← hf, List.append_assoc]⟩
    · obtain ⟨rfl, rfl⟩ := h
      exact ⟨rest, by simpa using hf, Copy.inv_start _ _ _ _⟩
  | relaying copy =>
    obtain ⟨rest, hstream, hcopy⟩ := hf
    cases act <;> simp only [Fallback.step, reduceCtorEq, Option.map_eq_some_iff] at h
    obtain ⟨copy', hst, rfl⟩ := h
    exact ⟨rest, hstream, hcopy.step hst⟩
  | failed e => cases act <;> simp [Fallback.step] at h

theorem Inv.run {C : Fallback → FallbackAct → Prop} {as : List FallbackAct} (hf : Inv stream f)
    (h : Run Fallback.step C f as f') : Inv stream f' :=
  h.invariant (fun _ _ _ hi _ hst => hi.step hst) hf

theorem Inv.toDest_isPrefix (hf : Inv stream f) : f.toDest <+: stream := by
  obtain ⟨limits, answer, sent, phase⟩ := f
  cases phase with
  | connecting buffer rest =>
    obtain ⟨rfl, -⟩ := hf
    exact List.nil_prefix
  | sending left rest =>
    replace hf : sent ++ left ++ rest = stream := hf
    exact ⟨left ++ rest, by rw [← hf, List.append_assoc]; rfl⟩
  | relaying copy =>
    obtain ⟨rest, rfl, hcopy⟩ := hf
    exact (List.prefix_append_right_inj sent).mpr hcopy.ab.written_isPrefix
  | failed e => exact hf

theorem Inv.toDest_eq (hf : Inv stream f) (h : f.Succeeded) : f.toDest = stream := by
  obtain ⟨copy, r, hphase, hres⟩ := h
  simp only [Inv, hphase] at hf
  obtain ⟨rest, rfl, hcopy⟩ := hf
  have hdone : copy.ab.phase = .done := hcopy.done r hres .aToB
  rw [toDest, hphase]
  exact congrArg (f.sent ++ ·) (hcopy.ab.written_eq (by simp [Pipe.readDone, hdone]))

/-! ## Progress -/

/-- The step is not an error of a socket or a timeout. -/
def Benign (_ : Fallback) (act : FallbackAct) : Prop := act.benign = true

def Alive (f : Fallback) : Prop :=
  match f.phase with
  | .relaying copy => ∀ e, copy.result ≠ some (.error e)
  | .failed _ => False
  | _ => True

theorem Alive.step (hf : Alive f) (hb : act.benign = true) (h : f.step act = some f') :
    Alive f' := by
  obtain ⟨limits, answer, sent, phase⟩ := f
  cases phase with
  | connecting buffer rest =>
    cases act <;> simp only [Fallback.step, reduceCtorEq, Option.some.injEq] at h
    · subst h
      exact trivial
    · cases hb
    · cases hb
  | sending left rest =>
    cases act <;>
      simp only [Fallback.step, reduceCtorEq, Option.ite_none_right_eq_some, Option.some.injEq] at h
    · obtain ⟨-, rfl⟩ := h
      exact trivial
    · cases hb
    · obtain ⟨-, rfl⟩ := h
      intro e
      simp [Copy.start]
  | relaying copy =>
    cases act <;> simp only [Fallback.step, reduceCtorEq, Option.map_eq_some_iff] at h
    obtain ⟨copy', hst, rfl⟩ := h
    intro e he
    obtain ⟨hres, ⟨dt, -, rfl⟩ | ⟨d, p, hp, -, rfl⟩ | ⟨e', hb', rfl⟩ | ⟨-, -, rfl⟩⟩ :=
      Copy.step_cases hst
    · simp [hres] at he
    · simp [hres] at he
    · exact absurd hb (by simp [FallbackAct.benign, hb'])
    · simp [Copy.ret] at he
  | failed e => exact hf.elim

theorem run_copy {copy copy' : Copy} {as : List CopyAct}
    (h : Run Copy.step Copy.Benign copy as copy') (hphase : f.phase = .relaying copy) :
    Run Fallback.step Benign f (as.map .copy) { f with phase := .relaying copy' } := by
  induction h with
  | nil =>
    obtain ⟨limits, answer, sent, phase⟩ := f
    cases hphase
    exact .nil _
  | snoc _ hb hst ih =>
    rw [List.map_append]
    exact ih.snoc hb (congrArg (Option.map _) hst)

theorem exists_run_relaying {copy : Copy} (hf : Inv stream f) (hphase : f.phase = .relaying copy)
    (hres : copy.result = none) :
    ∃ as g, Run Fallback.step Benign f as g ∧ g.toDest = stream := by
  simp only [Inv, hphase] at hf
  obtain ⟨rest, rfl, hcopy⟩ := hf
  obtain ⟨as, copy', hrun, hw⟩ := Copy.exists_run_written hres hcopy .aToB
  exact ⟨_, _, run_copy hrun hphase, congrArg (f.sent ++ ·) hw⟩

theorem exists_run_sent {rest : Bytes} (hf : Inv stream f) (hphase : f.phase = .sending [] rest) :
    ∃ as g, Run Fallback.step Benign f as g ∧ g.toDest = stream := by
  have hst : f.step (.relay 0) =
      some { f with phase := .relaying (.start f.limits 0 rest f.answer) } := by
    unfold Fallback.step
    rw [hphase]
    exact if_pos rfl
  obtain ⟨as, g, hrun, hg⟩ := exists_run_relaying (hf.step hst) rfl rfl
  exact ⟨_, g, (Run.single (by exact rfl) hst).append hrun, hg⟩

theorem exists_run_sending {left rest : Bytes} (hf : Inv stream f)
    (hphase : f.phase = .sending left rest) :
    ∃ as g, Run Fallback.step Benign f as g ∧ g.toDest = stream := by
  by_cases hleft : left = []
  · exact exists_run_sent hf (hleft ▸ hphase)
  · have hlen := List.length_pos_iff.mpr hleft
    have hst : f.step (.write left.length) =
        some { f with sent := f.sent ++ left, phase := .sending [] rest } := by
      unfold Fallback.step
      rw [hphase]
      simp [hlen]
    obtain ⟨as, g, hrun, hg⟩ := exists_run_sent (hf.step hst) rfl
    exact ⟨_, g, (Run.single (by exact rfl) hst).append hrun, hg⟩

theorem exists_run_toDest (hf : Inv stream f) (halive : Alive f) :
    ∃ as g, Run Fallback.step Benign f as g ∧ g.toDest = stream := by
  cases hphase : f.phase with
  | connecting buffer rest =>
    have hst : f.step .connect = some { f with phase := .sending buffer rest } := by
      unfold Fallback.step
      rw [hphase]
    obtain ⟨as, g, hrun, hg⟩ := exists_run_sending (hf.step hst) rfl
    exact ⟨_, g, (Run.single (by exact rfl) hst).append hrun, hg⟩
  | sending left rest => exact exists_run_sending hf hphase
  | relaying copy =>
    cases hres : copy.result with
    | none => exact exists_run_relaying hf hphase hres
    | some r =>
      simp only [Alive, hphase, hres] at halive
      cases r with
      | error e => exact absurd rfl (halive e)
      | ok r => exact ⟨[], f, .nil f, hf.toDest_eq ⟨copy, r, hphase, hres⟩⟩
  | failed e => simp [Alive, hphase] at halive

/-! ## Handing a stream over -/

/-- The fallback is transparent for `stream`: whatever happens, `dest` has got the
    beginning of it, and all of it if the call returns `Ok`; and as long as `dest`
    accepts, nothing fails and no timeout elapses, all of it can still get there. -/
structure Transparent (f : Fallback) (stream : Bytes) : Prop where
  safe : ∀ as g, Run Fallback.step Any f as g → g.toDest <+: stream
  complete : ∀ as g, Run Fallback.step Any f as g → g.Succeeded → g.toDest = stream
  live : ∀ as g, Run Fallback.step Benign f as g →
    ∃ bs h, Run Fallback.step Benign g bs h ∧ h.toDest = stream

theorem transparent_start (limits : RelayLimits) (answer buffer rest : Bytes) :
    Transparent (start limits answer buffer rest) (buffer ++ rest) := by
  have hinv : Inv (buffer ++ rest) (start limits answer buffer rest) := ⟨rfl, rfl⟩
  have halive : Alive (start limits answer buffer rest) := trivial
  refine ⟨fun as g h => (hinv.run h).toDest_isPrefix, fun as g h => (hinv.run h).toDest_eq,
    fun as g h => exists_run_toDest (hinv.run h) ?_⟩
  exact h.invariant (fun _ _ _ halive hb hst => halive.step hb hst) halive

end Fallback

/-- The connection falls back, and the fallback server sees the client's bytes. -/
def HandedOver (P : Crypto) (t : RealityTransport) (s : ClientStream) : Prop :=
  ∃ buffer rest, t.accept P s = .ok (.fallback, buffer, rest) ∧
    ∀ answer, (Fallback.start t.relayLimits answer buffer rest.flatten).Transparent s.bytes

/-- The header arrives, and then the record or the end of the stream. -/
def Sniffs (s : ClientStream) : Prop :=
  5 ≤ s.bytes.length ∧ (s.ending = .eof ∨ wantsMore (needed s.bytes) s.bytes = false)

section

variable {s : ClientStream}

theorem wantsMore_of_isPrefix {n : ℕ} {l l' : Bytes} (h : l <+: l')
    (hmore : wantsMore n l' = true) : wantsMore n l = true := by
  have := h.length_le
  simp only [wantsMore, Bool.and_eq_true, decide_eq_true_eq] at hmore ⊢
  omega

theorem wantsMore_second (h5 : 5 ≤ s.bytes.length) :
    let first := readWhile (·.length < 5) [] s.chunks
    wantsMore (needed first.1) (readWhile (wantsMore (needed first.1)) first.1 first.2).1 =
      wantsMore (needed s.bytes) s.bytes := by
  intro first
  have hfirst : 5 ≤ first.1.length := five_le_length_first h5
  have hflat : first.1 ++ first.2.flatten = s.bytes := readWhile_flatten _ [] s.chunks
  have hbyte : ∀ i < 5, byteAt s.bytes i = byteAt first.1 i := by
    intro i hi
    rw [← hflat, byteAt_append_left (by omega)]
  by_cases htype : byteAt first.1 0 = 0x16
  · have hneeded : needed s.bytes = needed first.1 := by
      rw [needed, needed, hbyte 0 (by omega), hbyte 3 (by omega), hbyte 4 (by omega), if_pos htype,
        if_pos htype]
    rw [hneeded, Bool.eq_iff_iff]
    constructor
    · intro h
      rw [readWhile_of_more h, hflat] at h
      exact h
    · exact wantsMore_of_isPrefix ⟨_, (readWhile_flatten _ _ _).trans hflat⟩
  · -- not a handshake record: what was read suffices
    have hwhole : ∀ l : Bytes, byteAt l 0 ≠ 0x16 → wantsMore (needed l) l = false := by
      intro l hl
      simp [needed, hl, wantsMore]
    have hstop : (readWhile (wantsMore (needed first.1)) first.1 first.2).1 = first.1 := by
      cases hrest : first.2 with
      | nil => rfl
      | cons c cs => rw [readWhile, if_neg (by simp [hwhole first.1 htype])]
    rw [hstop, hwhole _ htype, hwhole _ (by rwa [hbyte 0 (by omega)])]

theorem readClientHelloPrefix_flatten {buffer : Bytes} {rest : List Bytes}
    (h : readClientHelloPrefix s = .ok (buffer, rest)) : buffer ++ rest.flatten = s.bytes := by
  have hflat := (readWhile_flatten (wantsMore (needed (readWhile (·.length < 5) [] s.chunks).1))
    (readWhile (·.length < 5) [] s.chunks).1 (readWhile (·.length < 5) [] s.chunks).2).trans
    (readWhile_flatten (·.length < 5) [] s.chunks)
  simp only [readClientHelloPrefix] at h
  split_ifs at h with h5 hmore
  · cases hend : s.ending <;> simp [Ending.read, hend] at h
  · cases hend : s.ending <;> simp only [Ending.read, hend, reduceCtorEq, Except.ok.injEq] at h
    rw [h] at hflat
    exact hflat
  · rw [Except.ok.inj h] at hflat
    exact hflat

theorem readClientHelloPrefix_ok_iff : (∃ r, readClientHelloPrefix s = .ok r) ↔ Sniffs s := by
  by_cases h5 : 5 ≤ s.bytes.length
  · have hfirst := five_le_length_first h5
    simp only [readClientHelloPrefix, if_neg (Nat.not_lt.mpr hfirst), wantsMore_second h5, Sniffs,
      h5, true_and]
    cases wantsMore (needed s.bytes) s.bytes with
    | false => simp
    | true => cases s.ending <;> simp [Ending.read]
  · have hshort : (readWhile (·.length < 5) [] s.chunks).1.length < 5 :=
      (readWhile_isPrefix _ s).length_le.trans_lt (by omega)
    simp only [readClientHelloPrefix, if_pos hshort, Sniffs, h5, false_and, iff_false]
    cases s.ending <;> simp [Ending.read]

end

/-- A stream that does not authenticate is handed over, and transparently, exactly if the
    server comes to the end of its sniffing. -/
theorem handedOver_iff (P : Crypto) (t : RealityTransport) (s : ClientStream)
    (hs : ∀ authKey r, t.accept P s ≠ .ok (.reality authKey, r)) :
    HandedOver P t s ↔ Sniffs s := by
  rw [← readClientHelloPrefix_ok_iff]
  constructor
  · rintro ⟨buffer, rest, h, -⟩
    cases hr : readClientHelloPrefix s with
    | error e => simp [RealityTransport.accept, hr, Except.map] at h
    | ok r => exact ⟨r, rfl⟩
  · rintro ⟨⟨buffer, rest⟩, hr⟩
    have haccept : t.accept P s = .ok (.fallback, buffer, rest) := by
      cases hd : t.decide P buffer with
      | none => simp [RealityTransport.accept, hr, Except.map, hd]
      | some authKey =>
        refine absurd ?_ (hs authKey (buffer, rest))
        simp [RealityTransport.accept, hr, Except.map, hd]
    refine ⟨buffer, rest, haccept, fun answer => ?_⟩
    rw [← readClientHelloPrefix_flatten hr]
    exact Fallback.transparent_start _ _ _ _

theorem reads_hello :
    ∀ c ∈ ([[72, 101], [108, 108, 111]] : List Bytes), c ≠ [] ∧ c.length ≤ 1024 := by
  decide

theorem handedOver_iff_hello :
    HandedOver samplePrimitives (sampleTransport ["a"] [1, 2, 3, 4, 5, 6, 7, 8])
      ⟨_, .eof, reads_hello⟩ := by
  have haccept : (sampleTransport ["a"] [1, 2, 3, 4, 5, 6, 7, 8]).accept samplePrimitives
      ⟨_, .eof, reads_hello⟩ = .ok (.fallback, [72, 101, 108, 108, 111], []) := by
    decide +kernel
  refine (handedOver_iff _ _ _ fun authKey r => ?_).mpr ⟨by decide, .inl rfl⟩
  rw [haccept]
  simp

theorem reads_short : ∀ c ∈ ([[0x16, 3, 1]] : List Bytes), c ≠ [] ∧ c.length ≤ 1024 := by
  decide

theorem short_stream_closed :
    (sampleTransport ["a"] [1, 2, 3, 4, 5, 6, 7, 8]).accept samplePrimitives
        ⟨_, .eof, reads_short⟩ = .error (.reality .earlyClose) ∧
      ¬ HandedOver samplePrimitives (sampleTransport ["a"] [1, 2, 3, 4, 5, 6, 7, 8])
        ⟨_, .eof, reads_short⟩ := by
  have haccept : (sampleTransport ["a"] [1, 2, 3, 4, 5, 6, 7, 8]).accept samplePrimitives
      ⟨_, .eof, reads_short⟩ = .error (.reality .earlyClose) := by
    decide +kernel
  refine ⟨haccept, ?_⟩
  rintro ⟨buffer, rest, h, -⟩
  rw [haccept] at h
  cases h

end SkadiCore.Reality
