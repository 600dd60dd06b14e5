import SkadiCore.Xhttp.Common
import SkadiCore.Xhttp.Server

/-!
# The reader of an upload queue

Model of `UploadReader` (`crates/skadi-transport/src/xhttp/common.rs`, lines 153-194): it gives
out the chunks of a channel as a stream of bytes. The channel, its senders and the caller of
`poll_read` are the steps of `Upload`.

**Defect.** An empty chunk completes a read with zero bytes, which is how a reader reports the
end of the stream.
-/

namespace SkadiCore.Xhttp

structure UploadReader (capacity : ℕ) where
  rx : Channel Bytes capacity
  buf : Bytes

namespace UploadReader

variable {capacity : ℕ}

def new (rx : Channel Bytes capacity) : UploadReader capacity := ⟨rx, []⟩

/-- `poll_read` (lines 169-193) with a buffer of `n` bytes: the bytes it puts there. `poll_recv`
    waits at an empty queue if there are `senders`. -/
def pollRead (r : UploadReader capacity) (senders : Bool) (n : ℕ) :
    UploadReader capacity × Poll Bytes :=
  if !r.buf.isEmpty then (⟨r.rx, r.buf.drop n⟩, .ready (r.buf.take n))
  else
    match r.rx.recv with
    | some rx =>
      let chunk := r.rx.queue.headD []
      (⟨rx, if n < chunk.length then chunk.drop n else r.buf⟩, .ready (chunk.take n))
    | none => (r, if senders then .pending else .ready [])

def left (r : UploadReader capacity) : Bytes := r.buf ++ r.rx.queue.flatten

inductive Reads (r : UploadReader capacity) (senders : Bool) (n : ℕ) :
    UploadReader capacity × Poll Bytes → Prop
  | buffered : r.buf ≠ [] → Reads r senders n (⟨r.rx, r.buf.drop n⟩, .ready (r.buf.take n))
  | received (chunk : Bytes) (queue : List Bytes) (rx : Channel Bytes capacity) : r.buf = [] →
      r.rx.recv = some rx → r.rx.queue = chunk :: queue → rx.queue = queue →
      Reads r senders n (⟨rx, chunk.drop n⟩, .ready (chunk.take n))
  | waiting : r.buf = [] → r.rx.queue = [] → senders = true → Reads r senders n (r, .pending)
  | ended : r.buf = [] → r.rx.queue = [] → senders = false → Reads r senders n (r, .ready [])

theorem reads (r : UploadReader capacity) (senders : Bool) (n : ℕ) :
    r.Reads senders n (r.pollRead senders n) := by
  unfold pollRead
  by_cases hbuf : r.buf = []
  · rw [if_neg (by simp [hbuf])]
    cases hrecv : r.rx.recv with
    | none =>
      have hqueue := Channel.recv_eq_none.mp hrecv
      cases senders with
      | false => exact .ended hbuf hqueue rfl
      | true => exact .waiting hbuf hqueue rfl
    | some rx =>
      obtain ⟨chunk, queue, hq, hq', -, -⟩ := Channel.recv_eq hrecv
      have hdrop : (if n < chunk.length then chunk.drop n else r.buf) = chunk.drop n := by
        split_ifs with hlt
        · rfl
        · rw [hbuf, List.drop_eq_nil_of_le (not_lt.mp hlt)]
      simp only [hq, List.headD_cons, hdrop]
      exact .received chunk queue rx hbuf hrecv hq hq'
  · rw [if_pos (by simp [hbuf])]
    exact .buffered hbuf

variable {r r' : UploadReader capacity} {senders : Bool}

theorem left_of_ready {n : ℕ} {out : Bytes} (h : r.Reads senders n (r', .ready out)) :
    r.left = out ++ r'.left ∧ r'.rx.sent = r.rx.sent := by
  cases h with
  | buffered =>
    refine ⟨?_, rfl⟩
    rw [left, left, ← List.append_assoc, List.take_append_drop]
  | received chunk queue rx hbuf hrecv hq hq' =>
    refine ⟨?_, Channel.sent_recv hrecv⟩
    rw [left, left, hbuf, hq, hq', List.nil_append, List.flatten_cons, ← List.append_assoc,
      List.take_append_drop]
  | ended => exact ⟨rfl, rfl⟩

theorem senders_of_pending {n : ℕ} (h : r.Reads senders n (r', .pending)) :
    r' = r ∧ senders = true := by
  cases h with
  | waiting _ _ hsenders => exact ⟨rfl, hsenders⟩

theorem ended_of_nil {n : ℕ} (hqueue : [] ∉ r.rx.queue) (hn : 0 < n)
    (h : r.Reads senders n (r', .ready [])) : senders = false ∧ r.left = [] := by
  have htake : ∀ bytes : Bytes, [] = bytes.take n → bytes = [] := by
    intro bytes hbytes
    have := List.take_eq_nil_iff.mp hbytes.symm
    exact this.resolve_left (by omega)
  generalize hp : (r', Poll.ready ([] : Bytes)) = p at h
  cases h with
  | buffered hbuf =>
    simp only [Prod.mk.injEq, Poll.ready.injEq] at hp
    exact absurd (htake _ hp.2) hbuf
  | received chunk queue rx _ _ hq _ =>
    simp only [Prod.mk.injEq, Poll.ready.injEq] at hp
    rw [hq, htake _ hp.2] at hqueue
    exact absurd List.mem_cons_self hqueue
  | waiting => simp at hp
  | ended hbuf hq hsenders => exact ⟨hsenders, by rw [left, hbuf, hq]; rfl⟩

end UploadReader

/-! ## The sessions of the server -/

namespace Sessions

open UploadReader

variable {r r' : Sessions} {i n ref : ℕ} {io : Io} {cell : Cell}

theorem take_eq (io : Io) (bytes : Bytes) (n : ℕ) : take io bytes n = { io with
    buf := bytes.drop n
    got := io.got ++ bytes.take n
    eof := io.eof || (decide (0 < n) && (bytes.take n).isEmpty) } := by
  cases n <;> cases bytes <;> rfl

theorem readUpload_eq {p : UploadReader uploadQueueSize × Poll Bytes}
    (hcell : r.cells[ref]? = some cell)
    (h : UploadReader.pollRead ⟨cell.queue, io.buf⟩ (r.referred ref) n = p) :
    (p.2 = .pending → r.readUpload i n io ref = none) ∧
      ∀ out, p.2 = .ready out → ∃ r', r.readUpload i n io ref = some r' ∧
        r'.ios = r.ios.set i { io with
          buf := p.1.buf
          got := io.got ++ out
          eof := io.eof || (decide (0 < n) && out.isEmpty) } ∧
        (r'.cells[ref]?).map Cell.queue = some p.1.rx := by
  have hreads := UploadReader.reads ⟨cell.queue, io.buf⟩ (r.referred ref) n
  rw [h] at hreads
  cases hreads with
  | buffered hbuf =>
    refine ⟨fun hout => (by cases hout), fun out hout => ?_⟩
    cases hout
    refine ⟨_, if_pos hbuf, ?_, ?_⟩
    · rw [setIo, take_eq]
    · simp [setIo, hcell]
  | received chunk queue rx hbuf hrecv hq hq' =>
    have hbuf : io.buf = [] := hbuf
    have hrecv : cell.queue.recv = some rx := hrecv
    have hq : cell.queue.queue = chunk :: queue := hq
    refine ⟨fun hout => (by cases hout), fun out hout => ?_⟩
    cases hout
    refine ⟨(r.setIo i (take io chunk n)).modifyCell ref fun cell => cell.setQueue rx, ?_, ?_, ?_⟩
    · rw [readUpload, if_neg (by simp [hbuf]), hcell, Option.bind_some]
      simp only [hrecv, hq, List.headD_cons]
    · rw [modifyCell, setIo, take_eq]
    · simp [modifyCell, setIo, hcell, Cell.setQueue, Cell.queue]
  | waiting hbuf hq hsenders =>
    have hbuf : io.buf = [] := hbuf
    refine ⟨fun _ => ?_, fun out hout => (by cases hout)⟩
    rw [readUpload, if_neg (by simp [hbuf]), hcell, Option.bind_some]
    simp only [Channel.recv_eq_none.mpr hq, hsenders, if_true]
  | ended hbuf hq hsenders =>
    have hbuf : io.buf = [] := hbuf
    refine ⟨fun hout => (by cases hout), fun out hout => ?_⟩
    cases hout
    refine ⟨r.setIo i (take io [] n), ?_, ?_, ?_⟩
    · rw [readUpload, if_neg (by simp [hbuf]), hcell, Option.bind_some]
      simp only [Channel.recv_eq_none.mpr hq, hsenders, Bool.false_eq_true, if_false]
    · simp [setIo, take, hbuf]
    · simp [setIo, hcell]

end Sessions

/-! ## The stream -/

structure Upload (capacity : ℕ) where
  reader : UploadReader capacity
  senders : Bool
  returned : Bytes

inductive UploadAct
  | send (chunk : Bytes)
  | dropSenders
  | read (n : ℕ)

namespace Upload

variable {capacity : ℕ}

def init (capacity : ℕ) : Upload capacity := ⟨.new (.new Bytes capacity), true, []⟩

def sent (s : Upload capacity) : List Bytes := s.reader.rx.sent

def took (s : Upload capacity) (r : UploadReader capacity × Poll Bytes) : Upload capacity :=
  match r.2 with
  | .ready out => ⟨r.1, s.senders, s.returned ++ out⟩
  | .pending => ⟨r.1, s.senders, s.returned⟩

def read (s : Upload capacity) (n : ℕ) : Upload capacity := s.took (s.reader.pollRead s.senders n)

def step (s : Upload capacity) : UploadAct → Option (Upload capacity)
  | .send chunk =>
    if s.senders && s.reader.rx.free then
      some { s with reader := { s.reader with rx := s.reader.rx.offer chunk } }
    else none
  | .dropSenders => some { s with senders := false }
  | .read n => if 0 < n then some (s.read n) else none

/-- The next read, of `n` bytes, returns the end of the stream. -/
def EndsWith (s : Upload capacity) (n : ℕ) : Prop :=
  (s.reader.pollRead s.senders n).2 = .ready []

/-- The reader is a byte stream for the chunks `cs`, whenever they are sent and with whatever
    buffers it is read: what was given out is the front of the chunks and what is left the rest;
    a read is completed with zero bytes only if the senders are gone and all was given out; and
    behind the senders, as many reads as there are bytes give out all of them. -/
structure Faithful (capacity : ℕ) (cs : List Bytes) : Prop where
  exact : ∀ {as} {s : Upload capacity}, Run step Any (init capacity) as s → s.sent <+: cs →
    s.returned ++ s.reader.left = s.sent.flatten
  end_last : ∀ {as} {s : Upload capacity} {n : ℕ}, Run step Any (init capacity) as s →
    s.sent <+: cs → 0 < n → s.EndsWith n → s.senders = false ∧ s.returned = s.sent.flatten
  complete : ∀ {as} {s : Upload capacity} {sizes : List ℕ}, Run step Any (init capacity) as s →
    s.sent <+: cs → s.senders = false → (∀ n ∈ sizes, 0 < n) →
    s.reader.left.length ≤ sizes.length →
    (sizes.foldl read s).returned = s.sent.flatten ∧ ∀ n, (sizes.foldl read s).EndsWith n

variable {s t : Upload capacity} {cs : List Bytes}

/-! ### One step -/

structure Inv (s : Upload capacity) : Prop where
  exact : s.returned ++ s.reader.left = s.sent.flatten
  opened : s.reader.rx.closed = false

theorem Inv.init (capacity : ℕ) : (init capacity).Inv := ⟨rfl, rfl⟩

theorem read_spec (s : Upload capacity) (n : ℕ) : (s.read n).senders = s.senders ∧
    (s.read n).sent = s.sent ∧ ∃ out, (s.read n).returned = s.returned ++ out ∧
      s.reader.left = out ++ (s.read n).reader.left := by
  have hreads := s.reader.reads s.senders n
  unfold read
  generalize s.reader.pollRead s.senders n = p at hreads
  obtain ⟨reader, answer⟩ := p
  cases answer with
  | ready out =>
    obtain ⟨hleft, hsent⟩ := UploadReader.left_of_ready hreads
    exact ⟨rfl, hsent, out, rfl, hleft⟩
  | pending =>
    obtain ⟨rfl, -⟩ := UploadReader.senders_of_pending hreads
    exact ⟨rfl, rfl, [], (List.append_nil _).symm, rfl⟩

theorem closed_read (s : Upload capacity) (n : ℕ) :
    (s.read n).reader.rx.closed = s.reader.rx.closed := by
  have hreads := s.reader.reads s.senders n
  unfold read
  generalize s.reader.pollRead s.senders n = p at hreads
  cases hreads with
  | received chunk queue rx _ hrecv _ _ =>
    obtain ⟨-, -, -, -, -, hclosed⟩ := Channel.recv_eq hrecv
    exact hclosed
  | buffered | waiting | ended => rfl

theorem Inv.read (h : s.Inv) (n : ℕ) : (s.read n).Inv := by
  obtain ⟨-, hsent, out, hreturned, hleft⟩ := s.read_spec n
  refine ⟨?_, by rw [closed_read, h.opened]⟩
  rw [hsent, ← h.exact, hreturned, hleft, List.append_assoc]

theorem send_spec {chunk : Bytes} (h : s.Inv) (hst : s.step (.send chunk) = some t) :
    t.senders = true ∧ t.reader.buf = s.reader.buf ∧
      t.reader.rx.queue = s.reader.rx.queue ++ [chunk] ∧ t.sent = s.sent ++ [chunk] ∧
      t.returned = s.returned ∧ t.reader.rx.closed = false := by
  rw [step, Option.ite_none_right_eq_some, Bool.and_eq_true] at hst
  obtain ⟨⟨hsenders, hfree⟩, ht⟩ := hst
  have hlt : s.reader.rx.queue.length < capacity := by simpa [Channel.free, h.opened] using hfree
  obtain ⟨hqueue, hreceived, hclosed⟩ := Channel.offer_of_lt h.opened hlt chunk
  cases ht
  refine ⟨hsenders, rfl, hqueue, ?_, rfl, hclosed⟩
  simp only [sent, Channel.sent, hqueue, hreceived, List.append_assoc]

theorem Inv.step {a : UploadAct} (h : s.Inv) (hst : s.step a = some t) : t.Inv := by
  cases a with
  | send chunk =>
    obtain ⟨-, hbuf, hqueue, hsent, hreturned, hclosed⟩ := send_spec h hst
    refine ⟨?_, hclosed⟩
    rw [hsent, List.flatten_append, ← h.exact, hreturned, UploadReader.left, UploadReader.left,
      hbuf, hqueue]
    simp
  | dropSenders =>
    cases hst
    exact ⟨h.exact, h.opened⟩
  | read n =>
    rw [Upload.step, Option.ite_none_right_eq_some] at hst
    obtain ⟨-, ht⟩ := hst
    cases ht
    exact h.read n

theorem Inv.run {as : List UploadAct} (h : Run Upload.step Any (Upload.init capacity) as s) :
    s.Inv :=
  Run.invariant (fun _ _ _ hs _ hst => hs.step hst) (Inv.init capacity) h

/-! ### Chunks that are not empty -/

theorem nil_notMem_queue (h : [] ∉ s.sent) : [] ∉ s.reader.rx.queue := by
  intro hmem
  exact h (List.mem_append_right _ hmem)

theorem ended_of_endsWith {n : ℕ} (hne : [] ∉ s.sent) (hn : 0 < n) (h : s.EndsWith n) :
    s.senders = false ∧ s.reader.left = [] := by
  have hreads := s.reader.reads s.senders n
  unfold EndsWith at h
  generalize s.reader.pollRead s.senders n = p at hreads h
  obtain ⟨reader, answer⟩ := p
  cases h
  exact UploadReader.ended_of_nil (nil_notMem_queue hne) hn hreads

theorem length_left_read {n : ℕ} (hne : [] ∉ s.sent) (hsenders : s.senders = false) (hn : 0 < n) :
    (s.read n).reader.left.length ≤ s.reader.left.length - 1 := by
  by_cases hends : s.EndsWith n
  · obtain ⟨-, hnil⟩ := ended_of_endsWith hne hn hends
    obtain ⟨-, -, out, -, hleft⟩ := s.read_spec n
    rw [hnil] at hleft
    rw [(List.append_eq_nil_iff.mp hleft.symm).2]
    exact Nat.zero_le _
  · have hreads := s.reader.reads s.senders n
    unfold EndsWith at hends
    unfold read
    generalize s.reader.pollRead s.senders n = p at hreads hends
    obtain ⟨reader, answer⟩ := p
    cases answer with
    | pending =>
      obtain ⟨-, htrue⟩ := UploadReader.senders_of_pending hreads
      rw [hsenders] at htrue
      cases htrue
    | ready out =>
      obtain ⟨hleft, -⟩ := UploadReader.left_of_ready hreads
      have hout : 0 < out.length := by
        refine List.length_pos_of_ne_nil fun hnil => hends ?_
        rw [hnil]
      rw [hleft, List.length_append]
      show reader.left.length ≤ _
      omega

theorem endsWith_of_left (hsenders : s.senders = false) (hleft : s.reader.left = []) (n : ℕ) :
    s.EndsWith n := by
  obtain ⟨hbuf, hflat⟩ := List.append_eq_nil_iff.mp hleft
  have hreads := s.reader.reads s.senders n
  unfold EndsWith
  generalize s.reader.pollRead s.senders n = p at hreads
  cases hreads with
  | buffered hne => exact absurd hbuf hne
  | received chunk queue rx _ _ hq _ =>
    rw [hq, List.flatten_cons] at hflat
    rw [(List.append_eq_nil_iff.mp hflat).1, List.take_nil]
  | waiting _ _ htrue =>
    rw [hsenders] at htrue
    cases htrue
  | ended => rfl

theorem reads_complete {sizes : List ℕ} : ∀ {s : Upload capacity}, s.Inv → [] ∉ s.sent →
    s.senders = false → (∀ n ∈ sizes, 0 < n) → s.reader.left.length ≤ sizes.length →
    (sizes.foldl read s).returned = s.sent.flatten ∧ ∀ n, (sizes.foldl read s).EndsWith n := by
  induction sizes with
  | nil =>
    intro s hinv _ hsenders _ hlen
    have hleft : s.reader.left = [] := List.eq_nil_of_length_eq_zero (by simpa using hlen)
    refine ⟨?_, endsWith_of_left hsenders hleft⟩
    have hexact := hinv.exact
    rwa [hleft, List.append_nil] at hexact
  | cons n sizes ih =>
    intro s hinv hne hsenders hsizes hlen
    obtain ⟨hn, hsizes⟩ := List.forall_mem_cons.mp hsizes
    obtain ⟨hsame, hsent, -⟩ := s.read_spec n
    have hless := length_left_read hne hsenders hn
    rw [List.foldl_cons, ← hsent]
    refine ih (hinv.read n) (by rwa [hsent]) (by rw [hsame, hsenders]) hsizes ?_
    simp only [List.length_cons] at hlen
    omega

theorem faithful_of_nonempty (h : [] ∉ cs) : Faithful capacity cs where
  exact hrun _ := (Inv.run hrun).exact
  end_last hrun hsent hn hends := by
    have hne := fun hmem => h (hsent.subset hmem)
    obtain ⟨hsenders, hleft⟩ := ended_of_endsWith hne hn hends
    have hexact := (Inv.run hrun).exact
    rw [hleft, List.append_nil] at hexact
    exact ⟨hsenders, hexact⟩
  complete hrun hsent hsenders hsizes hlen :=
    reads_complete (Inv.run hrun) (fun hmem => h (hsent.subset hmem)) hsenders hsizes hlen

/-! ### Empty chunks -/

theorem exists_drained (hcap : 0 < capacity) (cs : List Bytes) :
    ∃ as s, Run step Any (init capacity) as s ∧ s.sent = cs ∧ s.senders = true ∧
      s.reader.buf = [] ∧ s.reader.rx.queue = [] := by
  induction cs using List.reverseRecOn with
  | nil => exact ⟨[], _, .nil _, rfl, rfl, rfl, rfl⟩
  | append_singleton cs chunk ih =>
    obtain ⟨as, s, hrun, hsent, hsenders, hbuf, hqueue⟩ := ih
    have hinv := Inv.run hrun
    obtain ⟨t, ht⟩ : ∃ t, s.step (.send chunk) = some t := by
      refine ⟨_, if_pos ?_⟩
      simp [Channel.free, hsenders, hqueue, hcap]
    obtain ⟨hsenders', hbuf', hqueue', hsent', -, -⟩ := send_spec hinv ht
    have hrun' := hrun.snoc trivial ht
    have hread : t.step (.read (chunk.length + 1)) = some (t.read (chunk.length + 1)) := by
      rw [step, if_pos (Nat.succ_pos _)]
    obtain ⟨hsame, hsent'', -⟩ := t.read_spec (chunk.length + 1)
    refine ⟨_, _, hrun'.snoc trivial hread, ?_, by rw [hsame, hsenders'], ?_⟩
    · rw [hsent'', hsent', hsent]
    · have hreads := t.reader.reads t.senders (chunk.length + 1)
      unfold read
      generalize t.reader.pollRead t.senders (chunk.length + 1) = p at hreads
      rw [hqueue, List.nil_append] at hqueue'
      cases hreads with
      | buffered hne => exact absurd (hbuf'.trans hbuf) hne
      | received chunk' queue rx _ _ hq hq' =>
        rw [hqueue'] at hq
        cases hq
        exact ⟨List.drop_eq_nil_of_le (Nat.le_succ _), hq'⟩
      | waiting _ hq _ | ended _ hq _ =>
        rw [hqueue'] at hq
        cases hq

theorem endsWith_of_nil {queue : List Bytes} (hbuf : s.reader.buf = [])
    (hqueue : s.reader.rx.queue = [] :: queue) (n : ℕ) : s.EndsWith n := by
  have hreads := s.reader.reads s.senders n
  unfold EndsWith
  generalize s.reader.pollRead s.senders n = p at hreads
  cases hreads with
  | buffered hne => exact absurd hbuf hne
  | received chunk queue' rx _ _ hq _ =>
    rw [hqueue] at hq
    cases hq
    show Poll.ready (List.take n []) = .ready []
    rw [List.take_nil]
  | waiting _ hq _ | ended _ hq _ => exact absurd (hqueue.symm.trans hq) (List.cons_ne_nil _ _)

/-- A reader is a byte stream for some chunks exactly if none of them is empty. -/
theorem faithful_iff (hcap : 0 < capacity) (cs : List Bytes) :
    Faithful capacity cs ↔ [] ∉ cs := by
  refine ⟨fun hfaithful hmem => ?_, faithful_of_nonempty⟩
  obtain ⟨before, behind, rfl⟩ := List.append_of_mem hmem
  obtain ⟨as, s, hrun, hsent, hsenders, hbuf, hqueue⟩ := exists_drained hcap before
  obtain ⟨t, ht⟩ : ∃ t, s.step (.send []) = some t := by
    refine ⟨_, if_pos ?_⟩
    simp [Channel.free, hsenders, hqueue, hcap]
  obtain ⟨hsenders', hbuf', hqueue', hsent', -, -⟩ := send_spec (Inv.run hrun) ht
  have hsub : t.sent <+: before ++ [] :: behind := by
    rw [hsent', hsent]
    exact ⟨behind, by simp⟩
  have hends : t.EndsWith 1 := by
    have hq : t.reader.rx.queue = [[]] := by rw [hqueue', hqueue, List.nil_append]
    exact endsWith_of_nil (hbuf'.trans hbuf) hq 1
  obtain ⟨hgone, -⟩ := hfaithful.end_last (hrun.snoc trivial ht) hsub Nat.one_pos hends
  rw [hsenders'] at hgone
  cases hgone

theorem faithful_pair : Faithful uploadQueueSize [[1, 2], [3]] :=
  (faithful_iff (by decide) _).mpr (by decide)

end Upload

theorem empty_packet_ends :
    (XhttpSession.new.pushPacket 0 []).uploadTx.queue = [[]] ∧
    ((UploadReader.new (XhttpSession.new.pushPacket 0 []).uploadTx).pollRead true 8).2 =
      .ready [] ∧
    ¬ Upload.Faithful uploadQueueSize [[], [1]] := by
  have hpush : (XhttpSession.new.pushPacket 0 []).uploadTx =
      (Channel.new Bytes uploadQueueSize).offer [] := by
    have hnext := PacketState.push_next (k := 0) (by norm_num) [] XhttpSession.new.uploadTx
    exact congrArg Prod.snd hnext
  refine ⟨by rw [hpush]; rfl, by rw [hpush]; rfl, fun h => ?_⟩
  -- the empty chunk is sent, and the next read is completed with nothing
  obtain ⟨s, hs, hsent, hends, hsenders⟩ : ∃ s : Upload uploadQueueSize,
      exec Upload.step (fun _ _ => true) (Upload.init uploadQueueSize) [.send []] = some s ∧
      s.sent = [[]] ∧ s.EndsWith 1 ∧ s.senders = true :=
    ⟨_, rfl, rfl, rfl, rfl⟩
  have hrun : Run Upload.step Any _ _ s := exec_any hs
  obtain ⟨hgone, -⟩ := h.end_last hrun (by rw [hsent]; exact ⟨[[1]], rfl⟩) Nat.one_pos hends
  rw [hsenders] at hgone
  cases hgone

end SkadiCore.Xhttp
